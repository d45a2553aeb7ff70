import Desmume.Library.BitFields
import Desmume.Library.ByteFile
import Desmume.Library.Run
import Mathlib.Logic.Function.Basic

/-! The flash memory of a GBA cartridge in slot 2. It takes its commands as writes to two addresses, and
the data are written to the same addresses. -/

namespace Desmume.Card
open Library

/-- `gbaFlash` of `Slot2_GbaCart`, with the data of `fSRAM`, which may be null. -/
structure GbaFlash where
  fSRAM : Option (List (BitVec 8))
  state : BitVec 8
  cmd : BitVec 8
  idDevice : BitVec 8
  idManufacturer : BitVec 8
  bank : BitVec 8

namespace GbaFlash

variable (s : GbaFlash)

/-- `readSRAM` of one byte. Behind the end of the file nothing is read over `0xFFFFFFFF`. -/
def readSRAM (pos : BitVec 32) : BitVec 8 := (s.fSRAM.bind fun data => data[pos.toNat]?).getD 0xFF

def writeSRAM (pos : BitVec 32) (bytes : List (BitVec 8)) : GbaFlash :=
  { s with fSRAM := s.fSRAM.map fun data => splice data pos.toNat bytes }

/-- `(adr & 0x1FFFF) + (0x10000 * gbaFlash.bank)`. -/
def place (adr : BitVec 32) : BitVec 32 := (adr &&& 0x1FFFF) + 0x10000 * s.bank.setWidth 32

/-- Behind the `switch` of `gbaWriteFlash`. -/
def writeData (adr : BitVec 32) (val : BitVec 8) : GbaFlash :=
  if s.cmd = 0xA0 then { s.writeSRAM (s.place adr) [val] with state := 0, cmd := 0 } else s

/-- A case of the `switch` that waits for one write and is given up by any other. -/
def await (next : BitVec 8) (expected : BitVec 32 × BitVec 8) (adr : BitVec 32) (val : BitVec 8) :
    GbaFlash :=
  if (adr, val) = expected then { s with state := next } else { s with state := 0 }.writeData adr val

/-- `tmp`, as it is set before it is written to a sector. -/
def erasedSector : List (BitVec 8) := List.replicate 0x1000 0xFF

/-- `gbaWriteFlash`. -/
def gbaWriteFlash (adr : BitVec 32) (val : BitVec 8) : GbaFlash :=
  if s.fSRAM.isNone then s
  else if s.state = 0 then
    if adr = 0x0A005555 ∧ val = 0xF0 then { s with state := 0, cmd := 0 }
    else if adr = 0x0A005555 ∧ val = 0xAA then { s with state := 1 }
    else if adr = 0x0A000000 ∧ s.cmd = 0xB0 then { s with bank := val, cmd := 0 }
    else s.writeData adr val
  else if s.state = 1 then s.await 2 (0x0A002AAA, 0x55) adr val
  else if s.state = 2 then
    if adr = 0x0A005555 then
      { s with
        state := if val = 0x80 then 0x80 else if val = 0x90 then 0x90 else 0
        cmd := val }
    else { s with state := 0 }.writeData adr val
  else if s.state = 0x80 then s.await 0x81 (0x0A005555, 0xAA) adr val
  else if s.state = 0x81 then s.await 0x82 (0x0A002AAA, 0x55) adr val
  else if s.state = 0x82 then
    let ofs := (adr &&& 0x0000F000) + 0x10000 * s.bank.setWidth 32
    let s := if val = 0x30 then s.writeSRAM ofs erasedSector else s
    { s with state := 0, cmd := 0 }
  else if s.state = 0x90 then s.await 0x91 (0x0A005555, 0xAA) adr val
  else if s.state = 0x91 then s.await 0x92 (0x0A002AAA, 0x55) adr val
  else if s.state = 0x92 then { s with state := 0, cmd := 0 }
  else s.writeData adr val

/-- `gbaReadFlash`. -/
def gbaReadFlash (adr : BitVec 32) : BitVec 8 × GbaFlash :=
  if s.fSRAM.isNone then (0xFF, s)
  else if s.cmd = 0 then (s.readSRAM (s.place adr), s)
  else if s.cmd = 0x90 ∧ adr = 0x0A000000 then (s.idManufacturer, s)
  else if s.cmd = 0x90 ∧ adr = 0x0A000001 then (s.idDevice, s)
  else if s.cmd = 0xF0 then (0xFF, { s with state := 0, cmd := 0 })
  else (0xFF, s)

/-- The address of a place in the window. -/
def windowAddr (off : BitVec 16) : BitVec 32 := 0x0A000000 + off.setWidth 32

def writes (ws : List (BitVec 32 × BitVec 8)) : GbaFlash := ws.foldl (fun s w => s.gbaWriteFlash w.1 w.2) s

end GbaFlash

/-! ### The commands of a program -/

/-- What a program does with the flash, each time with all of its writes. -/
inductive FlashCommand where
  | program (off : BitVec 16) (val : BitVec 8)
  | erase (off : BitVec 16)
  | selectBank (bank : BitVec 8)
  | read (off : BitVec 16)

/-- The two writes in front of a command. -/
def unlock : List (BitVec 32 × BitVec 8) := [(0x0A005555, 0xAA), (0x0A002AAA, 0x55)]

def GbaFlash.command (s : GbaFlash) : FlashCommand → GbaFlash
  | .program off val => s.writes (unlock ++ [(0x0A005555, 0xA0), (GbaFlash.windowAddr off, val)])
  | .erase off =>
    s.writes (unlock ++ [(0x0A005555, 0x80)] ++ unlock ++ [(GbaFlash.windowAddr off, 0x30)])
  | .selectBank bank => s.writes (unlock ++ [(0x0A005555, 0xB0), (0x0A000000, bank)])
  | .read off => (s.gbaReadFlash (GbaFlash.windowAddr off)).2

/-- A flash memory as it should be: bytes, and the bank that the window shows. -/
structure BankedFlash where
  mem : ℕ → BitVec 8
  bank : BitVec 8

namespace BankedFlash

variable (f : BankedFlash)

def place (off : BitVec 16) : ℕ := 0x10000 * f.bank.toNat + off.toNat

def sector (off : BitVec 16) : ℕ := 0x10000 * f.bank.toNat + off.toNat / 0x1000 * 0x1000

def command : FlashCommand → BankedFlash
  | .program off val => { f with mem := Function.update f.mem (f.place off) val }
  | .erase off => { f with
      mem := fun i => if f.sector off ≤ i ∧ i < f.sector off + 0x1000 then 0xFF else f.mem i }
  | .selectBank bank => { f with bank }
  | .read _ => f

end BankedFlash

/-- The cartridge is ready for a command, has the file with the bank that is shown, and the file holds what
it should. -/
structure Serves (s : GbaFlash) (f : BankedFlash) : Prop where
  state : s.state = 0
  cmd : s.cmd = 0
  bank : s.bank = f.bank
  file : ∃ data, s.fSRAM = some data ∧ 0x10000 * f.bank.toNat + 0x10000 ≤ data.length ∧
    ∀ i < data.length, data[i]? = some (f.mem i)

/-- The data that look like a command are not to be programmed where commands are written. -/
def FlashCommand.Allowed (p : GbaFlash × BankedFlash) : FlashCommand → Prop
  | .program off val => off = 0x5555 → val ≠ 0xAA ∧ (val = 0xF0 → p.2.mem (p.2.place off) = 0xF0)
  | .selectBank bank => ∀ data, p.1.fSRAM = some data → 0x10000 * bank.toNat + 0x10000 ≤ data.length
  | _ => True

section Commands

variable {s : GbaFlash} {f : BankedFlash} {data : List (BitVec 8)} {off : BitVec 16}

theorem windowAddr_eq_iff (off : BitVec 16) : GbaFlash.windowAddr off = 0x0A005555 ↔ off = 0x5555 := by
  constructor
  · intro h
    have hnat := congrArg BitVec.toNat h
    rw [GbaFlash.windowAddr, BitVec.toNat_add, BitVec.toNat_setWidth] at hnat
    apply BitVec.eq_of_toNat_eq
    have hlt := off.isLt
    change (0x0A000000 + _) % _ = 0x0A005555 at hnat
    change off.toNat = 0x5555
    omega
  · rintro rfl
    rfl

theorem toNat_windowAddr (off : BitVec 16) : (GbaFlash.windowAddr off).toNat = 0x0A000000 + off.toNat := by
  have hlt := off.isLt
  rw [GbaFlash.windowAddr, BitVec.toNat_add, BitVec.toNat_setWidth]
  change (0x0A000000 + _) % _ = _
  omega

theorem toNat_bankStart (bank : BitVec 8) :
    (0x10000 * bank.setWidth 32 : BitVec 32).toNat = 0x10000 * bank.toNat := by
  have hlt := bank.isLt
  rw [BitVec.toNat_mul, BitVec.toNat_setWidth]
  change 0x10000 * _ % _ = _
  omega

theorem toNat_place (hbank : s.bank = f.bank) (off : BitVec 16) :
    (s.place (GbaFlash.windowAddr off)).toNat = f.place off := by
  have hlt := off.isLt
  have hbankLt := f.bank.isLt
  rw [GbaFlash.place, hbank, BitVec.toNat_add, toNat_bankStart, toNat_and_mask (n := 17) _ rfl,
    toNat_windowAddr, BankedFlash.place]
  omega

theorem toNat_sector (bank : BitVec 8) (off : BitVec 16) :
    ((GbaFlash.windowAddr off &&& 0x0000F000) + 0x10000 * bank.setWidth 32).toNat =
      0x10000 * bank.toNat + off.toNat / 0x1000 * 0x1000 := by
  have hlt := off.isLt
  have hbankLt := bank.isLt
  have hmask : (GbaFlash.windowAddr off &&& 0x0000F000).toNat = off.toNat / 0x1000 * 0x1000 := by
    have hrange : (0xF000 : ℕ) = 2 ^ 16 - 2 ^ 12 := rfl
    rw [BitVec.toNat_and, toNat_windowAddr]
    change _ &&& 0xF000 = _
    rw [and_rangeMask _ (by decide) hrange]
    omega
  rw [BitVec.toNat_add, hmask, toNat_bankStart]
  omega

theorem Serves.read (h : Serves s f) (off : BitVec 16) :
    s.gbaReadFlash (GbaFlash.windowAddr off) = (f.mem (f.place off), s) := by
  obtain ⟨data, hfile, hlen, hdata⟩ := h.file
  have hplace := toNat_place h.bank off
  have hlt : f.place off < data.length := by
    have hoff := off.isLt
    rw [BankedFlash.place]
    omega
  rw [GbaFlash.gbaReadFlash, hfile, if_neg (by simp), if_pos h.cmd, GbaFlash.readSRAM, hfile, hplace,
    Option.bind_some, hdata _ hlt]
  rfl

/-- What a write within the shown bank leaves. -/
theorem Serves.of_splice {s' : GbaFlash} {mem : ℕ → BitVec 8} (h : Serves s f) (pos : ℕ)
    (bytes : List (BitVec 8)) (hfile : s.fSRAM = some data) (hstate : s'.state = 0) (hcmd : s'.cmd = 0)
    (hbank : s'.bank = s.bank) (hfile' : s'.fSRAM = some (splice data pos bytes))
    (hend : pos + bytes.length ≤ 0x10000 * f.bank.toNat + 0x10000)
    (hmem : ∀ i, if pos ≤ i ∧ i < pos + bytes.length then bytes[i - pos]? = some (mem i)
      else mem i = f.mem i) : Serves s' ⟨mem, f.bank⟩ := by
  obtain ⟨data', hdata', hlen, hdata⟩ := h.file
  obtain rfl : data = data' := Option.some.inj (hfile.symm.trans hdata')
  have hlength : (splice data pos bytes).length = data.length := by
    rw [length_splice]
    omega
  refine ⟨hstate, hcmd, hbank.trans h.bank, _, hfile', by rwa [hlength], fun i hi => ?_⟩
  have hi' := hmem i
  rw [getElem?_splice_within (by omega)]
  split_ifs at hi' ⊢ with hin
  · exact hi'
  · change data[i]? = some (mem i)
    rw [hi']
    exact hdata i (hlength ▸ hi)

theorem writes_append (s : GbaFlash) (ws vs : List (BitVec 32 × BitVec 8)) :
    s.writes (ws ++ vs) = (s.writes ws).writes vs := List.foldl_append

theorem writes_unlock (hfile : s.fSRAM = some data) (hstate : s.state = 0) :
    s.writes unlock = { s with state := 2 } := by
  simp [GbaFlash.writes, unlock, GbaFlash.gbaWriteFlash, GbaFlash.await, hfile, hstate]

theorem command_program (hfile : s.fSRAM = some data) (hstate : s.state = 0) (off : BitVec 16)
    (val : BitVec 8) : s.command (.program off val) =
      if off = 0x5555 ∧ val = 0xF0 then { s with state := 0, cmd := 0 }
      else if off = 0x5555 ∧ val = 0xAA then { s with state := 1, cmd := 0xA0 }
      else { s.writeSRAM (s.place (GbaFlash.windowAddr off)) [val] with state := 0, cmd := 0 } := by
  rw [GbaFlash.command, writes_append, writes_unlock hfile hstate]
  have hwin : GbaFlash.windowAddr off = 167794005#32 ↔ off = 21845#16 := windowAddr_eq_iff off
  simp [GbaFlash.writes, GbaFlash.gbaWriteFlash, hfile, hwin, GbaFlash.writeData, GbaFlash.writeSRAM,
    GbaFlash.place]

theorem command_erase (hfile : s.fSRAM = some data) (hstate : s.state = 0) (off : BitVec 16) :
    s.command (.erase off) =
      { s.writeSRAM ((GbaFlash.windowAddr off &&& 0x0000F000) + 0x10000 * s.bank.setWidth 32)
          GbaFlash.erasedSector with state := 0, cmd := 0 } := by
  rw [GbaFlash.command, writes_append, writes_append, writes_append, writes_unlock hfile hstate]
  simp [GbaFlash.writes, unlock, GbaFlash.gbaWriteFlash, GbaFlash.await, hfile, GbaFlash.writeSRAM]

theorem command_selectBank (hfile : s.fSRAM = some data) (hstate : s.state = 0) (bank : BitVec 8) :
    s.command (.selectBank bank) = { s with state := 0, bank, cmd := 0 } := by
  rw [GbaFlash.command, writes_append, writes_unlock hfile hstate]
  simp [GbaFlash.writes, GbaFlash.gbaWriteFlash, hfile]

theorem place_lt (f : BankedFlash) (off : BitVec 16) :
    f.place off < 0x10000 * f.bank.toNat + 0x10000 := by
  have hoff := off.isLt
  rw [BankedFlash.place]
  omega

/-- A byte is programmed exactly if it does not look like a command where commands are written. -/
theorem Serves.program_iff (h : Serves s f) (off : BitVec 16) (val : BitVec 8) :
    Serves (s.command (.program off val)) (f.command (.program off val)) ↔
      FlashCommand.Allowed (s, f) (.program off val) := by
  obtain ⟨data, hfile, hlen, hdata⟩ := id h.file
  have hplace := place_lt f off
  rw [command_program hfile h.state]
  split_ifs with hF0 hAA
  · -- nothing is written
    obtain ⟨rfl, rfl⟩ := hF0
    constructor
    · intro hserves _
      refine ⟨by decide, fun _ => ?_⟩
      obtain ⟨data', hfile', -, hdata'⟩ := hserves.file
      obtain rfl : data = data' := Option.some.inj (hfile.symm.trans hfile')
      have hnew := hdata' (f.place 0x5555) (by omega)
      rw [hdata _ (by omega)] at hnew
      rw [BankedFlash.command] at hnew
      dsimp only at hnew
      rw [Function.update_self] at hnew
      exact Option.some.inj hnew
    · intro hallowed
      have hkept : f.command (.program 0x5555 0xF0) = f := by
        have hsame : f.mem (f.place 0x5555) = 0xF0 := (hallowed rfl).2 rfl
        rw [BankedFlash.command, ← hsame, Function.update_eq_self]
      rw [hkept]
      exact ⟨rfl, rfl, h.bank, data, hfile, hlen, hdata⟩
  · -- the byte is taken for the first write of a command
    obtain ⟨rfl, rfl⟩ := hAA
    refine iff_of_false (fun hserves => ?_) fun hallowed => (hallowed rfl).1 rfl
    have hstate : (1 : BitVec 8) = 0 := hserves.state
    exact absurd hstate (by decide)
  · have hallowed : FlashCommand.Allowed (s, f) (.program off val) := by
      intro hoff
      exact ⟨fun hval => hAA ⟨hoff, hval⟩, fun hval => absurd ⟨hoff, hval⟩ hF0⟩
    refine iff_of_true ?_ hallowed
    refine h.of_splice (f.place off) [val] hfile rfl rfl rfl ?_ hplace fun i => ?_
    · rw [GbaFlash.writeSRAM, hfile, toNat_place h.bank]
      rfl
    · split_ifs with hin
      · have hi : i = f.place off := by
          change _ ∧ i < _ + 1 at hin
          omega
        rw [hi, Nat.sub_self, Function.update_self]
        rfl
      · refine Function.update_of_ne (fun hi => hin ?_) _ _
        rw [hi]
        exact ⟨le_rfl, Nat.lt_succ_self _⟩

theorem Serves.erase (h : Serves s f) (off : BitVec 16) :
    Serves (s.command (.erase off)) (f.command (.erase off)) := by
  obtain ⟨data, hfile, -, -⟩ := id h.file
  have hoff := off.isLt
  have hlength : GbaFlash.erasedSector.length = 0x1000 := List.length_replicate
  rw [command_erase hfile h.state]
  refine h.of_splice (f.sector off) GbaFlash.erasedSector hfile rfl rfl rfl ?_ ?_ fun i => ?_
  · rw [GbaFlash.writeSRAM, hfile, h.bank, toNat_sector]
    rfl
  · rw [hlength, BankedFlash.sector]
    omega
  · rw [hlength]
    split_ifs with hin
    · rw [GbaFlash.erasedSector, List.getElem?_replicate, if_pos (by omega)]
    · rfl

theorem Serves.selectBank_iff (h : Serves s f) (bank : BitVec 8) :
    Serves (s.command (.selectBank bank)) (f.command (.selectBank bank)) ↔
      FlashCommand.Allowed (s, f) (.selectBank bank) := by
  obtain ⟨data, hfile, hlen, hdata⟩ := id h.file
  rw [command_selectBank hfile h.state]
  constructor
  · intro hserves data' hfile'
    obtain ⟨data'', hfile'', hlen', -⟩ := hserves.file
    obtain rfl : data' = data'' := Option.some.inj (hfile'.symm.trans hfile'')
    exact hlen'
  · intro hallowed
    exact ⟨rfl, rfl, rfl, data, hfile, hallowed data hfile, hdata⟩

theorem Serves.command_iff (p : GbaFlash × BankedFlash) (c : FlashCommand) (h : Serves p.1 p.2) :
    Serves (p.1.command c) (p.2.command c) ↔ c.Allowed p := by
  cases c with
  | program off val => exact h.program_iff off val
  | erase off => exact iff_of_true (h.erase off) trivial
  | selectBank bank => exact h.selectBank_iff bank
  | read off =>
    refine iff_of_true ?_ trivial
    rw [GbaFlash.command, h.read]
    exact h

/-- Over any run of commands the cartridge serves as a flash memory exactly if every bank that is selected
is in the file and no data that look like a command are programmed where commands are written. While it
does, a read brings the byte that was programmed or erased last. -/
theorem serves_iff (s : GbaFlash) (f : BankedFlash) (h : Serves s f) (cs : List FlashCommand) :
    let step (p : GbaFlash × BankedFlash) (c : FlashCommand) := (p.1.command c, p.2.command c)
    ((∀ pre, pre <+: cs → Serves (run step (s, f) pre).1 (run step (s, f) pre).2) ↔
      AtEach step (fun p c => c.Allowed p) (s, f) cs) ∧
    ∀ pre, pre <+: cs → Serves (run step (s, f) pre).1 (run step (s, f) pre).2 → ∀ off,
      ((run step (s, f) pre).1.gbaReadFlash (GbaFlash.windowAddr off)).1 =
        (run step (s, f) pre).2.mem ((run step (s, f) pre).2.place off) := by
  intro step
  refine ⟨?_, fun pre _ hserves off => ?_⟩
  · exact @always_iff_atEach _ _ step (fun p c => c.Allowed p) (fun p => Serves p.1 p.2)
      (fun p c hp => Serves.command_iff p c hp) _ h cs
  · rw [hserves.read]

/-- A blank file of one bank. -/
def blankFlash : GbaFlash := ⟨some (List.replicate 0x10000 0xFF), 0, 0, 0x1B, 0x32, 0⟩

def blankBank : BankedFlash := ⟨fun _ => 0xFF, 0⟩

theorem serves_blank : Serves blankFlash blankBank := by
  have hlength : (List.replicate 0x10000 (0xFF : BitVec 8)).length = 0x10000 := List.length_replicate
  refine ⟨rfl, rfl, rfl, List.replicate 0x10000 0xFF, rfl, ?_, fun i hi => ?_⟩
  · rw [hlength]
    decide
  · rw [hlength] at hi
    rw [List.getElem?_replicate, if_pos hi]
    rfl

/-- What is served, and what is not. -/
theorem serves_iff_blank :
    let step (p : GbaFlash × BankedFlash) (c : FlashCommand) := (p.1.command c, p.2.command c)
    (∀ pre, pre <+: [.program 0x5555 0x55, .erase 0x1000] →
      Serves (run step (blankFlash, blankBank) pre).1 (run step (blankFlash, blankBank) pre).2) ∧
    ¬ ∀ pre, pre <+: [.program 0x5555 0xAA] →
      Serves (run step (blankFlash, blankBank) pre).1 (run step (blankFlash, blankBank) pre).2 := by
  constructor
  · refine (serves_iff blankFlash blankBank serves_blank _).1.mpr ⟨fun _ => ?_, trivial, trivial⟩
    exact ⟨by decide, fun hval => absurd hval (by decide)⟩
  · intro hall
    have hallowed := (serves_iff blankFlash blankBank serves_blank _).1.mp hall
    exact (hallowed.1 rfl).1 rfl

end Commands

end Desmume.Card
