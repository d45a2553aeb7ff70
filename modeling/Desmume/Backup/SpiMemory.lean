import Desmume.Backup.BackupDefs
import Mathlib.Tactic.IntervalCases

/-! The backup device as a byte memory behind an SPI protocol, and the refinement: the file holds
the cells of the memory, and its position follows the address of the transfer. -/

namespace Desmume.Backup
open Library

/-- Where a transfer is. -/
inductive SpiPhase where
  | command
  | address (isWrite : Bool) (addr : BitVec 32) (left : BitVec 32)
  | data (isWrite : Bool) (addr : BitVec 32)
  | writeStatus
  | readStatus
  | irda
  | ignored
deriving DecidableEq

structure SpiMemory where
  cells : ℕ → BitVec 8
  latch : Bool
  protect : BitVec 8
  released : Bool
  phase : SpiPhase

/-- A small device has nine address bits. -/
def wrapAddr (addrSize addr : BitVec 32) : BitVec 32 :=
  if addrSize = 1 then addr &&& 0x1FF#32 else addr

namespace SpiMemory

variable (addrSize : BitVec 32) (s : SpiMemory)

/-- A transfer starts with its address, most significant byte first. -/
def transfer (isWrite : Bool) (addr : BitVec 32) : SpiMemory :=
  { s with
    phase := if 0 < addrSize then .address isWrite addr addrSize else .data isWrite addr }

def command (val : BitVec 8) : SpiMemory :=
  if val = 0 then s
  else if val = bmCmdWriteStatus then { s with phase := .writeStatus }
  else if val = bmCmdWriteLow then s.transfer addrSize true 0
  else if val = bmCmdReadLow then s.transfer addrSize false 0
  else if val = bmCmdWriteHigh then s.transfer addrSize true (if addrSize = 1 then 1 else 0)
  else if val = bmCmdReadHigh then s.transfer addrSize false (if addrSize = 1 then 1 else 0)
  else if val = bmCmdReadStatus then { s with phase := .readStatus }
  else if val = bmCmdIrda then { s with phase := .irda }
  else if val = bmCmdWriteDisable then { s with latch := false, phase := .ignored }
  else if val = bmCmdWriteEnable then { s with latch := true, phase := .ignored }
  else { s with phase := .ignored }

/-- The status register; bit 1 is the write-enable latch. -/
def status : BitVec 8 := ((BitVec.ofBool s.latch).setWidth 8 <<< 1) ||| s.protect

/-- The effect of a byte, and the byte that is sent back. -/
def receive (val : BitVec 8) : BitVec 8 × SpiMemory :=
  match s.phase with
  | .command => (if val = bmCmdIrda then 0xAA else 0xFF, s.command addrSize val)
  | .address isWrite addr left =>
    let addr := (addr <<< 8) ||| val.setWidth 32
    (0xFF, { s with
      phase := if left = 1 then .data isWrite addr else .address isWrite addr (left - 1) })
  | .data false addr =>
    let addr := wrapAddr addrSize addr
    (s.cells addr.toNat, { s with phase := .data false (addr + 1) })
  | .data true addr =>
    let addr := wrapAddr addrSize addr
    (val, { s with
      cells := if s.latch then Function.update s.cells addr.toNat val else s.cells
      phase := .data true (addr + 1) })
  | .writeStatus => (val, { s with protect := val &&& 0xFC#8 })
  | .readStatus => (s.status, s)
  | .irda => (0xAA, s)
  | .ignored => (val, s)

/-- A released device is back in its first phase after the byte. -/
def finish : SpiMemory := if s.released then { s with phase := .command, released := false } else s

def step : SpiOp → SpiMemory
  | .byte val => (s.receive addrSize val).2.finish
  | .release => { s with released := true }

def output : SpiOp → List (BitVec 8)
  | .byte val => [(s.receive addrSize val).1]
  | .release => []

end SpiMemory

namespace BackupDevice

variable (d : BackupDevice)

def phase : SpiPhase :=
  if d.com = 0 then .command
  else if d.com = bmCmdWriteStatus then .writeStatus
  else if d.com = bmCmdWriteLow ∨ d.com = bmCmdReadLow then
    if d.addrCounter < d.addrSize then
      .address (d.com == bmCmdWriteLow) d.addr (d.addrSize - d.addrCounter)
    else .data (d.com == bmCmdWriteLow) d.addr
  else if d.com = bmCmdReadStatus then .readStatus
  else if d.com = bmCmdIrda then .irda
  else .ignored

/-- The bytes of the file, and behind them the ones it is padded with. -/
def contents (a : ℕ) : BitVec 8 :=
  if a < d.fsize.toNat then (d.fpMC.data[a]?).getD 0 else d.uninitializedValue

/-- The memory that a device stands for. -/
def toMemory : SpiMemory where
  cells := d.contents
  latch := d.writeEnable
  protect := d.writeProtect
  released := d.resetCommandState
  phase := d.phase

/-- An access of the device, if there is one, follows an address, and `fseek` can get to it. -/
def Addressed : SpiOp → Prop
  | .release => True
  | .byte _ =>
    match d.phase with
    | .data _ addr => d.addrSize ≠ 0 ∧ (wrapAddr d.addrSize addr).toNat + 1 < 2 ^ 31
    | _ => True

instance (op : SpiOp) : Decidable (d.Addressed op) :=
  match op with
  | .release => isTrue trivial
  | .byte val =>
    match hphase : d.phase with
    | .data isWrite addr =>
      decidable_of_iff (d.addrSize ≠ 0 ∧ (wrapAddr d.addrSize addr).toNat + 1 < 2 ^ 31)
        (by rw [Addressed, hphase])
    | .command => isTrue (by rw [Addressed, hphase]; trivial)
    | .address .. => isTrue (by rw [Addressed, hphase]; trivial)
    | .writeStatus => isTrue (by rw [Addressed, hphase]; trivial)
    | .readStatus => isTrue (by rw [Addressed, hphase]; trivial)
    | .irda => isTrue (by rw [Addressed, hphase]; trivial)
    | .ignored => isTrue (by rw [Addressed, hphase]; trivial)

/-- The device between two transfers. -/
structure Ready : Prop where
  running : d.state = .running
  com : d.com = 0
  counter : d.addrCounter ≤ d.addrSize
  size : d.fsize.toNat ≤ d.fpMC.data.length
  small : d.fsize.toNat < 2 ^ 31

/-- The file holds the data, and is at the byte that comes next. -/
structure Inv : Prop where
  running : d.state = .running
  counter : d.addrCounter ≤ d.addrSize
  size : d.fsize.toNat ≤ d.fpMC.data.length
  small : d.fsize.toNat < 2 ^ 31
  seeked : d.addrSize ≠ 0 → ∀ isWrite addr, d.phase = .data isWrite addr → addr.toNat < 2 ^ 31 →
    (isWrite = true → d.writeEnable = true) → d.fpMC.pos = addr.toNat

end BackupDevice

theorem le_padUpSize (a : BitVec 32) : a ≤ padUpSize a := by
  rw [padUpSize]
  cases h : saveSizes.find? fun size => a ≤ size with
  | none => exact BitVec.le_refl a
  | some p =>
    have hp := List.find?_some h
    exact of_decide_eq_true hp

theorem padUpSize_lt {a : BitVec 32} (h : a.toNat < 2 ^ 31) : (padUpSize a).toNat < 2 ^ 31 := by
  rw [padUpSize]
  cases hp : saveSizes.find? fun size => a ≤ size with
  | none => exact h
  | some p =>
    have hmem := List.mem_of_find?_eq_some hp
    simp only [saveSizes, List.mem_cons, List.not_mem_nil, or_false] at hmem
    rw [Option.getD_some]
    rcases hmem with rfl | rfl | rfl | rfl | rfl | rfl | rfl | rfl | rfl | rfl | rfl | rfl | rfl
    all_goals simp

theorem fseekSet_of_lt (fp : ByteFile (BitVec 8)) {offset : BitVec 32}
    (h : offset.toNat < 2 ^ 31) : fseekSet fp offset = fp.seek offset.toNat := by
  rw [fseekSet, if_pos]
  rw [BitVec.toInt_eq_toNat_of_lt (by omega)]
  exact Int.natCast_nonneg _

namespace BackupDevice

variable {d : BackupDevice}

theorem footer_data (info : BackupInfo) (addr padSize : BitVec 32) (fp : ByteFile (BitVec 8)) :
    ∃ bs, (d.footer info addr padSize fp).data = splice fp.data fp.pos bs := by
  refine ⟨textBytes footerTxt ++ (leBytes 4 addr.toNat ++ (leBytes 4 padSize.toNat ++
    (leBytes 4 info.type.toNat ++ (leBytes 4 d.addrSize.toNat ++ (leBytes 4 info.size.toNat ++
    (leBytes 4 0 ++ textBytes saveCookie)))))), ?_⟩
  simp only [footer, write32le, ByteFile.write_write, List.append_assoc]
  rfl

/-- What `ensure` leaves alone, and what it provides. -/
structure Ensured (d d' : BackupDevice) (a : BitVec 32) : Prop where
  frame : d' = { d with info := d'.info, fsize := d'.fsize, fpMC := d'.fpMC }
  contents : d'.contents = d.contents
  covers : a.toNat ≤ d'.fsize.toNat
  size : d'.fsize.toNat ≤ d'.fpMC.data.length
  small : d'.fsize.toNat < 2 ^ 31
  pos : d.fpMC.pos = a.toNat - 1 → d'.fpMC.pos = a.toNat - 1

theorem pad_spec (fp : ByteFile (BitVec 8)) {fsize : ℕ} (hsize : fsize ≤ fp.data.length)
    (n : BitVec 32) (u : BitVec 8) :
    let fp' := if 0 < n then (fp.seek fsize).write (List.replicate n.toNat u) else fp.seek fsize
    fp'.pos = fsize + n.toNat ∧ fsize + n.toNat ≤ fp'.data.length ∧
      ∀ i < fsize + n.toNat, fp'.data[i]? = if i < fsize then fp.data[i]? else some u := by
  split_ifs with hn
  · refine ⟨?_, ?_, fun i hi => ?_⟩
    · rw [ByteFile.write, List.length_replicate]
      rfl
    · rw [ByteFile.length_write_data, List.length_replicate]
      exact Nat.le_max_left ..
    · split_ifs with hlt
      · exact getElem?_splice_before _ _ hlt (hlt.trans_le hsize)
      · obtain ⟨k, rfl⟩ := Nat.exists_eq_add_of_le (not_lt.mp hlt)
        have hk : k < n.toNat := Nat.add_lt_add_iff_left.mp hi
        refine (getElem?_splice_at _ _ k ?_).trans ?_
        · rwa [List.length_replicate]
        · rw [List.getElem?_replicate, if_pos hk]
  · have hzero : n.toNat = 0 := by
      rw [BitVec.le_zero_iff.mp (BitVec.not_lt.mp hn)]
      rfl
    rw [hzero, Nat.add_zero]
    exact ⟨rfl, hsize, fun i hi => (if_pos hi).symm⟩

theorem ensure_grow {a : BitVec 32} (h : ¬ a < d.fsize) :
    ∃ info, d.ensure a =
      { d with
        info := info
        fsize := padUpSize a
        fpMC := fseekSet (d.footer info a (padUpSize a)
          (if 0 < padUpSize a - d.fsize then
            (fseekSet d.fpMC d.fsize).write
              (List.replicate (padUpSize a - d.fsize).toNat d.uninitializedValue)
            else fseekSet d.fpMC d.fsize)) (a - 1) } :=
  ⟨_, if_neg h⟩

theorem ensure_spec (hsize : d.fsize.toNat ≤ d.fpMC.data.length) (hsmall : d.fsize.toNat < 2 ^ 31)
    {a : BitVec 32} (hpos : 0 < a.toNat) (ha : a.toNat < 2 ^ 31) : Ensured d (d.ensure a) a := by
  by_cases hlt : a < d.fsize
  · rw [ensure, if_pos hlt]
    rw [BitVec.lt_def] at hlt
    exact ⟨rfl, rfl, hlt.le, hsize, hsmall, id⟩
  · obtain ⟨info, hensure⟩ := ensure_grow hlt
    rw [BitVec.lt_def, not_lt] at hlt
    have hpad := BitVec.le_def.mp (le_padUpSize a)
    have hgrow : (padUpSize a - d.fsize).toNat = (padUpSize a).toNat - d.fsize.toNat := by
      rw [BitVec.toNat_sub_of_le (BitVec.le_def.mpr (hlt.trans hpad))]
    have hlast : (a - 1).toNat = a.toNat - 1 := by
      have hone : (1 : BitVec 32) ≤ a := BitVec.le_def.mpr hpos
      rw [BitVec.toNat_sub_of_le hone]
      rfl
    have hsum : d.fsize.toNat + (padUpSize a - d.fsize).toNat = (padUpSize a).toNat := by
      omega
    obtain ⟨hpos', hlen, hcells⟩ :=
      pad_spec d.fpMC hsize (padUpSize a - d.fsize) d.uninitializedValue
    rw [fseekSet_of_lt _ hsmall] at hensure
    generalize (if 0 < padUpSize a - d.fsize then
      (d.fpMC.seek d.fsize.toNat).write
        (List.replicate (padUpSize a - d.fsize).toNat d.uninitializedValue)
      else d.fpMC.seek d.fsize.toNat) = fp at hpos' hlen hcells hensure
    rw [hsum] at hpos' hlen hcells
    obtain ⟨bs, hbs⟩ := footer_data (d := d) info a (padUpSize a) fp
    rw [hpos'] at hbs
    rw [fseekSet_of_lt _ (hlast ▸ (Nat.sub_le ..).trans_lt ha)] at hensure
    rw [hensure]
    refine ⟨rfl, ?_, hpad, ?_, padUpSize_lt ha, fun _ => hlast⟩
    · funext i
      simp only [contents, ByteFile.seek]
      by_cases hi : i < (padUpSize a).toNat
      · rw [if_pos hi, hbs, getElem?_splice_before _ _ hi (hi.trans_le hlen), hcells i hi]
        split_ifs
        all_goals rfl
      · rw [if_neg hi, if_neg (fun h => hi (h.trans_le (hlt.trans hpad)))]
    · simp only [ByteFile.seek]
      rw [hbs, length_splice]
      omega

theorem read_of_covers {a : ℕ} (hcovers : a < d.fsize.toNat)
    (hsize : d.fsize.toNat ≤ d.fpMC.data.length) (hpos : d.fpMC.pos = a) :
    d.read.1 = d.contents a ∧ d.read.2.fpMC.data = d.fpMC.data ∧ d.read.2.fpMC.pos = a + 1 := by
  have hlt : a < d.fpMC.data.length := hcovers.trans_le hsize
  have hread : d.fpMC.readData 1 = [d.fpMC.data[a]] := by
    rw [ByteFile.readData, hpos, List.drop_eq_getElem_cons hlt, List.take_succ_cons, List.take_zero]
  refine ⟨?_, rfl, ?_⟩
  · rw [read, contents, if_pos hcovers, hread, List.getElem?_eq_getElem hlt]
    rfl
  · rw [read, ByteFile.read, hread, hpos]
    rfl

theorem contents_write {a : ℕ} (hcovers : a < d.fsize.toNat)
    (hsize : d.fsize.toNat ≤ d.fpMC.data.length) (hpos : d.fpMC.pos = a) (val : BitVec 8) :
    (d.write val).contents = Function.update d.contents a val := by
  funext i
  simp only [contents, write, ByteFile.write, hpos]
  rcases lt_trichotomy i a with hi | rfl | hi
  · rw [Function.update_of_ne hi.ne, getElem?_splice_before _ _ hi (by omega)]
    rfl
  · rw [Function.update_self, if_pos hcovers]
    have hat := getElem?_splice_at d.fpMC.data i 0 (show 0 < [val].length from Nat.one_pos)
    rw [Nat.add_zero] at hat
    rw [hat]
    rfl
  · rw [Function.update_of_ne hi.ne', getElem?_splice_behind d.fpMC.data (show a + [val].length ≤ i from hi)]
    rfl

theorem length_write (hsize : d.fsize.toNat ≤ d.fpMC.data.length) (val : BitVec 8) :
    (d.write val).fsize.toNat ≤ (d.write val).fpMC.data.length := by
  rw [write, ByteFile.length_write_data]
  exact hsize.trans (Nat.le_max_right ..)

/-- The device with its address wrapped, before the file grows. -/
def wrapped (d : BackupDevice) : BackupDevice :=
  { d with
    addr := wrapAddr d.addrSize d.addr
    fpMC := if d.addrSize = 1 then fseekSet d.fpMC (wrapAddr d.addrSize d.addr) else d.fpMC }

/-- The device at the byte it accesses. -/
def atAccess (d : BackupDevice) : BackupDevice := d.wrapped.ensure (wrapAddr d.addrSize d.addr + 1)

/-- The device with another file and address. -/
def moved (d : BackupDevice) (info : BackupInfo) (fsize : BitVec 32) (fp : ByteFile (BitVec 8))
    (addr : BitVec 32) : BackupDevice :=
  { d with info := info, fsize := fsize, fpMC := fp, addr := addr }

theorem transferByte_data (val : BitVec 8) (h : ¬ d.addrCounter < d.addrSize) {info : BackupInfo}
    {fsize addr : BitVec 32} {fp : ByteFile (BitVec 8)}
    (hmoved : d.atAccess = d.moved info fsize fp addr) :
    d.transferByte val =
      if d.com = bmCmdReadLow then
        ((d.moved info fsize fp addr).read.1, d.moved info fsize (fp.read 1) (addr + 1))
      else if d.writeEnable then (val, d.moved info fsize (fp.write [val]) (addr + 1))
      else (val, d.moved info fsize fp (addr + 1)) := by
  have hwrapped : (if d.addrSize = 1 then
      { d with addr := d.addr &&& 0x1FF#32, fpMC := fseekSet d.fpMC (d.addr &&& 0x1FF#32) }
      else d) = d.wrapped := by
    by_cases hone : d.addrSize = 1
    · rw [wrapped, wrapAddr, if_pos hone, if_pos hone, if_pos hone]
    · rw [wrapped, wrapAddr, if_neg hone, if_neg hone, if_neg hone]
  have haccess : d.wrapped.ensure (d.wrapped.addr + 1) = d.moved info fsize fp addr := hmoved
  rw [transferByte, if_neg h]
  simp only [hwrapped, haccess]
  have hcom : (d.moved info fsize fp addr).com = d.com := rfl
  have henable : (d.moved info fsize fp addr).writeEnable = d.writeEnable := rfl
  simp only [hcom, henable]
  split_ifs
  all_goals rfl

/-- What is known of the device at an access. -/
structure AtAccess (d d' : BackupDevice) : Prop where
  frame : ∃ info fsize fp, d' = d.moved info fsize fp (wrapAddr d.addrSize d.addr)
  contents : d'.contents = d.contents
  covers : (wrapAddr d.addrSize d.addr).toNat < d'.fsize.toNat
  size : d'.fsize.toNat ≤ d'.fpMC.data.length
  small : d'.fsize.toNat < 2 ^ 31
  pos : (d.com = bmCmdWriteLow → d.writeEnable = true) →
    d'.fpMC.pos = (wrapAddr d.addrSize d.addr).toNat

theorem atAccess_spec (h : d.Inv) (hphase : d.phase = .data (d.com == bmCmdWriteLow) d.addr)
    (hsize : d.addrSize ≠ 0) (hrange : (wrapAddr d.addrSize d.addr).toNat + 1 < 2 ^ 31) :
    AtAccess d d.atAccess := by
  have hnext : (wrapAddr d.addrSize d.addr + 1).toNat = (wrapAddr d.addrSize d.addr).toNat + 1 := by
    rw [BitVec.toNat_add]
    exact Nat.mod_eq_of_lt (by change _ + 1 < _; omega)
  have hdata : d.wrapped.fpMC.data = d.fpMC.data := by
    rw [wrapped, fseekSet]
    split_ifs
    all_goals rfl
  have hpos : (d.com = bmCmdWriteLow → d.writeEnable = true) →
      d.wrapped.fpMC.pos = (wrapAddr d.addrSize d.addr).toNat := by
    intro hwrite
    rw [wrapped]
    by_cases hone : d.addrSize = 1
    · rw [if_pos hone, fseekSet_of_lt _ (by omega)]
      rfl
    · rw [if_neg hone]
      rw [wrapAddr, if_neg hone] at hrange ⊢
      exact h.seeked hsize _ _ hphase (by omega) fun hc => hwrite (beq_iff_eq.mp hc)
  have hgrown : d.wrapped.fsize.toNat ≤ d.wrapped.fpMC.data.length := hdata ▸ h.size
  obtain ⟨hframe, hcontents, hcovers, hlen, hsmall, hlast⟩ :=
    ensure_spec hgrown h.small (hnext ▸ Nat.succ_pos _) (hnext ▸ hrange)
  rw [atAccess]
  refine ⟨?_, ?_, ?_, hlen, hsmall, fun hwrite => ?_⟩
  · exact ⟨_, _, _, hframe⟩
  · rw [hcontents]
    funext i
    rw [contents, contents, hdata]
    rfl
  · rw [hnext] at hcovers
    exact hcovers
  · rw [hnext, Nat.add_sub_cancel] at hlast
    exact hlast (hpos hwrite)

/-- A command does on the device what a byte does on the memory. -/
structure Simulates (d : BackupDevice) (val : BitVec 8) (r : BitVec 8 × BackupDevice) : Prop where
  output : r.1 = (d.toMemory.receive d.addrSize val).1
  memory : r.2.toMemory = (d.toMemory.receive d.addrSize val).2
  inv : r.2.Inv
  addrSize : r.2.addrSize = d.addrSize

theorem phase_transfer (h : d.com = bmCmdWriteLow ∨ d.com = bmCmdReadLow) : d.phase =
    if d.addrCounter < d.addrSize then
      .address (d.com == bmCmdWriteLow) d.addr (d.addrSize - d.addrCounter)
    else .data (d.com == bmCmdWriteLow) d.addr := by
  have hne : d.com ≠ 0 ∧ d.com ≠ bmCmdWriteStatus := by
    rcases h with h | h
    all_goals
      rw [h]
      decide
  rw [phase, if_neg hne.1, if_neg hne.2, if_pos h]

theorem fseekSet_data (fp : ByteFile (BitVec 8)) (offset : BitVec 32) :
    (fseekSet fp offset).data = fp.data := by
  rw [fseekSet]
  split_ifs
  all_goals rfl

theorem transferByte_address {val : BitVec 8} (h : d.Inv)
    (hcom : d.com = bmCmdWriteLow ∨ d.com = bmCmdReadLow)
    (hleft : d.addrCounter < d.addrSize) : Simulates d val (d.transferByte val) := by
  have hlt := BitVec.lt_def.mp hleft
  have hsucc : (d.addrCounter + 1).toNat = d.addrCounter.toNat + 1 := by
    rw [BitVec.toNat_add]
    exact Nat.mod_eq_of_lt (by
      have := d.addrSize.isLt
      change _ + 1 < _
      omega)
  have hlast : d.addrSize - d.addrCounter = 1 ↔ d.addrCounter + 1 = d.addrSize := by bv_omega
  have hrest : d.addrSize - d.addrCounter - 1 = d.addrSize - (d.addrCounter + 1) := by bv_omega
  have hnext : ¬ d.addrCounter + 1 = d.addrSize → d.addrCounter + 1 < d.addrSize := by
    intro hne
    rw [BitVec.lt_def, hsucc]
    refine lt_of_le_of_ne hlt fun heq => hne (BitVec.eq_of_toNat_eq ?_)
    rw [hsucc, ← heq]
  have hphase := phase_transfer hcom
  rw [if_pos hleft] at hphase
  have htransfer : d.transferByte val = (0xFF, { d with
      addr := (d.addr <<< 8) ||| val.setWidth 32
      addrCounter := d.addrCounter + 1
      fpMC :=
        if d.addrCounter + 1 = d.addrSize then
          fseekSet d.fpMC ((d.addr <<< 8) ||| val.setWidth 32)
        else d.fpMC }) := by
    rw [transferByte, if_pos hleft]
  have hreceive : d.toMemory.receive d.addrSize val = (0xFF, { d.toMemory with
      phase :=
        if d.addrCounter + 1 = d.addrSize then
          .data (d.com == bmCmdWriteLow) ((d.addr <<< 8) ||| val.setWidth 32)
        else .address (d.com == bmCmdWriteLow) ((d.addr <<< 8) ||| val.setWidth 32)
          (d.addrSize - (d.addrCounter + 1)) }) := by
    rw [SpiMemory.receive]
    simp only [toMemory, hphase, hlast, hrest]
  rw [htransfer]
  by_cases hfull : d.addrCounter + 1 = d.addrSize
  · rw [if_pos hfull] at hreceive ⊢
    have hcontents : BackupDevice.contents { d with
        fpMC := fseekSet d.fpMC ((d.addr <<< 8) ||| val.setWidth 32) } = d.contents := by
      funext i
      simp only [contents, fseekSet_data]
    have hphase' : BackupDevice.phase { d with
        addr := (d.addr <<< 8) ||| val.setWidth 32
        addrCounter := d.addrCounter + 1 } =
        .data (d.com == bmCmdWriteLow) ((d.addr <<< 8) ||| val.setWidth 32) := by
      refine (phase_transfer ?_).trans (if_neg ?_)
      · exact hcom
      · change ¬ d.addrCounter + 1 < d.addrSize
        rw [hfull]
        exact BitVec.lt_irrefl _
    refine ⟨?_, ?_, ?_, rfl⟩
    · rw [hreceive]
    · rw [hreceive, toMemory]
      exact congrArg₂ (SpiMemory.mk · d.writeEnable d.writeProtect d.resetCommandState ·)
        hcontents hphase'
    · refine ⟨h.running, BitVec.le_of_eq hfull, ?_, h.small, fun _ isWrite addr hdata ha _ => ?_⟩
      · simp only [fseekSet_data]
        exact h.size
      · cases hphase'.symm.trans hdata
        rw [fseekSet_of_lt _ ha]
        rfl
  · rw [if_neg hfull] at hreceive ⊢
    have hphase' : BackupDevice.phase { d with
        addr := (d.addr <<< 8) ||| val.setWidth 32
        addrCounter := d.addrCounter + 1 } =
        .address (d.com == bmCmdWriteLow) ((d.addr <<< 8) ||| val.setWidth 32)
          (d.addrSize - (d.addrCounter + 1)) := by
      refine (phase_transfer ?_).trans (if_pos (hnext hfull))
      exact hcom
    refine ⟨?_, ?_, ?_, rfl⟩
    · rw [hreceive]
    · rw [hreceive, toMemory]
      exact congrArg (SpiMemory.mk _ d.writeEnable d.writeProtect d.resetCommandState ·) hphase'
    · refine ⟨h.running, BitVec.le_of_lt (hnext hfull), h.size, h.small,
        fun _ isWrite addr hdata _ _ => ?_⟩
      cases hphase'.symm.trans hdata

theorem moved_simulates {val out : BitVec 8} {cells : ℕ → BitVec 8} {info : BackupInfo}
    {fsize : BitVec 32} {fp : ByteFile (BitVec 8)} (h : d.Inv)
    (hcom : d.com = bmCmdWriteLow ∨ d.com = bmCmdReadLow) (hdone : ¬ d.addrCounter < d.addrSize)
    (hcontents : (d.moved info fsize fp (wrapAddr d.addrSize d.addr + 1)).contents = cells)
    (hlen : fsize.toNat ≤ fp.data.length) (hsmall : fsize.toNat < 2 ^ 31)
    (hpos : (d.com = bmCmdWriteLow → d.writeEnable = true) →
      fp.pos = (wrapAddr d.addrSize d.addr + 1).toNat)
    (hreceive : d.toMemory.receive d.addrSize val =
      (out, { d.toMemory with
        cells := cells
        phase := .data (d.com == bmCmdWriteLow) (wrapAddr d.addrSize d.addr + 1) })) :
    Simulates d val (out, d.moved info fsize fp (wrapAddr d.addrSize d.addr + 1)) := by
  have hphase : (d.moved info fsize fp (wrapAddr d.addrSize d.addr + 1)).phase =
      .data (d.com == bmCmdWriteLow) (wrapAddr d.addrSize d.addr + 1) := by
    refine (phase_transfer ?_).trans (if_neg hdone)
    exact hcom
  refine ⟨?_, ?_, ?_, rfl⟩
  · rw [hreceive]
  · rw [hreceive, toMemory, hcontents, hphase]
    rfl
  · refine ⟨h.running, h.counter, hlen, hsmall, fun _ isWrite addr hdata _ hlatch => ?_⟩
    rw [hphase] at hdata
    cases hdata
    exact hpos fun hwrite => hlatch (beq_iff_eq.mpr hwrite)

theorem receive_write (val : BitVec 8) {addr : BitVec 32} (hphase : d.phase = .data true addr) :
    d.toMemory.receive d.addrSize val =
      (val, { d.toMemory with
        cells :=
          if d.writeEnable then Function.update d.contents (wrapAddr d.addrSize addr).toNat val
          else d.contents
        phase := .data true (wrapAddr d.addrSize addr + 1) }) := by
  rw [SpiMemory.receive]
  simp only [toMemory, hphase]

theorem receive_read (val : BitVec 8) {addr : BitVec 32} (hphase : d.phase = .data false addr) :
    d.toMemory.receive d.addrSize val =
      (d.contents (wrapAddr d.addrSize addr).toNat,
        { d.toMemory with phase := .data false (wrapAddr d.addrSize addr + 1) }) := by
  rw [SpiMemory.receive]
  simp only [toMemory, hphase]

theorem transferByte_access {val : BitVec 8} (h : d.Inv)
    (hcom : d.com = bmCmdWriteLow ∨ d.com = bmCmdReadLow) (hdone : ¬ d.addrCounter < d.addrSize)
    (haddressed : d.Addressed (.byte val)) : Simulates d val (d.transferByte val) := by
  have hphase := phase_transfer hcom
  rw [if_neg hdone] at hphase
  rw [Addressed, hphase] at haddressed
  obtain ⟨hsize, hrange⟩ := haddressed
  obtain ⟨⟨info, fsize, fp, hmoved⟩, hcontents, hcovers, hlen, hsmall, hpos⟩ :=
    atAccess_spec h hphase hsize hrange
  have hnext : (wrapAddr d.addrSize d.addr + 1).toNat = (wrapAddr d.addrSize d.addr).toNat + 1 := by
    rw [BitVec.toNat_add]
    exact Nat.mod_eq_of_lt (by change _ + 1 < _; omega)
  rw [transferByte_data val hdone hmoved]
  rw [hmoved] at hcontents hcovers hlen hsmall hpos
  rcases id hcom with hwrite | hread
  · have hnotread : d.com ≠ bmCmdReadLow := by
      rw [hwrite]
      decide
    have hbool : (d.com == bmCmdWriteLow) = true := by
      rw [hwrite]
      rfl
    rw [hbool] at hphase
    have hreceive := receive_write val hphase
    rw [if_neg hnotread]
    cases hlatch : d.writeEnable with
    | true =>
      have hpos' := hpos fun _ => hlatch
      rw [if_pos rfl]
      rw [hlatch, if_pos rfl] at hreceive
      refine moved_simulates h hcom hdone ?_ (length_write hlen val) hsmall (fun _ => ?_)
        (hbool ▸ hreceive)
      · refine (contents_write hcovers hlen hpos' val).trans ?_
        rw [hcontents]
      · rw [hnext]
        exact congrArg (· + 1) hpos'
    | false =>
      rw [if_neg Bool.false_ne_true]
      rw [hlatch, if_neg Bool.false_ne_true] at hreceive
      refine moved_simulates h hcom hdone hcontents hlen hsmall (fun hc => ?_) (hbool ▸ hreceive)
      exact absurd (hlatch.symm.trans (hc hwrite)) Bool.false_ne_true
  · have hbool : (d.com == bmCmdWriteLow) = false := by
      rw [hread]
      rfl
    rw [hbool] at hphase
    have hpos' := hpos fun hc => absurd (hread.symm.trans hc) (by decide)
    obtain ⟨hout, hdata, hmove⟩ := read_of_covers hcovers hlen hpos'
    have hreceive := receive_read val hphase
    rw [if_pos hread, hout, hcontents]
    refine moved_simulates h hcom hdone hcontents hlen hsmall (fun _ => ?_) (hbool ▸ hreceive)
    rw [hnext]
    exact hmove

theorem simulates_start {val : BitVec 8} {com : BitVec 8} {addr : BitVec 32} (h : d.Inv)
    (hcom : d.com = 0) (hnew : com = bmCmdWriteLow ∨ com = bmCmdReadLow)
    (hval : val ≠ bmCmdIrda)
    (hcommand : d.toMemory.command d.addrSize val =
      d.toMemory.transfer d.addrSize (com == bmCmdWriteLow) addr) :
    Simulates d val (0xFF, { d with com := com, addrCounter := 0, addr := addr }) := by
  have hzero : d.addrSize - 0 = d.addrSize := by bv_omega
  have hphase : BackupDevice.phase { d with com := com, addrCounter := 0, addr := addr } =
      if 0 < d.addrSize then .address (com == bmCmdWriteLow) addr d.addrSize
      else .data (com == bmCmdWriteLow) addr := by
    rw [phase_transfer hnew]
    simp only [hzero]
  have hidle : d.phase = .command := if_pos hcom
  have hreceive : d.toMemory.receive d.addrSize val =
      (0xFF, d.toMemory.transfer d.addrSize (com == bmCmdWriteLow) addr) := by
    rw [← hcommand, SpiMemory.receive]
    simp only [toMemory, hidle, if_neg hval]
  refine ⟨?_, ?_, ?_, rfl⟩
  · rw [hreceive]
  · rw [hreceive, toMemory, hphase]
    rfl
  · refine ⟨h.running, BitVec.le_def.mpr (Nat.zero_le _), h.size, h.small, fun hne isWrite a hdata _ _ => ?_⟩
    rw [hphase, if_pos] at hdata
    · cases hdata
    · exact BitVec.not_le.mp fun hle => hne (BitVec.le_zero_iff.mp hle)

theorem simulates_other {val out : BitVec 8} {latch : Bool} {protect com : BitVec 8} (h : d.Inv)
    (hphase : ∀ isWrite addr,
      BackupDevice.phase { d with com := com, writeEnable := latch, writeProtect := protect } ≠
        .data isWrite addr)
    (hreceive : d.toMemory.receive d.addrSize val = (out, { d.toMemory with
      latch := latch
      protect := protect
      phase :=
        BackupDevice.phase { d with com := com, writeEnable := latch, writeProtect := protect } })) :
    Simulates d val
      (out, { d with com := com, writeEnable := latch, writeProtect := protect }) := by
  refine ⟨?_, ?_, ?_, rfl⟩
  · rw [hreceive]
  · rw [hreceive]
    rfl
  · exact ⟨h.running, h.counter, h.size, h.small,
      fun _ isWrite addr hdata _ _ => absurd hdata (hphase isWrite addr)⟩

theorem newCommand_simulates {val : BitVec 8} (h : d.Inv) (hcom : d.com = 0) :
    Simulates d val (d.newCommand val) := by
  have hidle : d.phase = .command := if_pos hcom
  have hreceive : d.toMemory.receive d.addrSize val =
      (if val = bmCmdIrda then 0xAA else 0xFF, d.toMemory.command d.addrSize val) := by
    rw [SpiMemory.receive]
    simp only [toMemory, hidle]
  rw [newCommand]
  by_cases hirda : val = bmCmdIrda
  · subst hirda
    refine simulates_other h (fun _ _ hc => nomatch hc) (hreceive.trans ?_)
    rfl
  by_cases hdisable : val = bmCmdWriteDisable
  · subst hdisable
    refine simulates_other h (fun _ _ hc => nomatch hc) (hreceive.trans ?_)
    rfl
  by_cases henable : val = bmCmdWriteEnable
  · subst henable
    refine simulates_other h (fun _ _ hc => nomatch hc) (hreceive.trans ?_)
    rfl
  rw [if_neg hirda] at hreceive ⊢
  rw [if_neg hdisable, if_neg henable]
  by_cases hlow : val = bmCmdWriteLow ∨ val = bmCmdReadLow
  · rw [if_pos hlow]
    refine simulates_start h hcom hlow hirda ?_
    rcases hlow with rfl | rfl
    all_goals rfl
  by_cases hhigh : val = bmCmdWriteHigh ∨ val = bmCmdReadHigh
  · rw [if_neg hlow, if_pos hhigh]
    rcases hhigh with rfl | rfl
    · exact simulates_start h hcom (Or.inl rfl) hirda rfl
    · exact simulates_start h hcom (Or.inr rfl) hirda rfl
  rw [if_neg hlow, if_neg hhigh]
  rw [not_or] at hlow hhigh
  have hcommand : d.toMemory.command d.addrSize val =
      { d.toMemory with phase := BackupDevice.phase { d with com := val } } := by
    simp only [SpiMemory.command, phase, if_neg hhigh.1, if_neg hhigh.2, if_neg hirda,
      if_neg hdisable, if_neg henable, hlow.1, hlow.2, or_self, if_false]
    split_ifs
    · rw [toMemory, hidle]
    all_goals rfl
  refine simulates_other h (fun _ _ => ?_) (hreceive.trans (congrArg _ hcommand))
  rw [phase]
  simp only [hlow.1, hlow.2, or_self, if_false]
  split_ifs
  all_goals exact fun hc => nomatch hc

theorem simulates_phase {val out protect : BitVec 8} {phase : SpiPhase} (h : d.Inv)
    (hphase : d.phase = phase) (hdata : ∀ isWrite addr, phase ≠ .data isWrite addr)
    (hreceive : SpiMemory.receive d.addrSize
      ⟨d.contents, d.writeEnable, d.writeProtect, d.resetCommandState, phase⟩ val =
        (out, ⟨d.contents, d.writeEnable, protect, d.resetCommandState, phase⟩)) :
    Simulates d val (out, { d with writeProtect := protect }) := by
  subst hphase
  exact simulates_other h hdata hreceive

theorem command_simulates (gameCode : List Char) {val : BitVec 8} (h : d.Inv)
    (haddressed : d.Addressed (.byte val)) : Simulates d val (d.command gameCode val) := by
  rw [command]
  by_cases hstatus : d.com = bmCmdWriteStatus
  · have hphase : d.phase = .writeStatus := by
      rw [phase, hstatus]
      rfl
    rw [if_pos hstatus]
    exact simulates_phase h hphase (fun _ _ hc => nomatch hc) rfl
  rw [if_neg hstatus]
  by_cases htransfer : d.com = bmCmdWriteLow ∨ d.com = bmCmdReadLow
  · rw [if_pos htransfer, h.running]
    by_cases hleft : d.addrCounter < d.addrSize
    · exact transferByte_address h htransfer hleft
    · exact transferByte_access h htransfer hleft haddressed
  rw [if_neg htransfer]
  by_cases hread : d.com = bmCmdReadStatus
  · have hphase : d.phase = .readStatus := by
      rw [phase, hread]
      rfl
    rw [if_pos hread]
    exact simulates_phase h hphase (fun _ _ hc => nomatch hc) rfl
  rw [if_neg hread]
  by_cases hirda : d.com = bmCmdIrda
  · have hphase : d.phase = .irda := by
      rw [phase, hirda]
      rfl
    rw [if_pos hirda]
    exact simulates_phase h hphase (fun _ _ hc => nomatch hc) rfl
  rw [if_neg hirda]
  by_cases hidle : d.com = 0
  · rw [if_neg (not_not.mpr hidle)]
    exact newCommand_simulates h hidle
  · have hphase : d.phase = .ignored := by
      rw [phase, if_neg hidle, if_neg hstatus, if_neg htransfer, if_neg hread, if_neg hirda]
    rw [if_pos hidle]
    exact simulates_phase h hphase (fun _ _ hc => nomatch hc) rfl

theorem checkReset_finish (h : d.Inv) :
    d.checkReset.Inv ∧ d.checkReset.toMemory = d.toMemory.finish ∧
      d.checkReset.addrSize = d.addrSize := by
  rw [checkReset, SpiMemory.finish]
  by_cases hreset : d.resetCommandState = true
  · have hmemory : d.toMemory.released = true := hreset
    rw [if_pos hreset, if_pos hmemory]
    refine ⟨?_, rfl, rfl⟩
    exact ⟨h.running, h.counter, h.size, h.small, fun _ _ _ hdata _ _ => nomatch hdata⟩
  · have hmemory : ¬ d.toMemory.released = true := hreset
    rw [if_neg hreset, if_neg hmemory]
    exact ⟨h, rfl, rfl⟩

/-- One operation on the device is the same operation on the memory. -/
theorem step_refines (gameCode : List Char) (h : d.Inv) {op : SpiOp} (haddressed : d.Addressed op) :
    (d.step gameCode op).Inv ∧
      (d.step gameCode op).toMemory = d.toMemory.step d.addrSize op ∧
      d.output gameCode op = d.toMemory.output d.addrSize op ∧
      (d.step gameCode op).addrSize = d.addrSize := by
  cases op with
  | release => exact ⟨⟨h.running, h.counter, h.size, h.small, h.seeked⟩, rfl, rfl, rfl⟩
  | byte val =>
    obtain ⟨houtput, hmemory, hinv, hsize⟩ := command_simulates gameCode h haddressed
    obtain ⟨hinv', hfinish, hsize'⟩ := checkReset_finish hinv
    refine ⟨hinv', ?_, ?_, hsize'.trans hsize⟩
    · rw [SpiMemory.step, ← hmemory]
      exact hfinish
    · rw [SpiMemory.output, ← houtput]
      rfl

theorem run_refines (gameCode : List Char) {ops : List SpiOp} (h : d.Inv)
    (haddressed : AtEach (step gameCode) Addressed d ops) :
    observe (step gameCode) (output gameCode) d ops =
        observe (SpiMemory.step d.addrSize) (SpiMemory.output d.addrSize) d.toMemory ops ∧
      (run (step gameCode) d ops).toMemory = run (SpiMemory.step d.addrSize) d.toMemory ops ∧
      (run (step gameCode) d ops).addrCounter ≤ d.addrSize := by
  induction ops generalizing d with
  | nil => exact ⟨rfl, rfl, h.counter⟩
  | cons op ops ih =>
    obtain ⟨hinv, hmemory, houtput, hsize⟩ := step_refines gameCode h haddressed.1
    obtain ⟨hobserve, hrun, hcounter⟩ := ih hinv haddressed.2
    rw [hsize, hmemory] at hobserve hrun
    rw [hsize] at hcounter
    refine ⟨?_, hrun, hcounter⟩
    rw [observe, observe, houtput, hobserve]

theorem Ready.inv (h : d.Ready) : d.Inv :=
  ⟨h.running, h.counter, h.size, h.small, fun _ isWrite addr hdata _ _ => by
    rw [phase, if_pos h.com] at hdata
    cases hdata⟩

end BackupDevice

/-- The device behaves as the byte memory in every run whose accesses follow an address that can be
seeked, and its address counter stays within the address. -/
theorem backup_refines_memory (gameCode : List Char) {d : BackupDevice} (h : d.Ready)
    {ops : List SpiOp} (haddressed : AtEach (BackupDevice.step gameCode) BackupDevice.Addressed d ops) :
    observe (BackupDevice.step gameCode) (BackupDevice.output gameCode) d ops =
        observe (SpiMemory.step d.addrSize) (SpiMemory.output d.addrSize) d.toMemory ops ∧
      (run (BackupDevice.step gameCode) d ops).contents =
        (run (SpiMemory.step d.addrSize) d.toMemory ops).cells ∧
      (run (BackupDevice.step gameCode) d ops).addrCounter ≤ d.addrSize := by
  obtain ⟨hobserve, hrun, hcounter⟩ := BackupDevice.run_refines gameCode h.inv haddressed
  exact ⟨hobserve, congrArg SpiMemory.cells hrun, hcounter⟩

/-- A new device of 512 bytes, with nothing written yet. -/
def freshDevice (addrSize : BitVec 32) : BackupDevice where
  info := ⟨512, 512, 1⟩
  uninitializedValue := 0xFF
  fpMC := ⟨List.replicate 512 0xFF, 0, false⟩
  fsize := 512
  writeEnable := false
  resetCommandState := false
  com := 0
  addrSize := addrSize
  addrCounter := 0
  addr := 0
  writeProtect := 0
  dataAutodetect := []
  state := .running

theorem freshDevice_ready (addrSize : BitVec 32) : (freshDevice addrSize).Ready :=
  ⟨rfl, rfl, BitVec.le_def.mpr (Nat.zero_le _), (List.length_replicate ..).ge,
    show (512 : BitVec 32).toNat < 2 ^ 31 by decide⟩

/-- Enable writes, write `0xAA` to address zero, and read it again. -/
def writeThenRead (addrSize : ℕ) : List SpiOp :=
  [.release, .byte bmCmdWriteEnable, .byte bmCmdWriteLow] ++
    List.replicate addrSize (.byte 0) ++ [.release, .byte 0xAA, .byte bmCmdReadLow] ++
    List.replicate addrSize (.byte 0) ++ [.byte 0]

/-- Without address bytes nothing seeks back to the address, and the read misses the write. -/
theorem unaddressed_read_misses :
    ¬ ∀ (gameCode : List Char) (d : BackupDevice) (ops : List SpiOp), d.Ready →
      observe (BackupDevice.step gameCode) (BackupDevice.output gameCode) d ops =
        observe (SpiMemory.step d.addrSize) (SpiMemory.output d.addrSize) d.toMemory ops := by
  intro hall
  have h := hall [] (freshDevice 0) (writeThenRead 0) (freshDevice_ready 0)
  exact absurd h (by decide +kernel)

theorem freshDevice_refines :
    observe (BackupDevice.step []) (BackupDevice.output []) (freshDevice 2) (writeThenRead 2) =
        observe (SpiMemory.step 2) (SpiMemory.output 2) (freshDevice 2).toMemory (writeThenRead 2) ∧
      (run (BackupDevice.step []) (freshDevice 2) (writeThenRead 2)).contents =
        (run (SpiMemory.step 2) (freshDevice 2).toMemory (writeThenRead 2)).cells ∧
      (run (BackupDevice.step []) (freshDevice 2) (writeThenRead 2)).addrCounter ≤ 2 :=
  backup_refines_memory [] (freshDevice_ready 2) (by decide +kernel)

end Desmume.Backup
