import Desmume.Library.LittleEndian
import Desmume.Library.Run
import Mathlib.Tactic.SplitIfs

/-! The unpacker of the geometry port: words of four packed commands, each followed by the
parameters of its commands, become the commands sent to the FIFO. -/

namespace Desmume.Geometry
open Library

def gfxNoargCommand : BitVec 8 := 0x00
def gfxInvalidCommand : BitVec 8 := 0xFF
def gfxUndefinedCommand : BitVec 8 := 0xCC

/-- The rows of `gfx3d_commandTypes` below 0x80; every later command is undefined. -/
def commandTypeRows : List (List (BitVec 8)) :=
  [[0xFF, 0xFF, 0xFF, 0xFF, 0xFF, 0xFF, 0xFF, 0xFF, 0xFF, 0xFF, 0xFF, 0xFF, 0xFF, 0xFF, 0xFF, 0xFF],
   [0x01, 0x00, 0x01, 0x01, 0x01, 0x00, 0x10, 0x0C, 0x10, 0x0C, 0x09, 0x03, 0x03, 0xCC, 0xCC, 0xCC],
   [0x01, 0x01, 0x01, 0x02, 0x01, 0x01, 0x01, 0x01, 0x01, 0x01, 0x01, 0x01, 0xCC, 0xCC, 0xCC, 0xCC],
   [0x01, 0x01, 0x01, 0x01, 0x20, 0xCC, 0xCC, 0xCC, 0xCC, 0xCC, 0xCC, 0xCC, 0xCC, 0xCC, 0xCC, 0xCC],
   [0x01, 0x00, 0xCC, 0xCC, 0xCC, 0xCC, 0xCC, 0xCC, 0xCC, 0xCC, 0xCC, 0xCC, 0xCC, 0xCC, 0xCC, 0xCC],
   [0x01, 0xCC, 0xCC, 0xCC, 0xCC, 0xCC, 0xCC, 0xCC, 0xCC, 0xCC, 0xCC, 0xCC, 0xCC, 0xCC, 0xCC, 0xCC],
   [0x01, 0xCC, 0xCC, 0xCC, 0xCC, 0xCC, 0xCC, 0xCC, 0xCC, 0xCC, 0xCC, 0xCC, 0xCC, 0xCC, 0xCC, 0xCC],
   [0x03, 0x02, 0x01, 0xCC, 0xCC, 0xCC, 0xCC, 0xCC, 0xCC, 0xCC, 0xCC, 0xCC, 0xCC, 0xCC, 0xCC, 0xCC]]

def gfx3dCommandTypes (cmd : BitVec 8) : BitVec 8 :=
  commandTypeRows.flatten.getD cmd.toNat gfxUndefinedCommand

/-- `GXF_Hardware`. -/
structure GxfHardware where
  shiftCommand : BitVec 32
  paramCounter : ℕ
  deriving DecidableEq

def GxfHardware.reset : GxfHardware := ⟨0, 0⟩

def currCommand (shiftCommand : BitVec 32) : BitVec 8 := shiftCommand.setWidth 8

theorem gfx3dCommandTypes_zero : gfx3dCommandTypes 0 = gfxInvalidCommand := rfl

theorem currCommand_zero {shiftCommand : BitVec 32} (h : shiftCommand.toNat = 0) :
    gfx3dCommandTypes (currCommand shiftCommand) = gfxInvalidCommand := by
  obtain rfl : shiftCommand = 0 := BitVec.eq_of_toNat_eq h
  rfl

theorem shift_lt {shiftCommand : BitVec 32} (h : shiftCommand.toNat ≠ 0) :
    (shiftCommand >>> 8).toNat < shiftCommand.toNat := by
  rw [BitVec.toNat_ushiftRight, Nat.shiftRight_eq_div_pow]
  omega

/-- The loop over the packed commands: what it sends and the state it ends in. -/
def analyze (shiftCommand : BitVec 32) : List (BitVec 8 × BitVec 32) × GxfHardware :=
  let cmd := currCommand shiftCommand
  if gfx3dCommandTypes cmd = gfxUndefinedCommand then analyze (shiftCommand >>> 8)
  else if gfx3dCommandTypes cmd = gfxNoargCommand then
    let r := analyze (shiftCommand >>> 8)
    ((cmd, 0) :: r.1, r.2)
  else if cmd = 0 ∧ shiftCommand ≠ 0 then analyze (shiftCommand >>> 8)
  else if gfx3dCommandTypes cmd = gfxInvalidCommand then ([], ⟨shiftCommand, 0⟩)
  else ([], ⟨shiftCommand, (gfx3dCommandTypes cmd).toNat⟩)
  termination_by shiftCommand.toNat
  decreasing_by
    · rename_i h
      exact shift_lt fun h0 => absurd (h.symm.trans (currCommand_zero h0)) (by decide)
    · rename_i _ h
      exact shift_lt fun h0 => absurd (h.symm.trans (currCommand_zero h0)) (by decide)
    · rename_i _ _ h
      exact shift_lt fun h0 => h.2 (BitVec.eq_of_toNat_eq h0)

/-- `GXF_Hardware::receive`: what is sent to the FIFO and the next state. -/
def gxfReceive (val : BitVec 32) (s : GxfHardware) :
    List (BitVec 8 × BitVec 32) × GxfHardware :=
  let cmd := currCommand s.shiftCommand
  let shiftCommand :=
    -- at rest the value is a new packed word
    if gfx3dCommandTypes cmd = gfxInvalidCommand then val else s.shiftCommand
  if 0 < s.paramCounter then
    if s.paramCounter - 1 = 0 then
      let r := analyze (shiftCommand >>> 8)
      ((cmd, val) :: r.1, r.2)
    else ([(cmd, val)], ⟨shiftCommand, s.paramCounter - 1⟩)
  else analyze shiftCommand

def gxfStep (s : GxfHardware) (val : BitVec 32) : GxfHardware := (gxfReceive val s).2

def gxfSends (s : GxfHardware) (val : BitVec 32) : List (BitVec 8 × BitVec 32) :=
  (gxfReceive val s).1

/-- The loop goes on from this shift word. -/
def Continues (shiftCommand : BitVec 32) : Prop :=
  gfx3dCommandTypes (currCommand shiftCommand) = gfxUndefinedCommand ∨
    gfx3dCommandTypes (currCommand shiftCommand) = gfxNoargCommand ∨
    (currCommand shiftCommand = 0 ∧ shiftCommand ≠ 0)

/-- A valid command with as many parameters as its type says. -/
structure GxCommand where
  cmd : BitVec 8
  params : List (BitVec 32)
  ne_invalid : gfx3dCommandTypes cmd ≠ gfxInvalidCommand
  ne_undefined : gfx3dCommandTypes cmd ≠ gfxUndefinedCommand
  length_params : params.length = (gfx3dCommandTypes cmd).toNat

/-- What the FIFO has to get of a command. -/
def GxCommand.sends (c : GxCommand) : List (BitVec 8 × BitVec 32) :=
  if c.params = [] then [(c.cmd, 0)] else c.params.map fun p => (c.cmd, p)

def slotByte : Option GxCommand → BitVec 8
  | some c => c.cmd
  | none => 0

def slotParams : Option GxCommand → List (BitVec 32)
  | some c => c.params
  | none => []

def slotSends : Option GxCommand → List (BitVec 8 × BitVec 32)
  | some c => c.sends
  | none => []

/-- The word with the given bytes, the first slot lowest. -/
def packWord (slots : List (Option GxCommand)) : BitVec 32 :=
  BitVec.ofNat 32 (ofLeBytes (slots.map slotByte))

/-- A packed word has four slots, some of them unused. -/
structure PackedCommands where
  slots : List (Option GxCommand)
  length_slots : slots.length = 4

inductive StreamItem where
  | packed (p : PackedCommands)
  | zero

namespace StreamItem

def words : StreamItem → List (BitVec 32)
  | packed p => packWord p.slots :: p.slots.flatMap slotParams
  | zero => [0]

def sends : StreamItem → List (BitVec 8 × BitVec 32)
  | packed p => p.slots.flatMap slotSends
  | zero => []

end StreamItem

/-! The slots of a word are looked at one after the other. -/

theorem ofLeBytes_lt (bs : List (BitVec 8)) : ofLeBytes bs < 256 ^ bs.length := by
  induction bs with
  | nil => exact Nat.one_pos
  | cons b bs ih =>
    rw [ofLeBytes, List.length_cons, Nat.pow_succ]
    have hb := b.isLt
    omega

theorem ofLeBytes_lt_word {bs : List (BitVec 8)} (h : bs.length ≤ 4) : ofLeBytes bs < 2 ^ 32 :=
  (ofLeBytes_lt bs).trans_le (Nat.pow_le_pow_right (by omega) h)

section Pack

variable {slot : Option GxCommand} {slots : List (Option GxCommand)}

theorem currCommand_packWord : currCommand (packWord (slot :: slots)) = slotByte slot := by
  apply BitVec.eq_of_toNat_eq
  rw [currCommand, packWord, BitVec.toNat_setWidth, BitVec.toNat_ofNat, List.map_cons, ofLeBytes]
  have hb := (slotByte slot).isLt
  omega

theorem packWord_shift (h : slots.length < 4) :
    packWord (slot :: slots) >>> 8 = packWord slots := by
  have hall : ofLeBytes ((slot :: slots).map slotByte) < 2 ^ 32 :=
    ofLeBytes_lt_word (by rw [List.length_map, List.length_cons]; omega)
  have hrest : ofLeBytes (slots.map slotByte) < 2 ^ 32 :=
    ofLeBytes_lt_word (by rw [List.length_map]; omega)
  apply BitVec.eq_of_toNat_eq
  rw [BitVec.toNat_ushiftRight, Nat.shiftRight_eq_div_pow, packWord, packWord, BitVec.toNat_ofNat,
    BitVec.toNat_ofNat, Nat.mod_eq_of_lt hall, Nat.mod_eq_of_lt hrest, List.map_cons, ofLeBytes]
  have hb := (slotByte slot).isLt
  omega

end Pack

theorem analyze_zero : analyze 0 = ([], .reset) := by
  rw [analyze]
  rfl

theorem analyze_unused {shiftCommand : BitVec 32} (h : currCommand shiftCommand = 0) :
    analyze shiftCommand = analyze (shiftCommand >>> 8) := by
  by_cases hzero : shiftCommand = 0
  · rw [hzero]
    rfl
  · rw [analyze]
    simp only [h, gfx3dCommandTypes_zero]
    rw [if_neg (by decide), if_neg (by decide), if_pos ⟨trivial, hzero⟩]

section Command

variable {shiftCommand : BitVec 32} {c : GxCommand} (hc : currCommand shiftCommand = c.cmd)
include hc

theorem analyze_noarg (h : gfx3dCommandTypes c.cmd = gfxNoargCommand) :
    analyze shiftCommand =
      ((c.cmd, 0#32) :: (analyze (shiftCommand >>> 8)).1, (analyze (shiftCommand >>> 8)).2) := by
  rw [analyze]
  simp only [hc]
  rw [if_neg c.ne_undefined, if_pos h]
  rfl

theorem analyze_args (h : gfx3dCommandTypes c.cmd ≠ gfxNoargCommand) :
    analyze shiftCommand = ([], ⟨shiftCommand, c.params.length⟩) := by
  have hne : c.cmd ≠ 0 := fun hzero => c.ne_invalid (hzero ▸ gfx3dCommandTypes_zero)
  rw [analyze]
  simp only [hc]
  rw [if_neg c.ne_undefined, if_neg h, if_neg (fun hskip => hne hskip.1), if_neg c.ne_invalid,
    c.length_params]

/-- The parameters of a command are sent one by one, and after the last one the rest of the packed
word is looked at. -/
theorem gxf_params (p : BitVec 32) (ps : List (BitVec 32)) :
    observe gxfStep gxfSends ⟨shiftCommand, (p :: ps).length⟩ (p :: ps) =
        (p :: ps).map (fun p => (c.cmd, p)) ++ (analyze (shiftCommand >>> 8)).1 ∧
      run gxfStep ⟨shiftCommand, (p :: ps).length⟩ (p :: ps) =
        (analyze (shiftCommand >>> 8)).2 := by
  induction ps generalizing p with
  | nil =>
    have hreceive : gxfReceive p ⟨shiftCommand, 1⟩ =
        ((c.cmd, p) :: (analyze (shiftCommand >>> 8)).1, (analyze (shiftCommand >>> 8)).2) := by
      rw [gxfReceive]
      simp only [hc]
      rw [if_neg c.ne_invalid]
      rfl
    simp only [List.length_singleton, observe, run_cons, run_nil, gxfStep, gxfSends, hreceive]
    exact ⟨List.append_nil _, trivial⟩
  | cons q ps ih =>
    have hreceive : gxfReceive p ⟨shiftCommand, (p :: q :: ps).length⟩ =
        ([(c.cmd, p)], ⟨shiftCommand, (q :: ps).length⟩) := by
      rw [gxfReceive]
      simp only [hc]
      rw [if_neg c.ne_invalid]
      rfl
    obtain ⟨hsends, hstate⟩ := ih (p := q)
    rw [observe, run_cons, gxfStep, gxfSends, hreceive]
    refine ⟨?_, hstate⟩
    rw [hsends]
    rfl

end Command

/-- After the slots of a word were looked at and the parameters of its commands received, all of
its commands were sent and nothing is pending. -/
theorem gxf_slots {slots : List (Option GxCommand)} (h : slots.length ≤ 4) :
    (analyze (packWord slots)).1 ++
          observe gxfStep gxfSends (analyze (packWord slots)).2 (slots.flatMap slotParams) =
        slots.flatMap slotSends ∧
      run gxfStep (analyze (packWord slots)).2 (slots.flatMap slotParams) = .reset := by
  induction slots with
  | nil =>
    rw [show packWord [] = 0 from rfl, analyze_zero]
    exact ⟨rfl, rfl⟩
  | cons slot slots ih =>
    have hlt : slots.length < 4 := by
      rw [List.length_cons] at h
      exact h
    obtain ⟨hsends, hstate⟩ := ih hlt.le
    have hcurr : currCommand (packWord (slot :: slots)) = slotByte slot := currCommand_packWord
    rw [List.flatMap_cons, List.flatMap_cons]
    cases slot with
    | none =>
      rw [analyze_unused hcurr, packWord_shift hlt]
      exact ⟨hsends, hstate⟩
    | some c =>
      rw [slotByte] at hcurr
      rw [slotParams, slotSends, GxCommand.sends]
      by_cases hnoarg : gfx3dCommandTypes c.cmd = gfxNoargCommand
      · have hnil : c.params = [] := by
          rw [← List.length_eq_zero_iff, c.length_params, hnoarg]
          rfl
        rw [analyze_noarg hcurr hnoarg, packWord_shift hlt, hnil, if_pos rfl, List.nil_append]
        exact ⟨congrArg (List.cons _) hsends, hstate⟩
      · rcases hparams : c.params with _ | ⟨p, ps⟩
        · refine absurd (BitVec.eq_of_toNat_eq ?_) hnoarg
          rw [← c.length_params, hparams]
          rfl
        · obtain ⟨hsent, hnext⟩ := gxf_params hcurr p ps
          rw [analyze_args hcurr hnoarg, hparams, if_neg (List.cons_ne_nil _ _), observe_append,
            run_append, hsent, hnext, packWord_shift hlt, List.nil_append, List.append_assoc, hsends]
          exact ⟨rfl, hstate⟩

theorem gxf_item (item : StreamItem) :
    observe gxfStep gxfSends .reset item.words = item.sends ∧
      run gxfStep .reset item.words = .reset := by
  cases item with
  | packed p =>
    exact gxf_slots p.length_slots.le
  | zero =>
    have hreceive : gxfReceive 0 .reset = ([], .reset) := analyze_zero
    rw [StreamItem.words, StreamItem.sends, observe, run_cons, gxfStep, gxfSends, hreceive]
    exact ⟨rfl, rfl⟩

theorem gxf_items (items : List StreamItem) :
    observe gxfStep gxfSends .reset (items.flatMap StreamItem.words) =
        items.flatMap StreamItem.sends ∧
      run gxfStep .reset (items.flatMap StreamItem.words) = .reset := by
  induction items with
  | nil => exact ⟨rfl, rfl⟩
  | cons item items ih =>
    obtain ⟨hsends, hstate⟩ := gxf_item item
    rw [List.flatMap_cons, observe_append, run_append, hsends, hstate, ih.1, ih.2,
      List.flatMap_cons]
    exact ⟨rfl, rfl⟩

/-! The loop of `receive` ends. -/

theorem analyze_of_continues {shiftCommand : BitVec 32} (h : Continues shiftCommand) :
    (analyze shiftCommand).2 = (analyze (shiftCommand >>> 8)).2 := by
  rw [analyze]
  simp only
  split_ifs with hundefined hnoarg hskip hinvalid
  · rfl
  · rfl
  · rfl
  · exact absurd h (by simp only [Continues, hundefined, hnoarg, hskip, or_self, not_false_eq_true])
  · exact absurd h (by simp only [Continues, hundefined, hnoarg, hskip, or_self, not_false_eq_true])

theorem analyze_of_not_continues {shiftCommand : BitVec 32} (h : ¬ Continues shiftCommand) :
    (analyze shiftCommand).2.shiftCommand = shiftCommand := by
  rw [Continues, not_or, not_or] at h
  rw [analyze]
  simp only
  rw [if_neg h.1, if_neg h.2.1, if_neg h.2.2]
  split_ifs <;> rfl

theorem analyze_of_forall_continues {shiftCommand : BitVec 32} (n : ℕ)
    (h : ∀ m < n, Continues (shiftCommand >>> (8 * m))) :
    (analyze shiftCommand).2 = (analyze (shiftCommand >>> (8 * n))).2 := by
  induction n with
  | zero => rw [Nat.mul_zero, BitVec.ushiftRight_zero]
  | succ n ih =>
    rw [ih fun m hm => h m (hm.trans (Nat.lt_succ_self n)), analyze_of_continues (h n (by omega)),
      ← BitVec.shiftRight_add, Nat.mul_succ]

theorem not_continues_shift (shiftCommand : BitVec 32) :
    ¬ Continues (shiftCommand >>> (8 * 4)) := by
  have hzero : shiftCommand >>> (8 * 4) = 0 := by
    apply BitVec.eq_of_toNat_eq
    rw [BitVec.toNat_ushiftRight, Nat.shiftRight_eq_div_pow]
    exact Nat.div_eq_of_lt shiftCommand.isLt
  rw [hzero]
  rintro (h | h | h)
  · exact absurd h (by decide)
  · exact absurd h (by decide)
  · exact h.2 rfl

theorem analyze_breaks (shiftCommand : BitVec 32) :
    ∃ n ≤ 4, (∀ m < n, Continues (shiftCommand >>> (8 * m))) ∧
      ¬ Continues (shiftCommand >>> (8 * n)) ∧
      (analyze shiftCommand).2.shiftCommand = shiftCommand >>> (8 * n) := by
  classical
  have hex : ∃ n, ¬ Continues (shiftCommand >>> (8 * n)) := ⟨4, not_continues_shift shiftCommand⟩
  have hbefore : ∀ m < Nat.find hex, Continues (shiftCommand >>> (8 * m)) :=
    fun m hm => not_not.mp (Nat.find_min hex hm)
  refine ⟨Nat.find hex, Nat.find_min' hex (not_continues_shift shiftCommand), hbefore,
    Nat.find_spec hex, ?_⟩
  rw [analyze_of_forall_continues _ hbefore, analyze_of_not_continues (Nat.find_spec hex)]

/-- A stream of packed words with their parameters and of zero words between them sends exactly
the commands packed, and on every word the loop of the unpacker breaks. -/
theorem gxf_stream :
    (∀ items : List StreamItem, observe gxfStep gxfSends .reset (items.flatMap StreamItem.words) =
      items.flatMap StreamItem.sends) ∧
    ∀ shiftCommand : BitVec 32, ∃ n ≤ 4, (∀ m < n, Continues (shiftCommand >>> (8 * m))) ∧
      ¬ Continues (shiftCommand >>> (8 * n)) ∧
      (analyze shiftCommand).2.shiftCommand = shiftCommand >>> (8 * n) :=
  ⟨fun items => (gxf_items items).1, analyze_breaks⟩

end Desmume.Geometry
