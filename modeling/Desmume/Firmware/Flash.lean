import Desmume.Firmware.FirmwareDefs
import Desmume.Library.Run
import Desmume.Library.WordParts

/-! The flash of the firmware, byte by byte. The commands are found again in the bytes that were
sent: what a byte is depends on the command that was begun last and on how many followed it. -/

namespace Desmume.Firmware
open Library

def fwCmdRead : BitVec 8 := 0x03
def fwCmdWriteDisable : BitVec 8 := 0x04
def fwCmdReadStatus : BitVec 8 := 0x05
def fwCmdWriteEnable : BitVec 8 := 0x06
def fwCmdPageWrite : BitVec 8 := 0x0A
def fwCmdReadId : BitVec 8 := 0x9F

/-- `CommonSettings`, and the `userDataAddr` of `firmware` if there is one. -/
structure FirmwareEnv where
  common : CommonSettings
  firmware : Option (BitVec 32)

namespace FwMemoryChip

/-- The first `size` bytes of the file are the data. -/
def writeFile (mc : FwMemoryChip) : FwMemoryChip :=
  { mc with fp := mc.fp.map fun file => load mc.data 0 mc.size.toNat ++ file.drop mc.size.toNat }

/-- The call of `saveSettings` at the end of a write, with its guards. -/
def saveUserSettings (env : FirmwareEnv) (mc : FwMemoryChip) : FwMemoryChip :=
  if mc.isFirmware && env.common.useExtFirmware && env.common.useExtFirmwareSettings then
    match env.firmware with
    | some userDataAddr => (saveSettings env.common userDataAddr mc).2
    | none => mc
  else mc

/-- `fw_reset_com`. -/
def fwResetCom (env : FirmwareEnv) (mc : FwMemoryChip) : FwMemoryChip :=
  if mc.com = fwCmdPageWrite then
    { (mc.writeFile.saveUserSettings env) with writeEnable := false, com := 0 }
  else { mc with com := 0 }

/-- A byte behind READ or PAGEWRITE. -/
def transferAddressed (mc : FwMemoryChip) (data : BitVec 8) : BitVec 8 × FwMemoryChip :=
  if 0 < mc.addrShift then
    let addrShift := mc.addrShift - 1
    let addr := mc.addr ||| data.setWidth 32 <<< (addrShift.toNat * 8)
    (data, { mc with addrShift, addr })
  else if mc.com = fwCmdRead then
    if mc.addr < mc.size then (mc.data mc.addr.toNat, { mc with addr := mc.addr + 1 }) else (data, mc)
  else
    if mc.addr < mc.size then
      (data, { mc with data := Function.update mc.data mc.addr.toNat data, addr := mc.addr + 1 })
    else (data, mc)

def transferId (mc : FwMemoryChip) (data : BitVec 8) : BitVec 8 × FwMemoryChip :=
  if mc.addr = 0 then (0x20, { mc with addr := 1 })
  else if mc.addr = 1 then (0x40, { mc with addr := 2 })
  else if mc.addr = 2 then (0x12, { mc with addr := 0 })
  else (data, mc)

/-- A byte while no command is handled. -/
def transferCommand (mc : FwMemoryChip) (data : BitVec 8) : BitVec 8 × FwMemoryChip :=
  if data = fwCmdReadId then (data, { mc with addr := 0, com := fwCmdReadId })
  else if data = fwCmdRead then (data, { mc with addr := 0, addrShift := 3, com := fwCmdRead })
  else if data = fwCmdWriteEnable then
    (data, { mc with writeEnable := mc.writeableBuffer || mc.writeEnable })
  else if data = fwCmdWriteDisable then (data, { mc with writeEnable := false })
  else if data = fwCmdPageWrite then
    if mc.writeEnable then (data, { mc with addr := 0, addrShift := 3, com := fwCmdPageWrite })
    else (0, mc)
  else if data = fwCmdReadStatus then (data, { mc with com := fwCmdReadStatus })
  else (data, mc)

/-- `fw_transfer`. -/
def fwTransfer (mc : FwMemoryChip) (data : BitVec 8) : BitVec 8 × FwMemoryChip :=
  if mc.com = fwCmdRead ∨ mc.com = fwCmdPageWrite then mc.transferAddressed data
  else if mc.com = fwCmdReadId then mc.transferId data
  else if mc.com = fwCmdReadStatus then (if mc.writeEnable then 0x02 else 0x00, mc)
  else mc.transferCommand data

end FwMemoryChip

inductive FwOp
  | transfer (data : BitVec 8)
  | resetCom

def flashStep (env : FirmwareEnv) (mc : FwMemoryChip) : FwOp → FwMemoryChip
  | .transfer data => (mc.fwTransfer data).2
  | .resetCom => mc.fwResetCom env

/-! ### The commands in a run -/

section History

variable (env : FirmwareEnv) (mc : FwMemoryChip)

def after (ops : List FwOp) : FwMemoryChip := run (flashStep env) mc ops

/-- The run ends with a command that was begun while none was handled, and the bytes behind it. -/
def EndsIn (earlier ops : List FwOp) (com : BitVec 8) (bytes : List (BitVec 8)) : Prop :=
  ops = earlier ++ (com :: bytes).map .transfer ∧ (after env mc earlier).com = 0

/-- The run ends within a PAGEWRITE that was begun with the latch set. -/
def EndsInWrite (earlier ops : List FwOp) (bytes : List (BitVec 8)) : Prop :=
  EndsIn env mc earlier ops fwCmdPageWrite bytes ∧ (after env mc earlier).writeEnable

/-- The address that is sent, highest byte first. -/
def sentAddress (a b c : BitVec 8) : ℕ := (a ++ b ++ c).toNat

/-- Memory is left as it is, or a data byte of a PAGEWRITE goes where its place behind the address
says. -/
def DataBytesOnly (ops : List FwOp) (op : FwOp) : Prop :=
  (flashStep env (after env mc ops) op).data = (after env mc ops).data ∨
    ∃ earlier a b c ds d, EndsInWrite env mc earlier ops (a :: b :: c :: ds) ∧ op = .transfer d ∧
      sentAddress a b c + ds.length < mc.size.toNat ∧
      (flashStep env (after env mc ops) op).data =
        Function.update (after env mc ops).data (sentAddress a b c + ds.length) d

variable {env mc}

theorem after_concat (ops : List FwOp) (op : FwOp) :
    after env mc (ops ++ [op]) = flashStep env (after env mc ops) op := run_concat ..

/-! ### What a step leaves alone -/

theorem fwTransfer_same (s : FwMemoryChip) (d : BitVec 8) :
    (s.fwTransfer d).2.size = s.size ∧ (s.fwTransfer d).2.writeableBuffer = s.writeableBuffer ∧
      (s.fwTransfer d).2.isFirmware = s.isFirmware := by
  rw [FwMemoryChip.fwTransfer, FwMemoryChip.transferAddressed, FwMemoryChip.transferId,
    FwMemoryChip.transferCommand]
  split_ifs <;> exact ⟨rfl, rfl, rfl⟩

variable (env) in
theorem saveUserSettings_same (s : FwMemoryChip) :
    (s.saveUserSettings env).size = s.size ∧
      (s.saveUserSettings env).writeableBuffer = s.writeableBuffer ∧
      (s.saveUserSettings env).isFirmware = s.isFirmware := by
  rw [FwMemoryChip.saveUserSettings]
  split_ifs
  · cases env.firmware with
    | none => exact ⟨rfl, rfl, rfl⟩
    | some userDataAddr =>
      simp only [saveSettings]
      split_ifs <;> exact ⟨rfl, rfl, rfl⟩
  · exact ⟨rfl, rfl, rfl⟩

theorem after_same (ops : List FwOp) :
    (after env mc ops).size = mc.size ∧ (after env mc ops).writeableBuffer = mc.writeableBuffer ∧
      (after env mc ops).isFirmware = mc.isFirmware := by
  induction ops using List.reverseRecOn with
  | nil => exact ⟨rfl, rfl, rfl⟩
  | append_singleton ops op ih =>
    rw [after_concat]
    generalize after env mc ops = s at ih ⊢
    cases op with
    | transfer d =>
      obtain ⟨hsize, hbuffer, hfirmware⟩ := fwTransfer_same s d
      exact ⟨hsize.trans ih.1, hbuffer.trans ih.2.1, hfirmware.trans ih.2.2⟩
    | resetCom =>
      rw [flashStep, FwMemoryChip.fwResetCom]
      split_ifs
      · obtain ⟨hsize, hbuffer, hfirmware⟩ := saveUserSettings_same env s.writeFile
        exact ⟨hsize.trans ih.1, hbuffer.trans ih.2.1, hfirmware.trans ih.2.2⟩
      · exact ih

/-! ### The bytes behind a command -/

section Modes

variable {s : FwMemoryChip} (d : BitVec 8)

theorem fwTransfer_addressed (h : s.com = fwCmdRead ∨ s.com = fwCmdPageWrite) :
    s.fwTransfer d = s.transferAddressed d := if_pos h

theorem fwTransfer_id (h : s.com = fwCmdReadId) : s.fwTransfer d = s.transferId d := by
  rw [FwMemoryChip.fwTransfer, h]
  rfl

theorem fwTransfer_status (h : s.com = fwCmdReadStatus) :
    s.fwTransfer d = (if s.writeEnable then 0x02 else 0x00, s) := by
  rw [FwMemoryChip.fwTransfer, h]
  rfl

theorem fwTransfer_idle (h : s.com = 0) : s.fwTransfer d = s.transferCommand d := by
  rw [FwMemoryChip.fwTransfer, h]
  rfl

theorem transferAddressed_same : (s.transferAddressed d).2.com = s.com ∧
    (s.transferAddressed d).2.writeEnable = s.writeEnable ∧
    (s.transferAddressed d).2.addrShift.toNat = s.addrShift.toNat - 1 := by
  have hpos : 0 < s.addrShift ↔ 0 < s.addrShift.toNat := BitVec.lt_def
  have hkeep (h : ¬ 0 < s.addrShift) : s.addrShift.toNat = s.addrShift.toNat - 1 := by
    have hzero := mt hpos.2 h
    omega
  rw [FwMemoryChip.transferAddressed]
  split_ifs with hshift
  · refine ⟨rfl, rfl, ?_⟩
    have hsub : (s.addrShift - 1).toNat = (2 ^ 8 - 1 + s.addrShift.toNat) % 2 ^ 8 :=
      BitVec.toNat_sub ..
    have hlt := s.addrShift.isLt
    have hshift := hpos.1 hshift
    change (s.addrShift - 1).toNat = _
    omega
  · exact ⟨rfl, rfl, hkeep hshift⟩
  · exact ⟨rfl, rfl, hkeep hshift⟩
  · exact ⟨rfl, rfl, hkeep hshift⟩
  · exact ⟨rfl, rfl, hkeep hshift⟩

theorem transferId_com : (s.transferId d).2.com = s.com := by
  rw [FwMemoryChip.transferId]
  split_ifs <;> rfl

/-- The commands that handle the bytes behind them. -/
def Handled (com : BitVec 8) : Prop :=
  (com = fwCmdRead ∨ com = fwCmdPageWrite) ∨ com = fwCmdReadId ∨ com = fwCmdReadStatus

/-- A byte begins a command that handles the next ones, or none is handled. -/
theorem transferCommand_com (hs : s.com = 0) : (s.transferCommand d).2.com = 0 ∨
    ((s.transferCommand d).2.com = d ∧ Handled d ∧ (d = fwCmdPageWrite → s.writeEnable)) := by
  rw [FwMemoryChip.transferCommand]
  split_ifs with hid hread henable hdisable hwrite hlatch hstatus
  · exact .inr ⟨hid.symm, .inr (.inl hid), fun h => absurd (hid.symm.trans h) (by decide)⟩
  · exact .inr ⟨hread.symm, .inl (.inl hread), fun h => absurd (hread.symm.trans h) (by decide)⟩
  · exact .inl hs
  · exact .inl hs
  · exact .inr ⟨hwrite.symm, .inl (.inr hwrite), fun _ => hlatch⟩
  · exact .inl hs
  · exact .inr ⟨hstatus.symm, .inr (.inr hstatus),
      fun h => absurd (hstatus.symm.trans h) (by decide)⟩
  · exact .inl hs

theorem fwTransfer_com (h : Handled s.com) : (s.fwTransfer d).2.com = s.com := by
  rcases h with h | h | h
  · rw [fwTransfer_addressed d h]
    exact (transferAddressed_same d).1
  · rw [fwTransfer_id d h]
    exact transferId_com d
  · rw [fwTransfer_status d h]

end Modes

theorem EndsIn.concat {earlier ops : List FwOp} {com : BitVec 8} {bytes : List (BitVec 8)}
    (h : EndsIn env mc earlier ops com bytes) (d : BitVec 8) :
    EndsIn env mc earlier (ops ++ [.transfer d]) com (bytes ++ [d]) := by
  refine ⟨?_, h.2⟩
  rw [h.1, List.append_assoc, ← List.cons_append, List.map_append]
  rfl

/-- While a command is handled, the run ends in it, by induction on the run. -/
theorem endsIn_of_com (hidle : mc.com = 0) (ops : List FwOp) :
    (after env mc ops).com = 0 ∨
      (Handled (after env mc ops).com ∧
        ∃ earlier bytes, EndsIn env mc earlier ops (after env mc ops).com bytes ∧
          ((after env mc ops).com = fwCmdPageWrite → (after env mc earlier).writeEnable)) := by
  induction ops using List.reverseRecOn with
  | nil => exact .inl hidle
  | append_singleton ops op ih =>
    rw [after_concat]
    cases op with
    | resetCom =>
      refine .inl ?_
      rw [flashStep, FwMemoryChip.fwResetCom]
      split_ifs <;> rfl
    | transfer d =>
      rw [flashStep]
      rcases ih with hcom | ⟨hhandled, earlier, bytes, hends, hlatch⟩
      · rw [fwTransfer_idle d hcom]
        rcases transferCommand_com d hcom with hnone | ⟨hbegun, hhandled, hlatch⟩
        · exact .inl hnone
        · rw [hbegun]
          exact .inr ⟨hhandled, ops, [], ⟨rfl, hcom⟩, hlatch⟩
      · rw [fwTransfer_com d hhandled]
        exact .inr ⟨hhandled, earlier, bytes ++ [d], hends.concat d, hlatch⟩

/-! ### The address and the data -/

section Addressed

variable {s : FwMemoryChip}

/-- The state behind the command byte. -/
theorem fwTransfer_begin {com : BitVec 8} (hs : s.com = 0)
    (hcom : com = fwCmdRead ∨ com = fwCmdPageWrite ∧ s.writeEnable) :
    (s.fwTransfer com).2 = { s with addr := 0, addrShift := 3, com } := by
  rw [fwTransfer_idle com hs]
  rcases hcom with rfl | ⟨rfl, hlatch⟩
  · rfl
  · have hwrite : s.transferCommand fwCmdPageWrite =
        if s.writeEnable then (fwCmdPageWrite, { s with addr := 0, addrShift := 3, com := fwCmdPageWrite })
        else (0, s) := rfl
    rw [hwrite, if_pos hlatch]

theorem flashStep_addressed (h : s.com = fwCmdRead ∨ s.com = fwCmdPageWrite) (d : BitVec 8) :
    flashStep env s (.transfer d) = (s.transferAddressed d).2 := by
  rw [flashStep, fwTransfer_addressed d h]

theorem addressed_run (h : s.com = fwCmdRead ∨ s.com = fwCmdPageWrite) (hshift : s.addrShift = 3)
    (bytes : List (BitVec 8)) :
    (after env s (bytes.map .transfer)).com = s.com ∧
      (after env s (bytes.map .transfer)).writeEnable = s.writeEnable ∧
      (after env s (bytes.map .transfer)).addrShift.toNat = 3 - bytes.length := by
  induction bytes using List.reverseRecOn with
  | nil => exact ⟨rfl, rfl, by rw [List.map_nil, after, run_nil, hshift]; rfl⟩
  | append_singleton bytes d ih =>
    obtain ⟨hcom, hlatch, hcount⟩ := ih
    rw [List.map_append, List.map_singleton, after_concat]
    generalize after env s (bytes.map .transfer) = t at hcom hlatch hcount ⊢
    obtain ⟨hcom', hlatch', hcount'⟩ := transferAddressed_same (s := t) d
    rw [flashStep_addressed (hcom ▸ h)]
    refine ⟨hcom'.trans hcom, hlatch'.trans hlatch, ?_⟩
    rw [hcount', hcount, List.length_append, List.length_singleton]
    omega

/-- The address is put together from its three bytes. -/
theorem three_bytes (h : s.com = fwCmdRead ∨ s.com = fwCmdPageWrite) (hshift : s.addrShift = 3)
    (haddr : s.addr = 0) (a b c : BitVec 8) :
    after env s ([a, b, c].map .transfer) =
      { s with addr := (a ++ b ++ c).setWidth 32, addrShift := 0 } := by
  have hstep (t : FwMemoryChip) (ht : t.com = s.com) (k : BitVec 8) (hk : t.addrShift = k)
      (hpos : 0 < k) (d : BitVec 8) : flashStep env t (.transfer d) =
        { t with addrShift := k - 1, addr := t.addr ||| d.setWidth 32 <<< ((k - 1).toNat * 8) } := by
    subst hk
    rw [flashStep_addressed (ht ▸ h), FwMemoryChip.transferAddressed, if_pos hpos]
  have hsent : (a ++ b ++ c).setWidth 32 =
      0#32 ||| a.setWidth 32 <<< 16 ||| b.setWidth 32 <<< 8 ||| c.setWidth 32 <<< 0 := by
    rw [setWidth_append_eq_or, setWidth_append_eq_or, BitVec.shiftLeft_or_distrib,
      ← BitVec.shiftLeft_add, BitVec.zero_or, BitVec.shiftLeft_zero,
      BitVec.or_comm (a.setWidth 32 <<< 16), BitVec.or_comm]
  have ha : flashStep env s (.transfer a) =
      { s with addrShift := 2, addr := 0#32 ||| a.setWidth 32 <<< 16 } := by
    rw [hstep s rfl 3 hshift (by decide), haddr]
    rfl
  change flashStep env (flashStep env (flashStep env s (.transfer a)) (.transfer b)) (.transfer c) = _
  rw [ha, hsent]
  exact (congrArg (flashStep env · _) (hstep { s with addrShift := 2, addr := _ } rfl 2 rfl
    (by decide) b)).trans (hstep { s with addrShift := 1, addr := _ } rfl 1 rfl (by decide) c)

/-- The next data byte is for the place `n`, or that place and the address are both off the
chip. -/
def AtPlace (s : FwMemoryChip) (n : ℕ) : Prop :=
  s.addrShift = 0 ∧ (s.addr.toNat = n ∨ s.size.toNat ≤ s.addr.toNat ∧ s.size.toNat ≤ n)

theorem AtPlace.lt_iff {n : ℕ} (h : AtPlace s n) : s.addr < s.size ↔ n < s.size.toNat := by
  rw [BitVec.lt_def]
  obtain ⟨-, h | h⟩ := h <;> omega

theorem AtPlace.addr_eq {n : ℕ} (h : AtPlace s n) (hlt : n < s.size.toNat) : s.addr.toNat = n := by
  obtain ⟨-, h | h⟩ := h <;> omega

theorem not_pos_addrShift (h : s.addrShift = 0) : ¬ 0 < s.addrShift := by
  rw [h]
  decide

theorem transferAddressed_read (hcom : s.com = fwCmdRead) {n : ℕ} (h : AtPlace s n) (d : BitVec 8) :
    s.transferAddressed d =
      if n < s.size.toNat then (s.data n, { s with addr := s.addr + 1 }) else (d, s) := by
  rw [FwMemoryChip.transferAddressed, if_neg (not_pos_addrShift h.1), if_pos hcom]
  by_cases hlt : n < s.size.toNat
  · rw [if_pos hlt, if_pos (h.lt_iff.2 hlt), h.addr_eq hlt]
  · rw [if_neg hlt, if_neg (mt h.lt_iff.1 hlt)]

theorem transferAddressed_write (hcom : s.com = fwCmdPageWrite) {n : ℕ} (h : AtPlace s n)
    (d : BitVec 8) :
    s.transferAddressed d =
      if n < s.size.toNat then
        (d, { s with data := Function.update s.data n d, addr := s.addr + 1 })
      else (d, s) := by
  have hread : s.com ≠ fwCmdRead := by
    rw [hcom]
    decide
  rw [FwMemoryChip.transferAddressed, if_neg (not_pos_addrShift h.1), if_neg hread]
  by_cases hlt : n < s.size.toNat
  · rw [if_pos hlt, if_pos (h.lt_iff.2 hlt), h.addr_eq hlt]
  · rw [if_neg hlt, if_neg (mt h.lt_iff.1 hlt)]

theorem AtPlace.next {n : ℕ} (h : AtPlace s n) (data : ℕ → BitVec 8) (hlt : n < s.size.toNat) :
    AtPlace { s with data, addr := s.addr + 1 } (n + 1) := by
  have hsize := s.size.isLt
  refine ⟨h.1, .inl ?_⟩
  have hone : (1 : BitVec 32).toNat = 1 := rfl
  change (s.addr + 1).toNat = n + 1
  rw [BitVec.toNat_add, h.addr_eq hlt, hone]
  exact Nat.mod_eq_of_lt (by omega)

theorem AtPlace.step {n : ℕ} (hcom : s.com = fwCmdRead ∨ s.com = fwCmdPageWrite) (h : AtPlace s n)
    (d : BitVec 8) : AtPlace (s.transferAddressed d).2 (n + 1) := by
  have hstay (hlt : ¬ n < s.size.toNat) : AtPlace s (n + 1) :=
    ⟨h.1, .inr (by obtain ⟨-, h | h⟩ := h <;> omega)⟩
  rcases hcom with hread | hwrite
  · rw [transferAddressed_read hread h]
    split_ifs with hlt
    · exact h.next s.data hlt
    · exact hstay hlt
  · rw [transferAddressed_write hwrite h]
    split_ifs with hlt
    · exact h.next _ hlt
    · exact hstay hlt

theorem data_run {n : ℕ} (hcom : s.com = fwCmdRead ∨ s.com = fwCmdPageWrite) (h : AtPlace s n)
    (ds : List (BitVec 8)) :
    (after env s (ds.map .transfer)).com = s.com ∧
      AtPlace (after env s (ds.map .transfer)) (n + ds.length) := by
  induction ds using List.reverseRecOn with
  | nil => exact ⟨rfl, h⟩
  | append_singleton ds d ih =>
    rw [List.map_append, List.map_singleton, after_concat]
    generalize after env s (ds.map .transfer) = t at ih ⊢
    rw [flashStep_addressed (ih.1 ▸ hcom), List.length_append, List.length_singleton]
    exact ⟨(transferAddressed_same d).1.trans ih.1, ih.2.step (ih.1 ▸ hcom) d⟩

end Addressed

theorem after_append (as bs : List FwOp) :
    after env mc (as ++ bs) = after env (after env mc as) bs := run_append ..

theorem after_endsIn {earlier ops : List FwOp} {com : BitVec 8} {bytes : List (BitVec 8)}
    (h : EndsIn env mc earlier ops com bytes) :
    after env mc ops =
      after env ((after env mc earlier).fwTransfer com).2 (bytes.map .transfer) := by
  rw [h.1, after_append]
  rfl

/-- Behind the address the next byte is for the place that was counted. -/
theorem at_place {earlier ops : List FwOp} {com a b c : BitVec 8} {ds : List (BitVec 8)}
    (h : EndsIn env mc earlier ops com (a :: b :: c :: ds))
    (hcom : com = fwCmdRead ∨ com = fwCmdPageWrite ∧ (after env mc earlier).writeEnable) :
    (after env mc ops).com = com ∧ AtPlace (after env mc ops) (sentAddress a b c + ds.length) := by
  have hmode : com = fwCmdRead ∨ com = fwCmdPageWrite := hcom.imp_right And.left
  have hsplit : (a :: b :: c :: ds).map FwOp.transfer =
      [a, b, c].map .transfer ++ ds.map .transfer := rfl
  have hsent : ((a ++ b ++ c).setWidth 32).toNat = sentAddress a b c := by
    rw [BitVec.toNat_setWidth, sentAddress]
    exact Nat.mod_eq_of_lt (Nat.lt_trans (a ++ b ++ c).isLt (by decide))
  rw [after_endsIn h, fwTransfer_begin h.2 hcom, hsplit, after_append,
    three_bytes hmode rfl rfl]
  exact data_run hmode ⟨rfl, .inl hsent⟩ ds

/-- Behind the command byte the bytes of the address are waited for. -/
theorem addressed_count {earlier ops : List FwOp} {com : BitVec 8} {bytes : List (BitVec 8)}
    (h : EndsIn env mc earlier ops com bytes)
    (hcom : com = fwCmdRead ∨ com = fwCmdPageWrite ∧ (after env mc earlier).writeEnable) :
    (after env mc ops).com = com ∧ (after env mc ops).addrShift.toNat = 3 - bytes.length := by
  rw [after_endsIn h, fwTransfer_begin h.2 hcom]
  obtain ⟨hcom', -, hcount⟩ := @addressed_run env
    { after env mc earlier with addr := 0, addrShift := 3, com } (hcom.imp_right And.left) rfl bytes
  exact ⟨hcom', hcount⟩

theorem status_run {earlier ops : List FwOp} {bytes : List (BitVec 8)}
    (h : EndsIn env mc earlier ops fwCmdReadStatus bytes) :
    (after env mc ops).com = fwCmdReadStatus := by
  have hbegin : ((after env mc earlier).fwTransfer fwCmdReadStatus).2.com = fwCmdReadStatus := by
    rw [fwTransfer_idle _ h.2]
    rfl
  rw [after_endsIn h]
  generalize ((after env mc earlier).fwTransfer fwCmdReadStatus).2 = s at hbegin
  induction bytes using List.reverseRecOn generalizing ops with
  | nil => exact hbegin
  | append_singleton bytes d ih =>
    have hcom := ih ⟨rfl, h.2⟩
    rw [List.map_append, List.map_singleton, after_concat, flashStep, fwTransfer_status d hcom]
    exact hcom

/-! ### The protocol -/

variable (env mc) in
/-- Memory changes by the data bytes of a PAGEWRITE, or at its end, when the settings are saved; what
is read and the latch are as the commands before say. -/
structure FlashProtocol (ops : List FwOp) (op : FwOp) : Prop where
  memory : DataBytesOnly env mc ops op ∨ ∃ earlier bytes userDataAddr,
    EndsInWrite env mc earlier ops bytes ∧ op = .resetCom ∧ mc.isFirmware ∧
      env.common.useExtFirmware ∧ env.common.useExtFirmwareSettings ∧
      env.firmware = some userDataAddr ∧
      (flashStep env (after env mc ops) op).data =
        mirrorSettings (after env mc ops).data userDataAddr.toNat
  written : ∀ earlier a b c ds d, EndsInWrite env mc earlier ops (a :: b :: c :: ds) →
    op = .transfer d → sentAddress a b c + ds.length < mc.size.toNat →
    (flashStep env (after env mc ops) op).data =
      Function.update (after env mc ops).data (sentAddress a b c + ds.length) d
  read : ∀ earlier a b c ds d, EndsIn env mc earlier ops fwCmdRead (a :: b :: c :: ds) →
    ((after env mc ops).fwTransfer d).1 =
      if sentAddress a b c + ds.length < mc.size.toNat then
        (after env mc ops).data (sentAddress a b c + ds.length)
      else d
  status : ∀ earlier bytes d, EndsIn env mc earlier ops fwCmdReadStatus bytes →
    ((after env mc ops).fwTransfer d).1 = if (after env mc ops).writeEnable then 0x02 else 0x00
  latch : (flashStep env (after env mc ops) op).writeEnable ↔
    (op = .transfer fwCmdWriteEnable ∧ (after env mc ops).com = 0 ∧ mc.writeableBuffer) ∨
      ((after env mc ops).writeEnable ∧
        ¬ (op = .transfer fwCmdWriteDisable ∧ (after env mc ops).com = 0) ∧
        ¬ (op = .resetCom ∧ ∃ earlier bytes, EndsInWrite env mc earlier ops bytes))

variable {ops : List FwOp}

/-- A PAGEWRITE is handled exactly when the run ends in one. -/
theorem com_pageWrite_iff (hidle : mc.com = 0) : (after env mc ops).com = fwCmdPageWrite ↔
    ∃ earlier bytes, EndsInWrite env mc earlier ops bytes := by
  constructor
  · intro hcom
    rcases endsIn_of_com hidle ops with h | ⟨-, earlier, bytes, hends, hlatch⟩
    · exact absurd (h.symm.trans hcom) (by decide)
    · rw [hcom] at hends
      exact ⟨earlier, bytes, hends, hlatch hcom⟩
  · rintro ⟨earlier, bytes, hends, hlatch⟩
    exact (addressed_count hends (.inr ⟨rfl, hlatch⟩)).1

theorem transferId_data (s : FwMemoryChip) (d : BitVec 8) :
    (s.transferId d).2.data = s.data ∧ (s.transferId d).2.writeEnable = s.writeEnable := by
  rw [FwMemoryChip.transferId]
  split_ifs <;> exact ⟨rfl, rfl⟩

theorem transferCommand_data (s : FwMemoryChip) (d : BitVec 8) :
    (s.transferCommand d).2.data = s.data := by
  rw [FwMemoryChip.transferCommand]
  split_ifs <;> rfl

/-- Memory is written by a byte only when a PAGEWRITE is handled and its address is there. -/
theorem fwTransfer_data (s : FwMemoryChip) (d : BitVec 8) (h : (s.fwTransfer d).2.data ≠ s.data) :
    s.com = fwCmdPageWrite ∧ s.addrShift = 0 := by
  rw [FwMemoryChip.fwTransfer] at h
  split_ifs at h with hmode
  · rw [FwMemoryChip.transferAddressed] at h
    split_ifs at h with hshift hread hlt hlt
    · exact absurd rfl h
    · exact absurd rfl h
    · exact absurd rfl h
    · refine ⟨hmode.resolve_left hread, ?_⟩
      apply BitVec.eq_of_toNat_eq
      exact Nat.eq_zero_of_not_pos fun hpos => hshift (BitVec.lt_def.2 hpos)
    · exact absurd rfl h
  · exact absurd (transferId_data s d).1 h
  · exact absurd rfl h
  · exact absurd rfl h
  · exact absurd (transferCommand_data s d) h

theorem fwResetCom_data (s : FwMemoryChip) (h : (s.fwResetCom env).data ≠ s.data) :
    s.com = fwCmdPageWrite ∧ s.isFirmware ∧ env.common.useExtFirmware ∧
      env.common.useExtFirmwareSettings ∧ ∃ userDataAddr, env.firmware = some userDataAddr ∧
        (s.fwResetCom env).data = mirrorSettings s.data userDataAddr.toNat := by
  rw [FwMemoryChip.fwResetCom] at h ⊢
  split_ifs at h ⊢ with hcom
  · have hguard : (s.isFirmware && env.common.useExtFirmware && env.common.useExtFirmwareSettings) =
        true := by
      by_contra hguard
      have hsave : s.writeFile.saveUserSettings env = s.writeFile := if_neg hguard
      have hdata : (s.writeFile.saveUserSettings env).data = s.data := by
        rw [hsave]
        rfl
      exact h hdata
    have hflags := hguard
    rw [Bool.and_eq_true, Bool.and_eq_true] at hflags
    obtain ⟨⟨hfirmware, hext⟩, hsettings⟩ := hflags
    have hsave : s.writeFile.saveUserSettings env = match env.firmware with
        | some userDataAddr => (saveSettings env.common userDataAddr s.writeFile).2
        | none => s.writeFile := if_pos hguard
    cases haddr : env.firmware with
    | none =>
      rw [haddr] at hsave
      exact absurd (congrArg FwMemoryChip.data hsave) h
    | some userDataAddr =>
      rw [haddr] at hsave
      refine ⟨hcom, hfirmware, hext, hsettings, userDataAddr, rfl, ?_⟩
      have hdata : (saveSettings env.common userDataAddr s.writeFile).2.data =
          mirrorSettings s.data userDataAddr.toNat := by
        simp only [saveSettings, hext, hsettings]
        rfl
      exact (congrArg FwMemoryChip.data hsave).trans hdata
  · exact absurd rfl h

theorem transferCommand_latch (s : FwMemoryChip) (d : BitVec 8) :
    (s.transferCommand d).2.writeEnable ↔
      (d = fwCmdWriteEnable ∧ s.writeableBuffer) ∨ (s.writeEnable ∧ d ≠ fwCmdWriteDisable) := by
  rw [FwMemoryChip.transferCommand]
  split_ifs with hid hread henable hdisable hwrite hlatch hstatus
  · subst hid
    simp [fwCmdReadId, fwCmdWriteEnable, fwCmdWriteDisable]
  · subst hread
    simp [fwCmdRead, fwCmdWriteEnable, fwCmdWriteDisable]
  · subst henable
    simp [fwCmdWriteEnable, fwCmdWriteDisable]
  · subst hdisable
    simp [fwCmdWriteEnable, fwCmdWriteDisable]
  · subst hwrite
    simp [fwCmdPageWrite, fwCmdWriteEnable, fwCmdWriteDisable]
  · subst hwrite
    simp [fwCmdPageWrite, fwCmdWriteEnable, fwCmdWriteDisable]
  · subst hstatus
    simp [fwCmdReadStatus, fwCmdWriteEnable, fwCmdWriteDisable]
  · simp [henable, hdisable]

theorem fwTransfer_latch {s : FwMemoryChip} (h : Handled s.com) (d : BitVec 8) :
    (s.fwTransfer d).2.writeEnable = s.writeEnable := by
  rcases h with h | h | h
  · rw [fwTransfer_addressed d h]
    exact (transferAddressed_same d).2.1
  · rw [fwTransfer_id d h]
    exact (transferId_data s d).2
  · rw [fwTransfer_status d h]

/-- What a step does to the latch. -/
theorem flashStep_latch {s : FwMemoryChip} (h : s.com = 0 ∨ Handled s.com) (op : FwOp) :
    (flashStep env s op).writeEnable ↔
      (op = .transfer fwCmdWriteEnable ∧ s.com = 0 ∧ s.writeableBuffer) ∨
        (s.writeEnable ∧ ¬ (op = .transfer fwCmdWriteDisable ∧ s.com = 0) ∧
          ¬ (op = .resetCom ∧ s.com = fwCmdPageWrite)) := by
  cases op with
  | transfer d =>
    rw [flashStep]
    rcases h with hcom | hcom
    · rw [fwTransfer_idle d hcom, transferCommand_latch]
      simp [hcom]
    · have hzero : s.com ≠ 0#8 := by
        intro hzero
        rw [hzero] at hcom
        exact absurd hcom (by unfold Handled; decide)
      rw [fwTransfer_latch hcom]
      simp [hzero]
  | resetCom =>
    rw [flashStep, FwMemoryChip.fwResetCom]
    split_ifs with hcom <;> simp [hcom]

/-- The chip keeps the protocol from any state in which no command is handled. -/
theorem flash_protocol (env : FirmwareEnv) {mc : FwMemoryChip} (hidle : mc.com = 0)
    (ops : List FwOp) (op : FwOp) : FlashProtocol env mc ops op := by
  obtain ⟨hsize, hbuffer, hfirmware⟩ := @after_same env mc ops
  have hwritten {earlier : List FwOp} {a b c : BitVec 8} {ds : List (BitVec 8)} {d : BitVec 8}
      (hends : EndsInWrite env mc earlier ops (a :: b :: c :: ds)) :
      (flashStep env (after env mc ops) (.transfer d)).data =
        if sentAddress a b c + ds.length < mc.size.toNat then
          Function.update (after env mc ops).data (sentAddress a b c + ds.length) d
        else (after env mc ops).data := by
    obtain ⟨hcom, hplace⟩ := at_place hends.1 (.inr ⟨rfl, hends.2⟩)
    rw [flashStep_addressed (.inr hcom), transferAddressed_write hcom hplace, hsize]
    split_ifs <;> rfl
  refine ⟨?_, ?_, ?_, ?_, ?_⟩
  · by_cases hsame : (flashStep env (after env mc ops) op).data = (after env mc ops).data
    · exact .inl (.inl hsame)
    cases op with
    | transfer d =>
      obtain ⟨hcom, hshift⟩ := fwTransfer_data _ d hsame
      obtain ⟨earlier, bytes, hends⟩ := (com_pageWrite_iff hidle).1 hcom
      have hcount := (addressed_count hends.1 (.inr ⟨rfl, hends.2⟩)).2
      rw [hshift] at hcount
      obtain ⟨a, b, c, ds, rfl⟩ : ∃ a b c ds, bytes = a :: b :: c :: ds := by
        match bytes, hcount with
        | a :: b :: c :: ds, _ => exact ⟨a, b, c, ds, rfl⟩
      have hdata := hwritten (d := d) hends
      by_cases hlt : sentAddress a b c + ds.length < mc.size.toNat
      · rw [if_pos hlt] at hdata
        exact .inl (.inr ⟨earlier, a, b, c, ds, d, hends, rfl, hlt, hdata⟩)
      · rw [if_neg hlt] at hdata
        exact absurd hdata hsame
    | resetCom =>
      obtain ⟨hcom, hfw, hext, hsettings, userDataAddr, haddr, hdata⟩ := fwResetCom_data _ hsame
      obtain ⟨earlier, bytes, hends⟩ := (com_pageWrite_iff hidle).1 hcom
      exact .inr ⟨earlier, bytes, userDataAddr, hends, rfl, hfirmware ▸ hfw, hext, hsettings, haddr,
        hdata⟩
  · rintro earlier a b c ds d hends rfl hlt
    rw [hwritten hends, if_pos hlt]
  · intro earlier a b c ds d hends
    obtain ⟨hcom, hplace⟩ := at_place hends (.inl rfl)
    rw [fwTransfer_addressed d (.inl hcom), transferAddressed_read hcom hplace, hsize]
    split_ifs <;> rfl
  · intro earlier bytes d hends
    rw [fwTransfer_status d (status_run hends)]
  · rw [flashStep_latch ((endsIn_of_com hidle ops).imp_right And.left), hbuffer,
      com_pageWrite_iff hidle]

/-- A firmware chip with something in the first copy of the settings. -/
def savingChip : FwMemoryChip where
  com := 0
  addr := 0
  addrShift := 0
  writeEnable := false
  data := fun a => if a = 0x3FE00 then 5 else 0
  size := 0x40000
  writeableBuffer := true
  fp := none
  isFirmware := true
  userfile := []

def savingEnv : FirmwareEnv := ⟨⟨true, true⟩, some 0x3FE00⟩

theorem savingChip_protocol : FlashProtocol savingEnv savingChip
    [.transfer fwCmdWriteEnable, .transfer fwCmdPageWrite] .resetCom :=
  flash_protocol savingEnv rfl _ _

/-- A PAGEWRITE that ends before its address changes the second copy. -/
theorem saving_without_data : ¬ DataBytesOnly savingEnv savingChip
    [.transfer fwCmdWriteEnable, .transfer fwCmdPageWrite] .resetCom := by
  rintro (h | ⟨_, _, _, _, _, _, _, hop, -⟩)
  · have hcell := congrFun h 0x3FF00
    revert hcell
    decide +kernel
  · cases hop

end History

end Desmume.Firmware
