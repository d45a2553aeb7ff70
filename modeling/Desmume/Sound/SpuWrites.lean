import Desmume.Sound.SpuReads

/-! Writes of the sound registers at the three widths: where a wider write is the writes of its
halves, and when an access is the accesses of its halves. -/

namespace Desmume.Sound
open Library

variable {φ : Type} (env : SpuEnv φ)

namespace ChannelStruct

/-- A halfword write to a channel is the two byte writes. -/
theorem writeWord_append (c : ChannelStruct φ) (masteren : BitVec 8) {reg : ℕ} (h : 2 ∣ reg)
    (hlt : reg < 16) (hi low : BitVec 8) :
    c.writeWord env masteren reg (hi ++ low) =
      (c.writeByte env masteren reg low).writeByte env masteren (reg + 1) hi := by
  have hvol : ∀ x : BitVec 8, x &&& 0x7F = bits x 0 7 := fun x => and_lowOnes x 7
  rcases even_reg h hlt with rfl | rfl | rfl | rfl | rfl | rfl | rfl | rfl
  · simp only [writeWord, writeByte, bits_append_low hi low (show 0 + 7 ≤ 8 by decide),
      bits_append_high hi low 0 2, bits_append_high hi low 7 1, hvol]
  · simp only [writeWord, writeByte, bits_append_low hi low (show 0 + 7 ≤ 8 by decide),
      bits_append_high hi low 0 3, bits_append_high hi low 3 2, bits_append_high hi low 5 2,
      bits_append_high hi low 7 1, hvol]
  · have haddr : patch c.addr 0 ((hi ++ low) &&& 0xFFFC) =
        patch (patch c.addr 0 (low &&& 0xFC)) 8 hi := by
      rw [patch_append_and c.addr 0 (a := 0xFF#8) (b := 0xFC#8) (by decide)]
      exact congrArg (patch _ 8) BitVec.and_allOnes
    exact congrArg (fun addr => { c with addr := addr }) haddr
  · have haddr : patch c.addr 16 ((hi ++ low) &&& 0x07FF) =
        patch (patch c.addr 16 low) 24 (hi &&& 0x07) := by
      rw [patch_append_and c.addr 16 (a := 0x07#8) (b := 0xFF#8) (by decide)]
      exact congrArg (fun y => patch (patch c.addr 16 y) 24 (hi &&& 0x07)) BitVec.and_allOnes
    exact congrArg (fun addr => { c with addr := addr }) haddr
  · have htimer := patch_patch_all c.timer hi low
    exact congrArg (fun timer => adjustChannelTimer env { c with timer := timer }) htimer.symm
  · have hloop := patch_patch_all c.loopstart hi low
    exact congrArg (fun loopstart => { c with loopstart := loopstart }) hloop.symm
  · have hlength := patch_append c.length 0 hi low
    exact congrArg (fun length => { c with length := length }) hlength
  · have hlength : patch c.length 16 ((hi ++ low) &&& 0x003F) =
        patch (patch c.length 16 (low &&& 0x3F)) 24 (0 : BitVec 8) := by
      rw [patch_append_and c.length 16 (a := 0x00#8) (b := 0x3F#8) (by decide), BitVec.and_zero]
      rfl
    exact congrArg (fun length => { c with length := length }) hlength

/-- A word write to a channel is the two halfword writes. -/
theorem writeLong_append (c : ChannelStruct φ) (masteren : BitVec 8) {reg : ℕ} (h : 4 ∣ reg)
    (hlt : reg < 16) (hi low : BitVec 16) :
    c.writeLong env masteren reg (hi ++ low) =
      (c.writeWord env masteren reg low).writeWord env masteren (reg + 2) hi := by
  rcases quad_reg h hlt with rfl | rfl | rfl | rfl
  · simp only [writeLong, writeWord, bits_append_low hi low (show 0 + 7 ≤ 16 by decide),
      bits_append_low hi low (show 8 + 2 ≤ 16 by decide),
      bits_append_low hi low (show 15 + 1 ≤ 16 by decide), bits_append_high hi low 0 7,
      bits_append_high hi low 8 3, bits_append_high hi low 11 2, bits_append_high hi low 13 2,
      bits_append_high hi low 15 1]
  · have haddr : (hi ++ low) &&& 0x07FFFFFC =
        patch (patch c.addr 0 (low &&& 0xFFFC)) 16 (hi &&& 0x07FF) := by
      have hpatch :=
        patch_patch_all (m := 16) (n := 16) c.addr (hi &&& 0x07FF) (low &&& 0xFFFC)
      have hmask := append_and (a := 0x07FF#16) (b := 0xFFFC#16)
        (show 0x07FFFFFC#32 = 0x07FF#16 ++ 0xFFFC#16 by decide) hi low
      exact hmask.trans hpatch.symm
    exact congrArg (fun addr => { c with addr := addr }) haddr
  · have hlow : (hi ++ low).setWidth 16 = low := BitVec.setWidth_append_eq_right
    have hhi : ((hi ++ low) >>> 16).setWidth 16 = hi := ushiftRight_append hi low
    simp only [writeLong, writeWord, hlow, hhi]
    rfl
  · have hlength : (hi ++ low) &&& 0x003FFFFF =
        patch (patch c.length 0 low) 16 (hi &&& 0x003F) := by
      have hpatch := patch_patch_all (m := 16) (n := 16) c.length (hi &&& 0x003F) low
      have hmask := append_and (a := 0x003F#16) (b := 0xFFFF#16)
        (show 0x003FFFFF#32 = 0x003F#16 ++ 0xFFFF#16 by decide) hi low
      have hlow : low &&& 0xFFFF#16 = low := BitVec.and_allOnes
      rw [hlow] at hmask
      exact hmask.trans hpatch.symm
    exact congrArg (fun length => { c with length := length }) hlength

end ChannelStruct

section Captures

variable {w m n : ℕ}

theorem Cap.writeControl_append_low (k : Cap φ) (hi : BitVec m) (low : BitVec n) {lo : ℕ}
    (h : lo + 8 ≤ n) : k.writeControl env (hi ++ low) lo = k.writeControl env low lo := by
  simp only [Cap.writeControl, bits_append_low hi low (show lo + 1 ≤ n by omega),
    bits_append_low hi low (show lo + 1 + 1 ≤ n by omega),
    bits_append_low hi low (show lo + 2 + 1 ≤ n by omega),
    bits_append_low hi low (show lo + 3 + 1 ≤ n by omega),
    bits_append_low hi low (show lo + 7 + 1 ≤ n by omega)]

theorem Cap.writeControl_append_high (k : Cap φ) (hi : BitVec m) (low : BitVec n) (lo : ℕ) :
    k.writeControl env (hi ++ low) (n + lo) = k.writeControl env hi lo := by
  simp only [Cap.writeControl, Nat.add_assoc, bits_append_high]

/-- `ProbeCapture` has nothing to do. -/
structure Cap.Probed (k : Cap φ) : Prop where
  idle : k.active = 0 → k.running = 0
  started : k.active ≠ 0 → k.running = 1 ∧ k.curdad = k.dad ∧
    k.maxdad = k.dad + (if k.len = 0 then 1 else k.len.setWidth 32) * 4 ∧
    k.sampcnt = env.ofInt 0 ∧ k.fifo.head = 0 ∧ k.fifo.tail = 0 ∧ k.fifo.size = 0

/-- The capture as a write of these control bits leaves it. -/
structure Cap.Holds (k : Cap φ) (val : BitVec w) (lo : ℕ) : Prop where
  add : k.add = bits val lo 1
  source : k.source = bits val (lo + 1) 1
  oneshot : k.oneshot = bits val (lo + 2) 1
  bits8 : k.bits8 = bits val (lo + 3) 1
  active : k.active = bits val (lo + 7) 1
  probed : k.Probed env

theorem Cap.probeCapture_eq_self_iff (k : Cap φ) : k.probeCapture env = k ↔ k.Probed env := by
  rw [Cap.probeCapture]
  by_cases hactive : k.active = 0
  · rw [if_pos hactive]
    constructor
    · intro h
      have hrunning := congrArg Cap.running h
      exact ⟨fun _ => hrunning.symm, fun hne => absurd hactive hne⟩
    · intro h
      rw [← h.idle hactive]
  · rw [if_neg hactive]
    constructor
    · intro h
      refine ⟨fun hzero => absurd hzero hactive, fun _ => ?_⟩
      have hrunning := congrArg Cap.running h
      have hcurdad := congrArg Cap.curdad h
      have hmaxdad := congrArg Cap.maxdad h
      have hsampcnt := congrArg Cap.sampcnt h
      have hhead := congrArg (fun l => l.fifo.head) h
      have htail := congrArg (fun l => l.fifo.tail) h
      have hsize := congrArg (fun l => l.fifo.size) h
      exact ⟨hrunning.symm, hcurdad.symm, hmaxdad.symm, hsampcnt.symm, hhead.symm, htail.symm,
        hsize.symm⟩
    · intro h
      obtain ⟨hrunning, hcurdad, hmaxdad, hsampcnt, hhead, htail, hsize⟩ := h.started hactive
      have hfifo : { k.fifo with head := 0, tail := 0, size := 0 } = k.fifo :=
        SpuFifo.ext rfl hhead.symm htail.symm hsize.symm
      exact Cap.ext rfl rfl rfl rfl rfl rfl rfl hrunning.symm hcurdad.symm hmaxdad.symm
        hsampcnt.symm hfifo

theorem Cap.writeControl_eq_self_iff (k : Cap φ) (val : BitVec w) (lo : ℕ) :
    k.writeControl env val lo = k ↔ k.Holds env val lo := by
  have hkeep : ∀ l : Cap φ, (l.probeCapture env).add = l.add ∧
      (l.probeCapture env).source = l.source ∧ (l.probeCapture env).oneshot = l.oneshot ∧
      (l.probeCapture env).bits8 = l.bits8 ∧ (l.probeCapture env).active = l.active := by
    intro l
    rw [Cap.probeCapture]
    split <;> exact ⟨rfl, rfl, rfl, rfl, rfl⟩
  constructor
  · intro h
    obtain ⟨hadd, hsource, honeshot, hbits8, hactive⟩ := hkeep
      { k with
        add := bits val lo 1
        source := bits val (lo + 1) 1
        oneshot := bits val (lo + 2) 1
        bits8 := bits val (lo + 3) 1
        active := bits val (lo + 7) 1 }
    rw [← Cap.writeControl, h] at hadd hsource honeshot hbits8 hactive
    dsimp only at hadd hsource honeshot hbits8 hactive
    refine ⟨hadd, hsource, honeshot, hbits8, hactive, ?_⟩
    rw [Cap.writeControl, ← hadd, ← hsource, ← honeshot, ← hbits8, ← hactive] at h
    exact (k.probeCapture_eq_self_iff env).mp h
  · intro h
    rw [Cap.writeControl, ← h.add, ← h.source, ← h.oneshot, ← h.bits8, ← h.active]
    exact (k.probeCapture_eq_self_iff env).mpr h.probed

end Captures

namespace SpuStruct

variable (s : SpuStruct φ) {m n : ℕ}

theorem writeMaster_append_low (hi : BitVec m) (low : BitVec n) {lo : ℕ} (h : lo + 8 ≤ n) :
    s.writeMaster env (hi ++ low) lo = s.writeMaster env low lo := by
  simp only [writeMaster, bits_append_low hi low (show lo + 2 ≤ n by omega),
    bits_append_low hi low (show lo + 2 + 2 ≤ n by omega),
    bits_append_low hi low (show lo + 4 + 1 ≤ n by omega),
    bits_append_low hi low (show lo + 5 + 1 ≤ n by omega),
    bits_append_low hi low (show lo + 7 + 1 ≤ n by omega)]

theorem writeMaster_append_high (hi : BitVec m) (low : BitVec n) (lo : ℕ) :
    s.writeMaster env (hi ++ low) (n + lo) = s.writeMaster env hi lo := by
  simp only [writeMaster, Nat.add_assoc, bits_append_high]

theorem writeCaptures_append_low (hi : BitVec m) (low : BitVec n) (h : 16 ≤ n) :
    s.writeCaptures env (hi ++ low) = s.writeCaptures env low := by
  simp only [writeCaptures, Cap.writeControl_append_low env _ hi low (show 0 + 8 ≤ n by omega),
    Cap.writeControl_append_low env _ hi low (show 8 + 8 ≤ n by omega)]

@[simp] theorem setDad_setDad (which : Fin 2) (x y : BitVec 32) :
    (s.setDad which x).setDad which y = s.setDad which y := by
  simp only [setDad, setCap_cap_self, setCap_setCap]

@[simp] theorem setDad_dad (which : Fin 2) (x : BitVec 32) :
    ((s.setDad which x).cap which).dad = x := by
  rw [setDad, setCap_cap_self]

theorem setDad_inj (which : Fin 2) {x y : BitVec 32} :
    s.setDad which x = s.setDad which y ↔ x = y := by
  constructor
  · intro h
    rw [← s.setDad_dad which x, h, setDad_dad]
  · rintro rfl
    rfl

@[simp] theorem setLen_setLen (which : Fin 2) (x y : BitVec 16) :
    (s.setLen which x).setLen which y = s.setLen which y := by
  simp only [setLen, setCap_cap_self, setCap_setCap]

@[simp] theorem setLen_len (which : Fin 2) (x : BitVec 16) :
    ((s.setLen which x).cap which).len = x := by
  rw [setLen, setCap_cap_self]

section Channels

variable {addr : ℕ}

theorem writeByte_channel (h : isChannel addr) (val : BitVec 8) :
    s.writeByte env addr val = s.setChannel (chanNum addr)
      ((s.channels (chanNum addr)).writeByte env s.masteren (addr &&& 0xF) val) := if_pos h

theorem writeWord_channel (h : isChannel addr) (val : BitVec 16) :
    s.writeWord env addr val = s.setChannel (chanNum addr)
      ((s.channels (chanNum addr)).writeWord env s.masteren (addr &&& 0xF) val) := if_pos h

theorem writeLong_channel (h : isChannel addr) (val : BitVec 32) :
    s.writeLong env addr val = s.setChannel (chanNum addr)
      ((s.channels (chanNum addr)).writeLong env s.masteren (addr &&& 0xF) val) := if_pos h

theorem writeWord_channel_append (hch : isChannel addr) (h : 2 ∣ addr) (hi low : BitVec 8) :
    s.writeWord env addr (hi ++ low) = (s.writeByte env addr low).writeByte env (addr + 1) hi := by
  have hblock : (addr + 1) / 16 = addr / 16 := by omega
  have hch' := (isChannel_add hblock).mpr hch
  have hreg := reg_eq addr
  rw [writeWord_channel env s hch, writeByte_channel env _ hch', writeByte_channel env s hch,
    chanNum_add hblock, reg_add hblock, setChannel_channels_self, setChannel_masteren,
    setChannel_setChannel, ChannelStruct.writeWord_append env _ _ (by omega) (by omega)]

theorem writeLong_channel_append (hch : isChannel addr) (h : 4 ∣ addr) (hi low : BitVec 16) :
    s.writeLong env addr (hi ++ low) = (s.writeWord env addr low).writeWord env (addr + 2) hi := by
  have hblock : (addr + 2) / 16 = addr / 16 := by omega
  have hch' := (isChannel_add hblock).mpr hch
  have hreg := reg_eq addr
  rw [writeLong_channel env s hch, writeWord_channel env _ hch', writeWord_channel env s hch,
    chanNum_add hblock, reg_add hblock, setChannel_channels_self, setChannel_masteren,
    setChannel_setChannel, ChannelStruct.writeLong_append env _ _ (by omega) (by omega)]

end Channels

section Others

variable {addr : ℕ}

theorem writeByte_outside (h : ¬ isChannel addr) (hout : addr < 0x500 ∨ 0x51E ≤ addr)
    (val : BitVec 8) : s.writeByte env addr val = s := by
  unfold writeByte
  rw [if_neg h]
  split <;> first | rfl | omega

theorem writeWord_outside (h : ¬ isChannel addr) (hout : addr < 0x500 ∨ 0x51E ≤ addr)
    (val : BitVec 16) : s.writeWord env addr val = s := by
  unfold writeWord
  rw [if_neg h]
  split <;> first | rfl | omega

theorem writeLong_outside (h : ¬ isChannel addr) (hout : addr < 0x500 ∨ 0x51E ≤ addr)
    (val : BitVec 32) : s.writeLong env addr val = s := by
  unfold writeLong
  rw [if_neg h]
  split <;> first | rfl | omega

theorem setDad_low (which : Fin 2) (hi low : BitVec 8) :
    s.setDad which (patch (s.cap which).dad 0 ((hi ++ low) &&& 0xFFFC)) =
      (s.setDad which (patch (s.cap which).dad 0 (low &&& 0xFC))).setDad which
        (patch ((s.setDad which (patch (s.cap which).dad 0 (low &&& 0xFC))).cap which).dad 8 hi) := by
  rw [setDad_dad, setDad_setDad, patch_append_and _ 0 (a := 0xFF#8) (b := 0xFC#8) (by decide)]
  exact congrArg (fun y => s.setDad which (patch _ 8 y)) BitVec.and_allOnes

/-- The halfword write keeps more bits of the upper byte than the byte write. -/
theorem setDad_high_iff (which : Fin 2) (hi low : BitVec 8) :
    s.setDad which (patch (s.cap which).dad 16 ((hi ++ low) &&& 0x7FFF)) =
      (s.setDad which (patch (s.cap which).dad 16 low)).setDad which
        (patch ((s.setDad which (patch (s.cap which).dad 16 low)).cap which).dad 24 (hi &&& 0x07)) ↔
      hi &&& 0x78 = 0#8 := by
  have hlow : low &&& 0xFF#8 = low := BitVec.and_allOnes
  rw [setDad_dad, setDad_setDad, setDad_inj,
    patch_append_and _ 16 (a := 0x7F#8) (b := 0xFF#8) (by decide), hlow,
    patch_inj (by decide), and_eq_and_iff]
  rfl

theorem setDad_whole_iff (which : Fin 2) (hi low : BitVec 16) :
    s.setDad which ((hi ++ low) &&& 0x07FFFFFC) =
      (s.setDad which (patch (s.cap which).dad 0 (low &&& 0xFFFC))).setDad which
        (patch ((s.setDad which (patch (s.cap which).dad 0 (low &&& 0xFFFC))).cap which).dad 16
          (hi &&& 0x7FFF)) ↔
      hi &&& 0x7800 = 0#16 := by
  have hmask := append_and (a := 0x07FF#16) (b := 0xFFFC#16)
    (show 0x07FFFFFC#32 = 0x07FF#16 ++ 0xFFFC#16 by decide) hi low
  have hpatch := patch_patch_all (m := 16) (n := 16) (s.cap which).dad (hi &&& 0x7FFF#16)
    (low &&& 0xFFFC#16)
  rw [setDad_dad, setDad_setDad, setDad_inj]
  refine (Eq.congr hmask hpatch).trans ((append_inj_left _).trans ?_)
  rw [and_eq_and_iff]
  rfl

theorem setLen_append (which : Fin 2) (hi low : BitVec 8) :
    s.setLen which (hi ++ low) =
      (s.setLen which (patch (s.cap which).len 0 low)).setLen which
        (patch ((s.setLen which (patch (s.cap which).len 0 low)).cap which).len 8 hi) := by
  have hpatch := patch_patch_all (m := 8) (n := 8) (s.cap which).len hi low
  rw [setLen_len, setLen_setLen]
  exact congrArg (s.setLen which) hpatch.symm

theorem setCap_cap (which : Fin 2) : s.setCap which (s.cap which) = s := by
  simp only [setCap, Function.update_eq_self]

theorem writeCaptures_eq_self_iff {w : ℕ} (val : BitVec w) :
    s.writeCaptures env val = s ↔ (s.cap 0).Holds env val 0 ∧ (s.cap 1).Holds env val 8 := by
  have hone : (1 : Fin 2) ≠ 0 := by decide
  rw [← Cap.writeControl_eq_self_iff, ← Cap.writeControl_eq_self_iff, writeCaptures]
  constructor
  · intro h
    constructor
    · have hzero := congrFun (congrArg SpuStruct.cap h) 0
      rwa [setCap_cap_of_ne _ hone.symm, setCap_cap_self] at hzero
    · have hcap := congrFun (congrArg SpuStruct.cap h) 1
      rwa [setCap_cap_self, setCap_cap_of_ne _ hone] at hcap
  · rintro ⟨hzero, hcap⟩
    rw [hzero, setCap_cap, hcap, setCap_cap]

theorem writeWord_common_iff (h : 2 ∣ addr) (hlo : 0x500 ≤ addr) (hhi : addr < 0x51E)
    (hi low : BitVec 8) :
    s.writeWord env addr (hi ++ low) =
      (s.writeByte env addr low).writeByte env (addr + 1) hi ↔
      (addr = 0x512 ∨ addr = 0x51A → hi &&& 0x78 = 0#8) := by
  rcases even_common h hlo hhi with rfl | rfl | rfl | rfl | rfl | rfl | rfl | rfl | rfl | hzero
  · refine iff_of_true ?_ (fun hor => absurd hor (by decide))
    have hword : s.writeWord env 0x500 (hi ++ low) =
        { s with mastervol := bits (hi ++ low) 0 7 }.writeMaster env (hi ++ low) 8 := rfl
    have hvol : low &&& 0x7F = bits low 0 7 := and_lowOnes low 7
    rw [hword, writeMaster_append_high env _ hi low 0,
      bits_append_low hi low (show 0 + 7 ≤ 8 by decide), ← hvol]
    rfl
  · refine iff_of_true ?_ (fun hor => absurd hor (by decide))
    have hmask := append_and (a := 0x03#8) (b := 0xFF#8)
      (show 0x3FF#16 = 0x03#8 ++ 0xFF#8 by decide) hi low
    have hlow : low &&& 0xFF#8 = low := BitVec.and_allOnes
    have hpatch := patch_patch_all (m := 8) (n := 8) s.soundbias (hi &&& 0x03#8) low
    rw [hlow, ← hpatch] at hmask
    exact congrArg (fun soundbias => { s with soundbias := soundbias }) hmask
  · refine iff_of_true ?_ (fun hor => absurd hor (by decide))
    have hword : s.writeWord env 0x508 (hi ++ low) = s.writeCaptures env (hi ++ low) := rfl
    rw [hword, writeCaptures, Cap.writeControl_append_low env _ hi low (by decide),
      Cap.writeControl_append_high env _ hi low 0]
    rfl
  · exact iff_of_true (s.setDad_low 0 hi low) (fun hor => absurd hor (by decide))
  · exact (s.setDad_high_iff 0 hi low).trans ⟨fun h _ => h, fun h => h (Or.inl rfl)⟩
  · exact iff_of_true (s.setLen_append 0 hi low) (fun hor => absurd hor (by decide))
  · exact iff_of_true (s.setDad_low 1 hi low) (fun hor => absurd hor (by decide))
  · exact (s.setDad_high_iff 1 hi low).trans ⟨fun h _ => h, fun h => h (Or.inr rfl)⟩
  · exact iff_of_true (s.setLen_append 1 hi low) (fun hor => absurd hor (by decide))
  · rcases hzero with rfl | rfl | rfl | rfl | rfl | rfl <;>
      exact iff_of_true rfl (fun hor => absurd hor (by decide))

theorem writeLong_common_iff (h : 4 ∣ addr) (hlo : 0x500 ≤ addr) (hhi : addr < 0x51E)
    (hi low : BitVec 16) :
    s.writeLong env addr (hi ++ low) =
      (s.writeWord env addr low).writeWord env (addr + 2) hi ↔
      (addr = 0x504 → (s.cap 0).Holds env (hi ++ low) 0 ∧ (s.cap 1).Holds env (hi ++ low) 8) ∧
        (addr = 0x510 ∨ addr = 0x518 → hi &&& 0x7800 = 0#16) := by
  have hlow : (hi ++ low).setWidth 16 = low := BitVec.setWidth_append_eq_right
  have hlen : ∀ which : Fin 2,
      s.setLen which ((hi ++ low).setWidth 16) = s.setLen which low := by
    intro which
    rw [hlow]
  rcases quad_common h hlo hhi with rfl | rfl | rfl | rfl | rfl | rfl | rfl | rfl
  · refine iff_of_true ?_
      ⟨fun heq => absurd heq (by decide), fun hor => absurd hor (by decide)⟩
    have hlong : s.writeLong env 0x500 (hi ++ low) =
        { s with mastervol := bits (hi ++ low) 0 7 }.writeMaster env (hi ++ low) 8 := rfl
    rw [hlong, writeMaster_append_low env _ hi low (by decide),
      bits_append_low hi low (show 0 + 7 ≤ 16 by decide)]
    rfl
  · have hlong : s.writeLong env 0x504 (hi ++ low) =
        { s with soundbias := (hi ++ low).setWidth 16 &&& 0x3FF }.writeCaptures env (hi ++ low) :=
      rfl
    have hwords : (s.writeWord env 0x504 low).writeWord env (0x504 + 2) hi =
        { s with soundbias := low &&& 0x3FF } := rfl
    rw [hlong, hwords, hlow, writeCaptures_eq_self_iff]
    constructor
    · intro hholds
      exact ⟨fun _ => hholds, fun hor => absurd hor (by decide)⟩
    · intro hholds
      exact hholds.1 rfl
  · refine iff_of_true ?_
      ⟨fun heq => absurd heq (by decide), fun hor => absurd hor (by decide)⟩
    exact s.writeCaptures_append_low env hi low (by decide)
  · refine (s.setDad_whole_iff 0 hi low).trans ?_
    exact ⟨fun h => ⟨fun heq => absurd heq (by decide), fun _ => h⟩, fun h => h.2 (Or.inl rfl)⟩
  · exact iff_of_true (hlen 0)
      ⟨fun heq => absurd heq (by decide), fun hor => absurd hor (by decide)⟩
  · refine (s.setDad_whole_iff 1 hi low).trans ?_
    exact ⟨fun h => ⟨fun heq => absurd heq (by decide), fun _ => h⟩, fun h => h.2 (Or.inr rfl)⟩
  · exact iff_of_true (hlen 1)
      ⟨fun heq => absurd heq (by decide), fun hor => absurd hor (by decide)⟩
  · exact iff_of_true rfl
      ⟨fun heq => absurd heq (by decide), fun hor => absurd hor (by decide)⟩

end Others

end SpuStruct

/-! ### Accesses and their halves -/

section Widths

variable {φ : Type} (env : SpuEnv φ)

namespace SpuStruct

/-- Every aligned access is the two accesses of half its width, the lower address first. -/
structure WidthsAgree (s : SpuStruct φ) (addr : ℕ) (half : BitVec 16) (val : BitVec 32) : Prop where
  readWord : 2 ∣ addr →
    s.readWord addr = (s.readByte addr).setWidth 16 ||| (s.readByte (addr + 1)).setWidth 16 <<< 8
  readLong : 4 ∣ addr →
    s.readLong addr = (s.readWord addr).setWidth 32 ||| (s.readWord (addr + 2)).setWidth 32 <<< 16
  writeWord : 2 ∣ addr →
    s.writeWord env addr half =
      (s.writeByte env addr (half.setWidth 8)).writeByte env (addr + 1) ((half >>> 8).setWidth 8)
  writeLong : 4 ∣ addr →
    s.writeLong env addr val =
      (s.writeWord env addr (val.setWidth 16)).writeWord env (addr + 2) ((val >>> 16).setWidth 16)

/-- A halfword for the upper half of a capture address has no bit that only its width keeps. -/
def WordAgrees (addr : ℕ) (half : BitVec 16) : Prop :=
  addr = 0x512 ∨ addr = 0x51A → half &&& 0x7800 = 0

/-- A word for `SOUNDBIAS` finds the captures as it would leave them, and a word for a capture
address has no bit that only the narrower writes keep. -/
def LongAgrees (s : SpuStruct φ) (addr : ℕ) (val : BitVec 32) : Prop :=
  (addr = 0x504 → (s.cap 0).Holds env val 0 ∧ (s.cap 1).Holds env val 8) ∧
    (addr = 0x510 ∨ addr = 0x518 → val &&& 0x78000000 = 0)

variable {s : SpuStruct φ} {addr : ℕ}

theorem upper_clear_iff {m n : ℕ} {a : BitVec m} {mask : BitVec (m + n)} (h : mask = a ++ 0#n)
    (hi : BitVec m) (low : BitVec n) : (hi ++ low) &&& mask = 0#(m + n) ↔ hi &&& a = 0#m := by
  have hzero : (0#m ++ 0#n) = 0#(m + n) := BitVec.zero_append_zero
  rw [append_and h, BitVec.and_zero, ← hzero, append_inj_left]

theorem writeWord_iff (h : 2 ∣ addr) (half : BitVec 16) :
    s.writeWord env addr half =
      (s.writeByte env addr (half.setWidth 8)).writeByte env (addr + 1) ((half >>> 8).setWidth 8) ↔
      WordAgrees addr half := by
  have hhalves := append_halves (n := 8) (m := 8) half
  generalize (half >>> 8).setWidth 8 = hi at hhalves ⊢
  generalize half.setWidth 8 = low at hhalves ⊢
  subst hhalves
  have hclear : (hi ++ low) &&& 0x7800 = 0#16 ↔ hi &&& 0x78#8 = 0#8 :=
    upper_clear_iff (by decide) hi low
  rw [WordAgrees]
  refine Iff.trans ?_ (imp_congr_right fun _ => hclear).symm
  by_cases hch : isChannel addr
  · refine iff_of_true (writeWord_channel_append env s hch h hi low) ?_
    rintro (rfl | rfl) <;> exact absurd hch (by decide)
  · by_cases hin : 0x500 ≤ addr ∧ addr < 0x51E
    · exact writeWord_common_iff env s h hin.1 hin.2 hi low
    · have hch' : ¬ isChannel (addr + 1) := fun h' => hch ((isChannel_add (by omega)).mp h')
      refine iff_of_true ?_ (by omega)
      rw [writeWord_outside env s hch (by omega), writeByte_outside env s hch (by omega),
        writeByte_outside env s hch' (by omega)]

theorem writeLong_iff (h : 4 ∣ addr) (val : BitVec 32) :
    s.writeLong env addr val =
      (s.writeWord env addr (val.setWidth 16)).writeWord env (addr + 2)
        ((val >>> 16).setWidth 16) ↔
      LongAgrees env s addr val := by
  have hhalves := append_halves (n := 16) (m := 16) val
  generalize (val >>> 16).setWidth 16 = hi at hhalves ⊢
  generalize val.setWidth 16 = low at hhalves ⊢
  subst hhalves
  have hclear : (hi ++ low) &&& 0x78000000 = 0#32 ↔ hi &&& 0x7800#16 = 0#16 :=
    upper_clear_iff (by decide) hi low
  rw [LongAgrees]
  refine Iff.trans ?_ (and_congr_right fun _ => imp_congr_right fun _ => hclear).symm
  by_cases hch : isChannel addr
  · refine iff_of_true (writeLong_channel_append env s hch h hi low) ⟨?_, ?_⟩
    · rintro rfl
      exact absurd hch (by decide)
    · rintro (rfl | rfl) <;> exact absurd hch (by decide)
  · by_cases hin : 0x500 ≤ addr ∧ addr < 0x51E
    · exact writeLong_common_iff env s h hin.1 hin.2 hi low
    · have hch' : ¬ isChannel (addr + 2) := fun h' => hch ((isChannel_add (by omega)).mp h')
      refine iff_of_true ?_ ⟨by omega, by omega⟩
      rw [writeLong_outside env s hch (by omega), writeWord_outside env s hch (by omega),
        writeWord_outside env s hch' (by omega)]

/-- The widths agree in every state of the unit but for a word to `SOUNDBIAS`, which runs into the
capture controls, and for capture addresses beyond 27 bits. -/
theorem widthsAgree_iff (hs : Reachable env s) (addr : ℕ) (half : BitVec 16) (val : BitVec 32) :
    s.WidthsAgree env addr half val ↔ WordAgrees addr half ∧ LongAgrees env s addr val := by
  constructor
  · intro h
    constructor
    · intro hor
      exact (writeWord_iff env (by omega) half).mp (h.writeWord (by omega)) hor
    · constructor
      · intro heq
        exact ((writeLong_iff env (by omega) val).mp (h.writeLong (by omega))).1 heq
      · intro hor
        exact ((writeLong_iff env (by omega) val).mp (h.writeLong (by omega))).2 hor
  · rintro ⟨hword, hlong⟩
    exact
      { readWord := readWord_eq_bytes (hs.fieldsFit env)
        readLong := readLong_eq_words (hs.fieldsFit env)
        writeWord := fun h => (writeWord_iff env h half).mpr hword
        writeLong := fun h => (writeLong_iff env h val).mpr hlong }

end SpuStruct

/-- A unit over integers, in a memory of zeros. -/
def zeroEnv : SpuEnv ℤ where
  ofInt x := x
  ofU32 x := x.toNat
  sampinc timer := 0x10000 - timer.toNat
  read08 _ := 0
  read16 _ := 0

theorem widthsAgree_iff_reset :
    (spuReset zeroEnv).WidthsAgree zeroEnv 0x510 0x1234 0x02345678 :=
  (SpuStruct.widthsAgree_iff zeroEnv Reachable.reset 0x510 0x1234 0x02345678).mpr
    ⟨fun hor => absurd hor (by decide), fun heq => absurd heq (by decide), fun _ => by decide⟩

theorem widths_differ :
    Reachable zeroEnv (spuReset zeroEnv) ∧
    (spuReset zeroEnv).writeLong zeroEnv 0x504 0x80 ≠
      ((spuReset zeroEnv).writeWord zeroEnv 0x504 0x80).writeWord zeroEnv 0x506 0 ∧
    (spuReset zeroEnv).writeLong zeroEnv 0x510 0x08000000 ≠
      ((spuReset zeroEnv).writeWord zeroEnv 0x510 0).writeWord zeroEnv 0x512 0x0800 ∧
    (spuReset zeroEnv).writeWord zeroEnv 0x512 0x0800 ≠
      ((spuReset zeroEnv).writeByte zeroEnv 0x512 0).writeByte zeroEnv 0x513 0x08 := by
  refine ⟨Reachable.reset, ?_, ?_, ?_⟩
  · intro h
    exact absurd (congrArg (fun s : SpuStruct ℤ => (s.cap 0).running) h) (by decide)
  · intro h
    exact absurd (congrArg (fun s : SpuStruct ℤ => (s.cap 0).dad) h) (by decide)
  · intro h
    exact absurd (congrArg (fun s : SpuStruct ℤ => (s.cap 0).dad) h) (by decide)

end Widths

end Desmume.Sound
