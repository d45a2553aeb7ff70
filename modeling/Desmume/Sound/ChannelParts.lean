import Desmume.Sound.LoopPoints

/-! The parts of a channel: its decoder, what the registers share with the mixer, and what the mixer
keeps in the channel from round to round, with what a key on sets of it. -/

namespace Desmume.Sound
open Library

/-! ### Two decoders -/

namespace AdpcmChannel

/-- The sample that the decoder goes back to when it loops, and its row. -/
def loopPoint (c : AdpcmChannel) : BitVec 16 × BitVec 32 := (c.loopPcm16b, c.loopIndex)

/-- Two loop points from which two channels go on in the same way. -/
def SamePoint (x y : BitVec 16 × BitVec 32) : Prop :=
  x.2 = y.2 ∧ (x.2 ≠ kAdpcmLoopingRecoveryIndex → x.1 = y.1)

theorem samePoint_refl (x : BitVec 16 × BitVec 32) : SamePoint x x := ⟨rfl, fun _ => rfl⟩

/-- Two decoders at the same place of the same data, with the same loop point if `L`. -/
structure DecodesAlike (L : Prop) (c d : AdpcmChannel) : Prop where
  addr : c.addr = d.addr
  loopstart : c.loopstart = d.loopstart
  sampcnt : c.sampcnt = d.sampcnt
  pcm16b : c.pcm16b = d.pcm16b
  index : c.index = d.index
  loop : L → SamePoint c.loopPoint d.loopPoint

variable {env : SpuEnv ℚ} {L : Prop} {c d : AdpcmChannel}

theorem DecodesAlike.mono {L' : Prop} (h : DecodesAlike L c d) (hL : L' → L) : DecodesAlike L' c d :=
  ⟨h.addr, h.loopstart, h.sampcnt, h.pcm16b, h.index, h.loop ∘ hL⟩

/-- Where both pass the start of the loop they get the same loop point. -/
theorem DecodesAlike.snagLoop (h : DecodesAlike L c d) (i : BitVec 32) :
    DecodesAlike (L ∨ i = BitVec.ofNat 32 (c.loopPosition 3)) (c.snagLoop i) (d.snagLoop i) := by
  have hpos : c.loopPosition 3 = d.loopPosition 3 := by rw [loopPosition, loopPosition, h.loopstart]
  rw [AdpcmChannel.snagLoop, AdpcmChannel.snagLoop, ← hpos]
  split_ifs with hi
  · refine ⟨h.addr, h.loopstart, h.sampcnt, h.pcm16b, h.index, fun _ => ?_⟩
    change SamePoint (c.pcm16b, c.index) (d.pcm16b, d.index)
    rw [h.pcm16b, h.index]
    exact samePoint_refl _
  · exact h.mono fun hL => hL.resolve_right hi

theorem DecodesAlike.decodeAt (h : DecodesAlike L c d) (i : BitVec 32) :
    Option.Rel (DecodesAlike (L ∨ i = BitVec.ofNat 32 (c.loopPosition 3))) (c.decodeAt env i)
      (d.decodeAt env i) := by
  rw [AdpcmChannel.decodeAt, AdpcmChannel.decodeAt, h.addr, h.index]
  simp only [Option.bind_eq_bind]
  generalize precalcdifftbl d.index.toNat _ = diff
  generalize precalcindextbl d.index.toNat _ = index
  cases diff with
  | none => exact .none
  | some diff =>
    cases index with
    | none => exact .none
    | some index =>
      have hmoved : DecodesAlike L (c.moveTo diff index) (d.moveTo diff index) := by
        refine ⟨h.addr, h.loopstart, h.sampcnt, ?_, rfl, h.loop⟩
        change BitVec.ofInt 16 (minMax (c.pcm16b.toInt + diff) _ _) = _
        rw [h.pcm16b]
        rfl
      exact .some (hmoved.snagLoop i)

/-- The loop of `FetchADPCMData` from `a` up to `b`. -/
def decodeFrom (env : SpuEnv ℚ) (a b : ℕ) (c : AdpcmChannel) : Option AdpcmChannel :=
  consumeM (fun c i => c.decodeAt env (BitVec.ofNat 32 i)) a b c

theorem undecoded_decodeFrom {a b : ℕ} {c' : AdpcmChannel} (h : c.decodeFrom env a b = some c') :
    c'.undecoded = c.undecoded :=
  @runM_invariant _ _ _ (fun e => e.undecoded = c.undecoded)
    (fun _ _ _ hinv hop => (undecoded_decodeAt hop).trans hinv) _ _ _ rfl h

theorem DecodesAlike.decodeFrom (env : SpuEnv ℚ) (h : DecodesAlike L c d) (a b : ℕ) :
    Option.Rel (DecodesAlike L) (c.decodeFrom env a b) (d.decodeFrom env a b) :=
  runM_rel (fun _ _ i h => rel_mono (h.decodeAt (BitVec.ofNat 32 i)) fun _ _ h => h.mono .inl) h _

theorem loopPosition_lt (c : AdpcmChannel) : c.loopPosition 3 < 2 ^ 32 := by
  have h := c.loopstart.isLt
  rw [loopPosition, Nat.shiftLeft_eq]
  omega

theorem loopPosition_of_undecoded {c' : AdpcmChannel} (h : c'.undecoded = c.undecoded) (shift : ℕ) :
    c'.loopPosition shift = c.loopPosition shift :=
  eq_of_undecoded h (fun e => e.loopPosition shift) fun _ => rfl

/-- Two decoders that go through the start of the loop have the same loop point then. -/
theorem DecodesAlike.decodeThrough (env : SpuEnv ℚ) (h : DecodesAlike L c d) {a b : ℕ}
    (ha : a ≤ c.loopPosition 3) (hb : c.loopPosition 3 < b) :
    Option.Rel (DecodesAlike True) (c.decodeFrom env a b) (d.decodeFrom env a b) := by
  have hbefore := h.decodeFrom env a (c.loopPosition 3)
  rw [AdpcmChannel.decodeFrom, AdpcmChannel.decodeFrom, consumeM_consumeM _ ha hb.le c,
    consumeM_consumeM _ ha hb.le d]
  change Option.Rel _ ((c.decodeFrom env a _).bind _) ((d.decodeFrom env a _).bind _)
  cases hc : c.decodeFrom env a (c.loopPosition 3) with
  | none =>
    rw [hc] at hbefore
    generalize d.decodeFrom env a (c.loopPosition 3) = y at hbefore
    cases hbefore
    exact .none
  | some c₁ =>
    rw [hc] at hbefore
    generalize d.decodeFrom env a (c.loopPosition 3) = y at hbefore
    cases hbefore with
    | @some _ d₁ h₁ =>
      have hpos := loopPosition_of_undecoded (undecoded_decodeFrom hc) 3
      have hsnag : Option.Rel _ (c₁.decodeAt env _) (d₁.decodeAt env _) :=
        h₁.decodeAt (BitVec.ofNat 32 (c.loopPosition 3))
      rw [Option.bind_some, Option.bind_some, consumeM_succ _ hb, consumeM_succ _ hb]
      generalize c₁.decodeAt env _ = x, d₁.decodeAt env _ = y at hsnag
      cases hsnag with
      | none => exact .none
      | some h₂ =>
        refine (h₂.mono fun _ => ?_).decodeFrom env _ b
        exact .inr (congrArg (BitVec.ofNat 32) hpos.symm)

/-- A decoder has the loop point of its own place there. -/
theorem loopPoint_decodeThrough {a : ℕ} {c' : AdpcmChannel} (ha : a ≤ c.loopPosition 3)
    (h : c.decodeFrom env a (c.loopPosition 3 + 1) = some c') : c'.loopPoint = (c'.pcm16b, c'.index) := by
  rw [decodeFrom, consumeM_consumeM _ ha (Nat.le_succ _)] at h
  obtain ⟨e, he, h⟩ := Option.bind_eq_some_iff.mp h
  rw [consumeM_succ _ (Nat.lt_succ_self _)] at h
  obtain ⟨e', hround, h⟩ := Option.bind_eq_some_iff.mp h
  rw [consumeM, Nat.sub_self] at h
  obtain rfl := Option.some.inj h
  obtain ⟨diff, -, hround⟩ := Option.bind_eq_some_iff.mp hround
  obtain ⟨index, -, hround⟩ := Option.bind_eq_some_iff.mp hround
  have hpos : (e.moveTo diff index).loopPosition 3 = c.loopPosition 3 :=
    loopPosition_of_undecoded (undecoded_decodeFrom he) 3
  rw [← Option.some.inj hround, snagLoop, if_pos (congrArg (BitVec.ofNat 32) hpos.symm)]
  rfl

/-- Elsewhere a decoder keeps its loop point. -/
theorem loopPoint_decodeFrom {a b : ℕ} {c' : AdpcmChannel} (hb : b ≤ 2 ^ 32)
    (hout : ¬ (a ≤ c.loopPosition 3 ∧ c.loopPosition 3 < b)) (h : c.decodeFrom env a b = some c') :
    c'.loopPoint = c.loopPoint := by
  refine (@consumeM_invariant _ _ _ _
    (fun e => e.undecoded = c.undecoded ∧ e.loopPoint = c.loopPoint)
    (fun e i e' ha hi hinv hround => ?_) _ _ ⟨rfl, rfl⟩ h).2
  refine ⟨(undecoded_decodeAt hround).trans hinv.1, ?_⟩
  obtain ⟨diff, -, hround⟩ := Option.bind_eq_some_iff.mp hround
  obtain ⟨index, -, hround⟩ := Option.bind_eq_some_iff.mp hround
  have hpos : (e.moveTo diff index).loopPosition 3 = c.loopPosition 3 :=
    loopPosition_of_undecoded hinv.1 3
  have hne : BitVec.ofNat 32 i ≠ BitVec.ofNat 32 ((e.moveTo diff index).loopPosition 3) := by
    intro heq
    have hmod := congrArg BitVec.toNat heq
    rw [hpos, BitVec.toNat_ofNat, BitVec.toNat_ofNat, Nat.mod_eq_of_lt (by omega),
      Nat.mod_eq_of_lt (loopPosition_lt c)] at hmod
    exact hout (hmod ▸ ⟨ha, hi⟩)
  rw [← Option.some.inj hround, snagLoop, if_neg hne]
  exact hinv.2

/-! ### The fetch of a sample of both -/

/-- The fetch goes through the start of the loop. -/
def Snags (c : AdpcmChannel) : Prop :=
  c.lastsampcnt ≠ sputrunc c.sampcnt ∧ (c.lastsampcnt + 1).toNat ≤ c.loopPosition 3 ∧
    c.loopPosition 3 < (sputrunc (c.sampcnt + 1)).toNat

instance (c : AdpcmChannel) : Decidable c.Snags := inferInstanceAs (Decidable (_ ∧ _))

/-- Two decoders that have got to the same place. -/
structure FetchesAlike (L : Prop) (c d : AdpcmChannel) : Prop extends DecodesAlike L c d where
  last : c.lastsampcnt = d.lastsampcnt

theorem fetchADPCMData_eq (env : SpuEnv ℚ) (c : AdpcmChannel) :
    c.fetchADPCMData env =
      (c.decodeFrom env (c.lastsampcnt + 1).toNat (sputrunc (c.sampcnt + 1)).toNat).map fun c =>
        (c.pcm16b.signExtend 32, { c with lastsampcnt := sputrunc c.sampcnt }) := by
  rw [fetchADPCMData, Option.map_eq_bind]
  rfl

theorem FetchesAlike.fetchSample (env : SpuEnv ℚ) (h : FetchesAlike L c d) :
    Alike (FetchesAlike (L ∨ 0 ≤ c.sampcnt ∧ c.Snags)) (c.fetchSample env) (d.fetchSample env) := by
  have hidle (hsnag : ¬ c.Snags) : FetchesAlike (L ∨ 0 ≤ c.sampcnt ∧ c.Snags) c d :=
    ⟨h.mono fun hL => hL.resolve_right fun hs => hsnag hs.2, h.last⟩
  rw [AdpcmChannel.fetchSample, AdpcmChannel.fetchSample, ← h.sampcnt, ← h.last]
  split_ifs with hneg hlast
  · refine alike_some rfl ⟨h.mono fun hL => hL.resolve_right fun hs => ?_, h.last⟩
    exact absurd hneg (not_lt.mpr hs.1)
  · exact alike_some (congrArg (BitVec.signExtend 32) h.pcm16b) (hidle fun hs => hs.1 hlast)
  · rw [fetchADPCMData_eq, fetchADPCMData_eq, ← h.sampcnt, ← h.last]
    have hloop : Option.Rel (DecodesAlike (L ∨ 0 ≤ c.sampcnt ∧ c.Snags))
        (c.decodeFrom env (c.lastsampcnt + 1).toNat (sputrunc (c.sampcnt + 1)).toNat)
        (d.decodeFrom env (c.lastsampcnt + 1).toNat (sputrunc (c.sampcnt + 1)).toNat) := by
      by_cases hsnag : c.Snags
      · exact rel_mono (h.decodeThrough env hsnag.2.1 hsnag.2.2) fun _ _ h => h.mono fun _ => trivial
      · exact (hidle hsnag).decodeFrom env _ _
    generalize c.decodeFrom env _ _ = x, d.decodeFrom env _ _ = y at hloop
    cases hloop with
    | none => exact .none
    | some hcd =>
      refine alike_some (congrArg (BitVec.signExtend 32) hcd.pcm16b) ?_
      exact ⟨⟨hcd.addr, hcd.loopstart, hcd.sampcnt, hcd.pcm16b, hcd.index, hcd.loop⟩,
        congrArg sputrunc hcd.sampcnt⟩

/-- A fetch that does not go through the start of the loop keeps the loop point. -/
theorem loopPoint_fetchSample {data : BitVec 32} {c' : AdpcmChannel} (hsnag : ¬ (0 ≤ c.sampcnt ∧ c.Snags))
    (h : c.fetchSample env = some (data, c')) : c'.loopPoint = c.loopPoint := by
  rw [AdpcmChannel.fetchSample] at h
  split_ifs at h with hneg hlast
  · rw [← (Prod.mk.inj (Option.some.inj h)).2]
  · rw [← (Prod.mk.inj (Option.some.inj h)).2]
  · rw [fetchADPCMData_eq] at h
    obtain ⟨e, he, heq⟩ := Option.map_eq_some_iff.mp h
    have hkeep : e.loopPoint = c.loopPoint :=
      loopPoint_decodeFrom (BitVec.isLt _).le (fun hin => hsnag ⟨not_lt.mp hneg, hlast, hin⟩) he
    rw [← (Prod.mk.inj heq).2]
    exact hkeep

/-- From the same loop point both go back to the same place, wherever they are. -/
theorem restart_same (env : SpuEnv ℚ) (haddr : c.addr = d.addr) (hstart : c.loopstart = d.loopstart)
    (hloop : SamePoint c.loopPoint d.loopPoint) :
    (c.restart env).pcm16b = (d.restart env).pcm16b ∧ (c.restart env).index = (d.restart env).index ∧
      (c.restart env).lastsampcnt = (d.restart env).lastsampcnt := by
  obtain ⟨hindex, hpcm⟩ := hloop
  replace hindex : c.loopIndex = d.loopIndex := hindex
  rw [AdpcmChannel.restart, AdpcmChannel.restart]
  by_cases hrecovery : c.loopIndex = kAdpcmLoopingRecoveryIndex
  · rw [if_pos hrecovery, if_pos (hindex.symm.trans hrecovery)]
    refine ⟨congrArg env.read16 haddr, ?_, rfl⟩
    exact congrArg (fun a => (env.read08 (a + 2) &&& 0x7F).setWidth 32) haddr
  · rw [if_neg hrecovery, if_neg fun hd => hrecovery (hindex.trans hd)]
    refine ⟨hpcm hrecovery, hindex, ?_⟩
    exact congrArg (fun x : BitVec 16 => BitVec.ofNat 32 (x.toNat <<< 3)) hstart

theorem undecoded_restart (env : SpuEnv ℚ) (c : AdpcmChannel) :
    (c.restart env).undecoded = c.undecoded := by
  rw [AdpcmChannel.restart]
  split_ifs <;> rfl

theorem loopPoint_restart (env : SpuEnv ℚ) (c : AdpcmChannel) :
    (c.restart env).loopPoint = c.loopPoint := by
  rw [AdpcmChannel.restart]
  split_ifs <;> rfl

end AdpcmChannel

/-! ### The registers -/

namespace ChannelStruct

/-- A channel without its lengths and without what the mixer keeps in it from round to round. -/
def plain (c : ChannelStruct ℚ) : ChannelStruct ℚ :=
  { c with
    totlength := 0
    doubleTotlengthShifted := 0
    pcm16b := 0
    pcm16bLast := 0
    index := 0
    lastsampcnt := 0
    loopIndex := 0
    x := 0 }

/-- What `plain` leaves out and the mixer reads. -/
structure SameHidden (c d : ChannelStruct ℚ) : Prop where
  totlength : c.totlength = d.totlength
  shifted : c.doubleTotlengthShifted = d.doubleTotlengthShifted
  pcm16b : c.pcm16b = d.pcm16b
  index : c.index = d.index
  lastsampcnt : c.lastsampcnt = d.lastsampcnt
  loopIndex : c.loopIndex = d.loopIndex
  x : c.x = d.x

/-- The fields of two bits. -/
structure Sane (c : ChannelStruct ℚ) : Prop where
  format : c.format.toNat < 4
  volumeDiv : c.volumeDiv.toNat < 4

/-- A change that neither looks at the hidden part nor touches it. -/
structure Keeps (f : ChannelStruct ℚ → ChannelStruct ℚ) : Prop where
  plain : ∀ c, (f c).plain = (f c.plain).plain
  hidden : ∀ c, SameHidden (f c) c
  sane : ∀ c, Sane c → Sane (f c)

theorem sameHidden_refl (c : ChannelStruct ℚ) : SameHidden c c := ⟨rfl, rfl, rfl, rfl, rfl, rfl, rfl⟩

theorem keeps_id : Keeps id := ⟨fun _ => rfl, sameHidden_refl, fun _ => id⟩

theorem keeps_keyOff : Keeps keyOff where
  plain _ := rfl
  hidden _ := ⟨rfl, rfl, rfl, rfl, rfl, rfl, rfl⟩
  sane _ h := ⟨h.format, h.volumeDiv⟩

theorem keeps_position (g : ℚ → ℚ → ℚ) : Keeps fun c => { c with sampcnt := g c.sampcnt c.sampinc } where
  plain _ := rfl
  hidden _ := ⟨rfl, rfl, rfl, rfl, rfl, rfl, rfl⟩
  sane _ h := ⟨h.format, h.volumeDiv⟩

variable {env : SpuEnv ℚ} {c d : ChannelStruct ℚ}

/-- What a write does to a channel: it changes some fields, and the one with the start bit runs the key
probe then. -/
inductive Writes (env : SpuEnv ℚ) (masteren : BitVec 8) (start : Prop)
    (w : ChannelStruct ℚ → ChannelStruct ℚ) : Prop
  | fields (h : Keeps w) (hstart : ¬ start)
  | probe (r : ChannelStruct ℚ → ChannelStruct ℚ) (hr : Keeps r)
      (hw : ∀ c, w c = (r c).keyProbe env masteren) (hstatus : ∀ c, (r c).status = c.status)
      (hkeyon : ∀ c, (r c).keyon ≠ 0 ↔ start)

theorem bits_one_ne_zero_iff {w : ℕ} (x : BitVec w) (lo : ℕ) : bits x lo 1 ≠ 0 ↔ x.getLsbD lo = true := by
  rw [ne_eq, bits_one_eq_zero_iff, Bool.not_eq_false]

theorem writes_byte (env : SpuEnv ℚ) (masteren : BitVec 8) (reg : ℕ) (val : BitVec 8) :
    Writes env masteren (reg = 0x3 ∧ val.getLsbD 7 = true)
      fun c => writeByte env c masteren reg val := by
  by_cases hreg : reg = 0x3
  · subst hreg
    let r : ChannelStruct ℚ → ChannelStruct ℚ := fun c =>
      { c with
        waveduty := bits val 0 3
        repeatMode := bits val 3 2
        format := bits val 5 2
        keyon := bits val 7 1 }
    refine .probe r ⟨fun _ => rfl, fun _ => ⟨rfl, rfl, rfl, rfl, rfl, rfl, rfl⟩, fun _ h => ?_⟩
      (fun _ => rfl) (fun _ => rfl) fun _ => ?_
    · exact ⟨bits_lt val 5 (by decide), h.volumeDiv⟩
    · exact (bits_one_ne_zero_iff val 7).trans (and_iff_right rfl).symm
  · refine .fields ⟨fun c => ?_, fun c => ?_, fun c h => ?_⟩ fun h => hreg h.1 <;> unfold writeByte <;>
      split <;>
      first | exact absurd rfl hreg | rfl | exact ⟨rfl, rfl, rfl, rfl, rfl, rfl, rfl⟩ | exact h |
        exact ⟨h.format, h.volumeDiv⟩ | exact ⟨h.format, bits_lt val 0 (by decide)⟩

theorem writes_word (env : SpuEnv ℚ) (masteren : BitVec 8) (reg : ℕ) (val : BitVec 16) :
    Writes env masteren (reg = 0x2 ∧ val.getLsbD 15 = true)
      fun c => writeWord env c masteren reg val := by
  by_cases hreg : reg = 0x2
  · subst hreg
    let r : ChannelStruct ℚ → ChannelStruct ℚ := fun c =>
      { c with
        pan := bits val 0 7
        waveduty := bits val 8 3
        repeatMode := bits val 11 2
        format := bits val 13 2
        keyon := bits val 15 1 }
    refine .probe r ⟨fun _ => rfl, fun _ => ⟨rfl, rfl, rfl, rfl, rfl, rfl, rfl⟩, fun _ h => ?_⟩
      (fun _ => rfl) (fun _ => rfl) fun _ => ?_
    · exact ⟨bits_lt val 13 (by decide), h.volumeDiv⟩
    · exact (bits_one_ne_zero_iff val 15).trans (and_iff_right rfl).symm
  · refine .fields ⟨fun c => ?_, fun c => ?_, fun c h => ?_⟩ fun h => hreg h.1 <;> unfold writeWord <;>
      split <;>
      first | exact absurd rfl hreg | rfl | exact ⟨rfl, rfl, rfl, rfl, rfl, rfl, rfl⟩ | exact h |
        exact ⟨h.format, h.volumeDiv⟩ | exact ⟨h.format, bits_lt val 8 (by decide)⟩

theorem writes_long (env : SpuEnv ℚ) (masteren : BitVec 8) (reg : ℕ) (val : BitVec 32) :
    Writes env masteren (reg = 0x0 ∧ val.getLsbD 31 = true)
      fun c => writeLong env c masteren reg val := by
  by_cases hreg : reg = 0x0
  · subst hreg
    let r : ChannelStruct ℚ → ChannelStruct ℚ := fun c =>
      { c with
        vol := bits val 0 7
        volumeDiv := bits val 8 2
        hold := bits val 15 1
        pan := bits val 16 7
        waveduty := bits val 24 3
        repeatMode := bits val 27 2
        format := bits val 29 2
        keyon := bits val 31 1 }
    refine .probe r ⟨fun _ => rfl, fun _ => ⟨rfl, rfl, rfl, rfl, rfl, rfl, rfl⟩, fun _ _ => ?_⟩
      (fun _ => rfl) (fun _ => rfl) fun _ => ?_
    · exact ⟨bits_lt val 29 (by decide), bits_lt val 8 (by decide)⟩
    · exact (bits_one_ne_zero_iff val 31).trans (and_iff_right rfl).symm
  · refine .fields ⟨fun c => ?_, fun c => ?_, fun c h => ?_⟩ fun h => hreg h.1 <;> unfold writeLong <;>
      split <;>
      first | exact absurd rfl hreg | rfl | exact ⟨rfl, rfl, rfl, rfl, rfl, rfl, rfl⟩ | exact h |
        exact ⟨h.format, h.volumeDiv⟩

/-! ### The key on -/

theorem startFormat_adpcm (h : c.format = 2) :
    c.startFormat env =
      { c with
        pcm16b := env.read16 c.addr
        pcm16bLast := env.read16 c.addr
        index := (env.read08 (c.addr + 2) &&& 0x7F).setWidth 32
        lastsampcnt := 7
        sampcnt := env.ofInt (-3)
        loopIndex := kAdpcmLoopingRecoveryIndex } := by
  rw [startFormat, h]
  rfl

theorem startFormat_plain (env : SpuEnv ℚ) (c : ChannelStruct ℚ) :
    (c.startFormat env).plain = (c.plain.startFormat env).plain := by
  have hp : c.plain.format.toNat = c.format.toNat := rfl
  rw [startFormat, startFormat, hp]
  generalize c.format.toNat = n
  rcases n with _ | _ | _ | _ | n
  all_goals rfl

/-- The start of another format leaves the decoder. -/
theorem startFormat_other (env : SpuEnv ℚ) (h : c.format ≠ 2) :
    (c.startFormat env).pcm16b = c.pcm16b ∧ (c.startFormat env).index = c.index ∧
      (c.startFormat env).lastsampcnt = c.lastsampcnt ∧
      (c.startFormat env).loopIndex = c.loopIndex := by
  have hne : c.format.toNat ≠ 2 := fun hn => h (BitVec.eq_of_toNat_eq hn)
  rw [startFormat]
  revert hne
  generalize c.format.toNat = n
  intro hne
  rcases n with _ | _ | _ | _ | n
  · exact ⟨rfl, rfl, rfl, rfl⟩
  · exact ⟨rfl, rfl, rfl, rfl⟩
  · exact absurd rfl hne
  · exact ⟨rfl, rfl, rfl, rfl⟩
  · exact ⟨rfl, rfl, rfl, rfl⟩

theorem startFormat_x : (c.startFormat env).x = if c.format = 3 then 0x7FFF else c.x := by
  by_cases h : c.format = 3
  · rw [if_pos h, startFormat, h]
    rfl
  · have hne : c.format.toNat ≠ 3 := fun hn => h (BitVec.eq_of_toNat_eq hn)
    rw [if_neg h, startFormat]
    revert hne
    generalize c.format.toNat = n
    intro hne
    rcases n with _ | _ | _ | _ | n
    · rfl
    · rfl
    · rfl
    · exact absurd rfl hne
    · rfl

/-- The channel as the switch over the format finds it. -/
def keyed (env : SpuEnv ℚ) (c : ChannelStruct ℚ) : ChannelStruct ℚ :=
  adjustChannelTimer env
    { c with status := chanstatPlay, totlength := c.length + c.loopstart.setWidth 32 }

theorem keyOn_eq (env : SpuEnv ℚ) (c : ChannelStruct ℚ) :
    c.keyOn env = ((c.keyed env).startFormat env).startLength env := rfl

/-- The totals of a key on. -/
theorem keyOn_totals (env : SpuEnv ℚ) (c : ChannelStruct ℚ) :
    (c.keyOn env).totlength = c.length + c.loopstart.setWidth 32 ∧
      (c.keyOn env).doubleTotlengthShifted =
        env.ofU32 ((c.length + c.loopstart.setWidth 32) <<< formatShift c.format) := by
  obtain ⟨hformat, htot, -⟩ := startFormat_keeps env (c.keyed env)
  refine ⟨htot, ?_⟩
  change env.ofU32 (((c.keyed env).startFormat env).totlength <<<
    formatShift ((c.keyed env).startFormat env).format) = _
  rw [hformat, htot]
  rfl

theorem keyOn_plain (env : SpuEnv ℚ) (c : ChannelStruct ℚ) :
    (c.keyOn env).plain = (c.plain.keyOn env).plain := by
  have hstart := startFormat_plain env (c.keyed env)
  have hstart' := startFormat_plain env (c.plain.keyed env)
  have hkeyed : (c.plain.keyed env).plain = (c.keyed env).plain := rfl
  rw [hkeyed, ← hstart] at hstart'
  have hstatus := keyOn_status env c
  have hstatus' := keyOn_status env c.plain
  have hlength : c.plain.NoLength ↔ c.NoLength := Iff.rfl
  simp only [hlength] at hstatus'
  have hsame (e : ChannelStruct ℚ) (s : BitVec 8) (h : (e.startLength env).status = s) :
      (e.startLength env).plain = { e.plain with status := s } := by
    rw [← h]
    rfl
  refine (hsame _ _ hstatus).trans (Eq.trans ?_ (hsame _ _ hstatus').symm)
  exact congrArg (fun e : ChannelStruct ℚ =>
    { e with status := if c.NoLength then chanstatStopped else chanstatPlay }) hstart'.symm

theorem keyOn_format (env : SpuEnv ℚ) (c : ChannelStruct ℚ) : (c.keyOn env).format = c.format :=
  (startFormat_keeps env (c.keyed env)).1

theorem keyOn_x (env : SpuEnv ℚ) (c : ChannelStruct ℚ) :
    (c.keyOn env).x = if c.format = 3 then 0x7FFF else c.x := startFormat_x

theorem keyOn_adpcm (env : SpuEnv ℚ) (h : c.format = 2) :
    (c.keyOn env).pcm16b = env.read16 c.addr ∧
      (c.keyOn env).index = (env.read08 (c.addr + 2) &&& 0x7F).setWidth 32 ∧
      (c.keyOn env).lastsampcnt = 7 ∧ (c.keyOn env).loopIndex = kAdpcmLoopingRecoveryIndex := by
  have hkeyed : (c.keyed env).format = 2 := h
  rw [keyOn_eq, startFormat_adpcm hkeyed]
  exact ⟨rfl, rfl, rfl, rfl⟩

theorem keyOn_other (env : SpuEnv ℚ) (h : c.format ≠ 2) :
    (c.keyOn env).pcm16b = c.pcm16b ∧ (c.keyOn env).index = c.index ∧
      (c.keyOn env).lastsampcnt = c.lastsampcnt ∧ (c.keyOn env).loopIndex = c.loopIndex :=
  startFormat_other env (show (c.keyed env).format ≠ 2 from h)

end ChannelStruct

end Desmume.Sound
