import Desmume.Sound.ChannelParts
import Mathlib.Data.Set.Basic

/-! Two channels that agree in some of their parts, and what a step reads and sets of them: as long as
only parts are read in which they agree, they put out the same. -/

namespace Desmume.Sound
open Library

/-- What a channel keeps beside its registers, its position and whether it plays. -/
inductive Part where
  | totals
  | decoder
  | loop
  | generator
  | noise
  | last
deriving DecidableEq, Repr

namespace MixChannel
open ChannelStruct AdpcmChannel

def SamePart : Part → MixChannel → MixChannel → Prop
  | .totals, c, d => c.totlength = d.totlength ∧ c.doubleTotlengthShifted = d.doubleTotlengthShifted
  | .decoder, c, d => c.pcm16b = d.pcm16b ∧ c.index = d.index
  | .loop, c, d => SamePoint c.loopPoint d.loopPoint
  | .generator, c, d => c.x = d.x
  | .noise, c, d => c.psgnoiseLast = d.psgnoiseLast
  | .last, c, d => c.lastsampcnt = d.lastsampcnt

/-- Two channels with the same registers, at the same position, which agree in the parts `K`. -/
structure Agree (K : Set Part) (c d : MixChannel) : Prop where
  plain : c.plain = d.plain
  parts : ∀ p ∈ K, SamePart p c d

/-- The parts that a key on sets. -/
def KeyOnSets (format : BitVec 8) : Part → Prop
  | .totals => True
  | .decoder | .loop | .last => format = 2
  | .generator => format = 3
  | .noise => False

variable {K : Set Part} {c d : MixChannel} {env : SpuEnv ℚ} {num : Fin 16} {actuallyMix : Bool}

/-- What both read of their registers. -/
theorem Agree.field {β : Type} (h : Agree K c d) (f : ChannelStruct ℚ → β) (hf : ∀ c, f c.plain = f c) :
    f c.toChannelStruct = f d.toChannelStruct := by
  rw [← hf c.toChannelStruct, h.plain, hf]

theorem Agree.mono {K' : Set Part} (h : Agree K c d) (hK : K' ⊆ K) : Agree K' c d :=
  ⟨h.plain, fun p hp => h.parts p (hK hp)⟩

/-- Changes that leave what is hidden keep what two channels have in common of it. -/
theorem SamePart.mapStruct {f g : ChannelStruct ℚ → ChannelStruct ℚ} {p : Part}
    (hc : SameHidden (f c.toChannelStruct) c.toChannelStruct)
    (hd : SameHidden (g d.toChannelStruct) d.toChannelStruct) (h : SamePart p c d) :
    SamePart p (c.mapStruct f) (d.mapStruct g) := by
  cases p with
  | totals => exact ⟨hc.totlength.trans (h.1.trans hd.totlength.symm),
      hc.shifted.trans (h.2.trans hd.shifted.symm)⟩
  | decoder => exact ⟨hc.pcm16b.trans (h.1.trans hd.pcm16b.symm),
      hc.index.trans (h.2.trans hd.index.symm)⟩
  | loop =>
    change SamePoint (c.loopPcm16b, (f c.toChannelStruct).loopIndex)
      (d.loopPcm16b, (g d.toChannelStruct).loopIndex)
    rw [hc.loopIndex, hd.loopIndex]
    exact h
  | generator => exact hc.x.trans (Eq.trans h hd.x.symm)
  | noise => exact h
  | last => exact hc.lastsampcnt.trans (Eq.trans h hd.lastsampcnt.symm)

theorem Agree.mapStruct {f : ChannelStruct ℚ → ChannelStruct ℚ} (hf : Keeps f) (h : Agree K c d) :
    Agree K (c.mapStruct f) (d.mapStruct f) := by
  have hplain := congrArg (fun e => (f e).plain) h.plain
  refine ⟨(hf.plain _).trans (hplain.trans (hf.plain _).symm), fun p hp => ?_⟩
  exact SamePart.mapStruct (hf.hidden _) (hf.hidden _) (h.parts p hp)

theorem Agree.keyOn (h : Agree K c d) :
    Agree (K ∪ {p | KeyOnSets c.format p}) (c.mapStruct (ChannelStruct.keyOn env))
      (d.mapStruct (ChannelStruct.keyOn env)) := by
  have hformat : c.format = d.format := h.field ChannelStruct.format fun _ => rfl
  have haddr : c.addr = d.addr := h.field ChannelStruct.addr fun _ => rfl
  have hlength : c.length = d.length := h.field ChannelStruct.length fun _ => rfl
  have hloopstart : c.loopstart = d.loopstart := h.field ChannelStruct.loopstart fun _ => rfl
  have hplain := congrArg (fun e => (ChannelStruct.keyOn env e).plain) h.plain
  refine ⟨(keyOn_plain env _).trans (hplain.trans (keyOn_plain env _).symm), fun p hp => ?_⟩
  -- a part that the key on leaves is one in which they agree before
  have hleft (hp' : ¬ KeyOnSets c.format p) : SamePart p c d := h.parts p (hp.resolve_right hp')
  cases p with
  | totals =>
    obtain ⟨htot, hshifted⟩ := keyOn_totals env c.toChannelStruct
    obtain ⟨htot', hshifted'⟩ := keyOn_totals env d.toChannelStruct
    rw [hlength, hloopstart] at htot hshifted
    rw [hformat] at hshifted
    exact ⟨htot.trans htot'.symm, hshifted.trans hshifted'.symm⟩
  | decoder =>
    by_cases h2 : c.format = 2
    · obtain ⟨hpcm, hindex, -, -⟩ := keyOn_adpcm env h2
      obtain ⟨hpcm', hindex', -, -⟩ := keyOn_adpcm env (hformat.symm.trans h2)
      rw [haddr] at hpcm hindex
      exact ⟨hpcm.trans hpcm'.symm, hindex.trans hindex'.symm⟩
    · obtain ⟨hpcm, hindex, -, -⟩ := keyOn_other env h2
      obtain ⟨hpcm', hindex', -, -⟩ := keyOn_other env (hformat ▸ h2)
      obtain ⟨hp, hi⟩ := hleft h2
      exact ⟨hpcm.trans (hp.trans hpcm'.symm), hindex.trans (hi.trans hindex'.symm)⟩
  | loop =>
    change SamePoint (c.loopPcm16b, (ChannelStruct.keyOn env c.toChannelStruct).loopIndex)
      (d.loopPcm16b, (ChannelStruct.keyOn env d.toChannelStruct).loopIndex)
    by_cases h2 : c.format = 2
    · rw [(keyOn_adpcm env h2).2.2.2, (keyOn_adpcm env (hformat.symm.trans h2)).2.2.2]
      exact ⟨rfl, fun hne => absurd rfl hne⟩
    · rw [(keyOn_other env h2).2.2.2, (keyOn_other env (hformat ▸ h2)).2.2.2]
      exact hleft h2
  | generator =>
    change (ChannelStruct.keyOn env c.toChannelStruct).x = (ChannelStruct.keyOn env d.toChannelStruct).x
    rw [keyOn_x, keyOn_x, ← hformat]
    split_ifs with h3
    · rfl
    · exact hleft h3
  | noise => exact hleft id
  | last =>
    by_cases h2 : c.format = 2
    · exact (keyOn_adpcm env h2).2.2.1.trans (keyOn_adpcm env (hformat.symm.trans h2)).2.2.1.symm
    · exact (keyOn_other env h2).2.2.1.trans
        (Eq.trans (hleft h2) (keyOn_other env (hformat ▸ h2)).2.2.1.symm)

/-! ### What a round reads and sets -/

/-- The round fetches a sample of ADPCM data. -/
def Decodes (actuallyMix : Bool) (c : MixChannel) : Prop :=
  c.format = 2 ∧ actuallyMix = true ∧ 0 ≤ c.sampcnt

/-- The round fetches a sample of the noise generator. -/
def MakesNoise (num : Fin 16) (actuallyMix : Bool) (c : MixChannel) : Prop :=
  3 ≤ c.format.toNat ∧ 14 ≤ num ∧ actuallyMix = true ∧ 0 ≤ c.sampcnt

/-- The round comes to the end of ADPCM data that loops. -/
def Returns (c : MixChannel) : Prop := c.format = 2 ∧ ¬ c.TooShort ∧ c.moved.GoesBack

instance (c : MixChannel) : Decidable c.GoesBack := inferInstanceAs (Decidable (_ ∧ _))

instance : Decidable (c.Decodes actuallyMix) := inferInstanceAs (Decidable (_ ∧ _))

instance : Decidable (c.MakesNoise num actuallyMix) := inferInstanceAs (Decidable (_ ∧ _))

instance : Decidable c.Returns := inferInstanceAs (Decidable (_ ∧ _))

/-- The parts that a round reads. -/
def Reads (num : Fin 16) (actuallyMix : Bool) (c : MixChannel) : Part → Prop
  | .totals => c.format.toNat < 3
  | .decoder => c.Decodes actuallyMix
  | .loop => c.Returns ∧ ¬ (c.Decodes actuallyMix ∧ c.Snags)
  | .generator | .noise => c.MakesNoise num actuallyMix
  | .last => c.Decodes actuallyMix ∨ c.MakesNoise num actuallyMix

/-- The parts that a round sets anew: the loop point where the decoder goes through the start of the
loop, and the decoder where the channel goes back. -/
def RoundSets (actuallyMix : Bool) (c : MixChannel) : Part → Prop
  | .loop => c.Decodes actuallyMix ∧ c.Snags
  | .decoder | .last => c.Returns
  | _ => False

/-! ### A round of both -/

/-- `n` rounds of the noise generator. -/
theorem iterate_noiseStep (n : ℕ) (hx : c.x = d.x) (hpsg : c.psgnoiseLast = d.psgnoiseLast) :
    (noiseStep^[n] c).x = (noiseStep^[n] d).x ∧
      (noiseStep^[n] c).psgnoiseLast = (noiseStep^[n] d).psgnoiseLast := by
  induction n generalizing c d with
  | zero => exact ⟨hx, hpsg⟩
  | succ n ih =>
    rw [Function.iterate_succ_apply, Function.iterate_succ_apply]
    apply ih <;> rw [noiseStep, noiseStep, hx] <;> split_ifs <;> rfl

/-- The noise generator leaves the rest of the channel. -/
theorem iterate_noiseStep_rest (n : ℕ) (c : MixChannel) :
    noiseStep^[n] c =
      { c with x := (noiseStep^[n] c).x, psgnoiseLast := (noiseStep^[n] c).psgnoiseLast } := by
  induction n generalizing c with
  | zero => rfl
  | succ n ih =>
    rw [Function.iterate_succ_apply, ih]
    generalize (noiseStep^[n] (noiseStep c)).x = x
    generalize (noiseStep^[n] (noiseStep c)).psgnoiseLast = last
    rw [noiseStep]
    split_ifs <;> rfl

theorem Agree.fetchPSGData (h : Agree K c d) (hgen : .generator ∈ K) (hnoise : .noise ∈ K)
    (hlast : .last ∈ K) : Alike (Agree K) (some c.fetchPSGData) (some d.fetchPSGData) := by
  have hpos : c.sampcnt = d.sampcnt := h.field ChannelStruct.sampcnt fun _ => rfl
  have hx : c.x = d.x := h.parts _ hgen
  have hpsg : c.psgnoiseLast = d.psgnoiseLast := h.parts _ hnoise
  have hl : c.lastsampcnt = d.lastsampcnt := h.parts _ hlast
  rw [MixChannel.fetchPSGData, MixChannel.fetchPSGData, hpos, hl]
  split_ifs
  · exact alike_some (congrArg (BitVec.signExtend 32) hpsg) h
  · generalize (sputrunc d.sampcnt).toNat - d.lastsampcnt.toNat = n
    obtain ⟨hx', hpsg'⟩ := iterate_noiseStep n hx hpsg
    rw [iterate_noiseStep_rest n c, iterate_noiseStep_rest n d]
    refine alike_some (congrArg (BitVec.signExtend 32) hpsg') ⟨h.plain, fun p hp => ?_⟩
    cases p with
    | totals => exact h.parts _ hp
    | decoder => exact h.parts _ hp
    | loop => exact h.parts _ hp
    | generator => exact hx'
    | noise => exact hpsg'
    | last => rfl

theorem Agree.fetchPSG (h : Agree K c d)
    (hread : 14 ≤ num → .generator ∈ K ∧ .noise ∈ K ∧ .last ∈ K) :
    Alike (Agree K) (some (c.fetchPSG num)) (some (d.fetchPSG num)) := by
  have hpos : c.sampcnt = d.sampcnt := h.field ChannelStruct.sampcnt fun _ => rfl
  have hduty : c.waveduty = d.waveduty := h.field ChannelStruct.waveduty fun _ => rfl
  rw [MixChannel.fetchPSG, MixChannel.fetchPSG, hpos, hduty]
  split_ifs with hsilent hwave
  · exact alike_some rfl h
  · exact alike_some rfl h
  · obtain ⟨hgen, hnoise, hlast⟩ := hread (not_lt.mp hwave)
    exact h.fetchPSGData hgen hnoise hlast

/-- What the fetch of a sample leaves of a channel. -/
theorem plain_of_undecoded {c c' : AdpcmChannel} (h : c'.undecoded = c.undecoded) :
    c'.plain = c.plain ∧ c'.totlength = c.totlength ∧
      c'.doubleTotlengthShifted = c.doubleTotlengthShifted ∧ c'.x = c.x :=
  ⟨AdpcmChannel.eq_of_undecoded h (fun e => e.plain) fun _ => rfl,
    AdpcmChannel.eq_of_undecoded h (fun e => e.totlength) fun _ => rfl,
    AdpcmChannel.eq_of_undecoded h (fun e => e.doubleTotlengthShifted) fun _ => rfl,
    AdpcmChannel.eq_of_undecoded h (fun e => e.x) fun _ => rfl⟩

/-- Channels that agree still do with decoders that have got to the same place. -/
theorem Agree.withDecoders {K' : Set Part} (h : Agree K c d) {c' d' : AdpcmChannel}
    (hc : c'.undecoded = c.toAdpcmChannel.undecoded) (hd : d'.undecoded = d.toAdpcmChannel.undecoded)
    (hdec : .decoder ∈ K' → c'.pcm16b = d'.pcm16b ∧ c'.index = d'.index)
    (hloop : .loop ∈ K' → SamePoint c'.loopPoint d'.loopPoint)
    (hlast : .last ∈ K' → c'.lastsampcnt = d'.lastsampcnt)
    (hrest : ∀ p ∈ K', p ≠ .decoder → p ≠ .loop → p ≠ .last → p ∈ K) :
    Agree K' { c with toAdpcmChannel := c' } { d with toAdpcmChannel := d' } := by
  obtain ⟨hplain, htot, hshifted, hx⟩ := plain_of_undecoded hc
  obtain ⟨hplain', htot', hshifted', hx'⟩ := plain_of_undecoded hd
  refine ⟨hplain.trans (h.plain.trans hplain'.symm), fun p hp => ?_⟩
  cases p with
  | totals =>
    obtain ⟨ht, hs⟩ := h.parts _ (hrest _ hp (by decide) (by decide) (by decide))
    exact ⟨htot.trans (ht.trans htot'.symm), hshifted.trans (hs.trans hshifted'.symm)⟩
  | decoder => exact hdec hp
  | loop => exact hloop hp
  | generator =>
    exact hx.trans (Eq.trans (h.parts _ (hrest _ hp (by decide) (by decide) (by decide))) hx'.symm)
  | noise => exact h.parts _ (hrest _ hp (by decide) (by decide) (by decide))
  | last => exact hlast hp

theorem Agree.fetchesAlike (h : Agree K c d) (hdec : .decoder ∈ K) (hlast : .last ∈ K) :
    FetchesAlike (.loop ∈ K) c.toAdpcmChannel d.toAdpcmChannel := by
  obtain ⟨hpcm, hindex⟩ := h.parts _ hdec
  exact ⟨⟨h.field ChannelStruct.addr fun _ => rfl, h.field ChannelStruct.loopstart fun _ => rfl,
    h.field ChannelStruct.sampcnt fun _ => rfl, hpcm, hindex, h.parts .loop⟩, h.parts _ hlast⟩

/-- `K`, and the loop point if `P`. -/
def withLoop (K : Set Part) (P : Prop) : Set Part := K ∪ {p | p = .loop ∧ P}

theorem Agree.withLoop {P : Prop} (h : Agree K c d) (hP : ¬ P) : Agree (withLoop K P) c d :=
  h.mono fun _ hp => hp.resolve_right fun hl => hP hl.2

theorem Agree.fetch (env : SpuEnv ℚ) (h : Agree K c d)
    (hdec : c.format = 2 → 0 ≤ c.sampcnt → .decoder ∈ K ∧ .last ∈ K)
    (hnoise : 3 ≤ c.format.toNat → 0 ≤ c.sampcnt → 14 ≤ num →
      .generator ∈ K ∧ .noise ∈ K ∧ .last ∈ K) :
    Alike (Agree (MixChannel.withLoop K (c.format = 2 ∧ 0 ≤ c.sampcnt ∧ c.Snags))) (c.fetch env num)
      (d.fetch env num) := by
  have hplace : c.sampcnt = d.sampcnt := h.field ChannelStruct.sampcnt fun _ => rfl
  have haddr : c.addr = d.addr := h.field ChannelStruct.addr fun _ => rfl
  have hformat : c.format = d.format := h.field ChannelStruct.format fun _ => rfl
  have hother {n : ℕ} (hn : c.format.toNat = n) (hne : n ≠ 2) {c' d' : MixChannel} (h' : Agree K c' d') :
      Agree (MixChannel.withLoop K (c.format = 2 ∧ 0 ≤ c.sampcnt ∧ c.Snags)) c' d' :=
    h'.withLoop fun hall => hne (hn.symm.trans (congrArg BitVec.toNat hall.1))
  have hpsg {n : ℕ} (hn : c.format.toNat = n) (hthree : 3 ≤ n) (hpos : 0 ≤ c.sampcnt) :
      Alike (Agree (MixChannel.withLoop K (c.format = 2 ∧ 0 ≤ c.sampcnt ∧ c.Snags)))
        (some (c.fetchPSG num)) (some (d.fetchPSG num)) :=
    (h.fetchPSG (hnoise (hn ▸ hthree) hpos)).mono fun _ _ => hother hn (by omega)
  rw [MixChannel.fetch, MixChannel.fetch, ← hplace, ← haddr, ← hformat]
  split_ifs with hneg
  · exact alike_some rfl (h.withLoop fun hall => absurd hneg (not_lt.mpr hall.2.1))
  · have hpos : 0 ≤ c.sampcnt := not_lt.mp hneg
    match hn : c.format.toNat with
    | 0 => exact alike_some rfl (hother hn (by decide) h)
    | 1 => exact alike_some rfl (hother hn (by decide) h)
    | 2 =>
      have h2 : c.format = 2 := BitVec.eq_of_toNat_eq hn
      obtain ⟨hD, hL⟩ := hdec h2 hpos
      have hboth := (h.fetchesAlike hD hL).fetchSample env
      cases hc : c.toAdpcmChannel.fetchSample env with
      | none =>
        rw [hc] at hboth
        generalize d.toAdpcmChannel.fetchSample env = y at hboth
        cases hboth
        exact .none
      | some r =>
        cases hd : d.toAdpcmChannel.fetchSample env with
        | none =>
          rw [hc, hd] at hboth
          cases hboth
        | some r' =>
          rw [hc, hd] at hboth
          cases hboth with
          | some hr =>
            obtain ⟨hdata, hfetch⟩ := hr
            refine alike_some hdata (h.withDecoders (undecoded_fetchSample hc)
              (undecoded_fetchSample hd) (fun _ => ⟨hfetch.pcm16b, hfetch.index⟩) (fun hl => ?_)
              (fun _ => hfetch.last) fun p hp _ hl _ => hp.resolve_right fun hr => hl hr.1)
            exact hfetch.loop (hl.imp_right fun hr => hr.2.2)
    | 3 => exact hpsg hn (by decide) hpos
    | n + 4 => exact hpsg hn (by omega) hpos

theorem Agree.hear (env : SpuEnv ℚ) (h : Agree K c d)
    (hdec : c.Decodes actuallyMix → .decoder ∈ K ∧ .last ∈ K)
    (hnoise : c.MakesNoise num actuallyMix → .generator ∈ K ∧ .noise ∈ K ∧ .last ∈ K) :
    Alike (Agree (MixChannel.withLoop K (c.Decodes actuallyMix ∧ c.Snags))) (c.hear env num actuallyMix)
      (d.hear env num actuallyMix) := by
  rw [MixChannel.hear, MixChannel.hear]
  split_ifs with hmix
  · have hfetch := h.fetch env (fun h2 hpos => hdec ⟨h2, hmix, hpos⟩)
      fun h3 hpos hnum => hnoise ⟨h3, hnum, hmix, hpos⟩
    rw [Option.map_eq_bind, Option.map_eq_bind]
    refine hfetch.bind fun data c' d' hagree => alike_some ?_ (hagree.mono ?_)
    · have hpan : c'.pan = d'.pan := hagree.field ChannelStruct.pan fun _ => rfl
      have hvol : c'.vol = d'.vol := hagree.field ChannelStruct.vol fun _ => rfl
      have hdiv : c'.volumeDiv = d'.volumeDiv := hagree.field ChannelStruct.volumeDiv fun _ => rfl
      simp only [hpan, hvol, hdiv]
    · exact fun p hp => hp.imp_right fun hl => ⟨hl.1, hl.2.1.1, hl.2.1.2.2, hl.2.2⟩
  · exact alike_some rfl (h.withLoop fun hall => hmix hall.1.2.1)

/-- `TestForLoop` does the same to both. -/
theorem Agree.testForLoop (h : Agree K c d) (htotals : .totals ∈ K) (shift : ℕ) :
    (c.testForLoop shift = none ∧ d.testForLoop shift = none) ∨
      ∃ ret f, Keeps f ∧ c.testForLoop shift = some (ret, c.mapStruct f) ∧
        d.testForLoop shift = some (ret, d.mapStruct f) ∧ (ret = 0 ↔ c.GoesBack) := by
  obtain ⟨-, hend⟩ := h.parts _ htotals
  have hpos : c.sampcnt = d.sampcnt := h.field ChannelStruct.sampcnt fun _ => rfl
  have hrepeat : c.repeatMode = d.repeatMode := h.field ChannelStruct.repeatMode fun _ => rfl
  have hloopstart : c.loopstart = d.loopstart := h.field ChannelStruct.loopstart fun _ => rfl
  have hwrap : c.wrapPosition shift = d.wrapPosition shift := by
    simp only [wrapPosition, loopLength, loopPosition, hend, hpos, hloopstart]
  rw [MixChannel.testForLoop, MixChannel.testForLoop, ← hend, ← hpos, ← hrepeat, ← hwrap]
  split_ifs with hlast hback
  · cases c.wrapPosition shift with
    | none => exact .inl ⟨rfl, rfl⟩
    | some x =>
      exact .inr ⟨0, _, keeps_position fun _ _ => x, rfl, rfl, iff_of_true rfl ⟨hlast, hback⟩⟩
  · exact .inr ⟨1, _, keeps_keyOff, rfl, rfl, iff_of_false (by decide) fun hg => hback hg.2⟩
  · exact .inr ⟨-1, _, keeps_id, rfl, rfl, iff_of_false (by decide) fun hg => hlast hg.1⟩

/-- Two channels with the same loop point go back to the same place. -/
theorem Agree.restart (h : Agree K c d) (hloop : .loop ∈ K) :
    Agree (K ∪ {p | p = .decoder ∨ p = .last}) (c.mapAdpcm (AdpcmChannel.restart env))
      (d.mapAdpcm (AdpcmChannel.restart env)) := by
  have haddr : c.addr = d.addr := h.field ChannelStruct.addr fun _ => rfl
  have hstart : c.loopstart = d.loopstart := h.field ChannelStruct.loopstart fun _ => rfl
  obtain ⟨hpcm, hindex, hlast⟩ := restart_same (c := c.toAdpcmChannel) (d := d.toAdpcmChannel) env haddr
    hstart (h.parts _ hloop)
  refine h.withDecoders (undecoded_restart env _) (undecoded_restart env _) (fun _ => ⟨hpcm, hindex⟩)
    (fun _ => ?_) (fun _ => hlast) fun p hp hd _ hl => hp.resolve_right fun hr => hr.elim hd hl
  rw [loopPoint_restart, loopPoint_restart]
  exact h.parts _ hloop

theorem Agree.moved (h : Agree K c d) : Agree K c.moved d.moved :=
  h.mapStruct (keeps_position fun pos inc => pos + inc)

theorem Agree.tooShort (h : Agree K c d) (htotals : c.format.toNat < 3 → .totals ∈ K) :
    c.TooShort ↔ d.TooShort := by
  have hformat : c.format = d.format := h.field ChannelStruct.format fun _ => rfl
  rw [TooShort, TooShort, ← hformat]
  refine and_congr_right fun h2 => ?_
  have h2' : c.format.toNat = 2 := congrArg BitVec.toNat h2
  rw [(h.parts _ (htotals (by omega))).1]

/-- Both move on, and go back together. -/
theorem Agree.advance (h : Agree K c d) (htotals : c.format.toNat < 3 → .totals ∈ K)
    (hloop : c.Returns → .loop ∈ K) :
    Option.Rel (Agree (K ∪ {p | (p = .decoder ∨ p = .last) ∧ c.Returns})) (c.advance env)
      (d.advance env) := by
  have hformat : c.format = d.format := h.field ChannelStruct.format fun _ => rfl
  have hstill {c' d' : MixChannel} (hreturns : ¬ c.Returns) (h' : Agree K c' d') :
      Agree (K ∪ {p | (p = .decoder ∨ p = .last) ∧ c.Returns}) c' d' :=
    h'.mono fun _ hp => hp.resolve_right fun hr => hreturns hr.2
  have hother {n : ℕ} (hn : c.format.toNat = n) (hne : n ≠ 2) : ¬ c.Returns :=
    fun hr => hne (hn.symm.trans (congrArg BitVec.toNat hr.1))
  have htest {n : ℕ} (hn : c.format.toNat = n) (hlt : n < 2) (shift : ℕ) :
      Option.Rel (Agree (K ∪ {p | (p = .decoder ∨ p = .last) ∧ c.Returns}))
        ((c.moved.testForLoop shift).map Prod.snd) ((d.moved.testForLoop shift).map Prod.snd) := by
    obtain ⟨hc, hd⟩ | ⟨ret, f, hf, hc, hd, -⟩ := h.moved.testForLoop (htotals (by omega)) shift
    · rw [hc, hd]
      exact .none
    · rw [hc, hd]
      exact .some (hstill (hother hn (by omega)) (h.moved.mapStruct hf))
  rw [MixChannel.advance, MixChannel.advance]
  by_cases htoo : c.TooShort
  · rw [if_pos htoo, if_pos ((h.tooShort htotals).mp htoo)]
    exact .some (hstill (fun hr => hr.2.1 htoo) h)
  · rw [if_neg htoo, if_neg fun hd => htoo ((h.tooShort htotals).mpr hd), ← hformat]
    match hn : c.format.toNat with
    | 0 => exact htest hn (by decide) 2
    | 1 => exact htest hn (by decide) 1
    | 2 =>
      have h2 : c.format = 2 := BitVec.eq_of_toNat_eq hn
      obtain ⟨hc, hd⟩ | ⟨ret, f, hf, hc, hd, hret⟩ := h.moved.testForLoop (htotals (by omega)) 3
      · simp only [hc, hd]
        exact .none
      · simp only [hc, hd]
        have hagree := h.moved.mapStruct hf
        refine .some ?_
        change Agree _ ((c.moved.mapStruct f).mapAdpcm (Voice.afterTest env ret))
          ((d.moved.mapStruct f).mapAdpcm (Voice.afterTest env ret))
        by_cases hzero : ret = 0
        · have hreturns : c.Returns := ⟨h2, htoo, hret.mp hzero⟩
          have hafter (e : MixChannel) : e.mapAdpcm (Voice.afterTest env ret) =
              e.mapAdpcm (AdpcmChannel.restart env) := by
            rw [hzero]
            rfl
          rw [hafter, hafter]
          exact (hagree.restart (hloop hreturns)).mono fun p hp => hp.imp_right And.left
        · have hreturns : ¬ c.Returns := fun hr => hzero (hret.mpr hr.2.2)
          by_cases hone : ret = 1
          · have hafter (e : MixChannel) : e.mapAdpcm (Voice.afterTest env ret) =
                e.mapStruct ChannelStruct.keyOff := by
              rw [hone]
              rfl
            rw [hafter, hafter]
            exact hstill hreturns (hagree.mapStruct keeps_keyOff)
          · have hafter (e : MixChannel) : e.mapAdpcm (Voice.afterTest env ret) = e := by
              rw [mapAdpcm, Voice.afterTest, if_neg hzero, if_neg hone]
            rw [hafter, hafter]
            exact hstill hreturns hagree
    | 3 => exact .some (hstill (hother hn (by decide)) h.moved)
    | n + 4 => exact .some (hstill (hother hn (by omega)) h.moved)

/-- A round that is heard changes nothing but the hidden part. -/
structure SameOpen (c c' : MixChannel) : Prop where
  plain : c'.plain = c.plain
  totlength : c'.totlength = c.totlength
  shifted : c'.doubleTotlengthShifted = c.doubleTotlengthShifted

theorem fetchPSG_open (num : Fin 16) (c : MixChannel) : SameOpen c (c.fetchPSG num).2 := by
  rw [MixChannel.fetchPSG]
  split_ifs
  · exact ⟨rfl, rfl, rfl⟩
  · exact ⟨rfl, rfl, rfl⟩
  · rw [MixChannel.fetchPSGData]
    split_ifs
    · exact ⟨rfl, rfl, rfl⟩
    · rw [iterate_noiseStep_rest]
      exact ⟨rfl, rfl, rfl⟩

theorem fetch_open {data : BitVec 32} {c' : MixChannel} (h : c.fetch env num = some (data, c')) :
    SameOpen c c' := by
  have hsame {x : BitVec 32 × MixChannel} (hx : some x = some (data, c')) (hopen : SameOpen c x.2) :
      SameOpen c c' := by
    rwa [Option.some.inj hx] at hopen
  rw [MixChannel.fetch] at h
  split_ifs at h
  · exact hsame h ⟨rfl, rfl, rfl⟩
  · revert h
    generalize c.format.toNat = n
    intro h
    match n with
    | 0 => exact hsame h ⟨rfl, rfl, rfl⟩
    | 1 => exact hsame h ⟨rfl, rfl, rfl⟩
    | 2 =>
      obtain ⟨⟨data', d⟩, hd, hc⟩ := Option.map_eq_some_iff.mp h
      obtain ⟨-, rfl⟩ := Prod.mk.inj hc
      obtain ⟨hplain, htot, hshifted, -⟩ := plain_of_undecoded (undecoded_fetchSample hd)
      exact ⟨hplain, htot, hshifted⟩
    | 3 => exact hsame h (fetchPSG_open num c)
    | _ + 4 => exact hsame h (fetchPSG_open num c)

theorem hear_open {out : Option Sample} {c' : MixChannel}
    (h : c.hear env num actuallyMix = some (out, c')) : SameOpen c c' := by
  rw [MixChannel.hear] at h
  split_ifs at h
  · obtain ⟨⟨data, c₁⟩, hfetch, hc⟩ := Option.map_eq_some_iff.mp h
    obtain ⟨-, rfl⟩ := Prod.mk.inj hc
    exact fetch_open hfetch
  · obtain ⟨-, rfl⟩ := Prod.mk.inj (Option.some.inj h)
    exact ⟨rfl, rfl, rfl⟩

theorem SameOpen.field {β : Type} {c' : MixChannel} (h : SameOpen c c') (f : ChannelStruct ℚ → β)
    (hf : ∀ e, f e.plain = f e) : f c'.toChannelStruct = f c.toChannelStruct := by
  rw [← hf c'.toChannelStruct, h.plain, hf]

/-- Whether a channel goes back depends on its open part. -/
theorem SameOpen.returns_iff {c' : MixChannel} (h : SameOpen c c') : c'.Returns ↔ c.Returns := by
  have hformat : c'.format = c.format := h.field ChannelStruct.format fun _ => rfl
  have hnext : c'.sampcnt + c'.sampinc = c.sampcnt + c.sampinc :=
    h.field (fun e => e.sampcnt + e.sampinc) fun _ => rfl
  have hrepeat : c'.repeatMode = c.repeatMode := h.field ChannelStruct.repeatMode fun _ => rfl
  change c'.format = 2 ∧ ¬ (c'.format = 2 ∧ c'.totlength.toNat < 4) ∧
      c'.doubleTotlengthShifted < c'.sampcnt + c'.sampinc ∧ c'.repeatMode = 1 ↔
    c.format = 2 ∧ ¬ (c.format = 2 ∧ c.totlength.toNat < 4) ∧
      c.doubleTotlengthShifted < c.sampcnt + c.sampinc ∧ c.repeatMode = 1
  rw [hformat, h.totlength, h.shifted, hnext, hrepeat]

/-- The step lemma of the agreement: a round that reads parts in which two channels agree. -/
theorem Agree.round (env : SpuEnv ℚ) (h : Agree K c d) (hreads : ∀ p, c.Reads num actuallyMix p → p ∈ K) :
    Alike (Agree (K ∪ {p | c.RoundSets actuallyMix p})) (c.round env num actuallyMix)
      (d.round env num actuallyMix) := by
  have hhear : Alike _ (c.hear env num actuallyMix) (d.hear env num actuallyMix) :=
    h.hear env (fun hd => ⟨hreads .decoder hd, hreads .last (.inl hd)⟩)
    fun hn => ⟨hreads .generator hn, hreads .noise hn, hreads .last (.inr hn)⟩
  rw [MixChannel.round, MixChannel.round]
  cases hc : c.hear env num actuallyMix with
  | none =>
    rw [hc] at hhear
    generalize d.hear env num actuallyMix = y at hhear
    cases hhear
    exact .none
  | some r =>
    obtain ⟨out, c'⟩ := r
    have hopen := hear_open hc
    have hformat : c'.format = c.format := hopen.field ChannelStruct.format fun _ => rfl
    rw [hc] at hhear
    generalize d.hear env num actuallyMix = y at hhear ⊢
    cases hhear with
    | @some _ b hr =>
      obtain ⟨out', d'⟩ := b
      obtain ⟨rfl, hagree⟩ := hr
      have hnext : Option.Rel _ (c'.advance env) (d'.advance env) := hagree.advance
        (fun hlt => .inl (hreads .totals (show c.format.toNat < 3 from hformat ▸ hlt))) fun hreturns => ?_
      · rw [Option.bind_some, Option.bind_some]
        generalize c'.advance env = x, d'.advance env = y at hnext
        cases hnext with
        | none => exact .none
        | some hnext =>
          refine alike_some rfl (hnext.mono fun p hp => ?_)
          rcases hp with hp | hp
          · exact .inl (.inl hp)
          · cases p with
            | decoder => exact .inr ⟨.inl rfl, hopen.returns_iff.mpr hp⟩
            | last => exact .inr ⟨.inr rfl, hopen.returns_iff.mpr hp⟩
            | loop => exact .inl (.inr ⟨rfl, hp⟩)
            | totals => exact hp.elim
            | generator => exact hp.elim
            | noise => exact hp.elim
      · by_cases hsnag : c.Decodes actuallyMix ∧ c.Snags
        · exact .inr ⟨rfl, hsnag⟩
        · exact .inl (hreads .loop ⟨hopen.returns_iff.mp hreturns, hsnag⟩)

/-- The key probe starts the channel. -/
def ProbeStarts (masteren : BitVec 8) (c : MixChannel) : Prop :=
  c.status = chanstatStopped ∧ c.keyon ≠ 0 ∧ masteren ≠ 0

instance (masteren : BitVec 8) : Decidable (c.ProbeStarts masteren) := inferInstanceAs (Decidable (_ ∧ _))

/-- What the key probe makes of two channels. -/
theorem Agree.keyProbe (env : SpuEnv ℚ) (h : Agree K c d) (masteren : BitVec 8) :
    Agree (K ∪ {p | c.ProbeStarts masteren ∧ KeyOnSets c.format p})
      (c.mapStruct (ChannelStruct.keyProbe env masteren))
      (d.mapStruct (ChannelStruct.keyProbe env masteren)) := by
  have hstatus : c.status = d.status := h.field ChannelStruct.status fun _ => rfl
  have hkeyon : c.keyon = d.keyon := h.field ChannelStruct.keyon fun _ => rfl
  by_cases hstarts : c.ProbeStarts masteren
  · obtain ⟨hstopped, hkey⟩ := hstarts
    have hprobe := keyProbe_stopped env c.toChannelStruct masteren hstopped
    have hprobe' := keyProbe_stopped env d.toChannelStruct masteren (hstatus.symm.trans hstopped)
    rw [if_pos hkey] at hprobe
    rw [if_pos (hkeyon ▸ hkey)] at hprobe'
    rw [MixChannel.mapStruct, MixChannel.mapStruct, hprobe, hprobe']
    exact h.keyOn.mono fun p hp => hp.imp_right And.right
  · -- the probe stops both or leaves both
    obtain ⟨f, hf, hc, hd⟩ : ∃ f, Keeps f ∧ c.toChannelStruct.keyProbe env masteren = f c.toChannelStruct ∧
        d.toChannelStruct.keyProbe env masteren = f d.toChannelStruct := by
      rw [ChannelStruct.keyProbe, ChannelStruct.keyProbe, ← hstatus, ← hkeyon]
      split_ifs with hstopped hkey
      · exact absurd ⟨hstopped, hkey⟩ hstarts
      · exact ⟨id, keeps_id, rfl, rfl⟩
      · exact ⟨ChannelStruct.keyOff, keeps_keyOff, rfl, rfl⟩
      · exact ⟨id, keeps_id, rfl, rfl⟩
      · exact ⟨id, keeps_id, rfl, rfl⟩
    rw [MixChannel.mapStruct, MixChannel.mapStruct, hc, hd]
    exact (h.mapStruct hf).mono fun p hp => hp.resolve_right fun hs => hstarts hs.1

theorem keyProbe_format (env : SpuEnv ℚ) (masteren : BitVec 8) (c : ChannelStruct ℚ) :
    (c.keyProbe env masteren).format = c.format := by
  rw [ChannelStruct.keyProbe]
  split_ifs
  · exact keyOn_format env c
  · rfl
  · rfl
  · rfl
  · rfl

theorem Agree.write {masteren : BitVec 8} {start : Prop} {w : ChannelStruct ℚ → ChannelStruct ℚ}
    (h : Agree K c d) (hw : Writes env masteren start w) :
    Agree (K ∪ {p | (c.status = chanstatStopped ∧ start ∧ masteren ≠ 0) ∧
      KeyOnSets (w c.toChannelStruct).format p}) (c.mapStruct w) (d.mapStruct w) := by
  cases hw with
  | fields hkeeps hstart =>
    exact (h.mapStruct hkeeps).mono fun p hp => hp.resolve_right fun hs => hstart hs.1.2.1
  | probe r hr hwrite hstatus hkeyon =>
    have hprobe := (h.mapStruct hr).keyProbe env masteren
    have hmap (e : MixChannel) :
        e.mapStruct w = (e.mapStruct r).mapStruct (ChannelStruct.keyProbe env masteren) := by
      rw [MixChannel.mapStruct, hwrite]
      rfl
    rw [hmap, hmap, hwrite, keyProbe_format]
    refine hprobe.mono fun p hp => hp.imp_right fun hs => ⟨⟨?_, ?_, hs.1.2.2⟩, hs.2⟩
    · exact (hstatus c.toChannelStruct).trans hs.1.1
    · exact (hkeyon c.toChannelStruct).mpr hs.1.2.1

end MixChannel

/-! ### Two runs -/

namespace ChannelState
open MixChannel

variable {K : Set Part} {num : Fin 16} {s t : ChannelState} {o : ChannelOp}

/-- Two channels that agree in the parts `K`, under the same master enable and with the same memory. -/
structure Agree (K : Set Part) (s t : ChannelState) : Prop where
  chan : s.chan.Agree K t.chan
  masteren : s.masteren = t.masteren
  bus : s.bus = t.bus

/-- The operation runs `KeyOn` for the channel. -/
def KeysOn (s : ChannelState) (o : ChannelOp) : Prop :=
  s.chan.status = chanstatStopped ∧
    match o with
    | .master masteren => s.chan.keyon ≠ 0 ∧ masteren ≠ 0
    | o => o.StartBit ∧ s.masteren ≠ 0

/-- The parts that an operation reads. -/
def Reads (num : Fin 16) (s : ChannelState) : ChannelOp → Part → Prop
  | .round actuallyMix, p => s.Sounding ∧ s.chan.Reads num actuallyMix p
  | _, _ => False

/-- The parts that an operation sets anew. -/
def Sets (s : ChannelState) (o : ChannelOp) (s' : ChannelState) (p : Part) : Prop :=
  s.KeysOn o ∧ KeyOnSets s'.chan.format p ∨
    ∃ actuallyMix, o = .round actuallyMix ∧ s.Sounding ∧ s.chan.RoundSets actuallyMix p

/-- The parts that are known after an operation. -/
def learn (K : Set Part) (s : ChannelState) (o : ChannelOp) (s' : ChannelState) : Set Part :=
  K ∪ {p | s.Sets o s' p}

/-- Each operation of the run reads only parts that are in `K` or have been set before. -/
def ReadsKnown (num : Fin 16) (K : Set Part) (s : ChannelState) (ops : List ChannelOp) : Prop :=
  AtEachM (nextM (tracked (step num) learn)) (fun x o => ∀ p, x.1.Reads num o p → p ∈ x.2) (s, K) ops

theorem Agree.sounding_iff (h : Agree K s t) : s.Sounding ↔ t.Sounding := by
  have hstatus : s.chan.status = t.chan.status := h.chan.field ChannelStruct.status fun _ => rfl
  rw [Sounding, Sounding, h.masteren, hstatus]

theorem Agree.write {start : Prop} {w : ChannelStruct ℚ → ChannelStruct ℚ} (h : Agree K s t)
    (hw : ChannelStruct.Writes s.bus.env s.masteren start w) (hround : ∀ mix, o ≠ .round mix)
    (hkeys : s.KeysOn o → s.chan.status = chanstatStopped ∧ start ∧ s.masteren ≠ 0) :
    Agree (learn K s o (s.write w)) (s.write w) (t.write w) := by
  refine ⟨(h.chan.write hw).mono fun p hp => hp.imp_right fun hs => ?_, h.masteren, h.bus⟩
  rcases hs with ⟨hs, hp⟩ | ⟨mix, ho, -⟩
  · exact ⟨hkeys hs, hp⟩
  · exact absurd ho (hround mix)

/-- The step lemma for every operation. -/
theorem Agree.step (h : Agree K s t) (hreads : ∀ p, s.Reads num o p → p ∈ K) :
    Alike (fun s' t' => Agree (learn K s o s') s' t') (step num s o) (step num t o) := by
  cases o with
  | writeByte reg val =>
    have hagree := h.write (o := .writeByte reg val) (ChannelStruct.writes_byte s.bus.env s.masteren reg val)
      (fun _ ho => ChannelOp.noConfusion ho) fun hk => ⟨hk.1, hk.2.1, hk.2.2⟩
    rw [ChannelState.step, ChannelState.step, ← h.bus, ← h.masteren]
    exact alike_some rfl hagree
  | writeWord reg val =>
    have hagree := h.write (o := .writeWord reg val) (ChannelStruct.writes_word s.bus.env s.masteren reg val)
      (fun _ ho => ChannelOp.noConfusion ho) fun hk => ⟨hk.1, hk.2.1, hk.2.2⟩
    rw [ChannelState.step, ChannelState.step, ← h.bus, ← h.masteren]
    exact alike_some rfl hagree
  | writeLong reg val =>
    have hagree := h.write (o := .writeLong reg val) (ChannelStruct.writes_long s.bus.env s.masteren reg val)
      (fun _ ho => ChannelOp.noConfusion ho) fun hk => ⟨hk.1, hk.2.1, hk.2.2⟩
    rw [ChannelState.step, ChannelState.step, ← h.bus, ← h.masteren]
    exact alike_some rfl hagree
  | master masteren =>
    have hprobe := h.chan.keyProbe s.bus.env masteren
    rw [ChannelState.step, ChannelState.step, ← h.bus]
    refine alike_some rfl ⟨hprobe.mono fun p hp => hp.imp_right fun hs => ?_, rfl, h.bus⟩
    rcases hs with ⟨hs, hp⟩ | ⟨mix, ho, -⟩
    · refine ⟨⟨hs.1, hs.2⟩, ?_⟩
      rwa [← keyProbe_format s.bus.env masteren s.chan.toChannelStruct]
    · exact ChannelOp.noConfusion ho
  | memory bus =>
    refine alike_some rfl ⟨h.chan.mono fun p hp => hp.resolve_right fun hs => ?_, h.masteren, rfl⟩
    rcases hs with ⟨hs, -⟩ | ⟨mix, ho, -⟩
    · exact hs.2.1
    · exact ChannelOp.noConfusion ho
  | round actuallyMix =>
    rw [ChannelState.step, ChannelState.step]
    by_cases hsounding : s.Sounding
    · have hround : Alike _ (s.chan.round s.bus.env num actuallyMix) (t.chan.round s.bus.env num actuallyMix) :=
        h.chan.round s.bus.env fun p hp => hreads p ⟨hsounding, hp⟩
      rw [if_pos hsounding, if_pos (h.sounding_iff.mp hsounding), ← h.bus, Option.map_eq_bind,
        Option.map_eq_bind]
      refine hround.bind fun out c' d' hagree => alike_some rfl ⟨hagree.mono fun p hp => ?_, h.masteren, rfl⟩
      refine hp.imp_right fun hs => ?_
      rcases hs with ⟨hs, -⟩ | ⟨mix, ho, -, hset⟩
      · exact hs.2.1.elim
      · obtain rfl := ChannelOp.round.inj ho
        exact hset
    · rw [if_neg hsounding, if_neg fun ht => hsounding (h.sounding_iff.mpr ht)]
      refine alike_some rfl ⟨h.chan.mono fun p hp => hp.resolve_right fun hs => ?_, h.masteren, h.bus⟩
      rcases hs with ⟨hs, -⟩ | ⟨mix, -, hs, -⟩
      · exact hs.2.1
      · exact hsounding hs

/-- The run rule: two channels that agree in what is read put out the same. -/
theorem Agree.outputs_eq (h : Agree K s t) {ops : List ChannelOp} (hops : ReadsKnown num K s ops) :
    outputs (ChannelState.step num) s ops = outputs (ChannelState.step num) t ops :=
  outputs_eq_of_tracked (R := fun K s t => Agree K s t)
    (P := fun K s o => ∀ p, s.Reads num o p → p ∈ K) (fun _ _ _ _ => Agree.step) h hops

/-- Nothing is unknown where all parts are known. -/
theorem readsKnown_of_all (hK : ∀ p, p ∈ K) (s : ChannelState) (ops : List ChannelOp) :
    ReadsKnown num K s ops := by
  refine @atEachM_of_invariant _ _ (fun x => ∀ p, p ∈ x.2) _ _ (fun x o hx p _ => hx p)
    (fun x o x' hx hstep p => ?_) _ hK ops
  obtain ⟨⟨out, x'⟩, hr, rfl⟩ := Option.map_eq_some_iff.mp hstep
  obtain ⟨r, -, hr⟩ := Option.map_eq_some_iff.mp hr
  obtain rfl := (Prod.mk.inj hr).2
  exact .inl (hx p)

end ChannelState

end Desmume.Sound
