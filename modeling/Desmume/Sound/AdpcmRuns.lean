import Desmume.Sound.AdpcmDecoding
import Mathlib.Tactic.Linarith

/-! Runs of the mixing loop over an ADPCM channel: which nibbles its decoder has taken where the
position has got to, and that its row stays within the tables. -/

namespace Desmume.Sound
open Library AdpcmChannel

/-! ### Going back in the data -/

namespace AdpcmChannel

variable {c : AdpcmChannel} {shift : ℕ}

theorem iterate_sub (d x : ℚ) (n : ℕ) : (fun y => y - d)^[n] x = x - n * d := by
  induction n with
  | zero => simp
  | succ n ih =>
    rw [Function.iterate_succ_apply', ih]
    push_cast
    ring

/-- The loop of `TestForLoop` has the rounds that it needs if it ends at all. -/
theorem exists_wrapPosition_iff :
    (∃ x, c.wrapPosition shift = some x) ↔
      Terminates (fun x => c.doubleTotlengthShifted < x) (fun x => x - c.loopLength shift)
        c.sampcnt := by
  constructor
  · rintro ⟨x, hx⟩
    exact ⟨_, x, hx⟩
  · intro h
    rcases lt_or_ge 0 (c.loopLength shift) with hpos | hneg
    · refine runWhile_of_measure
        (fun x => ⌈(x - c.doubleTotlengthShifted) / c.loopLength shift⌉₊) (fun x hx => ?_) (Nat.le_refl _)
      have hquot : 0 < (x - c.doubleTotlengthShifted) / c.loopLength shift :=
        div_pos (sub_pos.mpr hx) hpos
      have hround : (x - c.loopLength shift - c.doubleTotlengthShifted) / c.loopLength shift =
          (x - c.doubleTotlengthShifted) / c.loopLength shift - 1 := by
        rw [sub_right_comm, sub_div, div_self hpos.ne']
      have hceil := Nat.ceil_pos.mpr hquot
      rw [hround, Nat.ceil_sub_one]
      omega
    · -- the position does not come down
      obtain ⟨n, hn⟩ := terminates_iff_exists.mp h
      rw [iterate_sub] at hn
      have hrise : (n : ℚ) * c.loopLength shift ≤ 0 :=
        mul_nonpos_of_nonneg_of_nonpos (Nat.cast_nonneg n) hneg
      have hstop : ¬ c.doubleTotlengthShifted < c.sampcnt := by
        intro hlt
        exact hn (by linarith)
      exact ⟨c.sampcnt, by
        rw [wrapPosition]
        cases ⌈(c.sampcnt - c.doubleTotlengthShifted) / c.loopLength shift⌉₊ <;> exact if_neg hstop⟩

/-- Where the channel goes back to is not behind the end. -/
theorem wrapPosition_le {x : ℚ} (h : c.wrapPosition shift = some x) :
    x ≤ c.doubleTotlengthShifted := by
  obtain ⟨-, -, hstop, -⟩ := runWhile_eq_some h
  exact not_lt.mp hstop

end AdpcmChannel

namespace Voice

variable {env : SpuEnv ℚ} {v v' : Voice}

/-! ### What a round does -/

/-- The next move of the position goes back in the data. -/
def Loops (v : Voice) : Prop :=
  4 ≤ v.chan.totlength.toNat ∧ v.chan.doubleTotlengthShifted < v.chan.sampcnt + v.chan.sampinc ∧
    v.chan.repeatMode = 1

instance (v : Voice) : Decidable v.Loops := inferInstanceAs (Decidable (_ ∧ _ ∧ _))

variable (env) in
/-- What moving the position does. -/
inductive Advanced (v : Voice) : Voice → Prop
  | short : Advanced v v
  | on (h : v.chan.sampcnt + v.chan.sampinc ≤ v.chan.doubleTotlengthShifted) :
    Advanced v ⟨v.buf, { v.chan with sampcnt := v.chan.sampcnt + v.chan.sampinc }⟩
  | stop : Advanced v ⟨{ v.buf with bufpos := v.buf.buflength },
    { v.chan with sampcnt := v.chan.sampcnt + v.chan.sampinc, status := chanstatStopped }⟩
  | loop (h : v.Loops) (x : ℚ) : Advanced v ⟨v.buf, { v.chan with sampcnt := x }.restart env⟩

theorem advance_cases (h : v.advance env = some v') : Advanced env v v' := by
  rw [advance] at h
  split_ifs at h with hshort
  · obtain rfl := Option.some.inj h
    exact .short
  · obtain ⟨⟨ret, w⟩, htest, rfl⟩ := Option.map_eq_some_iff.mp h
    rw [testForLoop] at htest
    split_ifs at htest with hend hrepeat
    · obtain ⟨x, -, hx⟩ := Option.map_eq_some_iff.mp htest
      obtain ⟨rfl, rfl⟩ := Prod.mk.inj hx
      exact .loop ⟨not_lt.mp hshort, hend, hrepeat⟩ x
    · obtain ⟨rfl, rfl⟩ := Prod.mk.inj (Option.some.inj htest)
      exact .stop
    · obtain ⟨rfl, rfl⟩ := Prod.mk.inj (Option.some.inj htest)
      exact .on (not_lt.mp hend)

theorem exists_advance (h : ¬ v.Loops) : ∃ v', v.advance env = some v' := by
  rw [advance]
  split_ifs with hshort
  · exact ⟨v, rfl⟩
  · rw [testForLoop]
    split_ifs with hend hrepeat
    · exact absurd ⟨not_lt.mp hshort, hend, hrepeat⟩ h
    · exact ⟨_, rfl⟩
    · exact ⟨_, rfl⟩

theorem hear_of_fetchSample {channels : Channels} {data : BitVec 32} {c : AdpcmChannel}
    (hch : channels ≠ .silent) (h : v.chan.fetchSample env = some (data, c)) :
    ∃ buf, v.hear env channels = some ⟨buf, c⟩ := by
  rw [hear, if_neg hch, h]
  exact ⟨_, rfl⟩

theorem round_eq_some {channels : Channels} (h : v.round env channels = some v') :
    ∃ w w', v.hear env channels = some w ∧ w.advance env = some w' ∧
      v' = { w' with buf := { w'.buf with bufpos := w'.buf.bufpos + 1 } } := by
  obtain ⟨w, hw, h⟩ := Option.bind_eq_some_iff.mp h
  obtain ⟨w', hw', h⟩ := Option.bind_eq_some_iff.mp h
  exact ⟨w, w', hw, hw', (Option.some.inj h).symm⟩

theorem exists_round {channels : Channels} {w w' : Voice} (hw : v.hear env channels = some w)
    (hw' : w.advance env = some w') :
    ∃ v', v.round env channels = some v' ∧ v'.chan = w'.chan := by
  refine ⟨{ w' with buf := { w'.buf with bufpos := w'.buf.bufpos + 1 } }, ?_, rfl⟩
  rw [round, hw, Option.bind_eq_bind, Option.bind_some, hw']
  rfl

/-! ### The mixing loop as steps -/

theorem bufpos_mix (channels : Channels) (pan : BitVec 8) (data : BitVec 32) (b : MixBuffer) :
    (b.mix channels pan data).bufpos = b.bufpos ∧
      (b.mix channels pan data).buflength = b.buflength := by
  cases channels <;> exact ⟨rfl, rfl⟩

theorem hear_keeps {channels : Channels} (h : v.hear env channels = some v') :
    v'.chan.undecoded = v.chan.undecoded ∧ v'.buf.bufpos = v.buf.bufpos ∧
      v'.buf.buflength = v.buf.buflength := by
  rw [hear] at h
  split_ifs at h
  · obtain rfl := Option.some.inj h
    exact ⟨rfl, rfl, rfl⟩
  · obtain ⟨⟨data, c⟩, hfetch, h⟩ := Option.bind_eq_some_iff.mp h
    obtain rfl := Option.some.inj h
    exact ⟨undecoded_fetchSample hfetch, bufpos_mix ..⟩

theorem pan_restart (c : AdpcmChannel) : (c.restart env).pan = c.pan := by
  rw [restart]
  split_ifs <;> rfl

theorem status_restart (c : AdpcmChannel) : (c.restart env).status = c.status := by
  rw [restart]
  split_ifs <;> rfl

/-- A round keeps the channel's panning, and it moves on in the buffer or stops there. -/
theorem round_keeps {channels : Channels} (h : v.round env channels = some v') :
    v'.chan.pan = v.chan.pan ∧ v'.buf.buflength = v.buf.buflength ∧
      (v'.chan.status = v.chan.status ∧ v'.buf.bufpos = v.buf.bufpos + 1 ∨
        v'.buf.buflength ≤ v'.buf.bufpos) := by
  obtain ⟨w, w', hhear, hadv, rfl⟩ := round_eq_some h
  obtain ⟨hsame, hbufpos, hbuflength⟩ := hear_keeps hhear
  have hpan : w.chan.pan = v.chan.pan := eq_of_undecoded hsame (fun d => d.pan) fun _ => rfl
  have hstatus : w.chan.status = v.chan.status :=
    eq_of_undecoded hsame (fun d => d.status) fun _ => rfl
  rw [← hpan, ← hstatus, ← hbufpos, ← hbuflength]
  cases advance_cases hadv with
  | short => exact ⟨rfl, rfl, .inl ⟨rfl, rfl⟩⟩
  | on => exact ⟨rfl, rfl, .inl ⟨rfl, rfl⟩⟩
  | stop => exact ⟨rfl, rfl, .inr (Nat.le_succ _)⟩
  | loop => exact ⟨pan_restart _, rfl, .inl ⟨status_restart _, rfl⟩⟩

theorem runM_mix_of_full (h : v.buf.buflength ≤ v.buf.bufpos) (actuallyMix : Bool) (n : ℕ) :
    runM (step env) v (List.replicate n (.mix actuallyMix)) = some v := by
  induction n with
  | zero => rfl
  | succ n ih =>
    have hstay : v.step env (.mix actuallyMix) = some v := if_neg fun hmix => not_lt.mpr h hmix.2
    rw [List.replicate_succ, runM_cons, hstay]
    exact ih

theorem rounds_of_full (h : v.buf.buflength ≤ v.buf.bufpos) (channels : Channels) (n : ℕ) :
    v.rounds env channels n = some v := by
  cases n with
  | zero => rfl
  | succ n => exact if_neg (not_lt.mpr h)

/-- The loop over the buffer of a channel that plays is a run of the steps. -/
theorem chanUpdate_eq_runM (h : v.chan.status = chanstatPlay) (actuallyMix : Bool) :
    v.chanUpdate env actuallyMix =
      runM (step env) v
        (List.replicate (v.buf.buflength - v.buf.bufpos) (.mix actuallyMix)) := by
  rw [chanUpdate]
  generalize v.buf.buflength - v.buf.bufpos = n
  induction n generalizing v with
  | zero => rfl
  | succ n ih =>
    rw [List.replicate_succ, runM_cons]
    by_cases hfull : v.buf.bufpos < v.buf.buflength
    · have hstep : v.step env (.mix actuallyMix) =
        v.round env (channelsFor actuallyMix v.chan.pan) := if_pos ⟨h, hfull⟩
      rw [rounds, if_pos hfull, hstep]
      refine Option.bind_congr fun v₁ h₁ => ?_
      obtain ⟨hpan, -, ⟨hstatus, -⟩ | hend⟩ := round_keeps h₁
      · rw [← hpan]
        exact ih (hstatus.trans h)
      · rw [rounds_of_full hend, runM_mix_of_full hend]
    · have hstay : v.step env (.mix actuallyMix) = some v := if_neg fun hmix => hfull hmix.2
      rw [hstay, rounds_of_full (not_lt.mp hfull)]
      exact (runM_mix_of_full (not_lt.mp hfull) actuallyMix n).symm

/-! ### The decoder's row stays within the tables -/

variable (env) in
/-- The rows that the decoder is on or may go back to are within the tables. -/
structure WithinTables (c : AdpcmChannel) : Prop where
  header : (env.read08 (c.addr + 2) &&& 0x7F).toNat ≤ 88
  index : c.index.toNat ≤ 88
  kept : c.LoopKept

theorem WithinTables.standsAt {c : AdpcmChannel} (h : WithinTables env c) :
    c.StandsAt ⟨c.pcm16b, c.index.toNat, h.index⟩ := ⟨rfl, rfl⟩

theorem WithinTables.decoded {c c' : AdpcmChannel} (h : WithinTables env c) {s : AdpcmSample}
    (hdec : c.Decoded c' s) : WithinTables env c' := by
  refine ⟨?_, hdec.stands.index.trans_le s.index_le, hdec.kept h.kept⟩
  rw [hdec.eq_of (fun d => d.addr) fun _ => rfl]
  exact h.header

theorem WithinTables.restart {c : AdpcmChannel} (h : WithinTables env c) :
    WithinTables env (c.restart env) := by
  rw [AdpcmChannel.restart]
  split_ifs with hloop
  · refine ⟨h.header, ?_, h.kept⟩
    exact (BitVec.toNat_setWidth_of_le (by decide)).trans_le h.header
  · exact ⟨h.header, h.kept.resolve_left hloop, h.kept⟩

theorem WithinTables.advanced (h : WithinTables env v.chan) (hadv : Advanced env v v') :
    WithinTables env v'.chan := by
  cases hadv with
  | short => exact h
  | on => exact ⟨h.header, h.index, h.kept⟩
  | stop => exact ⟨h.header, h.index, h.kept⟩
  | loop _ x => exact WithinTables.restart (c := { v.chan with sampcnt := x }) ⟨h.header, h.index, h.kept⟩

theorem WithinTables.fetchSample (h : WithinTables env v.chan) :
    ∃ data c, v.chan.fetchSample env = some (data, c) ∧ WithinTables env c := by
  obtain ⟨data, c, s, hfetch, hdec⟩ := v.chan.fetchSample_decoded env h.standsAt
  exact ⟨data, c, hfetch, h.decoded hdec⟩

theorem WithinTables.hear (h : WithinTables env v.chan) {channels : Channels}
    (hhear : v.hear env channels = some v') : WithinTables env v'.chan := by
  by_cases hch : channels = .silent
  · rw [hch] at hhear
    obtain rfl := Option.some.inj hhear
    exact h
  · obtain ⟨data, c, hfetch, hc⟩ := h.fetchSample
    obtain ⟨buf, hbuf⟩ := hear_of_fetchSample hch hfetch
    obtain rfl := Option.some.inj (hbuf.symm.trans hhear)
    exact hc

theorem WithinTables.step (h : WithinTables env v.chan) {op : MixStep}
    (hstep : v.step env op = some v') : WithinTables env v'.chan := by
  cases op with
  | setTimer timer =>
    obtain rfl := Option.some.inj hstep
    exact ⟨h.header, h.index, h.kept⟩
  | setBuffer buf =>
    obtain rfl := Option.some.inj hstep
    exact h
  | mix actuallyMix =>
    rw [Voice.step] at hstep
    split_ifs at hstep
    · obtain ⟨w, w', hhear, hadv, rfl⟩ := round_eq_some hstep
      have hkept : WithinTables env w'.chan := (h.hear hhear).advanced (advance_cases hadv)
      exact hkept
    · obtain rfl := Option.some.inj hstep
      exact h

/-! ### The nibbles that are decoded -/

/-- The step makes a round that hears a position in the header. -/
def MixesHeader (v : Voice) : MixStep → Prop
  | .mix true => v.Mixing ∧ 0 ≤ v.chan.sampcnt ∧ v.chan.position < 7
  | _ => False

/-- The step makes a round that goes back in the data. -/
def LoopsAt (v : Voice) : MixStep → Prop
  | .mix _ => v.Mixing ∧ v.Loops
  | _ => False

instance (v : Voice) (op : MixStep) : Decidable (v.MixesHeader op) :=
  match op with
  | .setTimer _ => inferInstanceAs (Decidable False)
  | .setBuffer _ => inferInstanceAs (Decidable False)
  | .mix false => inferInstanceAs (Decidable False)
  | .mix true => inferInstanceAs (Decidable (v.Mixing ∧ 0 ≤ v.chan.sampcnt ∧ v.chan.position < 7))

instance (v : Voice) (op : MixStep) : Decidable (v.LoopsAt op) :=
  match op with
  | .setTimer _ => inferInstanceAs (Decidable False)
  | .setBuffer _ => inferInstanceAs (Decidable False)
  | .mix _ => inferInstanceAs (Decidable (v.Mixing ∧ v.Loops))

variable (env) in
/-- The decoder has taken the nibbles behind `k` up to the last position, from `start` on. -/
structure ReadsFrom (base : BitVec 32) (start : AdpcmSample) (k : ℕ) (c : AdpcmChannel) : Prop where
  source : c.addr = base
  stands : c.StandsAt (decodeNibbles env base (k + 1) (c.lastsampcnt.toNat + 1) start)
  first : k ≤ c.lastsampcnt.toNat
  last : c.lastsampcnt.toNat ≤ max k c.position
  skipped : k = 7 ∨ k < 7 ∧ k ≤ c.position
  sampinc : 0 < c.sampinc
  fits : c.doubleTotlengthShifted + 1 < 2 ^ 32
  inside : c.status = chanstatPlay → c.sampcnt ≤ c.doubleTotlengthShifted

variable {base : BitVec 32} {start : AdpcmSample} {k : ℕ} {c c' : AdpcmChannel}

theorem ReadsFrom.decoded (h : ReadsFrom env base start k c) {j : ℕ} {s : AdpcmSample}
    (hdec : c.Decoded c' s)
    (hs : s = decodeNibbles env base (j + 1) (c.position + 1) start)
    (hlast : c'.lastsampcnt.toNat = c.position) (hj : j = 7 ∧ 7 ≤ c.position ∨ j < 7 ∧ j ≤ c.position) :
    ReadsFrom env base start j c' := by
  have hposition : c'.position = c.position := hdec.eq_of (fun d => d.position) fun _ => rfl
  refine ⟨?_, ?_, ?_, ?_, ?_, ?_, ?_, ?_⟩
  · exact (hdec.eq_of (fun d => d.addr) fun _ => rfl).trans h.source
  · rw [hlast, ← hs]
    exact hdec.stands
  · omega
  · omega
  · omega
  · rw [hdec.eq_of (fun d => d.sampinc) fun _ => rfl]
    exact h.sampinc
  · rw [hdec.eq_of (fun d => d.doubleTotlengthShifted) fun _ => rfl]
    exact h.fits
  · rw [hdec.eq_of (fun d => d.status) fun _ => rfl, hdec.eq_of (fun d => d.sampcnt) fun _ => rfl,
      hdec.eq_of (fun d => d.doubleTotlengthShifted) fun _ => rfl]
    exact h.inside

/-- What a round decodes: behind the header it goes on where it stopped, within the header it starts
over. -/
theorem ReadsFrom.fetch (h : ReadsFrom env base start k c) (hplay : c.status = chanstatPlay)
    (hpos : 0 ≤ c.sampcnt) :
    ∃ c' j, c.fetchSample env = some (c'.pcm16b.signExtend 32, c') ∧ ReadsFrom env base start j c' ∧
      c'.lastsampcnt.toNat = c.position ∧ (7 ≤ c.position → j = k) ∧ (j = 7 ↔ k = 7 ∧ 7 ≤ c.position) := by
  have hinside := h.inside hplay
  have hfits := h.fits
  have hfirst := h.first
  have hlast := h.last
  have hposition : c.position + 1 < 2 ^ 32 := by
    have : (c.position : ℚ) ≤ c.sampcnt := Nat.floor_le hpos
    have : ((c.position + 1 : ℕ) : ℚ) < (2 ^ 32 : ℕ) := by
      push_cast
      linarith
    exact_mod_cast this
  have hk : k ≤ 7 := by
    have := h.skipped
    omega
  obtain ⟨c', hfetch, hdec, hlast'⟩ :=
    c.fetchSample_decodes env h.stands hpos (by linarith) (by omega)
  rw [h.source] at hdec
  by_cases hheader : k = 7 ∧ c.position < 7
  · -- nothing is decoded, but the last position moves into the header
    obtain ⟨rfl, hlow⟩ := hheader
    have hseven : c.lastsampcnt.toNat = 7 := by omega
    have hempty : c.position + 1 ≤ c.lastsampcnt.toNat + 1 := by omega
    rw [decodeNibbles_of_le env base hempty, hseven, decodeNibbles_of_le env base (Nat.le_refl _)] at hdec
    refine ⟨c', c.position, hfetch, h.decoded hdec ?_ hlast' (.inr ⟨hlow, Nat.le_refl _⟩), hlast',
      by omega, by omega⟩
    rw [decodeNibbles_of_le env base (Nat.le_refl _)]
  · have hskipped := h.skipped
    rw [decodeNibbles_decodeNibbles env base (by omega) (by omega)] at hdec
    exact ⟨c', k, hfetch, h.decoded hdec rfl hlast' (by omega), hlast', fun _ => rfl, by omega⟩

theorem ReadsFrom.advanced (h : ReadsFrom env base start k v.chan) (hadv : Advanced env v v')
    (hloop : ¬ v.Loops) : ReadsFrom env base start k v'.chan := by
  have hinc := h.sampinc
  have hmono : v.chan.position ≤ ⌊v.chan.sampcnt + v.chan.sampinc⌋₊ := Nat.floor_mono (by linarith)
  have hlast := h.last.trans (max_le_max_left k hmono)
  obtain ⟨hpcm16b, hindex⟩ := h.stands
  have hskipped : k = 7 ∨ k < 7 ∧ k ≤ ⌊v.chan.sampcnt + v.chan.sampinc⌋₊ :=
    h.skipped.imp_right fun hk => ⟨hk.1, hk.2.trans hmono⟩
  cases hadv with
  | short => exact h
  | on hend => exact ⟨h.source, ⟨hpcm16b, hindex⟩, h.first, hlast, hskipped, hinc, h.fits, fun _ => hend⟩
  | stop =>
    refine ⟨h.source, ⟨hpcm16b, hindex⟩, h.first, hlast, hskipped, hinc, h.fits, fun hplay => ?_⟩
    exact absurd hplay (by decide : chanstatStopped ≠ chanstatPlay)
  | loop hl => exact absurd hl hloop

theorem loops_of_undecoded {w : Voice} (h : w.chan.undecoded = v.chan.undecoded) :
    w.Loops ↔ v.Loops := by
  have heq (d : AdpcmChannel) (b : MixBuffer) : Loops ⟨b, d⟩ = Loops ⟨b, d.undecoded⟩ := rfl
  change Loops ⟨w.buf, w.chan⟩ ↔ Loops ⟨v.buf, v.chan⟩
  rw [heq w.chan, heq v.chan, h]
  rfl

/-- What the part of a round that hears the channel does. -/
theorem ReadsFrom.hear (h : ReadsFrom env base start k v.chan) (hplay : v.chan.status = chanstatPlay)
    (channels : Channels) :
    ∃ w j, v.hear env channels = some w ∧ ReadsFrom env base start j w.chan ∧
      (j = 7 ↔ k = 7 ∧ ¬ (channels ≠ .silent ∧ 0 ≤ v.chan.sampcnt ∧ v.chan.position < 7)) := by
  by_cases hch : channels = .silent
  · rw [hch]
    exact ⟨v, k, rfl, h, by simp⟩
  · by_cases hpos : 0 ≤ v.chan.sampcnt
    · obtain ⟨c, j, hfetch, hreads, -, -, hj⟩ := h.fetch hplay hpos
      obtain ⟨buf, hhear⟩ := hear_of_fetchSample hch hfetch
      refine ⟨⟨buf, c⟩, j, hhear, hreads, ?_⟩
      rw [hj]
      simp only [hch, hpos, ne_eq, not_false_eq_true, true_and, not_lt]
    · have hfetch : v.chan.fetchSample env = some (0, v.chan) := if_pos (not_le.mp hpos)
      obtain ⟨buf, hhear⟩ := hear_of_fetchSample hch hfetch
      exact ⟨⟨buf, v.chan⟩, k, hhear, h, by simp [hpos]⟩

theorem channelsFor_ne_silent (actuallyMix : Bool) (pan : BitVec 8) :
    channelsFor actuallyMix pan ≠ .silent ↔ actuallyMix = true := by
  rw [channelsFor]
  split_ifs <;> simp_all

theorem mixesHeader_mix (actuallyMix : Bool) :
    v.MixesHeader (.mix actuallyMix) ↔
      actuallyMix = true ∧ v.Mixing ∧ 0 ≤ v.chan.sampcnt ∧ v.chan.position < 7 := by
  cases actuallyMix <;> simp [MixesHeader]

theorem ReadsFrom.step (hinc : ∀ t, 0 < env.sampinc t) (h : ReadsFrom env base start k v.chan)
    {op : MixStep} (hloop : ¬ v.LoopsAt op) :
    ∃ v' j, v.step env op = some v' ∧ ReadsFrom env base start j v'.chan ∧
      (j = 7 ↔ k = 7 ∧ ¬ v.MixesHeader op) := by
  cases op with
  | setTimer timer =>
    obtain ⟨hpcm16b, hindex⟩ := h.stands
    exact ⟨_, k, rfl, ⟨h.source, ⟨hpcm16b, hindex⟩, h.first, h.last, h.skipped, hinc timer, h.fits,
      h.inside⟩, by simp [MixesHeader]⟩
  | setBuffer buf => exact ⟨_, k, rfl, h, by simp [MixesHeader]⟩
  | mix actuallyMix =>
    rw [Voice.step]
    by_cases hmix : v.Mixing
    · have hnot : ¬ v.Loops := fun hl => hloop ⟨hmix, hl⟩
      obtain ⟨w, j, hhear, hreads, hj⟩ := h.hear hmix.1 (channelsFor actuallyMix v.chan.pan)
      have hnotw : ¬ w.Loops := (loops_of_undecoded (hear_keeps hhear).1).not.mpr hnot
      obtain ⟨w', hadv⟩ := @exists_advance env w hnotw
      obtain ⟨v', hround, hchan⟩ := exists_round hhear hadv
      rw [if_pos hmix]
      refine ⟨v', j, hround, ?_, ?_⟩
      · rw [hchan]
        exact hreads.advanced (advance_cases hadv) hnotw
      · rw [hj, channelsFor_ne_silent, mixesHeader_mix]
        simp only [hmix, true_and]
    · rw [if_neg hmix]
      refine ⟨v, k, rfl, h, ?_⟩
      rw [mixesHeader_mix]
      simp only [hmix, false_and, and_false, not_false_eq_true, and_true]

/-- In a run that does not loop the decoder takes all nibbles up to the last position, and it takes
none of the header exactly if no round hears a position there. -/
theorem ReadsFrom.run (hinc : ∀ t, 0 < env.sampinc t) {ops : List MixStep}
    (h : ReadsFrom env base start k v.chan)
    (hloop : AtEachM (Voice.step env) (fun v op => ¬ v.LoopsAt op) v ops) :
    ∃ v' j, runM (Voice.step env) v ops = some v' ∧ ReadsFrom env base start j v'.chan ∧
      (j = 7 ↔ k = 7 ∧ AtEachM (Voice.step env) (fun v op => ¬ v.MixesHeader op) v ops) := by
  induction ops generalizing v k with
  | nil => exact ⟨v, k, rfl, h, by simp [AtEachM]⟩
  | cons op ops ih =>
    obtain ⟨v₁, i, hstep, h₁, hi⟩ := h.step hinc hloop.1
    obtain ⟨v', j, hrun, h', hj⟩ := ih h₁ (hloop.2 v₁ hstep)
    refine ⟨v', j, runM_cons_eq_some.mpr ⟨v₁, hstep, hrun⟩, h', ?_⟩
    rw [hj, hi, and_assoc]
    refine and_congr_right fun _ => and_congr_right fun _ => ?_
    rw [hstep]
    simp only [Option.some.injEq, forall_eq']

end Voice

end Desmume.Sound
