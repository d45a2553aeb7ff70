import Desmume.Bios.Ram
import Desmume.Library.Chunks

/-! How the decompression calls put out bytes. They are written one by one or by pairs; either way
what has been written is the part of the output that is flushed. -/

namespace Desmume.Bios
open Library

variable {μ : Type}

/-- What a decompression is about: the memory before it, where it writes, how much, and the output,
which may be longer. -/
structure Expansion where
  memory : Memory
  dest : BitVec 32
  size : ℕ
  output : List (BitVec 8)
  size_le : size ≤ output.length
  size_le_space : size ≤ 2 ^ 32

namespace Expansion

variable (x : Expansion)

/-- The memory in the end. -/
def result : Memory := writeSpan x.memory x.dest (x.output.take x.size)

/-- What the output does not overwrite. -/
def Kept (region : BitVec 32 → Prop) (a : BitVec 32) : Prop :=
  region a ∧ ∀ i < x.size, a ≠ behind x.dest i

end Expansion

/-- So many bytes are flushed at once; the others are in `writeValue`. -/
structure Emitted (x : Expansion) (k : ℕ) (out : List (BitVec 8)) (u : UnComp) (m : Memory) : Prop where
  begins : out <+: x.output
  dest : u.dest = behind x.dest (flushed k out).length
  byteCount : u.byteCount = (pending k out).length
  byteShift : u.byteShift = 8 * (pending k out).length
  writeValue : u.writeValue = BitVec.ofNat 32 (ofLeBytes (pending k out))
  len : u.len + out.length = x.size
  memory : m = writeSpan x.memory x.dest (flushed k out)

/-- The program leaves if the output is complete, and otherwise has put it out so far. -/
def Emits (holds : μ → Memory → Prop) (cpu : Proc → Armcpu) (x : Expansion) {τ : Type}
    (f : Call μ (BitVec 32 ⊕ τ)) (m : Memory) (out : List (BitVec 8)) (Q : τ → Memory → Prop) : Prop :=
  Passes (Looks holds) f (cpu, m) (x.size ≤ out.length) 0 (cpu, x.result)
    fun t y => y.1 = cpu ∧ Q t y.2

namespace Emitted

variable {x : Expansion} {k : ℕ} {out : List (BitVec 8)} {u : UnComp} {m : Memory}
  {region : BitVec 32 → Prop}

theorem start (x : Expansion) (k : ℕ) (source : BitVec 32) :
    Emitted x k [] ⟨source, x.dest, x.size, 0, 0, 0⟩ x.memory := by
  refine ⟨List.nil_prefix, ?_, ?_, ?_, ?_, rfl, ?_⟩
  · rw [flushed_nil]
    exact (behind_zero _).symm
  · rw [pending_nil]
    rfl
  · rw [pending_nil]
    rfl
  · rw [pending_nil]
    rfl
  · rw [flushed_nil]
    rfl

theorem source (h : Emitted x k out u m) (a : BitVec 32) : Emitted x k out { u with source := a } m :=
  ⟨h.begins, h.dest, h.byteCount, h.byteShift, h.writeValue, h.len, h.memory⟩

/-- What is kept is still there. -/
theorem kept (h : Emitted x k out u m) {a : BitVec 32} {bs : List (BitVec 8)}
    (hbs : HoldsSpan (x.Kept region) x.memory a bs) : HoldsSpan region m a bs := by
  intro i hi
  obtain ⟨⟨hregion, hne⟩, hbyte⟩ := hbs i hi
  refine ⟨hregion, ?_⟩
  rw [h.memory, writeSpan_of_forall_ne, hbyte]
  intro j hj
  apply hne
  have hlength := length_flushed_add k out
  have hlen := h.len
  omega

/-- When all is out, the memory is the one that is wanted. -/
theorem memory_eq (h : Emitted x k out u m) (hk : k ∣ x.size) (hout : out.length = x.size) :
    m = x.result := by
  have hall : out = x.output.take x.size := by
    rw [← hout]
    exact List.prefix_iff_eq_take.1 h.begins
  rw [h.memory, flushed_of_dvd (hout ▸ hk), Expansion.result, ← hall]

theorem length_le (h : Emitted x k out u m) : out.length ≤ x.size := by
  have hlen := h.len
  omega

end Emitted

section Put

variable {bus : Bus μ} {p : Proc} {holds : μ → Memory → Prop} {region : BitVec 32 → Prop}
  {cpu : Proc → Armcpu} {x : Expansion} {k : ℕ} {out : List (BitVec 8)} {u : UnComp} {m : Memory}

/-- Each byte is put out behind the others. -/
def Puts (holds : μ → Memory → Prop) (cpu : Proc → Armcpu) (x : Expansion) (k : ℕ)
    (put : UnComp → BitVec 8 → Call μ (BitVec 32 ⊕ UnComp)) : Prop :=
  ∀ {out u m v}, Emitted x k out u m → out.length < x.size → out ++ [v] <+: x.output →
    Emits holds cpu x (put u v) m (out ++ [v])
      fun u' m' => Emitted x k (out ++ [v]) u' m' ∧ u'.source = u.source

/-- The end of putting out a byte. -/
theorem emits_emitted (h : Emitted x k out { u with len := u.len - 1 } m) (hk : k ∣ x.size) :
    Emits holds cpu x (pure u.emitted) m out
      fun u' m' => Emitted x k out u' m' ∧ u'.source = u.source := by
  have hlen := h.len
  change u.len - 1 + out.length = x.size at hlen
  rw [UnComp.emitted]
  split_ifs with hlast
  · refine .inl ⟨by omega, ?_⟩
    rw [← h.memory_eq hk (by omega)]
    exact leads_pure _ _
  · exact .inr ⟨by omega, _, _, leads_pure _ _, rfl, h, rfl⟩

theorem writeSpan_flushed (h : Emitted x k out u m) {bs : List (BitVec 8)}
    (hlength : (flushed k out ++ bs).length ≤ x.size) :
    writeSpan m u.dest bs = writeSpan x.memory x.dest (flushed k out ++ bs) := by
  rw [h.memory, h.dest, writeSpan_writeSpan _ _ _ _ (hlength.trans x.size_le_space)]

theorem spanIn_flushed (hdest : SpanIn region x.dest x.size) (h : Emitted x k out u m) {n : ℕ}
    (hn : (flushed k out).length + n ≤ x.size) : SpanIn region u.dest n := by
  intro i hi
  rw [h.dest, behind_behind]
  exact hdest _ (by omega)

/-- The calls for work memory write each byte at once. -/
theorem puts_putWram (ram : Ram bus p holds region) (hdest : SpanIn region x.dest x.size) :
    Puts holds cpu x 1 (putWram bus p) := by
  intro out u m v h hlt hnext
  have hlen := h.len
  have hnone : pending 1 out = [] := pending_of_dvd (Nat.one_dvd _)
  have hone : (pending 1 out).length + 1 = 1 := by
    rw [hnone]
    rfl
  obtain ⟨hflushed, hpending⟩ := snoc_of_full v hone
  rw [hnone, List.nil_append] at hflushed
  have hall : (flushed 1 out).length = out.length := by
    rw [flushed_of_dvd (Nat.one_dvd _)]
  have hwrite : Leads (Looks holds) (mmuWrite08 bus p u.dest v) (cpu, m) ()
      (cpu, writeSpan m u.dest [v]) := ram.leads_write08 (spanIn_flushed hdest h (by omega)) v
  rw [writeSpan_flushed h (by rw [List.length_append, hall]; exact hlt), ← hflushed] at hwrite
  refine hwrite.bind_passes (emits_emitted ⟨hnext, ?_, ?_, ?_, ?_, ?_, rfl⟩ (Nat.one_dvd _))
  · change u.dest + 1 = _
    rw [hflushed, List.length_append, ← behind_behind, ← h.dest]
    rfl
  · rw [hpending, ← hnone]
    exact h.byteCount
  · rw [hpending, ← hnone]
    exact h.byteShift
  · rw [hpending, ← hnone]
    exact h.writeValue
  · change u.len - 1 + _ = _
    rw [List.length_append, List.length_singleton]
    omega

/-- The calls for video memory write each second byte together with the one before. -/
theorem puts_putVram (ram : Ram bus p holds region) (hdest : SpanIn region x.dest x.size)
    (heven : 2 ∣ x.dest.toNat) (hsize : 2 ∣ x.size) : Puts holds cpu x 2 (putVram bus p) := by
  intro out u m v h hlt hnext
  have hlen := h.len
  have hvalue : u.writeValue ||| v.setWidth 32 <<< u.byteShift =
      BitVec.ofNat 32 (ofLeBytes (pending 2 out ++ [v])) := by
    rw [h.writeValue, h.byteShift, or_byte_shiftLeft]
  have hlength := length_pending 2 out
  have hflush := length_flushed 2 out
  rw [putVram, hvalue]
  split_ifs with hfull
  · rw [h.byteCount] at hfull
    obtain ⟨hflushed, hpending⟩ := snoc_of_full v hfull
    have htwo : (pending 2 out ++ [v]).length = 2 := by
      rw [List.length_append, List.length_singleton, hfull]
    have hbytes : leBytes 2 ((BitVec.ofNat 32 (ofLeBytes (pending 2 out ++ [v]))).setWidth 16).toNat =
        pending 2 out ++ [v] := by
      have hword := ofLeBytes_lt (pending 2 out ++ [v])
      rw [htwo] at hword
      rw [BitVec.toNat_setWidth, BitVec.toNat_ofNat, Nat.mod_eq_of_lt (by omega),
        Nat.mod_eq_of_lt (by omega)]
      have hback := leBytes_ofLeBytes (pending 2 out ++ [v])
      rwa [htwo] at hback
    have haligned : 2 ∣ u.dest.toNat := by
      rw [h.dest, hflush]
      exact even_behind heven (Nat.dvd_mul_right ..)
    have hwrite : Leads (Looks holds) (mmuWrite16 bus p u.dest
        ((BitVec.ofNat 32 (ofLeBytes (pending 2 out ++ [v]))).setWidth 16)) (cpu, m) ()
        (cpu, writeSpan m u.dest (leBytes 2 _)) :=
      ram.leads_write16 haligned (spanIn_flushed hdest h (by omega)) _
    rw [hbytes, writeSpan_flushed h (by rw [List.length_append, htwo]; omega), ← hflushed] at hwrite
    refine hwrite.bind_passes (emits_emitted ⟨hnext, ?_, ?_, ?_, ?_, ?_, rfl⟩ hsize)
    · change u.dest + 2 = _
      rw [hflushed, List.length_append, htwo, ← behind_behind, ← h.dest]
      rfl
    · rw [hpending]
      rfl
    · rw [hpending]
      rfl
    · rw [hpending]
      rfl
    · change u.len - 1 + _ = _
      rw [List.length_append, List.length_singleton]
      omega
  · rw [h.byteCount] at hfull
    obtain ⟨hflushed, hpending⟩ := snoc_of_lt v (show (pending 2 out).length + 1 < 2 by omega)
    refine emits_emitted ⟨hnext, ?_, ?_, ?_, ?_, ?_, ?_⟩ hsize
    · rw [hflushed]
      exact h.dest
    · change u.byteCount + 1 = _
      rw [hpending, h.byteCount, List.length_append, List.length_singleton]
    · change u.byteShift + 8 = _
      rw [hpending, h.byteShift, List.length_append, List.length_singleton, Nat.mul_succ]
    · rw [hpending]
    · change u.len - 1 + _ = _
      rw [List.length_append, List.length_singleton]
      omega
    · rw [hflushed]
      exact h.memory

end Put

section Rules

variable {holds : μ → Memory → Prop} {cpu : Proc → Armcpu} {x : Expansion} {τ τ' α : Type}
  {m m' : Memory} {out out' : List (BitVec 8)} {Q : τ → Memory → Prop} {R : τ' → Memory → Prop}

theorem Emits.mono {f : Call μ (BitVec 32 ⊕ τ)} {Q' : τ → Memory → Prop}
    (h : Emits holds cpu x f m out Q) (hQ : ∀ t m', Q t m' → Q' t m') :
    Emits holds cpu x f m out Q' := by
  rcases h with hdone | ⟨hdone, t, y, hlead, hcpu, hy⟩
  · exact .inl hdone
  · exact .inr ⟨hdone, t, y, hlead, hcpu, hQ t y.2 hy⟩

theorem emits_pure (hlt : out.length < x.size) {t : τ} (hQ : Q t m) :
    Emits holds cpu x (pure (.inr t) : Call μ (BitVec 32 ⊕ τ)) m out Q :=
  .inr ⟨Nat.not_le.2 hlt, t, (cpu, m), leads_pure _ _, rfl, hQ⟩

theorem Emits.bind {f : Call μ (BitVec 32 ⊕ τ)} {k : BitVec 32 ⊕ τ → Call μ (BitVec 32 ⊕ τ')}
    (hf : Emits holds cpu x f m out Q) (hbegins : out <+: out')
    (hleave : k (.inl 0) = pure (.inl 0))
    (hk : out.length < x.size → ∀ t m', Q t m' → Emits holds cpu x (k (.inr t)) m' out' R) :
    Emits holds cpu x (f >>= k) m out' R := by
  refine Passes.bind hf (fun h => h.trans hbegins.length_le) hleave fun hdone t y hy => ?_
  obtain ⟨rfl, hQ⟩ := hy
  exact hk (Nat.lt_of_not_le hdone) t y.2 hQ

theorem leads_bind_emits {f : Call μ α} {k : α → Call μ (BitVec 32 ⊕ τ)} {a : α}
    (hf : Leads (Looks holds) f (cpu, m) a (cpu, m')) (hk : Emits holds cpu x (k a) m' out Q) :
    Emits holds cpu x (f >>= k) m out Q := hf.bind_passes hk

variable {body : τ → Call μ (BitVec 32 ⊕ τ)} {t : τ} {n : ℕ} {R : τ → Memory → Prop}

theorem emits_rounds_zero (hlt : out.length < x.size) (hQ : Q t m) :
    Emits holds cpu x (rounds body 0 t) m out Q := emits_pure hlt hQ

theorem Emits.rounds_succ (hbody : Emits holds cpu x (body t) m out Q) (hbegins : out <+: out')
    (hrest : out.length < x.size → ∀ t m', Q t m' → Emits holds cpu x (rounds body n t) m' out' R) :
    Emits holds cpu x (rounds body (n + 1) t) m out' R :=
  hbody.bind hbegins rfl hrest

theorem Emits.roundsWhile_succ {cont : τ → Prop} [DecidablePred cont] (hcont : cont t)
    (hbody : Emits holds cpu x (body t) m out Q) (hbegins : out <+: out')
    (hrest : out.length < x.size → ∀ t m', Q t m' →
      Emits holds cpu x (roundsWhile cont body n t) m' out' R) :
    Emits holds cpu x (roundsWhile cont body (n + 1) t) m out' R := by
  rw [roundsWhile, if_pos hcont]
  exact hbody.bind hbegins rfl hrest

end Rules

section Source

variable {bus : Bus μ} {p : Proc} {holds : μ → Memory → Prop} {region : BitVec 32 → Prop}
  {cpu : Proc → Armcpu} {x : Expansion} {k : ℕ} {out bs : List (BitVec 8)} {u : UnComp} {m : Memory}
  {a : BitVec 32} {b : BitVec 8} {put : UnComp → BitVec 8 → Call μ (BitVec 32 ⊕ UnComp)}

/-- So far is out, and the source is at `a`. -/
def OutAt (x : Expansion) (k : ℕ) (a : BitVec 32) (out : List (BitVec 8)) (u : UnComp) (m : Memory) :
    Prop := Emitted x k out u m ∧ u.source = a

theorem Emitted.leads_read (h : Emitted x k out u m) (ram : Ram bus p holds region)
    (hb : HoldsSpan (x.Kept region) x.memory a [b]) :
    Leads (Looks holds) (mmuRead08 bus p a) (cpu, m) b (cpu, m) := ram.leads_read08 (h.kept hb)

theorem emits_putSource (ram : Ram bus p holds region) (hput : Puts holds cpu x k put)
    (h : OutAt x k a out u m) (hlt : out.length < x.size)
    (hb : HoldsSpan (x.Kept region) x.memory a [b]) (hout : out ++ [b] <+: x.output) :
    Emits holds cpu x (putSource bus p put u) m (out ++ [b]) (OutAt x k (behind a 1) (out ++ [b])) := by
  obtain ⟨hem, rfl⟩ := h
  exact leads_bind_emits (hem.leads_read ram hb) (hput (hem.source _) hlt hout)

/-- Bytes of the source: all of them, or as many as complete the output. -/
theorem emits_rounds_putSource (ram : Ram bus p holds region) (hput : Puts holds cpu x k put) {n : ℕ}
    (h : OutAt x k a out u m) (hlt : out.length < x.size)
    (hbs : HoldsSpan (x.Kept region) x.memory a bs) (hout : out ++ bs <+: x.output)
    (hn : bs.length = n ∨ bs.length ≤ n ∧ x.size ≤ (out ++ bs).length) :
    Emits holds cpu x (rounds (putSource bus p put) n u) m (out ++ bs)
      (OutAt x k (behind a bs.length) (out ++ bs)) := by
  induction bs generalizing n a out u m with
  | nil =>
    rw [List.append_nil] at hn ⊢
    obtain rfl : n = 0 := by
      rcases hn with hn | hn
      · exact hn.symm
      · omega
    rw [List.length_nil, behind_zero]
    exact emits_rounds_zero hlt h
  | cons b bs ih =>
    obtain ⟨n, rfl⟩ : ∃ n', n = n' + 1 := by
      rw [List.length_cons] at hn
      exact ⟨n - 1, by omega⟩
    have hsplit : out ++ b :: bs = out ++ [b] ++ bs := by simp
    rw [hsplit] at hout hn ⊢
    obtain ⟨hb, hrest⟩ := HoldsSpan.cons_iff.1 hbs
    have hfirst : HoldsSpan (x.Kept region) x.memory a [b] :=
      HoldsSpan.cons_iff.2 ⟨hb, nofun⟩
    have hn' : bs.length = n ∨ bs.length ≤ n ∧ x.size ≤ (out ++ [b] ++ bs).length := by
      rw [List.length_cons] at hn
      omega
    refine Emits.rounds_succ (emits_putSource ram hput h hlt hfirst
      ((List.prefix_append ..).trans hout)) (List.prefix_append ..) fun hlt' u' m' h' => ?_
    have hnext := ih h' hlt' hrest hout hn'
    rw [behind_one_behind] at hnext
    exact hnext

/-- One byte so many times. -/
theorem emits_rounds_put (hput : Puts holds cpu x k put) (n : ℕ) (h : OutAt x k a out u m)
    (hlt : out.length < x.size) (hout : out ++ List.replicate n b <+: x.output) :
    Emits holds cpu x (rounds (fun u => put u b) n u) m (out ++ List.replicate n b)
      (OutAt x k a (out ++ List.replicate n b)) := by
  induction n generalizing out u m with
  | zero =>
    rw [List.replicate_zero, List.append_nil]
    exact emits_rounds_zero hlt h
  | succ n ih =>
    have hsplit : out ++ List.replicate (n + 1) b = out ++ [b] ++ List.replicate n b := by
      rw [List.replicate_succ, List.append_assoc, List.singleton_append]
    rw [hsplit] at hout ⊢
    obtain ⟨hem, rfl⟩ := h
    exact Emits.rounds_succ (hput hem hlt ((List.prefix_append ..).trans hout))
      (List.prefix_append ..) fun hlt' u' m' h' => ih h' hlt' hout

end Source

end Desmume.Bios
