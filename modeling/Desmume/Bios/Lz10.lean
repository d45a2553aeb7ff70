import Desmume.Bios.Emission
import Desmume.Library.CompressedStream

/-! The LZ10 streams of the decompression calls: blocks of up to eight tokens behind a byte of flags. -/

namespace Desmume.Bios
open Library

/-- A byte, or a distance less one with a length less three. -/
inductive Lz10Token where
  | literal (b : BitVec 8)
  | copy (extra : BitVec 4) (offset : BitVec 12)

namespace Lz10Token

def isCopy : Lz10Token → Bool
  | literal _ => false
  | copy _ _ => true

def bytes : Lz10Token → List (BitVec 8)
  | literal b => [b]
  | copy extra offset => [((extra ++ offset) >>> 8).setWidth 8, (extra ++ offset).setWidth 8]

def token : Lz10Token → LzToken (BitVec 8)
  | literal b => .literal b
  | copy extra offset => .copy (offset.toNat + 1) (extra.toNat + 3)

end Lz10Token

/-- The highest flag belongs to the first token. -/
structure Lz10Block where
  flags : BitVec 8
  tokens : List Lz10Token
  length_le : tokens.length ≤ 8
  flags_eq : ∀ i (h : i < tokens.length), flags.getMsbD i = tokens[i].isCopy

def Lz10Block.bytes (block : Lz10Block) : List (BitVec 8) :=
  block.flags :: block.tokens.flatMap Lz10Token.bytes

/-- Only the last block may have less than eight tokens. -/
structure Lz10Stream where
  blocks : List Lz10Block
  full : ∀ block ∈ blocks.dropLast, block.tokens.length = 8

namespace Lz10Stream

variable (stream : Lz10Stream)

def bytes : List (BitVec 8) := stream.blocks.flatMap Lz10Block.bytes

def tokens : List (LzToken (BitVec 8)) :=
  stream.blocks.flatMap fun block => block.tokens.map Lz10Token.token

def expansion : List (BitVec 8) := lzExpand [] stream.tokens

end Lz10Stream

theorem halfword_join (y : BitVec 16) :
    ((y >>> 8).setWidth 8).setWidth 16 <<< 8 ||| (y.setWidth 8).setWidth 16 = y := by
  have hjoin := or_byte_shiftLeft (w := 16) [y.setWidth 8] ((y >>> 8).setWidth 8)
  have hlow : BitVec.ofNat 16 (ofLeBytes [y.setWidth 8]) = (y.setWidth 8).setWidth 16 := by
    apply BitVec.eq_of_toNat_eq
    simp only [ofLeBytes, Nat.mul_zero, Nat.add_zero, BitVec.toNat_ofNat, BitVec.toNat_setWidth]
  have hboth : ofLeBytes [y.setWidth 8, (y >>> 8).setWidth 8] = y.toNat := by
    have hlt := y.isLt
    simp only [ofLeBytes, BitVec.toNat_setWidth, BitVec.toNat_ushiftRight,
      Nat.shiftRight_eq_div_pow]
    omega
  rw [hlow, List.singleton_append, hboth, BitVec.ofNat_toNat, BitVec.setWidth_eq] at hjoin
  rw [BitVec.or_comm]
  exact hjoin

theorem copy_toNat (extra : BitVec 4) (offset : BitVec 12) :
    (extra ++ offset).toNat = 2 ^ 12 * extra.toNat + offset.toNat := by
  rw [BitVec.toNat_append, ← Nat.shiftLeft_add_eq_or_of_lt offset.isLt, Nat.shiftLeft_eq,
    Nat.mul_comm]

theorem copy_length (extra : BitVec 4) (offset : BitVec 12) :
    ((extra ++ offset) >>> 12).toNat + 3 = extra.toNat + 3 := by
  have hlt := offset.isLt
  rw [BitVec.toNat_ushiftRight, copy_toNat, Nat.shiftRight_eq_div_pow]
  omega

theorem copy_offset (extra : BitVec 4) (offset : BitVec 12) :
    (extra ++ offset) &&& 0x0FFF = offset.setWidth 16 := by
  have hlt := offset.isLt
  apply BitVec.eq_of_toNat_eq
  have hmod := Nat.and_two_pow_sub_one_eq_mod (extra ++ offset).toNat 12
  rw [BitVec.toNat_and, BitVec.toNat_setWidth]
  change (extra ++ offset).toNat &&& 2 ^ 12 - 1 = _
  rw [hmod, copy_toNat]
  omega

section Run

variable {μ : Type} {bus : Bus μ} {p : Proc} {holds : μ → Memory → Prop} {region : BitVec 32 → Prop}
  {cpu : Proc → Armcpu} {x : Expansion} {k : ℕ} {out : List (BitVec 8)} {a : BitVec 32} {u : UnComp}
  {m : Memory} {put : UnComp → BitVec 8 → Call μ (BitVec 32 ⊕ UnComp)}

/-- A byte that lies further back than what is pending is in memory. -/
theorem Emitted.leads_window (h : Emitted x k out u m) (ram : Ram bus p holds region)
    (hdest : SpanIn region x.dest x.size) (hlt : out.length < x.size) {d : ℕ} (hk : 0 < k)
    (hreach : k ≤ d) (hd : d ≤ out.length) {b : BitVec 8} (hb : out[out.length - d]? = some b) :
    Leads (Looks holds) (mmuRead08 bus p (behind x.dest (out.length - d))) (cpu, m) b (cpu, m) := by
  have hflushed := length_flushed_add k out
  have hpending := length_pending k out
  have hmod := Nat.mod_lt out.length hk
  have hspace := x.size_le_space
  have hi : out.length - d < (flushed k out).length := by omega
  refine ram.leads_read08 (HoldsSpan.cons_iff.2 ⟨⟨hdest _ (by omega), ?_⟩, nofun⟩)
  rw [h.memory, writeSpan_behind _ _ hi (by omega)]
  rw [← getElem?_flushed hi, List.getElem?_eq_getElem hi, Option.some.injEq] at hb
  exact hb

/-- The address of a window. -/
theorem Emitted.windowOffset (h : Emitted x k out u m) (offset : BitVec 12)
    (hd : offset.toNat + 1 ≤ out.length) :
    u.dest + BitVec.ofNat 32 u.byteCount - ((offset.setWidth 16).setWidth 32) - 1 =
      behind x.dest (out.length - (offset.toNat + 1)) := by
  have hplace : u.dest + BitVec.ofNat 32 u.byteCount = behind x.dest out.length := by
    have hlength := length_flushed_add k out
    rw [h.dest, h.byteCount, ← hlength]
    exact behind_behind ..
  have hoffset : (offset.setWidth 16).setWidth 32 = BitVec.ofNat 32 offset.toNat := by
    apply BitVec.eq_of_toNat_eq
    have hlt := offset.isLt
    rw [BitVec.toNat_setWidth, BitVec.toNat_setWidth, BitVec.toNat_ofNat]
    omega
  obtain ⟨i, hi⟩ := Nat.exists_eq_add_of_le hd
  rw [hplace, hoffset, hi, Nat.add_sub_cancel_left, Nat.add_comm, ← behind_behind, ← behind_behind]
  change behind x.dest i + BitVec.ofNat 32 offset.toNat + 1 - BitVec.ofNat 32 offset.toNat - 1 = _
  rw [BitVec.add_assoc, BitVec.add_comm (BitVec.ofNat 32 offset.toNat), ← BitVec.add_assoc,
    BitVec.add_sub_cancel, BitVec.add_sub_cancel]

/-- A repetition byte by byte, by induction on how many are left; the window moves along. -/
theorem emits_rounds_putWindow (ram : Ram bus p holds region) (hdest : SpanIn region x.dest x.size)
    (hput : Puts holds cpu x k put) (hk : 0 < k) {d : ℕ} (hreach : k ≤ d) (n : ℕ)
    (h : OutAt x k a out u m) (hlt : out.length < x.size) (hd : d ≤ out.length)
    (hout : copyBack d n out <+: x.output) :
    Emits holds cpu x (rounds (putWindow bus p put) n (behind x.dest (out.length - d), u)) m
      (copyBack d n out) fun y m' => OutAt x k a (copyBack d n out) y.2 m' := by
  induction n generalizing out u m with
  | zero => exact emits_rounds_zero hlt h
  | succ n ih =>
    obtain ⟨b, hb⟩ : ∃ b, out[out.length - d]? = some b :=
      ⟨_, List.getElem?_eq_getElem (by omega)⟩
    rw [copyBack, hb, Option.toList_some] at hout ⊢
    obtain ⟨hem, rfl⟩ := h
    have hnext : Emits holds cpu x (putWindow bus p put (behind x.dest (out.length - d), u)) m
        (out ++ [b]) fun y m' => OutAt x k u.source (out ++ [b]) y.2 m' ∧
          y.1 = behind x.dest ((out ++ [b]).length - d) := by
      refine leads_bind_emits (hem.leads_window ram hdest hlt hk hreach hd hb) ?_
      refine (hput hem hlt ((prefix_copyBack ..).trans hout)).bind List.prefix_rfl rfl ?_
      intro hlt' u' m' h'
      refine emits_pure hlt' ⟨h', ?_⟩
      rw [List.length_append, List.length_singleton, Nat.sub_add_comm hd]
      exact behind_behind ..
    refine hnext.rounds_succ (prefix_copyBack ..) ?_
    rintro hlt' ⟨a', u'⟩ m' ⟨h', rfl⟩
    refine ih h' hlt' ?_ hout
    rw [List.length_append]
    exact hd.trans (Nat.le_add_right ..)

/-- One token, behind its flag. -/
theorem emits_lz77Item (ram : Ram bus p holds region) (hdest : SpanIn region x.dest x.size)
    (hput : Puts holds cpu x k put) (hk : 0 < k) {flags : BitVec 8} {t : Lz10Token}
    (hflag : flags.getMsbD 0 = t.isCopy) (ht : t.token.Reaches k out) (h : OutAt x k a out u m)
    (hlt : out.length < x.size) (hbytes : HoldsSpan (x.Kept region) x.memory a t.bytes)
    (hout : t.token.expand out <+: x.output) :
    Emits holds cpu x (lz77Item bus p put (flags, u)) m (t.token.expand out) fun y m' =>
      OutAt x k (behind a t.bytes.length) (t.token.expand out) y.2 m' ∧ y.1 = flags <<< 1 := by
  have hmask : ∀ d : BitVec 8, (d &&& 0x80 ≠ 0) ↔ d.getMsbD 0 = true := by decide
  rw [lz77Item]
  dsimp only
  cases t with
  | literal b =>
    rw [if_neg (by rw [hmask, hflag]; exact Bool.false_ne_true)]
    refine (emits_putSource ram hput h hlt hbytes hout).bind List.prefix_rfl rfl ?_
    intro hlt' u' m' h'
    exact emits_pure hlt' ⟨h', rfl⟩
  | copy extra offset =>
    obtain ⟨hreach, hd⟩ := ht
    rw [if_pos (by rw [hmask, hflag]; rfl)]
    obtain ⟨hem, rfl⟩ := h
    obtain ⟨hhigh, hlow⟩ := HoldsSpan.cons_iff.1 hbytes
    refine leads_bind_emits (hem.leads_read ram (HoldsSpan.cons_iff.2 ⟨hhigh, nofun⟩)) ?_
    refine leads_bind_emits (hem.leads_read ram hlow) ?_
    rw [halfword_join, copy_length, copy_offset, hem.windowOffset offset hd]
    refine (emits_rounds_putWindow ram hdest hput hk hreach (extra.toNat + 3)
      ⟨hem.source (u.source + 2), rfl⟩ hlt hd hout).bind List.prefix_rfl rfl ?_
    intro hlt' y m' h'
    exact emits_pure hlt' ⟨h', rfl⟩

/-- Tokens behind their flags: all of them, or as many as complete the output. -/
theorem emits_rounds_lz77Item (ram : Ram bus p holds region) (hdest : SpanIn region x.dest x.size)
    (hput : Puts holds cpu x k put) (hk : 0 < k) {flags : BitVec 8} {ts : List Lz10Token} {n : ℕ}
    (hflags : ∀ i (h : i < ts.length), flags.getMsbD i = ts[i].isCopy)
    (hts : LzFits k out (ts.map Lz10Token.token)) (h : OutAt x k a out u m)
    (hlt : out.length < x.size)
    (hbytes : HoldsSpan (x.Kept region) x.memory a (ts.flatMap Lz10Token.bytes))
    (hout : lzExpand out (ts.map Lz10Token.token) <+: x.output)
    (hn : ts.length = n ∨
      ts.length ≤ n ∧ x.size ≤ (lzExpand out (ts.map Lz10Token.token)).length) :
    Emits holds cpu x (rounds (lz77Item bus p put) n (flags, u)) m
      (lzExpand out (ts.map Lz10Token.token)) fun y m' =>
        OutAt x k (behind a (ts.flatMap Lz10Token.bytes).length)
          (lzExpand out (ts.map Lz10Token.token)) y.2 m' := by
  induction ts generalizing n a out u m flags with
  | nil =>
    have hzero : n = 0 := by
      rcases hn with hn | hn
      · exact hn.symm
      · exact absurd hn.2 (Nat.not_le.2 hlt)
    subst hzero
    rw [List.flatMap_nil, List.length_nil, behind_zero]
    exact emits_rounds_zero hlt h
  | cons t ts ih =>
    obtain ⟨n, rfl⟩ : ∃ n', n = n' + 1 := by
      rw [List.length_cons] at hn
      exact ⟨n - 1, by omega⟩
    have hn' : ts.length = n ∨ ts.length ≤ n ∧
        x.size ≤ (lzExpand (t.token.expand out) (ts.map Lz10Token.token)).length := by
      rw [List.length_cons] at hn
      rcases hn with hn | hn
      · exact .inl (by omega)
      · exact .inr ⟨by omega, hn.2⟩
    rw [List.flatMap_cons] at hbytes ⊢
    obtain ⟨hfirst, hrest⟩ := HoldsSpan.append_iff.1 hbytes
    have hitem := emits_lz77Item ram hdest hput hk (hflags 0 (Nat.succ_pos _)) hts.1 h hlt hfirst
      ((prefix_lzExpand ..).trans hout)
    refine hitem.rounds_succ (prefix_lzExpand ..) ?_
    rintro hlt' ⟨flags', u'⟩ m' ⟨h', rfl⟩
    have hnext : ∀ i (hi : i < ts.length), (flags <<< 1).getMsbD i = ts[i].isCopy := by
      intro i hi
      rw [BitVec.getMsbD_shiftLeft]
      exact hflags (i + 1) (Nat.succ_lt_succ hi)
    rw [List.length_append, ← behind_behind]
    exact ih hnext hts.2 h' hlt' hrest hout hn'

/-- Tokens without a repetition are the bytes of the source. -/
theorem lzExpand_literals {ts : List Lz10Token} (hts : ∀ t ∈ ts, t.isCopy = false)
    (out : List (BitVec 8)) :
    lzExpand out (ts.map Lz10Token.token) = out ++ ts.flatMap Lz10Token.bytes ∧
      (ts.flatMap Lz10Token.bytes).length = ts.length := by
  induction ts generalizing out with
  | nil => exact ⟨(List.append_nil out).symm, rfl⟩
  | cons t ts ih =>
    cases t with
    | copy extra offset => cases hts _ List.mem_cons_self
    | literal b =>
      obtain ⟨hout, hlength⟩ := ih (fun t ht => hts t (List.mem_cons_of_mem _ ht)) (out ++ [b])
      constructor
      · refine hout.trans ?_
        rw [List.flatMap_cons, Lz10Token.bytes, List.append_assoc]
      · rw [List.flatMap_cons, List.length_append, hlength, List.length_cons, Nat.add_comm]
        rfl

theorem emits_lz77Block (ram : Ram bus p holds region) (hdest : SpanIn region x.dest x.size)
    (hput : Puts holds cpu x k put) (hk : 0 < k) {block : Lz10Block}
    (hts : LzFits k out (block.tokens.map Lz10Token.token)) (h : OutAt x k a out u m)
    (hlt : out.length < x.size) (hbytes : HoldsSpan (x.Kept region) x.memory a block.bytes)
    (hout : lzExpand out (block.tokens.map Lz10Token.token) <+: x.output)
    (hfull : block.tokens.length = 8 ∨
      x.size ≤ (lzExpand out (block.tokens.map Lz10Token.token)).length) :
    Emits holds cpu x (lz77Block bus p put u) m (lzExpand out (block.tokens.map Lz10Token.token))
      (OutAt x k (behind a block.bytes.length)
        (lzExpand out (block.tokens.map Lz10Token.token))) := by
  obtain ⟨hem, rfl⟩ := h
  obtain ⟨hflags, htokens⟩ := HoldsSpan.cons_iff.1 hbytes
  have hn : block.tokens.length = 8 ∨ block.tokens.length ≤ 8 ∧
      x.size ≤ (lzExpand out (block.tokens.map Lz10Token.token)).length :=
    hfull.imp_right fun hsize => ⟨block.length_le, hsize⟩
  refine leads_bind_emits (hem.leads_read ram (HoldsSpan.cons_iff.2 ⟨hflags, nofun⟩)) ?_
  have hbehind : behind u.source block.bytes.length =
      behind (behind u.source 1) (block.tokens.flatMap Lz10Token.bytes).length := by
    rw [behind_one_behind]
    rfl
  rw [hbehind]
  split_ifs with hzero
  · refine (emits_rounds_lz77Item ram hdest hput hk block.flags_eq hts ⟨hem.source _, rfl⟩ hlt htokens
      hout hn).bind List.prefix_rfl rfl ?_
    intro hlt' y m' h'
    exact emits_pure hlt' h'
  · have hliterals : ∀ t ∈ block.tokens, t.isCopy = false := by
      intro t ht
      obtain ⟨i, hi, rfl⟩ := List.getElem_of_mem ht
      rw [← block.flags_eq i hi, not_not.1 hzero]
      exact BitVec.getMsbD_zero
    obtain ⟨hexpand, hlength⟩ := lzExpand_literals hliterals out
    rw [hexpand] at hout hn ⊢
    rw [← hlength] at hn
    exact emits_rounds_putSource ram hput ⟨hem.source _, rfl⟩ hlt htokens hout hn

/-- The blocks of a stream, by induction: after each of them the output is the expansion so far. -/
theorem emits_lz77Blocks (ram : Ram bus p holds region) (hdest : SpanIn region x.dest x.size)
    (hput : Puts holds cpu x k put) (hk : 0 < k) {blocks : List Lz10Block} {fuel : ℕ}
    (hblocks : ∀ block ∈ blocks.dropLast, block.tokens.length = 8)
    (hts : LzFits k out (blocks.flatMap fun block => block.tokens.map Lz10Token.token))
    (h : OutAt x k a out u m) (hlt : out.length < x.size)
    (hbytes : HoldsSpan (x.Kept region) x.memory a (blocks.flatMap Lz10Block.bytes))
    (hout : lzExpand out (blocks.flatMap fun block => block.tokens.map Lz10Token.token) =
      x.output)
    (hfuel : blocks.length ≤ fuel) :
    Emits holds cpu x (roundsWhile (fun u : UnComp => 0 < u.len) (lz77Block bus p put) fuel u) m
      x.output fun _ _ => False := by
  induction blocks generalizing fuel a out u m with
  | nil =>
    have hsize := x.size_le
    rw [← hout] at hsize
    exact absurd hsize (Nat.not_le.2 hlt)
  | cons block blocks ih =>
    obtain ⟨fuel, rfl⟩ : ∃ n, fuel = n + 1 := by
      rw [List.length_cons] at hfuel
      exact ⟨fuel - 1, by omega⟩
    rw [List.flatMap_cons] at hbytes hts hout
    rw [lzExpand_append] at hout
    rw [lzFits_append] at hts
    obtain ⟨hfirst, hrest⟩ := HoldsSpan.append_iff.1 hbytes
    have hlen := h.1.len
    have hbegins : lzExpand out (block.tokens.map Lz10Token.token) <+: x.output := by
      rw [← hout]
      exact prefix_lzExpand ..
    have hfull : block.tokens.length = 8 ∨
        x.size ≤ (lzExpand out (block.tokens.map Lz10Token.token)).length := by
      cases blocks with
      | nil =>
        right
        rw [List.flatMap_nil] at hout
        exact x.size_le.trans (congrArg List.length hout).ge
      | cons block' blocks => exact .inl (hblocks block List.mem_cons_self)
    refine (emits_lz77Block ram hdest hput hk hts.1 h hlt hfirst hbegins hfull).roundsWhile_succ
      (by omega) hbegins fun hlt' u' m' h' => ?_
    refine ih ?_ hts.2 h' hlt' hrest hout (Nat.le_of_succ_le_succ hfuel)
    intro block' hblock'
    cases blocks with
    | nil => cases hblock'
    | cons _ _ => exact hblocks block' (List.mem_cons_of_mem _ hblock')

end Run

end Desmume.Bios
