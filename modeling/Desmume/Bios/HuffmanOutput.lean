import Desmume.Bios.Emission
import Desmume.Bios.HuffmanWalk

/-! What the Huffman decoder makes of its symbols: bytes, which it stores by words. -/

namespace Desmume.Bios
open Library

/-- The bytes `bs` are out, but for those that are pending for a word. -/
structure Collected (x : Expansion) (size : ℕ) (bs : List (BitVec 8)) (c : Collector) (m : Memory) :
    Prop where
  begins : bs <+: x.output
  dest : c.dest = behind x.dest (flushed 4 bs).length
  len : c.len = (size : ℤ) - (flushed 4 bs).length
  byteCount : c.byteCount = (pending 4 bs).length
  byteShift : c.byteShift = 8 * (pending 4 bs).length
  writeValue : c.writeValue = BitVec.ofNat 32 (ofLeBytes (pending 4 bs))
  memory : m = writeSpan x.memory x.dest (flushed 4 bs)

/-- Between two bytes. -/
def Whole (x : Expansion) (size : ℕ) (bs : List (BitVec 8)) (c : Collector) (m : Memory) : Prop :=
  Collected x size bs c m ∧ c.halfLen = 0 ∧ c.value = 0

/-- Behind the lower half of a byte. -/
def Half (x : Expansion) (size : ℕ) (bs : List (BitVec 8)) (lo : BitVec 8) (c : Collector) (m : Memory) :
    Prop :=
  Collected x size bs c m ∧ c.halfLen = 4 ∧ c.value = lo.setWidth 32

section Symbols

variable {μ : Type} {bus : Bus μ} {p : Proc} {holds : μ → Memory → Prop} {region : BitVec 32 → Prop}
  {cpu : Proc → Armcpu} {x : Expansion} {size : ℕ} {bs : List (BitVec 8)} {b : BitVec 8} {h : Huffman}
  {m : Memory}

theorem Collected.kept {c : Collector} (hc : Collected x size bs c m) (hsize : x.output.length = x.size)
    {a : BitVec 32} (ha : x.Kept region a) : region a ∧ m a = x.memory a := by
  refine ⟨ha.1, ?_⟩
  rw [hc.memory, writeSpan_of_forall_ne]
  intro i hi
  have hle := ((flushed_begins 4 bs).trans hc.begins).length_le
  exact ha.2 i (by omega)

theorem Collected.start (x : Expansion) (size : ℕ) :
    Collected x size [] ⟨x.dest, size, 0, 0, 0, 0, 0⟩ x.memory := by
  refine ⟨List.nil_prefix, ?_, ?_, ?_, ?_, ?_, ?_⟩
  · rw [flushed_nil]
    exact (behind_zero _).symm
  · rw [flushed_nil, List.length_nil, Nat.cast_zero, sub_zero]
  · rw [pending_nil]
    rfl
  · rw [pending_nil]
    rfl
  · rw [pending_nil]
    rfl
  · rw [flushed_nil]
    rfl

theorem leads_putByte (ram : Ram bus p holds region) (hdest : 4 ∣ x.dest.toNat)
    (hroom : SpanIn region x.dest x.size) (hsize : x.output.length = x.size)
    (hc : Collected x size bs h.collector m) (hnext : bs ++ [b] <+: x.output) : ∃ h' m',
    Leads (Looks holds) (putByte bus p (b.setWidth 32) h) (cpu, m) h' (cpu, m') ∧
      Collected x size (bs ++ [b]) h'.collector m' ∧ (h'.halfLen = h.halfLen ∧ h'.value = h.value) ∧
        h'.mask = h.mask ∧ h'.data = h.data ∧ h'.source = h.source := by
  have hvalue : h.writeValue ||| b.setWidth 32 <<< h.byteShift =
      BitVec.ofNat 32 (ofLeBytes (pending 4 bs ++ [b])) := by
    rw [← or_byte_shiftLeft, ← hc.writeValue, ← hc.byteShift]
    rfl
  have hcount : h.byteCount = (pending 4 bs).length := hc.byteCount
  have hlen := length_pending 4 bs
  have hflush := length_flushed 4 bs
  have hend := hnext.length_le
  have hall := length_flushed_add 4 bs
  rw [List.length_append, List.length_singleton] at hend
  rw [putByte, hvalue]
  split_ifs with hfull
  · rw [hcount] at hfull
    obtain ⟨hflushed, hpending⟩ := snoc_of_full b hfull
    have hfour : (pending 4 bs ++ [b]).length = 4 := by
      rw [List.length_append, List.length_singleton, hfull]
    have hword : leBytes 4 (BitVec.ofNat 32 (ofLeBytes (pending 4 bs ++ [b]))).toNat =
        pending 4 bs ++ [b] := by
      have hlt := ofLeBytes_lt (pending 4 bs ++ [b])
      have hback := leBytes_ofLeBytes (pending 4 bs ++ [b])
      rw [hfour] at hlt hback
      rw [BitVec.toNat_ofNat, Nat.mod_eq_of_lt (by omega), hback]
    have hplace : h.dest = behind x.dest (flushed 4 bs).length := hc.dest
    have hroom' : SpanIn region h.dest 4 := by
      intro i hi
      rw [hplace, behind_behind]
      exact hroom _ (by omega)
    have haligned : 4 ∣ h.dest.toNat := by
      rw [hplace, hflush]
      exact dvd_behind (by decide) hdest (Nat.dvd_mul_right ..)
    have hjoin := writeSpan_writeSpan x.memory x.dest (flushed 4 bs) (pending 4 bs ++ [b]) (by
      have hspace := x.size_le_space
      rw [List.length_append, hfour]
      omega)
    have hwrite : Leads (Looks holds) (mmuWrite32 bus p h.dest _) (cpu, m) () (cpu, _) :=
      ram.leads_write32 haligned hroom' (BitVec.ofNat 32 (ofLeBytes (pending 4 bs ++ [b])))
    rw [hword, hc.memory, hplace, hjoin, ← hflushed, ← hplace, ← hc.memory] at hwrite
    refine ⟨_, _, hwrite.bind (leads_pure _ _), ⟨hnext, ?_, ?_, ?_, ?_, ?_, rfl⟩, ⟨rfl, rfl⟩, rfl, rfl,
      rfl⟩
    · rw [hflushed, List.length_append, hfour, ← behind_behind, ← hplace]
      rfl
    · rw [hflushed, List.length_append, hfour, Nat.cast_add, ← sub_sub, ← hc.len]
      rfl
    · rw [hpending]
      rfl
    · rw [hpending]
      rfl
    · rw [hpending]
      rfl
  · rw [hcount] at hfull
    have hlt : (pending 4 bs).length + 1 < 4 := by omega
    obtain ⟨hflushed, hpending⟩ := snoc_of_lt b hlt
    refine ⟨_, _, leads_pure _ _, ⟨hnext, ?_, ?_, ?_, ?_, ?_, ?_⟩, ⟨rfl, rfl⟩, rfl, rfl, rfl⟩
    · rw [hflushed]
      exact hc.dest
    · rw [hflushed]
      exact hc.len
    · rw [hpending, List.length_append, List.length_singleton, ← hcount]
      rfl
    · rw [hpending, List.length_append, List.length_singleton, Nat.mul_succ, ← hc.byteShift]
      rfl
    · rw [hpending]
      rfl
    · rw [hflushed]
      exact hc.memory

theorem collects_putSymbol8 (ram : Ram bus p holds region) (hdest : 4 ∣ x.dest.toNat)
    (hroom : SpanIn region x.dest x.size) (hsize : x.output.length = x.size)
    (hnext : bs ++ [b] <+: x.output) :
    Collects holds cpu (putSymbol8 bus p) b (Whole x size bs) (Whole x size (bs ++ [b])) := by
  rintro h m ⟨hc, hhalf, hvalue⟩ rfl
  obtain ⟨h', m', hput, hc', ⟨hhalf', hvalue'⟩, hrest⟩ := leads_putByte ram hdest hroom hsize hc hnext
  exact ⟨h', m', hput, ⟨hc', hhalf'.trans hhalf, hvalue'.trans hvalue⟩, hrest⟩

theorem collects_putSymbol4_lo (lo : BitVec 8) :
    Collects holds cpu (putSymbol4 bus p) lo (Whole x size bs) (Half x size bs lo) := by
  rintro h m ⟨hc, hhalf, hvalue⟩ rfl
  have hhalf' : h.halfLen = 0 := hhalf
  have hvalue' : h.value = 0 := hvalue
  refine ⟨{ h with halfLen := 4, value := h.currentNode.setWidth 32 }, m, ?_,
    ⟨⟨hc.begins, hc.dest, hc.len, hc.byteCount, hc.byteShift, hc.writeValue, hc.memory⟩, rfl, rfl⟩,
    rfl, rfl, rfl⟩
  rw [putSymbol4, hhalf', hvalue', if_pos rfl, if_neg (by decide), BitVec.ofNat_eq_ofNat,
    BitVec.zero_or]
  exact leads_pure _ _

theorem collects_putSymbol4_hi (ram : Ram bus p holds region) (hdest : 4 ∣ x.dest.toNat)
    (hroom : SpanIn region x.dest x.size) (hsize : x.output.length = x.size)
    (hnext : bs ++ [b] <+: x.output) :
    Collects holds cpu (putSymbol4 bus p) (b >>> 4) (Half x size bs (b &&& 0xF))
      (Whole x size (bs ++ [b])) := by
  rintro h m ⟨hc, hhalf, hvalue⟩ hnode
  have hhalf' : h.halfLen = 4 := hhalf
  have hvalue' : h.value = (b &&& 0xF).setWidth 32 := hvalue
  have hbyte : ((b &&& 0xF).setWidth 32 ||| h.currentNode.setWidth 32 <<< 4 : BitVec 32) =
      b.setWidth 32 := by
    rw [hnode]
    have hall : ∀ b : BitVec 8, ((b &&& 0xF).setWidth 32 ||| (b >>> 4).setWidth 32 <<< 4 : BitVec 32) =
        b.setWidth 32 := by decide
    exact hall b
  have hc' : Collected x size bs { h with halfLen := 0, value := 0 }.collector m :=
    ⟨hc.begins, hc.dest, hc.len, hc.byteCount, hc.byteShift, hc.writeValue, hc.memory⟩
  obtain ⟨h', m', hput, hc'', ⟨hhalf'', hvalue''⟩, hrest⟩ :=
    leads_putByte ram hdest hroom hsize hc' hnext
  refine ⟨h', m', ?_, ⟨hc'', hhalf'', hvalue''⟩, hrest⟩
  rw [putSymbol4, hhalf', hvalue', if_pos (show 4 + 4 = 8 from rfl),
    if_neg (show ¬ 4 = 0 by decide), hbyte]
  exact hput

end Symbols

/-- The code of a byte: of one symbol if the header says so, and else of its halves, the lower one
first. -/
def ByteCode (t : CodeTree (BitVec 8)) (header : BitVec 32) (code : List Bool) (b : BitVec 8) : Prop :=
  if header &&& 0x0F = 8 then t.at? code = some b
  else ∃ lo hi, code = lo ++ hi ∧ t.at? lo = some (b &&& 0xF) ∧ t.at? hi = some (b >>> 4)

def symbolOf {μ : Type} (bus : Bus μ) (p : Proc) (header : BitVec 32) : Huffman → Call μ Huffman :=
  if header &&& 0x0F = 8 then putSymbol8 bus p else putSymbol4 bus p

section Bytes

variable {μ : Type} {bus : Bus μ} {p : Proc} {holds : μ → Memory → Prop} {region : BitVec 32 → Prop}
  {cpu : Proc → Armcpu} {x : Expansion} {size : ℕ} {bs : List (BitVec 8)} {b : BitVec 8} {h : Huffman}
  {m : Memory} {t : CodeTree (BitVec 8)} {treeStart header : BitVec 32} {code bits : List Bool}

theorem AtRoot.atNode (hroot : AtRoot (x.Kept region) x.memory (x.memory treeStart) bits h)
    (hoffset : x.memory treeStart &&& 0x3F = 0) :
    AtNode treeStart treeStart h (x.memory treeStart) :=
  ⟨hroot.currentNode, .inl ⟨hroot.pos, rfl, hoffset⟩⟩

/-- What the decoder is set up with. -/
structure Decoder (region : BitVec 32 → Prop) (x : Expansion) (t : CodeTree (BitVec 8))
    (treeStart : BitVec 32) : Prop where
  dest_dvd : 4 ∣ x.dest.toNat
  room : SpanIn region x.dest x.size
  length_output : x.output.length = x.size
  odd : ¬ 2 ∣ treeStart.toNat
  tree : TreeAt (x.Kept region) x.memory t treeStart
  inner : t.isLeaf = false
  offset : x.memory treeStart &&& 0x3F = 0

theorem Decoder.kept {c : Collector} (hd : Decoder region x t treeStart)
    (hc : Collected x size bs c m) (a : BitVec 32) (ha : x.Kept region a) :
    region a ∧ m a = x.memory a := hc.kept hd.length_output ha

theorem advances_byte (ram : Ram bus p holds region) (hd : Decoder region x t treeStart)
    (hcode : ByteCode t header code b) (hnext : bs ++ [b] <+: x.output)
    (hroot : AtRoot (x.Kept region) x.memory (x.memory treeStart) (code ++ bits) h) (hbits : bits ≠ [])
    (hlen : 0 < h.len) (hwhole : Whole x size bs h.collector m) : ∃ h' m',
    Advances (Looks holds) (fun h : Huffman => 0 < h.len)
        (huffmanBit bus p (symbolOf bus p header) treeStart (x.memory treeStart)) code.length h (cpu, m)
        h' (cpu, m') ∧
      AtRoot (x.Kept region) x.memory (x.memory treeStart) bits h' ∧
        Whole x size (bs ++ [b]) h'.collector m' := by
  rw [symbolOf]
  rw [ByteCode] at hcode
  split_ifs at hcode ⊢ with hwide
  · exact advances_code ram hd.odd hd.tree hd.inner hcode (hroot.atNode hd.offset) hroot.ahead hbits
      (collects_putSymbol8 ram hd.dest_dvd hd.room hd.length_output hnext) hlen hwhole
      fun c m' hc => hc.elim (fun hc => hd.kept hc.1) fun hc => hd.kept hc.1
  · obtain ⟨lo, hi, rfl, hlo, hhi⟩ := hcode
    have hahead := hroot.ahead
    rw [List.append_assoc] at hahead
    obtain ⟨h', m', hfirst, hroot', hhalf⟩ := advances_code ram hd.odd hd.tree hd.inner hlo
      (hroot.atNode hd.offset) hahead (List.append_ne_nil_of_right_ne_nil hi hbits)
      (collects_putSymbol4_lo (b &&& 0xF)) hlen hwhole
      fun c m' hc => hc.elim (fun hc => hd.kept hc.1) fun hc => hd.kept hc.1
    have hlen' : 0 < h'.len := by
      have hsame : h'.len = h.len := hhalf.1.len.trans hwhole.1.len.symm
      rwa [hsame]
    obtain ⟨h'', m'', hsecond, hroot'', hwhole'⟩ := advances_code ram hd.odd hd.tree hd.inner hhi
      (hroot'.atNode hd.offset) hroot'.ahead hbits
      (collects_putSymbol4_hi ram hd.dest_dvd hd.room hd.length_output hnext) hlen' hhalf
      fun c m' hc => hc.elim (fun hc => hd.kept hc.1) fun hc => hd.kept hc.1
    refine ⟨h'', m'', ?_, hroot'', hwhole'⟩
    rw [List.length_append]
    exact hfirst.trans hsecond

/-- The codes of bytes, by induction on the bytes. -/
theorem advances_bytes (ram : Ram bus p holds region) (hd : Decoder region x t treeStart)
    {codes : List (List Bool)} {data : List (BitVec 8)}
    (hcodes : List.Forall₂ (ByteCode t header) codes data) (hall : bs ++ data = x.output)
    (hsize : ∀ n < x.size, 4 * (n / 4) < size)
    (hroot : AtRoot (x.Kept region) x.memory (x.memory treeStart) (codes.flatten ++ bits) h)
    (hbits : bits ≠ []) (hwhole : Whole x size bs h.collector m) : ∃ h' m',
    Advances (Looks holds) (fun h : Huffman => 0 < h.len)
        (huffmanBit bus p (symbolOf bus p header) treeStart (x.memory treeStart)) codes.flatten.length h
        (cpu, m) h' (cpu, m') ∧
      Whole x size x.output h'.collector m' := by
  induction hcodes generalizing bs h m with
  | nil =>
    rw [List.append_nil] at hall
    exact ⟨h, m, advances_zero _ _, hall ▸ hwhole⟩
  | @cons code b codes data hcode _ ih =>
    have hlen : 0 < h.len := by
      have hlt : bs.length < x.size := by
        rw [← hd.length_output, ← hall, List.length_append, List.length_cons]
        omega
      have hlen' : h.len = (size : ℤ) - (flushed 4 bs).length := hwhole.1.len
      have hless := hsize _ hlt
      rw [length_flushed] at hlen'
      omega
    rw [List.flatten_cons, List.append_assoc] at hroot
    have hsplit : bs ++ [b] ++ data = x.output := by
      rw [List.append_assoc, List.singleton_append, hall]
    obtain ⟨h', m', hbyte, hroot', hwhole'⟩ := advances_byte ram hd hcode ⟨_, hsplit⟩ hroot
      (List.append_ne_nil_of_right_ne_nil _ hbits) hlen hwhole
    obtain ⟨h'', m'', hrest, hwhole''⟩ := ih hsplit hroot' hwhole'
    refine ⟨h'', m'', ?_, hwhole''⟩
    rw [List.flatten_cons, List.length_append]
    exact hbyte.trans hrest

end Bytes

end Desmume.Bios
