import Desmume.Bios.Decompression
import Desmume.Bios.HuffmanOutput

/-! The Huffman call on a whole stream. It goes on until a word is full, with whatever symbols the bits
behind the data make. -/

namespace Desmume.Bios
open Library

section Padding

variable {t : CodeTree (BitVec 8)} {header : BitVec 32}

/-- Symbols of four bits make a byte. -/
theorem exists_halves {lo hi : BitVec 8} (hlo : lo < 16) (hhi : hi < 16) :
    ∃ b : BitVec 8, b &&& 0xF = lo ∧ b >>> 4 = hi := by
  have hbyte : ∀ lo hi : BitVec 4, ((hi ++ lo : BitVec 8) &&& 0xF = lo.setWidth 8) ∧
      (hi ++ lo : BitVec 8) >>> 4 = hi.setWidth 8 := by decide
  have hlow : ∀ s : BitVec 8, s < 16 → (s.setWidth 4).setWidth 8 = s := by decide
  obtain ⟨hlo', hhi'⟩ := hbyte (lo.setWidth 4) (hi.setWidth 4)
  exact ⟨_, hlo'.trans (hlow lo hlo), hhi'.trans (hlow hi hhi)⟩

/-- Enough bits begin with the code of a byte. -/
theorem exists_byteCode (hsymbols : header &&& 0x0F ≠ 8 → t.All (· < 16)) (bits : List Bool)
    (h : 2 * t.height ≤ bits.length) :
    ∃ code b, ByteCode t header code b ∧ code <+: bits ∧ code.length ≤ 2 * t.height := by
  obtain ⟨lo, s, hbegins, hlength, hat⟩ := t.exists_code bits (by omega)
  by_cases hwide : header &&& 0x0F = 8
  · refine ⟨lo, s, ?_, hbegins, by omega⟩
    rw [ByteCode, if_pos hwide]
    exact hat
  · obtain ⟨rest, rfl⟩ := hbegins
    rw [List.length_append] at h
    obtain ⟨hi, s', hbegins', hlength', hat'⟩ := t.exists_code rest (by omega)
    obtain ⟨b, rfl, rfl⟩ := exists_halves ((hsymbols hwide).at? hat) ((hsymbols hwide).at? hat')
    refine ⟨lo ++ hi, b, ?_, (List.prefix_append_right_inj lo).2 hbegins', ?_⟩
    · rw [ByteCode, if_neg hwide]
      exact ⟨lo, hi, rfl, hat, hat'⟩
    · rw [List.length_append]
      omega

theorem exists_padding (hsymbols : header &&& 0x0F ≠ 8 → t.All (· < 16)) (n : ℕ)
    (bits : List Bool) (h : n * (2 * t.height) ≤ bits.length) : ∃ codes pad,
    List.Forall₂ (ByteCode t header) codes pad ∧ pad.length = n ∧ codes.flatten <+: bits ∧
      codes.flatten.length ≤ n * (2 * t.height) := by
  induction n generalizing bits with
  | zero => exact ⟨[], [], .nil, rfl, List.nil_prefix, Nat.zero_le _⟩
  | succ n ih =>
    rw [Nat.succ_mul] at h
    obtain ⟨code, b, hcode, ⟨rest, rfl⟩, hlength⟩ := exists_byteCode hsymbols bits (by omega)
    rw [List.length_append] at h
    obtain ⟨codes, pad, hcodes, hpad, hbegins, hlength'⟩ := ih rest (by omega)
    refine ⟨code :: codes, b :: pad, .cons hcode hcodes, ?_, ?_, ?_⟩
    · rw [List.length_cons, hpad]
    · rw [List.flatten_cons]
      exact (List.prefix_append_right_inj code).2 hbegins
    · rw [List.flatten_cons, List.length_append, Nat.succ_mul]
      omega

end Padding

/-- A size, up to a whole word. -/
def wholeWords (size : ℕ) : ℕ := (size + 3) / 4 * 4

/-- A header, a tree and words of bits lie at `source`, and there is room at `dest` for the words that
the header announces, none of it where the tree and the bits are. The children of the root are next to
it, and the bits begin at a whole word. -/
structure HuffmanAt (region : BitVec 32 → Prop) (m : Memory) (source dest header : BitVec 32)
    (t : CodeTree (BitVec 8)) (words : List (BitVec 32)) : Prop where
  source_dvd : 4 ∣ source.toNat
  dest_dvd : 4 ∣ dest.toNat
  header_stored : HoldsSpan region m source (leBytes 4 header.toNat)
  size_region : region (behind source 4)
  tree : TreeAt (fun a => region a ∧ ∀ i < wholeWords (headerSize header), a ≠ behind dest i) m t
    (behind source 5)
  inner : t.isLeaf = false
  symbols : header &&& 0x0F ≠ 8 → t.All (· < 16)
  offset : m (behind source 5) &&& 0x3F = 0
  odd : ¬ 2 ∣ (m (behind source 4)).toNat
  stored : HoldsSpan (fun a => region a ∧ ∀ i < wholeWords (headerSize header), a ≠ behind dest i) m
    (behind source (6 + 2 * (m (behind source 4)).toNat)) (unitBytes 4 words)
  room : SpanIn region dest (wholeWords (headerSize header))

theorem wholeWords_eq (size : ℕ) : ∃ n < 4, wholeWords size = size + n ∧ 4 ∣ size + n := by
  refine ⟨wholeWords size - size, ?_, ?_, ?_⟩
  · rw [wholeWords]
    omega
  · rw [wholeWords]
    omega
  · rw [wholeWords]
    omega

theorem wholeWords_le (header : BitVec 32) : wholeWords (headerSize header) ≤ 2 ^ 32 := by
  have hlt := headerSize_lt header
  rw [wholeWords]
  omega

theorem odd_treeStart {source : BitVec 32} (h : 4 ∣ source.toNat) : ¬ 2 ∣ (behind source 5).toNat := by
  rw [behind, BitVec.toNat_add, BitVec.toNat_ofNat]
  omega

theorem four_dvd_stream {source : BitVec 32} {treeSize : BitVec 8} (h : 4 ∣ source.toNat)
    (hodd : ¬ 2 ∣ treeSize.toNat) : 4 ∣ (behind source (6 + 2 * treeSize.toNat)).toNat :=
  dvd_behind (by decide) h (by omega)

theorem treeStart_eq (source : BitVec 32) : source + (4 : BitVec 32) + (1 : BitVec 32) =
    behind source 5 := behind_behind source 4 1

/-- Where the call takes the bits from. -/
theorem stream_eq (source : BitVec 32) (treeSize : BitVec 8) :
    behind source 5 + (((treeSize.setWidth 32 : BitVec 32) + 1) <<< 1 - (1 : BitVec 32)) =
      behind source (6 + 2 * treeSize.toNat) := by
  have hall : ∀ x : BitVec 8, ((x.setWidth 32 : BitVec 32) + 1) <<< 1 - (1 : BitVec 32) =
      BitVec.ofNat 32 (1 + 2 * x.toNat) := by decide
  have hjoin : behind (behind source 5) (1 + 2 * treeSize.toNat) = _ := behind_behind ..
  rw [← Nat.add_assoc] at hjoin
  rw [hall]
  exact hjoin

section Call

variable {μ : Type} {bus : Bus μ} {p : Proc} {holds : μ → Memory → Prop} {region : BitVec 32 → Prop}
  {cpu : Proc → Armcpu} {m : Memory} {header : BitVec 32} {t : CodeTree (BitVec 8)}
  {words : List (BitVec 32)}

/-- Sources in the BIOS are refused. -/
theorem leads_unCompHuffman_of_badSource (ram : Ram bus p holds region)
    (h : HuffmanAt region m ((cpu p).R 0) ((cpu p).R 1) header t words)
    (hbad : badSource ((cpu p).R 0 + 4) header) (fuel : ℕ) :
    Leads (Looks holds) (unCompHuffman bus p fuel) (cpu, m) 0 (cpu, m) := by
  refine (leads_getR 0).bind ((leads_getR 1).bind
    ((ram.leads_readWord h.source_dvd h.header_stored).bind ?_))
  rw [if_pos hbad]
  exact leads_pure _ _

/-- The call on data that fills its last word. -/
theorem leads_unCompHuffman (ram : Ram bus p holds region)
    (h : HuffmanAt region m ((cpu p).R 0) ((cpu p).R 1) header t words)
    {codes : List (List Bool)} {data : List (BitVec 8)} {rest : List Bool}
    (hcodes : List.Forall₂ (ByteCode t header) codes data)
    (hsize : data.length = wholeWords (headerSize header))
    (hbits : codes.flatten ++ rest = words.flatMap topBits) (hrest : rest ≠ [])
    (hsource : ¬ badSource ((cpu p).R 0 + 4) header) {fuel : ℕ} (hfuel : codes.flatten.length ≤ fuel) :
    Leads (Looks holds) (unCompHuffman bus p fuel) (cpu, m) 1
      (cpu, writeSpan m ((cpu p).R 1) data) := by
  let x : Expansion := ⟨m, (cpu p).R 1, wholeWords (headerSize header), data, hsize.ge,
    wholeWords_le header⟩
  have hd : Decoder region x t (behind ((cpu p).R 0) 5) :=
    ⟨h.dest_dvd, h.room, hsize, odd_treeStart h.source_dvd, h.tree, h.inner, h.offset⟩
  have haligned := four_dvd_stream h.source_dvd h.odd
  obtain ⟨n, hn, hwhole, hdvd⟩ := wholeWords_eq (headerSize header)
  cases words with
  | nil => exact absurd (List.append_eq_nil_iff.1 hbits).2 hrest
  | cons w words =>
    obtain ⟨hw, hwords⟩ := HoldsSpan.append_iff.1 h.stored
    rw [length_leBytes] at hwords
    have hstart : AtRoot (x.Kept region) m (m (behind ((cpu p).R 0) 5)) (codes.flatten ++ rest)
        ⟨behind ((cpu p).R 0) (6 + 2 * (m (behind ((cpu p).R 0) 4)).toNat) + 4, (cpu p).R 1,
          (header >>> 8).toNat, 0x80000000, w, 0, m (behind ((cpu p).R 0) 5), 0, 0, 0, 0, 0⟩ :=
      ⟨rfl, rfl, 0, by decide, words, rfl, hbits, dvd_behind (by decide) haligned (Nat.dvd_refl 4),
        hwords⟩
    have hless : ∀ n < wholeWords (headerSize header), 4 * (n / 4) < headerSize header := by
      rw [wholeWords]
      omega
    obtain ⟨h', m', hrun, hout, -, -⟩ := advances_bytes ram hd hcodes rfl hless hstart hrest
      ⟨Collected.start x (headerSize header), rfl, rfl⟩
    have hall : flushed 4 data = data := by
      rw [flushed_of_dvd]
      rwa [hsize, hwhole]
    have hmemory : m' = writeSpan m ((cpu p).R 1) data := by
      rw [← hall]
      exact hout.memory
    have hdone : ¬ 0 < h'.len := by
      have hlen : h'.len = (headerSize header : ℤ) - (flushed 4 data).length := hout.len
      rw [hall, hsize] at hlen
      omega
    have hloop : Leads (Looks holds) (roundsWhile (fun h : Huffman => 0 < h.len) _ fuel _) (cpu, m)
        (.inr h') (cpu, m') := hrun.leads hdone hfuel
    have hword : HoldsSpan region m
        (behind ((cpu p).R 0) (6 + 2 * (m (behind ((cpu p).R 0) 4)).toNat)) (leBytes 4 w.toNat) :=
      fun i hi => ⟨(hw i hi).1.1, (hw i hi).2⟩
    rw [hmemory] at hloop
    refine (leads_getR 0).bind ((leads_getR 1).bind
      ((ram.leads_readWord h.source_dvd h.header_stored).bind ?_))
    rw [if_neg hsource]
    refine (ram.leads_read08 (HoldsSpan.cons_iff.2 ⟨⟨h.size_region, rfl⟩, nofun⟩)).bind ?_
    dsimp only
    rw [treeStart_eq, stream_eq]
    exact (ram.leads_readWord haligned hword).bind
      ((ram.leads_read08 (HoldsSpan.cons_iff.2 ⟨⟨h.tree.kept.1, rfl⟩, nofun⟩)).bind
        (hloop.bind (leads_pure _ _)))

/-- From a source that is not refused, the call writes back the data, up to a whole word. -/
theorem unCompHuffman_decodes (ram : Ram bus p holds region)
    (h : HuffmanAt region m ((cpu p).R 0) ((cpu p).R 1) header t words)
    {codes : List (List Bool)} {data : List (BitVec 8)}
    (hcodes : List.Forall₂ (ByteCode t header) codes data) (hsize : headerSize header = data.length)
    (hbits : codes.flatten <+: words.flatMap topBits)
    (hlong : codes.flatten.length + (wholeWords data.length - data.length) * (2 * t.height) <
      32 * words.length)
    (hsource : ¬ badSource ((cpu p).R 0 + 4) header) {fuel : ℕ}
    (hfuel : codes.flatten.length + (wholeWords data.length - data.length) * (2 * t.height) ≤ fuel) :
    ∃ pad, (data ++ pad).length = wholeWords data.length ∧
      Leads (Looks holds) (unCompHuffman bus p fuel) (cpu, m) 1
        (cpu, writeSpan m ((cpu p).R 1) (data ++ pad)) := by
  obtain ⟨rest, hrest⟩ := hbits
  have hstream := length_flatMap_topBits words
  rw [← hrest, List.length_append] at hstream
  obtain ⟨padCodes, pad, hpadCodes, hpad, ⟨rest', rfl⟩, hpadLength⟩ :=
    exists_padding h.symbols (wholeWords data.length - data.length) rest (by omega)
  rw [List.length_append] at hstream
  have hwhole : (data ++ pad).length = wholeWords data.length := by
    obtain ⟨n, -, hn, -⟩ := wholeWords_eq data.length
    rw [List.length_append, hpad, hn]
    omega
  have hne : rest' ≠ [] := by
    rintro rfl
    rw [List.length_nil] at hstream
    omega
  refine ⟨pad, hwhole, leads_unCompHuffman ram h (List.rel_append hcodes hpadCodes) ?_ ?_ hne hsource ?_⟩
  · rw [hwhole, hsize]
  · rw [List.flatten_append, List.append_assoc, hrest]
  · rw [List.flatten_append, List.length_append]
    omega

end Call

section Sample

/-- A tree of two leaves. -/
def sampleTree : CodeTree (BitVec 8) := .node (.leaf 0x41) (.leaf 0x42)

def sampleData : List (BitVec 8) := [0x41, 0x42, 0x42, 0x41]

def sampleCodes : List (List Bool) := [[false], [true], [true], [false]]

/-- A memory with a header for four bytes of one symbol each, the tree and a word of bits. -/
def huffmanMemory (source : BitVec 32) : Memory :=
  writeSpan (fun _ => 0) source [0x28, 4, 0, 0, 1, 0xC0, 0x41, 0x42, 0, 0, 0, 0x60]

theorem sampleCodes_data : List.Forall₂ (ByteCode sampleTree 0x428) sampleCodes sampleData :=
  .cons rfl (.cons rfl (.cons rfl (.cons rfl .nil)))

theorem unCompHuffman_decodes_sample :
    ∃ pad, (sampleData ++ pad).length = 4 ∧
      Leads (Looks (HoldsMain .arm9 0))
        (unCompHuffman (mmuBus Memory.noDevices fun _ => 0) .arm9 4)
        (streamCaller, huffmanMemory 0x02000000) 1
        (streamCaller, writeSpan (huffmanMemory 0x02000000) 0x02000100 (sampleData ++ pad)) :=
  have hat : HuffmanAt (MainRegion .arm9 0) (huffmanMemory 0x02000000) ((streamCaller .arm9).R 0)
      ((streamCaller .arm9).R 1) 0x428 sampleTree [0x60000000] := {
    source_dvd := by decide
    dest_dvd := by decide
    header_stored := by decide
    size_region := by decide
    tree := ⟨by decide, ⟨by decide, by decide⟩, ⟨by decide, by decide⟩, ⟨by decide, by decide⟩⟩
    inner := rfl
    symbols := fun h => absurd (by decide) h
    offset := by decide
    odd := by decide
    stored := by decide
    room := by decide }
  unCompHuffman_decodes (ram_mmuBus Memory.noDevices (fun _ => 0) .arm9 0) hat sampleCodes_data
    (by decide) (by decide) (by decide) (by decide) (by decide)

/-- A stream in the instruction memory of the ARM9 is refused. -/
theorem unCompHuffman_refuses_itcm :
    ¬ ∀ (m : Memory) (source dest header : BitVec 32) (t : CodeTree (BitVec 8))
        (words : List (BitVec 32)) (codes : List (List Bool)) (data : List (BitVec 8)),
      HuffmanAt (fun _ => True) m source dest header t words →
      List.Forall₂ (ByteCode t header) codes data → headerSize header = data.length →
      codes.flatten <+: words.flatMap topBits →
      codes.flatten.length + (wholeWords data.length - data.length) * (2 * t.height) <
        32 * words.length → ∃ fuel ret pad,
        Leads (Looks Eq) (unCompHuffman flatBus .arm9 fuel) (callerCpu [source, dest], m) ret
          (callerCpu [source, dest], writeSpan m dest (data ++ pad)) := by
  intro h
  have hat : HuffmanAt (fun _ => True) (huffmanMemory 0x01FF8000) 0x01FF8000 0x02000000 0x428 sampleTree
      [0x60000000] := {
    source_dvd := by decide
    dest_dvd := by decide
    header_stored := by decide
    size_region := trivial
    tree := ⟨by decide, ⟨by decide, by decide⟩, ⟨by decide, by decide⟩, ⟨by decide, by decide⟩⟩
    inner := rfl
    symbols := fun h => absurd (by decide) h
    offset := by decide
    odd := by decide
    stored := by decide
    room := fun _ _ => trivial }
  obtain ⟨fuel, ret, pad, hrun⟩ := h _ _ _ _ _ _ _ _ hat sampleCodes_data (by decide) (by decide) (by decide)
  have hrefused : Leads (Looks Eq) (unCompHuffman flatBus .arm9 fuel)
      (callerCpu [0x01FF8000, 0x02000000], _) 0 (callerCpu [0x01FF8000, 0x02000000], _) :=
    leads_unCompHuffman_of_badSource (ram_flatBus .arm9) hat (by decide) fuel
  have hcell := congrFun (leads_flat_unique hrefused hrun) 0x02000000
  have hfirst : writeSpan (huffmanMemory 0x01FF8000) 0x02000000 (sampleData ++ pad) 0x02000000 = 0x41 :=
    rfl
  rw [hfirst] at hcell
  revert hcell
  decide

end Sample

end Desmume.Bios
