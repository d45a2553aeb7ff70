import Desmume.Bios.Emission
import Desmume.Bios.Lz10

/-! The run-length streams, and the decompression calls for work memory and for video memory. -/

namespace Desmume.Bios
open Library

/-! ### Run-length streams -/

/-- A byte that is repeated, with a count less three, or up to 128 bytes as they are. -/
inductive RlItem where
  | repeated (n : BitVec 7) (b : BitVec 8)
  | plain (bs : List (BitVec 8)) (hpos : 0 < bs.length) (hle : bs.length ≤ 0x80)

namespace RlItem

def bytes : RlItem → List (BitVec 8)
  | repeated n b => [0x80 ||| n.setWidth 8, b]
  | plain bs _ _ => BitVec.ofNat 8 (bs.length - 1) :: bs

def expansion : RlItem → List (BitVec 8)
  | repeated n b => List.replicate (n.toNat + 3) b
  | plain bs _ _ => bs

end RlItem

def rlBytes (items : List RlItem) : List (BitVec 8) := items.flatMap RlItem.bytes

def rlExpansion (items : List RlItem) : List (BitVec 8) := items.flatMap RlItem.expansion

section Run

variable {μ : Type} {bus : Bus μ} {p : Proc} {holds : μ → Memory → Prop} {region : BitVec 32 → Prop}
  {cpu : Proc → Armcpu} {x : Expansion} {k : ℕ} {out : List (BitVec 8)} {a : BitVec 32} {u : UnComp}
  {m : Memory} {put : UnComp → BitVec 8 → Call μ (BitVec 32 ⊕ UnComp)}

theorem emits_rlBlock (ram : Ram bus p holds region) (hput : Puts holds cpu x k put) {item : RlItem}
    (h : OutAt x k a out u m) (hlt : out.length < x.size)
    (hbytes : HoldsSpan (x.Kept region) x.memory a item.bytes)
    (hout : out ++ item.expansion <+: x.output) :
    Emits holds cpu x (rlBlock bus p put u) m (out ++ item.expansion)
      (OutAt x k (behind a item.bytes.length) (out ++ item.expansion)) := by
  obtain ⟨hem, rfl⟩ := h
  cases item with
  | repeated n b =>
    have hhead : ∀ n : BitVec 7, (0x80 ||| n.setWidth 8 : BitVec 8) &&& 0x80 ≠ 0 ∧
        ((0x80 ||| n.setWidth 8 : BitVec 8) &&& 0x7F).toNat = n.toNat := by decide
    obtain ⟨hmark, hcount⟩ := hhead n
    obtain ⟨hfirst, hbyte⟩ := HoldsSpan.cons_iff.1 hbytes
    refine leads_bind_emits (hem.leads_read ram (HoldsSpan.cons_iff.2 ⟨hfirst, nofun⟩)) ?_
    dsimp only
    rw [if_pos hmark, hcount]
    refine leads_bind_emits (hem.leads_read ram hbyte) ?_
    have hbehind : behind u.source 2 = u.source + 1 + 1 := (behind_behind u.source 1 1).symm
    have hat : OutAt x k (behind u.source 2) out { u with source := u.source + 1 + 1 } m :=
      ⟨hem.source _, hbehind.symm⟩
    exact emits_rounds_put hput (n.toNat + 3) hat hlt hout
  | plain bs hpos hle =>
    have hcount : (BitVec.ofNat 8 (bs.length - 1)).toNat = bs.length - 1 := by
      rw [BitVec.toNat_ofNat]
      omega
    have hhead : ∀ d : BitVec 8, d.toNat < 0x80 → d &&& 0x80 = 0 ∧ (d &&& 0x7F).toNat = d.toNat := by
      decide
    obtain ⟨hmark, hlow⟩ := hhead _ (by rw [hcount]; omega)
    obtain ⟨hfirst, hrest⟩ := HoldsSpan.cons_iff.1 hbytes
    refine leads_bind_emits (hem.leads_read ram (HoldsSpan.cons_iff.2 ⟨hfirst, nofun⟩)) ?_
    dsimp only
    rw [if_neg (not_not.2 hmark), hlow, hcount, Nat.sub_add_cancel hpos]
    have hat : OutAt x k (behind u.source 1) out { u with source := u.source + 1 } m :=
      ⟨hem.source _, rfl⟩
    have hrun := emits_rounds_putSource ram hput hat hlt hrest hout (.inl rfl)
    rw [behind_one_behind] at hrun
    exact hrun

theorem emits_rlItems (ram : Ram bus p holds region) (hput : Puts holds cpu x k put)
    {items : List RlItem} {fuel : ℕ} (h : OutAt x k a out u m) (hlt : out.length < x.size)
    (hbytes : HoldsSpan (x.Kept region) x.memory a (rlBytes items))
    (hout : out ++ rlExpansion items = x.output) (hfuel : items.length ≤ fuel) :
    Emits holds cpu x (roundsWhile (fun u : UnComp => 0 < u.len) (rlBlock bus p put) fuel u) m
      x.output fun _ _ => False := by
  induction items generalizing fuel a out u m with
  | nil =>
    have hsize := x.size_le
    rw [← hout, rlExpansion, List.flatMap_nil, List.append_nil] at hsize
    exact absurd hsize (Nat.not_le.2 hlt)
  | cons item items ih =>
    obtain ⟨fuel, rfl⟩ : ∃ n, fuel = n + 1 := by
      rw [List.length_cons] at hfuel
      exact ⟨fuel - 1, by omega⟩
    rw [rlBytes, List.flatMap_cons] at hbytes
    rw [rlExpansion, List.flatMap_cons, ← List.append_assoc] at hout
    obtain ⟨hfirst, hrest⟩ := HoldsSpan.append_iff.1 hbytes
    have hlen := h.1.len
    have hbegins : out ++ item.expansion <+: x.output := by
      rw [← hout]
      exact List.prefix_append ..
    exact (emits_rlBlock ram hput h hlt hfirst hbegins).roundsWhile_succ (by omega) hbegins
      fun hlt' u' m' h' => ih h' hlt' hrest hout (Nat.le_of_succ_le_succ hfuel)

end Run

/-! ### The calls -/

variable {μ : Type} {bus : Bus μ} {p : Proc} {holds : μ → Memory → Prop} {region : BitVec 32 → Prop}
  {cpu : Proc → Armcpu} {m : Memory}

/-- The size that a header announces. -/
def headerSize (header : BitVec 32) : ℕ := (header >>> 8).toNat

theorem headerSize_lt (header : BitVec 32) : headerSize header < 2 ^ 24 := by
  rw [headerSize, BitVec.toNat_ushiftRight, Nat.shiftRight_eq_div_pow]
  exact Nat.div_lt_of_lt_mul header.isLt

/-- A header and bytes behind it lie at `source`, and there is room at `dest` for what the header
announces, none of it where the header and the bytes are. -/
structure StreamAt (region : BitVec 32 → Prop) (m : Memory) (source dest header : BitVec 32)
    (bytes : List (BitVec 8)) : Prop where
  aligned : 4 ∣ source.toNat
  stored : HoldsSpan (fun a => region a ∧ ∀ i < headerSize header, a ≠ behind dest i) m source
    (leBytes 4 header.toNat ++ bytes)
  room : SpanIn region dest (headerSize header)

/-- The expansion that a header announces. -/
def expansionOf (m : Memory) (dest header : BitVec 32) (output : List (BitVec 8))
    (h : headerSize header ≤ output.length) : Expansion :=
  ⟨m, dest, headerSize header, output, h, by
    rw [headerSize]
    exact (header >>> 8).isLt.le⟩

section Frame

variable {header : BitVec 32} {bytes output : List (BitVec 8)} {fuel : ℕ}
  {block : UnComp → Call μ (BitVec 32 ⊕ UnComp)}

theorem StreamAt.headerStored {source dest : BitVec 32} (h : StreamAt region m source dest header bytes) :
    HoldsSpan region m source (leBytes 4 header.toNat) := by
  intro i hi
  obtain ⟨hkeep, hbyte⟩ := (HoldsSpan.append_iff.1 h.stored).1 i hi
  exact ⟨hkeep.1, hbyte⟩

theorem StreamAt.bytesStored {source dest : BitVec 32} (h : StreamAt region m source dest header bytes) :
    HoldsSpan (fun a => region a ∧ ∀ i < headerSize header, a ≠ behind dest i) m (behind source 4)
      bytes := by
  have hbytes := (HoldsSpan.append_iff.1 h.stored).2
  rwa [length_leBytes] at hbytes

/-- Sources in the BIOS are refused. -/
theorem leads_unComp_of_badSource (ram : Ram bus p holds region)
    (h : StreamAt region m ((cpu p).R 0) ((cpu p).R 1) header bytes)
    (hbad : badSource ((cpu p).R 0 + 4) header) :
    Leads (Looks holds) (unComp bus p block fuel) (cpu, m) 0 (cpu, m) := by
  refine (leads_getR 0).bind ((leads_getR 1).bind ((ram.leads_readWord h.aligned h.headerStored).bind ?_))
  rw [if_pos hbad]
  exact leads_pure _ _

/-- What the call makes of its blocks; it returns at the last byte, or at once if there is none. -/
theorem leads_unComp (ram : Ram bus p holds region)
    (h : StreamAt region m ((cpu p).R 0) ((cpu p).R 1) header bytes)
    (hsource : ¬ badSource ((cpu p).R 0 + 4) header) (hsize : headerSize header ≤ output.length)
    (hblocks : 0 < headerSize header →
      Emits holds cpu (expansionOf m ((cpu p).R 1) header output hsize)
        (roundsWhile (fun u : UnComp => 0 < u.len) block fuel
          ⟨behind ((cpu p).R 0) 4, (cpu p).R 1, headerSize header, 0, 0, 0⟩) m output
        fun _ _ => False) :
    Leads (Looks holds) (unComp bus p block fuel) (cpu, m)
      (if headerSize header = 0 then 1 else 0)
      (cpu, writeSpan m ((cpu p).R 1) (output.take (headerSize header))) := by
  refine (leads_getR 0).bind ((leads_getR 1).bind ((ram.leads_readWord h.aligned h.headerStored).bind ?_))
  rw [if_neg hsource]
  split_ifs with hzero
  · rw [hzero, List.take_zero, writeSpan_nil]
    have hloop (u : UnComp) (hu : u.len = 0) :
        Leads (Looks holds) (roundsWhile (fun u : UnComp => 0 < u.len) block fuel u) (cpu, m) (.inr u)
          (cpu, m) := by
      refine leads_roundsWhile_stop ?_ fuel _
      rw [hu]
      exact Nat.lt_irrefl 0
    exact (hloop _ hzero).bind (leads_pure _ _)
  · rcases hblocks (Nat.pos_of_ne_zero hzero) with ⟨-, hdone⟩ | ⟨-, -, -, -, -, hnever⟩
    · exact hdone.bind (leads_pure _ _)
    · exact hnever.elim

end Frame

section Calls

variable {header : BitVec 32} {fuel k : ℕ} {put : UnComp → BitVec 8 → Call μ (BitVec 32 ⊕ UnComp)}

theorem leads_lz77 (ram : Ram bus p holds region) {stream : Lz10Stream}
    (h : StreamAt region m ((cpu p).R 0) ((cpu p).R 1) header stream.bytes)
    (hfits : LzFits k [] stream.tokens) (hsize : headerSize header ≤ stream.expansion.length)
    (hsource : ¬ badSource ((cpu p).R 0 + 4) header) (hfuel : stream.blocks.length ≤ fuel)
    (hk : 0 < k)
    (hput : Puts holds cpu (expansionOf m ((cpu p).R 1) header stream.expansion hsize) k put) :
    Leads (Looks holds) (unComp bus p (lz77Block bus p put) fuel) (cpu, m)
      (if headerSize header = 0 then 1 else 0)
      (cpu, writeSpan m ((cpu p).R 1) (stream.expansion.take (headerSize header))) :=
  leads_unComp ram h hsource hsize fun hpos =>
    emits_lz77Blocks ram h.room hput hk stream.full hfits ⟨Emitted.start _ k _, rfl⟩ hpos h.bytesStored rfl
      hfuel

theorem leads_rl (ram : Ram bus p holds region) {items : List RlItem}
    (h : StreamAt region m ((cpu p).R 0) ((cpu p).R 1) header (rlBytes items))
    (hsize : headerSize header ≤ (rlExpansion items).length)
    (hsource : ¬ badSource ((cpu p).R 0 + 4) header) (hfuel : items.length ≤ fuel)
    (hput : Puts holds cpu (expansionOf m ((cpu p).R 1) header (rlExpansion items) hsize) k put) :
    Leads (Looks holds) (unComp bus p (rlBlock bus p put) fuel) (cpu, m)
      (if headerSize header = 0 then 1 else 0)
      (cpu, writeSpan m ((cpu p).R 1) ((rlExpansion items).take (headerSize header))) :=
  leads_unComp ram h hsource hsize fun hpos =>
    emits_rlItems ram hput ⟨Emitted.start _ k _, rfl⟩ hpos h.bytesStored rfl hfuel

end Calls

/-- From a source that is not refused, the call for work memory writes the expansion of a stream, as
long as the header announces. -/
theorem lz77UnCompWram_expands (ram : Ram bus p holds region) {header : BitVec 32}
    {stream : Lz10Stream} {fuel : ℕ}
    (h : StreamAt region m ((cpu p).R 0) ((cpu p).R 1) header stream.bytes)
    (hfits : LzFits 1 [] stream.tokens) (hsize : headerSize header ≤ stream.expansion.length)
    (hsource : ¬ badSource ((cpu p).R 0 + 4) header) (hfuel : stream.blocks.length ≤ fuel) :
    Leads (Looks holds) (lz77UnCompWram bus p fuel) (cpu, m)
      (if headerSize header = 0 then 1 else 0)
      (cpu, writeSpan m ((cpu p).R 1) (stream.expansion.take (headerSize header))) :=
  leads_lz77 ram h hfits hsize hsource hfuel Nat.one_pos (puts_putWram ram h.room)

section Sample

/-- Two bytes, and three more from where they start. -/
def sampleStream : Lz10Stream where
  blocks := [
    { flags := 0x20
      tokens := [.literal 1, .literal 2, .copy 0 1]
      length_le := by decide
      flags_eq := by decide }]
  full := by decide

/-- A memory with a header for four bytes and the stream. -/
def streamMemory (source : BitVec 32) (bytes : List (BitVec 8)) : Memory :=
  writeSpan (fun _ => 0) source ([0x10, 4, 0, 0] ++ bytes)

/-- The caller of the samples. -/
def streamCaller : Proc → Armcpu := callerCpu [0x02000000, 0x02000100]

theorem sampleStream_stored :
    StreamAt (MainRegion .arm9 0) (streamMemory 0x02000000 sampleStream.bytes)
      ((streamCaller .arm9).R 0) ((streamCaller .arm9).R 1) 0x410 sampleStream.bytes :=
  ⟨by decide, by decide, by decide⟩

theorem lz77UnCompWram_expands_sample :
    Leads (Looks (HoldsMain .arm9 0)) (lz77UnCompWram (mmuBus Memory.noDevices fun _ => 0) .arm9 1)
      (streamCaller, streamMemory 0x02000000 sampleStream.bytes) 0
      (streamCaller, writeSpan (streamMemory 0x02000000 sampleStream.bytes) 0x02000100 [1, 2, 1, 2]) :=
  have hfits : LzFits 1 [] sampleStream.tokens := by decide
  lz77UnCompWram_expands (ram_mmuBus Memory.noDevices (fun _ => 0) .arm9 0) sampleStream_stored hfits
    (by decide) (by decide) (Nat.le_refl 1)

/-- A stream in the instruction memory of the ARM9 is refused. -/
theorem lz77UnCompWram_refuses_itcm :
    ¬ ∀ (m : Memory) (source dest header : BitVec 32) (stream : Lz10Stream),
      StreamAt (fun _ => True) m source dest header stream.bytes → LzFits 1 [] stream.tokens →
      headerSize header ≤ stream.expansion.length → ∃ fuel ret,
        Leads (Looks Eq) (lz77UnCompWram flatBus .arm9 fuel) (callerCpu [source, dest], m) ret
          (callerCpu [source, dest],
            writeSpan m dest (stream.expansion.take (headerSize header))) := by
  intro h
  have hstream : StreamAt (fun _ => True) (streamMemory 0x01FF8000 sampleStream.bytes) 0x01FF8000
      0x02000000 0x410 sampleStream.bytes := ⟨by decide, by decide, fun _ _ => trivial⟩
  obtain ⟨fuel, ret, hrun⟩ := h _ 0x01FF8000 0x02000000 0x410 sampleStream hstream
    (by decide) (by decide)
  have hrefused : Leads (Looks Eq) (lz77UnCompWram flatBus .arm9 fuel)
      (callerCpu [0x01FF8000, 0x02000000], _) 0 (callerCpu [0x01FF8000, 0x02000000], _) :=
    leads_unComp_of_badSource (ram_flatBus .arm9) hstream (by decide)
  have hcell := congrFun (leads_flat_unique hrefused hrun) 0x02000000
  revert hcell
  decide

end Sample

/-- The calls for video memory leave the same memory as those for work memory. -/
theorem unCompVram_agrees (ram : Ram bus p holds region) (header : BitVec 32) (fuel : ℕ)
    (hdest : 2 ∣ ((cpu p).R 1).toNat) (heven : 2 ∣ headerSize header) :
    (∀ stream : Lz10Stream, StreamAt region m ((cpu p).R 0) ((cpu p).R 1) header stream.bytes →
      LzFits 2 [] stream.tokens → headerSize header ≤ stream.expansion.length →
      stream.blocks.length ≤ fuel → ∃ ret m',
        Leads (Looks holds) (lz77UnCompWram bus p fuel) (cpu, m) ret (cpu, m') ∧
          Leads (Looks holds) (lz77UnCompVram bus p fuel) (cpu, m) ret (cpu, m')) ∧
      ∀ items : List RlItem,
        StreamAt region m ((cpu p).R 0) ((cpu p).R 1) header (rlBytes items) →
        headerSize header ≤ (rlExpansion items).length → items.length ≤ fuel → ∃ ret m',
          Leads (Looks holds) (rlUnCompWram bus p fuel) (cpu, m) ret (cpu, m') ∧
            Leads (Looks holds) (rlUnCompVram bus p fuel) (cpu, m) ret (cpu, m') := by
  constructor
  · intro stream h hfits hsize hfuel
    by_cases hbad : badSource ((cpu p).R 0 + 4) header
    · exact ⟨_, _, leads_unComp_of_badSource ram h hbad, leads_unComp_of_badSource ram h hbad⟩
    · exact ⟨_, _,
        leads_lz77 ram h (hfits.mono (Nat.le_succ 1)) hsize hbad hfuel Nat.one_pos
          (puts_putWram ram h.room),
        leads_lz77 ram h hfits hsize hbad hfuel Nat.two_pos (puts_putVram ram h.room hdest heven)⟩
  · intro items h hsize hfuel
    by_cases hbad : badSource ((cpu p).R 0 + 4) header
    · exact ⟨_, _, leads_unComp_of_badSource ram h hbad, leads_unComp_of_badSource ram h hbad⟩
    · exact ⟨_, _, leads_rl ram h hsize hbad hfuel (puts_putWram ram h.room),
        leads_rl ram h hsize hbad hfuel (puts_putVram ram h.room hdest heven)⟩

/-- The four bytes as a run and as they are. -/
def sampleItems : List RlItem := [.repeated 0 1, .plain [2] (by decide) (by decide)]

theorem unCompVram_agrees_sample :
    (∃ ret m',
      Leads (Looks (HoldsMain .arm9 0)) (lz77UnCompWram (mmuBus Memory.noDevices fun _ => 0) .arm9 2)
        (streamCaller, streamMemory 0x02000000 sampleStream.bytes) ret (streamCaller, m') ∧
      Leads (Looks (HoldsMain .arm9 0)) (lz77UnCompVram (mmuBus Memory.noDevices fun _ => 0) .arm9 2)
        (streamCaller, streamMemory 0x02000000 sampleStream.bytes) ret (streamCaller, m')) ∧
      ∃ ret m',
        Leads (Looks (HoldsMain .arm9 0)) (rlUnCompWram (mmuBus Memory.noDevices fun _ => 0) .arm9 2)
          (streamCaller, streamMemory 0x02000000 (rlBytes sampleItems)) ret (streamCaller, m') ∧
        Leads (Looks (HoldsMain .arm9 0)) (rlUnCompVram (mmuBus Memory.noDevices fun _ => 0) .arm9 2)
          (streamCaller, streamMemory 0x02000000 (rlBytes sampleItems)) ret (streamCaller, m') := by
  constructor
  · exact (unCompVram_agrees (ram_mmuBus Memory.noDevices (fun _ => 0) .arm9 0) 0x410 2 (by decide)
      (by decide)).1 sampleStream sampleStream_stored (by decide) (by decide) (by decide)
  · exact (unCompVram_agrees (ram_mmuBus Memory.noDevices (fun _ => 0) .arm9 0) 0x410 2 (by decide)
      (by decide)).2 sampleItems ⟨by decide, by decide, by decide⟩ (by decide) (by decide)

end Desmume.Bios
