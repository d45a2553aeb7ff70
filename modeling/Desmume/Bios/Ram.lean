import Desmume.Bios.SwiMemory
import Desmume.Library.CircularMemory
import Desmume.Library.LittleEndian
import Desmume.Library.SeenRun
import Desmume.Memory.MmuLaw

/-! Plain memory under the BIOS calls. A call that keeps to it is known by what it makes of the bytes,
whatever else the hardware has. The main memory behind the memory accesses of the emulator is such a
memory. -/

namespace Desmume.Bios
open Library Memory

section PlainMemory

variable {μ : Type}

abbrev Memory := BitVec 32 → BitVec 8

/-- The addresses of a span are in a region. -/
def SpanIn (region : BitVec 32 → Prop) (a : BitVec 32) (n : ℕ) : Prop := ∀ i < n, region (behind a i)

theorem dvd_behind {a : BitVec 32} {n i : ℕ} (hn : n ∣ 2 ^ 32) (ha : n ∣ a.toNat) (hi : n ∣ i) :
    n ∣ (behind a i).toNat := by
  rw [behind, BitVec.toNat_add, BitVec.toNat_ofNat, Nat.add_mod_mod, Nat.dvd_mod_iff hn]
  exact Nat.dvd_add ha hi

theorem even_behind {a : BitVec 32} {i : ℕ} (ha : 2 ∣ a.toNat) (hi : 2 ∣ i) :
    2 ∣ (behind a i).toNat := dvd_behind (by decide) ha hi

/-- A processor has plain memory in a region, with `holds` for what is there. Wide accesses are those to
addresses that are multiples of their width. -/
structure Ram (bus : Bus μ) (p : Proc) (holds : μ → Memory → Prop) (region : BitVec 32 → Prop) :
    Prop where
  read08 : ∀ {a b hw m}, holds hw m → HoldsSpan region m a [b] → ∀ c,
    bus.read08 p a (c, hw) = (b, c, hw)
  read16 : ∀ {a bs hw m}, holds hw m → 2 ∣ a.toNat → HoldsSpan region m a bs → bs.length = 2 → ∀ c,
    bus.read16 p a (c, hw) = (BitVec.ofNat 16 (ofLeBytes bs), c, hw)
  read32 : ∀ {a bs hw m}, holds hw m → 4 ∣ a.toNat → HoldsSpan region m a bs → bs.length = 4 → ∀ c,
    bus.read32 p a (c, hw) = (BitVec.ofNat 32 (ofLeBytes bs), c, hw)
  write08 : ∀ {a hw m}, holds hw m → SpanIn region a 1 → ∀ v c, ∃ hw',
    bus.write08 p a v (c, hw) = (c, hw') ∧ holds hw' (writeSpan m a [v])
  write16 : ∀ {a hw m}, holds hw m → 2 ∣ a.toNat → SpanIn region a 2 → ∀ v c, ∃ hw',
    bus.write16 p a v (c, hw) = (c, hw') ∧ holds hw' (writeSpan m a (leBytes 2 v.toNat))
  write32 : ∀ {a hw m}, holds hw m → 4 ∣ a.toNat → SpanIn region a 4 → ∀ v c, ∃ hw',
    bus.write32 p a v (c, hw) = (c, hw') ∧ holds hw' (writeSpan m a (leBytes 4 v.toNat))

instance (region : BitVec 32 → Prop) [DecidablePred region] (a : BitVec 32) (n : ℕ) :
    Decidable (SpanIn region a n) := inferInstanceAs (Decidable (∀ i < n, _))

def Armcpu.setR (c : Armcpu) (i : Fin 16) (val : BitVec 32) : Armcpu :=
  { c with R := Function.update c.R i val }

/-- What the calls on plain memory depend on. -/
def Looks (holds : μ → Memory → Prop) (s : Nds μ) (x : (Proc → Armcpu) × Memory) : Prop :=
  s.cpu = x.1 ∧ holds s.hw x.2

section Leads

variable {bus : Bus μ} {p : Proc} {holds : μ → Memory → Prop} {region : BitVec 32 → Prop} {α : Type}
  {cpu : Proc → Armcpu} {m : Memory}

theorem leads_access {f : Armcpu × μ → α × Armcpu × μ} {a : α} {m' : Memory}
    (h : ∀ hw, holds hw m → ∃ hw', f (cpu p, hw) = (a, cpu p, hw') ∧ holds hw' m') :
    Leads (Looks holds) (access p f) (cpu, m) a (cpu, m') := by
  rintro ⟨cpu', hw⟩ ⟨rfl, hm⟩
  obtain ⟨hw', hf, hm'⟩ := h hw hm
  refine ⟨⟨cpu', hw'⟩, ?_, rfl, hm'⟩
  simp only [access, hf, Function.update_eq_self]

theorem leads_getR (i : Fin 16) :
    Leads (Looks holds) (getR p i) (cpu, m) ((cpu p).R i) (cpu, m) :=
  leads_access fun hw hm => ⟨hw, rfl, hm⟩

theorem leads_setR (c : Armcpu) (i : Fin 16) (val : BitVec 32) :
    Leads (Looks holds) (setR p i val) (Function.update cpu p c, m) ()
      (Function.update cpu p (c.setR i val), m) := by
  rintro ⟨cpu', hw⟩ ⟨rfl, hm⟩
  refine ⟨_, rfl, ?_, hm⟩
  change Function.update (Function.update cpu p c) p ((Function.update cpu p c p).setR i val) = _
  rw [Function.update_self, Function.update_idem]

variable (ram : Ram bus p holds region) {a : BitVec 32} {bs : List (BitVec 8)}
include ram

theorem Ram.leads_read08 {b : BitVec 8} (h : HoldsSpan region m a [b]) :
    Leads (Looks holds) (mmuRead08 bus p a) (cpu, m) b (cpu, m) :=
  leads_access fun hw hm => ⟨hw, ram.read08 hm h _, hm⟩

theorem Ram.leads_read16 (ha : 2 ∣ a.toNat) (h : HoldsSpan region m a bs) (hbs : bs.length = 2) :
    Leads (Looks holds) (mmuRead16 bus p a) (cpu, m) (BitVec.ofNat 16 (ofLeBytes bs)) (cpu, m) :=
  leads_access fun hw hm => ⟨hw, ram.read16 hm ha h hbs _, hm⟩

theorem Ram.leads_read32 (ha : 4 ∣ a.toNat) (h : HoldsSpan region m a bs) (hbs : bs.length = 4) :
    Leads (Looks holds) (mmuRead32 bus p a) (cpu, m) (BitVec.ofNat 32 (ofLeBytes bs)) (cpu, m) :=
  leads_access fun hw hm => ⟨hw, ram.read32 hm ha h hbs _, hm⟩

/-- A word that has been stored somewhere. -/
theorem Ram.leads_readWord {x : BitVec 32} (ha : 4 ∣ a.toNat)
    (h : HoldsSpan region m a (leBytes 4 x.toNat)) :
    Leads (Looks holds) (mmuRead32 bus p a) (cpu, m) x (cpu, m) := by
  have hread : Leads (Looks holds) (mmuRead32 bus p a) (cpu, m) _ (cpu, m) :=
    ram.leads_read32 ha h (length_leBytes 4 _)
  rwa [ofLeBytes_leBytes_of_lt (n := 4) x.isLt, BitVec.ofNat_toNat, BitVec.setWidth_eq] at hread

theorem Ram.leads_write08 (h : SpanIn region a 1) (v : BitVec 8) :
    Leads (Looks holds) (mmuWrite08 bus p a v) (cpu, m) () (cpu, writeSpan m a [v]) := by
  refine leads_access fun hw hm => ?_
  obtain ⟨hw', hwrite, hm'⟩ := ram.write08 hm h v (cpu p)
  exact ⟨hw', by rw [hwrite], hm'⟩

theorem Ram.leads_write16 (ha : 2 ∣ a.toNat) (h : SpanIn region a 2) (v : BitVec 16) :
    Leads (Looks holds) (mmuWrite16 bus p a v) (cpu, m) ()
      (cpu, writeSpan m a (leBytes 2 v.toNat)) := by
  refine leads_access fun hw hm => ?_
  obtain ⟨hw', hwrite, hm'⟩ := ram.write16 hm ha h v (cpu p)
  exact ⟨hw', by rw [hwrite], hm'⟩

theorem Ram.leads_write32 (ha : 4 ∣ a.toNat) (h : SpanIn region a 4) (v : BitVec 32) :
    Leads (Looks holds) (mmuWrite32 bus p a v) (cpu, m) ()
      (cpu, writeSpan m a (leBytes 4 v.toNat)) := by
  refine leads_access fun hw hm => ?_
  obtain ⟨hw', hwrite, hm'⟩ := ram.write32 hm ha h v (cpu p)
  exact ⟨hw', by rw [hwrite], hm'⟩

end Leads

section Flat

/-- A bus with memory at every address and nothing else. -/
def flatBus : Bus Memory where
  read08 _ a x := (x.2 a, x)
  read16 _ a x := (BitVec.ofNat 16 (ofLeBytes ((List.range 2).map fun i => x.2 (behind a i))), x)
  read32 _ a x := (BitVec.ofNat 32 (ofLeBytes ((List.range 4).map fun i => x.2 (behind a i))), x)
  write08 _ a v x := (x.1, writeSpan x.2 a [v])
  write16 _ a v x := (x.1, writeSpan x.2 a (leBytes 2 v.toNat))
  write32 _ a v x := (x.1, writeSpan x.2 a (leBytes 4 v.toNat))
  cp15Ctrl _ := 0
  dtcmRegion _ := 0
  isDebugConsole _ := false

theorem map_behind {region : BitVec 32 → Prop} {m : Memory} {a : BitVec 32} {bs : List (BitVec 8)}
    (h : HoldsSpan region m a bs) : (List.range bs.length).map (fun i => m (behind a i)) = bs := by
  refine List.ext_getElem ?_ fun i hi hi' => ?_
  · rw [List.length_map, List.length_range]
  · rw [List.getElem_map, List.getElem_range]
    exact (h i hi').2

theorem ram_flatBus (p : Proc) : Ram flatBus p Eq fun _ => True where
  read08 {a b hw m} hm h c := by
    subst hm
    have hb := (h 0 Nat.one_pos).2
    rw [behind_zero] at hb
    exact Prod.ext hb rfl
  read16 {a bs hw m} hm _ h hbs c := by
    subst hm
    have hspan := map_behind h
    rw [hbs] at hspan
    simp only [flatBus, hspan]
  read32 {a bs hw m} hm _ h hbs c := by
    subst hm
    have hspan := map_behind h
    rw [hbs] at hspan
    simp only [flatBus, hspan]
  write08 hm _ _ _ := ⟨_, rfl, hm ▸ rfl⟩
  write16 hm _ _ _ _ := ⟨_, rfl, hm ▸ rfl⟩
  write32 hm _ _ _ _ := ⟨_, rfl, hm ▸ rfl⟩

/-- What a program makes of the memory there. -/
theorem leads_flat_unique {α : Type} {f : Call Memory α} {cpu cpu' cpu'' : Proc → Armcpu}
    {m m' m'' : Memory} {a b : α} (h : Leads (Looks Eq) f (cpu, m) a (cpu', m'))
    (h' : Leads (Looks Eq) f (cpu, m) b (cpu'', m'')) : m' = m'' := by
  obtain ⟨s, hs, -, hm⟩ := h ⟨cpu, m⟩ ⟨rfl, rfl⟩
  obtain ⟨s', hs', -, hm'⟩ := h' ⟨cpu, m⟩ ⟨rfl, rfl⟩
  rw [hs, Option.some.injEq, Prod.mk.injEq] at hs'
  exact hm.symm.trans ((congrArg Nds.hw hs'.2).trans hm')

end Flat

/-- A processor as a call finds it, with the first registers. -/
def callerCpu (rs : List (BitVec 32)) : Proc → Armcpu := fun _ =>
  ⟨fun i => rs.getD i 0, 0, 0, false, false, 0⟩

end PlainMemory

/-! ### The main memory -/

section MainMemory

variable {δ : Type}

def busRead (dev : Devices δ) (p : Proc) (w : Width) (n : ℕ) (a : BitVec 32) (x : Armcpu × MmuState δ) :
    BitVec n × Armcpu × MmuState δ :=
  let r := (mmuRead dev p .data w a.toNat x.2).getD (0, x.2)
  (BitVec.ofNat n r.1, x.1, r.2)

def busWrite (dev : Devices δ) (p : Proc) (w : Width) {n : ℕ} (a : BitVec 32) (v : BitVec n)
    (x : Armcpu × MmuState δ) : Armcpu × MmuState δ :=
  (x.1, (mmuWrite dev p .data w a.toNat v.toNat x.2).getD x.2)

/-- The accesses of the calls are the data accesses of the processors. -/
def mmuBus (dev : Devices δ) (ctrl : MmuState δ → BitVec 32) : Bus (MmuState δ) where
  read08 p := busRead dev p .w8 8
  read16 p := busRead dev p .w16 16
  read32 p := busRead dev p .w32 32
  write08 p := busWrite dev p .w8
  write16 p := busWrite dev p .w16
  write32 p := busWrite dev p .w32
  cp15Ctrl := ctrl
  dtcmRegion s := BitVec.ofNat 32 s.dtcmRegion
  isDebugConsole s := match s.console with
    | .debug => true
    | _ => false

/-- The first four megabytes of the main memory, as far as they are not behind the DTCM. -/
def MainRegion (p : Proc) (dtcm : ℕ) (a : BitVec 32) : Prop :=
  0x02000000 ≤ a.toNat ∧ a.toNat < 0x02400000 ∧ (p = .arm9 → a.toNat &&& 0xFFFFC000 ≠ dtcm)

instance (p : Proc) (dtcm : ℕ) (a : BitVec 32) : Decidable (MainRegion p dtcm a) :=
  inferInstanceAs (Decidable (_ ∧ _ ∧ _))

def HoldsMain (p : Proc) (dtcm : ℕ) (s : MmuState δ) (m : Memory) : Prop :=
  s.dtcmRegion = dtcm ∧ ∀ a, MainRegion p dtcm a → s.mem .mainMem (a.toNat - 0x02000000) = m a

section Cells

variable {p : Proc} {dtcm : ℕ} {s : MmuState δ} {m : Memory} {a : BitVec 32} {w : Width}

theorem MainRegion.not_dtcmHit (h : MainRegion p dtcm a) (hs : s.dtcmRegion = dtcm) :
    ¬ dtcmHit p a.toNat s := fun hd => h.2.2 hd.1 (hd.2.trans hs)

theorem MainRegion.toNat_behind (h : MainRegion p dtcm a) {i : ℕ} (hi : i < 4) :
    (behind a i).toNat = a.toNat + i := by
  have hlt := h.2.1
  rw [behind, BitVec.toNat_add, BitVec.toNat_ofNat]
  omega

theorem align_eq_self (ha : w.bytes ∣ a.toNat) : align w a.toNat = a.toNat := by
  rw [align, Nat.mod_eq_zero_of_dvd ha, Nat.sub_zero]

theorem MainRegion.byteCell (h : MainRegion p dtcm a) (hs : s.dtcmRegion = dtcm) :
    byteCell p s a.toNat = some (.mainMem, a.toNat - 0x02000000) := by
  have hdtcm := h.not_dtcmHit hs
  obtain ⟨hlow, hhigh, -⟩ := h
  have hoff : a.toNat % mainMemSize s.console = a.toNat - 0x02000000 := by
    cases s.console <;> simp only [mainMemSize] <;> omega
  rw [Memory.byteCell, if_neg hdtcm, if_pos (by omega), hoff]

theorem Width.bytes_le (w : Width) : 0 < w.bytes ∧ w.bytes ≤ 4 := by cases w <;> decide

theorem busRead_main (dev : Devices δ) {n : ℕ} {bs : List (BitVec 8)} (hm : HoldsMain p dtcm s m)
    (ha : w.bytes ∣ a.toNat) (h : HoldsSpan (MainRegion p dtcm) m a bs) (hbs : bs.length = w.bytes)
    (c : Armcpu) : busRead dev p w n a (c, s) = (BitVec.ofNat n (ofLeBytes bs), c, s) := by
  obtain ⟨hpos, hle⟩ := Width.bytes_le w
  have hregion : MainRegion p dtcm a := by
    have h0 := (h 0 (by omega)).1
    rwa [behind_zero] at h0
  have hcell := hregion.byteCell (s := s) hm.1
  rw [← align_eq_self ha] at hcell
  have hload : load (s.mem .mainMem) (a.toNat - 0x02000000) w.bytes = bs := by
    refine List.ext_getElem ?_ fun i hi hi' => ?_
    · rw [length_load, hbs]
    · obtain ⟨hin, hbyte⟩ := h i hi'
      have hlow := hregion.1
      rw [← hbyte, ← hm.2 _ hin, hregion.toNat_behind (by omega)]
      have hplace : a.toNat - 0x02000000 + i = a.toNat + i - 0x02000000 := by omega
      simp only [load, List.getElem_map, List.getElem_range', Nat.one_mul, hplace]
  have hdvd : (a.toNat - 0x02000000) % w.bytes = 0 :=
    Nat.mod_eq_zero_of_dvd (Nat.dvd_sub ha (by cases w <;> decide))
  have hread := mmuRead_of_cell dev hcell (by rw [align_eq_self ha]; exact hdvd)
  rw [align_eq_self ha] at hread
  simp only [busRead, hread, Option.getD_some, hload]

theorem store_main {n : ℕ} (v : ℕ) (hm : HoldsMain p dtcm s m) (h : MainRegion p dtcm a) (hn : n ≤ 4) :
    ∀ b, MainRegion p dtcm b →
      store (s.mem .mainMem) (a.toNat - 0x02000000) (leBytes n v) (b.toNat - 0x02000000) =
        writeSpan m a (leBytes n v) b := by
  intro b hb
  have hlow := h.1
  have hblow := hb.1
  have hlt := h.2.1
  rw [store, writeSpan, hm.2 b hb, BitVec.toNat_sub]
  split_ifs with hle
  · have hsub : (2 ^ 32 - a.toNat + b.toNat) % 2 ^ 32 =
        b.toNat - 0x02000000 - (a.toNat - 0x02000000) := by omega
    rw [hsub, List.getD_eq_getElem?_getD]
  · rw [List.getD_eq_default]
    rw [length_leBytes]
    omega

theorem busWrite_main (dev : Devices δ) {n : ℕ} (hm : HoldsMain p dtcm s m) (ha : w.bytes ∣ a.toNat)
    (h : SpanIn (MainRegion p dtcm) a w.bytes) (v : BitVec n) (c : Armcpu) :
    ∃ s', busWrite dev p w a v (c, s) = (c, s') ∧
      HoldsMain p dtcm s' (writeSpan m a (leBytes w.bytes v.toNat)) := by
  obtain ⟨hpos, hle⟩ := Width.bytes_le w
  have hregion : MainRegion p dtcm a := by
    have h0 := h 0 hpos
    rwa [behind_zero] at h0
  have hcell := hregion.byteCell (s := s) hm.1
  rw [← align_eq_self ha] at hcell
  have hplain : ¬ ByteWriteIgnored p s w a.toNat := by
    intro hignored
    have hlow := hregion.1
    have hhigh := hregion.2.1
    simp only [ByteWriteIgnored] at hignored
    omega
  have hwrite := mmuWrite_of_cell dev v.toNat hcell
  rw [if_neg hplain, align_eq_self ha] at hwrite
  refine ⟨t1Write w .mainMem (a.toNat - 0x02000000) v.toNat s, ?_, hm.1, fun b hb => ?_⟩
  · simp only [busWrite, hwrite, Option.getD_some]
  · simp only [t1Write, Function.update_self]
    exact store_main _ hm hregion hle b hb

end Cells

/-- The main memory is plain memory for the calls of both processors. -/
theorem ram_mmuBus (dev : Devices δ) (ctrl : MmuState δ → BitVec 32) (p : Proc) (dtcm : ℕ) :
    Ram (mmuBus dev ctrl) p (HoldsMain p dtcm) (MainRegion p dtcm) where
  read08 {_ b _ _} hm h c := by
    have hread := busRead_main dev (w := .w8) (n := 8) hm (Nat.one_dvd _) h rfl c
    have hbyte : BitVec.ofNat 8 (ofLeBytes [b]) = b := by
      rw [ofLeBytes, ofLeBytes, Nat.mul_zero, Nat.add_zero, BitVec.ofNat_toNat, BitVec.setWidth_eq]
    rwa [hbyte] at hread
  read16 hm ha h hbs c := busRead_main dev (w := .w16) hm ha h hbs c
  read32 hm ha h hbs c := busRead_main dev (w := .w32) hm ha h hbs c
  write08 hm h v c := by
    have hwrite := busWrite_main dev (w := .w8) hm (Nat.one_dvd _) h v c
    have hbyte : leBytes 1 v.toNat = [v] := by
      rw [leBytes, leBytes, BitVec.ofNat_toNat, BitVec.setWidth_eq]
    rwa [Width.bytes, hbyte] at hwrite
  write16 hm ha h v c := busWrite_main dev (w := .w16) hm ha h v c
  write32 hm ha h v c := busWrite_main dev (w := .w32) hm ha h v c

end MainMemory

end Desmume.Bios
