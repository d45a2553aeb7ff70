import Desmume.Library.Interleaving
import Desmume.Raster.PostProcess
import Desmume.Raster.ShapeEngine

/-! A frame of the software rasterizer by the units of several threads. For the polygons a unit has the
lines that its number is left of under a mask, and for the edge marking and the fog a range of lines. No
two units write to one place, so every order of their steps brings the frame of a single thread. -/

namespace Desmume.Raster
open Library Video

/-- The integers that the interpolated values of a pixel are floored to. -/
structure Interpolated where
  floorW : BitVec 32
  floorZ : BitVec 32
  r : BitVec 32
  g : BitVec 32
  b : BitVec 32
  iu : BitVec 32
  iv : BitVec 32

/-- The floats along a line: from the interpolants of both edges, the width and the columns that are
skipped on the left. -/
structure Shading (V ι : Type*) extends Interpolation V ι where
  span : ι → ι → ℤ → ℤ → ℕ → Interpolated

/-- An entry of `clippedPolys` with what the renderer has for it. The vertices stand as `sort_verts`
leaves them. -/
structure ClippedPoly (V : Type*) where
  polyAttr : BitVec 32
  texParam : BitVec 32
  isLine : Bool
  polyVisible : Bool
  lastTexKey : Texture texParam
  type : ℕ
  verts : ℕ → V

/-- A call of `pixel`: the address, and what is drawn there. -/
abbrev PixelCall := ℕ × Fragment

section Geometry

variable {V ι : Type*} (S : Shading V ι) (fb : Framebuffer) (GFX3D_LineHack : Bool)
  (u : RasterizerUnit)

def ClippedPoly.fragment (p : ClippedPoly V) (polyAttr : PolygonAttributes) (v : Interpolated) :
    Fragment where
  polyAttr
  texParam := p.texParam
  lastTexKey := p.lastTexKey
  floorW := v.floorW
  floorZ := v.floorZ
  r := v.r
  g := v.g
  b := v.b
  iu := v.iu
  iv := v.iv

def ClippedPoly.lineHack (p : ClippedPoly V) : Bool := p.isLine && GFX3D_LineHack

/-- `drawscanline` with its calls of `pixel`. -/
def linePixels (p : ClippedPoly V) (polyAttr : PolygonAttributes) (call : EdgeFx ι × EdgeFx ι) :
    List PixelCall :=
  let lineHack := p.lineHack GFX3D_LineHack
  let left := call.1.toEdgeFxFl
  let right := call.2.toEdgeFxFl
  ((drawscanline true lineHack fb left right).getD []).mapIdx fun i adr =>
    (adr, p.fragment polyAttr (S.span call.1.interpolants call.2.interpolants
      (startWidth lineHack left right) (max 0 (-s32 left.X)) i))

def drawPolygon (p : ClippedPoly V) (polyAttr : PolygonAttributes) : Option (List PixelCall) :=
  (shapeEngine S.toInterpolation u fb (p.lineHack GFX3D_LineHack) p.type p.verts).map fun run =>
    run.1.flatMap (linePixels S fb GFX3D_LineHack p polyAttr)

/-- The attributes are taken again when the word of the attributes is another one, whatever has become
of the texture. -/
def nextAttributes (cache : PolygonAttributes × BitVec 32) (p : ClippedPoly V) :
    PolygonAttributes × BitVec 32 :=
  if cache.2 ≠ p.polyAttr then (getAttributes p.polyAttr p.texParam, p.polyAttr) else cache

def drawPolygons (cache : PolygonAttributes × BitVec 32) :
    List (ClippedPoly V) → Option (List PixelCall)
  | [] => some []
  | p :: polys =>
    if p.polyVisible then do
      let calls ← drawPolygon S fb GFX3D_LineHack u p (nextAttributes cache p).1
      let rest ← drawPolygons (nextAttributes cache p) polys
      return calls ++ rest
    else drawPolygons cache polys

/-- `mainLoop`. -/
def mainLoop : List (ClippedPoly V) → Option (List PixelCall)
  | [] => some []
  | p :: polys =>
    drawPolygons S fb GFX3D_LineHack u (getAttributes p.polyAttr p.texParam, p.polyAttr) (p :: polys)

end Geometry

/-- The units as the constructor of the renderer sets them up. -/
def rasterizerUnit (cores i : ℕ) : RasterizerUnit :=
  if cores = 1 then ⟨false, 0, 0⟩ else ⟨true, BitVec.ofNat 32 (cores - 1), BitVec.ofNat 32 i⟩

/-- The lines of `postprocessParam`. -/
def startLine (cores lines i : ℕ) : ℕ := i * (lines / cores)

def endLine (cores lines i : ℕ) : ℕ := if i < cores - 1 then (i + 1) * (lines / cores) else lines

/-- The pixels of `RenderEdgeMarkingAndFog`: the address, the column and the line. -/
def postProcessPixels (fb : Framebuffer) (cores i : ℕ) : List (ℕ × (ℕ × ℕ)) :=
  let start := startLine cores fb.height i
  (List.range' start (endLine cores fb.height i - start)).flatMap fun y =>
    (List.range fb.width).map fun x => (y * fb.width + x, (x, y))

/-! ### The rows of a call -/

theorem s32_ge (x : ℤ) : -2 ^ 31 ≤ s32 x := by
  have := Int.le_bmod (x := x) (m := 2 ^ 32) (by decide)
  rw [s32]
  omega

theorem exists_s32_eq (x : ℤ) : ∃ k : ℤ, s32 x = x + 2 ^ 32 * k := by
  refine ⟨-(x.bdiv (2 ^ 32)), ?_⟩
  have := Int.bmod_add_bdiv x (2 ^ 32)
  rw [s32]
  omega

theorem startWidth_bounds (lineHack : Bool) (left right : EdgeFxFl) :
    -2 ^ 31 ≤ startWidth lineHack left right ∧ startWidth lineHack left right < 2 ^ 31 := by
  have hw := s32_ge (right.X - s32 left.X)
  have hw' := s32_lt (right.X - s32 left.X)
  have hl := s32_lt |left.nextStepInt|
  have hr := s32_lt |right.nextStepInt|
  rw [startWidth]
  split_ifs
  · constructor <;> omega
  · exact ⟨hw, hw'⟩

theorem columns_of_mem_clipRight {renderer lineHack : Bool} {fb : Framebuffer} (hwidth : fb.width < 2 ^ 31)
    {x width : ℤ} (hx : 0 ≤ x ∧ x < 2 ^ 31) (hw : -2 ^ 32 ≤ width ∧ width < 2 ^ 31) {adr : ℕ}
    {adrs : List ℕ} (h : clipRight renderer lineHack fb x width adr = some adrs) {a : ℕ}
    (ha : a ∈ adrs) : ∃ i : ℕ, x + i < fb.width ∧ a = u64 (adr + i) := by
  have hlow := s32_ge (x + width)
  have hhigh := s32_lt (x + width)
  obtain ⟨k, hk⟩ := exists_s32_eq (x + width)
  have hrest : s32 (fb.width - x) = fb.width - x := s32_of_fits (by omega) (by omega)
  rw [clipRight, hrest] at h
  split_ifs at h with hover hbail
  · obtain rfl := Option.some.inj h
    obtain ⟨i, hi, rfl⟩ := List.mem_map.mp ha
    have := List.mem_range.mp hi
    exact ⟨i, by omega, rfl⟩
  · obtain rfl := Option.some.inj h
    obtain ⟨i, hi, rfl⟩ := List.mem_map.mp ha
    have := List.mem_range.mp hi
    refine ⟨i, ?_, rfl⟩
    unfold u64 at hover
    omega

/-- A unit writes to the row of the line only, and only if there is such a row. -/
theorem row_of_mem_drawscanline {lineHack : Bool} {fb : Framebuffer} {left right : EdgeFxFl}
    (hwidth : fb.width < 2 ^ 31) (hheight : 0 < fb.height) (hline : Fits 32 left.Y) {adrs : List ℕ}
    (h : drawscanline true lineHack fb left right = some adrs) {a : ℕ} (ha : a ∈ adrs) :
    ∃ y x : ℕ, left.Y = y ∧ y < fb.height ∧ x < fb.width ∧ a = y * fb.width + x := by
  rw [drawscanline] at h
  by_cases hrows : OutOfRows true fb left
  · rw [if_pos hrows] at h
    exact absurd h.symm (Option.some_ne_none _)
  rw [if_neg hrows] at h
  have hrow := row_of_not_outOfRows hline hrows hheight
  obtain ⟨y, hy⟩ := Int.eq_ofNat_of_zero_le hrow.1
  have hX := s32_ge left.X
  have hX' := s32_lt left.X
  have hw := startWidth_bounds lineHack left right
  have hfits := fb.fits.2.2
  have hplace {x : ℤ} {i : ℕ} (hx : 0 ≤ x) (hi : x + i < fb.width) :
      u64 (u64 (left.Y * fb.width + x) + i) = y * fb.width + (x.toNat + i) := by
    have hsize : (y * fb.width + fb.width : ℤ) ≤ fb.width * fb.height := by
      calc (y * fb.width + fb.width : ℤ) = (y + 1) * fb.width := by ring
        _ ≤ fb.height * fb.width :=
          mul_le_mul_of_nonneg_right (by omega) (Int.natCast_nonneg _)
        _ = _ := Int.mul_comm ..
    have hlt : (fb.width * fb.height : ℤ) < 2 ^ 62 := by exact_mod_cast hfits
    have hpos : (0 : ℤ) ≤ y * fb.width := mul_nonneg (by omega) (Int.natCast_nonneg _)
    have hcast : ((y * fb.width + (x.toNat + i) : ℕ) : ℤ) = y * fb.width + (x + i) := by
      push_cast
      omega
    rw [u64_add, hy]
    zify
    rw [u64_cast (by omega) (by omega)]
    omega
  have hskip := s32_ge (startWidth lineHack left right + s32 left.X)
  have hskip' := s32_lt (startWidth lineHack left right + s32 left.X)
  split_ifs at h with hneg
  · have hzero : u64 (u64 (left.Y * fb.width + s32 left.X) + -s32 left.X) =
        u64 (left.Y * fb.width + 0) := by
      rw [u64_add, Int.add_neg_cancel_right, Int.add_zero]
    rw [hzero] at h
    obtain ⟨i, hi, rfl⟩ := columns_of_mem_clipRight hwidth ⟨le_rfl, by omega⟩
      ⟨by omega, by omega⟩ h ha
    exact ⟨y, _, hy, by omega, by omega, hplace le_rfl hi⟩
  · obtain ⟨i, hi, rfl⟩ := columns_of_mem_clipRight hwidth ⟨by omega, hX'⟩
      ⟨by omega, by omega⟩ h ha
    exact ⟨y, _, hy, by omega, by omega, hplace (by omega) hi⟩

/-! ### The units share the calls -/

theorem filter_flatMap_eq {α β : Type*} {f : α → List β} {p : β → Bool} {q : α → Bool} {l : List α}
    (h : ∀ a ∈ l, (f a).filter p = if q a then f a else []) :
    (l.flatMap f).filter p = (l.filter q).flatMap f := by
  induction l with
  | nil => rfl
  | cons a l ih =>
    rw [List.flatMap_cons, List.filter_append, h a List.mem_cons_self,
      ih fun b hb => h b (List.mem_cons_of_mem a hb), List.filter_cons]
    split_ifs <;> rfl

/-- The unit that draws at a place. -/
def drawingUnit (fb : Framebuffer) (cores adr : ℕ) : ℕ := adr / fb.width &&& (cores - 1)

theorem drawingUnit_lt (fb : Framebuffer) {cores : ℕ} (h : 0 < cores) (adr : ℕ) :
    drawingUnit fb cores adr < cores := by
  have := Nat.and_le_right (n := adr / fb.width) (m := cores - 1)
  rw [drawingUnit]
  omega

theorem rasterizerUnit_draws {cores i y : ℕ} (hcores : cores ≤ 16) (hi : i < cores) (hy : y < 2 ^ 31) :
    (rasterizerUnit cores i).draws y = true ↔ y &&& (cores - 1) = i := by
  rw [rasterizerUnit]
  split_ifs with hone
  · obtain rfl : i = 0 := by omega
    rw [hone, Nat.sub_self, Nat.and_zero]
    exact ⟨fun _ => rfl, fun _ => rfl⟩
  · have hmask : cores - 1 < 2 ^ 32 := by omega
    rw [RasterizerUnit.draws, Bool.not_true, Bool.false_or, decide_eq_true_eq, BitVec.ofInt_natCast,
      ← BitVec.toNat_inj, BitVec.toNat_and, BitVec.toNat_ofNat, BitVec.toNat_ofNat, BitVec.toNat_ofNat,
      Nat.mod_eq_of_lt (by omega : y < 2 ^ 32), Nat.mod_eq_of_lt hmask,
      Nat.mod_eq_of_lt (by omega : i < 2 ^ 32)]

/-- A framebuffer that `SetFramebufferSize` takes, with columns that fit an `int`. -/
structure Framebuffer.Allocated (fb : Framebuffer) : Prop where
  native : 256 ≤ fb.width ∧ 192 ≤ fb.height
  columns : fb.width < 2 ^ 31

section Shared

variable {V ι : Type*} {S : Shading V ι} {fb : Framebuffer} {GFX3D_LineHack : Bool}

/-- The calls of `everyLine` are in the framebuffer, and each unit makes those at its places. -/
def SharedOut (fb : Framebuffer) (program : RasterizerUnit → Option (List PixelCall)) : Prop :=
  ∃ calls, program everyLine = some calls ∧ (∀ call ∈ calls, call.1 < fb.width * fb.height) ∧
    ∀ cores ≤ 16, ∀ i < cores,
      program (rasterizerUnit cores i) = some (ownProgram (drawingUnit fb cores) calls i)

theorem row_of_mem_linePixels (hfb : fb.Allocated) {p : ClippedPoly V} {polyAttr : PolygonAttributes}
    {call : EdgeFx ι × EdgeFx ι} (hline : Fits 32 call.1.Y) {a : PixelCall}
    (ha : a ∈ linePixels S fb GFX3D_LineHack p polyAttr call) :
    ∃ y x : ℕ, call.1.Y = y ∧ y < fb.height ∧ x < fb.width ∧ a.1 = y * fb.width + x := by
  have hmem : a.1 ∈ (drawscanline true (p.lineHack GFX3D_LineHack) fb call.1.toEdgeFxFl
      call.2.toEdgeFxFl).getD [] := by
    obtain ⟨i, hi, rfl⟩ := List.mem_mapIdx.mp ha
    exact List.getElem_mem hi
  have hheight := hfb.native.2
  rcases hadrs : drawscanline true (p.lineHack GFX3D_LineHack) fb call.1.toEdgeFxFl
    call.2.toEdgeFxFl with _ | adrs
  · rw [hadrs] at hmem
    exact absurd hmem List.not_mem_nil
  · rw [hadrs] at hmem
    exact row_of_mem_drawscanline hfb.columns (by omega) hline hadrs hmem

theorem drawingUnit_row (fb : Framebuffer) (cores : ℕ) {y x : ℕ} (hx : x < fb.width) :
    drawingUnit fb cores (y * fb.width + x) = y &&& (cores - 1) := by
  rw [drawingUnit, Nat.mul_comm, Nat.mul_add_div (by omega), Nat.div_eq_of_lt hx, Nat.add_zero]

theorem drawPolygon_shared (S : Shading V ι) (hfb : fb.Allocated) (GFX3D_LineHack : Bool)
    {p : ClippedPoly V} (htype : 3 ≤ p.type ∧ p.type ≤ 10)
    (hsort : SortedVerts S.toInterpolation p.type p.verts) (polyAttr : PolygonAttributes) :
    SharedOut fb fun u => drawPolygon S fb GFX3D_LineHack u p polyAttr := by
  obtain ⟨calls, failure, n, hengine, hwithin, -, ⟨k, hk, hlast⟩, -⟩ :=
    exists_shapeEngine S.toInterpolation fb (p.lineHack GFX3D_LineHack) p.verts
      (by omega : 1 < p.type) fun k hk => hsort.first ⟨by omega, htype.2⟩ hk
  have hfits {call : EdgeFx ι × EdgeFx ι} (hcall : call ∈ calls) : Fits 32 call.1.Y := by
    obtain ⟨-, hlow, hhigh⟩ := hwithin call hcall
    have h0 := (S.pos (p.verts 0)).y.fits
    have hk' := (S.pos (p.verts k)).y.fits
    rw [← hlast, lineOf, ceil28_4_eq] at hhigh
    rw [lineOf, ceil28_4_eq] at hlow
    exact ⟨by omega, by omega⟩
  have hall : ownCalls everyLine calls = calls := List.filter_eq_self.mpr fun _ _ => rfl
  refine ⟨calls.flatMap (linePixels S fb GFX3D_LineHack p polyAttr), ?_, ?_, ?_⟩
  · dsimp only
    rw [drawPolygon, hengine, hall]
    rfl
  · intro a ha
    obtain ⟨call, hcall, hmem⟩ := List.mem_flatMap.mp ha
    obtain ⟨y, x, -, hy, hx, hadr⟩ := row_of_mem_linePixels hfb (hfits hcall) hmem
    calc a.1 = y * fb.width + x := hadr
      _ < y * fb.width + fb.width := by omega
      _ = (y + 1) * fb.width := (Nat.succ_mul ..).symm
      _ ≤ fb.height * fb.width := Nat.mul_le_mul_right _ hy
      _ = fb.width * fb.height := Nat.mul_comm ..
  · intro cores hcores i hi
    dsimp only
    rw [drawPolygon, hengine, Option.map_some, ownProgram]
    refine congrArg some (filter_flatMap_eq fun call hcall => ?_).symm
    have hown : ∀ a ∈ linePixels S fb GFX3D_LineHack p polyAttr call,
        (drawingUnit fb cores a.1 = i ↔ (rasterizerUnit cores i).draws call.1.Y = true) := by
      intro a ha
      obtain ⟨y, x, hY, -, hx, hadr⟩ := row_of_mem_linePixels hfb (hfits hcall) ha
      have hhigh := (hfits hcall).2
      rw [hadr, drawingUnit_row fb cores hx, hY, rasterizerUnit_draws hcores hi (by omega)]
    split_ifs with hdraws
    · exact List.filter_eq_self.mpr fun a ha => decide_eq_true ((hown a ha).mpr hdraws)
    · exact List.filter_eq_nil_iff.mpr fun a ha heq =>
        hdraws ((hown a ha).mp (of_decide_eq_true heq))

/-- What the clipper and `sort_verts` make of a polygon. -/
def ClippedPoly.Sorted (I : Interpolation V ι) (p : ClippedPoly V) : Prop :=
  (3 ≤ p.type ∧ p.type ≤ 10) ∧ SortedVerts I p.type p.verts

theorem drawPolygons_shared (S : Shading V ι) (hfb : fb.Allocated) (GFX3D_LineHack : Bool)
    {polys : List (ClippedPoly V)} (hpolys : ∀ p ∈ polys, p.Sorted S.toInterpolation)
    (cache : PolygonAttributes × BitVec 32) :
    SharedOut fb fun u => drawPolygons S fb GFX3D_LineHack u cache polys := by
  induction polys generalizing cache with
  | nil => exact ⟨[], rfl, fun call hcall => absurd hcall List.not_mem_nil, fun _ _ _ _ => rfl⟩
  | cons p polys ih =>
    have hrest (cache : PolygonAttributes × BitVec 32) :=
      ih (fun q hq => hpolys q (List.mem_cons_of_mem p hq)) cache
    by_cases hvisible : p.polyVisible = true
    · obtain ⟨htype, hsort⟩ := hpolys p List.mem_cons_self
      obtain ⟨calls, hcalls, hin, hunits⟩ := drawPolygon_shared S hfb GFX3D_LineHack htype hsort
        (nextAttributes cache p).1
      obtain ⟨rest, hcallsRest, hinRest, hunitsRest⟩ := hrest (nextAttributes cache p)
      have hprogram (u : RasterizerUnit) : drawPolygons S fb GFX3D_LineHack u cache (p :: polys) =
          (drawPolygon S fb GFX3D_LineHack u p (nextAttributes cache p).1).bind fun calls =>
            (drawPolygons S fb GFX3D_LineHack u (nextAttributes cache p) polys).bind fun rest =>
              some (calls ++ rest) := by
        rw [drawPolygons, if_pos hvisible]
        rfl
      dsimp only at hcalls hunits hcallsRest hunitsRest
      refine ⟨calls ++ rest, ?_, ?_, ?_⟩
      · dsimp only
        rw [hprogram, hcalls, Option.bind_some, hcallsRest]
        rfl
      · intro call hcall
        rcases List.mem_append.mp hcall with hcall | hcall
        · exact hin call hcall
        · exact hinRest call hcall
      · intro cores hcores i hi
        dsimp only
        rw [hprogram, hunits cores hcores i hi, Option.bind_some, hunitsRest cores hcores i hi,
          ownProgram, ownProgram, ownProgram, List.filter_append]
        rfl
    · have hprogram (u : RasterizerUnit) : drawPolygons S fb GFX3D_LineHack u cache (p :: polys) =
          drawPolygons S fb GFX3D_LineHack u cache polys := by
        rw [drawPolygons, if_neg hvisible]
      simp only [SharedOut, hprogram]
      exact hrest cache

theorem mainLoop_shared (S : Shading V ι) (hfb : fb.Allocated) (GFX3D_LineHack : Bool)
    {polys : List (ClippedPoly V)} (hpolys : ∀ p ∈ polys, p.Sorted S.toInterpolation) :
    SharedOut fb fun u => mainLoop S fb GFX3D_LineHack u polys := by
  rcases polys with _ | ⟨p, polys⟩
  · exact ⟨[], rfl, fun call hcall => absurd hcall List.not_mem_nil, fun _ _ _ _ => rfl⟩
  · exact drawPolygons_shared S hfb GFX3D_LineHack hpolys _

end Shared

/-! ### The units share the lines -/

/-- The unit that does the edge marking and the fog at a place. -/
def postProcessUnit (fb : Framebuffer) (cores adr : ℕ) : ℕ :=
  if fb.height / cores = 0 then cores - 1
  else min (adr / fb.width / (fb.height / cores)) (cores - 1)

theorem postProcessUnit_lt (fb : Framebuffer) {cores : ℕ} (h : 0 < cores) (adr : ℕ) :
    postProcessUnit fb cores adr < cores := by
  rw [postProcessUnit]
  split_ifs <;> omega

theorem postProcessUnit_eq_iff {fb : Framebuffer} {cores i y x : ℕ} (hi : i < cores)
    (hx : x < fb.width) (hy : y < fb.height) :
    postProcessUnit fb cores (y * fb.width + x) = i ↔
      startLine cores fb.height i ≤ y ∧ y < endLine cores fb.height i := by
  have hrow : (y * fb.width + x) / fb.width = y := by
    rw [Nat.mul_comm, Nat.mul_add_div (by omega), Nat.div_eq_of_lt hx, Nat.add_zero]
  rw [postProcessUnit, hrow, startLine, endLine]
  generalize fb.height / cores = lines
  rcases Nat.eq_zero_or_pos lines with rfl | hpos
  · rw [if_pos rfl, Nat.mul_zero, Nat.mul_zero]
    split_ifs <;> omega
  · rw [if_neg hpos.ne']
    have hle : i ≤ y / lines ↔ i * lines ≤ y := Nat.le_div_iff_mul_le hpos
    have hlt : y / lines < i + 1 ↔ y < (i + 1) * lines := Nat.div_lt_iff_lt_mul hpos
    split_ifs <;> omega

theorem filter_range_eq {p : ℕ → Bool} {n a b : ℕ} (hab : a ≤ b) (hb : b ≤ n)
    (h : ∀ y < n, p y = true ↔ a ≤ y ∧ y < b) :
    (List.range n).filter p = List.range' a (b - a) := by
  have hnone {c d : ℕ} (hd : c + d ≤ n) (hout : ∀ y, c ≤ y → y < c + d → ¬ (a ≤ y ∧ y < b)) :
      (List.range' c d).filter p = [] := by
    refine List.filter_eq_nil_iff.mpr fun y hy hp => ?_
    obtain ⟨hlow, hhigh⟩ := List.mem_range'_1.mp hy
    exact hout y hlow hhigh ((h y (by omega)).mp hp)
  have hbefore : (List.range' 0 a).filter p = [] := hnone (by omega) fun y _ hy => by omega
  have hbehind : (List.range' b (n - b)).filter p = [] := hnone (by omega) fun y hy _ => by omega
  rw [range_split hab hb, List.filter_append, List.filter_append, hbefore, hbehind, List.nil_append,
    List.append_nil]
  refine List.filter_eq_self.mpr fun y hy => ?_
  obtain ⟨hlow, hhigh⟩ := List.mem_range'_1.mp hy
  exact (h y (by omega)).mpr (by omega)

/-- The lines of the units are those of the framebuffer, each once. -/
theorem postProcessPixels_eq {fb : Framebuffer} {cores i : ℕ} (hi : i < cores) (hwidth : 0 < fb.width) :
    postProcessPixels fb cores i =
      ownProgram (postProcessUnit fb cores) (postProcessPixels fb 1 0) i := by
  have hshare : cores * (fb.height / cores) ≤ fb.height := Nat.mul_div_le fb.height cores
  have hle : (i + 1) * (fb.height / cores) ≤ cores * (fb.height / cores) := Nat.mul_le_mul_right _ hi
  rw [Nat.succ_mul] at hle
  have hstart : startLine cores fb.height i ≤ endLine cores fb.height i := by
    rw [startLine, endLine]
    split_ifs
    · exact Nat.mul_le_mul_right _ (Nat.le_succ i)
    · exact (Nat.le_add_right ..).trans (hle.trans hshare)
  have hend : endLine cores fb.height i ≤ fb.height := by
    rw [endLine]
    split_ifs
    · rw [Nat.succ_mul]
      exact hle.trans hshare
    · exact le_rfl
  have hall : postProcessPixels fb 1 0 = (List.range fb.height).flatMap fun y =>
      (List.range fb.width).map fun x => (y * fb.width + x, (x, y)) := by
    rw [postProcessPixels, startLine, endLine, Nat.zero_mul, if_neg (by omega), Nat.sub_zero,
      ← List.range_eq_range']
  have hlines : ((List.range fb.height).filter fun y =>
      postProcessUnit fb cores (y * fb.width + 0) = i) = _ :=
    filter_range_eq hstart hend fun y hy =>
      decide_eq_true_iff.trans (postProcessUnit_eq_iff hi hwidth hy)
  rw [hall, ownProgram, postProcessPixels, ← hlines]
  refine (filter_flatMap_eq fun y hy => ?_).symm
  have hy := List.mem_range.mp hy
  have hrow : ∀ a ∈ (List.range fb.width).map fun x => (y * fb.width + x, (x, y)),
      postProcessUnit fb cores a.1 = postProcessUnit fb cores (y * fb.width + 0) := by
    intro a ha
    obtain ⟨x, hx, rfl⟩ := List.mem_map.mp ha
    have hx := List.mem_range.mp hx
    rw [postProcessUnit, postProcessUnit, Nat.mul_comm, Nat.mul_add_div hwidth, Nat.mul_add_div hwidth,
      Nat.div_eq_of_lt hx, Nat.zero_div]
  split_ifs with hown
  · exact List.filter_eq_self.mpr fun a ha =>
      decide_eq_true ((hrow a ha).trans (of_decide_eq_true hown))
  · exact List.filter_eq_nil_iff.mpr fun a ha heq =>
      hown (decide_eq_true ((hrow a ha).symm.trans (of_decide_eq_true heq)))

/-! ### The frame -/

section FrameRun

variable (st : RenderState) (u16ToonTable : Fin 32 → BitVec 16) (param : PostProcessParams)
  (fb : Framebuffer) (clear : ClearState)

/-- A call of `pixel` at a place. -/
def pixelStep (p : Option FramePixel) (f : Fragment) : Option FramePixel := p.bind (pixel st u16ToonTable f)

def postProcessStep (frame : Frame) (c : Option FragmentColor) (place : ℕ × ℕ) :
    Option FragmentColor :=
  c.bind (renderEdgeMarkingAndFog param fb frame place.1 place.2)

/-- The cleared framebuffer after the calls of `pixel` in their order. -/
def geometryFrame (calls : List PixelCall) : Frame :=
  run (cellStep (pixelStep st u16ToonTable)) (clearFramebuffer fb clear) calls

/-- `Render` and `RenderFinish`: all of the polygons are drawn before the edge marking and the fog. -/
def render (calls : List PixelCall) (places : List (ℕ × (ℕ × ℕ))) : ℕ → Option FragmentColor :=
  let frame := geometryFrame st u16ToonTable fb clear calls
  let colors : ℕ → Option FragmentColor := fun i => (frame i).map FramePixel.color
  if param.enableEdgeMarking ∨ param.enableFog then
    run (cellStep (postProcessStep param fb frame)) colors places
  else colors

end FrameRun

/-- What the thread of a unit does to the framebuffer. -/
def geometryProgram {V ι : Type*} (S : Shading V ι) (fb : Framebuffer) (GFX3D_LineHack : Bool)
    (polys : List (ClippedPoly V)) (cores i : ℕ) : List PixelCall :=
  if i < cores then (mainLoop S fb GFX3D_LineHack (rasterizerUnit cores i) polys).getD [] else []

def postProcessProgram (fb : Framebuffer) (cores i : ℕ) : List (ℕ × (ℕ × ℕ)) :=
  if i < cores then postProcessPixels fb cores i else []

theorem Framebuffer.Allocated.width_pos {fb : Framebuffer} (h : fb.Allocated) : 0 < fb.width := by
  have := h.native.1
  omega

theorem ownProgram_of_ge {κ β : Type*} {own : κ → ℕ} {n t : ℕ} (hown : ∀ k, own k < n) (ht : n ≤ t)
    (ops : List (κ × β)) : ownProgram own ops t = [] :=
  List.filter_eq_nil_iff.mpr fun op _ heq =>
    absurd (hown op.1) (by rw [of_decide_eq_true heq]; exact not_lt.mpr ht)

theorem postProcessProgram_eq {fb : Framebuffer} {cores : ℕ} (hfb : fb.Allocated) (hcores : 0 < cores) :
    postProcessProgram fb cores =
      ownProgram (postProcessUnit fb cores) (postProcessPixels fb 1 0) := by
  funext i
  rw [postProcessProgram]
  split_ifs with hi
  · exact postProcessPixels_eq hi hfb.width_pos
  · exact (ownProgram_of_ge (postProcessUnit_lt fb hcores) (not_lt.mp hi) _).symm

theorem sound_geometryFrame (st : RenderState) (u16ToonTable : Fin 32 → BitVec 16) {fb : Framebuffer}
    {clear : ClearState} (hclear : clear.enableClearImage = true → ScalesImage fb)
    (calls : List PixelCall) : (geometryFrame st u16ToonTable fb clear calls).Sound fb := by
  refine @run_invariant _ _ _ (Frame.Sound fb) (fun frame call hframe i hi => ?_) _
    (fun i hi => sound_clearFramebuffer hclear hi) calls
  by_cases hadr : i = call.1
  · subst hadr
    obtain ⟨p, hp, hsound⟩ := hframe _ hi
    rw [cellStep, Function.update_self, pixelStep, hp, Option.bind_some]
    exact exists_pixel st u16ToonTable call.2 hsound
  · rw [cellStep, Function.update_of_ne hadr]
    exact hframe i hi

theorem exists_render (st : RenderState) (u16ToonTable : Fin 32 → BitVec 16)
    (param : PostProcessParams) {fb : Framebuffer} {clear : ClearState}
    (hclear : clear.enableClearImage = true → ScalesImage fb) (calls : List PixelCall) {i : ℕ}
    (hi : i < fb.width * fb.height) :
    ∃ c, render st u16ToonTable param fb clear calls (postProcessPixels fb 1 0) i = some c := by
  have hsound := sound_geometryFrame st u16ToonTable hclear calls
  rw [render]
  generalize geometryFrame st u16ToonTable fb clear calls = frame at hsound ⊢
  obtain ⟨p, hp, -⟩ := hsound i hi
  split_ifs with hpost
  · have hcell (places : List (ℕ × ℕ)) (hplaces : ∀ place ∈ places, place.2 * fb.width + place.1 = i)
        (c : FragmentColor) : ∃ c', run (postProcessStep param fb frame) (some c) places = some c' := by
      induction places generalizing c with
      | nil => exact ⟨c, rfl⟩
      | cons place places ih =>
        obtain ⟨c', hc'⟩ := exists_renderEdgeMarkingAndFog param hsound
          (by rw [hplaces place List.mem_cons_self]; exact hi) c
        rw [run_cons, postProcessStep, Option.bind_some, hc']
        exact ih (fun q hq => hplaces q (List.mem_cons_of_mem place hq)) c'
    rw [run_cellStep_apply, hp, Option.map_some]
    refine hcell _ (fun place hplace => ?_) p.color
    obtain ⟨op, hop, rfl⟩ := List.mem_map.mp hplace
    obtain ⟨hmem, hadr⟩ := List.mem_filter.mp hop
    obtain ⟨y, -, hrow⟩ := List.mem_flatMap.mp hmem
    obtain ⟨x, -, rfl⟩ := List.mem_map.mp hrow
    exact of_decide_eq_true hadr
  · exact ⟨p.color, congrArg (Option.map FramePixel.color) hp⟩

/-- However the threads of the units take turns, within the polygons and within the post-processing, the
frame is the one of a single unit. No pixel is drawn outside of the framebuffer, and every read of a
table or of a neighbour is one within its bounds. -/
theorem render_any_schedule {V ι : Type*} (S : Shading V ι) (st : RenderState)
    (u16ToonTable : Fin 32 → BitVec 16) (param : PostProcessParams) (GFX3D_LineHack : Bool)
    {fb : Framebuffer} {clear : ClearState} {polys : List (ClippedPoly V)} {cores : ℕ}
    (hfb : fb.Allocated) (hclear : clear.enableClearImage = true → ScalesImage fb)
    (hcores : 0 < cores ∧ cores ≤ 16) (hpolys : ∀ p ∈ polys, p.Sorted S.toInterpolation)
    {geometry : List (ℕ × PixelCall)} {post : List (ℕ × (ℕ × (ℕ × ℕ)))}
    (hgeometry : Schedules (geometryProgram S fb GFX3D_LineHack polys cores) geometry)
    (hpost : Schedules (postProcessProgram fb cores) post) :
    (∀ i < cores, (mainLoop S fb GFX3D_LineHack (rasterizerUnit cores i) polys).isSome) ∧
    ∃ calls, mainLoop S fb GFX3D_LineHack (rasterizerUnit 1 0) polys = some calls ∧
      (∀ call ∈ calls, call.1 < fb.width * fb.height) ∧
      render st u16ToonTable param fb clear (geometry.map Prod.snd) (post.map Prod.snd) =
        render st u16ToonTable param fb clear calls (postProcessPixels fb 1 0) ∧
      ∀ i < fb.width * fb.height, ∃ c,
        render st u16ToonTable param fb clear calls (postProcessPixels fb 1 0) i = some c := by
  obtain ⟨calls, hcalls, hin, hunits⟩ := mainLoop_shared S hfb GFX3D_LineHack hpolys
  dsimp only at hcalls hunits
  have hprogram : geometryProgram S fb GFX3D_LineHack polys cores =
      ownProgram (drawingUnit fb cores) calls := by
    funext i
    rw [geometryProgram]
    split_ifs with hi
    · rw [hunits cores hcores.2 i hi, Option.getD_some]
    · exact (ownProgram_of_ge (drawingUnit_lt fb hcores.1) (not_lt.mp hi) calls).symm
  rw [hprogram] at hgeometry
  rw [postProcessProgram_eq hfb hcores.1] at hpost
  refine ⟨fun i hi => ?_, calls, hcalls, hin, ?_,
    fun i hi => exists_render st u16ToonTable param hclear calls hi⟩
  · rw [hunits cores hcores.2 i hi]
    rfl
  rw [render, render, geometryFrame, geometryFrame, hgeometry.run_eq, hpost.run_eq]

def placesShading : Shading EdgeVert Unit where
  toInterpolation := placesOnly
  span _ _ _ _ _ := ⟨0, 0, 0, 0, 0, 0, 0⟩

def slantedPoly : ClippedPoly EdgeVert := ⟨0x001F0080, 0, false, true, plainTexture, 3, slantedVerts⟩

def plainParams : PostProcessParams :=
  ⟨true, true, 0, false, true, fun _ => false, fun _ => ⟨0, 0, 0, 31⟩, List.replicate 32768 0,
    List.length_replicate⟩

def blackClear : ClearState := ⟨0, 0, false, 0, fun _ => 0, fun _ => 0⟩

/-- Three threads, one of which draws nothing. -/
theorem render_any_schedule_three :
    (∀ i < 3, (mainLoop placesShading wideFramebuffer false (rasterizerUnit 3 i) [slantedPoly]).isSome) ∧
    ∃ calls, mainLoop placesShading wideFramebuffer false (rasterizerUnit 1 0) [slantedPoly] =
        some calls ∧
      (∀ call ∈ calls, call.1 < wideFramebuffer.width * wideFramebuffer.height) ∧
      render plainState (fun _ => 0) plainParams wideFramebuffer blackClear
          (((List.range 3).flatMap fun t => (geometryProgram placesShading wideFramebuffer false
            [slantedPoly] 3 t).map fun i => (t, i)).map Prod.snd)
          (((List.range 3).flatMap fun t => (postProcessProgram wideFramebuffer 3 t).map
            fun i => (t, i)).map Prod.snd) =
        render plainState (fun _ => 0) plainParams wideFramebuffer blackClear calls
          (postProcessPixels wideFramebuffer 1 0) ∧
      ∀ i < wideFramebuffer.width * wideFramebuffer.height, ∃ c,
        render plainState (fun _ => 0) plainParams wideFramebuffer blackClear calls
          (postProcessPixels wideFramebuffer 1 0) i = some c := by
  refine render_any_schedule placesShading plainState (fun _ => 0) plainParams false
    ⟨by decide, by decide⟩ (fun h => absurd h Bool.false_ne_true) (by decide) ?_
    (schedules_sequential List.nodup_range fun t ht => ?_)
    (schedules_sequential List.nodup_range fun t ht => ?_)
  · intro p hp
    obtain rfl := List.mem_singleton.mp hp
    exact ⟨by decide, slanted_sorted⟩
  · exact if_neg fun h => ht (List.mem_range.mpr h)
  · exact if_neg fun h => ht (List.mem_range.mpr h)

end Desmume.Raster
