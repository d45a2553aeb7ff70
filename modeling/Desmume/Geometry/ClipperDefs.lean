import Desmume.Library.Cutting
import Desmume.Library.Staging
import Mathlib.Data.Rat.Defs
import Mathlib.Data.Rat.Floor
import Mathlib.LinearAlgebra.Pi

/-! The clipper: a stage for each of the six planes of the view volume, which hands vertices on to the
next one, and the output behind them. Coordinates are exact rationals. A quad may be left with more
corners than a clipped polygon has room for, and ten of them already fail an assertion. -/

namespace Desmume.Geometry
open Library

/-- `VERT`. -/
structure ClipVert where
  coord : Fin 4 → ℚ
  texcoord : Fin 2 → ℚ
  fcolor : Fin 3 → ℚ
  color : Fin 3 → BitVec 8

def maxScratchClipVerts : ℕ := 4 * 6 + 40
def maxClippedVerts : ℕ := 10

/-- The template parameters of a stage: which coordinate, and whether `which` is -1. -/
structure ClipPlane where
  coord : Fin 4
  negative : Bool
deriving DecidableEq, Repr

def interpolate (ratio x0 x1 : ℚ) : ℚ := x0 + (x1 - x0) * ratio

/-- The same for a `u8`, which the sum is converted to towards zero. -/
def interpolateByte (ratio : ℚ) (x0 x1 : BitVec 8) : BitVec 8 :=
  let x : ℚ := x0.toNat + (x1.toNat - x0.toNat) * ratio
  BitVec.ofInt 8 (x.num.tdiv x.den)

namespace ClipVert

def colorToFloat (v : ClipVert) : ClipVert := { v with fcolor := fun i => (v.color i).toNat }

end ClipVert

namespace ClipPlane

variable (p : ClipPlane)

/-- The `w` that the coordinate is compared with. -/
def bound (v : ClipVert) : ℚ := if p.negative then -v.coord 3 else v.coord 3

/-- The vertex is on the other side of the plane. -/
def isOut (v : ClipVert) : Bool :=
  if p.negative then decide (v.coord p.coord < -v.coord 3) else decide (v.coord p.coord > v.coord 3)

/-- How far from the inside vertex to the outside one the plane lies. -/
def ratio (inside outside : ClipVert) : ℚ :=
  (inside.coord p.coord - p.bound inside) /
    (p.bound outside - p.bound inside - (outside.coord p.coord - inside.coord p.coord))

/-- `clipPoint`. What it does not write of its vertex is whatever `ret` holds before. -/
def clipPoint (hirez : Bool) (ret : ClipVert) (inside outside : ClipVert) : ClipVert :=
  let t := p.ratio inside outside
  let ret := { ret with
    coord := fun i => interpolate t (inside.coord i) (outside.coord i)
    texcoord := fun i => interpolate t (inside.texcoord i) (outside.texcoord i) }
  let ret :=
    if hirez then
      { ret with fcolor := fun i => interpolate t (inside.fcolor i) (outside.fcolor i) }
    else
      { ret with color := fun i => interpolateByte t (inside.color i) (outside.color i) }.colorToFloat
  -- the coordinate that has been clipped is put onto the plane
  { ret with
    coord := fun i =>
      if i = p.coord then if p.negative then -ret.coord 3 else ret.coord 3 else ret.coord i }

end ClipPlane

/-- What a stage asks of what is behind it: a slot for a new vertex, which is the same for all stages,
or to clip a vertex. -/
inductive ClipCall where
  | scratch
  | vert (v : ClipVert)

/-- `m_prevVert` and `m_firstVert` of a stage. -/
structure ClipperState where
  prevVert : Option ClipVert
  firstVert : Option ClipVert

section Stages

variable (hirez : Bool) (ret : ClipVert) (p : ClipPlane)

def clipSegmentVsPlane (vert0 vert1 : ClipVert) : List ClipCall :=
  match p.isOut vert0, p.isOut vert1 with
  | true, true => []
  | false, false => [.vert vert1]
  -- exiting volume: the clipped point
  | false, true => [.scratch, .vert (p.clipPoint hirez ret vert0 vert1)]
  -- entering volume: the clipped point and the next one
  | true, false => [.scratch, .vert (p.clipPoint hirez ret vert1 vert0), .vert vert1]

/-- `ClipperPlane`. -/
def clipperPlane : Stage ClipCall ClipCall ClipperState where
  calls s
    | .scratch => [.scratch]
    | .vert v => match s.prevVert with
      | none => []
      | some u => clipSegmentVsPlane hirez ret p u v
  next s
    | .scratch => s
    | .vert v => ⟨some v, if s.prevVert.isSome then s.firstVert else some v⟩
  last s := match s.firstVert, s.prevVert with
    | some v, some u => clipSegmentVsPlane hirez ret p u v
    | _, _ => []

end Stages

/-- `numScratchClipVerts`, and the vertices of `ClipperOutput`. -/
structure ClipOutput where
  numScratch : ℕ
  verts : List ClipVert

/-- `ClipperOutput`, with the assertions about the room for new vertices. -/
def clipperOut : Consumer ClipCall ClipOutput where
  take o
    | .scratch =>
      if o.numScratch < maxScratchClipVerts then some { o with numScratch := o.numScratch + 1 }
      else none
    | .vert v =>
      if o.verts.length < maxClippedVerts then some { o with verts := o.verts ++ [v] } else none
  finish o := some o

/-- The planes in the order of the stages: left, right, bottom, top, front, back. -/
def clipPlanes : List ClipPlane :=
  [⟨0, true⟩, ⟨0, false⟩, ⟨1, true⟩, ⟨1, false⟩, ⟨2, true⟩, ⟨2, false⟩]

section Clipper

variable (hirez : Bool) (ret : ClipVert)

abbrev ClipperStates := ClipperState × ClipperState × ClipperState × ClipperState × ClipperState ×
  ClipperState × ClipOutput

/-- `clipper`, the first of the six stages. -/
def clipper : Consumer ClipCall ClipperStates :=
  (clipperPlane hirez ret ⟨0, true⟩).before <| (clipperPlane hirez ret ⟨0, false⟩).before <|
    (clipperPlane hirez ret ⟨1, true⟩).before <| (clipperPlane hirez ret ⟨1, false⟩).before <|
    (clipperPlane hirez ret ⟨2, true⟩).before <| (clipperPlane hirez ret ⟨2, false⟩).before clipperOut

/-- `init`. -/
def clipperInit : ClipperStates :=
  let empty : ClipperState := ⟨none, none⟩
  (empty, empty, empty, empty, empty, empty, ⟨0, []⟩)

/-- `TClippedPoly`. -/
structure ClippedPoly (π : Type) where
  type : ℕ
  poly : π
  clipVerts : List ClipVert

/-- What the stages leave of a polygon. -/
def clipStages (verts : List ClipVert) : Option ClipOutput :=
  ((clipper hirez ret).whole clipperInit (verts.map .vert)).map fun s => s.2.2.2.2.2.2

/-- `GFX3D_Clipper::clipPoly`. -/
def clipPoly {π : Type} (poly : π) (verts : List ClipVert) (clippedPolys : List (ClippedPoly π)) :
    Option (List (ClippedPoly π)) := do
  let out ← clipStages hirez ret verts
  let outType := out.verts.length
  if outType < maxClippedVerts then
    -- a totally clipped polygon is discarded
    if outType < 3 then some clippedPolys
    else some (clippedPolys ++ [⟨outType, poly, out.verts⟩])
  else none

end Clipper

/-! ### What is left of a polygon -/

section Polygon

namespace ClipPlane

variable (p : ClipPlane)

/-- How far a point is inside the plane. -/
def slack : (Fin 4 → ℚ) →ₗ[ℚ] ℚ :=
  let w : (Fin 4 → ℚ) →ₗ[ℚ] ℚ := LinearMap.proj 3
  let c : (Fin 4 → ℚ) →ₗ[ℚ] ℚ := LinearMap.proj p.coord
  if p.negative then w + c else w - c

theorem slack_apply (v : Fin 4 → ℚ) :
    p.slack v = if p.negative then v 3 + v p.coord else v 3 - v p.coord := by
  rw [slack]
  split_ifs <;> rfl

theorem isOut_eq (v : ClipVert) : p.isOut v = decide (p.slack v.coord < 0) := by
  rw [isOut, slack_apply]
  split_ifs
  · exact decide_eq_decide.mpr ⟨fun h => by linarith, fun h => by linarith⟩
  · exact decide_eq_decide.mpr ⟨fun h => by linarith, fun h => by linarith⟩

theorem ratio_eq (inside outside : ClipVert) :
    p.ratio inside outside =
      p.slack inside.coord / (p.slack inside.coord - p.slack outside.coord) := by
  rw [ratio, slack_apply, slack_apply, bound, bound]
  split_ifs
  · congr 1 <;> ring
  · rw [← neg_div_neg_eq]
    congr 1 <;> ring

/-- The clipped coordinate is put where it is already. -/
theorem coord_clipPoint (hirez : Bool) (ret : ClipVert) {inside outside : ClipVert}
    (hin : 0 ≤ p.slack inside.coord) (hout : p.slack outside.coord < 0) :
    (p.clipPoint hirez ret inside outside).coord =
      crossing p.slack inside.coord outside.coord := by
  have hpoint (i : Fin 4) : interpolate (p.ratio inside outside) (inside.coord i) (outside.coord i) =
      crossing p.slack inside.coord outside.coord i := by
    rw [interpolate, ratio_eq, mul_comm]
    rfl
  have hcoords : ∀ i, (p.clipPoint hirez ret inside outside).coord i =
      if i = p.coord then
        if p.negative then -interpolate (p.ratio inside outside) (inside.coord 3) (outside.coord 3)
        else interpolate (p.ratio inside outside) (inside.coord 3) (outside.coord 3)
      else interpolate (p.ratio inside outside) (inside.coord i) (outside.coord i) := by
    intro i
    cases hirez <;> rfl
  have hon := apply_crossing_self hin hout
  rw [slack_apply] at hon
  funext i
  rw [hcoords, hpoint, hpoint]
  split_ifs at hon ⊢ with hi hneg hneg
  · rw [hi]
    linarith
  · rw [hi]
    linarith
  all_goals rfl

end ClipPlane

/-! ### The calls of a stage -/

def vertsOf : List ClipCall → List ClipVert
  | [] => []
  | .scratch :: xs => vertsOf xs
  | .vert v :: xs => v :: vertsOf xs

def scratchOf : List ClipCall → ℕ
  | [] => 0
  | .scratch :: xs => scratchOf xs + 1
  | .vert _ :: xs => scratchOf xs

/-- The corners that are handed on. -/
def cornersOf (xs : List ClipCall) : List (Fin 4 → ℚ) := (vertsOf xs).map ClipVert.coord

theorem vertsOf_append (xs ys : List ClipCall) : vertsOf (xs ++ ys) = vertsOf xs ++ vertsOf ys := by
  induction xs with
  | nil => rfl
  | cons x xs ih => cases x <;> simp only [List.cons_append, vertsOf, ih]

theorem scratchOf_append (xs ys : List ClipCall) :
    scratchOf (xs ++ ys) = scratchOf xs + scratchOf ys := by
  induction xs with
  | nil => exact (Nat.zero_add _).symm
  | cons x xs ih => cases x <;> simp only [List.cons_append, scratchOf, ih, Nat.add_right_comm]

theorem cornersOf_append (xs ys : List ClipCall) :
    cornersOf (xs ++ ys) = cornersOf xs ++ cornersOf ys := by
  rw [cornersOf, vertsOf_append, List.map_append]
  rfl

theorem cornersOf_map_vert (vs : List ClipVert) :
    cornersOf (vs.map .vert) = vs.map ClipVert.coord := by
  induction vs with
  | nil => rfl
  | cons v vs ih => exact congrArg (v.coord :: ·) ih

theorem scratchOf_map_vert (vs : List ClipVert) : scratchOf (vs.map .vert) = 0 := by
  induction vs with
  | nil => rfl
  | cons v vs ih => exact ih

section Stages

variable {hirez : Bool} {ret : ClipVert} {p : ClipPlane}

theorem segment_cuts (u v : ClipVert) :
    cornersOf (clipSegmentVsPlane hirez ret p u v) = cutSegment p.slack u.coord v.coord ∧
      scratchOf (clipSegmentVsPlane hirez ret p u v) = crosses p.slack u.coord v.coord := by
  rw [clipSegmentVsPlane, p.isOut_eq, p.isOut_eq, cutSegment, crosses]
  rcases lt_or_ge (p.slack u.coord) 0 with hu | hu <;>
    rcases lt_or_ge (p.slack v.coord) 0 with hv | hv
  · simp only [hu, hv, not_le.mpr hu, not_le.mpr hv, decide_true, if_true, iff_self]
    exact ⟨rfl, rfl⟩
  · simp only [hu, hv, not_lt.mpr hv, not_le.mpr hu, decide_true, decide_false, if_true, if_false,
      false_iff, not_true_eq_false]
    refine ⟨?_, rfl⟩
    change [_, _] = _
    rw [p.coord_clipPoint hirez ret hv hu]
  · simp only [hu, hv, not_lt.mpr hu, not_le.mpr hv, decide_true, decide_false, if_true, if_false,
      iff_false, not_true_eq_false]
    refine ⟨?_, rfl⟩
    change [_] = _
    rw [p.coord_clipPoint hirez ret hu hv]
  · simp only [hu, hv, not_lt.mpr hu, not_lt.mpr hv, decide_false, if_true, if_false, iff_self]
    exact ⟨rfl, rfl⟩

/-- Behind its first vertex a stage cuts the way over the others and back to the first. -/
theorem allCalls_cuts (u w : ClipVert) (xs : List ClipCall) :
    cornersOf ((clipperPlane hirez ret p).allCalls ⟨some u, some w⟩ xs) =
        cutPath p.slack u.coord (cornersOf xs ++ [w.coord]) ∧
      scratchOf ((clipperPlane hirez ret p).allCalls ⟨some u, some w⟩ xs) =
        scratchOf xs + crossesPath p.slack u.coord (cornersOf xs ++ [w.coord]) := by
  induction xs generalizing u with
  | nil =>
    obtain ⟨hcorners, hscratch⟩ := @segment_cuts hirez ret p u w
    refine ⟨hcorners.trans (List.append_nil _).symm, ?_⟩
    exact hscratch.trans (Nat.zero_add _).symm
  | cons x xs ih =>
    cases x with
    | scratch =>
      obtain ⟨hcorners, hscratch⟩ := ih u
      refine ⟨hcorners, ?_⟩
      change scratchOf ((clipperPlane hirez ret p).allCalls ⟨some u, some w⟩ xs) + 1 = _
      rw [hscratch, scratchOf, Nat.add_right_comm]
      rfl
    | vert v =>
      obtain ⟨hcorners, hscratch⟩ := ih v
      obtain ⟨hcorners', hscratch'⟩ := @segment_cuts hirez ret p u v
      have hcalls : (clipperPlane hirez ret p).allCalls ⟨some u, some w⟩ (.vert v :: xs) =
          clipSegmentVsPlane hirez ret p u v ++
            (clipperPlane hirez ret p).allCalls ⟨some v, some w⟩ xs := rfl
      rw [hcalls, cornersOf_append, scratchOf_append, hcorners, hscratch, hcorners', hscratch']
      refine ⟨rfl, ?_⟩
      change _ = scratchOf xs +
        (crosses p.slack u.coord v.coord + crossesPath p.slack v.coord (cornersOf xs ++ [w.coord]))
      omega

/-- A stage cuts the closed polygon of its vertices, and it asks for room for the new corners. -/
theorem stage_cuts (xs : List ClipCall) :
    cornersOf ((clipperPlane hirez ret p).allCalls ⟨none, none⟩ xs) = cut p.slack (cornersOf xs) ∧
      scratchOf ((clipperPlane hirez ret p).allCalls ⟨none, none⟩ xs) =
        scratchOf xs + crossings p.slack (cornersOf xs) := by
  induction xs with
  | nil => exact ⟨rfl, rfl⟩
  | cons x xs ih =>
    cases x with
    | scratch =>
      obtain ⟨hcorners, hscratch⟩ := ih
      refine ⟨hcorners, ?_⟩
      change scratchOf ((clipperPlane hirez ret p).allCalls ⟨none, none⟩ xs) + 1 = _
      rw [hscratch, scratchOf, Nat.add_right_comm]
      rfl
    | vert v => exact allCalls_cuts v v xs

end Stages

/-- The calls that come out behind some stages. -/
def stageCalls (hirez : Bool) (ret : ClipVert) (ps : List ClipPlane) (xs : List ClipCall) :
    List ClipCall :=
  ps.foldl (fun xs p => (clipperPlane hirez ret p).allCalls ⟨none, none⟩ xs) xs

section Clipper

variable {hirez : Bool} {ret : ClipVert}

theorem stageCalls_cut (ps : List ClipPlane) (xs : List ClipCall) :
    cornersOf (stageCalls hirez ret ps xs) = cutAll (ps.map ClipPlane.slack) (cornersOf xs) ∧
      scratchOf (stageCalls hirez ret ps xs) =
        scratchOf xs + crossingsAll (ps.map ClipPlane.slack) (cornersOf xs) := by
  induction ps generalizing xs with
  | nil => exact ⟨rfl, rfl⟩
  | cons p ps ih =>
    obtain ⟨hcorners, hscratch⟩ := @stage_cuts hirez ret p xs
    obtain ⟨hcorners', hscratch'⟩ := ih ((clipperPlane hirez ret p).allCalls ⟨none, none⟩ xs)
    rw [hcorners] at hcorners' hscratch'
    refine ⟨hcorners', hscratch'.trans ?_⟩
    rw [hscratch, Nat.add_assoc]
    rfl

/-- The six stages in front of the output do what the output does behind their calls. -/
theorem clipStages_eq (verts : List ClipVert) :
    clipStages hirez ret verts =
      clipperOut.whole ⟨0, []⟩ (stageCalls hirez ret clipPlanes (verts.map .vert)) := by
  rw [clipStages, clipper]
  refine (Stage.whole_before (fun u : ClipperState × ClipperState × ClipperState × ClipperState ×
    ClipperState × ClipOutput => u.2.2.2.2.2) _ _ _).trans ?_
  refine (Stage.whole_before (fun u : ClipperState × ClipperState × ClipperState × ClipperState ×
    ClipOutput => u.2.2.2.2) _ _ _).trans ?_
  refine (Stage.whole_before (fun u : ClipperState × ClipperState × ClipperState × ClipOutput =>
    u.2.2.2) _ _ _).trans ?_
  refine (Stage.whole_before (fun u : ClipperState × ClipperState × ClipOutput => u.2.2) _ _ _).trans ?_
  refine (Stage.whole_before (fun u : ClipperState × ClipOutput => u.2) _ _ _).trans ?_
  refine (Stage.whole_before (fun u : ClipOutput => u) _ _ _).trans ?_
  rw [Option.map_id']
  rfl

/-- The output has room for as many vertices and slots as it is asked for, or it fails. -/
theorem clipperOut_whole (o : ClipOutput) (xs : List ClipCall)
    (hscratch : o.numScratch ≤ maxScratchClipVerts) (hverts : o.verts.length ≤ maxClippedVerts) :
    clipperOut.whole o xs =
      if o.numScratch + scratchOf xs ≤ maxScratchClipVerts ∧
          o.verts.length + (vertsOf xs).length ≤ maxClippedVerts then
        some ⟨o.numScratch + scratchOf xs, o.verts ++ vertsOf xs⟩
      else none := by
  induction xs generalizing o with
  | nil =>
    rw [scratchOf, vertsOf, if_pos ⟨hscratch, hverts⟩, List.append_nil]
    rfl
  | cons x xs ih =>
    cases x with
    | scratch =>
      rw [Consumer.whole_cons]
      change (if o.numScratch < maxScratchClipVerts then _ else none : Option _).bind _ = _
      by_cases hroom : o.numScratch < maxScratchClipVerts
      · rw [if_pos hroom, Option.bind_some, ih { o with numScratch := o.numScratch + 1 } hroom hverts,
          scratchOf, vertsOf, Nat.add_right_comm, Nat.add_assoc]
      · rw [if_neg hroom, Option.bind_none, scratchOf, if_neg fun h => hroom (by omega)]
    | vert v =>
      rw [Consumer.whole_cons]
      change (if o.verts.length < maxClippedVerts then _ else none : Option _).bind _ = _
      by_cases hroom : o.verts.length < maxClippedVerts
      · have hlength : (o.verts ++ [v]).length = o.verts.length + 1 := List.length_append
        rw [if_pos hroom, Option.bind_some,
          ih { o with verts := o.verts ++ [v] } hscratch (hlength.trans_le hroom), hlength, scratchOf,
          vertsOf, List.length_cons, Nat.add_right_comm, Nat.add_assoc, List.append_assoc]
        rfl
      · rw [if_neg hroom, Option.bind_none, vertsOf, List.length_cons,
          if_neg fun h => hroom (by omega)]

/-- What the view volume leaves of a polygon. -/
def leftOf (verts : List ClipVert) : List (Fin 4 → ℚ) :=
  cutAll (clipPlanes.map ClipPlane.slack) (verts.map ClipVert.coord)

/-- A triangle or a quad comes into no half space more than twice. -/
theorem entersAtMost_of_length {verts : List ClipVert} (h : verts.length = 3 ∨ verts.length = 4) :
    EntersAtMost ℚ 2 (verts.map ClipVert.coord) := by
  match verts, h with
  | [a, b, c], _ => exact fun g => (entersAtMost_triangle _ _ _ g).trans (by decide)
  | [a, b, c, d], _ => exact entersAtMost_quad _ _ _ _

/-- The slots are enough, so the stages fail only for want of room for a vertex. -/
theorem clipStages_spec (hirez : Bool) (ret : ClipVert) {verts : List ClipVert}
    (h : verts.length = 3 ∨ verts.length = 4) :
    ∃ out : ClipOutput, out.verts.map ClipVert.coord = leftOf verts ∧ out.numScratch ≤ 24 ∧
      clipStages hirez ret verts =
        if (leftOf verts).length ≤ maxClippedVerts then some out else none := by
  obtain ⟨hcorners, hscratch⟩ := @stageCalls_cut hirez ret clipPlanes (verts.map .vert)
  rw [cornersOf_map_vert] at hcorners hscratch
  rw [scratchOf_map_vert, Nat.zero_add] at hscratch
  set xs := stageCalls hirez ret clipPlanes (verts.map .vert) with hxs
  have hslots : scratchOf xs ≤ 24 :=
    hscratch.trans_le (crossingsAll_le (entersAtMost_of_length h) _)
  have hlength : (vertsOf xs).length = (leftOf verts).length := by
    rw [leftOf, ← hcorners, cornersOf, List.length_map]
  refine ⟨⟨scratchOf xs, vertsOf xs⟩, hcorners, hslots, ?_⟩
  rw [clipStages_eq, ← hxs, clipperOut_whole _ _ (Nat.zero_le _) (Nat.zero_le _)]
  simp only [List.length_nil, Nat.zero_add, List.nil_append, hlength]
  have hroom : scratchOf xs ≤ maxScratchClipVerts := hslots.trans (by decide)
  simp only [hroom, true_and]

end Clipper

/-- Clipping comes to its end: no assertion fails, there was room for all vertices, and what is left is
inside of the six planes. -/
def ClipsSafely {π : Type} (hirez : Bool) (ret : ClipVert) (poly : π) (verts : List ClipVert) : Prop :=
  ∃ out, clipStages hirez ret verts = some out ∧ out.verts.length ≤ maxClippedVerts ∧
    out.numScratch ≤ maxScratchClipVerts ∧ (∀ v ∈ out.verts, ∀ p ∈ clipPlanes, p.isOut v = false) ∧
    ∀ clippedPolys, (clipPoly hirez ret poly verts clippedPolys).isSome

variable {π : Type}

theorem clipPoly_isSome_iff {hirez : Bool} {ret : ClipVert} {poly : π} {verts : List ClipVert}
    {clippedPolys : List (ClippedPoly π)} {out : ClipOutput}
    (hout : clipStages hirez ret verts = some out) :
    (clipPoly hirez ret poly verts clippedPolys).isSome ↔ out.verts.length < maxClippedVerts := by
  rw [clipPoly, hout]
  change (if out.verts.length < maxClippedVerts then _ else none : Option _).isSome = true ↔ _
  split_ifs with hroom
  · exact iff_of_true rfl hroom
  · exact iff_of_true rfl hroom
  · exact iff_of_false Bool.false_ne_true hroom

theorem inside_of_leftOf {verts vs : List ClipVert} (h : vs.map ClipVert.coord = leftOf verts) :
    ∀ v ∈ vs, ∀ p ∈ clipPlanes, p.isOut v = false := by
  intro v hv p hp
  have hleft : v.coord ∈ leftOf verts := h ▸ List.mem_map_of_mem hv
  have hinside := (mem_cutAll hleft).1 p.slack (List.mem_map_of_mem hp)
  rw [p.isOut_eq, decide_eq_false (not_lt.mpr hinside)]

/-- A triangle gains at most one corner from each plane. -/
theorem length_leftOf_triangle {verts : List ClipVert} (h : verts.length = 3) :
    (leftOf verts).length < maxClippedVerts := by
  match verts, h with
  | [a, b, c], _ =>
    exact Nat.lt_succ_of_le (length_cutAll_le (entersAtMost_triangle a.coord b.coord c.coord) _)

def cornerAt (x y z w : ℚ) : ClipVert := ⟨![x, y, z, w], 0, 0, 0⟩

/-- The quad whose edges cut four corners off a hexagon. -/
def decagonQuad : List ClipVert :=
  [cornerAt 38 (-19) (-19) 30, cornerAt 0 57 (-57) 30, cornerAt (-38) 19 19 30,
    cornerAt 0 (-57) 57 30]

/-- The last assertion wants less than ten corners, though there is room for ten. -/
theorem clipsSafely_iff (hirez : Bool) (ret : ClipVert) (poly : π) (verts : List ClipVert)
    (h : verts.length = 3 ∨ verts.length = 4) :
    ClipsSafely hirez ret poly verts ↔ (leftOf verts).length < maxClippedVerts := by
  obtain ⟨out, hcorners, hslots, hstages⟩ := clipStages_spec hirez ret h
  have hlength : (leftOf verts).length = out.verts.length := by rw [← hcorners, List.length_map]
  constructor
  · rintro ⟨out', hout', -, -, -, hdone⟩
    have hroom := (clipPoly_isSome_iff hout').mp (hdone [])
    rw [hstages] at hout'
    split_ifs at hout' with hfits
    rwa [hlength, Option.some.inj hout']
  · intro hroom
    rw [if_pos hroom.le] at hstages
    rw [hlength] at hroom
    exact ⟨out, hstages, hroom.le, hslots.trans (by decide), inside_of_leftOf hcorners,
      fun _ => (clipPoly_isSome_iff hstages).mpr hroom⟩

theorem clipsSafely_triangle : ClipsSafely false (cornerAt 0 0 0 1) ()
    [cornerAt 5 0 0 1, cornerAt (-5) 3 0 1, cornerAt 0 (-5) 9 1] :=
  (clipsSafely_iff false (cornerAt 0 0 0 1) () _ (Or.inl rfl)).mpr (length_leftOf_triangle rfl)

/-- A decagon fits, and still the last assertion fails. -/
theorem decagon_fails :
    (clipStages true (cornerAt 0 0 0 0) decagonQuad).map (fun out => out.verts.length) = some 10 ∧
      ¬ ClipsSafely true (cornerAt 0 0 0 0) () decagonQuad := by
  have hfails : (clipPoly true (cornerAt 0 0 0 0) () decagonQuad []).isSome = false := by
    decide +kernel
  refine ⟨by decide +kernel, ?_⟩
  rintro ⟨out, -, -, -, -, hdone⟩
  exact Bool.false_ne_true (hfails.symm.trans (hdone []))

end Polygon

end Desmume.Geometry
