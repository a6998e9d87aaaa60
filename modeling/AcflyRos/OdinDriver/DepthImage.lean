import Mathlib.Algebra.Order.Ring.Rat
import Mathlib.Data.List.Induction
import AcflyRos.Foundation.Sequences

/-! # The depth image

`projectCloudToDepth` (`pointcloud_depth_converter.cpp`) draws a cloud into an image, point by point
as they come: a point sets the pixel it falls on, and those around it that are still empty. It
compares no depths, so that a pixel does not show the nearest point there.
-/

namespace AcflyRos.OdinDriver.DepthImage

open AcflyRos.Sequences

/-- A point that was multiplied by the matrix of the camera. -/
structure Point where
  x : ℚ
  y : ℚ
  z : ℚ
  deriving DecidableEq, Repr

/-- `(u, v)` -/
abbrev Pixel := Int × Int

/-- Zero where there is no point. -/
abbrev Image := Pixel → ℚ

structure Converter where
  scaledWidth : Int
  scaledHeight : Int
  /-- `static_cast<int>(std::round(a / b))`, in the floating-point numbers of the code. -/
  roundQuotient : ℚ → ℚ → Int

namespace Converter

variable (converter : Converter)

/-- The pixel that a point falls on. -/
def center (point : Point) : Pixel :=
  (converter.roundQuotient point.x point.z, converter.roundQuotient point.y point.z)

def Inside (pixel : Pixel) : Prop :=
  0 ≤ pixel.1 ∧ pixel.1 < converter.scaledWidth ∧ 0 ≤ pixel.2 ∧ pixel.2 < converter.scaledHeight

instance (pixel : Pixel) : Decidable (converter.Inside pixel) :=
  inferInstanceAs (Decidable (_ ∧ _))

def around (pixel : Pixel) : List Pixel :=
  [-1, 0, 1].flatMap fun du => [-1, 0, 1].map fun dv => (pixel.1 + du, pixel.2 + dv)

/-- A pixel that is still empty. -/
def fill (depth : ℚ) (image : Image) (pixel : Pixel) : Image :=
  if converter.Inside pixel ∧ image pixel = 0 then Function.update image pixel depth else image

/-- The body of the loop. -/
def draw (image : Image) (point : Point) : Image :=
  if point.z ≤ 0 then image
  else if converter.Inside (converter.center point) then
    (around (converter.center point)).foldl (converter.fill point.z)
      (Function.update image (converter.center point) point.z)
  else image

def projectCloudToDepth (cloud : List Point) : Image :=
  cloud.foldl converter.draw fun _ => 0

/-! ## What a point does to a pixel -/

/-- The point falls on the pixel. -/
def Hits (pixel : Pixel) (point : Point) : Prop :=
  0 < point.z ∧ converter.Inside pixel ∧ pixel = converter.center point

/-- The point falls on the pixel or on one beside it. -/
def Covers (pixel : Pixel) (point : Point) : Prop :=
  0 < point.z ∧ converter.Inside pixel ∧ converter.Inside (converter.center point) ∧
    (converter.center point).1 - 1 ≤ pixel.1 ∧ pixel.1 ≤ (converter.center point).1 + 1 ∧
    (converter.center point).2 - 1 ≤ pixel.2 ∧ pixel.2 ≤ (converter.center point).2 + 1

instance (pixel : Pixel) (point : Point) : Decidable (converter.Hits pixel point) :=
  inferInstanceAs (Decidable (_ ∧ _))

instance (pixel : Pixel) (point : Point) : Decidable (converter.Covers pixel point) :=
  inferInstanceAs (Decidable (_ ∧ _))

theorem mem_around {pixel other : Pixel} : other ∈ around pixel ↔
    pixel.1 - 1 ≤ other.1 ∧ other.1 ≤ pixel.1 + 1 ∧
      pixel.2 - 1 ≤ other.2 ∧ other.2 ≤ pixel.2 + 1 := by
  obtain ⟨u, v⟩ := pixel
  obtain ⟨u', v'⟩ := other
  simp only [around, List.flatMap_cons, List.map_cons, List.map_nil, List.flatMap_nil,
    List.cons_append, List.nil_append, List.mem_cons, List.not_mem_nil, or_false, Prod.mk.injEq]
  omega

variable {converter} {depth : ℚ} {image : Image} {pixel : Pixel} {point : Point}

theorem fill_apply (other : Pixel) : converter.fill depth image other pixel =
    if pixel = other ∧ converter.Inside pixel ∧ image pixel = 0 then depth else image pixel := by
  unfold fill
  by_cases heq : pixel = other
  · subst heq
    by_cases hempty : converter.Inside pixel ∧ image pixel = 0
    · rw [if_pos hempty, if_pos ⟨rfl, hempty⟩, Function.update_self]
    · rw [if_neg hempty, if_neg fun h => hempty h.2]
  · have hother : ¬ (pixel = other ∧ converter.Inside pixel ∧ image pixel = 0) :=
      fun h => heq h.1
    rw [if_neg hother]
    split
    next => exact Function.update_of_ne heq _ _
    next => rfl

theorem foldl_fill (pixels : List Pixel) : pixels.foldl (converter.fill depth) image pixel =
    if pixel ∈ pixels ∧ converter.Inside pixel ∧ image pixel = 0 then depth else image pixel := by
  induction pixels generalizing image with
  | nil => simp
  | cons other pixels ih =>
      rw [List.foldl_cons, ih, fill_apply]
      by_cases hempty : converter.Inside pixel ∧ image pixel = 0
      · by_cases heq : pixel = other
        · have hfilled : pixel = other ∧ converter.Inside pixel ∧ image pixel = 0 := ⟨heq, hempty⟩
          rw [if_pos hfilled, ite_self, if_pos ⟨heq ▸ List.mem_cons_self, hempty⟩]
        · simp only [heq, false_and, if_false, List.mem_cons, false_or]
      · have hfull : ¬ (pixel = other ∧ converter.Inside pixel ∧ image pixel = 0) :=
          fun h => hempty h.2
        rw [if_neg hfull, if_neg fun h => hempty h.2, if_neg fun h => hempty h.2]

theorem draw_apply : converter.draw image point pixel =
    if converter.Hits pixel point then point.z
    else if converter.Covers pixel point ∧ image pixel = 0 then point.z
    else image pixel := by
  unfold draw
  split
  next hbehind =>
    have hnot : ¬ 0 < point.z := not_lt.mpr hbehind
    rw [if_neg fun h => hnot h.1, if_neg fun h => hnot h.1.1]
  next hfront =>
    have hdepth : 0 < point.z := not_le.mp hfront
    split
    next hinside =>
      rw [foldl_fill]
      by_cases hcenter : pixel = converter.center point
      · -- The pixel is not empty when it comes to those around it.
        subst hcenter
        rw [Function.update_self, if_neg fun h => hdepth.ne' h.2.2, if_pos ⟨hdepth, hinside, rfl⟩]
      · rw [Function.update_of_ne hcenter, if_neg fun h : converter.Hits pixel point =>
          hcenter h.2.2]
        simp only [Covers, mem_around, hdepth, hinside, true_and, and_assoc, and_left_comm]
    next houtside =>
      rw [if_neg fun h : converter.Hits pixel point => houtside (h.2.2 ▸ h.2.1),
        if_neg fun h => houtside h.1.2.2.1]

/-! ## The whole cloud -/

/-- The point whose depth the pixel shows. -/
def shown (converter : Converter) (pixel : Pixel) (cloud : List Point) : Option Point :=
  holder (converter.Hits pixel ·) (converter.Covers pixel ·) cloud

theorem shown_depth {cloud : List Point} (hshown : converter.shown pixel cloud = some point) :
    0 < point.z := by
  rcases (mem_of_holder hshown).2 with hhits | hcovers
  · exact (of_decide_eq_true hhits).1
  · exact (of_decide_eq_true hcovers).1

theorem draw_shown {cloud : List Point}
    (hdepth : image pixel = (converter.shown pixel cloud).elim 0 Point.z) :
    converter.draw image point pixel =
      (converter.shown pixel (cloud ++ [point])).elim 0 Point.z := by
  have hnext : converter.shown pixel (cloud ++ [point]) =
      if converter.Hits pixel point then some point
      else (converter.shown pixel cloud).or
        (if converter.Covers pixel point then some point else none) := by
    simpa [shown] using
      holder_concat (converter.Hits pixel ·) (converter.Covers pixel ·) cloud point
  rw [draw_apply, hdepth, hnext]
  by_cases hhits : converter.Hits pixel point
  · simp [hhits]
  · cases hshown : converter.shown pixel cloud with
    | none => by_cases hcovers : converter.Covers pixel point <;> simp [hhits, hcovers]
    | some earlier => simp [hhits, (shown_depth hshown).ne']

end Converter

/-- A pixel shows the depth of the last point that falls on it; where there is none, that of the
first point that falls on a pixel beside it; and nothing where there is none of these either. -/
theorem depth_of_pixel (converter : Converter) (cloud : List Point) (pixel : Pixel) :
    converter.projectCloudToDepth cloud pixel =
      ((cloud.reverse.find? (converter.Hits pixel ·)).or
        (cloud.find? (converter.Covers pixel ·))).elim 0 Point.z := by
  show _ = (converter.shown pixel cloud).elim 0 Point.z
  induction cloud using List.reverseRecOn with
  | nil => rfl
  | append_singleton cloud point ih =>
      rw [Converter.projectCloudToDepth, List.foldl_append]
      exact Converter.draw_shown ih

-- A point hides one that is nearer.
example : Converter.projectCloudToDepth ⟨4, 4, fun a b => (a / b).floor⟩
    [⟨1, 1, 1⟩, ⟨5, 5, 5⟩] (1, 1) = 5 := by decide +kernel

end AcflyRos.OdinDriver.DepthImage
