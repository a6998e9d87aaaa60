import AcflyRos.Foundation.Rotation

/-! # Attitude and velocity of the aligned odometry

The part of `timer_cb` (`acfly_odometry_node.cpp`) that builds the outgoing odometry
from a frame of the sensor and, in the alignment window, the attitude of the flight
controller. `double` values are real numbers here. `eulerAngles(2, 1, 0)` is a
parameter: the yaw, the pitch and the roll that it finds in a rotation matrix.
-/

noncomputable section

namespace AcflyRos.Odometry

open Matrix Quaternion Rotation

/-- The mounting of the sensor, in degrees. -/
structure Mount where
  rollDeg : ℝ := 0
  pitchDeg : ℝ := 45
  yawDeg : ℝ := 0

def radians (degrees : ℝ) : ℝ := degrees * Real.pi / 180

namespace Mount

variable (mount : Mount)

def qMount : ℍ[ℝ] :=
  zyx (radians mount.yawDeg) (radians mount.pitchDeg) (radians mount.rollDeg)

def qMountInv : ℍ[ℝ] := star mount.qMount

@[simp] theorem norm_qMount : ‖mount.qMount‖ = 1 := norm_zyx _ _ _

@[simp] theorem norm_qMountInv : ‖mount.qMountInv‖ = 1 := by
  rw [qMountInv, norm_star, norm_qMount]

end Mount

/-- The pose and the twist of `nav_msgs::msg::Odometry`. -/
structure Motion where
  position : Fin 3 → ℝ
  orientation : ℍ[ℝ]
  linear : Fin 3 → ℝ
  angular : Fin 3 → ℝ

section Align

variable (mount : Mount) (eulerAngles : Matrix (Fin 3) (Fin 3) ℝ → Fin 3 → ℝ) (odom : Motion)

/-- `q_slam_drone`. -/
def qSlamDrone : ℍ[ℝ] := normalized (normalized odom.orientation * mount.qMountInv)

/-- `q_aligned_drone`. -/
def qAlignedDrone (qFcu : ℍ[ℝ]) : ℍ[ℝ] :=
  let rpySlam := eulerAngles (toRotationMatrix (qSlamDrone mount odom))
  let rpyFcu := eulerAngles (toRotationMatrix qFcu)
  normalized (zyx (rpySlam 0) (rpyFcu 1) (rpyFcu 2))

/-- The outgoing odometry, with the attitude of the flight controller in the alignment window. -/
def align (att : Option ℍ[ℝ]) : Motion where
  position := odom.position
  orientation :=
    match att with
    | some orientation => qAlignedDrone mount eulerAngles odom (normalized orientation)
    | none => qSlamDrone mount odom
  linear := rotate mount.qMountInv odom.linear
  angular := rotate mount.qMountInv odom.angular

theorem qSlamDrone_of_orientation (horientation : odom.orientation ≠ 0) :
    qSlamDrone mount odom = normalized odom.orientation * mount.qMountInv :=
  normalized_of_unit (by rw [norm_mul, norm_normalized horientation, mount.norm_qMountInv, one_mul])

theorem norm_qSlamDrone (horientation : odom.orientation ≠ 0) : ‖qSlamDrone mount odom‖ = 1 := by
  rw [qSlamDrone_of_orientation mount odom horientation, norm_mul, norm_normalized horientation,
    mount.norm_qMountInv, one_mul]

theorem qAlignedDrone_eq (qFcu : ℍ[ℝ]) : qAlignedDrone mount eulerAngles odom qFcu =
    zyx (eulerAngles (toRotationMatrix (qSlamDrone mount odom)) 0)
      (eulerAngles (toRotationMatrix qFcu) 1) (eulerAngles (toRotationMatrix qFcu) 2) :=
  normalized_of_unit (norm_zyx _ _ _)

end Align

/-! ## Velocities -/

section Velocity

variable (mount : Mount) (eulerAngles : Matrix (Fin 3) (Fin 3) ℝ → Fin 3 → ℝ) (odom : Motion)

/-- The outgoing odometry says the same about the motion in the world as the incoming one. -/
structure SameMotion (odom aligned : Motion) : Prop where
  linear : rotate aligned.orientation aligned.linear =
    rotate (normalized odom.orientation) odom.linear
  angular : rotate aligned.orientation aligned.angular =
    rotate (normalized odom.orientation) odom.angular

variable {odom}

/-- A velocity comes out right when two turns by the mounting leave it alone. -/
theorem rotate_aligned_iff (horientation : odom.orientation ≠ 0) (v : Fin 3 → ℝ) :
    rotate (qSlamDrone mount odom) (rotate mount.qMountInv v) =
        rotate (normalized odom.orientation) v ↔
      rotate mount.qMount (rotate mount.qMount v) = v := by
  have hunit := mount.norm_qMount
  -- The attitude contains the mounting once, and the velocity is turned by it once more.
  rw [qSlamDrone_of_orientation mount odom horientation,
    rotate_mul (norm_normalized horientation) mount.norm_qMountInv,
    (rotate_injective (norm_normalized horientation)).eq_iff, Mount.qMountInv]
  constructor
  · intro hback
    calc rotate mount.qMount (rotate mount.qMount v)
        = rotate mount.qMount (rotate mount.qMount
            (rotate (star mount.qMount) (rotate (star mount.qMount) v))) := by rw [hback]
      _ = v := by rw [rotate_rotate_star hunit, rotate_rotate_star hunit]
  · intro hforth
    calc rotate (star mount.qMount) (rotate (star mount.qMount) v)
        = rotate (star mount.qMount) (rotate (star mount.qMount)
            (rotate mount.qMount (rotate mount.qMount v))) := by rw [hforth]
      _ = v := by rw [rotate_star_rotate hunit, rotate_star_rotate hunit]

theorem align_sameMotion_iff (horientation : odom.orientation ≠ 0) :
    SameMotion odom (align mount eulerAngles odom none) ↔
      rotate mount.qMount (rotate mount.qMount odom.linear) = odom.linear ∧
        rotate mount.qMount (rotate mount.qMount odom.angular) = odom.angular := by
  rw [← rotate_aligned_iff mount horientation, ← rotate_aligned_iff mount horientation]
  constructor
  · intro hsame
    exact ⟨hsame.linear, hsame.angular⟩
  · rintro ⟨hlinear, hangular⟩
    exact ⟨hlinear, hangular⟩

end Velocity

/-- Moving along the forward axis of the sensor, without turning. -/
def forward : Motion where
  position := 0
  orientation := 1
  linear := ![1, 0, 0]
  angular := 0

/-- Moving along the pitch axis of the sensor, and turning about it. -/
def sideways : Motion where
  position := 0
  orientation := 1
  linear := ![0, 1, 0]
  angular := ![0, 2, 0]

section DefaultMount

theorem toRotationMatrix_qMount_default :
    toRotationMatrix (Mount.qMount {}) = rotY (radians 45) := by
  have hzero : radians 0 = 0 := by simp [radians]
  rw [Mount.qMount, toRotationMatrix_zyx, hzero, rotZYX, rotZ_zero, rotX_zero, one_mul, mul_one]

theorem not_sameMotion_forward :
    ¬ SameMotion forward (align {} eulerZYX forward none) := by
  intro hsame
  have hne : forward.orientation ≠ 0 := one_ne_zero
  -- Two turns by 45 degrees take the forward axis to the vertical.
  have htwice := (rotate_aligned_iff {} hne _).mp hsame.linear
  have hfirst := congrFun htwice 0
  have hangle : radians 45 = Real.pi / 4 := by
    rw [radians]
    ring
  rw [rotate, rotate, toRotationMatrix_qMount_default, mulVec_mulVec, hangle] at hfirst
  simp [forward, rotY, mulVec, mul_apply, Fin.sum_univ_three, dotProduct] at hfirst

theorem sameMotion_sideways :
    SameMotion sideways (align {} eulerZYX sideways none) := by
  -- The default mounting turns about this axis.
  have hfixed : ∀ v, rotate (Mount.qMount {}) ![0, v, 0] = ![0, v, 0] := by
    intro v
    ext i
    fin_cases i <;>
      simp [rotate, toRotationMatrix_qMount_default, rotY, mulVec, dotProduct, Fin.sum_univ_three]
  have hne : sideways.orientation ≠ 0 := one_ne_zero
  refine (align_sameMotion_iff {} eulerZYX hne).mpr ?_
  simp [sideways, hfixed]

end DefaultMount

/-! ## Attitude -/

/-- What the documentation of `eulerAngles(2, 1, 0)` says. -/
structure Documented (eulerAngles : Matrix (Fin 3) (Fin 3) ℝ → Fin 3 → ℝ) : Prop where
  recompose : ∀ matrix ∈ specialOrthogonalGroup (Fin 3) ℝ,
    rotZYX (eulerAngles matrix 0) (eulerAngles matrix 1) (eulerAngles matrix 2) = matrix
  first : ∀ matrix ∈ specialOrthogonalGroup (Fin 3) ℝ, eulerAngles matrix 0 ∈ Set.Icc 0 Real.pi

theorem documented_eulerZYX : Documented eulerZYX where
  recompose := fun _ hmatrix => rotZYX_eulerZYX hmatrix
  first := fun matrix _ => eulerZYX_mem matrix

section Fusion

variable (mount : Mount) {eulerAngles : Matrix (Fin 3) (Fin 3) ℝ → Fin 3 → ℝ}

/-- Between -90 and 90 degrees. -/
def Upright (q : ℍ[ℝ]) : Prop :=
  pitchOf (toRotationMatrix q) ∈ Set.Ioo (-(Real.pi / 2)) (Real.pi / 2)

/-- The heading of the sensor, with the roll and the pitch of the flight controller. -/
def Fused (qSlam qFcu qAligned : ℍ[ℝ]) : Prop :=
  toRotationMatrix qAligned = rotZYX (headingOf (toRotationMatrix qSlam))
    (pitchOf (toRotationMatrix qFcu)) (rollOf (toRotationMatrix qFcu))

/-- The heading is between 0 and 180 degrees. At 0 and at 180 degrees it counts as being so when
it is the yaw that `eulerAngles` finds. -/
structure UpperHalf (eulerAngles : Matrix (Fin 3) (Fin 3) ℝ → Fin 3 → ℝ) (q : ℍ[ℝ]) : Prop where
  nonneg : 0 ≤ headingOf (toRotationMatrix q)
  found : headingOf (toRotationMatrix q) = 0 ∨ headingOf (toRotationMatrix q) = Real.pi →
    headingOf (toRotationMatrix q) = eulerAngles (toRotationMatrix q) 0

variable (hdoc : Documented eulerAngles) {q : ℍ[ℝ]} (hunit : ‖q‖ = 1) (hupright : Upright q)

include hdoc hunit

theorem Documented.recomposed :
    toRotationMatrix q = rotZYX (eulerAngles (toRotationMatrix q) 0)
      (eulerAngles (toRotationMatrix q) 1) (eulerAngles (toRotationMatrix q) 2) :=
  (hdoc.recompose _ (toRotationMatrix_mem hunit)).symm

include hupright

theorem Documented.cos_pitch_ne_zero : Real.cos (eulerAngles (toRotationMatrix q) 1) ≠ 0 := by
  intro hzero
  rw [Upright, hdoc.recomposed hunit, pitchOf_rotZYX] at hupright
  have hsine := Real.cos_sq_add_sin_sq (eulerAngles (toRotationMatrix q) 1)
  rw [hzero, zero_pow two_ne_zero, zero_add, sq_eq_one_iff] at hsine
  rcases hsine with hone | hone
  · rw [hone, Real.arcsin_one] at hupright
    exact lt_irrefl _ hupright.2
  · rw [hone, Real.arcsin_neg_one] at hupright
    exact lt_irrefl _ hupright.1

/-- The pitch found is between -90 and 90 degrees for the headings of one half only. -/
theorem Documented.upperHalf_iff :
    UpperHalf eulerAngles q ↔ 0 < Real.cos (eulerAngles (toRotationMatrix q) 1) := by
  have hcos := hdoc.cos_pitch_ne_zero hunit hupright
  have hyaw := hdoc.first _ (toRotationMatrix_mem hunit)
  have hheading := headingOf_eq_iff (eulerAngles (toRotationMatrix q) 2) hcos hyaw
  rw [← hdoc.recomposed hunit] at hheading
  rw [← hheading]
  constructor
  · intro hupper
    by_cases hends : headingOf (toRotationMatrix q) = 0 ∨ headingOf (toRotationMatrix q) = Real.pi
    · exact hupper.found hends
    · obtain ⟨hzero, hpi⟩ := not_or.mp hends
      rw [hheading]
      -- Strictly inside the half, half a turn would lead out of [0, π].
      by_contra hle
      have hneg := lt_of_le_of_ne (not_lt.mp hle) hcos
      have hsine := sin_arg_polar (Real.cos (eulerAngles (toRotationMatrix q) 1))
        (eulerAngles (toRotationMatrix q) 0)
      rw [← headingOf_rotZYX _ _ (eulerAngles (toRotationMatrix q) 2), ← hdoc.recomposed hunit,
        ← branch, branch_of_neg hneg] at hsine
      have hpos := Real.sin_pos_of_pos_of_lt_pi (lt_of_le_of_ne hupper.nonneg (Ne.symm hzero))
        (lt_of_le_of_ne (Complex.arg_le_pi _) hpi)
      have hnonneg := Real.sin_nonneg_of_mem_Icc hyaw
      linarith
  · intro hfound
    exact ⟨hyaw.1.trans_eq hfound.symm, fun _ => hfound⟩

omit hdoc hunit hupright

variable {odom : Motion} {qFcu : ℍ[ℝ]}

/-- The angles of two rotations go together when both headings are in the same half. -/
theorem Documented.fused_iff (hdoc : Documented eulerAngles) (horientation : odom.orientation ≠ 0)
    (hfcu : ‖qFcu‖ = 1) (huprightSlam : Upright (qSlamDrone mount odom))
    (huprightFcu : Upright qFcu) :
    Fused (qSlamDrone mount odom) qFcu (qAlignedDrone mount eulerAngles odom qFcu) ↔
      (UpperHalf eulerAngles (qSlamDrone mount odom) ↔ UpperHalf eulerAngles qFcu) := by
  have hslam := norm_qSlamDrone mount odom horientation
  have hcosSlam := hdoc.cos_pitch_ne_zero hslam huprightSlam
  have hcosFcu := hdoc.cos_pitch_ne_zero hfcu huprightFcu
  have hmixed := rotZYX_mixed (eulerAngles (toRotationMatrix (qSlamDrone mount odom)) 0)
    (eulerAngles (toRotationMatrix (qSlamDrone mount odom)) 2) hcosSlam
    (eulerAngles (toRotationMatrix qFcu) 0) (eulerAngles (toRotationMatrix qFcu) 2) hcosFcu
  rw [← hdoc.recomposed hslam, ← hdoc.recomposed hfcu] at hmixed
  rw [Fused, hmixed, qAlignedDrone_eq, toRotationMatrix_zyx, eq_comm, diagonal_mul_rotZYX_eq_iff,
    hdoc.upperHalf_iff hslam huprightSlam, hdoc.upperHalf_iff hfcu huprightFcu,
    branch_mul_branch_eq_one_iff hcosSlam hcosFcu]

end Fusion

section Headings

variable (direction : ℝ)

/-- The sensor stands level and looks in that direction. -/
def facing : Motion where
  position := 0
  orientation := aboutZ direction
  linear := 0
  angular := 0

def levelMount : Mount := ⟨0, 0, 0⟩

theorem orientation_facing : (facing direction).orientation ≠ 0 :=
  norm_ne_zero_iff.mp ((norm_aboutZ direction).trans_ne one_ne_zero)

theorem qSlamDrone_facing : qSlamDrone levelMount (facing direction) = aboutZ direction := by
  have hmount : levelMount.qMountInv = 1 := by
    simp [Mount.qMountInv, Mount.qMount, levelMount, radians, zyx]
  rw [qSlamDrone, hmount, mul_one]
  simp [facing]

theorem upright_aboutZ : Upright (aboutZ direction) := by
  simp [Upright, toRotationMatrix_aboutZ, pitchOf, rotZ, Real.pi_pos]

theorem headingOf_aboutZ (hdirection : direction ∈ Set.Ioc (-Real.pi) Real.pi) :
    headingOf (toRotationMatrix (aboutZ direction)) = direction := by
  have hpolar : (⟨Real.cos direction, Real.sin direction⟩ : ℂ) =
      Complex.cos direction + Complex.sin direction * Complex.I := by
    apply Complex.ext <;> simp [← Complex.ofReal_cos, ← Complex.ofReal_sin]
  simp only [toRotationMatrix_aboutZ, headingOf, rotZ, of_apply, cons_val_zero, cons_val_one]
  rw [hpolar, Complex.arg_cos_add_sin_mul_I hdirection]

theorem upperHalf_aboutZ (hdirection : direction ∈ Set.Ioc (-Real.pi) Real.pi) :
    UpperHalf eulerZYX (aboutZ direction) ↔ 0 ≤ direction := by
  have hheading := headingOf_aboutZ direction hdirection
  constructor
  · intro hupper
    exact hheading ▸ hupper.nonneg
  · intro hnonneg
    refine ⟨hheading.symm ▸ hnonneg, fun _ => ?_⟩
    simp [eulerZYX, hheading, hnonneg.not_gt]

theorem upright_one : Upright 1 := aboutZ_zero ▸ upright_aboutZ 0

theorem upperHalf_one : UpperHalf eulerZYX 1 := by
  rw [← aboutZ_zero, upperHalf_aboutZ 0 ⟨neg_neg_of_pos Real.pi_pos, Real.pi_pos.le⟩]

theorem normalized_one : normalized 1 = 1 := normalized_of_unit norm_one

/-- Next to a flight controller that stands level and looks ahead. -/
theorem fused_facing_iff (hdirection : direction ∈ Set.Ioc (-Real.pi) Real.pi) :
    Fused (qSlamDrone levelMount (facing direction)) 1
        (qAlignedDrone levelMount eulerZYX (facing direction) 1) ↔ 0 ≤ direction := by
  rw [documented_eulerZYX.fused_iff levelMount (orientation_facing direction) norm_one
    (by rw [qSlamDrone_facing]; exact upright_aboutZ direction) upright_one, qSlamDrone_facing,
    upperHalf_aboutZ direction hdirection, iff_true_right upperHalf_one]

end Headings

section Aligned

variable (mount : Mount) {eulerAngles : Matrix (Fin 3) (Fin 3) ℝ → Fin 3 → ℝ} {odom : Motion}

theorem align_fused_iff (hdoc : Documented eulerAngles) (horientation : odom.orientation ≠ 0)
    {att : ℍ[ℝ]} (hatt : att ≠ 0) (huprightSlam : Upright (qSlamDrone mount odom))
    (huprightFcu : Upright (normalized att)) :
    Fused (qSlamDrone mount odom) (normalized att)
        (align mount eulerAngles odom (some att)).orientation ↔
      (UpperHalf eulerAngles (qSlamDrone mount odom) ↔
        UpperHalf eulerAngles (normalized att)) :=
  hdoc.fused_iff mount horientation (norm_normalized hatt) huprightSlam huprightFcu

theorem fused_northward :
    Fused (qSlamDrone levelMount (facing (Real.pi / 2))) (normalized 1)
      (align levelMount eulerZYX (facing (Real.pi / 2)) (some 1)).orientation := by
  have hpi := Real.pi_pos
  refine (align_fused_iff levelMount documented_eulerZYX (orientation_facing _) one_ne_zero
    (by rw [qSlamDrone_facing]; exact upright_aboutZ _)
    (by rw [normalized_one]; exact upright_one)).mpr ?_
  rw [qSlamDrone_facing, normalized_one]
  exact iff_of_true ((upperHalf_aboutZ _ ⟨by linarith, by linarith⟩).mpr (by linarith))
    upperHalf_one

theorem not_fused_southward :
    ¬ Fused (qSlamDrone levelMount (facing (-(Real.pi / 2)))) (normalized 1)
      (align levelMount eulerZYX (facing (-(Real.pi / 2))) (some 1)).orientation := by
  have hpi := Real.pi_pos
  intro hfused
  simp only [align, normalized_one] at hfused
  rw [fused_facing_iff _ ⟨by linarith, by linarith⟩] at hfused
  linarith

end Aligned

end AcflyRos.Odometry

end
