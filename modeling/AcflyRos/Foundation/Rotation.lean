import Mathlib.Analysis.Quaternion
import Mathlib.Analysis.SpecialFunctions.Complex.Arg
import Mathlib.LinearAlgebra.Matrix.Determinant.Basic
import Mathlib.LinearAlgebra.UnitaryGroup

/-! # Rotations of space

Unit quaternions and the matrices of their rotations, the rotations about the three
axes, and the decomposition of a rotation into a roll, a pitch and a yaw. The
decomposition is not unique: turning yaw and roll by half a turn and mirroring the
pitch gives the same rotation.
-/

noncomputable section

namespace AcflyRos.Rotation

open Matrix Quaternion

/-! ## Literals

Shortcuts for the instances behind the indices of three axes and behind halves and doubles.
-/

instance neZero_three : NeZero 3 := ⟨three_ne_zero⟩

instance atLeastTwo_two : Nat.AtLeastTwo 2 := ⟨le_rfl⟩

/-! ## Quaternions -/

/-- The matrix of the rotation that a unit quaternion stands for. -/
def toRotationMatrix (q : ℍ[ℝ]) : Matrix (Fin 3) (Fin 3) ℝ :=
  !![1 - 2 * (q.imJ * q.imJ + q.imK * q.imK), 2 * (q.imI * q.imJ - q.imK * q.re),
      2 * (q.imI * q.imK + q.imJ * q.re);
    2 * (q.imI * q.imJ + q.imK * q.re), 1 - 2 * (q.imI * q.imI + q.imK * q.imK),
      2 * (q.imJ * q.imK - q.imI * q.re);
    2 * (q.imI * q.imK - q.imJ * q.re), 2 * (q.imJ * q.imK + q.imI * q.re),
      1 - 2 * (q.imI * q.imI + q.imJ * q.imJ)]

def rotate (q : ℍ[ℝ]) (v : Fin 3 → ℝ) : Fin 3 → ℝ := toRotationMatrix q *ᵥ v

def normalized (q : ℍ[ℝ]) : ℍ[ℝ] := ‖q‖⁻¹ • q

theorem norm_normalized {q : ℍ[ℝ]} (hq : q ≠ 0) : ‖normalized q‖ = 1 := by
  rw [normalized, norm_smul, norm_inv, norm_norm, inv_mul_cancel₀ (norm_ne_zero_iff.mpr hq)]

@[simp] theorem normalized_of_unit {q : ℍ[ℝ]} (hq : ‖q‖ = 1) : normalized q = q := by
  rw [normalized, hq, inv_one, one_smul]

theorem unit_iff {q : ℍ[ℝ]} :
    ‖q‖ = 1 ↔ q.re ^ 2 + q.imI ^ 2 + q.imJ ^ 2 + q.imK ^ 2 = 1 := by
  rw [← normSq_def', normSq_eq_norm_mul_self, ← sq,
    pow_eq_one_iff_of_nonneg (norm_nonneg q) two_ne_zero]

/-- Conjugation by a quaternion, as a matrix: it turns, and scales by the square of the norm. -/
def conjugationMatrix (q : ℍ[ℝ]) : Matrix (Fin 3) (Fin 3) ℝ :=
  !![q.re ^ 2 + q.imI ^ 2 - q.imJ ^ 2 - q.imK ^ 2, 2 * (q.imI * q.imJ - q.imK * q.re),
      2 * (q.imI * q.imK + q.imJ * q.re);
    2 * (q.imI * q.imJ + q.imK * q.re), q.re ^ 2 - q.imI ^ 2 + q.imJ ^ 2 - q.imK ^ 2,
      2 * (q.imJ * q.imK - q.imI * q.re);
    2 * (q.imI * q.imK - q.imJ * q.re), 2 * (q.imJ * q.imK + q.imI * q.re),
      q.re ^ 2 - q.imI ^ 2 - q.imJ ^ 2 + q.imK ^ 2]

theorem conjugationMatrix_mul (p q : ℍ[ℝ]) :
    conjugationMatrix (p * q) = conjugationMatrix p * conjugationMatrix q := by
  ext i j
  fin_cases i <;> fin_cases j <;>
    simp [conjugationMatrix, mul_apply, Fin.sum_univ_three] <;> ring

theorem conjugationMatrix_star (q : ℍ[ℝ]) :
    conjugationMatrix (star q) = (conjugationMatrix q)ᵀ := by
  ext i j
  fin_cases i <;> fin_cases j <;> simp [conjugationMatrix, sub_eq_add_neg]

/-- For a unit quaternion the matrix is that of the conjugation by it. -/
theorem toRotationMatrix_of_unit {q : ℍ[ℝ]} (hq : ‖q‖ = 1) :
    toRotationMatrix q = conjugationMatrix q := by
  ext i j
  fin_cases i <;> fin_cases j <;> simp [toRotationMatrix, conjugationMatrix] <;>
    linear_combination -unit_iff.mp hq

theorem toRotationMatrix_mul {p q : ℍ[ℝ]} (hp : ‖p‖ = 1) (hq : ‖q‖ = 1) :
    toRotationMatrix (p * q) = toRotationMatrix p * toRotationMatrix q := by
  have hpq : ‖p * q‖ = 1 := by rw [norm_mul, hp, hq, one_mul]
  rw [toRotationMatrix_of_unit hpq, toRotationMatrix_of_unit hp, toRotationMatrix_of_unit hq,
    conjugationMatrix_mul]

@[simp] theorem toRotationMatrix_one : toRotationMatrix 1 = 1 := by
  simp [toRotationMatrix, one_fin_three]

theorem toRotationMatrix_star {q : ℍ[ℝ]} (hq : ‖q‖ = 1) :
    toRotationMatrix (star q) = (toRotationMatrix q)ᵀ := by
  rw [toRotationMatrix_of_unit (by rw [norm_star, hq]), toRotationMatrix_of_unit hq,
    conjugationMatrix_star]

theorem star_mul_of_unit {q : ℍ[ℝ]} (hq : ‖q‖ = 1) : star q * q = 1 := by
  rw [star_mul_self, normSq_eq_norm_mul_self, hq, one_mul, coe_one]

theorem det_conjugationMatrix (q : ℍ[ℝ]) :
    (conjugationMatrix q).det = (q.re ^ 2 + q.imI ^ 2 + q.imJ ^ 2 + q.imK ^ 2) ^ 3 := by
  rw [det_fin_three]
  simp only [conjugationMatrix, of_apply, cons_val]
  ring

/-- The matrices of rotations. -/
theorem toRotationMatrix_mem {q : ℍ[ℝ]} (hq : ‖q‖ = 1) :
    toRotationMatrix q ∈ specialOrthogonalGroup (Fin 3) ℝ := by
  have hstar : (toRotationMatrix q)ᵀ * toRotationMatrix q = 1 := by
    rw [← toRotationMatrix_star hq, ← toRotationMatrix_mul (by rw [norm_star, hq]) hq,
      star_mul_of_unit hq, toRotationMatrix_one]
  refine mem_specialOrthogonalGroup_iff.mpr ⟨(mem_orthogonalGroup_iff' _ _).mpr hstar, ?_⟩
  rw [toRotationMatrix_of_unit hq, det_conjugationMatrix, unit_iff.mp hq, one_pow]

section Rotate

variable {p q : ℍ[ℝ]} (hp : ‖p‖ = 1) (hq : ‖q‖ = 1) (v : Fin 3 → ℝ)

include hq

include hp in
theorem rotate_mul : rotate (p * q) v = rotate p (rotate q v) := by
  rw [rotate, rotate, rotate, toRotationMatrix_mul hp hq, mulVec_mulVec]

@[simp] theorem rotate_star_rotate : rotate (star q) (rotate q v) = v := by
  rw [← rotate_mul (by rw [norm_star, hq]) hq, star_mul_of_unit hq, rotate, toRotationMatrix_one,
    one_mulVec]

@[simp] theorem rotate_rotate_star : rotate q (rotate (star q) v) = v := by
  have hback := rotate_star_rotate (by rw [norm_star, hq] : ‖star q‖ = 1) v
  rwa [star_star] at hback

theorem rotate_injective : Function.Injective (rotate q) := fun v w heq => by
  rw [← rotate_star_rotate hq v, heq, rotate_star_rotate hq w]

end Rotate

/-! ## Rotations about the axes -/

def aboutX (angle : ℝ) : ℍ[ℝ] := ⟨Real.cos (angle / 2), Real.sin (angle / 2), 0, 0⟩

def aboutY (angle : ℝ) : ℍ[ℝ] := ⟨Real.cos (angle / 2), 0, Real.sin (angle / 2), 0⟩

def aboutZ (angle : ℝ) : ℍ[ℝ] := ⟨Real.cos (angle / 2), 0, 0, Real.sin (angle / 2)⟩

@[simp] theorem norm_aboutX (angle : ℝ) : ‖aboutX angle‖ = 1 :=
  unit_iff.mpr (by simp [aboutX])

@[simp] theorem norm_aboutY (angle : ℝ) : ‖aboutY angle‖ = 1 :=
  unit_iff.mpr (by simp [aboutY])

@[simp] theorem norm_aboutZ (angle : ℝ) : ‖aboutZ angle‖ = 1 :=
  unit_iff.mpr (by simp [aboutZ])

@[simp] theorem aboutX_zero : aboutX 0 = 1 := by
  ext <;> simp [aboutX]

@[simp] theorem aboutY_zero : aboutY 0 = 1 := by
  ext <;> simp [aboutY]

@[simp] theorem aboutZ_zero : aboutZ 0 = 1 := by
  ext <;> simp [aboutZ]

/-- Yaw, pitch and roll, as quaternions. -/
def zyx (yaw pitch roll : ℝ) : ℍ[ℝ] := aboutZ yaw * aboutY pitch * aboutX roll

@[simp] theorem norm_zyx (yaw pitch roll : ℝ) : ‖zyx yaw pitch roll‖ = 1 := by
  simp [zyx]

def rotZ (angle : ℝ) : Matrix (Fin 3) (Fin 3) ℝ :=
  !![Real.cos angle, -Real.sin angle, 0; Real.sin angle, Real.cos angle, 0; 0, 0, 1]

def rotY (angle : ℝ) : Matrix (Fin 3) (Fin 3) ℝ :=
  !![Real.cos angle, 0, Real.sin angle; 0, 1, 0; -Real.sin angle, 0, Real.cos angle]

def rotX (angle : ℝ) : Matrix (Fin 3) (Fin 3) ℝ :=
  !![1, 0, 0; 0, Real.cos angle, -Real.sin angle; 0, Real.sin angle, Real.cos angle]

@[simp] theorem rotZ_zero : rotZ 0 = 1 := by
  simp [rotZ, one_fin_three]

@[simp] theorem rotX_zero : rotX 0 = 1 := by
  simp [rotX, one_fin_three]

def rotZYX (yaw pitch roll : ℝ) : Matrix (Fin 3) (Fin 3) ℝ := rotZ yaw * rotY pitch * rotX roll

theorem cos_of_half (angle : ℝ) :
    Real.cos angle = 1 - 2 * (Real.sin (angle / 2) * Real.sin (angle / 2)) := by
  have hangle : 2 * (angle / 2) = angle := by ring
  rw [← hangle, Real.cos_two_mul, hangle, Real.cos_sq']
  ring

theorem sin_of_half (angle : ℝ) :
    Real.sin angle = 2 * (Real.sin (angle / 2) * Real.cos (angle / 2)) := by
  have hangle : 2 * (angle / 2) = angle := by ring
  rw [← hangle, Real.sin_two_mul, hangle]
  ring

theorem toRotationMatrix_aboutZ (angle : ℝ) : toRotationMatrix (aboutZ angle) = rotZ angle := by
  simp [toRotationMatrix, aboutZ, rotZ, cos_of_half angle, sin_of_half angle]

theorem toRotationMatrix_aboutY (angle : ℝ) : toRotationMatrix (aboutY angle) = rotY angle := by
  simp [toRotationMatrix, aboutY, rotY, cos_of_half angle, sin_of_half angle]

theorem toRotationMatrix_aboutX (angle : ℝ) : toRotationMatrix (aboutX angle) = rotX angle := by
  simp [toRotationMatrix, aboutX, rotX, cos_of_half angle, sin_of_half angle]

theorem toRotationMatrix_zyx (yaw pitch roll : ℝ) :
    toRotationMatrix (zyx yaw pitch roll) = rotZYX yaw pitch roll := by
  rw [zyx, toRotationMatrix_mul (by simp) (by simp), toRotationMatrix_mul (by simp) (by simp),
    toRotationMatrix_aboutZ, toRotationMatrix_aboutY, toRotationMatrix_aboutX, rotZYX]

/-- The product written out. -/
theorem rotZYX_def (yaw pitch roll : ℝ) : rotZYX yaw pitch roll =
    !![Real.cos yaw * Real.cos pitch,
        Real.cos yaw * Real.sin pitch * Real.sin roll - Real.sin yaw * Real.cos roll,
        Real.cos yaw * Real.sin pitch * Real.cos roll + Real.sin yaw * Real.sin roll;
      Real.sin yaw * Real.cos pitch,
        Real.sin yaw * Real.sin pitch * Real.sin roll + Real.cos yaw * Real.cos roll,
        Real.sin yaw * Real.sin pitch * Real.cos roll - Real.cos yaw * Real.sin roll;
      -Real.sin pitch, Real.cos pitch * Real.sin roll, Real.cos pitch * Real.cos roll] := by
  ext i j
  fin_cases i <;> fin_cases j <;>
    simp [rotZYX, rotZ, rotY, rotX, mul_apply, Fin.sum_univ_three] <;> ring

/-! ## Roll, pitch and yaw of a rotation

Those of the decomposition whose pitch is between -90 and 90 degrees.
-/

section Angles

variable (matrix : Matrix (Fin 3) (Fin 3) ℝ)

/-- The yaw, in (-π, π]. -/
def headingOf : ℝ := Complex.arg ⟨matrix 0 0, matrix 1 0⟩

def pitchOf : ℝ := Real.arcsin (-matrix 2 0)

def rollOf : ℝ := Complex.arg ⟨matrix 2 2, matrix 2 1⟩

end Angles

section Polar

variable (r angle : ℝ)

theorem norm_polar : ‖(⟨r * Real.cos angle, r * Real.sin angle⟩ : ℂ)‖ = |r| := by
  rw [Complex.norm_eq_sqrt_sq_add_sq, ← Real.sqrt_sq_eq_abs]
  congr 1
  linear_combination r ^ 2 * Real.cos_sq_add_sin_sq angle

theorem cos_arg_polar {r : ℝ} (hr : r ≠ 0) (angle : ℝ) :
    Real.cos (Complex.arg ⟨r * Real.cos angle, r * Real.sin angle⟩) =
      r / |r| * Real.cos angle := by
  have hne : (⟨r * Real.cos angle, r * Real.sin angle⟩ : ℂ) ≠ 0 := by
    rw [← norm_ne_zero_iff, norm_polar]
    exact abs_ne_zero.mpr hr
  rw [Complex.cos_arg hne, norm_polar]
  ring

theorem sin_arg_polar :
    Real.sin (Complex.arg ⟨r * Real.cos angle, r * Real.sin angle⟩) =
      r / |r| * Real.sin angle := by
  rw [Complex.sin_arg, norm_polar]
  ring

end Polar

/-- Which of the two decompositions a pitch belongs to: 1 when it is between -90 and 90 degrees,
-1 when it is beyond. -/
def branch (pitch : ℝ) : ℝ := Real.cos pitch / |Real.cos pitch|

section Branch

variable {pitch : ℝ}

theorem branch_of_pos (hcos : 0 < Real.cos pitch) : branch pitch = 1 := by
  rw [branch, abs_of_pos hcos, div_self hcos.ne']

theorem branch_of_neg (hcos : Real.cos pitch < 0) : branch pitch = -1 := by
  rw [branch, abs_of_neg hcos, div_neg, div_self hcos.ne]

theorem branch_mul_self (hcos : Real.cos pitch ≠ 0) : branch pitch * branch pitch = 1 := by
  rcases lt_or_gt_of_ne hcos with hneg | hpos
  · rw [branch_of_neg hneg, neg_one_mul, neg_neg]
  · rw [branch_of_pos hpos, one_mul]

theorem branch_mul_cos (hcos : Real.cos pitch ≠ 0) :
    branch pitch * Real.cos pitch = |Real.cos pitch| := by
  rcases lt_or_gt_of_ne hcos with hneg | hpos
  · rw [branch_of_neg hneg, abs_of_neg hneg, neg_one_mul]
  · rw [branch_of_pos hpos, abs_of_pos hpos, one_mul]

theorem branch_mul_branch_eq_one_iff {pitch' : ℝ} (hcos : Real.cos pitch ≠ 0)
    (hcos' : Real.cos pitch' ≠ 0) :
    branch pitch * branch pitch' = 1 ↔ (0 < Real.cos pitch ↔ 0 < Real.cos pitch') := by
  rcases lt_or_gt_of_ne hcos with hneg | hpos <;> rcases lt_or_gt_of_ne hcos' with hneg' | hpos'
  · simp [branch_of_neg hneg, branch_of_neg hneg', hneg.not_gt, hneg'.not_gt]
  · norm_num [branch_of_neg hneg, branch_of_pos hpos', hneg.not_gt, hpos']
  · norm_num [branch_of_pos hpos, branch_of_neg hneg', hpos, hneg'.not_gt]
  · simp [branch_of_pos hpos, branch_of_pos hpos', hpos, hpos']

end Branch

section Decomposed

variable (yaw pitch roll : ℝ)

theorem headingOf_rotZYX : headingOf (rotZYX yaw pitch roll) =
    Complex.arg ⟨Real.cos pitch * Real.cos yaw, Real.cos pitch * Real.sin yaw⟩ := by
  simp [headingOf, rotZYX_def, mul_comm]

theorem rollOf_rotZYX : rollOf (rotZYX yaw pitch roll) =
    Complex.arg ⟨Real.cos pitch * Real.cos roll, Real.cos pitch * Real.sin roll⟩ := by
  simp [rollOf, rotZYX_def]

theorem pitchOf_rotZYX : pitchOf (rotZYX yaw pitch roll) = Real.arcsin (Real.sin pitch) := by
  simp [pitchOf, rotZYX_def]

variable {pitch} (hcos : Real.cos pitch ≠ 0)

include hcos

theorem cos_pitchOf : Real.cos (pitchOf (rotZYX yaw pitch roll)) =
    branch pitch * Real.cos pitch := by
  rw [branch_mul_cos hcos, Real.abs_cos_eq_sqrt_one_sub_sin_sq, pitchOf_rotZYX, Real.cos_arcsin]

/-- The heading and the roll and pitch of two rotations, put together, differ from what the
angles of any two decompositions of these rotations put together by half a turn about the
vertical, unless both decompositions are of the same branch. -/
theorem rotZYX_mixed (yaw' roll' : ℝ) {pitch' : ℝ} (hcos' : Real.cos pitch' ≠ 0) :
    rotZYX (headingOf (rotZYX yaw pitch roll)) (pitchOf (rotZYX yaw' pitch' roll'))
        (rollOf (rotZYX yaw' pitch' roll')) =
      diagonal ![branch pitch * branch pitch', branch pitch * branch pitch', 1] *
        rotZYX yaw pitch' roll' := by
  have hunit := branch_mul_self hcos'
  rw [rotZYX_def, cos_pitchOf _ _ hcos', pitchOf_rotZYX, headingOf_rotZYX, rollOf_rotZYX,
    cos_arg_polar hcos, sin_arg_polar, cos_arg_polar hcos', sin_arg_polar,
    Real.sin_arcsin (Real.neg_one_le_sin _) (Real.sin_le_one _), rotZYX_def, ← branch, ← branch]
  ext i j
  -- In the last row the branch of the pitch occurs twice.
  fin_cases i <;> fin_cases j <;> simp
  · ring
  · ring
  · ring
  · ring
  · ring
  · ring
  · linear_combination (Real.cos pitch' * Real.sin roll') * hunit
  · linear_combination (Real.cos pitch' * Real.cos roll') * hunit

omit hcos in
theorem rotZYX_mem (yaw pitch roll : ℝ) :
    rotZYX yaw pitch roll ∈ specialOrthogonalGroup (Fin 3) ℝ := by
  rw [← toRotationMatrix_zyx]
  exact toRotationMatrix_mem (norm_zyx yaw pitch roll)

omit hcos in
theorem diagonal_mul_rotZYX_eq_iff (yaw pitch roll scale : ℝ) :
    diagonal ![scale, scale, 1] * rotZYX yaw pitch roll = rotZYX yaw pitch roll ↔ scale = 1 := by
  constructor
  · intro heq
    have horthogonal := (mem_orthogonalGroup_iff _ _).mp
      (mem_specialOrthogonalGroup_iff.mp (rotZYX_mem yaw pitch roll)).1
    have hone : diagonal ![scale, scale, 1] = 1 := by
      calc diagonal ![scale, scale, 1]
          = diagonal ![scale, scale, 1] * rotZYX yaw pitch roll * (rotZYX yaw pitch roll)ᵀ := by
            rw [mul_assoc, horthogonal, mul_one]
        _ = 1 := by rw [heq, horthogonal]
    simpa using congrFun (congrFun hone 0) 0
  · rintro rfl
    have hone : diagonal ![(1 : ℝ), 1, 1] = 1 := by
      simp [diagonal_fin_three, one_fin_three]
    rw [hone, one_mul]

/-- A yaw in [0, π] is the heading on the first branch only. -/
theorem headingOf_eq_iff {yaw : ℝ} (hyaw : yaw ∈ Set.Icc 0 Real.pi) :
    headingOf (rotZYX yaw pitch roll) = yaw ↔ 0 < Real.cos pitch := by
  constructor
  · intro heq
    by_contra hle
    have hneg : Real.cos pitch < 0 := lt_of_le_of_ne (not_lt.mp hle) hcos
    -- On the other branch the heading is half a turn off.
    have hcosine := cos_arg_polar hcos yaw
    have hsine := sin_arg_polar (Real.cos pitch) yaw
    rw [← headingOf_rotZYX yaw pitch roll, heq, ← branch, branch_of_neg hneg] at hcosine hsine
    nlinarith [Real.cos_sq_add_sin_sq yaw]
  · intro hpos
    have hpolar : (⟨Real.cos pitch * Real.cos yaw, Real.cos pitch * Real.sin yaw⟩ : ℂ) =
        Real.cos pitch * (Complex.cos yaw + Complex.sin yaw * Complex.I) := by
      apply Complex.ext <;> simp [← Complex.ofReal_cos, ← Complex.ofReal_sin]
    rw [headingOf_rotZYX, hpolar]
    exact Complex.arg_mul_cos_add_sin_mul_I hpos
      ⟨lt_of_lt_of_le (neg_neg_of_pos Real.pi_pos) hyaw.1, hyaw.2⟩

end Decomposed

/-! ## Finding the angles -/

/-- The angles of a rotation with the yaw in [0, π], from four-quadrant arc tangents. -/
def eulerZYX (matrix : Matrix (Fin 3) (Fin 3) ℝ) : Fin 3 → ℝ :=
  let back := headingOf matrix < 0
  let level := ‖(⟨matrix 2 2, matrix 2 1⟩ : ℂ)‖
  let yaw := if back then headingOf matrix + Real.pi else headingOf matrix
  let pitch := Complex.arg ⟨if back then -level else level, -matrix 2 0⟩
  let roll := Complex.arg ⟨Real.cos yaw * matrix 1 1 - Real.sin yaw * matrix 0 1,
    Real.sin yaw * matrix 0 2 - Real.cos yaw * matrix 1 2⟩
  ![yaw, pitch, roll]

theorem transpose_eq_adjugate {matrix : Matrix (Fin 3) (Fin 3) ℝ}
    (hmatrix : matrix ∈ specialOrthogonalGroup (Fin 3) ℝ) : matrixᵀ = adjugate matrix := by
  obtain ⟨horthogonal, hdet⟩ := mem_specialOrthogonalGroup_iff.mp hmatrix
  calc matrixᵀ = matrixᵀ * (matrix * adjugate matrix) := by
        rw [mul_adjugate, hdet, one_smul, mul_one]
    _ = adjugate matrix := by
        rw [← mul_assoc, (mem_orthogonalGroup_iff' _ _).mp horthogonal, one_mul]

/-- A rotation that leaves the forward axis in the vertical plane is a roll and then a pitch. -/
theorem rotZYX_of_level {matrix : Matrix (Fin 3) (Fin 3) ℝ}
    (hmatrix : matrix ∈ specialOrthogonalGroup (Fin 3) ℝ) {pitch : ℝ}
    (hforward : matrix 0 0 = Real.cos pitch) (hside : matrix 1 0 = 0)
    (hdown : matrix 2 0 = -Real.sin pitch) :
    rotZYX 0 pitch (Complex.arg ⟨matrix 1 1, -matrix 1 2⟩) = matrix := by
  have hadjugate := transpose_eq_adjugate hmatrix
  rw [adjugate_fin_three] at hadjugate
  -- The entries of a rotation are its cofactors, and one entry is 0.
  have h01 : matrix 0 1 = matrix 1 2 * matrix 2 0 := by
    simpa [hside] using congrFun (congrFun hadjugate 1) 0
  have h02 : matrix 0 2 = -(matrix 1 1 * matrix 2 0) := by
    simpa [hside] using congrFun (congrFun hadjugate 2) 0
  have h21 : matrix 2 1 = -(matrix 0 0 * matrix 1 2) := by
    simpa [hside] using congrFun (congrFun hadjugate 1) 2
  have h22 : matrix 2 2 = matrix 0 0 * matrix 1 1 := by
    simpa [hside] using congrFun (congrFun hadjugate 2) 2
  have hnorm : ‖(⟨matrix 1 1, -matrix 1 2⟩ : ℂ)‖ = 1 := by
    have hrow := congrFun (congrFun ((mem_orthogonalGroup_iff _ _).mp
      (mem_specialOrthogonalGroup_iff.mp hmatrix).1) 1) 1
    simp only [mul_apply, Fin.sum_univ_three, hside, transpose_apply, one_apply_eq] at hrow
    rw [Complex.norm_eq_sqrt_sq_add_sq, Real.sqrt_eq_one]
    linear_combination hrow
  have hne : (⟨matrix 1 1, -matrix 1 2⟩ : ℂ) ≠ 0 := by
    rw [← norm_ne_zero_iff, hnorm]
    exact one_ne_zero
  rw [rotZYX_def, Complex.cos_arg hne, Complex.sin_arg, hnorm]
  ext i j
  fin_cases i <;> fin_cases j <;> simp [hforward, hside, hdown, h01, h02, h21, h22] <;> ring

theorem rotZ_mul_transpose (yaw : ℝ) : rotZ yaw * (rotZ yaw)ᵀ = 1 := by
  rw [← toRotationMatrix_aboutZ]
  exact (mem_orthogonalGroup_iff _ _).mp
    (mem_specialOrthogonalGroup_iff.mp (toRotationMatrix_mem (norm_aboutZ yaw))).1

section Euler

variable (matrix : Matrix (Fin 3) (Fin 3) ℝ)

/-- The forward axis is level by as much as the vertical axis is upright in the body. -/
def levelPart : ℝ :=
  if headingOf matrix < 0 then -‖(⟨matrix 2 2, matrix 2 1⟩ : ℂ)‖
  else ‖(⟨matrix 2 2, matrix 2 1⟩ : ℂ)‖

theorem eulerZYX_pitch : eulerZYX matrix 1 = Complex.arg ⟨levelPart matrix, -matrix 2 0⟩ := rfl

theorem eulerZYX_roll : eulerZYX matrix 2 =
    Complex.arg ⟨((rotZ (eulerZYX matrix 0))ᵀ * matrix) 1 1,
      -((rotZ (eulerZYX matrix 0))ᵀ * matrix) 1 2⟩ := by
  simp [eulerZYX, rotZ, mul_apply, Fin.sum_univ_three, sub_eq_add_neg, add_comm]

variable {matrix} (hmatrix : matrix ∈ specialOrthogonalGroup (Fin 3) ℝ)

include hmatrix

theorem down_sq : matrix 2 2 ^ 2 + matrix 2 1 ^ 2 = 1 - matrix 2 0 ^ 2 := by
  have hrow := congrFun (congrFun ((mem_orthogonalGroup_iff _ _).mp
    (mem_specialOrthogonalGroup_iff.mp hmatrix).1) 2) 2
  simp only [mul_apply, Fin.sum_univ_three, transpose_apply, one_apply_eq] at hrow
  linear_combination hrow

theorem forward_sq : matrix 0 0 ^ 2 + matrix 1 0 ^ 2 = 1 - matrix 2 0 ^ 2 := by
  have hcolumn := congrFun (congrFun ((mem_orthogonalGroup_iff' _ _).mp
    (mem_specialOrthogonalGroup_iff.mp hmatrix).1) 0) 0
  simp only [mul_apply, Fin.sum_univ_three, transpose_apply, one_apply_eq] at hcolumn
  linear_combination hcolumn

theorem levelPart_sq : levelPart matrix ^ 2 = 1 - matrix 2 0 ^ 2 := by
  have hnorm : ‖(⟨matrix 2 2, matrix 2 1⟩ : ℂ)‖ ^ 2 = 1 - matrix 2 0 ^ 2 := by
    rw [← down_sq hmatrix, Complex.sq_norm, Complex.normSq_mk]
    ring
  rw [levelPart]
  split
  · rw [neg_sq, hnorm]
  · exact hnorm

theorem forward_polar : matrix 0 0 = levelPart matrix * Real.cos (eulerZYX matrix 0) ∧
    matrix 1 0 = levelPart matrix * Real.sin (eulerZYX matrix 0) := by
  have hnorm : ‖(⟨matrix 0 0, matrix 1 0⟩ : ℂ)‖ = ‖(⟨matrix 2 2, matrix 2 1⟩ : ℂ)‖ := by
    rw [Complex.norm_eq_sqrt_sq_add_sq, Complex.norm_eq_sqrt_sq_add_sq, forward_sq hmatrix,
      down_sq hmatrix]
  have hcos := Complex.norm_mul_cos_arg ⟨matrix 0 0, matrix 1 0⟩
  have hsin := Complex.norm_mul_sin_arg ⟨matrix 0 0, matrix 1 0⟩
  rw [hnorm] at hcos hsin
  simp only [levelPart, eulerZYX, cons_val_zero]
  split
  · rw [Real.cos_add_pi, Real.sin_add_pi, neg_mul_neg, neg_mul_neg]
    exact ⟨hcos.symm, hsin.symm⟩
  · exact ⟨hcos.symm, hsin.symm⟩

theorem pitch_polar : Real.cos (eulerZYX matrix 1) = levelPart matrix ∧
    Real.sin (eulerZYX matrix 1) = -matrix 2 0 := by
  have hnorm : ‖(⟨levelPart matrix, -matrix 2 0⟩ : ℂ)‖ = 1 := by
    rw [Complex.norm_eq_sqrt_sq_add_sq, Real.sqrt_eq_one, levelPart_sq hmatrix]
    ring
  have hne : (⟨levelPart matrix, -matrix 2 0⟩ : ℂ) ≠ 0 := by
    rw [← norm_ne_zero_iff, hnorm]
    exact one_ne_zero
  rw [eulerZYX_pitch, Complex.cos_arg hne, Complex.sin_arg, hnorm, div_one, div_one]
  exact ⟨rfl, rfl⟩

/-- The angles found are those of the rotation. -/
theorem rotZYX_eulerZYX :
    rotZYX (eulerZYX matrix 0) (eulerZYX matrix 1) (eulerZYX matrix 2) = matrix := by
  obtain ⟨hforward, hside⟩ := forward_polar hmatrix
  obtain ⟨hcos, hsin⟩ := pitch_polar hmatrix
  have hunit := Real.cos_sq_add_sin_sq (eulerZYX matrix 0)
  -- Undoing the yaw brings the forward axis into the vertical plane.
  have hturned : (rotZ (eulerZYX matrix 0))ᵀ * matrix ∈ specialOrthogonalGroup (Fin 3) ℝ := by
    refine mul_mem ?_ hmatrix
    rw [← toRotationMatrix_aboutZ, ← toRotationMatrix_star (norm_aboutZ _)]
    exact toRotationMatrix_mem (by rw [norm_star, norm_aboutZ])
  have hlevel : rotZYX 0 (eulerZYX matrix 1) (eulerZYX matrix 2) =
      (rotZ (eulerZYX matrix 0))ᵀ * matrix := by
    rw [eulerZYX_roll]
    apply rotZYX_of_level hturned
    · simp [rotZ, mul_apply, Fin.sum_univ_three]
      linear_combination Real.cos (eulerZYX matrix 0) * hforward +
        Real.sin (eulerZYX matrix 0) * hside + levelPart matrix * hunit - hcos
    · simp [rotZ, mul_apply, Fin.sum_univ_three]
      linear_combination Real.cos (eulerZYX matrix 0) * hside -
        Real.sin (eulerZYX matrix 0) * hforward
    · simp [rotZ, mul_apply, Fin.sum_univ_three]
      linear_combination hsin
  calc rotZYX (eulerZYX matrix 0) (eulerZYX matrix 1) (eulerZYX matrix 2)
      = rotZ (eulerZYX matrix 0) * rotZYX 0 (eulerZYX matrix 1) (eulerZYX matrix 2) := by
        simp [rotZYX, rotZ_zero, mul_assoc]
    _ = matrix := by
        rw [hlevel, ← mul_assoc, rotZ_mul_transpose, one_mul]

end Euler

theorem eulerZYX_mem (matrix : Matrix (Fin 3) (Fin 3) ℝ) :
    eulerZYX matrix 0 ∈ Set.Icc 0 Real.pi := by
  simp only [eulerZYX, cons_val_zero]
  split
  next hback =>
    have hlow := Complex.neg_pi_lt_arg (⟨matrix 0 0, matrix 1 0⟩ : ℂ)
    constructor
    · exact (neg_lt_iff_pos_add.mp hlow).le
    · exact add_le_of_nonpos_left hback.le
  next hback => exact ⟨not_lt.mp hback, Complex.arg_le_pi _⟩

end AcflyRos.Rotation

end
