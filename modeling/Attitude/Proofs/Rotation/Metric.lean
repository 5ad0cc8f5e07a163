import Mathlib.Analysis.InnerProductSpace.PiL2
import Attitude.Proofs.Rotation.Distances

/-!
# The laws of both distances

The distance of two matrices and the distance of two quaternions up to sign are made of Euclidean
ones, so both are symmetric and no way by a third point is shorter. Up to sign the second law is one
about four ways, since each of the two parts may go to the point that is meant or to its negative
(`min_norm_triangle`).
-/

namespace Attitude

/-- Up to sign no way by a third point is shorter. -/
theorem min_norm_triangle {E : Type} [SeminormedAddCommGroup E] (x y z : E) :
    min ‖x - z‖ ‖x + z‖ ≤ min ‖x - y‖ ‖x + y‖ + min ‖y - z‖ ‖y + z‖ := by
  have hsame : ‖x - z‖ ≤ ‖x - y‖ + ‖y - z‖ := norm_sub_le_norm_sub_add_norm_sub x y z
  have hlast : ‖x + z‖ ≤ ‖x - y‖ + ‖y + z‖ := by
    simpa only [sub_neg_eq_add] using norm_sub_le_norm_sub_add_norm_sub x y (-z)
  have hfirst : ‖x + z‖ ≤ ‖x + y‖ + ‖y - z‖ := by
    simpa only [sub_neg_eq_add, neg_add_eq_sub, norm_sub_rev z y]
      using norm_sub_le_norm_sub_add_norm_sub x (-y) (-z)
  have hboth : ‖x - z‖ ≤ ‖x + y‖ + ‖y + z‖ := by
    simpa only [sub_neg_eq_add, ← neg_add', norm_neg]
      using norm_sub_le_norm_sub_add_norm_sub x (-y) z
  -- each pair of signs has an inequality of its own
  obtain h | h := min_choice ‖x - y‖ ‖x + y‖ <;> obtain h' | h' := min_choice ‖y - z‖ ‖y + z‖ <;>
    rw [h, h']
  · exact (min_le_left _ _).trans hsame
  · exact (min_le_right _ _).trans hlast
  · exact (min_le_right _ _).trans hfirst
  · exact (min_le_left _ _).trans hboth

/-! ## Matrices -/

namespace Mat3

/-- The entries of a matrix as a point. -/
noncomputable def entries (m : Mat3 ℝ) : EuclideanSpace ℝ (Fin 9) :=
  .toLp _ ![m.xx, m.xy, m.xz, m.yx, m.yy, m.yz, m.zx, m.zy, m.zz]

variable (l m n : Mat3 ℝ)

/-- The distance of two matrices is the Euclidean one of their nine entries. -/
theorem norm_sub_eq_dist : (m - n).norm = dist m.entries n.entries := by
  rw [EuclideanSpace.dist_eq, norm]
  congr 1
  simp only [entries, Fin.sum_univ_castSucc, Fin.reduceCastSucc, Fin.reduceLast, Matrix.cons_val,
    Real.dist_eq, sq_abs, normSq, Vec3.dot_eq, col₁, col₂, col₃, sub_eq]
  ring

/-- A matrix has no distance from itself. -/
theorem norm_sub_self : (m - m).norm = 0 := by
  rw [norm_sub_eq_dist, dist_self]

/-- The distance of matrices is symmetric. -/
theorem norm_sub_comm : (m - n).norm = (n - m).norm := by
  rw [norm_sub_eq_dist, norm_sub_eq_dist, dist_comm]

theorem norm_sub_triangle : (l - n).norm ≤ (l - m).norm + (m - n).norm := by
  simp only [norm_sub_eq_dist]
  exact dist_triangle _ _ _

end Mat3

/-! ## Quaternions -/

namespace Quaternion

/-- The entries of a quaternion as a point. -/
noncomputable def entries (q : Quaternion ℝ) : EuclideanSpace ℝ (Fin 4) :=
  .toLp _ ![q.w, q.x, q.y, q.z]

variable (p q r : Quaternion ℝ)

/-- The length of a quaternion is the Euclidean one of its four components. -/
theorem norm_entries : ‖q.entries‖ = q.norm := by
  rw [EuclideanSpace.norm_eq, norm_eq]
  congr 1
  simp only [entries, Fin.sum_univ_four, Matrix.cons_val, Real.norm_eq_abs, sq_abs, normSq]
  ring

theorem entries_add : (p + q).entries = p.entries + q.entries := by
  ext i
  fin_cases i <;> rfl

theorem entries_sub : (p - q).entries = p.entries - q.entries := by
  ext i
  fin_cases i <;> rfl

/-- The distance up to sign is the lesser of two Euclidean distances. -/
theorem distance_eq : p.distance q =
    min ‖p.entries - q.entries‖ ‖p.entries + q.entries‖ := by
  rw [distance, ← norm_entries, ← norm_entries, entries_sub, entries_add]

/-- A quaternion has no distance from itself. -/
theorem distance_self : q.distance q = 0 := by
  refine le_antisymm ?_ (distance_nonneg q q)
  rw [distance_eq, sub_self, norm_zero]
  exact min_le_left _ _

/-- The distance up to sign is symmetric. Of the difference only the sign changes, of the sum
nothing. -/
theorem distance_comm : p.distance q = q.distance p := by
  rw [distance_eq, distance_eq, norm_sub_rev, add_comm]

/-- The triangle law of the distance up to sign. -/
theorem distance_triangle : p.distance r ≤ p.distance q + q.distance r := by
  simp only [distance_eq]
  exact min_norm_triangle _ _ _

/-- A quaternion and its negative are as far from any other one. -/
theorem distance_neg : p.distance (-q) = p.distance q := by
  have hsub : p - -q = p + q := by ext <;> exact sub_neg_eq_add _ _
  have hadd : p + -q = p - q := by ext <;> exact (sub_eq_add_neg _ _).symm
  rw [distance, distance, hsub, hadd, min_comm]

/-- A quaternion and its negative have the same length. -/
theorem norm_neg : (-q).norm = q.norm := by
  rw [norm_eq, norm_eq, normSq_neg]

end Quaternion

end Attitude
