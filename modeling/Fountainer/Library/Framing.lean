import Mathlib.Algebra.Ring.Nat
import Mathlib.Data.List.Basic

/-!
# Fields joined by a separator

Joining is injective on lists of one length as soon as one of the two lists has no separator inside
its fields: the other one then has none either.
-/

namespace Framing

variable {α : Type} [DecidableEq α]

/-- A field in which the separator does not occur. -/
def Clean (sep : α) (field : List α) : Prop := sep ∉ field

def join (sep : α) (fields : List (List α)) : List α := [sep].intercalate fields

/-- The separators of a joined list: those inside the fields and those between them. -/
theorem count_join (sep : α) (fields : List (List α)) :
    (join sep fields).count sep = (fields.map (·.count sep)).sum + (fields.length - 1) := by
  induction fields with
  | nil => simp [join]
  | cons f fs ih =>
      cases fs with
      | nil => simp [join]
      | cons g gs =>
          have hjoin : join sep (f :: g :: gs) = f ++ sep :: join sep (g :: gs) := by
            simp [join, List.intercalate_cons_cons]
          rw [hjoin, List.count_append, List.count_cons_self, ih]
          simp only [List.map_cons, List.sum_cons, List.length_cons]
          omega

theorem sum_count_eq_zero {sep : α} {fields : List (List α)} :
    (fields.map (·.count sep)).sum = 0 ↔ ∀ f ∈ fields, Clean sep f := by
  induction fields with
  | nil => simp
  | cons f fs ih => simp [Clean, ih, List.count_eq_zero]

theorem clean_of_join_eq {sep : α} {xs ys : List (List α)} (hx : ∀ f ∈ xs, Clean sep f)
    (hlen : xs.length = ys.length) (h : join sep xs = join sep ys) : ∀ f ∈ ys, Clean sep f := by
  have hcount := congrArg (List.count sep) h
  rw [count_join, count_join, sum_count_eq_zero.mpr hx, hlen] at hcount
  exact sum_count_eq_zero.mp (by omega)

/-- Joins of equally many fields agree only when the fields do, if one side is clean. -/
theorem join_inj {sep : α} {xs ys : List (List α)} (hx : ∀ f ∈ xs, Clean sep f)
    (hlen : xs.length = ys.length) (h : join sep xs = join sep ys) : xs = ys := by
  have hy := clean_of_join_eq hx hlen h
  cases xs with
  | nil => exact (List.length_eq_zero_iff.mp hlen.symm).symm
  | cons x xs =>
      have hys : ys ≠ [] := by rintro rfl; simp at hlen
      rw [← List.splitOn_intercalate sep hx (by simp), ← List.splitOn_intercalate sep hy hys]
      exact congrArg (List.splitOn sep) h

end Framing
