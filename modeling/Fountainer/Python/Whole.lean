import Fountainer.Python.Lemmas.Canonical

/-!
# Integral floats inside JSON values

`json.dumps` prints an integral float with a fraction, and a printer that knows doubles only prints it
without.
-/

namespace Fountainer

/-- `int(v)` of a float with `v.is_integer()`. -/
def wholeFloat (f : PyFloat) : Json :=
  if f.isInteger then (match f.toInt with
    | .ok i => .int i
    | .error _ => .float f) else .float f

namespace Json

mutual
/-- Every integral float at any depth is replaced by the equal integer. -/
def whole : Json → Json
  | float f => wholeFloat f
  | arr xs => arr (wholeList xs)
  | obj kvs => obj (wholeFields kvs)
  | x => x

def wholeList : List Json → List Json
  | [] => []
  | x :: xs => x.whole :: wholeList xs

def wholeFields : List (Str × Json) → Dict
  | [] => []
  | (k, v) :: rest => (k, v.whole) :: wholeFields rest
end

mutual
/-- There is no integral float at any depth. -/
def noIntegral : Json → Bool
  | float f => !f.isInteger
  | arr xs => noIntegralList xs
  | obj kvs => noIntegralFields kvs
  | _ => true

def noIntegralList : List Json → Bool
  | [] => true
  | x :: xs => x.noIntegral && noIntegralList xs

def noIntegralFields : List (Str × Json) → Bool
  | [] => true
  | (_, v) :: rest => v.noIntegral && noIntegralFields rest
end

end Json

/-- The integer that replaces an integral float has its value. -/
theorem wholeFloat_value {f : PyFloat} (h : f.isInteger = true) :
    ∃ i : Int, wholeFloat f = .int i ∧ f.toInt = .ok i ∧ f.toRat = some (i : ℚ) := by
  cases f with
  | finite neg m e =>
      have hden : ((m : ℚ) * (2 : ℚ) ^ e).den = 1 := by simpa [PyFloat.isInteger] using h
      have hfloor : ((⌊(m : ℚ) * (2 : ℚ) ^ e⌋ : Int) : ℚ) = (m : ℚ) * (2 : ℚ) ^ e := by
        rw [Rat.floor_def', hden]
        simpa using Rat.coe_int_num_of_den_eq_one hden
      refine ⟨if neg then -⌊(m : ℚ) * (2 : ℚ) ^ e⌋ else ⌊(m : ℚ) * (2 : ℚ) ^ e⌋, ?_, rfl, ?_⟩
      · rw [wholeFloat, if_pos h]
        rfl
      · cases neg
        · simp [PyFloat.toRat, hfloor]
        · simp [PyFloat.toRat, hfloor]
  | inf neg => cases h
  | nan => cases h

theorem wholeFloat_of_fractional {f : PyFloat} (h : f.isInteger = false) : wholeFloat f = .float f := by
  rw [wholeFloat, if_neg (by simp [h])]

namespace Json

theorem wholeList_eq (xs : List Json) : wholeList xs = xs.map whole := by
  induction xs with
  | nil => rfl
  | cons x xs ih => rw [wholeList, ih, List.map_cons]

theorem wholeFields_eq (kvs : Dict) : wholeFields kvs = kvs.map fun kv => (kv.1, kv.2.whole) := by
  induction kvs with
  | nil => rfl
  | cons kv kvs ih => rw [wholeFields, ih, List.map_cons]

theorem noIntegralList_iff {xs : List Json} :
    noIntegralList xs = true ↔ ∀ x ∈ xs, x.noIntegral = true := by
  induction xs with
  | nil => simp [noIntegralList]
  | cons x xs ih => simp [noIntegralList, ih]

theorem noIntegralFields_iff {kvs : Dict} :
    noIntegralFields kvs = true ↔ ∀ kv ∈ kvs, kv.2.noIntegral = true := by
  induction kvs with
  | nil => simp [noIntegralFields]
  | cons kv kvs ih => simp [noIntegralFields, ih]

theorem noIntegral_whole (x : Json) : x.whole.noIntegral = true := by
  induction x using byMembers with
  | hnull | hbool | hint | hstr => rfl
  | hfloat f =>
      rw [whole]
      cases hf : f.isInteger with
      | true =>
          obtain ⟨i, hi, -⟩ := wholeFloat_value hf
          rw [hi]
          rfl
      | false =>
          rw [wholeFloat_of_fractional hf, noIntegral, hf]
          rfl
  | harr xs ih =>
      rw [whole, noIntegral, noIntegralList_iff, wholeList_eq, List.forall_mem_map]
      exact ih
  | hobj kvs ih =>
      rw [whole, noIntegral, noIntegralFields_iff, wholeFields_eq, List.forall_mem_map]
      exact ih

theorem whole_of_noIntegral {x : Json} (h : x.noIntegral = true) : x.whole = x := by
  induction x using byMembers with
  | hnull | hbool | hint | hstr => rfl
  | hfloat f => exact wholeFloat_of_fractional (by simpa [noIntegral] using h)
  | harr xs ih =>
      rw [noIntegral, noIntegralList_iff] at h
      rw [whole, wholeList_eq, List.map_congr_left fun x hx => ih x hx (h x hx), List.map_id']
  | hobj kvs ih =>
      rw [noIntegral, noIntegralFields_iff] at h
      have hfields : ∀ kv ∈ kvs, (kv.1, kv.2.whole) = kv := fun kv hkv => by rw [ih kv hkv (h kv hkv)]
      rw [whole, wholeFields_eq, List.map_congr_left hfields, List.map_id']

theorem whole_eq_self_iff {x : Json} : x.whole = x ↔ x.noIntegral = true :=
  ⟨fun h => h ▸ noIntegral_whole x, whole_of_noIntegral⟩

end Json

end Fountainer
