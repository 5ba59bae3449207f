import Fountainer.Python.Lemmas.Canonical

/-!
# Dictionaries and numbers

A Python dictionary has distinct keys, and the text of an integer is the text of no other number.
-/

namespace Fountainer

namespace Json

mutual
/-- The keys of every dictionary are distinct. -/
def keyed : Json → Bool
  | arr xs => keyedList xs
  | obj kvs => decide (kvs.map Prod.fst).Nodup && keyedFields kvs
  | _ => true

def keyedList : List Json → Bool
  | [] => true
  | x :: xs => x.keyed && keyedList xs

def keyedFields : List (Str × Json) → Bool
  | [] => true
  | (_, v) :: rest => v.keyed && keyedFields rest
end

theorem keyedList_iff {xs : List Json} : keyedList xs = true ↔ ∀ x ∈ xs, x.keyed = true := by
  induction xs with
  | nil => simp [keyedList]
  | cons x xs ih => simp [keyedList, ih]

theorem keyed_obj {kvs : Dict} :
    (obj kvs).keyed = true ↔ (kvs.map Prod.fst).Nodup ∧ ∀ kv ∈ kvs, kv.2.keyed = true := by
  have hfields : ∀ kvs : Dict, keyedFields kvs = true ↔ ∀ kv ∈ kvs, kv.2.keyed = true := by
    intro kvs
    induction kvs with
    | nil => simp [keyedFields]
    | cons kv kvs ih => simp [keyedFields, ih]
  simp [keyed, hfields]

theorem keyed_getOr {kvs : Dict} {v : Json} (h : (obj kvs).keyed = true) (hv : v.keyed = true) (k : Str) :
    (kvs.getOr k v).keyed = true := by
  rw [Dict.getOr]
  cases hk : kvs.lookup k with
  | none => exact hv
  | some w => exact (keyed_obj.mp h).2 _ (mem_of_lookup hk)

/-- A decoded value is one with distinct keys and without lone surrogates. -/
theorem decoded_iff (x : Json) : x.decoded = true ↔ x.keyed = true ∧ x.encodes = true := by
  induction x using byMembers with
  | hstr s => simp [decoded, keyed, encodes]
  | harr xs ih =>
      rw [decoded, keyed, encodes, decodedList_iff, keyedList_iff, encodesList_iff, ← forall₂_and]
      exact forall₂_congr ih
  | hobj kvs ih =>
      rw [decoded_obj, keyed_obj, encodes, encodesFields_iff, and_assoc, ← forall₂_and]
      refine and_congr_right' (forall₂_congr fun kv hkv => ?_)
      rw [ih kv hkv]
      exact and_left_comm
  | _ => exact iff_of_true rfl ⟨rfl, rfl⟩

end Json

/-! ## Number texts -/

theorem isDigit_of_mem_toDigits {n : Nat} {c : Char} (h : c ∈ Nat.toDigits 10 n) : c.isDigit = true :=
  Nat.isDigit_of_mem_toDigits (by decide) (by decide) h

theorem mem_decimal {i : Int} {c : Char} (h : .scalar c ∈ decimal i) : c.isDigit = true ∨ c = '-' := by
  cases i with
  | ofNat n =>
      obtain ⟨c', hc', he⟩ := List.mem_map.mp h
      cases he
      exact .inl (isDigit_of_mem_toDigits hc')
  | negSucc n =>
      rcases List.mem_cons.mp h with he | h
      · cases he
        exact .inr rfl
      · obtain ⟨c', hc', he⟩ := List.mem_map.mp h
        cases he
        exact .inl (isDigit_of_mem_toDigits hc')

theorem decimal_inj {i j : Int} (h : decimal i = decimal j) : i = j := by
  have hdigits : ∀ m n : Nat, ofChars (Nat.toDigits 10 m) = ofChars (Nat.toDigits 10 n) → m = n := by
    intro m n hmn
    have hchars : Nat.toDigits 10 m = Nat.toDigits 10 n :=
      List.map_injective_iff.mpr (fun _ _ hc => by injection hc) hmn
    rw [← Nat.ofDigitChars_toDigits (n := m) (by decide) (Nat.le_refl 10), hchars,
      Nat.ofDigitChars_toDigits (by decide) (Nat.le_refl 10)]
  have hsign : ∀ m n : Nat, decimal (.ofNat m) ≠ decimal (.negSucc n) := by
    intro m n hmn
    have hmem : .scalar '-' ∈ decimal (.ofNat m) := by
      rw [hmn]
      exact List.mem_cons_self
    obtain ⟨c, hc, he⟩ := List.mem_map.mp hmem
    cases he
    exact absurd (isDigit_of_mem_toDigits hc) (by decide)
  cases i with
  | ofNat m =>
      cases j with
      | ofNat n => rw [hdigits m n h]
      | negSucc n => exact absurd h (hsign m n)
  | negSucc m =>
      cases j with
      | ofNat n => exact absurd h.symm (hsign n m)
      | negSucc n =>
          have hsucc := hdigits _ _ (List.tail_eq_of_cons_eq h)
          rw [Nat.succ_injective hsucc]

theorem PyFloat.layout_mark (ds : List Char) (k : Int) : '.' ∈ layout ds k ∨ 'e' ∈ layout ds k := by
  unfold layout
  split
  · dsimp only
    split <;> simp
  · split
    · simp
    · simp

/-- The text of a float is no text of an integer. -/
theorem PyFloat.jsonRepr_mark (f : PyFloat) : ∃ c ∈ f.jsonRepr, c.isDigit = false ∧ c ≠ '-' := by
  unfold jsonRepr
  cases f with
  | finite neg m e =>
      have hbody : ∀ cs : List Char, '.' ∈ cs ∨ 'e' ∈ cs →
          ∃ c ∈ (if neg then '-' :: cs else cs), c.isDigit = false ∧ c ≠ '-' := by
        intro cs hcs
        have hmem : ∀ c ∈ cs, c ∈ (if neg then '-' :: cs else cs) := fun c hc => by
          split
          · exact List.mem_cons_of_mem _ hc
          · exact hc
        rcases hcs with h | h
        · exact ⟨_, hmem _ h, by decide, by decide⟩
        · exact ⟨_, hmem _ h, by decide, by decide⟩
      unfold reprWith
      refine hbody _ ?_
      split
      · simp
      · exact layout_mark _ _
  | inf neg => cases neg <;> exact ⟨'I', by decide, by decide, by decide⟩
  | nan => exact ⟨'N', by decide, by decide, by decide⟩

/-- The only number with the text of an integer is this integer. -/
theorem Json.eq_int_of_numberText {x : Json} {i : Int} (h : x.numberText = some (decimal i)) : x = .int i := by
  cases x with
  | int j => exact congrArg Json.int (decimal_inj (Option.some.inj h))
  | float f =>
      obtain ⟨c, hc, hdigit, hminus⟩ := f.jsonRepr_mark
      have hmem : .scalar c ∈ decimal i := by
        rw [← Option.some.inj h]
        exact List.mem_map_of_mem hc
      rcases mem_decimal hmem with hc' | hc'
      · rw [hdigit] at hc'
        cases hc'
      · exact absurd hc' hminus
  | _ => cases h

end Fountainer
