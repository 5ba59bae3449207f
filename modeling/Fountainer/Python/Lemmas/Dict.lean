import Fountainer.Python.Json

/-!
# Dictionary operations
-/

namespace Fountainer

variable {α : Type}

theorem lookup_setKey (d : List (Str × α)) (k l : Str) (v : α) :
    (setKey d k v).lookup l = if l = k then some v else d.lookup l := by
  induction d with
  | nil => by_cases h : l = k <;> simp [setKey, h]
  | cons e d ih =>
      obtain ⟨m, w⟩ := e
      by_cases hm : m = k
      · subst hm
        by_cases hl : l = m
        · simp [setKey, hl]
        · simp [setKey, List.lookup_cons, hl, beq_eq_false_iff_ne.mpr hl]
      · by_cases hl : l = m
        · subst hl
          simp [setKey, hm]
        · simp [setKey, List.lookup_cons, hm, ih, beq_eq_false_iff_ne.mpr hl]

theorem mem_setKey {d : List (Str × α)} {k : Str} {v : α} {e : Str × α}
    (h : e ∈ setKey d k v) : e ∈ d ∨ e = (k, v) := by
  induction d with
  | nil => simpa [setKey] using h
  | cons f d ih =>
      obtain ⟨m, w⟩ := f
      by_cases hm : m = k
      · simp only [setKey, if_pos hm, List.mem_cons] at h
        rcases h with rfl | h
        · exact .inr rfl
        · exact .inl (List.mem_cons_of_mem _ h)
      · simp only [setKey, if_neg hm, List.mem_cons] at h
        rcases h with rfl | h
        · exact .inl List.mem_cons_self
        · rcases ih h with h | h
          · exact .inl (List.mem_cons_of_mem _ h)
          · exact .inr h

theorem mem_of_lookup {d : List (Str × α)} {k : Str} {v : α}
    (h : d.lookup k = some v) : (k, v) ∈ d := by
  obtain ⟨l₁, l₂, rfl, -⟩ := List.lookup_eq_some_iff.mp h
  simp

theorem lookup_of_mem {d : List (Str × α)} (hd : (d.map Prod.fst).Nodup) {k : Str} {v : α}
    (h : (k, v) ∈ d) : d.lookup k = some v := by
  induction d with
  | nil => cases h
  | cons e d ih =>
      obtain ⟨l, w⟩ := e
      simp only [List.map_cons, List.nodup_cons] at hd
      rcases List.mem_cons.mp h with he | hmem
      · cases he; simp
      · have hne : k ≠ l := fun hkl => hd.1 (hkl ▸ List.mem_map_of_mem (f := Prod.fst) hmem)
        simp only [List.lookup_cons, beq_eq_false_iff_ne.mpr hne]
        exact ih hd.2 hmem

/-- Assignment to a key that a filter drops does not change what the filter keeps. -/
theorem filter_setKey {d : List (Str × α)} {k : Str} {v : α} {p : Str → Bool} (hk : p k = false) :
    (setKey d k v).filter (fun e => p e.1) = d.filter (fun e => p e.1) := by
  induction d with
  | nil => simp [setKey, hk]
  | cons e d ih =>
      obtain ⟨m, w⟩ := e
      by_cases hm : m = k
      · simp [setKey, hm, hk]
      · simp only [setKey, if_neg hm, List.filter_cons, ih]

theorem setKey_fresh {d : List (Str × α)} {k : Str} (h : k ∉ d.map Prod.fst) (v : α) :
    setKey d k v = d ++ [(k, v)] := by
  induction d with
  | nil => rfl
  | cons e d ih =>
      obtain ⟨l, w⟩ := e
      rw [List.map_cons, List.mem_cons, not_or] at h
      rw [setKey, if_neg (Ne.symm h.1), ih h.2, List.cons_append]

theorem keys_setKey {d : List (Str × α)} {k : Str} (h : k ∈ d.map Prod.fst) (v : α) :
    (setKey d k v).map Prod.fst = d.map Prod.fst := by
  induction d with
  | nil => cases h
  | cons e d ih =>
      obtain ⟨l, w⟩ := e
      by_cases hl : l = k
      · simp [setKey, hl]
      · have hmem : k ∈ d.map Prod.fst := (List.mem_cons.mp h).resolve_left (Ne.symm hl)
        simp only [setKey, if_neg hl, List.map_cons, ih hmem]

theorem nodup_setKey {d : List (Str × α)} (h : (d.map Prod.fst).Nodup) (k : Str) (v : α) :
    ((setKey d k v).map Prod.fst).Nodup := by
  by_cases hk : k ∈ d.map Prod.fst
  · rw [keys_setKey hk]
    exact h
  · rw [setKey_fresh hk, List.map_append, List.map_singleton, List.nodup_append]
    refine ⟨h, by simp, ?_⟩
    rintro l hl m hm rfl
    have hlk : l = k := List.mem_singleton.mp hm
    exact hk (hlk ▸ hl)

theorem lookup_filter {d : List (Str × α)} (hd : (d.map Prod.fst).Nodup) (p : Str × α → Bool) (k : Str) :
    (d.filter p).lookup k = (d.lookup k).filter fun v => p (k, v) := by
  induction d with
  | nil => rfl
  | cons e d ih =>
      obtain ⟨l, w⟩ := e
      rw [List.map_cons, List.nodup_cons] at hd
      have ih := ih hd.2
      by_cases hl : k = l
      · subst hl
        have hnone : d.lookup k = none := by
          rw [List.lookup_eq_none_iff]
          intro e he
          have hne : k ≠ e.1 := by
            rintro rfl
            exact hd.1 (List.mem_map.mpr ⟨e, he, rfl⟩)
          simpa using hne
        rw [hnone] at ih
        cases hp : p (k, w) with
        | true => simp [hp, Option.filter]
        | false => simp [hp, ih, Option.filter]
      · have hne : (k == l) = false := beq_eq_false_iff_ne.mpr hl
        cases hp : p (l, w) with
        | true => simp only [List.filter_cons_of_pos hp, List.lookup_cons, hne, ih]
        | false => simp only [List.filter_cons_of_neg (by simp [hp] : ¬p (l, w) = true), List.lookup_cons, hne, ih]

namespace Dict

theorem update_eq_append {d e : Dict} (h : ((d ++ e).map Prod.fst).Nodup) : d.update e = d ++ e := by
  induction e generalizing d with
  | nil => exact (List.append_nil d).symm
  | cons kv e ih =>
      have hfresh : kv.1 ∉ d.map Prod.fst := by
        rw [List.map_append, List.map_cons, List.nodup_append] at h
        exact fun hmem => h.2.2 _ hmem _ List.mem_cons_self rfl
      have happend : d ++ kv :: e = d ++ [kv] ++ e := by simp
      rw [happend] at h ⊢
      rw [← ih h, update, List.foldl_cons, set, setKey_fresh hfresh]
      rfl

@[simp] theorem get_set_self (d : Dict) (k : Str) (v : Json) : (d.set k v).get k = v := by
  simp [get, set, lookup_setKey]

theorem get_set_of_ne {d : Dict} {k l : Str} {v : Json} (h : l ≠ k) :
    (d.set k v).get l = d.get l := by
  simp [get, set, lookup_setKey, h]

theorem item_set_of_ne {d : Dict} {k l : Str} {v : Json} (h : l ≠ k) :
    (d.set k v).item l = d.item l := by
  simp [item, set, lookup_setKey, h]

theorem lookup_update {d e : Dict} {k : Str} (h : k ∉ e.map Prod.fst) :
    (d.update e).lookup k = d.lookup k := by
  induction e generalizing d with
  | nil => rfl
  | cons x e ih =>
      obtain ⟨l, v⟩ := x
      simp only [List.map_cons, List.mem_cons, not_or] at h
      have hstep : update d ((l, v) :: e) = update (d.set l v) e := rfl
      rw [hstep, ih h.2, lookup_setKey, if_neg h.1]

theorem get_update {d e : Dict} {k : Str} (h : k ∉ e.map Prod.fst) :
    (d.update e).get k = d.get k := by
  simp only [get, lookup_update h]

theorem get_update_of_mem {d e : Dict} {k : Str} {v : Json} (hd : (e.map Prod.fst).Nodup)
    (h : (k, v) ∈ e) : (d.update e).get k = v := by
  induction e generalizing d with
  | nil => cases h
  | cons x e ih =>
      obtain ⟨hx, hd⟩ := List.nodup_cons.mp hd
      have hstep : update d (x :: e) = update (d.set x.1 x.2) e := rfl
      rw [hstep]
      rcases List.mem_cons.mp h with rfl | h
      · rw [get_update hx, get_set_self]
      · exact ih hd h

theorem get_of_lookup {d : Dict} {k : Str} {v : Json} (h : d.lookup k = some v) :
    d.get k = v := by
  simp only [get, h, Option.getD_some]

end Dict

end Fountainer
