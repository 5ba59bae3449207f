import Fountainer.Python.Lemmas.Text
import Fountainer.Python.Url
import Mathlib.Data.List.ReduceOption
import Mathlib.Data.List.TakeWhile

/-!
# When percent-decoding changes a text

Decoding never makes a text longer, and it makes a text shorter as soon as there is an escape.
-/

namespace Fountainer

/-- Some `%` stands before two hexadecimal digits. -/
def Escaped (s : Str) : Prop :=
  ∃ a b, (hexValue a).isSome = true ∧ (hexValue b).isSome = true ∧ [percent, a, b] <:+: s

theorem Escaped.cons {s : Str} (c : PyChar) (h : Escaped s) : Escaped (c :: s) := by
  obtain ⟨a, b, ha, hb, hs⟩ := h
  exact ⟨a, b, ha, hb, hs.trans (List.suffix_cons c s).isInfix⟩

theorem escapeByte_eq_some {c a b : PyChar} {v : UInt8} (h : escapeByte c a b = some v) :
    c = percent ∧ (hexValue a).isSome = true ∧ (hexValue b).isSome = true := by
  unfold escapeByte at h
  split at h
  · rename_i hc
    cases ha : hexValue a <;> cases hb : hexValue b <;> simp_all
  · cases h

theorem escapeByte_eq_none {a b : PyChar} (h : escapeByte percent a b = none) :
    ¬((hexValue a).isSome = true ∧ (hexValue b).isSome = true) := by
  rintro ⟨ha, hb⟩
  obtain ⟨x, hx⟩ := Option.isSome_iff_exists.mp ha
  obtain ⟨y, hy⟩ := Option.isSome_iff_exists.mp hb
  simp [escapeByte, hx, hy] at h

theorem Escaped.of_byte {c a b : PyChar} {v : UInt8} (h : escapeByte c a b = some v) (s : Str) :
    Escaped (c :: a :: b :: s) := by
  obtain ⟨rfl, ha, hb⟩ := escapeByte_eq_some h
  exact ⟨a, b, ha, hb, ⟨[], s, rfl⟩⟩

theorem Escaped.tail {c a b : PyChar} {s : Str} (hno : escapeByte c a b = none)
    (h : Escaped (c :: a :: b :: s)) : Escaped (a :: b :: s) := by
  obtain ⟨x, y, hx, hy, hs⟩ := h
  rcases List.infix_cons_iff.mp hs with hs | hs
  · obtain ⟨t, ht⟩ := hs
    cases ht
    exact absurd ⟨hx, hy⟩ (escapeByte_eq_none hno)
  · exact ⟨x, y, hx, hy, hs⟩

theorem not_escaped_short {s : Str} (h : s.length < 3) : ¬Escaped s := by
  rintro ⟨a, b, -, -, hs⟩
  exact absurd hs.length_le (Nat.not_le.mpr h)

theorem unquoteToBytes_length_le (s : Str) : (unquoteToBytes s).length ≤ s.length := by
  fun_induction unquoteToBytes s with
  | case1 c a b s v hv ih => simp only [List.length_cons]; omega
  | case2 c a b s hv ih => simpa only [List.length_cons, Nat.add_le_add_iff_right] using ih
  | case3 | case4 | case5 => exact Nat.le_refl _

theorem unquoteToBytes_length_lt {s : Str} (h : Escaped s) : (unquoteToBytes s).length < s.length := by
  fun_induction unquoteToBytes s with
  | case1 c a b s v hv ih =>
      have hle := unquoteToBytes_length_le s
      simp only [List.length_cons]
      omega
  | case2 c a b s hv ih =>
      simpa only [List.length_cons, Nat.add_lt_add_iff_right] using ih (h.tail hv)
  | case3 | case4 | case5 => exact absurd h (not_escaped_short (by simp))

theorem unquoteToBytes_plain {s : Str} (h : ¬Escaped s) : unquoteToBytes s = s.map piece := by
  fun_induction unquoteToBytes s with
  | case1 c a b s v hv ih => exact absurd (Escaped.of_byte hv s) h
  | case2 c a b s hv ih => rw [ih fun hs => h (hs.cons c)]; rfl
  | case3 | case4 | case5 => rfl

theorem escaped_iff {s : Str} : Escaped s ↔ (unquoteToBytes s).length < s.length := by
  refine ⟨unquoteToBytes_length_lt, fun h => ?_⟩
  by_contra hno
  rw [unquoteToBytes_plain hno, List.length_map] at h
  exact Nat.lt_irrefl _ h

instance (s : Str) : Decidable (Escaped s) := decidable_of_iff _ escaped_iff.symm

theorem unquoteToBytes_cons {c : PyChar} (h : c ≠ percent) (s : Str) :
    unquoteToBytes (c :: s) = piece c :: unquoteToBytes s := by
  rcases s with _ | ⟨a, _ | ⟨b, s⟩⟩
  · rfl
  · rfl
  · have hno : escapeByte c a b = none := if_neg h
    simp only [unquoteToBytes, hno]

/-! ## Decoding -/

/-- One for a sequence that has begun. -/
def started (q : Option Sequence) : Nat := if q.isSome then 1 else 0

theorem firstByte_length (pass : Bool) (b : UInt8) :
    (firstByte pass b).1.length + started (firstByte pass b).2 = 1 := by
  unfold firstByte
  split
  · rfl
  · split <;> rfl

theorem nextByte_length (pass : Bool) (q : Sequence) (b : UInt8) :
    (nextByte pass q b).1.length + started (nextByte pass q b).2 ≤ 2 := by
  have hfirst := firstByte_length pass b
  unfold nextByte
  split
  · dsimp only
    split <;> simp [started]
  · simp only [List.length_cons]
    omega

theorem decodePieces_length (pass : Bool) (q : Option Sequence) (ps : List Piece) :
    (decodePieces pass q ps).length ≤ ps.length + started q := by
  fun_induction decodePieces pass q ps with
  | case1 => exact Nat.le_refl _
  | case2 => exact Nat.le_refl _
  | case3 b ps ih =>
      have hfirst := firstByte_length pass b
      rw [List.length_append, List.length_cons]
      omega
  | case4 q b ps ih =>
      have hnext := nextByte_length pass q b
      have hq : started (some q) = 1 := rfl
      rw [List.length_append, List.length_cons]
      omega
  | case5 c ps ih => simpa only [List.length_cons, Nat.add_right_comm] using Nat.add_le_add_right ih 1
  | case6 q c ps ih =>
      have hq : started (some q) = 1 := rfl
      have hnone : started none = 0 := rfl
      simp only [List.length_cons]
      omega

theorem ofCode_ord {c : PyChar} (h : c.ord < 0x80) : ofCode (UInt8.ofNat c.ord).toNat = c := by
  have hbyte : (UInt8.ofNat c.ord).toNat = c.ord := by
    rw [UInt8.toNat_ofNat', Nat.mod_eq_of_lt (by omega)]
  rw [hbyte]
  cases c with
  | scalar c =>
      have hlow : ¬(0xD800 ≤ (PyChar.scalar c).ord ∧ (PyChar.scalar c).ord < 0xE000) := by omega
      rw [ofCode, dif_neg hlow, PyChar.ord, Char.ofNat_toNat]
  | surrogate n =>
      simp only [PyChar.ord] at h
      omega

theorem decodePieces_piece (pass : Bool) (c : PyChar) (ps : List Piece) :
    decodePieces pass none (piece c :: ps) = some c :: decodePieces pass none ps := by
  unfold piece
  split
  · rename_i hc
    have hbyte : (UInt8.ofNat c.ord).toNat < 0x80 := by
      rw [UInt8.toNat_ofNat', Nat.mod_eq_of_lt (by omega)]
      exact hc
    simp only [decodePieces, firstByte, if_pos hbyte, ofCode_ord hc, List.cons_append,
      List.nil_append]
  · rfl

theorem decodePieces_plain (pass : Bool) (s : Str) :
    decodePieces pass none (s.map piece) = s.map some := by
  induction s with
  | nil => rfl
  | cons c s ih => rw [List.map_cons, decodePieces_piece, ih, List.map_cons]

theorem unquote_length_le (s : Str) : (unquote s).length ≤ (unquoteToBytes s).length := by
  have hlength : ∀ pass, (decodePieces pass none (unquoteToBytes s)).length ≤ (unquoteToBytes s).length :=
    fun pass => decodePieces_length pass none (unquoteToBytes s)
  unfold unquote
  dsimp only
  split
  · exact (List.reduceOption_length_le _).trans (hlength true)
  · exact (List.length_map _).le.trans (hlength false)

theorem unquote_plain {s : Str} (h : ¬Escaped s) : unquote s = s := by
  have hall : (s.map some).all Option.isSome = true := by simp
  rw [unquote, unquoteToBytes_plain h, decodePieces_plain, if_pos hall, List.reduceOption,
    List.filterMap_map]
  exact List.filterMap_some

theorem unquote_cons {c : PyChar} (h : c ≠ percent) (s : Str) : unquote (c :: s) = c :: unquote s := by
  simp only [unquote, unquoteToBytes_cons h, decodePieces_piece, List.all_cons, Option.isSome_some,
    Bool.true_and, List.reduceOption_cons_of_some, List.map_cons, Option.getD_some]
  split <;> rfl

/-- Decoding keeps the length of a text without escapes only. -/
theorem unquote_eq_iff {s : Str} : s.length ≤ (unquote s).length ↔ ¬Escaped s := by
  constructor
  · intro hlen h
    exact absurd (hlen.trans (unquote_length_le s)) (Nat.not_le.mpr (unquoteToBytes_length_lt h))
  · intro h
    rw [unquote_plain h]

/-! ## Components -/

/-- A component of a split text is not longer than the text and does not contain the separator. -/
theorem mem_splitOn {s w : Str} {x : PyChar} (h : w ∈ s.splitOn x) : w.length ≤ s.length ∧ x ∉ w := by
  induction s generalizing w with
  | nil =>
      rw [List.splitOn_nil, List.mem_singleton] at h
      simp [h]
  | cons c s ih =>
      rw [List.splitOn_cons_eq_if_modifyHead] at h
      split at h
      · rcases List.mem_cons.mp h with rfl | h
        · simp
        · exact ⟨(ih h).1.trans (Nat.le_succ _), (ih h).2⟩
      · rename_i hc
        cases hparts : s.splitOn x with
        | nil => exact absurd hparts (List.splitOn_ne_nil x s)
        | cons u us =>
            rw [hparts] at h ih
            rcases List.mem_cons.mp h with rfl | h
            · obtain ⟨hlen, hx⟩ := ih List.mem_cons_self
              refine ⟨Nat.succ_le_succ hlen, ?_⟩
              rw [List.mem_cons, not_or]
              exact ⟨fun heq => hc (beq_iff_eq.mpr heq.symm), hx⟩
            · obtain ⟨hlen, hx⟩ := ih (List.mem_cons_of_mem u h)
              exact ⟨hlen.trans (Nat.le_succ _), hx⟩

theorem mem_component {acc : List Str} {u w : Str} (h : w ∈ component acc u) : w ∈ acc ∨ w = u := by
  unfold component at h
  split at h
  · exact .inl h
  · split at h
    · exact .inl (List.mem_of_mem_dropLast h)
    · simpa using h

theorem mem_normalize {ws : List Str} {w : Str} (h : w ∈ normalize ws) : w ∈ ws := by
  have hfold : ∀ (vs acc : List Str), w ∈ vs.foldl component acc → w ∈ acc ∨ w ∈ vs := by
    intro vs
    induction vs with
    | nil => exact fun acc h => .inl h
    | cons v vs ih =>
        intro acc h
        rcases ih _ h with h | h
        · exact (mem_component h).imp_right fun h => by simp [h]
        · exact .inr (.tail _ h)
  simpa using hfold ws [] h

theorem normalize_nil_cons (ws : List Str) : normalize ([] :: ws) = normalize ws := rfl

theorem normalize_single {w : Str} (h : w ≠ [] ∧ w ≠ py "." ∧ w ≠ py "..") : normalize [w] = [w] := by
  simp [normalize, component, h]

/-! ## The target below the root -/

theorem translatePath_slash (s : Str) :
    translatePath (slash :: s) =
      normalize ((unquote (targetPath (requestTarget s))).splitOn slash) := by
  have hspace : isSpace slash = false := by decide
  have hquery : slash ≠ .scalar '?' := by decide
  have hfragment : slash ≠ .scalar '#' := by decide
  have hpath : targetPath (requestTarget (slash :: s)) = slash :: targetPath (requestTarget s) := by
    simp [targetPath, requestTarget, hspace, hquery, hfragment]
  rw [translatePath, hpath, unquote_cons (by decide), List.splitOn_cons_eq_if_modifyHead,
    if_pos (beq_self_eq_true _), normalize_nil_cons]

/-- A name that a URL path can carry as it stands. -/
def Str.Plain (s : Str) : Prop :=
  (∀ c ∈ s, isSpace c = false ∧ c ≠ .scalar '?' ∧ c ≠ .scalar '#' ∧ c ≠ slash) ∧ ¬Escaped s

instance (s : Str) : Decidable s.Plain := inferInstanceAs (Decidable (_ ∧ _))

example : Str.Plain (py "fountain-2.1.0_100%.bin") ∧ ¬Str.Plain (py "fountain%202.1.0.bin") := by
  decide +kernel

theorem targetPath_begins (s : Str) : targetPath (requestTarget s) <+: s :=
  (List.takeWhile_prefix _).trans ((List.takeWhile_prefix _).trans (List.takeWhile_prefix _))

theorem targetPath_eq_iff {s : Str} :
    targetPath (requestTarget s) = s ↔
      ∀ c ∈ s, isSpace c = false ∧ c ≠ .scalar '?' ∧ c ≠ .scalar '#' := by
  constructor
  · intro h c hc
    rw [← h, targetPath] at hc
    have hfragment := List.mem_takeWhile_imp hc
    have hc := (List.takeWhile_prefix _).mem hc
    have hquery := List.mem_takeWhile_imp hc
    have hspace := List.mem_takeWhile_imp ((List.takeWhile_prefix _).mem hc)
    simp_all
  · intro h
    have hspace : requestTarget s = s := List.takeWhile_eq_self_iff.mpr fun c hc => by simp [h c hc]
    have hquery : s.takeWhile (fun c => c ≠ .scalar '?') = s :=
      List.takeWhile_eq_self_iff.mpr fun c hc => by simp [h c hc]
    have hfragment : s.takeWhile (fun c => c ≠ .scalar '#') = s :=
      List.takeWhile_eq_self_iff.mpr fun c hc => by simp [h c hc]
    rw [hspace, targetPath, hquery, hfragment]

/-- The path of a name resolves to the name exactly when the name is plain. -/
theorem translatePath_name_iff {name : Str}
    (h : name ≠ [] ∧ name ≠ py "." ∧ name ≠ py "..") :
    translatePath (slash :: name) = [name] ↔ name.Plain := by
  rw [translatePath_slash]
  constructor
  · intro heq
    have hmem : name ∈ normalize ((unquote (targetPath (requestTarget name))).splitOn slash) := by
      rw [heq]
      exact List.mem_cons_self
    obtain ⟨hlen, hslash⟩ := mem_splitOn (mem_normalize hmem)
    -- neither the cut nor the decoding has shortened the name
    have hcut : targetPath (requestTarget name) = name :=
      (targetPath_begins name).eq_of_length_le
        (hlen.trans ((unquote_length_le _).trans (unquoteToBytes_length_le _)))
    rw [hcut] at hlen
    have hchars := targetPath_eq_iff.mp hcut
    refine ⟨fun c hc => ?_, unquote_eq_iff.mp hlen⟩
    obtain ⟨hspace, hquery, hfragment⟩ := hchars c hc
    exact ⟨hspace, hquery, hfragment, by rintro rfl; exact hslash hc⟩
  · rintro ⟨hchars, hesc⟩
    have hcut := targetPath_eq_iff.mpr fun c hc =>
      ⟨(hchars c hc).1, (hchars c hc).2.1, (hchars c hc).2.2.1⟩
    have hslash : slash ∉ name := fun hc => (hchars slash hc).2.2.2 rfl
    rw [hcut, unquote_plain hesc, List.splitOn_eq_singleton hslash, normalize_single h]

end Fountainer
