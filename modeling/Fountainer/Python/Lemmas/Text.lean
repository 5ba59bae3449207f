import Fountainer.Python.Digest
import Fountainer.Python.Json

/-!
# Texts and their encoding

Encoding is injective, and the byte `0x1f` comes from the character `U+001F` only. The texts that the
server makes itself (decimal numbers, hex digits, base64) do not contain it.
-/

namespace Fountainer

/-- A text without the unit separator character. -/
def Str.Clean (s : Str) : Prop := PyChar.scalar '\x1f' ∉ s

instance (s : Str) : Decidable s.Clean := inferInstanceAs (Decidable (_ ∉ s))

@[simp] theorem Str.clean_nil : Str.Clean [] := List.not_mem_nil

theorem Str.Clean.append {s t : Str} (hs : s.Clean) (ht : t.Clean) : Str.Clean (s ++ t) := by
  simp only [Str.Clean, List.mem_append, not_or]
  exact ⟨hs, ht⟩

/-! ## Encoding -/

theorem Str.encode_eq_ok {s : Str} {b : Bytes} (h : s.encode = .ok b) :
    ∃ cs : List Char, s = ofChars cs ∧ b = cs.flatMap String.utf8EncodeChar := by
  induction s generalizing b with
  | nil => cases h; exact ⟨[], rfl, rfl⟩
  | cons c s ih =>
      cases c with
      | surrogate n => cases h
      | scalar c =>
          simp only [Str.encode, PyChar.encode] at h
          cases hs : Str.encode s with
          | error e => rw [hs] at h; cases h
          | ok b' =>
              rw [hs] at h
              cases h
              obtain ⟨cs, rfl, rfl⟩ := ih hs
              exact ⟨c :: cs, rfl, rfl⟩

theorem Str.encode_ofChars (cs : List Char) :
    Str.encode (ofChars cs) = .ok (cs.flatMap String.utf8EncodeChar) := by
  induction cs with
  | nil => rfl
  | cons c cs ih =>
      have : Str.encode (ofChars (c :: cs)) = (do
          let bs ← Str.encode (ofChars cs)
          return String.utf8EncodeChar c ++ bs) := rfl
      rw [this, ih]
      rfl

theorem Str.encode_inj {s t : Str} {b : Bytes} (hs : s.encode = .ok b) (ht : t.encode = .ok b) :
    s = t := by
  obtain ⟨cs, rfl, hcs⟩ := encode_eq_ok hs
  obtain ⟨ds, rfl, hds⟩ := encode_eq_ok ht
  have hutf : cs.utf8Encode = ds.utf8Encode := by
    simp only [List.utf8Encode, ← hcs, ← hds]
  have hstr : String.ofList cs = String.ofList ds := by
    simpa [String.ofList] using hutf
  rw [String.ofList_injective hstr]

theorem PyChar.encode_ascii {c : PyChar} (h : c.ord < 0x80) : c.encode = .ok [UInt8.ofNat c.ord] := by
  cases c with
  | scalar c =>
      have hle : c.val.toNat ≤ 0x7f := Nat.le_of_lt_succ h
      rw [PyChar.encode, String.utf8EncodeChar]
      simp only [if_pos hle]
      rfl
  | surrogate n => exact absurd h (by simp [ord]; omega)

/-- The bytes of a character outside ASCII have their top bit set. -/
theorem unitSep_mem_utf8EncodeChar {c : Char} (h : (0x1f : UInt8) ∈ String.utf8EncodeChar c) :
    c = '\x1f' := by
  have hnat : ∀ n : Nat, (0x1f : UInt8) = UInt8.ofNat n → n % 256 = 0x1f := by
    intro n hn
    have := congrArg UInt8.toNat hn
    simpa using this.symm
  unfold String.utf8EncodeChar at h
  simp only at h
  split at h
  · rename_i hle
    have hv := hnat _ (List.mem_singleton.mp h)
    have hc : c.val.toNat = 0x1f := by omega
    exact Char.ext (UInt32.toNat_inj.mp hc)
  · exfalso
    split at h
    · simp only [List.mem_cons, List.not_mem_nil, or_false] at h
      rcases h with h | h
      all_goals have := hnat _ h; omega
    · split at h
      · simp only [List.mem_cons, List.not_mem_nil, or_false] at h
        rcases h with h | h | h
        all_goals have := hnat _ h; omega
      · simp only [List.mem_cons, List.not_mem_nil, or_false] at h
        rcases h with h | h | h | h
        all_goals have := hnat _ h; omega

theorem Str.Clean.encode {s : Str} {b : Bytes} (hs : s.Clean) (h : s.encode = .ok b) :
    (0x1f : UInt8) ∉ b := by
  obtain ⟨cs, rfl, rfl⟩ := encode_eq_ok h
  intro hmem
  obtain ⟨c, hc, hb⟩ := List.mem_flatMap.mp hmem
  rw [unitSep_mem_utf8EncodeChar hb] at hc
  exact hs (List.mem_map.mpr ⟨_, hc, rfl⟩)

theorem isOk_iff {α : Type} {x : Except PyErr α} : x.isOk = true ↔ ∃ a, x = .ok a := by
  cases x <;> simp [Except.isOk, Except.toBool]

theorem ofChars_encodes (cs : List Char) : Str.encodes (ofChars cs) = true := by
  rw [Str.encodes, Str.encode_ofChars]
  rfl

theorem decimal_encodes (i : Int) : Str.encodes (decimal i) = true := by
  cases i with
  | ofNat n => exact ofChars_encodes _
  | negSucc n => exact ofChars_encodes ('-' :: Nat.toDigits 10 (n + 1))

@[simp] theorem Str.encodes_nil : Str.encodes [] = true := rfl

theorem Str.encodes_cons (c : Char) (s : Str) : Str.encodes (.scalar c :: s) = s.encodes := by
  unfold encodes
  cases hs : s.encode <;> simp [encode, PyChar.encode, hs, bind, Except.bind, pure, Except.pure, Except.isOk,
    Except.toBool]

@[simp] theorem Str.encodes_append (s t : Str) : Str.encodes (s ++ t) = (s.encodes && t.encodes) := by
  induction s with
  | nil => rfl
  | cons c s ih =>
      cases c with
      | surrogate n => rfl
      | scalar c => rw [List.cons_append, encodes_cons, encodes_cons, ih]

/-! ## Texts without the separator -/

theorem ofChars_clean {cs : List Char} (h : ∀ c ∈ cs, c ≠ '\x1f') : Str.Clean (ofChars cs) := by
  intro hmem
  obtain ⟨c, hc, he⟩ := List.mem_map.mp hmem
  cases he
  exact h _ hc rfl

theorem toDigits_ten_ne_unitSep {n : Nat} {c : Char} (h : c ∈ Nat.toDigits 10 n) : c ≠ '\x1f' := by
  have hdigit := Nat.isDigit_of_mem_toDigits (by decide) (by decide) h
  rintro rfl
  exact absurd hdigit (by decide)

theorem decimal_clean (i : Int) : Str.Clean (decimal i) := by
  cases i with
  | ofNat n => exact ofChars_clean fun c hc => toDigits_ten_ne_unitSep hc
  | negSucc n =>
      have hclean := ofChars_clean fun c (hc : c ∈ Nat.toDigits 10 (n + 1)) =>
        toDigits_ten_ne_unitSep hc
      simp only [decimal, Str.Clean, List.mem_cons, not_or]
      exact ⟨by decide, hclean⟩

theorem getD_mem_or {α : Type} (xs : List α) (n : Nat) (d : α) : xs.getD n d ∈ d :: xs := by
  rw [List.getD_eq_getElem?_getD]
  cases h : xs[n]? with
  | none => exact List.mem_cons_self
  | some x => exact List.mem_cons_of_mem _ (List.mem_of_getElem? h)

/-- Printable ASCII. -/
def isAscii (c : Char) : Bool := 0x20 ≤ c.toNat ∧ c.toNat < 0x80

theorem getD_ascii {xs : List Char} {d : Char} (h : (d :: xs).all isAscii = true) (n : Nat) :
    0x20 ≤ (xs.getD n d).toNat ∧ (xs.getD n d).toNat < 0x80 := by
  simpa [isAscii] using List.all_eq_true.mp h _ (getD_mem_or xs n d)

theorem hexDigit_ascii (n : Nat) : 0x20 ≤ (hexDigit n).toNat ∧ (hexDigit n).toNat < 0x80 :=
  getD_ascii (by decide) _

theorem base64Char_ascii (n : Nat) :
    0x20 ≤ (base64Char n).toNat ∧ (base64Char n).toNat < 0x80 :=
  getD_ascii (by decide) _

theorem base64_ascii : ∀ (b : Bytes), ∀ c ∈ base64 b, 0x20 ≤ c.toNat ∧ c.toNat < 0x80
  | [] => by simp [base64]
  | [a] => by
      simp only [base64, List.mem_cons, List.not_mem_nil, or_false]
      rintro c (rfl | rfl | rfl | rfl)
      · exact base64Char_ascii _
      · exact base64Char_ascii _
      · decide
      · decide
  | [a, b] => by
      simp only [base64, List.mem_cons, List.not_mem_nil, or_false]
      rintro c (rfl | rfl | rfl | rfl)
      · exact base64Char_ascii _
      · exact base64Char_ascii _
      · exact base64Char_ascii _
      · decide
  | a :: b :: c :: rest => by
      simp only [base64, List.mem_cons]
      rintro x (rfl | rfl | rfl | rfl | hx)
      · exact base64Char_ascii _
      · exact base64Char_ascii _
      · exact base64Char_ascii _
      · exact base64Char_ascii _
      · exact base64_ascii rest x hx

theorem hexText_clean (b : Bytes) : Str.Clean (hexText b) := by
  refine ofChars_clean fun c hc => ?_
  obtain ⟨x, -, hx⟩ := List.mem_flatMap.mp hc
  simp only [List.mem_cons, List.not_mem_nil, or_false] at hx
  rintro rfl
  rcases hx with h | h
  · exact absurd (h ▸ (hexDigit_ascii _).1) (by decide)
  · exact absurd (h ▸ (hexDigit_ascii _).1) (by decide)

/-! ## Reading decimal numbers -/

theorem digitValue_digit {c : Char} (h : c.isDigit = true) :
    digitValue (.scalar c) = some (c.toNat - 48) := by
  have hr : 48 ≤ c.toNat ∧ c.toNat < 58 := by
    simp only [Char.isDigit, Bool.and_eq_true, decide_eq_true_eq, ge_iff_le] at h
    exact ⟨UInt32.le_iff_toNat_le.mp h.1, Nat.lt_succ_of_le (UInt32.le_iff_toNat_le.mp h.2)⟩
  simp [digitValue, digitZeros, PyChar.ord, hr]

theorem parseDigits_cons {c : Char} (h : c.isDigit = true) (s : Str) (acc : Nat) :
    parseDigits (.scalar c :: s) acc = parseDigits s (10 * acc + (c.toNat - 48)) := by
  have hc : PyChar.scalar c ≠ .scalar '_' := by
    rintro he
    cases he
    exact absurd h (by decide)
  rw [parseDigits]
  · rw [digitValue_digit h]
    rfl
  · intro d rest he
    exact absurd he hc

theorem parseDigits_digits {cs : List Char} (h : ∀ c ∈ cs, c.isDigit = true) (acc : Nat) :
    parseDigits (ofChars cs) acc = some (Nat.ofDigitChars 10 cs acc) := by
  induction cs generalizing acc with
  | nil => rfl
  | cons c cs ih =>
      simp only [ofChars, List.map_cons]
      rw [parseDigits_cons (h c List.mem_cons_self)]
      exact ih (fun d hd => h d (.tail _ hd)) _

theorem isSpace_digit {c : Char} (h : c.isDigit = true) : isSpace (.scalar c) = false := by
  simp only [Char.isDigit, Bool.and_eq_true, decide_eq_true_eq, ge_iff_le] at h
  have hlo : 48 ≤ c.toNat := UInt32.le_iff_toNat_le.mp h.1
  have hhi : c.toNat ≤ 57 := UInt32.le_iff_toNat_le.mp h.2
  rw [Bool.eq_false_iff]
  intro hs
  have hord : (PyChar.scalar c).ord = c.toNat := rfl
  simp only [isSpace, Bool.or_eq_true, Bool.and_eq_true, decide_eq_true_eq, beq_iff_eq] at hs
  rw [hord] at hs
  omega

theorem dropWhile_none {α : Type} {p : α → Bool} {xs : List α} (h : ∀ x ∈ xs, p x = false) :
    xs.dropWhile p = xs := by
  cases xs with
  | nil => rfl
  | cons x xs => simp [h x List.mem_cons_self]

theorem parseInt_decimal (n : Nat) : parseInt (decimal n) = some (n : Int) := by
  have hdigit : ∀ c ∈ Nat.toDigits 10 n, c.isDigit = true := fun c hc =>
    Nat.isDigit_of_mem_toDigits (by decide) (by decide) hc
  have hspace : ∀ x ∈ ofChars (Nat.toDigits 10 n), isSpace x = false := by
    intro x hx
    obtain ⟨c, hc, rfl⟩ := List.mem_map.mp hx
    exact isSpace_digit (hdigit c hc)
  have hnat : parseNat (ofChars (Nat.toDigits 10 n)) = some n := by
    have hparse := parseDigits_digits hdigit 0
    rw [Nat.ofDigitChars_ten_toDigits] at hparse
    cases hcs : Nat.toDigits 10 n with
    | nil => exact absurd hcs Nat.toDigits_ne_nil
    | cons c cs =>
        rw [hcs] at hdigit hparse
        have hc := hdigit c List.mem_cons_self
        simp only [ofChars, List.map_cons] at hparse ⊢
        rw [parseDigits_cons hc, Nat.mul_zero, Nat.zero_add] at hparse
        rw [parseNat, digitValue_digit hc]
        exact hparse
  have hbody : ((((decimal n).dropWhile isSpace).reverse.dropWhile isSpace).reverse) =
      ofChars (Nat.toDigits 10 n) := by
    change ((((ofChars (Nat.toDigits 10 n)).dropWhile isSpace).reverse.dropWhile isSpace).reverse) = _
    rw [dropWhile_none hspace, dropWhile_none fun x hx => hspace x (List.mem_reverse.mp hx),
      List.reverse_reverse]
  rw [parseInt, hbody]
  cases hcs : Nat.toDigits 10 n with
  | nil => exact absurd hcs Nat.toDigits_ne_nil
  | cons c cs =>
      rw [hcs] at hdigit hnat
      have hc := hdigit c List.mem_cons_self
      have hne : ∀ d : Char, d.isDigit = false → PyChar.scalar c ≠ .scalar d := by
        rintro d hd he
        cases he
        rw [hc] at hd
        cases hd
      simp only [ofChars, List.map_cons] at hnat ⊢
      split
      · rename_i heq
        exact absurd (List.cons.inj heq).1 (hne '-' (by decide))
      · rename_i heq
        exact absurd (List.cons.inj heq).1 (hne '+' (by decide))
      · rw [hnat]
        rfl

end Fountainer
