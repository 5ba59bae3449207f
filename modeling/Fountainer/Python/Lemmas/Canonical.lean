import Fountainer.Library.Reading
import Fountainer.Python.Canonical
import Fountainer.Python.Lemmas.Dict
import Fountainer.Python.Lemmas.Text

/-!
# Canonical texts have one reading

Two values print alike exactly when they are equal up to the order of object keys, where a number counts
by its text.
-/

namespace Fountainer

/-! ## Strings -/

theorem PyChar.eq_of_ord {c : PyChar} {n : Nat} (h : c.ord = n) (hn : n < 0xD800) : c = .scalar (Char.ofNat n) := by
  cases c with
  | scalar c =>
      rw [← h]
      simp [ord]
  | surrogate m =>
      simp only [ord] at h
      omega

def unescape (e : PyChar) : PyChar :=
  if e = .scalar 'n' then .scalar '\n'
  else if e = .scalar 'r' then .scalar '\r'
  else if e = .scalar 't' then .scalar '\t'
  else if e = .scalar 'f' then .scalar '\x0c'
  else if e = .scalar 'b' then .scalar '\x08'
  else e

def controlChar (s : Str) : PyChar :=
  .scalar (Char.ofNat (((List.range 32).find? fun n => ofChars (hexDigits 4 n) = s).getD 0))

/-- The first character of a quoted text, and the rest. -/
def readJsonChar : Str → Option (PyChar × Str)
  | [] => none
  | c :: r =>
      if c = .scalar '"' then none
      else if c = .scalar '\\' then match r with
        | [] => none
        | e :: r => if e = .scalar 'u' then some (controlChar (r.take 4), r.drop 4) else some (unescape e, r)
      else some (c, r)

theorem hexDigits_control : ∀ n < 32, (ofChars (hexDigits 4 n)).length = 4 ∧
    controlChar (ofChars (hexDigits 4 n)) = .scalar (Char.ofNat n) := by decide +kernel

theorem readJsonChar_jsonChar (c : PyChar) (r : Str) : readJsonChar (jsonChar c ++ r) = some (c, r) := by
  unfold jsonChar
  split
  · rename_i h
    subst h
    rfl
  split
  · rename_i h
    subst h
    rfl
  split
  · rename_i h
    subst h
    rfl
  split
  · rename_i h
    subst h
    rfl
  split
  · rename_i h
    subst h
    rfl
  split
  · rename_i h
    rw [PyChar.eq_of_ord h (by decide)]
    rfl
  split
  · rename_i h
    rw [PyChar.eq_of_ord h (by decide)]
    rfl
  split
  · rename_i h
    obtain ⟨hlen, hread⟩ := hexDigits_control c.ord h
    have hc := PyChar.eq_of_ord (c := c) rfl (Nat.lt_trans h (by decide))
    have htake : (ofChars (hexDigits 4 c.ord) ++ r).take 4 = ofChars (hexDigits 4 c.ord) :=
      List.take_left' hlen
    have hdrop : (ofChars (hexDigits 4 c.ord) ++ r).drop 4 = r := List.drop_left' hlen
    change some (controlChar ((ofChars (hexDigits 4 c.ord) ++ r).take 4),
      (ofChars (hexDigits 4 c.ord) ++ r).drop 4) = _
    rw [htake, hdrop, hread, ← hc]
  · rename_i hquote hslash _ _ _ _ _ _
    simp [readJsonChar, hquote, hslash]

theorem flatMap_jsonChar_inj {s t r r' : Str}
    (h : s.flatMap jsonChar ++ .scalar '"' :: r = t.flatMap jsonChar ++ .scalar '"' :: r') : s = t ∧ r = r' := by
  have hend : ∀ u : Str, readJsonChar (.scalar '"' :: u) = none := fun _ => rfl
  have hcons : ∀ c (u v : Str), readJsonChar ((c :: u).flatMap jsonChar ++ v) = some (c, u.flatMap jsonChar ++ v) := by
    intro c u v
    rw [List.flatMap_cons, List.append_assoc, readJsonChar_jsonChar]
  induction s generalizing t with
  | nil =>
      cases t with
      | nil => exact ⟨rfl, (List.cons.inj h).2⟩
      | cons d t =>
          have hread := congrArg readJsonChar h
          rw [hcons] at hread
          cases (hend r).symm.trans hread
  | cons c s ih =>
      have hread := congrArg readJsonChar h
      rw [hcons] at hread
      cases t with
      | nil => cases hread.trans (hend r')
      | cons d t =>
          rw [hcons] at hread
          obtain ⟨rfl, htail⟩ := Prod.mk.inj (Option.some.inj hread)
          obtain ⟨rfl, hr⟩ := ih htail
          exact ⟨rfl, hr⟩

theorem jsonStr_inj {s t r r' : Str} (h : jsonStr s ++ r = jsonStr t ++ r') : s = t ∧ r = r' := by
  simp only [jsonStr, List.cons_append, List.append_assoc] at h
  exact flatMap_jsonChar_inj (List.cons.inj h).2

/-! ## Encodings -/

theorem encodes_flatMap {f : PyChar → Str} (hscalar : ∀ c : Char, (f (.scalar c)).encodes = true)
    (hsurrogate : ∀ n, (f (.surrogate n)).encodes = false) (s : Str) : Str.encodes (s.flatMap f) = s.encodes := by
  induction s with
  | nil => rfl
  | cons c s ih =>
      rw [List.flatMap_cons, Str.encodes_append, ih]
      cases c with
      | scalar c => rw [hscalar, Str.encodes_cons, Bool.true_and]
      | surrogate n =>
          rw [hsurrogate]
          rfl

theorem jsonStr_encodes (s : Str) : (jsonStr s).encodes = s.encodes := by
  have hscalar : ∀ c : Char, (jsonChar (.scalar c)).encodes = true := by
    intro c
    unfold jsonChar
    repeat' split
    all_goals first | rfl | simp [py, ofChars_encodes, Str.encodes_cons]
  have hsurrogate : ∀ n, (jsonChar (.surrogate n)).encodes = false := by
    intro n
    have hbig : ∀ m < 0xD800, (PyChar.surrogate n).ord ≠ m ∧ ¬ (PyChar.surrogate n).ord < m := by
      intro m hm
      simp only [PyChar.ord]
      omega
    simp only [jsonChar, reduceCtorEq, if_false, (hbig 0x0c (by decide)).1, (hbig 0x08 (by decide)).1,
      (hbig 0x20 (by decide)).2]
    rfl
  rw [jsonStr, List.cons_append, Str.encodes_cons, Str.encodes_append, encodes_flatMap hscalar hsurrogate]
  exact Bool.and_true _

theorem encodes_intercalate {sep : Str} {ts : List Str} (hsep : sep.encodes = true) :
    Str.encodes (sep.intercalate ts) = true ↔ ∀ t ∈ ts, t.encodes = true := by
  induction ts with
  | nil => exact iff_of_true rfl (by simp)
  | cons t ts ih =>
      cases ts with
      | nil => simp
      | cons u us => simpa [List.intercalate_cons_cons, hsep] using and_congr_right fun _ => by simpa using ih

/-! ## The order of keys -/

theorem PyChar.ord_inj {c d : PyChar} (h : c.ord = d.ord) : c = d := by
  have hscalar : ∀ (c : Char) (n : Fin 2048), c.toNat ≠ 0xD800 + n := by
    intro c n he
    have hvalid := c.valid
    have hn := n.isLt
    simp only [UInt32.isValidChar, Nat.isValidChar] at hvalid
    change c.val.toNat = _ at he
    omega
  cases c with
  | scalar c =>
      cases d with
      | scalar d => exact congrArg _ (Char.toNat_inj.mp h)
      | surrogate n => exact absurd h (hscalar c n)
  | surrogate m =>
      cases d with
      | scalar d => exact absurd h.symm (hscalar d m)
      | surrogate n =>
          simp only [ord] at h
          exact congrArg _ (Fin.ext (by omega))

theorem Str.le_cons {c d : PyChar} {s t : Str} :
    Str.le (c :: s) (d :: t) = true ↔ c.ord < d.ord ∨ c.ord = d.ord ∧ Str.le s t = true := by
  simp [Str.le]

theorem Str.le_total (s t : Str) : Str.le s t = true ∨ Str.le t s = true := by
  induction s generalizing t with
  | nil => exact .inl rfl
  | cons c s ih =>
      cases t with
      | nil => exact .inr rfl
      | cons d t =>
          rw [le_cons, le_cons]
          rcases Nat.lt_trichotomy c.ord d.ord with h | h | h
          · exact .inl (.inl h)
          · exact (ih t).imp (fun ht => .inr ⟨h, ht⟩) (fun ht => .inr ⟨h.symm, ht⟩)
          · exact .inr (.inl h)

theorem Str.le_trans {s t u : Str} (h : Str.le s t = true) (h' : Str.le t u = true) : Str.le s u = true := by
  induction s generalizing t u with
  | nil => rfl
  | cons c s ih =>
      cases t with
      | nil => cases h
      | cons d t =>
          cases u with
          | nil => cases h'
          | cons e u =>
              rw [le_cons] at h h' ⊢
              rcases h with h | ⟨h, ht⟩
              · rcases h' with h' | ⟨h', -⟩
                · exact .inl (Nat.lt_trans h h')
                · exact .inl (h' ▸ h)
              · rcases h' with h' | ⟨h', hu⟩
                · exact .inl (h ▸ h')
                · exact .inr ⟨h.trans h', ih ht hu⟩

theorem Str.le_antisymm {s t : Str} (h : Str.le s t = true) (h' : Str.le t s = true) : s = t := by
  induction s generalizing t with
  | nil =>
      cases t with
      | nil => rfl
      | cons d t => cases h'
  | cons c s ih =>
      cases t with
      | nil => cases h
      | cons d t =>
          rw [le_cons] at h h'
          rcases h with h | ⟨h, hs⟩
          · omega
          · rcases h' with h' | ⟨-, ht⟩
            · omega
            · rw [PyChar.ord_inj h, ih hs ht]

/-- Sorting by distinct keys does not depend on the order before. -/
theorem sortKeys_perm {a b : List (Str × Str)} (ha : (a.map Prod.fst).Nodup) (h : a.Perm b) :
    sortKeys a = sortKeys b := by
  have hsorted : ∀ kvs : List (Str × Str), (sortKeys kvs).Pairwise fun x y => Str.le x.1 y.1 = true := by
    intro kvs
    have : Std.Total fun x y : Str × Str => Str.le x.1 y.1 = true := ⟨fun x y => Str.le_total x.1 y.1⟩
    have : IsTrans (Str × Str) fun x y => Str.le x.1 y.1 = true := ⟨fun x y z => Str.le_trans⟩
    exact List.pairwise_insertionSort _ kvs
  refine List.Perm.eq_of_pairwise ?_ (hsorted a) (hsorted b) ?_
  · intro x y hx hy hxy hyx
    have hx := (List.mem_insertionSort _).mp hx
    have hy := h.mem_iff.mpr ((List.mem_insertionSort _).mp hy)
    exact List.inj_on_of_nodup_map ha hx hy (Str.le_antisymm hxy hyx)
  · exact ((List.perm_insertionSort _ a).trans h).trans (List.perm_insertionSort _ b).symm

/-! ## Numbers -/

/-- The characters of a finite number. -/
def isNumeric (c : Char) : Bool := c.isDigit || c == '.' || c == 'e' || c == '+' || c == '-'

theorem toDigits_numeric (n : Nat) : ∀ c ∈ Nat.toDigits 10 n, isNumeric c = true := by
  intro c hc
  have hdigit : c.isDigit = true := Nat.isDigit_of_mem_toDigits (by decide) (by decide) hc
  simp [isNumeric, hdigit]

theorem dropZeros_numeric {ds : List Char} (h : ∀ c ∈ ds, isNumeric c = true) :
    ∀ c ∈ PyFloat.dropZeros ds, isNumeric c = true := by
  intro c hc
  exact h c (List.mem_reverse.mp (List.dropWhile_subset _ (List.mem_reverse.mp hc)))

theorem layout_numeric {ds : List Char} (h : ∀ c ∈ ds, isNumeric c = true) (k : Int) :
    PyFloat.layout ds k ≠ [] ∧ ∀ c ∈ PyFloat.layout ds k, isNumeric c = true := by
  have hzeros : ∀ n, ∀ c ∈ List.replicate n '0', isNumeric c = true := by
    intro n c hc
    rw [(List.mem_replicate.mp hc).2]
    rfl
  unfold PyFloat.layout
  split
  · dsimp only
    split
    · refine ⟨by simp, fun c hc => ?_⟩
      simp only [List.mem_append, List.mem_cons, List.not_mem_nil, or_false] at hc
      rcases hc with (hc | hc) | rfl | rfl
      · exact h c hc
      · exact hzeros _ c hc
      · rfl
      · rfl
    · refine ⟨by simp, fun c hc => ?_⟩
      simp only [List.mem_append, List.mem_cons] at hc
      rcases hc with hc | rfl | hc
      · exact h c (List.mem_of_mem_take hc)
      · rfl
      · exact h c (List.mem_of_mem_drop hc)
  · split
    · refine ⟨by simp, fun c hc => ?_⟩
      simp only [List.mem_append, List.mem_cons, List.not_mem_nil, or_false] at hc
      rcases hc with ((rfl | rfl) | hc) | hc
      · rfl
      · rfl
      · exact hzeros _ c hc
      · exact h c hc
    · refine ⟨by simp, fun c hc => ?_⟩
      have hexp : ∀ c ∈ (if (Nat.toDigits 10 (k - 1).natAbs).length < 2 then '0' :: Nat.toDigits 10 (k - 1).natAbs
          else Nat.toDigits 10 (k - 1).natAbs), isNumeric c = true := by
        intro c hc
        split at hc
        · rcases List.mem_cons.mp hc with rfl | hc
          · rfl
          · exact toDigits_numeric _ c hc
        · exact toDigits_numeric _ c hc
      simp only [List.mem_append, List.mem_cons] at hc
      rcases hc with hc | rfl | rfl | hc
      · split at hc
        · exact h c hc
        · rename_i d rest _
          rcases List.mem_cons.mp hc with rfl | hc
          · exact h c List.mem_cons_self
          · rcases List.mem_cons.mp hc with rfl | hc
            · rfl
            · exact h c (.tail _ hc)
        · cases hc
      · rfl
      · split <;> rfl
      · exact hexp c hc

theorem finite_numeric (neg : Bool) (m : Nat) (e : Int) :
    (PyFloat.finite neg m e).jsonRepr ≠ [] ∧ ∀ c ∈ (PyFloat.finite neg m e).jsonRepr, isNumeric c = true := by
  have hbody : ∀ body : List Char, (body ≠ [] ∧ ∀ c ∈ body, isNumeric c = true) →
      (if neg then '-' :: body else body) ≠ [] ∧ ∀ c ∈ (if neg then '-' :: body else body), isNumeric c = true := by
    intro body h
    cases neg with
    | false => exact h
    | true =>
        refine ⟨List.cons_ne_nil _ _, fun c hc => ?_⟩
        rcases List.mem_cons.mp hc with rfl | hc
        · rfl
        · exact h.2 c hc
  simp only [PyFloat.jsonRepr, PyFloat.reprWith]
  refine hbody _ ?_
  split
  · exact ⟨by simp, List.all_eq_true.mp (by decide)⟩
  · exact layout_numeric (dropZeros_numeric (toDigits_numeric _)) _

/-! ## Values -/

namespace Json

/-- Induction over the members of arrays and objects. -/
theorem byMembers {P : Json → Prop} (hnull : P .null) (hbool : ∀ b, P (.bool b)) (hint : ∀ i, P (.int i))
    (hfloat : ∀ f, P (.float f)) (hstr : ∀ s, P (.str s)) (harr : ∀ xs, (∀ x ∈ xs, P x) → P (.arr xs))
    (hobj : ∀ kvs, (∀ kv ∈ kvs, P kv.2) → P (.obj kvs)) : (x : Json) → P x
  | .null => hnull
  | .bool b => hbool b
  | .int i => hint i
  | .float f => hfloat f
  | .str s => hstr s
  | .arr xs => harr xs fun x _ => byMembers hnull hbool hint hfloat hstr harr hobj x
  | .obj kvs => hobj kvs fun kv _ => byMembers hnull hbool hint hfloat hstr harr hobj kv.2
termination_by x => sizeOf x
decreasing_by
  · have := List.sizeOf_lt_of_mem ‹_›
    simp only [arr.sizeOf_spec]
    omega
  · have := List.sizeOf_lt_of_mem ‹kv ∈ kvs›
    obtain ⟨k, v⟩ := kv
    simp only [obj.sizeOf_spec, Prod.mk.sizeOf_spec] at this ⊢
    omega

theorem decodedList_iff {xs : List Json} : decodedList xs = true ↔ ∀ x ∈ xs, x.decoded = true := by
  induction xs with
  | nil => simp [decodedList]
  | cons x xs ih => simp [decodedList, ih]

theorem decoded_obj {kvs : Dict} : (obj kvs).decoded = true ↔
    (kvs.map Prod.fst).Nodup ∧ ∀ kv ∈ kvs, kv.1.encodes = true ∧ kv.2.decoded = true := by
  have hfields : ∀ kvs : Dict, decodedFields kvs = true ↔
      ∀ kv ∈ kvs, kv.1.encodes = true ∧ kv.2.decoded = true := by
    intro kvs
    induction kvs with
    | nil => simp [decodedFields]
    | cons kv kvs ih => simp [decodedFields, ih]
  simp [decoded, hfields]

theorem sameList_iff {xs ys : List Json} : SameList xs ys ↔ List.Forall₂ Same xs ys := by
  induction xs generalizing ys with
  | nil => simp [SameList]
  | cons x xs ih =>
      simp only [SameList, ih]
      constructor
      · rintro ⟨y, rest, rfl, hxy, hall⟩
        exact .cons hxy hall
      · rintro (_ | ⟨hxy, hall⟩)
        exact ⟨_, _, rfl, hxy, hall⟩

theorem sameFields_iff {a b : Dict} :
    SameFields a b ↔ ∀ kv ∈ a, ∃ w, b.lookup kv.1 = some w ∧ Same kv.2 w := by
  induction a with
  | nil => simp [SameFields]
  | cons kv a ih =>
      obtain ⟨k, v⟩ := kv
      simp [SameFields, ih]

theorem dumpsList_eq (xs : List Json) : dumpsList xs = xs.map dumps := by
  induction xs with
  | nil => rfl
  | cons x xs ih => simp [dumpsList, ih]

theorem dumpsDict_eq (kvs : Dict) : dumpsDict kvs = kvs.map fun kv => (kv.1, kv.2.dumps) := by
  induction kvs with
  | nil => rfl
  | cons kv kvs ih => simp [dumpsDict, ih]

/-- What the first character of a text tells about the value. -/
inductive Kind
  | null | yes | no | number | string | array | object
  deriving DecidableEq

def kind : Json → Kind
  | null => .null
  | bool b => if b then .yes else .no
  | int _ | float _ => .number
  | str _ => .string
  | arr _ => .array
  | obj _ => .object

def kindOf (c : PyChar) : Kind :=
  if c = .scalar 'n' then .null
  else if c = .scalar 't' then .yes
  else if c = .scalar 'f' then .no
  else if c = .scalar '"' then .string
  else if c = .scalar '[' then .array
  else if c = .scalar '\x7b' then .object
  else .number

/-- What can follow a value. -/
def IsStop (c : PyChar) : Prop := c = .scalar ',' ∨ c = .scalar ']' ∨ c = .scalar '\x7d'

instance (c : PyChar) : Decidable (IsStop c) := inferInstanceAs (Decidable (_ ∨ _))

theorem numeric_first {c : Char} (h : isNumeric c = true) :
    kindOf (.scalar c) = .number ∧ ¬ IsStop (.scalar c) := by
  have hne : ∀ d : Char, isNumeric d = false → PyChar.scalar c ≠ .scalar d := by
    rintro d hd he
    cases he
    rw [h] at hd
    cases hd
  have hstop : ¬ IsStop (.scalar c) := by
    rintro (he | he | he)
    · exact hne ',' (by decide) he
    · exact hne ']' (by decide) he
    · exact hne '\x7d' (by decide) he
  refine ⟨?_, hstop⟩
  simp [kindOf, hne 'n' (by decide), hne 't' (by decide), hne 'f' (by decide), hne '"' (by decide),
    hne '[' (by decide), hne '\x7b' (by decide)]

/-- The text of a number: it begins like a number and has no stop inside. -/
theorem number_text {x : Json} {t : Str} (h : x.numberText = some t) :
    x.dumps = t ∧ (∃ c rest, t = c :: rest ∧ kindOf c = .number) ∧ ∀ c ∈ t, ¬ IsStop c := by
  have hnumeric : ∀ cs : List Char, cs ≠ [] → (∀ c ∈ cs, isNumeric c = true) →
      (∃ c rest, ofChars cs = c :: rest ∧ kindOf c = .number) ∧ ∀ c ∈ ofChars cs, ¬ IsStop c := by
    intro cs hne hcs
    constructor
    · cases cs with
      | nil => exact absurd rfl hne
      | cons c cs => exact ⟨_, _, rfl, (numeric_first (hcs c List.mem_cons_self)).1⟩
    · intro c hc
      obtain ⟨d, hd, rfl⟩ := List.mem_map.mp hc
      exact (numeric_first (hcs d hd)).2
  cases x with
  | int i =>
      cases h
      refine ⟨rfl, ?_⟩
      cases i with
      | ofNat n => exact hnumeric (Nat.toDigits 10 n) Nat.toDigits_ne_nil (toDigits_numeric n)
      | negSucc n =>
          refine hnumeric ('-' :: Nat.toDigits 10 (n + 1)) (List.cons_ne_nil _ _) fun c hc => ?_
          rcases List.mem_cons.mp hc with rfl | hc
          · rfl
          · exact toDigits_numeric _ c hc
  | float f =>
      cases h
      refine ⟨rfl, ?_⟩
      cases f with
      | finite neg m e => exact hnumeric _ (finite_numeric neg m e).1 (finite_numeric neg m e).2
      | inf neg => cases neg <;> exact ⟨⟨_, _, rfl, rfl⟩, by decide⟩
      | nan => exact ⟨⟨_, _, rfl, rfl⟩, by decide⟩
  | null => cases h
  | bool b => cases h
  | str s => cases h
  | arr xs => cases h
  | obj kvs => cases h

theorem dumps_first (x : Json) : ∃ c rest, x.dumps = c :: rest ∧ kindOf c = x.kind ∧ ¬ IsStop c := by
  have hnumber : ∀ {y : Json} {t : Str}, y.numberText = some t → y.kind = .number →
      ∃ c rest, y.dumps = c :: rest ∧ kindOf c = y.kind ∧ ¬ IsStop c := by
    intro y t ht hk
    obtain ⟨hd, ⟨c, rest, rfl, hc⟩, hstop⟩ := number_text ht
    exact ⟨c, rest, hd, hc.trans hk.symm, hstop c List.mem_cons_self⟩
  cases x with
  | null => exact ⟨_, _, rfl, rfl, by decide⟩
  | bool b => cases b <;> exact ⟨_, _, rfl, rfl, by decide⟩
  | int i => exact hnumber rfl rfl
  | float f => exact hnumber rfl rfl
  | str s => exact ⟨_, _, rfl, rfl, by decide⟩
  | arr xs => exact ⟨_, _, rfl, rfl, by decide⟩
  | obj kvs => exact ⟨_, _, rfl, rfl, by decide⟩

/-! ## Objects -/

/-- `sorted(d.items())`. -/
def sortFields (kvs : Dict) : Dict := kvs.insertionSort fun a b => Str.le a.1 b.1

def printField (kv : Str × Json) : Str := jsonStr kv.1 ++ .scalar ':' :: kv.2.dumps

theorem mem_sortFields {kvs : Dict} {kv : Str × Json} : kv ∈ sortFields kvs ↔ kv ∈ kvs :=
  List.mem_insertionSort _

theorem dumps_arr (xs : List Json) :
    (arr xs).dumps = .scalar '[' :: ([.scalar ','].intercalate (xs.map dumps) ++ [.scalar ']']) := by
  rw [dumps, dumpsList_eq]
  rfl

theorem dumps_obj (kvs : Dict) : (obj kvs).dumps =
    .scalar '\x7b' :: ([.scalar ','].intercalate ((sortFields kvs).map printField) ++ [.scalar '\x7d']) := by
  have hsort : sortKeys (dumpsDict kvs) = (sortFields kvs).map fun kv => (kv.1, kv.2.dumps) := by
    rw [sortKeys, dumpsDict_eq]
    exact (List.map_insertionSort (fun a b : Str × Json => Str.le a.1 b.1) (fun a b : Str × Str => Str.le a.1 b.1)
      (fun kv => (kv.1, kv.2.dumps)) kvs fun _ _ _ _ => Iff.rfl).symm
  rw [dumps, hsort, List.map_map]
  have hprint : (fun kv : Str × Str => jsonStr kv.1 ++ py ":" ++ kv.2) ∘ (fun kv : Str × Json => (kv.1, kv.2.dumps)) =
      printField := by
    funext kv
    simp [printField, py]
  rw [hprint]
  rfl

theorem same_obj {a b : Dict} (hlen : a.length = b.length)
    (h : ∀ kv ∈ a, ∃ w, b.lookup kv.1 = some w ∧ Same kv.2 w) : Same (obj a) (obj b) := by
  rw [Same]
  exact ⟨b, rfl, hlen, sameFields_iff.mpr h⟩

/-- Objects whose sorted fields agree are the same. -/
theorem same_of_sorted {a b : Dict} (hb : (b.map Prod.fst).Nodup)
    (h : List.Forall₂ (fun x y => x.1 = y.1 ∧ Same x.2 y.2) (sortFields a) (sortFields b)) :
    Same (obj a) (obj b) := by
  have hlen := h.length_eq
  simp only [sortFields, List.length_insertionSort] at hlen
  refine same_obj hlen fun kv hkv => ?_
  obtain ⟨i, hi, hget⟩ := List.mem_iff_getElem.mp (mem_sortFields.mpr hkv)
  have hi' : i < (sortFields b).length := h.length_eq ▸ hi
  obtain ⟨hk, hv⟩ := (List.forall₂_iff_get.mp h).2 i hi hi'
  rw [List.get_eq_getElem, List.get_eq_getElem] at hk hv
  rw [hget] at hk hv
  refine ⟨_, lookup_of_mem hb (mem_sortFields.mp ?_), hv⟩
  rw [hk]
  exact List.getElem_mem hi'

/-! ## One reading -/

theorem dumps_reads : ∀ x y : Json, x.decoded = true → y.decoded = true →
    Reading.Reads IsStop dumps Same x y := by
  have hkind : ∀ {x y : Json} {r r' : Str}, x.dumps ++ r = y.dumps ++ r' → x.kind = y.kind := by
    intro x y r r' h
    obtain ⟨c, t, hx, hc, -⟩ := dumps_first x
    obtain ⟨d, u, hy, hd, -⟩ := dumps_first y
    rw [hx, hy] at h
    rw [← hc, ← hd, (List.cons.inj h).1]
  have hnumber : ∀ {x y : Json} {t : Str}, x.numberText = some t → y.kind = .number →
      (y.numberText = some t → Same x y) → Reading.Reads IsStop dumps Same x y := by
    intro x y t hx hy hsame r r' hr hr' h
    have hytext : ∃ u, y.numberText = some u := by
      cases y with
      | bool b => cases b <;> cases hy
      | _ => first | exact ⟨_, rfl⟩ | cases hy
    obtain ⟨u, hu⟩ := hytext
    obtain ⟨hxt, -, hxs⟩ := number_text hx
    obtain ⟨hyt, -, hys⟩ := number_text hu
    rw [hxt, hyt] at h
    obtain ⟨rfl, hrest⟩ := Reading.append_inj hxs hys hr hr' h
    exact ⟨hsame hu, hrest⟩
  have hmember : ∀ z : Json, z.dumps.head? ≠ some (.scalar ']') ∧ z.dumps ≠ [] := by
    intro z
    obtain ⟨c, t, hz, -, hstop⟩ := dumps_first z
    rw [hz]
    refine ⟨fun he => hstop ?_, List.cons_ne_nil _ _⟩
    rw [Option.some.inj he]
    exact .inr (.inl rfl)
  have hfield : ∀ kv : Str × Json, (printField kv).head? ≠ some (.scalar '\x7d') ∧ printField kv ≠ [] :=
    fun kv => ⟨by simp [printField, jsonStr], by simp [printField, jsonStr]⟩
  intro x
  induction x using byMembers with
  | hnull =>
      intro y _ _ r r' hr hr' h
      have hk := hkind h
      cases y with
      | null => exact ⟨by simp [Same], List.append_cancel_left h⟩
      | bool b => cases b <;> cases hk
      | _ => cases hk
  | hbool b =>
      intro y _ _ r r' hr hr' h
      have hk := hkind h
      cases y with
      | bool b' =>
          have hb : b = b' := by cases b <;> cases b' <;> first | rfl | cases hk
          subst hb
          exact ⟨by simp [Same], List.append_cancel_left h⟩
      | _ => cases b <;> cases hk
  | hint i =>
      intro y _ _ r r' hr hr' h
      exact hnumber (x := int i) rfl (hkind h).symm (fun hu => by rw [Same]; exact hu) r r' hr hr' h
  | hfloat f =>
      intro y _ _ r r' hr hr' h
      exact hnumber (x := float f) rfl (hkind h).symm (fun hu => by rw [Same]; exact hu) r r' hr hr' h
  | hstr s =>
      intro y _ _ r r' hr hr' h
      have hk := hkind h
      cases y with
      | str t =>
          obtain ⟨rfl, hrest⟩ := jsonStr_inj h
          exact ⟨by simp [Same], hrest⟩
      | bool b => cases b <;> cases hk
      | _ => cases hk
  | harr xs ih =>
      intro y hx hy r r' hr hr' h
      have hk := hkind h
      cases y with
      | arr ys =>
          have hxs := decodedList_iff.mp hx
          have hys := decodedList_iff.mp hy
          simp only [dumps_arr, List.cons_append, List.append_assoc, List.nil_append] at h
          obtain ⟨hall, hrest⟩ := Reading.list_inj (.inl rfl) (.inr (.inl rfl)) (by decide)
            (fun x hx y hy => ih x hx y (hxs x hx) (hys y hy)) (fun x _ => hmember x) (fun y _ => hmember y)
            (List.cons.inj h).2
          refine ⟨?_, hrest⟩
          rw [Same]
          exact ⟨ys, rfl, sameList_iff.mpr hall⟩
      | bool b => cases b <;> cases hk
      | _ => cases hk
  | hobj a ih =>
      intro y hx hy r r' hr hr' h
      have hk := hkind h
      cases y with
      | obj b =>
          obtain ⟨hanodup, ha⟩ := decoded_obj.mp hx
          obtain ⟨hbnodup, hb⟩ := decoded_obj.mp hy
          have hreads : ∀ kv ∈ sortFields a, ∀ lw ∈ sortFields b,
              Reading.Reads IsStop printField (fun x y => x.1 = y.1 ∧ Same x.2 y.2) kv lw := by
            intro kv hkv lw hlw r r' hr hr' h
            simp only [printField, List.append_assoc, List.cons_append] at h
            obtain ⟨hkey, hvalue⟩ := jsonStr_inj h
            have hkv := mem_sortFields.mp hkv
            have hlw := mem_sortFields.mp hlw
            obtain ⟨hsame, hrest⟩ := ih kv hkv lw.2 (ha kv hkv).2 (hb lw hlw).2 r r' hr hr' (List.cons.inj hvalue).2
            exact ⟨⟨hkey, hsame⟩, hrest⟩
          simp only [dumps_obj, List.cons_append, List.append_assoc, List.nil_append] at h
          obtain ⟨hall, hrest⟩ := Reading.list_inj (.inl rfl) (.inr (.inr rfl)) (by decide) hreads
            (fun kv _ => hfield kv) (fun lw _ => hfield lw) (List.cons.inj h).2
          exact ⟨same_of_sorted hbnodup hall, hrest⟩
      | bool b => cases b <;> cases hk
      | _ => cases hk

/-! ## One text -/

/-- Values that are the same have the same text. -/
theorem dumps_same : ∀ x y : Json, x.decoded = true → y.decoded = true → Same x y → x.dumps = y.dumps := by
  intro x
  induction x using byMembers with
  | hnull =>
      intro y _ _ h
      rw [Same] at h
      rw [h]
  | hbool b =>
      intro y _ _ h
      rw [Same] at h
      rw [h]
  | hint i =>
      intro y _ _ h
      rw [Same] at h
      exact (number_text h).1.symm
  | hfloat f =>
      intro y _ _ h
      rw [Same] at h
      exact (number_text h).1.symm
  | hstr s =>
      intro y _ _ h
      rw [Same] at h
      rw [h]
  | harr xs ih =>
      intro y hx hy h
      rw [Same] at h
      obtain ⟨ys, rfl, h⟩ := h
      have hxs := decodedList_iff.mp hx
      have hys := decodedList_iff.mp hy
      have hmap : xs.map dumps = ys.map dumps := by
        refine List.forall₂_eq_eq_eq ▸ List.forall₂_map_left_iff.mpr (List.forall₂_map_right_iff.mpr ?_)
        refine List.forall₂_iff_get.mpr ⟨(sameList_iff.mp h).length_eq, fun i hi hi' => ?_⟩
        exact ih _ (List.get_mem ..) _ (hxs _ (List.get_mem ..)) (hys _ (List.get_mem ..))
          ((List.forall₂_iff_get.mp (sameList_iff.mp h)).2 i hi hi')
      rw [dumps_arr, dumps_arr, hmap]
  | hobj a ih =>
      intro y hx hy h
      rw [Same] at h
      obtain ⟨b, rfl, hlen, h⟩ := h
      obtain ⟨hanodup, ha⟩ := decoded_obj.mp hx
      obtain ⟨hbnodup, hb⟩ := decoded_obj.mp hy
      have hkeys : (dumpsDict a).map Prod.fst = a.map Prod.fst := by
        rw [dumpsDict_eq, List.map_map]
        rfl
      have hsub : dumpsDict a ⊆ dumpsDict b := by
        intro e he
        rw [dumpsDict_eq] at he ⊢
        obtain ⟨kv, hkv, rfl⟩ := List.mem_map.mp he
        obtain ⟨w, hw, hsame⟩ := sameFields_iff.mp h kv hkv
        have hmem := mem_of_lookup hw
        have hdumps := ih kv hkv w (ha kv hkv).2 (hb _ hmem).2 hsame
        exact List.mem_map.mpr ⟨_, hmem, by rw [hdumps]⟩
      have hperm : (dumpsDict a).Perm (dumpsDict b) := by
        have hnodup : (dumpsDict a).Nodup := List.Nodup.of_map _ (hkeys ▸ hanodup)
        refine (List.subperm_of_subset hnodup hsub).perm_of_length_le ?_
        rw [dumpsDict_eq, dumpsDict_eq, List.length_map, List.length_map, hlen]
      rw [dumps, dumps, sortKeys_perm (hkeys ▸ hanodup) hperm]

theorem encodesList_iff {xs : List Json} : encodesList xs = true ↔ ∀ x ∈ xs, x.encodes = true := by
  induction xs with
  | nil => simp [encodesList]
  | cons x xs ih => simp [encodesList, ih]

theorem encodesFields_iff {kvs : Dict} :
    encodesFields kvs = true ↔ ∀ kv ∈ kvs, kv.1.encodes = true ∧ kv.2.encodes = true := by
  induction kvs with
  | nil => simp [encodesFields]
  | cons kv kvs ih => simp [encodesFields, ih]

theorem dumps_encodes_iff (x : Json) : x.dumps.encodes = true ↔ x.encodes = true := by
  have hcomma : Str.encodes [.scalar ','] = true := rfl
  induction x using byMembers with
  | hnull => exact iff_of_true rfl rfl
  | hbool b => exact iff_of_true (by cases b <;> rfl) rfl
  | hint i => exact iff_of_true (decimal_encodes i) rfl
  | hfloat f => exact iff_of_true (ofChars_encodes _) rfl
  | hstr s => rw [dumps, jsonStr_encodes, encodes]
  | harr xs ih =>
      rw [dumps_arr, Str.encodes_cons, Str.encodes_append, encodes, encodesList_iff]
      simp only [Str.encodes_cons, Str.encodes_nil, Bool.and_true, encodes_intercalate hcomma, List.forall_mem_map]
      exact forall₂_congr ih
  | hobj kvs ih =>
      have hprint : ∀ kv ∈ kvs, (printField kv).encodes = true ↔ kv.1.encodes = true ∧ kv.2.encodes = true := by
        intro kv hkv
        simp [printField, Str.encodes_cons, jsonStr_encodes, ih kv hkv]
      rw [dumps_obj, Str.encodes_cons, Str.encodes_append, encodes, encodesFields_iff]
      simp only [Str.encodes_cons, Str.encodes_nil, Bool.and_true, encodes_intercalate hcomma, List.forall_mem_map,
        mem_sortFields]
      exact forall₂_congr hprint

theorem decoded_encodes (x : Json) (h : x.decoded = true) : x.encodes = true := by
  induction x using byMembers with
  | hstr s => exact h
  | harr xs ih => exact encodesList_iff.mpr fun x hx => ih x hx (decodedList_iff.mp h x hx)
  | hobj kvs ih =>
      obtain ⟨-, hall⟩ := decoded_obj.mp h
      exact encodesFields_iff.mpr fun kv hkv => ⟨(hall kv hkv).1, ih kv hkv (hall kv hkv).2⟩
  | _ => rfl

theorem dumps_encodes (x : Json) (h : x.decoded = true) : x.dumps.encodes = true :=
  (dumps_encodes_iff x).mpr (decoded_encodes x h)

/-! ## `str(x)` -/

theorem reprStr_encodes (s : Str) : (reprStr s).encodes = true := by
  have hdigits : ∀ u v : Str, u.encodes = true → v.encodes = true → Str.encodes (u ++ v) = true := by
    intro u v hu hv
    rw [Str.encodes_append, hu, hv]
    rfl
  have hchar : ∀ q c, (reprChar q c).encodes = true := by
    intro q c
    cases c with
    | scalar c =>
        unfold reprChar
        repeat' split
        all_goals simp [py, ofChars_encodes, Str.encodes_cons]
    | surrogate n =>
        unfold reprChar
        simp only [reduceCtorEq, if_false, or_self, isPrintable, Bool.false_eq_true]
        repeat' split
        all_goals exact hdigits _ _ rfl (ofChars_encodes _)
  have hbody : ∀ q, Str.encodes (s.flatMap (reprChar q)) = true := by
    intro q
    induction s with
    | nil => rfl
    | cons c s ih => simp [hchar, ih]
  simp only [reprStr, List.cons_append, Str.encodes_cons, Str.encodes_append, hbody, Str.encodes_nil, Bool.and_true]

theorem repr_encodes (x : Json) : x.repr.encodes = true := by
  have hlist : ∀ xs : List Json, reprList xs = xs.map repr := by
    intro xs
    induction xs with
    | nil => rfl
    | cons x xs ih => simp [reprList, ih]
  have hdict : ∀ kvs : Dict, reprDict kvs = kvs.map fun kv => reprStr kv.1 ++ py ": " ++ kv.2.repr := by
    intro kvs
    induction kvs with
    | nil => rfl
    | cons kv kvs ih => simp [reprDict, ih]
  have hsep : (py ", ").encodes = true := rfl
  induction x using byMembers with
  | hnull => rfl
  | hbool b => cases b <;> rfl
  | hint i => exact decimal_encodes i
  | hfloat f => exact ofChars_encodes _
  | hstr s => exact reprStr_encodes s
  | harr xs ih =>
      have hinner : Str.encodes ((py ", ").intercalate (xs.map repr)) = true :=
        (encodes_intercalate hsep).mpr (by simpa using ih)
      rw [repr, hlist, Str.encodes_append, Str.encodes_append, Str.join, hinner]
      rfl
  | hobj kvs ih =>
      have hinner : Str.encodes ((py ", ").intercalate
          (kvs.map fun kv => reprStr kv.1 ++ py ": " ++ kv.2.repr)) = true := by
        refine (encodes_intercalate hsep).mpr fun t ht => ?_
        obtain ⟨kv, hkv, rfl⟩ := List.mem_map.mp ht
        rw [Str.encodes_append, Str.encodes_append, reprStr_encodes, ih kv hkv]
        rfl
      rw [repr, hdict, Str.encodes_append, Str.encodes_append, Str.join, hinner]
      rfl

/-- Only the text of a text can lack an encoding. -/
theorem toStr_encodes {x : Json} : x.toStr.encodes = true ↔ ∀ s, x = .str s → s.encodes = true := by
  cases x with
  | str s => simp [toStr]
  | _ => exact iff_of_true (repr_encodes _) (by simp)

end Json

end Fountainer
