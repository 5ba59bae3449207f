import Mathlib.Data.List.Infix
import Fountainer.Python.Float

/-!
# JSON values as Python objects

What `json.loads` returns, with the Python operations the server applies to it: truth value, `int`,
`str`, iteration, membership and the dictionary methods. `None` is `null`.
-/

namespace Fountainer

inductive Json
  | null
  | bool (b : Bool)
  | int (i : Int)
  | float (f : PyFloat)
  | str (s : Str)
  | arr (xs : List Json)
  | obj (kvs : List (Str × Json))
  deriving Inhabited

/-- A dictionary with text keys, in insertion order. -/
abbrev Dict := List (Str × Json)

namespace Json

mutual
def decEq : (a b : Json) → Decidable (a = b)
  | .null, .null => isTrue rfl
  | .bool a, .bool b => decidable_of_iff (a = b) (by simp)
  | .int a, .int b => decidable_of_iff (a = b) (by simp)
  | .float a, .float b => decidable_of_iff (a = b) (by simp)
  | .str a, .str b => decidable_of_iff (a = b) (by simp)
  | .arr a, .arr b => @decidable_of_iff _ (a = b) (by simp) (decEqList a b)
  | .obj a, .obj b => @decidable_of_iff _ (a = b) (by simp) (decEqDict a b)
  | .null, .bool _ | .null, .int _ | .null, .float _ | .null, .str _ | .null, .arr _
  | .null, .obj _ => isFalse (by simp)
  | .bool _, .null | .bool _, .int _ | .bool _, .float _ | .bool _, .str _ | .bool _, .arr _
  | .bool _, .obj _ => isFalse (by simp)
  | .int _, .null | .int _, .bool _ | .int _, .float _ | .int _, .str _ | .int _, .arr _
  | .int _, .obj _ => isFalse (by simp)
  | .float _, .null | .float _, .bool _ | .float _, .int _ | .float _, .str _ | .float _, .arr _
  | .float _, .obj _ => isFalse (by simp)
  | .str _, .null | .str _, .bool _ | .str _, .int _ | .str _, .float _ | .str _, .arr _
  | .str _, .obj _ => isFalse (by simp)
  | .arr _, .null | .arr _, .bool _ | .arr _, .int _ | .arr _, .float _ | .arr _, .str _
  | .arr _, .obj _ => isFalse (by simp)
  | .obj _, .null | .obj _, .bool _ | .obj _, .int _ | .obj _, .float _ | .obj _, .str _
  | .obj _, .arr _ => isFalse (by simp)

def decEqList : (a b : List Json) → Decidable (a = b)
  | [], [] => isTrue rfl
  | [], _ :: _ | _ :: _, [] => isFalse (by simp)
  | x :: xs, y :: ys =>
      @decidable_of_iff _ (x = y ∧ xs = ys) (by simp)
        (@instDecidableAnd _ _ (decEq x y) (decEqList xs ys))

def decEqDict : (a b : List (Str × Json)) → Decidable (a = b)
  | [], [] => isTrue rfl
  | [], _ :: _ | _ :: _, [] => isFalse (by simp)
  | (k, x) :: xs, (l, y) :: ys =>
      @decidable_of_iff _ (k = l ∧ x = y ∧ xs = ys) (by simp [and_assoc])
        (@instDecidableAnd _ _ inferInstance
          (@instDecidableAnd _ _ (decEq x y) (decEqDict xs ys)))
end

instance : DecidableEq Json := decEq

/-- `bool(x)`. -/
def truthy : Json → Bool
  | null => false
  | bool b => b
  | int i => i != 0
  | float f => f.truthy
  | str s => !s.isEmpty
  | arr xs => !xs.isEmpty
  | obj kvs => !kvs.isEmpty

/-- `x or y`. -/
def or (x y : Json) : Json := if x.truthy then x else y

/-- Whether the object can be a dictionary key: lists and dictionaries cannot. -/
def hashable : Json → Bool
  | arr _ | obj _ => false
  | _ => true

/-- The receiver of a `.get` call: anything but a dictionary has no such attribute. -/
def asDict : Json → Except PyErr Dict
  | obj kvs => .ok kvs
  | _ => .error .attributeError

/-- `isinstance(x, int)`, with its value: booleans are integers. -/
def asInt : Json → Option Int
  | int i => some i
  | bool b => some (if b then 1 else 0)
  | _ => none

end Json

/-! ## Dictionaries -/

/-- Assignment to a key: in place, or at the end when the key is new. -/
def setKey {α : Type} : List (Str × α) → Str → α → List (Str × α)
  | [], k, v => [(k, v)]
  | (l, w) :: rest, k, v => if l = k then (k, v) :: rest else (l, w) :: setKey rest k v

namespace Dict

/-- `d.get(k)`. -/
def get (d : Dict) (k : Str) : Json := (d.lookup k).getD .null

/-- `d.get(k, x)`. -/
def getOr (d : Dict) (k : Str) (x : Json) : Json := (d.lookup k).getD x

/-- `d[k] = v`. -/
abbrev set (d : Dict) (k : Str) (v : Json) : Dict := setKey d k v

/-- `d.update(e)`. -/
def update (d e : Dict) : Dict := e.foldl (fun d kv => d.set kv.1 kv.2) d

/-- `d[k]`. -/
def item (d : Dict) (k : Str) : Except PyErr Json :=
  match d.lookup k with
  | some v => .ok v
  | none => .error .keyError

end Dict

/-! ## `int(x)` -/

def isSpace (c : PyChar) : Bool :=
  let n := c.ord
  (0x09 ≤ n && n ≤ 0x0d) || (0x1c ≤ n && n ≤ 0x20) || n == 0x85 || n == 0xa0 || n == 0x1680
    || (0x2000 ≤ n && n ≤ 0x200a) || n == 0x2028 || n == 0x2029 || n == 0x202f || n == 0x205f
    || n == 0x3000

/-- The zeros of the Unicode decimal digits (category Nd). -/
def digitZeros : List Nat :=
  [0x30, 0x660, 0x6f0, 0x7c0, 0x966, 0x9e6, 0xa66, 0xae6, 0xb66, 0xbe6, 0xc66, 0xce6, 0xd66, 0xde6,
   0xe50, 0xed0, 0xf20, 0x1040, 0x1090, 0x17e0, 0x1810, 0x1946, 0x19d0, 0x1a80, 0x1a90, 0x1b50,
   0x1bb0, 0x1c40, 0x1c50, 0xa620, 0xa8d0, 0xa900, 0xa9d0, 0xa9f0, 0xaa50, 0xabf0, 0xff10, 0x104a0,
   0x10d30, 0x11066, 0x110f0, 0x11136, 0x111d0, 0x112f0, 0x11450, 0x114d0, 0x11650, 0x116c0,
   0x11730, 0x118e0, 0x11950, 0x11c50, 0x11d50, 0x11da0, 0x11f50, 0x16a60, 0x16ac0, 0x16b50,
   0x1d7ce, 0x1d7d8, 0x1d7e2, 0x1d7ec, 0x1d7f6, 0x1e140, 0x1e2f0, 0x1e4f0, 0x1e950, 0x1fbf0]

def digitValue (c : PyChar) : Option Nat :=
  (digitZeros.find? fun z => z ≤ c.ord && c.ord < z + 10).map (c.ord - ·)

/-- `\d` of a regular expression. -/
def isDecimal (c : PyChar) : Bool := (digitValue c).isSome

/-- Digits with single underscores between them. -/
def parseDigits : List PyChar → Nat → Option Nat
  | [], acc => some acc
  | .scalar '_' :: c :: rest, acc => do parseDigits rest (10 * acc + (← digitValue c))
  | c :: rest, acc => do parseDigits rest (10 * acc + (← digitValue c))

def parseNat : List PyChar → Option Nat
  | [] => none
  | c :: rest => do parseDigits rest (← digitValue c)

/-- `int(s)` of a text, without the limit on its length. -/
def parseInt (s : Str) : Option Int :=
  let body := ((s.dropWhile isSpace).reverse.dropWhile isSpace).reverse
  match body with
  | .scalar '-' :: rest => (parseNat rest).map fun n => -(n : Int)
  | .scalar '+' :: rest => (parseNat rest).map Int.ofNat
  | rest => (parseNat rest).map Int.ofNat

/-- `int(s)` of a text: at most `sys.get_int_max_str_digits()` digits. -/
def intText (s : Str) : Option Int := if 4300 < s.countP isDecimal then none else parseInt s

namespace Json

/-- `int(x)`. -/
def toInt : Json → Except PyErr Int
  | bool b => .ok (if b then 1 else 0)
  | int i => .ok i
  | float f => f.toInt
  | str s => match intText s with
      | some i => .ok i
      | none => .error .valueError
  | _ => .error .typeError

/-- `int(x or d)`. -/
def toIntOr (x : Json) (d : Int) : Except PyErr Int := (x.or (.int d)).toInt

end Json

/-! ## `str(x)` -/

def hexDigits (width n : Nat) : List Char :=
  let ds := Nat.toDigits 16 n
  List.replicate (width - ds.length) '0' ++ ds

/-- The assigned code points of the categories `C` and `Z`, except the blank. -/
def nonPrintable : List (Nat × Nat) :=
  [(0, 0x1f), (0x7f, 0xa0), (0xad, 0xad), (0x600, 0x605), (0x61c, 0x61c), (0x6dd, 0x6dd), (0x70f, 0x70f),
    (0x890, 0x891), (0x8e2, 0x8e2), (0x1680, 0x1680), (0x180e, 0x180e), (0x2000, 0x200f), (0x2028, 0x202f),
    (0x205f, 0x206f), (0x3000, 0x3000), (0xe000, 0xf8ff), (0xfeff, 0xfeff), (0xfff9, 0xfffb),
    (0x110bd, 0x110bd), (0x110cd, 0x110cd), (0x13430, 0x1343f), (0x1bca0, 0x1bca3), (0x1d173, 0x1d17a),
    (0xe0001, 0xe0001), (0xe0020, 0xe007f), (0xf0000, 0xffffd), (0x100000, 0x10fffd)]

/-- `str.isprintable` of one character; the unassigned code points, which differ between versions of Unicode,
count as printable. -/
def isPrintable (c : PyChar) : Bool :=
  match c with
  | .surrogate _ => false
  | .scalar _ => !nonPrintable.any fun r => r.1 ≤ c.ord ∧ c.ord ≤ r.2

/-- One character of the `repr` of a text with quote `q`. -/
def reprChar (q : Char) (c : PyChar) : Str :=
  if c = .scalar q ∨ c = .scalar '\\' then [.scalar '\\', c]
  else if c = .scalar '\n' then py "\\n"
  else if c = .scalar '\r' then py "\\r"
  else if c = .scalar '\t' then py "\\t"
  else if isPrintable c then [c]
  else if c.ord < 0x100 then py "\\x" ++ ofChars (hexDigits 2 c.ord)
  else if c.ord < 0x10000 then py "\\u" ++ ofChars (hexDigits 4 c.ord)
  else py "\\U" ++ ofChars (hexDigits 8 c.ord)

def reprStr (s : Str) : Str :=
  let q := if PyChar.scalar '\'' ∈ s ∧ PyChar.scalar '"' ∉ s then '"' else '\''
  .scalar q :: s.flatMap (reprChar q) ++ [.scalar q]

namespace Json

mutual
def repr : Json → Str
  | null => py "None"
  | bool b => if b then py "True" else py "False"
  | int i => decimal i
  | float f => ofChars f.repr
  | str s => reprStr s
  | arr xs => py "[" ++ Str.join (py ", ") (reprList xs) ++ py "]"
  | obj kvs => py "\x7b" ++ Str.join (py ", ") (reprDict kvs) ++ py "\x7d"

def reprList : List Json → List Str
  | [] => []
  | x :: xs => repr x :: reprList xs

def reprDict : List (Str × Json) → List Str
  | [] => []
  | (k, v) :: rest => (reprStr k ++ py ": " ++ repr v) :: reprDict rest
end

/-- `str(x)`. -/
def toStr : Json → Str
  | str s => s
  | x => repr x

/-- `for y in x`. -/
def iter : Json → Except PyErr (List Json)
  | arr xs => .ok xs
  | str s => .ok (s.map fun c => str [c])
  | obj kvs => .ok (kvs.map fun kv => str kv.1)
  | _ => .error .typeError

/-- `s in x` of a text `s`. -/
def contains (s : Str) : Json → Except PyErr Bool
  | arr xs => .ok (xs.any fun x => x == str s)
  | str t => .ok (decide (s <:+: t))
  | obj kvs => .ok ((kvs.lookup s).isSome)
  | _ => .error .typeError

end Json

end Fountainer
