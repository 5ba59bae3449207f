import Mathlib.Data.Nat.Log
import Mathlib.Data.Rat.Floor
import Fountainer.Python.Text

/-!
# Python floats

A finite double is its sign, mantissa and binary exponent; arithmetic is exact rational arithmetic
followed by rounding to the nearest double. `repr` is the shortest decimal that reads back as the
same double.
-/

namespace Fountainer

/-- A double: `± m · 2 ^ e`, an infinity or NaN. -/
inductive PyFloat
  | finite (neg : Bool) (m : Nat) (e : Int)
  | inf (neg : Bool)
  | nan
  deriving DecidableEq, Repr

/-- Round half to even. -/
def roundHalfEven (q : ℚ) : Int :=
  let r := q - ⌊q⌋
  if r < 1 / 2 then ⌊q⌋
  else if 1 / 2 < r then ⌊q⌋ + 1
  else if ⌊q⌋ % 2 = 0 then ⌊q⌋ else ⌊q⌋ + 1

/-- `⌊log₂ q⌋` of a positive rational. -/
def ilog2 (q : ℚ) : Int :=
  let k : Int := (Nat.log2 q.num.natAbs : Int) - Nat.log2 q.den
  if q < (2 : ℚ) ^ k then k - 1 else k

/-- Removes factors of two from the mantissa, so that equal doubles are equal terms. -/
def stripTwos : Nat → Nat → Int → Nat × Int
  | 0, m, e => (m, e)
  | fuel + 1, m, e => if m % 2 = 0 then stripTwos fuel (m / 2) (e + 1) else (m, e)

namespace PyFloat

/-- The nearest double. -/
def ofRat (q : ℚ) : PyFloat :=
  if q = 0 then finite false 0 0 else
  let a := |q|
  let e := max (-1074) (ilog2 a - 52)
  let m := (roundHalfEven (a / (2 : ℚ) ^ e)).toNat
  if m = 0 then finite (q < 0) 0 0
  else if (2 : ℚ) ^ (1024 : Int) ≤ m * (2 : ℚ) ^ e then inf (q < 0)
  else let (m', e') := stripTwos 64 m e; finite (q < 0) m' e'

/-- The value of a finite double. -/
def toRat : PyFloat → Option ℚ
  | finite neg m e => some ((if neg then -1 else 1) * m * (2 : ℚ) ^ e)
  | _ => none

/-- `bool(x)`. -/
def truthy : PyFloat → Bool
  | finite _ m _ => m != 0
  | _ => true

/-- `int(x)`: truncation. -/
def toInt : PyFloat → Except PyErr Int
  | finite neg m e =>
      let a := ⌊(m : ℚ) * (2 : ℚ) ^ e⌋
      .ok (if neg then -a else a)
  | inf _ => .error .overflowError
  | nan => .error .valueError

/-- `x.is_integer()`. -/
def isInteger : PyFloat → Bool
  | finite _ m e => ((m : ℚ) * (2 : ℚ) ^ e).den == 1
  | _ => false

/-- `float(i)` of an integer. -/
def ofInt (i : Int) : Except PyErr PyFloat :=
  match ofRat i with
  | inf _ => .error .overflowError
  | f => .ok f

/-- `i / d` of an integer and a positive literal. -/
def divLit (i : Int) (d : Nat) : Except PyErr PyFloat := do
  let f ← ofInt i
  match f.toRat with
  | some q => return ofRat (q / d)
  | none => return f

/-- `round(x, 3)`. -/
def round3 (f : PyFloat) : PyFloat :=
  match f.toRat with
  | some q => ofRat ((roundHalfEven (q * 1000) : ℚ) / 1000)
  | none => f

/-! ## `repr` -/

/-- The decimal exponent `k` with `10 ^ (k - 1) ≤ q < 10 ^ k`. -/
def decimalExponent (q : ℚ) : Int :=
  if 1 ≤ q then (Nat.log 10 ⌊q⌋.toNat : Int) + 1
  else 1 - (Nat.clog 10 ⌈1 / q⌉.toNat : Int)

/-- The least number of significant digits from `n` on that reads back as `f`, and these digits. -/
def shortest (f : PyFloat) (q : ℚ) (k : Int) : Nat → Nat → Nat × Nat
  | 0, n => (n, (roundHalfEven (q * (10 : ℚ) ^ ((n : Int) - k))).toNat)
  | fuel + 1, n =>
      let x := q * (10 : ℚ) ^ ((n : Int) - k)
      -- below a power of two the doubles are closer, and the nearest decimal may be one of theirs
      match [roundHalfEven x, ⌊x⌋, ⌈x⌉].find? fun d : Int => ofRat (d * (10 : ℚ) ^ (k - n)) = f with
      | some d => (n, d.toNat)
      | none => shortest f q k fuel (n + 1)

/-- Drops trailing zeros of a digit list. -/
def dropZeros (ds : List Char) : List Char := (ds.reverse.dropWhile (· == '0')).reverse

/-- The layout of `repr`: fixed notation for exponents from -4 to 15. -/
def layout (ds : List Char) (k : Int) : List Char :=
  if 0 < k ∧ k ≤ 16 then
    let n := k.toNat
    if ds.length ≤ n then ds ++ List.replicate (n - ds.length) '0' ++ ['.', '0']
    else ds.take n ++ '.' :: ds.drop n
  else if -4 < k ∧ k ≤ 0 then ['0', '.'] ++ List.replicate (-k).toNat '0' ++ ds
  else
    let x := k - 1
    let es := Nat.toDigits 10 x.natAbs
    let es := if es.length < 2 then '0' :: es else es
    (match ds with
      | [d] => [d]
      | d :: rest => d :: '.' :: rest
      | [] => []) ++ 'e' :: (if x < 0 then '-' else '+') :: es

/-- `repr(x)`; the JSON encoder writes the non-finite values as `Infinity` and `NaN`. -/
def reprWith (infinity notANumber : List Char) : PyFloat → List Char
  | finite neg m e =>
      let body :=
        if m = 0 then ['0', '.', '0'] else
        let q := (m : ℚ) * (2 : ℚ) ^ e
        let k := decimalExponent q
        let (n, d) := shortest (finite false m e) q k 16 1
        let ds := Nat.toDigits 10 d
        -- rounding up to a power of ten adds a digit
        layout (dropZeros ds) (if n < ds.length then k + 1 else k)
      if neg then '-' :: body else body
  | inf neg => if neg then '-' :: infinity else infinity
  | nan => notANumber

def repr : PyFloat → List Char := reprWith "inf".toList "nan".toList

def jsonRepr : PyFloat → List Char := reprWith "Infinity".toList "NaN".toList

end PyFloat

end Fountainer
