import Mathlib.Data.List.Sort
import Fountainer.Python.Json

/-!
# `json.dumps` with sorted keys, compact separators and raw non-ASCII text

With the values that `json.loads` gives, and when two of them are the same.
-/

namespace Fountainer

/-- One character inside a JSON string (`ensure_ascii=False`). -/
def jsonChar (c : PyChar) : Str :=
  if c = .scalar '"' then py "\\\""
  else if c = .scalar '\\' then py "\\\\"
  else if c = .scalar '\n' then py "\\n"
  else if c = .scalar '\r' then py "\\r"
  else if c = .scalar '\t' then py "\\t"
  else if c.ord = 0x0c then py "\\f"
  else if c.ord = 0x08 then py "\\b"
  else if c.ord < 0x20 then py "\\u" ++ ofChars (hexDigits 4 c.ord)
  else [c]

def jsonStr (s : Str) : Str := .scalar '"' :: s.flatMap jsonChar ++ [.scalar '"']

/-- `sorted(d.items())` of a dictionary with distinct keys. -/
def sortKeys (kvs : List (Str × Str)) : List (Str × Str) :=
  kvs.insertionSort fun a b => Str.le a.1 b.1

namespace Json

mutual
/-- `json.dumps(x, sort_keys=True, separators=(",", ":"), ensure_ascii=False)`. -/
def dumps : Json → Str
  | null => py "null"
  | bool b => if b then py "true" else py "false"
  | int i => decimal i
  | float f => ofChars f.jsonRepr
  | str s => jsonStr s
  | arr xs => py "[" ++ Str.join (py ",") (dumpsList xs) ++ py "]"
  | obj kvs => py "\x7b" ++ Str.join (py ",")
      ((sortKeys (dumpsDict kvs)).map fun kv => jsonStr kv.1 ++ py ":" ++ kv.2) ++ py "\x7d"

def dumpsList : List Json → List Str
  | [] => []
  | x :: xs => dumps x :: dumpsList xs

def dumpsDict : List (Str × Json) → List (Str × Str)
  | [] => []
  | (k, v) :: rest => (k, dumps v) :: dumpsDict rest
end

mutual
/-- A value as `json.loads` gives it, without lone surrogates: the keys of an object are distinct. -/
def decoded : Json → Bool
  | str s => s.encodes
  | arr xs => decodedList xs
  | obj kvs => decide (kvs.map Prod.fst).Nodup && decodedFields kvs
  | _ => true

def decodedList : List Json → Bool
  | [] => true
  | x :: xs => x.decoded && decodedList xs

def decodedFields : List (Str × Json) → Bool
  | [] => true
  | (k, v) :: rest => k.encodes && v.decoded && decodedFields rest
end

mutual
/-- No text and no key has a lone surrogate. -/
def encodes : Json → Bool
  | str s => s.encodes
  | arr xs => encodesList xs
  | obj kvs => encodesFields kvs
  | _ => true

def encodesList : List Json → Bool
  | [] => true
  | x :: xs => x.encodes && encodesList xs

def encodesFields : List (Str × Json) → Bool
  | [] => true
  | (k, v) :: rest => k.encodes && v.encodes && encodesFields rest
end

/-- The text of a number. -/
def numberText : Json → Option Str
  | int i => some (decimal i)
  | float f => some (ofChars f.jsonRepr)
  | _ => none

mutual
/-- Equal up to the order of object keys; a number counts by its text. -/
def Same : Json → Json → Prop
  | null, y => y = null
  | bool b, y => y = bool b
  | int i, y => y.numberText = some (decimal i)
  | float f, y => y.numberText = some (ofChars f.jsonRepr)
  | str s, y => y = str s
  | arr xs, y => ∃ ys, y = arr ys ∧ SameList xs ys
  | obj a, y => ∃ b, y = obj b ∧ a.length = b.length ∧ SameFields a b

def SameList : List Json → List Json → Prop
  | [], ys => ys = []
  | x :: xs, ys => ∃ y rest, ys = y :: rest ∧ Same x y ∧ SameList xs rest

/-- Every field of the first is in the second, with the same value. -/
def SameFields : List (Str × Json) → Dict → Prop
  | [], _ => True
  | (k, v) :: rest, b => (∃ w, b.lookup k = some w ∧ Same v w) ∧ SameFields rest b
end

end Json

end Fountainer
