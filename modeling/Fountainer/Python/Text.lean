import Mathlib.Data.List.Basic

/-!
# Python text and its UTF-8 encoding

A Python `str` is a sequence of code points and may contain lone surrogates, which `encode("utf-8")`
refuses. Texts are therefore lists of `PyChar`, not Lean strings.
-/

namespace Fountainer

/-- The exceptions the modelled code can raise. -/
inductive PyErr
  | attributeError | connectionClosed | indexError | jsonDecodeError | keyError | osError
  | overflowError | timeoutError | typeError | unicodeEncodeError | valueError
  deriving DecidableEq, Repr

/-- A code point: a Unicode scalar value, or the lone surrogate `U+D800 + n`. -/
inductive PyChar
  | scalar (c : Char)
  | surrogate (n : Fin 2048)
  deriving DecidableEq, Repr

namespace PyChar

def ord : PyChar → Nat
  | scalar c => c.toNat
  | surrogate n => 0xD800 + n

end PyChar

abbrev Str := List PyChar

instance : LawfulBEq Str := inferInstance

abbrev Bytes := List UInt8

/-- A Python literal without surrogates. -/
def py (s : String) : Str := s.toList.map .scalar

def ofChars (cs : List Char) : Str := cs.map .scalar

/-- `str(i)` of an integer. -/
def decimal : Int → Str
  | .ofNat n => ofChars (Nat.toDigits 10 n)
  | .negSucc n => .scalar '-' :: ofChars (Nat.toDigits 10 (n + 1))

/-- The order of `sorted` on texts: lexicographic by code point. -/
def Str.le : Str → Str → Bool
  | [], _ => true
  | _ :: _, [] => false
  | a :: as, b :: bs => a.ord < b.ord || (a.ord == b.ord && Str.le as bs)

def PyChar.encode : PyChar → Except PyErr Bytes
  | scalar c => .ok (String.utf8EncodeChar c)
  | surrogate _ => .error .unicodeEncodeError

/-- `s.encode("utf-8")`. -/
def Str.encode : Str → Except PyErr Bytes
  | [] => .ok []
  | c :: cs => do
      let b ← c.encode
      let bs ← Str.encode cs
      return b ++ bs

def Str.encodes (t : Str) : Bool := t.encode.isOk

/-- `sep.join(texts)`. -/
def Str.join (sep : Str) (ts : List Str) : Str := sep.intercalate ts

end Fountainer
