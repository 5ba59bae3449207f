import Fountainer.Python.Json

/-!
# Request targets (`urllib.parse.unquote`, `http.server`)

A percent-encoded text is bytes, written as ASCII characters and escapes, with other characters
between them.
-/

namespace Fountainer

def percent : PyChar := .scalar '%'

def slash : PyChar := .scalar '/'

/-! ## Escapes -/

def hexValue : PyChar → Option Nat
  | .scalar c =>
      if c.isDigit then some (c.toNat - 48)
      else if 'a' ≤ c ∧ c ≤ 'f' then some (c.toNat - 87)
      else if 'A' ≤ c ∧ c ≤ 'F' then some (c.toNat - 55)
      else none
  | .surrogate _ => none

/-- The byte of an escape `%XX`. -/
def escapeByte (c a b : PyChar) : Option UInt8 :=
  if c = percent then do return UInt8.ofNat (16 * (← hexValue a) + (← hexValue b)) else none

/-- A byte of the decoded text, or a character outside ASCII. -/
abbrev Piece := UInt8 ⊕ PyChar

def piece (c : PyChar) : Piece := if c.ord < 0x80 then .inl (UInt8.ofNat c.ord) else .inr c

/-- `unquote_to_bytes` on every ASCII run of the text; an incomplete escape stands for itself. -/
def unquoteToBytes : Str → List Piece
  | c :: a :: b :: s =>
      match escapeByte c a b with
      | some v => .inl v :: unquoteToBytes s
      | none => piece c :: unquoteToBytes (a :: b :: s)
  | [c, a] => [piece c, piece a]
  | [c] => [piece c]
  | [] => []

/-! ## UTF-8 -/

/-- A sequence that has begun: its bits so far, how many bytes are missing, and the bounds of the
next one. -/
structure Sequence where
  bits : Nat
  missing : Nat
  lo : Nat := 0x80
  hi : Nat := 0xBF

def ofCode (n : Nat) : PyChar :=
  if h : 0xD800 ≤ n ∧ n < 0xE000 then .surrogate ⟨n - 0xD800, by omega⟩ else .scalar (Char.ofNat n)

/-- The sequence that a byte begins; `pass` lets surrogates through (`surrogatepass`). -/
def leadByte (pass : Bool) (b : Nat) : Option Sequence :=
  if 0xC2 ≤ b ∧ b ≤ 0xDF then some { bits := b - 0xC0, missing := 1 }
  else if b = 0xE0 then some { bits := 0, missing := 2, lo := 0xA0 }
  else if b = 0xED then some { bits := 0xD, missing := 2, hi := if pass then 0xBF else 0x9F }
  else if 0xE1 ≤ b ∧ b ≤ 0xEF then some { bits := b - 0xE0, missing := 2 }
  else if b = 0xF0 then some { bits := 0, missing := 3, lo := 0x90 }
  else if 0xF1 ≤ b ∧ b ≤ 0xF3 then some { bits := b - 0xF0, missing := 3 }
  else if b = 0xF4 then some { bits := 4, missing := 3, hi := 0x8F }
  else none

/-- What a byte outside a sequence gives: a character, `none` where it is malformed, or a sequence
that begins. -/
def firstByte (pass : Bool) (b : UInt8) : List (Option PyChar) × Option Sequence :=
  if b.toNat < 0x80 then ([some (ofCode b.toNat)], none)
  else match leadByte pass b.toNat with
    | some q => ([], some q)
    | none => ([none], none)

def nextByte (pass : Bool) (q : Sequence) (b : UInt8) : List (Option PyChar) × Option Sequence :=
  if q.lo ≤ b.toNat ∧ b.toNat ≤ q.hi then
    let bits := 64 * q.bits + (b.toNat - 0x80)
    if q.missing = 1 then ([some (ofCode bits)], none)
    else ([], some { bits := bits, missing := q.missing - 1 })
  else
    -- the sequence is malformed, and the byte is read again
    let (cs, q) := firstByte pass b
    (none :: cs, q)

/-- The decoded characters, with `none` for every malformed sequence. -/
def decodePieces (pass : Bool) : Option Sequence → List Piece → List (Option PyChar)
  | none, [] => []
  | some _, [] => [none]
  | none, .inl b :: ps => (firstByte pass b).1 ++ decodePieces pass (firstByte pass b).2 ps
  | some q, .inl b :: ps => (nextByte pass q b).1 ++ decodePieces pass (nextByte pass q b).2 ps
  | none, .inr c :: ps => some c :: decodePieces pass none ps
  | some _, .inr c :: ps => none :: some c :: decodePieces pass none ps

/-- `unquote(s, errors="surrogatepass")`, and `unquote(s)` where that raises. -/
def unquote (s : Str) : Str :=
  let strict := decodePieces true none (unquoteToBytes s)
  if strict.all Option.isSome then strict.reduceOption
  else (decodePieces false none (unquoteToBytes s)).map fun c => c.getD (.scalar '\uFFFD')

example : unquote (py "a%20b%C3%a9%zz%") = py "a bé%zz%" := by decide +kernel

example : unquote (py "%ED%A0%80.%FF") = py "���.�" := by decide +kernel

/-! ## The path of a request -/

def component (acc : List Str) (w : Str) : List Str :=
  if w = [] ∨ w = py "." then acc else if w = py ".." then acc.dropLast else acc ++ [w]

/-- The components of a normalized path (`posixpath.normpath`). -/
def normalize (ws : List Str) : List Str := ws.foldl component []

/-- The request target as `parse_request` cuts it out of the request line. -/
def requestTarget (s : Str) : Str := s.takeWhile fun c => !isSpace c

/-- A target without its query and its fragment. -/
def targetPath (s : Str) : Str :=
  (s.takeWhile fun c => c ≠ .scalar '?').takeWhile fun c => c ≠ .scalar '#'

/-- `translate_path`: the path below the served directory. -/
def translatePath (s : Str) : List Str :=
  normalize ((unquote (targetPath (requestTarget s))).splitOn slash)

example : translatePath (py "/a/../fw%2d1.0.bin?x=1 HTTP/1.1") = [py "fw-1.0.bin"] := by
  decide +kernel

/-! ## The query of a URL (`urlsplit`, `parse_qs`) -/

/-- A URL as `urlsplit` reads it: without leading control characters and blanks, and without the characters
that it takes out. -/
def stripUnsafe (url : Str) : Str :=
  (url.dropWhile fun c => c.ord ≤ 0x20).filter fun c => c ∉ py "\t\r\n"

def isSchemeChar (c : PyChar) : Bool := isAlnum c ∨ c ∈ py "+-."
where
  isAlnum : PyChar → Bool
    | .scalar c => c.isAlphanum
    | .surrogate _ => false

/-- The part behind a scheme. -/
def dropScheme (url : Str) : Str :=
  let scheme := url.takeWhile fun c => c ≠ .scalar ':'
  match url.dropWhile fun c => c ≠ .scalar ':' with
  | _ :: rest => if isAlpha scheme.head? ∧ scheme.all isSchemeChar then rest else url
  | [] => url
where
  isAlpha : Option PyChar → Bool
    | some (.scalar c) => c.isAlpha
    | _ => false

/-- The network location, where there is one. -/
def netloc (url : Str) : Option Str :=
  if (py "//").isPrefixOf url then some ((url.drop 2).takeWhile fun c => c ∉ py "/?#") else none

/-- `urlsplit(url).query`; `netlocOk` tells the network locations that `urlsplit` accepts. -/
def urlQuery (netlocOk : Str → Bool) (url : Str) : Except PyErr Str :=
  let url := dropScheme (stripUnsafe url)
  if (netloc url).all netlocOk then
    .ok (afterMark ((url.takeWhile fun c => c ≠ .scalar '#').dropWhile fun c => c ≠ .scalar '?'))
  else .error .valueError
where
  afterMark : Str → Str
    | _ :: query => query
    | [] => []

/-- `unquote(s, errors="replace")`, after blanks have been written for `+`. -/
def unquotePlus (s : Str) : Str :=
  (decodePieces false none (unquoteToBytes (s.map fun c => if c = .scalar '+' then .scalar ' ' else c))).map
    fun c => c.getD (.scalar '\uFFFD')

/-- A field `name=value` with a value. -/
def queryField (field : Str) : Option (Str × Str) :=
  match field.dropWhile fun c => c ≠ .scalar '=' with
  | _ :: c :: value => some (unquotePlus (field.takeWhile fun c => c ≠ .scalar '='), unquotePlus (c :: value))
  | _ => none

/-- `parse_qsl`. -/
def parseQsl (query : Str) : List (Str × Str) := (query.splitOn (.scalar '&')).filterMap queryField

example : urlQuery (fun _ => true) (py "/ws?device_id=fon%2D1&x=&y=a+b#z?w=1") =
      .ok (py "device_id=fon%2D1&x=&y=a+b") ∧
    parseQsl (py "device_id=fon%2D1&x=&y=a+b") = [(py "device_id", py "fon-1"), (py "y", py "a b")] := by
  decide +kernel

end Fountainer
