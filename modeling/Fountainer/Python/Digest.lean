import Fountainer.Python.Text

/-!
# SHA-256, HMAC and base64

Words are natural numbers below `2 ^ 32`.
-/

namespace Fountainer

namespace Sha256

def roundConstants : List Nat :=
  [0x428a2f98, 0x71374491, 0xb5c0fbcf, 0xe9b5dba5, 0x3956c25b, 0x59f111f1, 0x923f82a4, 0xab1c5ed5,
   0xd807aa98, 0x12835b01, 0x243185be, 0x550c7dc3, 0x72be5d74, 0x80deb1fe, 0x9bdc06a7, 0xc19bf174,
   0xe49b69c1, 0xefbe4786, 0x0fc19dc6, 0x240ca1cc, 0x2de92c6f, 0x4a7484aa, 0x5cb0a9dc, 0x76f988da,
   0x983e5152, 0xa831c66d, 0xb00327c8, 0xbf597fc7, 0xc6e00bf3, 0xd5a79147, 0x06ca6351, 0x14292967,
   0x27b70a85, 0x2e1b2138, 0x4d2c6dfc, 0x53380d13, 0x650a7354, 0x766a0abb, 0x81c2c92e, 0x92722c85,
   0xa2bfe8a1, 0xa81a664b, 0xc24b8b70, 0xc76c51a3, 0xd192e819, 0xd6990624, 0xf40e3585, 0x106aa070,
   0x19a4c116, 0x1e376c08, 0x2748774c, 0x34b0bcb5, 0x391c0cb3, 0x4ed8aa4a, 0x5b9cca4f, 0x682e6ff3,
   0x748f82ee, 0x78a5636f, 0x84c87814, 0x8cc70208, 0x90befffa, 0xa4506ceb, 0xbef9a3f7, 0xc67178f2]

def wordMod : Nat := 4294967296

def rotr (x n : Nat) : Nat := (x >>> n) ||| ((x <<< (32 - n)) % wordMod)

/-- The eight working variables. -/
structure Vars where
  (a b c d e f g h : Nat)

def initial : Vars :=
  ⟨0x6a09e667, 0xbb67ae85, 0x3c6ef372, 0xa54ff53a, 0x510e527f, 0x9b05688c, 0x1f83d9ab, 0x5be0cd19⟩

def round (s : Vars) (k w : Nat) : Vars :=
  let s1 := rotr s.e 6 ^^^ rotr s.e 11 ^^^ rotr s.e 25
  let ch := (s.e &&& s.f) ^^^ ((wordMod - 1 - s.e) &&& s.g)
  let t1 := (s.h + s1 + ch + k + w) % wordMod
  let s0 := rotr s.a 2 ^^^ rotr s.a 13 ^^^ rotr s.a 22
  let maj := (s.a &&& s.b) ^^^ (s.a &&& s.c) ^^^ (s.b &&& s.c)
  ⟨(t1 + s0 + maj) % wordMod, s.a, s.b, s.c, (s.d + t1) % wordMod, s.e, s.f, s.g⟩

/-- Extends the message schedule by `n` words; the newest word stands first. -/
def schedule : Nat → List Nat → List Nat
  | 0, ws => ws
  | n + 1, ws =>
      let w15 := ws.getD 14 0
      let w2 := ws.getD 1 0
      let s0 := rotr w15 7 ^^^ rotr w15 18 ^^^ (w15 >>> 3)
      let s1 := rotr w2 17 ^^^ rotr w2 19 ^^^ (w2 >>> 10)
      schedule n (((ws.getD 15 0 + s0 + ws.getD 6 0 + s1) % wordMod) :: ws)

def bigEndianWords : List Nat → List Nat
  | a :: b :: c :: d :: rest => (a * 16777216 + b * 65536 + c * 256 + d) :: bigEndianWords rest
  | _ => []

def rounds : Vars → List Nat → List Nat → Vars
  | s, k :: ks, w :: ws => rounds (round s k w) ks ws
  | s, _, _ => s

def compress (s : Vars) (block : List Nat) : Vars :=
  let t := rounds s roundConstants (schedule 48 (bigEndianWords block).reverse).reverse
  ⟨(s.a + t.a) % wordMod, (s.b + t.b) % wordMod, (s.c + t.c) % wordMod, (s.d + t.d) % wordMod,
   (s.e + t.e) % wordMod, (s.f + t.f) % wordMod, (s.g + t.g) % wordMod, (s.h + t.h) % wordMod⟩

def bigEndian (n : Nat) : Nat → List Nat
  | 0 => []
  | k + 1 => bigEndian (n / 256) k ++ [n % 256]

def pad (m : List Nat) : List Nat :=
  m ++ 0x80 :: List.replicate ((119 - m.length % 64) % 64) 0 ++ bigEndian (8 * m.length) 8

def blocks : Nat → List Nat → Vars → Vars
  | 0, _, s => s
  | n + 1, m, s => blocks n (m.drop 64) (compress s (m.take 64))

def digestNat (m : List Nat) : List Nat :=
  let p := pad m
  let s := blocks (p.length / 64) p initial
  [s.a, s.b, s.c, s.d, s.e, s.f, s.g, s.h].flatMap (bigEndian · 4)

/-- `hashlib.sha256(m).digest()`. -/
def digest (m : Bytes) : Bytes := (digestNat (m.map UInt8.toNat)).map UInt8.ofNat

end Sha256

def hexDigit (n : Nat) : Char := "0123456789abcdef".toList.getD n '0'

/-- `b.hex()`. -/
def hexText (b : Bytes) : Str :=
  ofChars (b.flatMap fun x => [hexDigit (x.toNat / 16), hexDigit (x.toNat % 16)])

/-- `hashlib.sha256(m).hexdigest()`. -/
def sha256Hex (m : Bytes) : Str := hexText (Sha256.digest m)

/-- `hmac.new(key, m, hashlib.sha256).digest()`. -/
def hmacSha256 (key m : Bytes) : Bytes :=
  let k := if 64 < key.length then Sha256.digest key else key
  let k := k ++ List.replicate (64 - k.length) 0
  Sha256.digest (k.map (· ^^^ 0x5c) ++ Sha256.digest (k.map (· ^^^ 0x36) ++ m))

def base64Char (n : Nat) : Char :=
  "ABCDEFGHIJKLMNOPQRSTUVWXYZabcdefghijklmnopqrstuvwxyz0123456789+/".toList.getD n 'A'

/-- `base64.b64encode`. -/
def base64 : Bytes → List Char
  | a :: b :: c :: rest =>
      let n := a.toNat * 65536 + b.toNat * 256 + c.toNat
      base64Char (n / 262144) :: base64Char (n / 4096 % 64) :: base64Char (n / 64 % 64)
        :: base64Char (n % 64) :: base64 rest
  | [a, b] =>
      let n := a.toNat * 65536 + b.toNat * 256
      [base64Char (n / 262144), base64Char (n / 4096 % 64), base64Char (n / 64 % 64), '=']
  | [a] =>
      let n := a.toNat * 65536
      [base64Char (n / 262144), base64Char (n / 4096 % 64), '=', '=']
  | [] => []

end Fountainer
