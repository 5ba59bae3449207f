import Fountainer.Proto.Messages
import Fountainer.Python.Canonical
import Fountainer.Python.Digest

/-!
# Message authentication (`fountain_proto/auth.py`, `fountain_proto/envelope.py`)

The MAC covers thirteen field texts joined by the unit separator.
-/

namespace Fountainer

/-- The time of a clock reading, in nanoseconds since the epoch. -/
abbrev Clock := Int

/-- `int(time.time() * 1000)`, up to the rounding of the float. -/
def Clock.ms (t : Clock) : Int := t / 1000000

theorem Clock.ms_mono {a b : Clock} (h : a ≤ b) : a.ms ≤ b.ms := Int.ediv_le_ediv (by decide) h

/-! ## Envelope -/

/-- `build_message`: the envelope fields, then the body fields on top. -/
def buildMessage (name : Str) (body : Dict) (serial : Option Str) (msgId : Option Str)
    (inReplyTo : Json) (now : Clock) : Except PyErr Dict :=
  match messageMeta name with
  | none => .error .keyError
  | some m =>
      let msg : Dict := [(py "v", .int m.wire), (py "type", .str name), (py "ts", .int now.ms)]
      let msg := match serial with
        | some s => msg.set (py "serial") (.str s)
        | none => msg
      let msg := match msgId with
        | some i => msg.set (py "msg_id") (.str i)
        | none => msg
      let msg := if inReplyTo = .null then msg else msg.set (py "in_reply_to") inReplyTo
      .ok (Dict.update msg body)

/-! ## The bytes under the MAC -/

/-- ASCII Unit Separator. -/
def unitSep : UInt8 := 0x1f

/-- The fields that do not enter the canonical body. -/
def envelopeFields : List Str :=
  [py "v", py "type", py "serial", py "ts", py "msg_id", py "in_reply_to", py "auth"]

def canonicalBody (msg : Dict) : Except PyErr Bytes :=
  Str.encode (Json.obj (msg.filter fun kv => kv.1 ∉ envelopeFields)).dumps

def bodyHashHex (msg : Dict) : Except PyErr Str := do return sha256Hex (← canonicalBody msg)

/-- The thirteen field texts, in the order of the MAC input. -/
structure MacFields where
  v : Str
  mtype : Str
  direction : Str
  deviceId : Str
  serial : Str
  ts : Str
  msgId : Str
  inReplyTo : Str
  kid : Str
  seq : Str
  serverNonce : Str
  clientNonce : Str
  bhash : Str
  deriving DecidableEq

def MacFields.toList (f : MacFields) : List Str :=
  [f.v, f.mtype, f.direction, f.deviceId, f.serial, f.ts, f.msgId, f.inReplyTo, f.kid, f.seq,
   f.serverNonce, f.clientNonce, f.bhash]

/-- Encodes every field, in order. -/
def encodeAll : List Str → Except PyErr (List Bytes)
  | [] => .ok []
  | t :: ts => do
      let b ← t.encode
      let bs ← encodeAll ts
      return b :: bs

/-- `US.join(f.encode("utf-8") for f in fields)`. -/
def joinFields (ts : List Str) : Except PyErr Bytes := do
  return [unitSep].intercalate (← encodeAll ts)

/-- A field that must be a text: anything else has no `encode`. -/
def Json.text : Json → Except PyErr Str
  | .str s => .ok s
  | _ => .error .attributeError

/-- `x or ""` as a field. -/
def Json.textOrEmpty (x : Json) : Except PyErr Str := (x.or (.str [])).text

def optText : Option Str → Json
  | some s => .str s
  | none => .null

/-- The session parameters a MAC is bound to. -/
structure AuthParams where
  authKey : Option Bytes
  kid : Option Str
  direction : Direction
  deviceId : Str
  serverNonce : Str
  clientNonce : Json

def Direction.text : Direction → Str
  | .c2s => py "c2s"
  | .s2c => py "s2c"

/-- The field texts of `mac_input`. Which of several bad fields raises first is not kept. -/
def macFields (p : AuthParams) (v mtype serial ts msgId inReplyTo kid seq : Json) (bhash : Str) :
    Except PyErr MacFields := do
  let mtype ← mtype.text
  let serial ← serial.textOrEmpty
  let msgId ← msgId.textOrEmpty
  let inReplyTo ← inReplyTo.textOrEmpty
  let kid ← kid.text
  let clientNonce ← p.clientNonce.textOrEmpty
  return { v := v.toStr, mtype, direction := p.direction.text, deviceId := p.deviceId, serial,
           ts := ts.toStr, msgId, inReplyTo, kid, seq := seq.toStr, serverNonce := p.serverNonce,
           clientNonce, bhash }

/-- `mac_input`. -/
def macInput (f : MacFields) : Except PyErr Bytes := joinFields f.toList

/-- `compute_mac`: base64 of the first 128 bits of HMAC-SHA256. -/
def computeMac (authKey : Bytes) (raw : Bytes) : Str :=
  ofChars (base64 ((hmacSha256 authKey raw).take 16))

/-! ## Signing and checking -/

/-- The field texts of a message under the session parameters. -/
def messageFields (p : AuthParams) (msg : Dict) (kid seq : Json) : Except PyErr MacFields := do
  let v ← msg.item (py "v")
  let mtype ← msg.item (py "type")
  let ts ← msg.item (py "ts")
  let bhash ← bodyHashHex msg
  macFields p v mtype (msg.get (py "serial")) ts (msg.get (py "msg_id"))
    (msg.get (py "in_reply_to")) kid seq bhash

/-- A string the MAC was computed over, with its key and fields. -/
structure Signed where
  key : Bytes
  fields : MacFields
  raw : Bytes

/-- What `sign` computes its MAC over. -/
def signInput (p : AuthParams) (msg : Dict) (seq : Int) : Except PyErr Signed := do
  let fields ← messageFields p msg (optText p.kid) (.int seq)
  let raw ← macInput fields
  match p.authKey with
  | some key => return { key, fields, raw }
  | none => .error .typeError

/-- The `auth` field of a message. -/
def authObject (kid : Json) (seq : Int) (mac : Str) : Json :=
  .obj [(py "kid", kid), (py "seq", .int seq), (py "mac", .str mac)]

/-- `sign`: adds the `auth` field. -/
def sign (p : AuthParams) (msg : Dict) (seq : Int) : Except PyErr Dict := do
  let s ← signInput p msg seq
  return msg.set (py "auth") (authObject (optText p.kid) seq (computeMac s.key s.raw))

inductive Reason
  | ok | missingAuth | kidMismatch | badSeq | macMismatch
  deriving DecidableEq, Repr

/-- `hmac.compare_digest` of two texts refuses characters outside ASCII. -/
def compareDigest (a b : Str) : Except PyErr Bool :=
  if (a ++ b).all fun c => c.ord < 0x80 then .ok (a = b) else .error .typeError

/-- `verify`: the reason is `ok` exactly when the message is accepted. -/
def verify (p : AuthParams) (msg : Dict) : Except PyErr Reason :=
  match msg.get (py "auth") with
  | .obj auth =>
      if Dict.get auth (py "kid") ≠ optText p.kid then .ok .kidMismatch
      else if (Dict.get auth (py "seq")).asInt = none then .ok .badSeq
      else do
        let kid ← Dict.item auth (py "kid")
        let raw ← macInput (← messageFields p msg kid (Dict.get auth (py "seq")))
        match p.authKey with
        | none => .error .typeError
        | some key =>
            let mac := (Dict.getOr auth (py "mac") (.str [])).toStr
            if ← compareDigest (computeMac key raw) mac then return .ok else return .macMismatch
  | _ => .ok .missingAuth

/-- The strictly increasing sequence counter of one direction. -/
structure AntiReplay where
  last : Int := 0
  deriving DecidableEq

/-- `AntiReplay.check`: adopts a larger sequence number. -/
def AntiReplay.check (r : AntiReplay) (seq : Json) : AntiReplay × Bool :=
  match seq.asInt with
  | none => (r, false)
  | some n => if n ≤ r.last then (r, false) else ({ last := n }, true)

/-- The sequence number of a message whose `auth` field is present. -/
def authSeq (msg : Dict) : Json :=
  match msg.get (py "auth") with
  | .obj auth => Dict.get auth (py "seq")
  | _ => .null

end Fountainer
