import Fountainer.Proto.Auth

/-!
# Devices and sessions (`fountain_proto/devices.py`, `fountain_proto/session.py`)

The parts of `DeviceSession` between two suspension points: what a `send` or `request` does up to
its `ws.send`, what the handshake does with the hello and with the session proof, and what
`_dispatch` does with a message.
-/

namespace Fountainer

structure Device where
  deviceId : Str
  serial : Str
  bearerToken : Str
  authKeys : List (Str × Bytes)
  otaHold : Bool := false

/-- `key_for`. -/
def Device.keyFor (d : Device) (kid : Str) : Option Bytes := d.authKeys.lookup kid

/-- The loop of `pick_kid`: the first offered kid that the registry knows. -/
def Device.firstKnown (d : Device) : List Json → Except PyErr (Option Str)
  | [] => .ok none
  | .str k :: rest => if (d.keyFor k).isSome then .ok (some k) else d.firstKnown rest
  | k :: rest => if k.hashable then d.firstKnown rest else .error .typeError

/-- `pick_kid`. -/
def Device.pickKid (d : Device) (offered : Json) : Except PyErr (Option Str) := do
  d.firstKnown (← (offered.or (.arr [])).iter)

/-- An `asyncio.Future` in the pending table. -/
inductive Fut
  | waiting
  | result (msg : Json)
  | cancelled
  deriving DecidableEq

def Fut.done : Fut → Bool
  | .waiting => false
  | _ => true

structure DeviceSession where
  device : Device
  deviceId : Str
  authScope : Str
  serverNonce : Str
  clientNonce : Json := .null
  kid : Option Str := none
  authKey : Option Bytes := none
  replay : AntiReplay := {}
  s2cSeq : Nat := 0
  msgSeq : Nat := 0
  pending : List (Str × Fut) := []
  negotiated : Bool := false
  lastRxMs : Int

/-- `DeviceSession(ws, device, auth_scope=…)` with the given random nonce. -/
def DeviceSession.new (device : Device) (authScope serverNonce : Str) (now : Clock) :
    DeviceSession :=
  { device, deviceId := device.deviceId, authScope, serverNonce, lastRxMs := now.ms }

/-- How the handshake continues after the hello. -/
inductive HelloResult
  | notHello
  | rejected (ack : Dict)
  | accepted (ack : Dict)

/-- Where `_dispatch` takes a message. -/
inductive Dispatched
  /-- A pending request is named by `in_reply_to`; its future was still open or not. -/
  | reply (msgId : Str) (open_ : Bool)
  | callback (key : Str)
  | dropped
  deriving DecidableEq

namespace DeviceSession

/-- The parameters that outgoing and incoming MACs are bound to. -/
def params (s : DeviceSession) (d : Direction) : AuthParams :=
  { authKey := s.authKey, kid := s.kid, direction := d, deviceId := s.deviceId,
    serverNonce := s.serverNonce, clientNonce := s.clientNonce }

/-! ## Sending -/

/-- `f"s-{n}"`. -/
def msgIdText (n : Nat) : Str := py "s-" ++ decimal n

/-- `_next_msg_id`. -/
def nextMsgId (s : DeviceSession) : DeviceSession × Str :=
  ({ s with msgSeq := s.msgSeq + 1 }, msgIdText (s.msgSeq + 1))

/-- `_sign_if_needed`: the counter advances even when signing raises. -/
def signIfNeeded (s : DeviceSession) (name : Str) (msg : Dict) :
    DeviceSession × Except PyErr Dict :=
  if isControl name then
    ({ s with s2cSeq := s.s2cSeq + 1 }, sign (s.params .s2c) msg (s.s2cSeq + 1))
  else (s, .ok msg)

/-- `send` up to `ws.send`: the frame that is handed to the connection. -/
def send (s : DeviceSession) (now : Clock) (name : Str) (body : Dict) (inReplyTo : Json) :
    DeviceSession × Except PyErr Dict :=
  match buildMessage name body none none inReplyTo now with
  | .error e => (s, .error e)
  | .ok msg => s.signIfNeeded name msg

/-- `request` up to `ws.send`: the frame, and the `msg_id` under which the reply is awaited. -/
def request (s : DeviceSession) (now : Clock) (name : Str) (body : Dict) :
    DeviceSession × Except PyErr (Str × Dict) :=
  let (s, msgId) := s.nextMsgId
  match buildMessage name body none (some msgId) .null now with
  | .error e => (s, .error e)
  | .ok msg =>
      match s.signIfNeeded name msg with
      | (s, .error e) => (s, .error e)
      | (s, .ok msg) => ({ s with pending := s.pending ++ [(msgId, .waiting)] }, .ok (msgId, msg))

/-- `self._pending.pop(msg_id, None)`. -/
def popPending (s : DeviceSession) (msgId : Str) : DeviceSession :=
  { s with pending := s.pending.filter fun e => e.1 ≠ msgId }

/-- Sets the future of `msg_id` unless it is done. -/
def setFuture (s : DeviceSession) (msgId : Str) (f : Fut) : DeviceSession :=
  { s with pending := s.pending.map fun e => if e.1 = msgId ∧ !e.2.done then (e.1, f) else e }

/-! ## Handshake -/

/-- The hello branch of `handshake` up to the `hello_ack`. -/
def hello (s : DeviceSession) (now : Clock) (msg : Dict) :
    DeviceSession × Except PyErr HelloResult :=
  if msg.get (py "type") ≠ .str (py "hello") then (s, .ok .notHello) else
  let s := { s with clientNonce := msg.get (py "client_nonce") }
  let negotiation : Except PyErr (Option Str × Bool) := do
    let chosen ← s.device.pickKid ((msg.get (py "auth_kids")).or (.arr []))
    let known ← ((msg.get (py "auth_schemes")).or (.arr [])).contains authScheme
    return (chosen, known)
  let protocols : Json := .arr [.int 1, .int 2]
  match negotiation with
  | .error e => (s, .error e)
  | .ok (some kid, true) =>
      let s := { s with kid := some kid, authKey := s.device.keyFor kid }
      (s, (buildMessage (py "hello_ack")
        [(py "accepted", .bool true), (py "supported_protocols", protocols),
         (py "server_ts", .int now.ms), (py "auth_required", .bool true),
         (py "auth_scheme", .str authScheme), (py "auth_scope", .str s.authScope),
         (py "auth_kid", .str kid), (py "server_nonce", .str s.serverNonce)]
        none none (msg.get (py "msg_id")) now).map .accepted)
  | .ok _ =>
      (s, (buildMessage (py "hello_ack")
        [(py "accepted", .bool false), (py "reason", .str (py "auth_required")),
         (py "supported_protocols", protocols), (py "server_ts", .int now.ms)]
        none none (msg.get (py "msg_id")) now).map .rejected)

/-- `_verify_c2s`: `false` stands for `AuthError`. -/
def verifyC2s (s : DeviceSession) (msg : Dict) : DeviceSession × Except PyErr Bool :=
  match verify (s.params .c2s) msg with
  | .error e => (s, .error e)
  | .ok .ok =>
      let (replay, fresh) := s.replay.check (authSeq msg)
      ({ s with replay }, .ok fresh)
  | .ok _ => (s, .ok false)

/-! ## Dispatch -/

/-- `_dispatch` up to the call of the callback; `callbacks` tells which keys are registered. -/
def dispatch (s : DeviceSession) (now : Clock) (callbacks : Str → Bool) (msg : Json) :
    DeviceSession × Except PyErr Dispatched :=
  let s := { s with lastRxMs := now.ms }
  match msg.asDict with
  | .error e => (s, .error e)
  | .ok d =>
      let irt := d.get (py "in_reply_to")
      if irt.truthy ∧ !irt.hashable then (s, .error .typeError) else
      match pendingOf s irt with
      | some (msgId, fut) => (s.setFuture msgId (.result msg), .ok (.reply msgId !fut.done))
      | none =>
          match Dict.getOr d (py "type") (.str []) with
          | .str name => (s, .ok (if callbacks name then .callback name else .dropped))
          | name => if name.hashable then (s, .ok .dropped) else (s, .error .typeError)
where
  /-- `irt and irt in self._pending`, with the entry. -/
  pendingOf (s : DeviceSession) : Json → Option (Str × Fut)
    | .str i => if i = [] then none else (s.pending.lookup i).map fun f => (i, f)
    | _ => none

end DeviceSession

end Fountainer
