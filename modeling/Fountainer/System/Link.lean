import Fountainer.App.Tasks

/-!
# One session and its connection

A link is a `DeviceSession` with the `request` coroutines that have run on it and the frames that it
has handed to `ws.send`. `websockets` transmits frames in the order of the `ws.send` calls, so what
the peer receives is a sublist of these frames.
-/

namespace Fountainer

/-- How far a `request` coroutine has come. -/
inductive Phase
  /-- Inside `ws.send`. -/
  | sending
  /-- Inside `wait_for`. -/
  | waiting
  | returned (msg : Json)
  | raised
  deriving DecidableEq

def Phase.inProgress : Phase → Bool
  | .sending | .waiting => true
  | _ => false

/-- A `request` that has registered its future; `regAt` counts the messages dispatched before. -/
structure Request where
  msgId : Str
  phase : Phase
  regAt : Nat

/-- What a dispatched message brought about. -/
inductive Effect
  | completed (msgId : Str)
  | handed (key : Str)
  deriving DecidableEq

/-- A message given to `_dispatch`, with its time and effects. -/
structure Received where
  msg : Json
  at_ : Clock
  effects : List Effect
  deriving DecidableEq

structure Link where
  session : DeviceSession
  requests : List Request := []
  /-- The frames handed to `ws.send`, oldest first. -/
  sent : List Dict := []
  received : List Received := []
  /-- Everything `sign` has computed a MAC over on this session. -/
  signed : List Signed := []

namespace Link

/-- Hands a frame to `ws.send`. -/
def push (l : Link) (frame : Dict) : Link := { l with sent := l.sent ++ [frame] }

/-- The MAC inputs of a call that starts now. -/
def signedBy (s : DeviceSession) (now : Clock) : Call → List Signed
  | .send name body irt => go name (buildMessage name body none none irt now)
  | .request name body => go name (buildMessage name body none (some s.nextMsgId.2) .null now)
where
  go (name : Str) (msg : Except PyErr Dict) : List Signed :=
    match msg with
    | .ok msg => if isControl name then
        match signInput (s.params .s2c) msg (s.s2cSeq + 1) with
        | .ok x => [x]
        | .error _ => []
      else []
    | .error _ => []

/-- Starts a `send` or `request`: up to and including the call of `ws.send`. A request gives its
position in `requests`. -/
def start (l : Link) (now : Clock) (call : Call) : Link × Except PyErr (Option Nat) :=
  let l := { l with signed := l.signed ++ signedBy l.session now call }
  match call with
  | .send name body irt =>
      match l.session.send now name body irt with
      | (s, .error e) => ({ l with session := s }, .error e)
      | (s, .ok frame) => (push { l with session := s } frame, .ok none)
  | .request name body =>
      match l.session.request now name body with
      | (s, .error e) => ({ l with session := s }, .error e)
      | (s, .ok (msgId, frame)) =>
          let r : Request := { msgId, phase := .sending, regAt := l.received.length }
          (push { l with session := s, requests := l.requests ++ [r] } frame,
            .ok (some l.requests.length))

/-- The coroutine `k` leaves `request` in phase `p`; its `finally` drops the pending entry. -/
def leave (l : Link) (k : Nat) (r : Request) (p : Phase) : Link :=
  { l with session := l.session.popPending r.msgId
           requests := l.requests.set k { r with phase := p } }

/-- `ws.send` of request `k` returns or raises. -/
def sendDone (l : Link) (k : Nat) (ok : Bool) : Link :=
  match l.requests[k]? with
  | none => l
  | some r =>
      if r.phase ≠ .sending then l
      else if !ok then l.leave k r .raised
      else match l.session.pending.lookup r.msgId with
        | some (.result m) => l.leave k r (.returned m)
        | _ => { l with requests := l.requests.set k { r with phase := .waiting } }

/-- The timeout or a cancellation reaches the future of request `k`. -/
def expire (l : Link) (k : Nat) : Link :=
  match l.requests[k]? with
  | none => l
  | some r =>
      if r.phase ≠ .waiting then l
      else { l with session := l.session.setFuture r.msgId .cancelled }

/-- Request `k` resumes from `wait_for`: with the result of its future, or with an exception. -/
def wake (l : Link) (k : Nat) (raises : Bool) : Link :=
  match l.requests[k]? with
  | none => l
  | some r =>
      if r.phase ≠ .waiting then l
      else if raises then l.leave k r .raised
      else match l.session.pending.lookup r.msgId with
        | some (.result m) => l.leave k r (.returned m)
        | _ => l

/-- The futures that a dispatch has completed. -/
def completedIn : List (Str × Fut) → List (Str × Fut) → List Str
  | (i, .waiting) :: before, (_, .result _) :: after => i :: completedIn before after
  | _ :: before, _ :: after => completedIn before after
  | _, _ => []

/-- `_dispatch` up to the callback. -/
def dispatch (l : Link) (now : Clock) (callbacks : Str → Bool) (msg : Json) :
    Link × Except PyErr Dispatched :=
  let (s, r) := l.session.dispatch now callbacks msg
  let handed : List Effect := match r with
    | .ok (.callback key) => [.handed key]
    | _ => []
  let completed := (completedIn l.session.pending s.pending).map Effect.completed
  let entry : Received := { msg, at_ := now, effects := completed ++ handed }
  ({ l with session := s, received := l.received ++ [entry] }, r)

end Link

end Fountainer
