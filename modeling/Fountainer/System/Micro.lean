import Fountainer.System.Conditions
import Fountainer.System.Lemmas.Link

/-!
# A step as a chain of updates

Everything that a step does to the state is a chain of the updates of `Micro`, each with the facts
that its place in the source guarantees. An invariant is then proved update by update.
-/

namespace Fountainer

/-! ## Updates of one connection -/

/-- The pc changes that leave the rest of the connection alone. -/
inductive Quiet : Pc → Pc → Prop
  | same (pc : Pc) : Quiet pc pc
  | acked : Quiet (.ackSend true) .proof
  | rejected : Quiet (.ackSend false) .closing
  | noHello : Quiet .hello .closing
  | noProof : Quiet .proof .closing
  | loop (l l' : Loop) (f f' : Bool) : Quiet (.live l f) (.live l' f')
  | stopped (l : Loop) (f : Bool) : Quiet (.live l f) .cancelling

/-- The body names no envelope field. -/
def Call.CleanBody (call : Call) : Prop := ∀ k ∈ call.body.map Prod.fst, k ∉ envelopeFields

/-- The connection is in a state in which messages are dispatched. -/
def Pc.dispatches (pc : Pc) : Prop := pc = .proofReply ∨ ∃ fired, pc = .live .idle fired

/-- Why a `send` or `request` starts on connection `c` in state `s` of the step `e` from `s₀`. -/
inductive Origin (s₀ : State) (e : Step) (s : State) (c : Nat) (x : Conn) : Call → Prop
  | api {d : Str} {call : Call} (he : e = .api d call) (hd : s₀.sessions d = some c) (hs : s = s₀) :
      Origin s₀ e s c x call
  | dpRead {d : Str} {names : Json} (he : e = .dpRead d names) (hd : s₀.sessions d = some c)
      (hs : s = s₀) : Origin s₀ e s c x (dpReadCall names)
  | task {t : Nat} {y : Task} {name : Str} {body : Dict} (ht : s.tasks t = some y) (hc : y.conn = c)
      (hp : y.body.polls = true) (hbody : (Call.request name body).CleanBody) :
      Origin s₀ e s c x (.request name body)
  | answer {msg : Dict} {name : Str} {body : Dict} (hpc : x.pc.dispatches)
      (hbody : (Call.send name body (msg.get (py "msg_id"))).CleanBody)
      (hmsg : x.proof = some msg ∨
        (e = .recv c (.json (.obj msg)) ∧ s₀.lookedUp c msg = some (py "__ota_check__"))) :
      Origin s₀ e s c x (.send name body (msg.get (py "msg_id")))

inductive ConnStep (s₀ : State) (e : Step) (s : State) (c : Nat) (x : Conn) : Conn → Prop
  | quiet {pc : Pc} {code : Option Nat} {req : Bool} (h : Quiet x.pc pc) :
      ConnStep s₀ e s c x { x with pc, closeCode := code, closeRequested := req }
  | helloFailed {d : Dict} {code : Option Nat} (hpc : x.pc = .hello) :
      ConnStep s₀ e s c x
        { x with link := { x.link with session := (x.link.session.hello s.now d).1 }
                 pc := .closing, closeCode := code }
  | helloAcked {d ack : Dict} {accepted : Bool} (hpc : x.pc = .hello)
      (hack : (x.link.session.hello s.now d).2 = .ok (.accepted ack) ∨
        (x.link.session.hello s.now d).2 = .ok (.rejected ack)) :
      ConnStep s₀ e s c x
        { x with link := Link.push
                   { x.link with session := (x.link.session.hello s.now d).1 } ack
                 pc := .ackSend accepted }
  | verified {d : Dict} {session : DeviceSession} (hpc : x.pc = .proof) (hs : s = s₀)
      (he : e = .recv c (.json (.obj d))) (hv : x.link.session.verifyC2s d = (session, .ok true)) :
      ConnStep s₀ e s c x
        { x with link := { x.link with session := { session with negotiated := true } }
                 pc := .proofReply, proof := some d }
  | start {call : Call} (h : Origin s₀ e s c x call) :
      ConnStep s₀ e s c x { x with link := (x.link.start s.now call).1 }
  | sendDone (k : Nat) (ok : Bool) : ConnStep s₀ e s c x { x with link := x.link.sendDone k ok }
  | expire (k : Nat) : ConnStep s₀ e s c x { x with link := x.link.expire k }
  | wake (k : Nat) (raises : Bool) : ConnStep s₀ e s c x { x with link := x.link.wake k raises }
  | dispatch {callbacks : Str → Bool} {msg : Json} (hpc : x.pc.dispatches)
      (he : e = .recv c (.json msg)) :
      ConnStep s₀ e s c x { x with link := (x.link.dispatch s.now callbacks msg).1 }

/-! ## Updates of the state -/

/-- Why the callback found under a key runs on connection `c`. -/
inductive Invoked (s₀ : State) (e : Step) (s : State) (c : Nat) (x : Conn) :
    Str → Hook → Cause → Dict → Prop
  | dispatched {key : Str} {h : Hook} {msg : Dict} (he : e = .recv c (.json (.obj msg)))
      (hkey : s₀.lookedUp c msg = some key) (hh : callbackFor key = some h)
      (hpc : x.pc.dispatches) (hrec : ∃ en ∈ x.link.received, en.at_ = s.now) :
      Invoked s₀ e s c x key h .dispatched msg
  | otaCheck {msg : Dict} (he : e.handler = some c) (hpc : x.pc = .proofReply) (hproof : x.proof = some msg)
      (htype : msg.get (py "type") = .str (py "ota_check")) :
      Invoked s₀ e s c x (py "__ota_check__") .onOtaCheck .lifecycle msg

theorem Invoked.actor {s₀ s : State} {e : Step} {c : Nat} {x : Conn} {key : Str} {h : Hook} {cause : Cause}
    {msg : Dict} (hcall : Invoked s₀ e s c x key h cause msg) : s₀.actor e = some c := by
  cases hcall with
  | dispatched he hkey hh hpc hrec =>
      rw [he]
      rfl
  | otaCheck he hpc hproof htype => exact State.actor_of_handler he

/-- With which result task `t` of connection `c` goes on. -/
inductive Resumed (s₀ : State) (e : Step) (t c : Nat) : Except PyErr Dict → Prop
  | raised (err : PyErr) : Resumed s₀ e t c (.error err)
  | slept : Resumed s₀ e t c (.ok [])
  | replied {k : Nat} {x : Conn} {r : Request} {m : Json}
      (he : (∃ ok, e = .sendDone c k ok) ∨ ∃ raises, e = .reqDone c k raises)
      (ht : s₀.waiter c k = some t) (hx : s₀.conns c = some x) (hr : x.link.requests[k]? = some r)
      (hm : r.phase = .returned m ∨ x.link.session.pending.lookup r.msgId = some (.result m)) :
      Resumed s₀ e t c m.asDict

namespace State

/-- The connection after a completed handshake. -/
def shake (s : State) (c : Nat) (x : Conn) : State :=
  s.setConn c { x with link := { x.link with session := { x.link.session with lastRxMs := s.now.ms } }
                       pc := .live .idle false, shaken := true }

/-- The step completes the handshake of connection `c`: the answer has been sent, or a verified proof is
processed and needs no answer. -/
def completes (cfg : Config) (s : State) (c : Nat) : Step → Bool
  | .resume c' ok => c' = c ∧ ok ∧ (s.conns c).any fun x => x.pc = .proofReply
  | .recv c' (.json (.obj d)) => c' = c ∧ Dict.get d (py "type") ≠ .str (py "ota_check") ∧
      s.lookedUp c d ≠ some (py "__ota_check__") ∧
      (s.conns c).any fun x => x.pc = .proof ∧ (x.link.session.verifyC2s d).2 = .ok true ∧
        Frame.processed cfg x.link.session s.now (.json (.obj d))
  | _ => false

/-- The task that goes on in the step. -/
def resumes (s : State) : Step → Option Nat
  | .wake t => some t
  | .sendDone c k _ | .reqDone c k _ => s.waiter c k
  | _ => none

theorem resumes_handler {s : State} {e : Step} {t : Nat} (h : s.resumes e = some t) : e.handler = none := by
  cases e <;> first | rfl | cases h

end State

/-- One update in the step `e` from `s₀`. -/
inductive Micro (cfg : Config) (s₀ : State) (e : Step) : State → State → Prop
  | tick {ns : Nat} (he : e = .tick ns) : Micro cfg s₀ e s₀ { s₀ with now := s₀.now + ns }
  | accept {d : Str} {rand : Bytes} (he : e = .accept d rand) :
      Micro cfg s₀ e s₀ (s₀.accept cfg d rand)
  | deviceSign {y : Signed} (he : e = .deviceSign y) :
      Micro cfg s₀ e s₀ { s₀ with deviceSigned := s₀.deviceSigned ++ [y] }
  | conn {s : State} {c : Nat} {x x' : Conn} (hx : s.conns c = some x) (hnow : s.now = s₀.now)
      (ha : s₀.actor e = some c) (h : ConnStep s₀ e s c x x') : Micro cfg s₀ e s (s.setConn c x')
  | connected {s : State} {c : Nat} {x : Conn} (hx : s.conns c = some x) (hpc : x.pc = .proofReply)
      (he : s₀.completes cfg c e = true) :
      Micro cfg s₀ e s ((s.shake c x).called c x.deviceId (py "__connect__") .onConnect .lifecycle []
        (onConnect (s.deviceState x.deviceId) x.link.session s.now).shadow)
  | finished {s : State} {c : Nat} {x : Conn} (hx : s.conns c = some x) (hpc : x.pc ≠ .ended)
      (he : e.handler = some c) : Micro cfg s₀ e s (s.finish cfg c)
  | called {s : State} {c : Nat} {x : Conn} {key : Str} {h : Hook} {cause : Cause} {msg : Dict}
      (hx : s.conns c = some x) (hcall : Invoked s₀ e s c x key h cause msg) :
      Micro cfg s₀ e s (s.called c x.deviceId key h cause msg
        (runHook cfg h (s.deviceState x.deviceId) x.link.session s.now msg).shadow)
  | stored {s : State} {t : Nat} {y : Task} {x : Conn} {b : TaskBody} {res : Except PyErr Dict}
      (ht : s.tasks t = some y) (hx : s.conns y.conn = some x) (hb : b.reads = y.body.reads)
      (hres : Resumed s₀ e t y.conn res) (ht₀ : s₀.tasks t = some y) (hnow : s.now = s₀.now)
      (hrec : ∀ x₀, s₀.conns y.conn = some x₀ →
        x₀.deviceId = x.deviceId ∧ x₀.link.received = x.link.received)
      (ha : s₀.actor e = some y.conn) :
      Micro cfg s₀ e s
        (s.store x.deviceId (b.resume cfg.limits (s.deviceState x.deviceId) s.now res))
  | task {s : State} {t : Nat} {y y' : Task} (ht : s.tasks t = some y) (ht₀ : s₀.tasks t = some y)
      (hc : y'.conn = y.conn) (hp : y'.body.polls = y.body.polls) (he : s₀.resumes e = some t)
      (ha : s₀.actor e = some y.conn)
      (hpause : y'.body.paused = true → y.body.paused = true ∨
        ∃ x, s.conns y.conn = some x ∧ (s.deviceState x.deviceId).downloading = true) :
      Micro cfg s₀ e s (s.setTask t y')
  | spawned {s : State} {y : Task} (hp : y.body.polls = false) (ha : s₀.actor e = some y.conn) : Micro cfg s₀ e s (s.addTask y)

end Fountainer
