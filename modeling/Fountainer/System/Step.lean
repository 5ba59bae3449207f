import Fountainer.System.State

/-!
# The steps of a running server

One event is what happens between two suspension points of one coroutine: `asyncio` runs it without
interruption. An event that does not apply to the state changes nothing.
-/

namespace Fountainer

/-- What `ws` yields: a decoded value, a text that is no JSON, or a text on which `json.loads` fails
otherwise (nesting too deep, integer too long). -/
inductive Frame
  | json (j : Json)
  | invalid
  | unparsable

inductive CallbackResult
  | done | suspended | raised
  deriving DecidableEq

/-- The next thing a task does when it resumes. -/
def TaskBody.resume (b : TaskBody) (lim : Limits) (st : Shadow) (now : Clock)
    (res : Except PyErr Dict) : TaskOut TaskBody :=
  match b, res with
  | .dpRead, .ok res => { shadow := (mergeDpRead st now res).1, task := b, next := .finish }
  | .dpRead, .error _ => { shadow := st, task := b, next := .finish }
  | .fetchConfig false, _ =>
      { shadow := st, task := .fetchConfig true, next := .call (dpReadCall configNames) }
  | .fetchConfig true, .ok res =>
      { shadow := fetchConfigReply st now res, task := b, next := .finish }
  | .fetchConfig true, .error _ => { shadow := st, task := b, next := .finish }
  | .pollLogs p, res =>
      let o := p.resume st now res
      { shadow := o.shadow, written := o.written, task := .pollLogs o.task, next := o.next }
  | .pollHistory p, res =>
      let o := p.resume lim st now res
      { shadow := o.shadow, written := o.written, task := .pollHistory o.task, next := o.next }

namespace State

def setPc (s : State) (c : Nat) (pc : Pc) : State :=
  match s.conns c with
  | some x => s.setConn c { x with pc }
  | none => s

/-! ## Calls on a session -/

/-- Starts a `send` or `request` on connection `c`. -/
def startOn (s : State) (c : Nat) (call : Call) : State × Except PyErr (Option Nat) :=
  match s.conns c with
  | none => (s, .error .connectionClosed)
  | some x =>
      let (l, r) := x.link.start s.now call
      (s.setConn c { x with link := l }, r)

/-! ## Background tasks -/

def addTask (s : State) (x : Task) : State :=
  { s.setTask s.nextTask x with nextTask := s.nextTask + 1 }

/-- The tasks that `_on_connect` creates. -/
def spawnTasks (s : State) (c : Nat) : State :=
  ((s.addTask ⟨c, .fetchConfig false, .asleep (s.now + seconds 2)⟩).addTask
    ⟨c, .pollLogs { started := s.now }, .asleep (s.now + seconds 3)⟩).addTask
    ⟨c, .pollHistory .asleep, .asleep (s.now + seconds 4)⟩

/-- What a task leaves in the shadow and in the log file of device `d`. -/
def store (s : State) (d : Str) {α : Type} (o : TaskOut α) : State :=
  { s.setShadow d o.shadow with files := Function.update s.files d (s.files d ++ o.written) }

/-- Task `t` resumes and runs to its next suspension. A request that raises at once resumes the task
again; no task asks more than three times in a row. -/
def runTask (cfg : Config) (s : State) (t : Nat) (x : Task) (res : Except PyErr Dict) :
    Nat → State
  | 0 => s.setTask t { x with state := .finished }
  | fuel + 1 =>
      match s.conns x.conn with
      | none => s
      | some conn =>
          let d := conn.deviceId
          let o := x.body.resume cfg.limits (s.deviceState d) s.now res
          let s := s.store d o
          let x := { x with body := o.task }
          match o.next with
          | .finish => s.setTask t { x with state := .finished }
          | .sleep ns => s.setTask t { x with state := .asleep (s.now + ns) }
          | .call call =>
              match s.startOn x.conn call with
              | (s, .ok (some k)) => s.setTask t { x with state := .awaiting k }
              | (s, .ok none) => s.setTask t { x with state := .finished }
              | (s, .error e) => runTask cfg s t x (.error e) fuel

/-- The task that awaits request `k` of connection `c`. -/
def waiter (s : State) (c k : Nat) : Option Nat :=
  (List.range s.nextTask).find? fun t =>
    match s.tasks t with
    | some x => x.conn = c ∧ x.state = .awaiting k
    | none => false

/-- The coroutine that awaits request `k` goes on when the request has ended. -/
def settle (cfg : Config) (s : State) (c k : Nat) : State :=
  match s.conns c, s.waiter c k with
  | some conn, some t =>
      match conn.link.requests[k]?, s.tasks t with
      | some r, some x =>
          match r.phase with
          | .returned m => s.runTask cfg t x m.asDict 4
          | .raised => s.runTask cfg t x (.error .timeoutError) 4
          | _ => s
      | _, _ => s
  | _, _ => s

/-! ## Callbacks -/

/-- The callback `h` of device `d`, found under `key`, up to the message it sends. -/
def called (s : State) (c : Nat) (d : Str) (key : Str) (h : Hook) (cause : Cause) (msg : Dict)
    (shadow : Shadow) : State :=
  let s := { s.setShadow d shadow with
    hooks := s.hooks ++ [{ conn := c, key, cause, msg }] }
  if h = .onConnect then s.spawnTasks c else s

/-- Calls the callback `h`, found under `key`. -/
def callback (cfg : Config) (s : State) (c : Nat) (key : Str) (h : Hook) (cause : Cause)
    (msg : Dict) : State × CallbackResult :=
  match s.conns c with
  | none => (s, .raised)
  | some x =>
      let out := runHook cfg h (s.deviceState x.deviceId) x.link.session s.now msg
      let s := s.called c x.deviceId key h cause msg out.shadow
      match out.err, out.reply with
      | some _, _ => (s, .raised)
      | none, none => (s, .done)
      | none, some call =>
          match s.startOn c call with
          | (s, .ok _) => (s, .suspended)
          | (s, .error _) => (s, .raised)

/-- `_dispatch` of a message of connection `c`. -/
def dispatchOn (cfg : Config) (s : State) (c : Nat) (msg : Json) :
    State × CallbackResult :=
  match s.conns c with
  | none => (s, .raised)
  | some x =>
      let (l, r) := x.link.dispatch s.now (fun k => (callbackFor k).isSome) msg
      let s := s.setConn c { x with link := l }
      match r with
      | .error _ => (s, .raised)
      | .ok (.callback key) =>
          match callbackFor key, msg.asDict with
          | some h, .ok d => s.callback cfg c key h .dispatched d
          | _, _ => (s, .raised)
      | .ok _ => (s, .done)

/-! ## The handler -/

/-- The `finally` of `_handler`: only the current session is removed and reported. -/
def finish (cfg : Config) (s : State) (c : Nat) : State :=
  match s.conns c with
  | none => s
  | some x =>
      let s := s.setConn c { x with pc := .ended }
      if s.sessions x.deviceId = some c then
        let s := { s with sessions := Function.update s.sessions x.deviceId none }
        match callbackFor (py "__disconnect__") with
        | some h => (s.callback cfg c (py "__disconnect__") h .lifecycle []).1
        | none => s
      else s

/-- The handshake returns `True`: the connect hook, then the receive loop and the watchdog. -/
def handshakeDone (cfg : Config) (s : State) (c : Nat) : State :=
  match s.conns c with
  | none => s
  | some x =>
      let session := { x.link.session with lastRxMs := s.now.ms }
      let s := s.setConn c
        { x with link := { x.link with session }, pc := .live .idle false, shaken := true }
      match callbackFor (py "__connect__") with
      | none => s
      | some h =>
          match s.callback cfg c (py "__connect__") h .lifecycle [] with
          | (s, .raised) => s.finish cfg c
          | (s, _) => s

/-- The first frame of the handshake. -/
def recvHello (cfg : Config) (s : State) (c : Nat) (x : Conn) (frame : Frame) : State :=
  match frame with
  | .json (.obj d) =>
      match x.link.session.hello s.now d with
      | (session, .error _) =>
          (s.setConn c { x with link := { x.link with session }, pc := .closing }).finish cfg c
      | (session, .ok .notHello) =>
          s.setConn c
            { x with link := { x.link with session }, pc := .closing, closeCode := some 4000 }
      | (session, .ok (.rejected ack)) =>
          s.setConn c
            { x with link := Link.push { x.link with session } ack , pc := .ackSend false }
      | (session, .ok (.accepted ack)) =>
          s.setConn c
            { x with link := Link.push { x.link with session } ack , pc := .ackSend true }
  | _ => s.finish cfg c

/-- The answer to the verified session proof. -/
def answerProof (cfg : Config) (s : State) (c : Nat) (d : Dict) :
    State × CallbackResult :=
  if d.get (py "type") = .str (py "ota_check") then
    match callbackFor (py "__ota_check__") with
    | some h => s.callback cfg c (py "__ota_check__") h .lifecycle d
    | none =>
        match s.startOn c (.send (py "ota_none") [] (d.get (py "msg_id"))) with
        | (s, .ok _) => (s, .suspended)
        | (s, .error _) => (s, .raised)
  else s.dispatchOn cfg c (.obj d)

/-- The second frame of the handshake: the session proof. -/
def recvProof (cfg : Config) (s : State) (c : Nat) (x : Conn) (frame : Frame) : State :=
  match frame with
  | .json (.obj d) =>
      match x.link.session.verifyC2s d with
      | (_, .error _) => s.finish cfg c
      | (session, .ok false) =>
          s.setConn c
            { x with link := { x.link with session }, pc := .closing, closeCode := some 4004 }
      | (session, .ok true) =>
          let session := { session with negotiated := true }
          let s := s.setConn c
            { x with link := { x.link with session }, pc := .proofReply, proof := some d }
          match s.answerProof cfg c d with
          | (s, .done) => s.handshakeDone cfg c
          | (s, .suspended) => s
          | (s, .raised) => s.finish cfg c
  | _ => s.finish cfg c

/-- A frame in the receive loop: invalid JSON is discarded, an exception ends the loop. -/
def recvMessage (cfg : Config) (s : State) (c : Nat) (fired : Bool) (frame : Frame) :
    State :=
  match frame with
  | .invalid => s
  | .unparsable => s.setPc c (.live .over fired)
  | .json j =>
      match s.dispatchOn cfg c j with
      | (s, .done) => s
      | (s, .suspended) => s.setPc c (.live .replying fired)
      | (s, .raised) => s.setPc c (.live .over fired)

/-- An iteration of `_heartbeat_watchdog` decides offline. It reads the clock twice: the window is read
first, the silence `lag` later. -/
def idleTooLong (cfg : Config) (s : State) (x : Conn) (lag : Nat) : Bool :=
  (s.deviceState x.deviceId).idleTimeoutMs cfg.limits s.now <
    Clock.ms (s.now + lag) - x.link.session.lastRxMs

/-- `_handler` for a new connection, up to its first suspension. -/
def accept (cfg : Config) (s : State) (d : Str) (rand : Bytes) : State :=
  match cfg.registry.get d with
  | none => s
  | some device =>
      let s := match s.sessions d with
        | some old => match s.conns old with
            | some x => s.setConn old { x with closeRequested := true }
            | none => s
        | none => s
      let nonce := ofChars (base64 rand)
      let link : Link := { session := DeviceSession.new device cfg.authScope nonce s.now }
      { s.setConn s.nextConn { deviceId := d, link } with
        sessions := Function.update s.sessions d (some s.nextConn)
        nextConn := s.nextConn + 1 }

end State

/-! ## Events -/

/-- What can happen next. -/
inductive Step
  /-- Time passes. -/
  | tick (ns : Nat)
  /-- A connection for device `d` passes the upgrade; `rand` becomes its server nonce. -/
  | accept (d : Str) (rand : Bytes)
  | recv (c : Nat) (frame : Frame)
  /-- The connection is found closed while a frame is awaited. -/
  | lost (c : Nat)
  /-- The `ws.send` or `ws.close` that the handler awaits returns or raises. -/
  | resume (c : Nat) (ok : Bool)
  /-- `HANDSHAKE_TIMEOUT_S` has passed. -/
  | timeout (c : Nat)
  /-- The watchdog wakes up and compares; its second clock reading is `lag` after the first. -/
  | check (c lag : Nat)
  /-- `asyncio.wait` has returned: the other task is cancelled. -/
  | stop (c : Nat)
  /-- The cancelled task has ended: `finally`. -/
  | finish (c : Nat)
  /-- A control call through `FountainServer.session(d)`. -/
  | api (d : Str) (call : Call)
  /-- `app.dp_read`. -/
  | dpRead (d : Str) (names : Json)
  /-- The `ws.send` of a request returns or raises. -/
  | sendDone (c k : Nat) (ok : Bool)
  /-- The future of a request is cancelled by its timeout or its caller. -/
  | expire (c k : Nat)
  /-- A request resumes from `wait_for`. -/
  | reqDone (c k : Nat) (raises : Bool)
  /-- The sleep of a task is over. -/
  | wake (t : Nat)
  /-- A genuine device computes a MAC. -/
  | deviceSign (x : Signed)

namespace State

def lost (cfg : Config) (s : State) (c : Nat) : State :=
  match s.conns c with
  | none => s
  | some x => match x.pc with
      | .hello | .proof => s.finish cfg c
      | .live .idle fired => s.setPc c (.live .over fired)
      | _ => s

def resume (cfg : Config) (s : State) (c : Nat) (ok : Bool) : State :=
  match s.conns c with
  | none => s
  | some x => match x.pc with
      | .ackSend true => if ok then s.setPc c .proof else s.finish cfg c
      | .ackSend false =>
          if ok then s.setConn c { x with pc := .closing, closeCode := some 4004 }
          else s.finish cfg c
      | .proofReply => if ok then s.handshakeDone cfg c else s.finish cfg c
      | .closing => s.finish cfg c
      | .live .replying fired => s.setPc c (.live (if ok then .idle else .over) fired)
      | _ => s

def recv (cfg : Config) (s : State) (c : Nat) (frame : Frame) : State :=
  match s.conns c with
  | none => s
  | some x => match x.pc with
      | .hello => s.recvHello cfg c x frame
      | .proof => s.recvProof cfg c x frame
      | .live .idle fired => s.recvMessage cfg c fired frame
      | _ => s

def timeout (s : State) (c : Nat) : State :=
  match s.conns c with
  | none => s
  | some x => match x.pc with
      | .hello | .proof => s.setConn c { x with pc := .closing, closeCode := some 4000 }
      | _ => s

def check (cfg : Config) (s : State) (c lag : Nat) : State :=
  match s.conns c with
  | none => s
  | some x => match x.pc with
      | .live loop false => if s.idleTooLong cfg x lag then s.setPc c (.live loop true) else s
      | _ => s

def stop (s : State) (c : Nat) : State :=
  match s.conns c with
  | none => s
  | some x => match x.pc with
      | .live loop fired =>
          if fired ∨ loop = .over then
            s.setConn c { x with pc := .cancelling, closeRequested := x.closeRequested || fired }
          else s
      | _ => s

def modLink (s : State) (c : Nat) (f : Link → Link) : State :=
  match s.conns c with
  | none => s
  | some x => s.setConn c { x with link := f x.link }

/-- One step of the server. -/
def step (cfg : Config) (s : State) : Step → State
  | .tick ns => { s with now := s.now + ns }
  | .accept d rand => s.accept cfg d rand
  | .recv c frame => s.recv cfg c frame
  | .lost c => s.lost cfg c
  | .resume c ok => s.resume cfg c ok
  | .timeout c => s.timeout c
  | .check c lag => s.check cfg c lag
  | .stop c => s.stop c
  | .finish c => match s.conns c with
      | some x => if x.pc = .cancelling then s.finish cfg c else s
      | none => s
  | .api d call => match s.sessions d with
      | some c => (s.startOn c call).1
      | none => s
  | .dpRead d names => match s.sessions d with
      | some c => match s.startOn c (dpReadCall names) with
          | (s, .ok (some k)) => s.addTask ⟨c, .dpRead, .awaiting k⟩
          | (s, _) => s
      | none => s
  | .sendDone c k ok => (s.modLink c (·.sendDone k ok)).settle cfg c k
  | .expire c k => s.modLink c (·.expire k)
  | .reqDone c k raises => (s.modLink c (·.wake k raises)).settle cfg c k
  | .wake t => match s.tasks t with
      | some x => match x.state with
          | .asleep u => if u ≤ s.now then s.runTask cfg t x (.ok []) 4 else s
          | _ => s
      | none => s
  | .deviceSign x => { s with deviceSigned := s.deviceSigned ++ [x] }

end State

end Fountainer
