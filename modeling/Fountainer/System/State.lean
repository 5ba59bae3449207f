import Mathlib.Logic.Function.Basic
import Fountainer.System.Link

/-!
# The state of a running server

`FountainServer` with the application on top: the registry of sessions, the connections with their
handlers, the shadows, the log files and the background tasks.
-/

namespace Fountainer

/-- The receive loop of a connection. -/
inductive Loop
  | idle
  /-- Suspended in the `session.send` of a callback. -/
  | replying
  | over
  deriving DecidableEq

/-- The suspension points of `_handler`. -/
inductive Pc
  /-- The first `recv` of the handshake. -/
  | hello
  | ackSend (accepted : Bool)
  /-- The second `recv` of the handshake. -/
  | proof
  /-- The answer to the verified session proof. -/
  | proofReply
  /-- `ws.close` in a failing branch of the handshake. -/
  | closing
  /-- The receive loop and the watchdog; `fired`: the watchdog has returned. -/
  | live (loop : Loop) (fired : Bool)
  /-- The `gather` of the cancelled task. -/
  | cancelling
  | ended
  deriving DecidableEq

structure Conn where
  deviceId : Str
  link : Link
  pc : Pc := .hello
  /-- The code of `ws.close` in the handshake. -/
  closeCode : Option Nat := none
  /-- `_close_quietly` has been scheduled. -/
  closeRequested : Bool := false
  /-- The session proof, once it is verified. -/
  proof : Option Dict := none
  /-- The handshake has returned `True`. -/
  shaken : Bool := false

/-- What a background task is. -/
inductive TaskBody
  /-- `app.dp_read` of a control call. -/
  | dpRead
  /-- `asked`: the request has been made. -/
  | fetchConfig (asked : Bool)
  | pollLogs (p : LogPoll)
  | pollHistory (p : HistoryStage)

inductive TaskState
  | asleep (until_ : Clock)
  /-- Awaiting request `k` of the connection. -/
  | awaiting (k : Nat)
  | finished
  deriving DecidableEq

structure Task where
  conn : Nat
  body : TaskBody
  state : TaskState

/-- The reason why a callback runs. -/
inductive Cause
  | lifecycle | dispatched
  deriving DecidableEq

/-- A callback that has run. -/
structure HookCall where
  conn : Nat
  key : Str
  cause : Cause
  msg : Dict
  deriving DecidableEq

structure State where
  now : Clock := 0
  sessions : Str → Option Nat := fun _ => none
  conns : Nat → Option Conn := fun _ => none
  nextConn : Nat := 0
  deviceState : Str → Shadow := fun _ => {}
  /-- The log files by device id; ids that name one folder, such as `fon-1` and `./fon-1`, are told apart here. -/
  files : Str → List LogLine := fun _ => []
  tasks : Nat → Option Task := fun _ => none
  nextTask : Nat := 0
  /-- The callbacks that have run, oldest first. -/
  hooks : List HookCall := []
  /-- What genuine devices have computed a MAC over. -/
  deviceSigned : List Signed := []

namespace State

def setConn (s : State) (c : Nat) (x : Conn) : State :=
  { s with conns := Function.update s.conns c (some x) }

def setShadow (s : State) (d : Str) (st : Shadow) : State :=
  { s with deviceState := Function.update s.deviceState d st }

def setTask (s : State) (t : Nat) (x : Task) : State :=
  { s with tasks := Function.update s.tasks t (some x) }

end State

end Fountainer
