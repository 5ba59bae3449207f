import Fountainer.Library.Run
import Fountainer.Proto.Lemmas.Session
import Fountainer.Proto.Lemmas.Signing
import Fountainer.System.Step

/-!
# Runs of a server and conditions on their steps

A run starts with an empty server at some time after the epoch. The conditions are decided on the
state before a step.
-/

namespace Fountainer

namespace State

/-- A server that has just been started. -/
def init (t : Nat) : State := { now := t }

/-- The state after a run. -/
abbrev after (cfg : Config) (t : Nat) (es : List Step) : State := Run.run (step cfg) (init t) es

theorem after_snoc (cfg : Config) (t : Nat) (es : List Step) (e : Step) :
    after cfg t (es ++ [e]) = (after cfg t es).step cfg e := Run.run_append ..

/-- Every step of a run meets a condition. -/
abbrev Along (cfg : Config) (ok : State → Step → Bool) (t : Nat) (es : List Step) : Prop :=
  Run.Along (step cfg) (fun s e => ok s e = true) (init t) es

/-- The key that `_dispatch` looks up if message `d` is the next frame of connection `c`. -/
def lookedUp (s : State) (c : Nat) (d : Dict) : Option Str :=
  match s.conns c with
  | none => none
  | some x => match x.pc with
      | .live .idle _ => x.link.session.lookupKey d
      | .proof => match (x.link.session.verifyC2s d).2 with
          | .ok true => if d.get (py "type") = .str (py "ota_check") then none
              else x.link.session.lookupKey d
          | _ => none
      | _ => none

theorem Along.last {cfg : Config} {ok : State → Step → Bool} {t : Nat} {es before : List Step} {e : Step}
    (h : Along cfg ok t es) (hes : before ++ [e] <+: es) : ok (after cfg t before) e = true := by
  obtain ⟨rest, rfl⟩ := hes
  exact (Run.along_append.mp (Run.along_append.mp h).1).2.1

theorem Along.init {cfg : Config} {ok : State → Step → Bool} {t : Nat} {es before : List Step}
    (h : Along cfg ok t es) (hes : before <+: es) : Along cfg ok t before := by
  obtain ⟨rest, rfl⟩ := hes
  exact (Run.along_append.mp h).1

end State

/-- The connection whose handler a step belongs to. -/
def Step.handler : Step → Option Nat
  | .recv c _ | .lost c | .resume c _ | .finish c => some c
  | _ => none

/-- The connection on which a step acts. -/
def State.actor (s : State) : Step → Option Nat
  | .recv c _ | .lost c | .resume c _ | .timeout c | .check c _ | .stop c | .finish c
  | .sendDone c _ _ | .expire c _ | .reqDone c _ _ => some c
  | .api d _ | .dpRead d _ => s.sessions d
  | .wake t => (s.tasks t).map Task.conn
  | .tick _ | .accept _ _ | .deviceSign _ => none

theorem State.actor_of_handler {s : State} {e : Step} {c : Nat} (h : e.handler = some c) :
    s.actor e = some c := by
  cases e <;> first | exact h | cases h

/-- The keys of the lifecycle hooks. -/
def lifecycleKeys : List Str := [py "__connect__", py "__disconnect__", py "__ota_check__"]

/-- The tasks of a connected session; the other task merges the result of one control call. -/
def TaskBody.polls : TaskBody → Bool
  | .dpRead => false
  | _ => true

/-- The tasks that merge a `dp_read` reply into the shadow. -/
def TaskBody.reads : TaskBody → Bool
  | .dpRead | .fetchConfig _ => true
  | _ => false

/-- The poller sleeps for the time of a download. -/
def TaskBody.paused : TaskBody → Bool
  | .pollLogs p => p.stage = .paused
  | .pollHistory p => p = .paused
  | _ => false

/-! ## What the callbacks accept -/

/-- `_on_dp_report` finds a dictionary, and a state that can be looked up. -/
def dpReadable (msg : Dict) : Bool :=
  match (Dict.getOr msg (py "dp") (.obj [])).or (.obj []) with
  | .obj d => (Dict.get d (py "Fon_Current_State")).hashable
  | _ => false

/-- `_on_ota_check` finds its answer, and an offer has an encoding. -/
def otaAnswerable (cfg : Config) (d : Str) (now : Clock) (msg : Dict) : Bool :=
  cfg.otaHeld d || match cfg.newerThan now (Dict.getOr msg (py "current_version") (.str [])) with
    | .error _ => false
    | .ok none => true
    | .ok (some im) =>
        (canonicalBody (im.otaAvailableBody (cfg.firmwareUrl im.filename) cfg.mandatoryOta)).isOk &&
          (msg.get (py "msg_id")).fieldText

def Hook.processes (cfg : Config) (d : Str) (now : Clock) (msg : Dict) : Hook → Bool
  | .onDpReport => dpReadable msg
  | .onOtaCheck => otaAnswerable cfg d now msg
  | _ => true

/-- The frame is processed or discarded. -/
def Frame.processed (cfg : Config) (s : DeviceSession) (now : Clock) : Frame → Bool
  | .invalid => true
  | .json (.obj d) =>
      let irt := Dict.get d (py "in_reply_to")
      (!irt.truthy || irt.hashable) && ((DeviceSession.dispatch.pendingOf s irt).isSome ||
        match Dict.getOr d (py "type") (.str []) with
        | .str name => (callbackFor name).all (Hook.processes cfg s.deviceId now d)
        | name => name.hashable)
  | _ => false

/-- The verified session proof `d` can be answered. -/
def proofAnswerable (cfg : Config) (s : DeviceSession) (now : Clock) (d : Dict) : Bool :=
  if d.get (py "type") = .str (py "ota_check") then otaAnswerable cfg s.deviceId now d
  else Frame.processed cfg s now (.json (.obj d))

/-! ## A server with one device -/

def sampleDevice : Device :=
  { deviceId := py "fon-1", serial := py "S1", bearerToken := py "token"
    authKeys := [(py "k1", [1, 2, 3, 4])] }

def sampleConfig : Config :=
  { registry := ⟨[(py "fon-1", sampleDevice)], by simp [sampleDevice]⟩
    newerThan := fun _ _ => .ok none, publicBaseUrl := py "http://server" }

def sampleParams (rand : Bytes) (clientNonce : String) : AuthParams :=
  { authKey := some [1, 2, 3, 4], kid := some (py "k1"), direction := .c2s, deviceId := py "fon-1"
    serverNonce := ofChars (base64 rand), clientNonce := .str (py clientNonce) }

def sampleHello (clientNonce : String) : Frame :=
  .json (.obj [(py "type", .str (py "hello")), (py "client_nonce", .str (py clientNonce)),
    (py "auth_kids", .arr [.str (py "k1")]), (py "auth_schemes", .arr [.str authScheme])])

/-- The session proof of the device. -/
def sampleProof (rand : Bytes) (clientNonce : String) : Dict :=
  match sign (sampleParams rand clientNonce)
      [(py "v", .int 2), (py "type", .str (py "ota_check")), (py "ts", .int 0)] 1 with
  | .ok msg => msg
  | .error _ => []

/-- Connection `c` of the device, up to its receive loop. -/
def sampleHandshake (c : Nat) (rand : Bytes) (clientNonce : String) : List Step :=
  [.accept (py "fon-1") rand, .recv c (sampleHello clientNonce), .resume c true,
   .recv c (.json (.obj (sampleProof rand clientNonce))), .resume c true]

def sampleCommand : Call := commandCall (.str (py "relay_on")) []

end Fountainer
