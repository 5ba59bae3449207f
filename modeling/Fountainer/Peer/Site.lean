import Fountainer.App.Upgrade
import Fountainer.Library.View
import Fountainer.Peer.Authority
import Fountainer.System.Sessions

/-!
# The gates of the installation

The admin interface and the upgrade stand before the server: control calls come from requests to the one,
and connections from the other.
-/

namespace Fountainer

/-! ## Requests to the admin interface -/

inductive Method
  | get | post | other
  deriving DecidableEq

structure WebRequest where
  method : Method
  path : Str
  cookie : Option Str
  /-- What `request.json()` gives. -/
  json : Except PyErr Json

namespace WebRequest

/-- The routes of `_build` to the calls that send signed messages. -/
def api (r : WebRequest) : Option AdminApi :=
  if r.method ≠ .post then none
  else if r.path = py "/api/command" then some .command
  else if r.path = py "/api/dp_write" then some .dpWrite
  else if r.path = py "/api/ota_cancel" then some .otaCancel
  else none

/-- `api_dp_read`: the device and the names. -/
def apiDpRead (data : Json) : Except PyErr (Json × Json) := do
  let data ← data.asDict
  return (data.get (py "device_id"), (data.get (py "names")).or (.arr []))

/-- What the handler of a request makes the server do. A device that is no text has no session. -/
def control (r : WebRequest) : Option Step :=
  match r.json, r.api with
  | .ok data, some a => match a.handle data with
      | .ok (some (.str d, call)) => some (.api d call)
      | _ => none
  | .ok data, none =>
      if r.method = .post ∧ r.path = py "/api/dp_read" then
        match apiDpRead data with
        | .ok (.str d, names) => some (.dpRead d names)
        | _ => none
      else none
  | .error _, _ => none

theorem control_cases {r : WebRequest} {e : Step} (h : r.control = some e) :
    (∃ a data d call, r.json = .ok data ∧ AdminApi.handle a data = .ok (some (.str d, call)) ∧ r.api = some a ∧
        e = .api d call) ∨
      ∃ d names, e = .dpRead d names := by
  unfold control at h
  split at h
  · rename_i data a hdata hapi
    split at h
    · rename_i d call hhandle
      cases h
      exact .inl ⟨a, data, d, call, hdata, hhandle, hapi, rfl⟩
    · cases h
  · split at h
    · split at h
      · cases h
        exact .inr ⟨_, _, rfl⟩
      · cases h
    · cases h
  · cases h

end WebRequest

/-- What a request makes the server do, behind `_auth_mw`. -/
def AdminWeb.grants {T : Type} [LinearOrder T] [Zero T] (w : AdminWeb T) (r : WebRequest) : Option Step :=
  if AdminWeb.isOpen r.path ∨ (w.authed r.cookie).1 then r.control else none

namespace AdminWeb

variable {T : Type} [LinearOrder T] [Zero T] {w : AdminWeb T} {r : WebRequest} {e : Step}

theorem grants_control (h : w.grants r = some e) : r.control = some e := by
  unfold grants at h
  split at h
  · exact h
  · cases h

/-- A control call needs a session: the open paths have none. -/
theorem grants_authed {d : Str} {call : Call} (h : w.grants r = some (.api d call)) :
    (w.authed r.cookie).1 = true := by
  unfold grants at h
  split at h
  · rename_i hopen
    refine hopen.resolve_left fun hpath => ?_
    rcases WebRequest.control_cases h with ⟨a, -, -, -, -, -, hapi, -⟩ | ⟨_, _, he⟩
    · unfold WebRequest.api at hapi
      split at hapi
      · cases hapi
      · split at hapi
        · rename_i heq
          rw [heq] at hpath
          exact absurd hpath (by decide)
        · split at hapi
          · rename_i heq
            rw [heq] at hpath
            exact absurd hpath (by decide)
          · split at hapi
            · rename_i heq
              rw [heq] at hpath
              exact absurd hpath (by decide)
            · cases hapi
    · cases he
  · cases h

end AdminWeb

/-! ## The installation -/

structure Installation (T : Type) where
  cfg : Config
  account : Account T
  /-- The network locations that `urlsplit` accepts. -/
  netlocOk : Str → Bool

structure Site (T : Type) [LE T] [Zero T] where
  web : AdminWeb T
  world : World

inductive SiteStep (T : Type)
  | clock (t : T)
  | login (user pw token : Str)
  | request (r : WebRequest)
  | upgrade (path : Str) (authz : Except PyErr Str) (rand : Bytes)
  | world (e : WorldStep)

/-- The steps that only a gate brings about. -/
def WorldStep.gated : WorldStep → Bool
  | .server (.accept _ _) | .server (.api _ _) | .server (.dpRead _ _) => true
  | _ => false

/-- What the admin interface does in a step. -/
def SiteStep.visits {T : Type} : SiteStep T → List (WebStep T)
  | .clock t => [.tick t]
  | .login user pw token => [.login user pw token]
  | .request r => [.request (r.method = .get) r.path r.cookie]
  | _ => []

/-- All visits up to the end of a run, those to earlier processes first. -/
def visitsAfter {T : Type} (past : List (WebStep T)) (es : List (SiteStep T)) : List (WebStep T) :=
  past ++ [.restart] ++ es.flatMap SiteStep.visits

/-- The device that an upgrade connects. -/
def SiteStep.admits {T : Type} (k : Installation T) : SiteStep T → Option Str
  | .upgrade path authz _ => Fountainer.upgrade k.cfg.registry k.netlocOk path authz
  | _ => none

namespace Site

variable {T : Type} [LinearOrder T] [Zero T] [Add T]

/-- What server, network and device do in a step. -/
def moves (k : Installation T) (w : Site T) : SiteStep T → List WorldStep
  | .request r => (w.web.grants r).toList.map .server
  | .upgrade path authz rand =>
      (upgrade k.cfg.registry k.netlocOk path authz).toList.map fun d => .server (.accept d rand)
  | .world e => if e.gated then [] else [e]
  | _ => []

def step (k : Installation T) (w : Site T) (e : SiteStep T) : Site T where
  web := Run.run (AdminWeb.step k.account) w.web e.visits
  world := Run.run (World.step k.cfg) w.world (w.moves k e)

/-- A process that has just been started, after the visits to earlier ones. -/
def start (k : Installation T) (t₀ : {t : T // 0 ≤ t}) (past : List (WebStep T)) (t : Nat) (d : SimulatedDevice) :
    Site T where
  web := AdminWeb.after k.account t₀ (past ++ [.restart])
  world := World.start t d

variable (k : Installation T) (t₀ : {t : T // 0 ≤ t}) (past : List (WebStep T)) (t : Nat) (d : SimulatedDevice)

/-- The state after a run. -/
abbrev after (es : List (SiteStep T)) : Site T := Run.run (step k) (start k t₀ past t d) es

/-- What server, network and device do in a run. -/
abbrev trace (es : List (SiteStep T)) : List WorldStep :=
  Run.view (step k) (moves k) (start k t₀ past t d) es

theorem world_after (es : List (SiteStep T)) :
    (after k t₀ past t d es).world = World.after k.cfg t d (trace k t₀ past t d es) := by
  refine Run.unwinding (R := fun (w : Site T) v => w.world = v) ?_ rfl es
  rintro w v e rfl
  rfl

theorem after_snoc (es : List (SiteStep T)) (e : SiteStep T) :
    after k t₀ past t d (es ++ [e]) = (after k t₀ past t d es).step k e := Run.run_append ..

theorem trace_snoc (es : List (SiteStep T)) (e : SiteStep T) :
    trace k t₀ past t d (es ++ [e]) = trace k t₀ past t d es ++ (after k t₀ past t d es).moves k e := by
  rw [trace, Run.view_append, Run.view, Run.view, List.append_nil]

theorem web_after (es : List (SiteStep T)) :
    (after k t₀ past t d es).web = AdminWeb.after k.account t₀ (visitsAfter past es) := by
  induction es using List.reverseRecOn with
  | nil => rw [visitsAfter, List.flatMap_nil, List.append_nil]; rfl
  | append_singleton es e ih =>
      have hvisits : visitsAfter past (es ++ [e]) = visitsAfter past es ++ e.visits := by
        simp [visitsAfter]
      rw [after_snoc, hvisits, AdminWeb.after, Run.run_append, ← AdminWeb.after, ← ih]
      rfl

end Site

/-! ## Connections -/

/-- The device of every connection, oldest first. -/
def State.devices (s : State) : List (Option Str) :=
  (List.range s.nextConn).map fun c => (s.conns c).map Conn.deviceId

theorem State.devices_congr {s s' : State} (hnext : s'.nextConn = s.nextConn)
    (hconns : ∀ c, (s'.conns c).map Conn.deviceId = (s.conns c).map Conn.deviceId) : s'.devices = s.devices := by
  simp only [devices, hnext, hconns]

theorem Micro.devices {cfg : Config} {s₀ s s' : State} {e : Step} (hm : Micro cfg s₀ e s s')
    (he : ∀ d rand, e ≠ .accept d rand) : s'.devices = s.devices := by
  refine State.devices_congr ?_ fun c => ?_
  · cases hm with
    | accept he' => exact absurd he' (he _ _)
    | connected hx hpc hc => exact State.called_nextConn ..
    | finished hx hpc he' => exact State.finish_nextConn ..
    | called hx hcall => exact State.called_nextConn ..
    | _ => rfl
  · have hupdate := hm.update c
    generalize s'.conns c = o at hupdate
    cases hupdate with
    | same hc => rw [hc]
    | new he' => exact absurd he' (he _ _)
    | replaced hx => rw [hx]; rfl
    | step hx hstep => rw [hx, Option.map_some, Option.map_some, hstep.grows.deviceId]
    | shaken hx => rw [hx]; rfl
    | ended hx => rw [hx]; rfl

theorem State.step_devices (cfg : Config) (s : State) {e : Step} (he : ∀ d rand, e ≠ .accept d rand) :
    (s.step cfg e).devices = s.devices :=
  Run.star_invariant (P := fun s' => s'.devices = s.devices) (fun _ _ hm hs => (hm.devices he).trans hs)
    (step_chain cfg s e) rfl

theorem State.addConn_devices (s : State) (x : Conn) (sessions : Str → Option Nat) :
    State.devices { s.setConn s.nextConn x with sessions, nextConn := s.nextConn + 1 } =
      s.devices ++ [some x.deviceId] := by
  have hold : ∀ c ∈ List.range s.nextConn, ((s.setConn s.nextConn x).conns c).map Conn.deviceId =
      (s.conns c).map Conn.deviceId := by
    intro c hc
    rw [setConn_ne _ _ _ (Nat.ne_of_lt (List.mem_range.mp hc))]
  simp only [devices, List.range_succ, List.map_append, List.map_cons, List.map_nil, setConn_self, Option.map_some]
  rw [List.map_congr_left hold]

/-- An accepted connection of a registered device comes last. -/
theorem State.accept_devices {cfg : Config} {s : State} {d : Str} (hd : (cfg.registry.get d).isSome = true)
    (rand : Bytes) : (s.accept cfg d rand).devices = s.devices ++ [some d] := by
  obtain ⟨device, hdevice⟩ := Option.isSome_iff_exists.mp hd
  unfold accept
  rw [hdevice]
  dsimp only
  cases hold : s.sessions d with
  | none => exact addConn_devices s _ _
  | some old =>
      dsimp only
      cases hx : s.conns old with
      | none => exact addConn_devices s _ _
      | some x =>
          refine (addConn_devices (s.setConn old { x with closeRequested := true }) _ _).trans ?_
          refine congrArg (· ++ [some d]) (devices_congr rfl fun c => ?_)
          by_cases hc : c = old
          · subst hc
            rw [setConn_self, hx]
            rfl
          · rw [setConn_ne _ _ _ hc]

/-- A step of the world that no gate brings about opens no connection. -/
theorem World.step_devices (cfg : Config) (w : World) {e : WorldStep} (he : e.gated = false) :
    (w.step cfg e).server.devices = w.server.devices := by
  have hrun : ∀ (es : List Step) (s : State), (∀ e ∈ es, ∀ d rand, e ≠ .accept d rand) →
      (Run.run (State.step cfg) s es).devices = s.devices := by
    intro es
    induction es with
    | nil => exact fun s _ => rfl
    | cons e es ih =>
        intro s hes
        rw [Run.run_cons, ih _ fun e he => hes e (List.mem_cons_of_mem _ he)]
        exact State.step_devices cfg s (hes e List.mem_cons_self)
  refine hrun _ _ fun e' he' d rand heq => ?_
  cases e with
  | server e =>
      rw [serverSteps, List.mem_singleton] at he'
      rw [← he', heq] at he
      cases he
  | device e =>
      obtain ⟨y, -, hy⟩ := List.mem_map.mp he'
      rw [heq] at hy
      cases hy

theorem State.devices_get {s : State} {c : Nat} {d : Str} (h : s.devices[c]? = some (some d)) :
    ∃ x, s.conns c = some x ∧ x.deviceId = d := by
  obtain ⟨hlt, hc⟩ := List.getElem?_eq_some_iff.mp h
  simp only [devices, List.getElem_map, List.getElem_range] at hc
  exact Option.map_eq_some_iff.mp hc

/-- The session of a device is one of its connections. -/
theorem State.devices_of_session {cfg : Config} {t : Nat} {es : List Step} {c : Nat} {d : Str}
    (hc : (after cfg t es).sessions d = some c) : (after cfg t es).devices[c]? = some (some d) := by
  obtain ⟨x, hx, hd, -⟩ := newest_after cfg t es d c hc
  have hlt := numbered_after cfg t es c x hx
  simp [devices, List.getElem?_map, List.getElem?_range hlt, hx, hd]

theorem State.routed_nil {cfg : Config} (c : Nat) (s : State) {es : List Step} (h : ∀ d call, .api d call ∉ es) :
    routed cfg c s es = [] := by
  induction es generalizing s with
  | nil => rfl
  | cons e es ih =>
      rw [routed, ih _ fun d call hmem => h d call (List.mem_cons_of_mem _ hmem), List.append_nil]
      cases e with
      | api d call => exact absurd List.mem_cons_self (h d call)
      | _ => rfl

/-- The device makes no control calls. -/
theorem World.api_mem_trace {cfg : Config} {w : World} {es : List WorldStep} {d : Str} {call : Call}
    (h : .api d call ∈ traceFrom cfg w es) : .server (.api d call) ∈ es := by
  rcases mem_traceFrom h with h | ⟨y, hy⟩
  · exact h
  · cases hy

namespace Site

variable {T : Type} [LinearOrder T] [Zero T] [Add T]

theorem step_devices (k : Installation T) (w : Site T) (e : SiteStep T) :
    (w.step k e).world.server.devices =
      w.world.server.devices ++ ([e].filterMap (SiteStep.admits k)).map some := by
  have hone : ∀ e' : Step, (Run.run (World.step k.cfg) w.world [.server e']).server.devices =
      (w.world.server.step k.cfg e').devices := fun _ => rfl
  cases e with
  | clock t => exact (List.append_nil _).symm
  | login user pw token => exact (List.append_nil _).symm
  | request r =>
      refine Eq.trans ?_ (List.append_nil _).symm
      rw [step, moves]
      cases hgrants : w.web.grants r with
      | none => rfl
      | some e' =>
          refine (hone e').trans (State.step_devices _ _ fun d rand he => ?_)
          rcases WebRequest.control_cases (AdminWeb.grants_control hgrants) with
            ⟨_, _, _, _, _, _, _, rfl⟩ | ⟨_, _, rfl⟩
          · cases he
          · cases he
  | upgrade path authz rand =>
      rw [step, moves]
      cases hup : upgrade k.cfg.registry k.netlocOk path authz with
      | none =>
          refine Eq.trans rfl ?_
          simp [SiteStep.admits, hup]
      | some d =>
          obtain ⟨-, -, device, header, hget, -⟩ := upgrade_iff.mp hup
          have hsome : (k.cfg.registry.get d).isSome = true := by
            rw [hget]
            rfl
          refine ((hone (.accept d rand)).trans (State.accept_devices hsome rand)).trans ?_
          simp [SiteStep.admits, hup]
  | world e =>
      refine Eq.trans ?_ (List.append_nil _).symm
      rw [step, moves]
      cases hgated : e.gated with
      | true => rfl
      | false => exact World.step_devices k.cfg w.world hgated

/-- The connections of the server are the upgrades that pass, in their order; and one passes exactly when it
names a registered device and shows the token of this device. -/
theorem connections_admitted (k : Installation T) (t₀ : {t : T // 0 ≤ t}) (past : List (WebStep T)) (t : Nat)
    (d : SimulatedDevice) (es : List (SiteStep T)) :
    (after k t₀ past t d es).world.server.devices = (es.filterMap (SiteStep.admits k)).map some ∧
      ∀ path authz d', upgrade k.cfg.registry k.netlocOk path authz = some d' ↔
        pathDevice k.netlocOk path = .ok (some d') ∧ d' ≠ [] ∧ ∃ device header,
          k.cfg.registry.get d' = some device ∧ authz = .ok header ∧ device.shownBy header ∧
            (device.bearerToken.all fun c => c.ord < 0x80) = true := by
  refine ⟨?_, fun path authz d' => upgrade_iff⟩
  induction es using List.reverseRecOn with
  | nil => rfl
  | append_singleton es e ih =>
      rw [after_snoc, List.filterMap_append, List.map_append, ← ih]
      generalize after k t₀ past t d es = w
      exact step_devices k w e

/-! ## Control calls -/

/-- The token of the cookie was issued by a login, not logged out since, and has not expired. -/
def Authorised (a : Account T) (t₀ : {t : T // 0 ≤ t}) (visits : List (WebStep T)) (cookie : Option Str) : Prop :=
  ∃ t, IssuedAt a t₀ visits (AdminWeb.tokenOf cookie) t ∧ (AdminWeb.after a t₀ visits).now ≤ t + a.sessionTtl

theorem authorised_of_authed {a : Account T} {t₀ : {t : T // 0 ≤ t}} {visits : List (WebStep T)} {cookie : Option Str}
    (h : ((AdminWeb.after a t₀ visits).authed cookie).1 = true) : Authorised a t₀ visits cookie := by
  obtain ⟨exp, hget, hzero, hexp⟩ := AdminWeb.authed_iff.mp h
  obtain ⟨before, e, rest, hvisits, hissued, rfl, hrest⟩ :=
    Ledger.after_expiry.mp ((AdminWeb.after_agrees a t₀ visits).memory _ exp hget hzero hexp)
  rw [(AdminWeb.after_agrees a t₀ before).now] at hexp
  exact ⟨_, ⟨before, e, rest, hvisits, hissued, rfl, fun x hx => (hrest x hx).2⟩, hexp⟩

variable (k : Installation T) (t₀ : {t : T // 0 ≤ t}) (past : List (WebStep T)) (t : Nat) (d : SimulatedDevice)

/-- Step `i` of a run is an authorised request for a call to device `d`. -/
def RequestsAt (es : List (SiteStep T)) (i : Nat) (d : Str) (call : Call) : Prop :=
  ∃ r, es[i]? = some (.request r) ∧ r.control = some (.api d call) ∧
    Authorised k.account t₀ (visitsAfter past (es.take i)) r.cookie

theorem RequestsAt.append {k : Installation T} {t₀ : {t : T // 0 ≤ t}} {past : List (WebStep T)}
    {es : List (SiteStep T)} {i : Nat} {d : Str} {call : Call} (h : RequestsAt k t₀ past es i d call)
    (e : SiteStep T) : RequestsAt k t₀ past (es ++ [e]) i d call := by
  obtain ⟨r, hr, hcontrol, hauth⟩ := h
  have hi : i < es.length := (List.getElem?_eq_some_iff.mp hr).1
  refine ⟨r, ?_, hcontrol, ?_⟩
  · rw [List.getElem?_append_left hi]
    exact hr
  · rw [List.take_append_of_le_length hi.le]
    exact hauth

omit [Add T] in
theorem moves_api {w : Site T} {e : SiteStep T} {d : Str} {call : Call} (h : .server (.api d call) ∈ w.moves k e) :
    ∃ r, e = .request r ∧ w.web.grants r = some (.api d call) := by
  cases e with
  | request r =>
      obtain ⟨e, he, heq⟩ := List.mem_map.mp h
      cases heq
      exact ⟨r, rfl, Option.mem_toList.mp he⟩
  | upgrade path authz rand =>
      obtain ⟨d, -, heq⟩ := List.mem_map.mp h
      cases heq
  | world e =>
      rw [moves] at h
      split at h
      · cases h
      · rename_i hgated
        rw [← List.mem_singleton.mp h] at hgated
        exact absurd rfl hgated
  | clock t => cases h
  | login user pw token => cases h

/-- The control calls have the fields of a message body, with distinct keys. -/
theorem calls_fields {es : List (SiteStep T)}
    (hjson : ∀ r data, .request r ∈ es → r.json = .ok data → data.keyed = true) {d' : Str} {call : Call}
    (h : .api d' call ∈ World.trace k.cfg t d (trace k t₀ past t d es)) :
    call.Fields ∧ (Json.obj call.body).keyed = true := by
  obtain ⟨w, e, he, hmem⟩ := Run.exists_of_mem_view (World.api_mem_trace h)
  obtain ⟨r, rfl, hr⟩ := moves_api k hmem
  rcases WebRequest.control_cases (AdminWeb.grants_control hr) with
    ⟨a, data, d', call', hdata, hhandle, -, heq⟩ | ⟨_, _, heq⟩
  · cases heq
    obtain ⟨kvs, rfl, haccept⟩ := AdminApi.handle_ok hhandle
    exact ⟨AdminApi.accept_fields haccept, AdminApi.accept_keyed (hjson r _ he hdata) haccept⟩
  · cases heq

omit [Add T] in
theorem moves_device {w : Site T} {e : SiteStep T} {e' : DeviceStep} (h : .device e' ∈ w.moves k e) :
    e = .world (.device e') := by
  cases e with
  | request r =>
      obtain ⟨_, -, heq⟩ := List.mem_map.mp h
      cases heq
  | upgrade path authz rand =>
      obtain ⟨_, -, heq⟩ := List.mem_map.mp h
      cases heq
  | world e =>
      rw [moves] at h
      split at h
      · cases h
      · rw [List.mem_singleton.mp h]
  | clock t => cases h
  | login user pw token => cases h

theorem server_after (es : List (SiteStep T)) : (after k t₀ past t d es).world.server =
    State.after k.cfg t (World.trace k.cfg t d (trace k t₀ past t d es)) := by
  rw [world_after, World.server_after]

/-- The calls that a step of the installation routes to connection `c`. -/
theorem step_routed (es : List (SiteStep T)) (e : SiteStep T) (c : Nat) :
    State.routed k.cfg c (.init t) (World.trace k.cfg t d (trace k t₀ past t d (es ++ [e]))) =
      State.routed k.cfg c (.init t) (World.trace k.cfg t d (trace k t₀ past t d es)) ++
        State.routed k.cfg c (after k t₀ past t d es).world.server
          (World.traceFrom k.cfg (after k t₀ past t d es).world ((after k t₀ past t d es).moves k e)) := by
  rw [trace_snoc, World.trace, World.traceFrom_append, State.routed_append, server_after, world_after]

theorem routed_requests (es : List (SiteStep T)) (c : Nat) :
    List.SublistForall₂
      (fun call i => ∃ d', RequestsAt k t₀ past es i d' call ∧
        (after k t₀ past t d es).world.server.devices[c]? = some (some d'))
      (State.routed k.cfg c (.init t) (World.trace k.cfg t d (trace k t₀ past t d es)))
      (List.range es.length) := by
  induction es using List.reverseRecOn with
  | nil => exact .nil
  | append_singleton es e ih =>
      have hgrows : ∀ {d'}, (after k t₀ past t d es).world.server.devices[c]? = some (some d') →
          (after k t₀ past t d (es ++ [e])).world.server.devices[c]? = some (some d') := by
        intro d' hd'
        rw [after_snoc, step_devices, List.getElem?_append_left (List.getElem?_eq_some_iff.mp hd').1]
        exact hd'
      rw [step_routed, List.length_append, List.length_singleton, List.range_succ]
      refine Matching.append (Matching.mono ?_ ih) ?_
      · rintro call i ⟨d', hrequest, hd'⟩
        exact ⟨d', hrequest.append e, hgrows hd'⟩
      · by_cases hcall : ∃ r d' call, e = .request r ∧
            (after k t₀ past t d es).web.grants r = some (.api d' call)
        · obtain ⟨r, d', call, rfl, hgrants⟩ := hcall
          have hmoves : (after k t₀ past t d es).moves k (.request r) = [.server (.api d' call)] := by
            simp [moves, hgrants]
          have hrouted : State.routed k.cfg c (after k t₀ past t d es).world.server
              (World.traceFrom k.cfg (after k t₀ past t d es).world [.server (.api d' call)]) =
              (after k t₀ past t d es).world.server.routes c (.api d' call) := List.append_nil _
          rw [hmoves, hrouted, State.routes]
          split
          · rename_i hc
            refine .cons ⟨d', ⟨r, List.getElem?_concat_length, AdminWeb.grants_control hgrants, ?_⟩, hgrows ?_⟩ .nil
            · rw [List.take_left]
              refine authorised_of_authed ?_
              rw [← web_after k t₀ past t d]
              exact AdminWeb.grants_authed hgrants
            · rw [server_after] at hc ⊢
              exact State.devices_of_session hc
          · exact .nil
        · have hnone : ∀ d' call, .api d' call ∉ World.traceFrom k.cfg (after k t₀ past t d es).world
              ((after k t₀ past t d es).moves k e) := by
            intro d' call hmem
            obtain ⟨r, rfl, hgrants⟩ := moves_api k (World.api_mem_trace hmem)
            exact hcall ⟨r, d', call, rfl, hgrants⟩
          rw [State.routed_nil c _ hnone]
          exact .nil

/-- Whatever the network does, the device carries out commands and datapoint writes only for authorised requests
to the admin interface: over each connection in the order of the requests, and at most once for each. -/
theorem executed_calls_authorised (es : List (SiteStep T)) (h : World.Sound k.cfg t d (trace k t₀ past t d es))
    (hjson : ∀ r data, .request r ∈ es → r.json = .ok data → data.keyed = true)
    (hkeyed : ∀ now msg, .world (.device (.recv now (.json (.obj msg)))) ∈ es → (Json.obj msg).keyed = true) :
    ∃ origin : AcceptedFrame → Nat,
      (∀ m ∈ (after k t₀ past t d es).world.device.accepted, ∃ x,
        (after k t₀ past t d es).world.server.conns (origin m) = some x ∧ x.deviceId = d.deviceId) ∧
      (∀ c x, (after k t₀ past t d es).world.server.conns c = some x →
        List.SublistForall₂ (SameMessage x)
          ((after k t₀ past t d es).world.device.accepted.filter fun m => origin m = c) x.link.sent) ∧
      ∀ c, List.SublistForall₂ (fun m i => ∃ call, m.Executes call ∧ RequestsAt k t₀ past es i d.deviceId call)
        ((after k t₀ past t d es).world.device.accepted.filter fun m =>
          isControlCall m.frame && decide (origin m = c))
        (List.range es.length) := by
  have hframes : ∀ now msg, .device (.recv now (.json (.obj msg))) ∈ trace k t₀ past t d es →
      (Json.obj msg).keyed = true := by
    intro now msg hmem
    obtain ⟨w, e, he, hmoves⟩ := Run.exists_of_mem_view hmem
    exact hkeyed now msg (moves_device k hmoves ▸ he)
  obtain ⟨origin, hgenuine, hexecuted⟩ := World.executed_after h
    (fun d' call hmem => calls_fields k t₀ past t d hjson hmem) hframes
  rw [← world_after] at hgenuine hexecuted
  have hdevice := hgenuine.device
  have hid : (after k t₀ past t d es).world.device.deviceId = d.deviceId := by
    rw [world_after, World.device_after]
  rw [hid] at hdevice
  refine ⟨origin, hdevice, hgenuine.frames, fun c => ?_⟩
  refine Matching.mono_mem ?_ (Matching.comp (hexecuted c) (routed_requests k t₀ past t d es c))
  rintro m hm i - ⟨call, hexecutes, d', hrequest, hd'⟩
  obtain ⟨hm, hc⟩ := List.mem_filter.mp hm
  obtain ⟨x, hx, hd⟩ := hdevice m hm
  rw [of_decide_eq_true (Bool.and_eq_true_iff.mp hc).2] at hx
  obtain ⟨x', hx', hdx'⟩ := State.devices_get hd'
  cases hx.symm.trans hx'
  exact ⟨call, hexecutes, hd.symm.trans hdx' ▸ hrequest⟩

/-! ## A command of an administrator -/

/-- A run in which every step is chosen in the state before it. -/
def script (k : Installation T) (w : Site T) : List (Site T → SiteStep T) → List (SiteStep T)
  | [] => []
  | f :: fs => f w :: script k (w.step k (f w)) fs

def sampleSite : Installation Int where
  cfg := sampleConfig
  account := sampleAccount
  netlocOk _ := true

/-- The login precedes the last start of the process. -/
def samplePast : List (WebStep Int) := [.login (py "admin") (py "secret") (py "tok"), .tick 60]

def sampleCommandRequest (cookie : Option Str) : WebRequest where
  method := .post
  path := py "/api/command"
  cookie
  json := .ok sampleDuration

/-- The handshake of an upgraded connection, and a command with and without the cookie of the login. -/
def sampleSiteRun : List (SiteStep Int) :=
  script sampleSite (start sampleSite ⟨0, Int.le_refl 0⟩ samplePast 0 World.sampleSimulator)
    [fun _ => .world (.device (.connect 0 [9])),
     fun _ => .upgrade (py "/ws?device_id=fon-1") (.ok (py "Bearer " ++ sampleDevice.bearerToken)) [7],
     fun w => .world (World.toServer 0 w.world), fun _ => .world (.server (.resume 0 true)),
     fun w => .world (World.toDevice 0 0 w.world), fun w => .world (World.toServer 0 w.world),
     fun _ => .world (.server (.resume 0 true)), fun _ => .request (sampleCommandRequest none),
     fun _ => .request (sampleCommandRequest (some (py "tok"))), fun w => .world (World.toDevice 0 0 w.world)]

/-- The JSON values that a step brings. -/
def jsonValues {T : Type} : SiteStep T → List Json
  | .request r => r.json.toOption.toList
  | .world (.device (.recv _ (.json j))) => [j]
  | _ => []

theorem executed_calls_authorised_sample :
    ((after sampleSite ⟨0, Int.le_refl 0⟩ samplePast 0 World.sampleSimulator sampleSiteRun).world.device.accepted.filter
        fun m => isControlCall m.frame).length = 1 ∧
      ∃ origin : AcceptedFrame → Nat,
        (∀ m ∈ (after sampleSite ⟨0, Int.le_refl 0⟩ samplePast 0 World.sampleSimulator
            sampleSiteRun).world.device.accepted, ∃ x,
          (after sampleSite ⟨0, Int.le_refl 0⟩ samplePast 0 World.sampleSimulator sampleSiteRun).world.server.conns
            (origin m) = some x ∧ x.deviceId = World.sampleSimulator.deviceId) ∧
        (∀ c x, (after sampleSite ⟨0, Int.le_refl 0⟩ samplePast 0 World.sampleSimulator
            sampleSiteRun).world.server.conns c = some x →
          List.SublistForall₂ (SameMessage x)
            ((after sampleSite ⟨0, Int.le_refl 0⟩ samplePast 0 World.sampleSimulator
              sampleSiteRun).world.device.accepted.filter fun m => origin m = c) x.link.sent) ∧
        ∀ c, List.SublistForall₂
          (fun m i => ∃ call, m.Executes call ∧
            RequestsAt sampleSite ⟨0, Int.le_refl 0⟩ samplePast sampleSiteRun i World.sampleSimulator.deviceId call)
          ((after sampleSite ⟨0, Int.le_refl 0⟩ samplePast 0 World.sampleSimulator
            sampleSiteRun).world.device.accepted.filter fun m => isControlCall m.frame && decide (origin m = c))
          (List.range sampleSiteRun.length) := by
  have hchecks : State.Along sampleConfig (fun s e => guarded s e && cleanBodies s e) 0
        (World.trace sampleConfig 0 World.sampleSimulator
          (trace sampleSite ⟨0, Int.le_refl 0⟩ samplePast 0 World.sampleSimulator sampleSiteRun)) ∧
      World.Along sampleConfig (fun w e => World.idealMac w e && World.devicesSign w e) 0 World.sampleSimulator
        (trace sampleSite ⟨0, Int.le_refl 0⟩ samplePast 0 World.sampleSimulator sampleSiteRun) ∧
      (sampleSiteRun.all fun e => (jsonValues e).all Json.keyed) = true ∧
      ((after sampleSite ⟨0, Int.le_refl 0⟩ samplePast 0 World.sampleSimulator
        sampleSiteRun).world.device.accepted.filter fun m => isControlCall m.frame).length = 1 := by decide +kernel
  obtain ⟨hserver, hdevice, hvalues, haccepted⟩ := hchecks
  have hkeyed : ∀ e ∈ sampleSiteRun, ∀ j ∈ jsonValues e, j.keyed = true :=
    fun e he => List.all_eq_true.mp (List.all_eq_true.mp hvalues e he)
  have hjson : ∀ r data, .request r ∈ sampleSiteRun → r.json = .ok data → data.keyed = true :=
    fun r data hr hdata => hkeyed _ hr data (by simp [jsonValues, hdata, Except.toOption])
  exact ⟨haccepted,
    executed_calls_authorised sampleSite ⟨0, Int.le_refl 0⟩ samplePast 0 World.sampleSimulator sampleSiteRun
      (.of_checks hserver hdevice) hjson fun now msg hmem => hkeyed _ hmem _ (List.mem_singleton_self _)⟩

end Site

end Fountainer
