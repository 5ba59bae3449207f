import Fountainer.System.Chart
import Fountainer.System.Registry

/-!
# The sizes of the buffers

Events, log lines and samples are cut after every insertion. The alerts are not: there are as many as the
device has sent.
-/

namespace Fountainer

/-- The buffers that are cut. -/
structure Shadow.Capped (lim : Limits) (st : Shadow) : Prop where
  events : st.events.length ≤ 40
  logs : st.logs.length ≤ 200
  hist : st.hist.length ≤ lim.histMaxSamples

/-- Every buffer has at most `n` elements. -/
structure Shadow.Bounded (n : Nat) (st : Shadow) : Prop where
  events : st.events.length ≤ n
  logs : st.logs.length ≤ n
  hist : st.hist.length ≤ n
  alerts : st.alerts.length ≤ n

/-- The steps of the server, and the event of a control call that has returned (`_invoke`). -/
inductive PanelStep
  | server (e : Step)
  | report (d text : Str)

namespace State

def panel (cfg : Config) (s : State) : PanelStep → State
  | .server e => s.step cfg e
  | .report d text => s.setShadow d ((s.deviceState d).event s.now text .ok)

/-- A `device_alert` of device `d` is dispatched. -/
def alerted (s : State) (d : Str) : PanelStep → Bool
  | .server (.recv c (.json (.obj msg))) =>
      s.lookedUp c msg = some (py "device_alert") ∧ (s.conns c).any fun x => x.deviceId = d
  | _ => false

/-- The alerts of device `d` in a run. -/
def alertCount (cfg : Config) (d : Str) : State → List PanelStep → Nat
  | _, [] => 0
  | s, e :: es => (if s.alerted d e then 1 else 0) + alertCount cfg d (s.panel cfg e) es

end State

/-! ## The caps -/

theorem length_keepLast {α : Type} {n : Nat} (hn : 1 ≤ n) (xs : List α) : (keepLast n xs).length ≤ n := by
  unfold keepLast
  rw [if_neg (Nat.ne_of_gt hn), List.length_drop]
  omega

namespace Shadow

variable {lim : Limits} {st st' : Shadow}

theorem Capped.write (hlim : 1 ≤ lim.histMaxSamples) (h : st.Capped lim) {k : WriteKind} (hw : st.Write lim k st') :
    st'.Capped lim := by
  cases hw with
  | values => exact ⟨h.events, h.logs, h.hist⟩
  | event now text level =>
      have hcut := length_keepLast (n := 40) (by omega) (st.events ++ [⟨now, text, level⟩])
      exact ⟨hcut, h.logs, h.hist⟩
  | records entries =>
      have hcut := length_keepLast (n := 200) (by omega) (st.logs ++ entries)
      refine ⟨h.events, ?_, h.hist⟩
      dsimp only
      exact hcut
  | sample => exact ⟨h.events, h.logs, length_keepLast hlim _⟩
  | cursor => exact ⟨h.events, h.logs, h.hist⟩

theorem Writes.capped (hlim : 1 ≤ lim.histMaxSamples) {ks : List WriteKind} (h : st.Writes lim ks st')
    (hc : st.Capped lim) : st'.Capped lim := h.keeps (fun _ _ _ _ hw hc => hc.write hlim hw) hc

theorem Writes.alerts {ks : List WriteKind} (h : st.Writes lim ks st') : st'.alerts = st.alerts := by
  refine h.keeps (P := fun b => b.alerts = st.alerts) (fun a k b _ hw ha => ?_) rfl
  rw [← ha]
  cases hw <;> rfl

end Shadow

variable {cfg : Config} {s₀ s s' : State} {d : Str}

/-- A callback or a task makes a chain of writes, or it is the alert hook. -/
theorem ShadowStep.writes {e : Step} {st : Shadow} (h : ShadowStep cfg s₀ e s d st) :
    (s.deviceState d).Writes cfg.limits allWrites st ∨
      ∃ c x key cause msg, s.conns c = some x ∧ x.deviceId = d ∧ Invoked s₀ e s c x key .onAlert cause msg ∧
        st = (onAlert (s.deviceState d) s.now msg).shadow := by
  cases h with
  | same => exact .inl (.refl _)
  | connected hx hd hpc he => exact .inl (runHook_writes (h := .onConnect) (by simp) _ _ _ [])
  | disconnected hx hd hcur =>
      rename_i c x
      exact .inl (runHook_writes (h := .onDisconnect) (by simp) _ x.link.session _ [])
  | hook hx hd hcall =>
      rename_i c x key hook cause msg
      by_cases hh : hook = .onAlert
      · subst hh
        exact .inr ⟨c, x, key, cause, msg, hx, hd, hcall, rfl⟩
      · exact .inl (runHook_writes hh ..)
  | task ht hx hd hb hres => exact .inl (TaskBody.resume_writes ..)

theorem ShadowStep.capped {e : Step} {st : Shadow} (hlim : 1 ≤ cfg.limits.histMaxSamples)
    (h : ShadowStep cfg s₀ e s d st) (hc : (s.deviceState d).Capped cfg.limits) : st.Capped cfg.limits := by
  rcases h.writes with hw | ⟨-, -, -, -, msg, -, -, -, rfl⟩
  · exact hw.capped hlim hc
  · have hadded : Shadow.Capped cfg.limits
        { s.deviceState d with alerts := (s.deviceState d).alerts ++ [.obj msg] } := ⟨hc.events, hc.logs, hc.hist⟩
    exact hadded.write hlim (.event ..)

theorem State.panel_capped (hlim : 1 ≤ cfg.limits.histMaxSamples) (h : ∀ d, (s.deviceState d).Capped cfg.limits)
    (e : PanelStep) (d : Str) : ((s.panel cfg e).deviceState d).Capped cfg.limits := by
  cases e with
  | server e => exact Run.star_invariant (fun _ _ hm hc d => (hm.shadow d).capped hlim (hc d)) (step_chain cfg s e) h d
  | report d' text => exact setShadow_cases (h d) fun _ => (h d').write hlim (.event ..)

/-! ## The alerts -/

theorem Micro.alerts {e : Step} (hm : Micro cfg s₀ e s s') (d : Str) :
    (s'.deviceState d).alerts = (s.deviceState d).alerts ∨
      ∃ c x msg, e = .recv c (.json (.obj msg)) ∧ s₀.lookedUp c msg = some (py "device_alert") ∧
        s.conns c = some x ∧ x.deviceId = d := by
  rcases (hm.shadow d).writes with hw | ⟨c, x, key, cause, msg, hx, hd, hcall, -⟩
  · exact .inl hw.alerts
  · cases hcall with
    | dispatched he hkey hh hpc hrec =>
        rw [callbackFor_key hh] at hkey
        exact .inr ⟨c, x, msg, he, hkey, hx, hd⟩

/-- Without a `device_alert` nothing is added. -/
theorem State.step_alerts_quiet {e : Step} (h : s₀.alerted d (.server e) = false) :
    ((s₀.step cfg e).deviceState d).alerts = (s₀.deviceState d).alerts := by
  have hchain := step_chain cfg s₀ e
  -- in the step of a frame the connections keep their devices
  suffices hs : ∀ s, Chain cfg s₀ e s₀ s → (s.deviceState d).alerts = (s₀.deviceState d).alerts ∧
      ∀ c frame, e = .recv c frame → ∀ x, s.conns c = some x → ∃ x₀, s₀.conns c = some x₀ ∧ x₀.deviceId = x.deviceId from
    (hs _ hchain).1
  intro s hchain
  induction hchain with
  | refl => exact ⟨rfl, fun c frame _ x hx => ⟨x, hx, rfl⟩⟩
  | tail _ hm ih =>
      obtain ⟨halerts, hconns⟩ := ih
      refine ⟨?_, fun c frame he x hx => ?_⟩
      · rcases hm.alerts d with ha | ⟨c, x, msg, he, hlook, hx, hd⟩
        · exact ha.trans halerts
        · obtain ⟨x₀, hx₀, hd₀⟩ := hconns c _ he x hx
          simp [alerted, he, hlook, hx₀, hd₀.trans hd] at h
      · rcases hm.conns hx with ⟨x₁, hx₁, hd₁⟩ | ⟨d', rand, he', -⟩
        · obtain ⟨x₀, hx₀, hd₀⟩ := hconns c frame he x₁ hx₁
          exact ⟨x₀, hx₀, hd₀.trans hd₁⟩
        · rw [he] at he'
          cases he'

/-- The alert hook adds the message and leaves the connection as it is, but for its link. -/
theorem State.dispatchOn_alert (cfg : Config) {c : Nat} {x : Conn} {msg : Dict} (hx : s.conns c = some x)
    (hkey : x.link.session.lookupKey msg = some (py "device_alert")) :
    ∃ l, (s.dispatchOn cfg c (.obj msg)).2 = .done ∧
      (s.dispatchOn cfg c (.obj msg)).1.conns c = some { x with link := l } ∧
      (s.dispatchOn cfg c (.obj msg)).1.deviceState =
        (s.setShadow x.deviceId (onAlert (s.deviceState x.deviceId) s.now msg).shadow).deviceState := by
  have hhook : callbackFor (py "device_alert") = some .onAlert := by decide
  have hr : (x.link.dispatch s.now (fun k => (callbackFor k).isSome) (.obj msg)).2 = _ :=
    DeviceSession.dispatch_of_lookupKey hkey s.now (by rw [hhook]; rfl)
  simp only [dispatchOn, hx, hr, hhook, Json.asDict]
  rw [callback_quiet _ _ _ _ _ _ _ (setConn_self ..) rfl rfl]
  refine ⟨(x.link.dispatch s.now (fun k => (callbackFor k).isSome) (.obj msg)).1, rfl, ?_, ?_⟩
  · rw [called_conns]
    exact setConn_self ..
  · rw [called_deviceState]
    rfl

theorem onAlert_alerts (st : Shadow) (now : Clock) (msg : Dict) :
    (onAlert st now msg).shadow.alerts = st.alerts ++ [.obj msg] := rfl

theorem onConnect_alerts (st : Shadow) (session : DeviceSession) (now : Clock) :
    (onConnect st session now).shadow.alerts = st.alerts := rfl

/-- A `device_alert` adds one alert. -/
theorem State.step_alerts (cfg : Config) {e : Step} (h : s.alerted d (.server e) = true) :
    ∃ msg, ((s.step cfg e).deviceState d).alerts = (s.deviceState d).alerts ++ [.obj msg] := by
  unfold alerted at h
  split at h
  · rename_i c msg he
    cases he
    simp only [Bool.decide_and, Bool.and_eq_true, decide_eq_true_eq, Option.any_eq_true] at h
    obtain ⟨hlook, x, hx, hd⟩ := h
    subst hd
    refine ⟨msg, ?_⟩
    simp only [lookedUp, hx] at hlook
    split at hlook
    · rename_i fired hpc
      obtain ⟨l, hdone, -, hst⟩ := dispatchOn_alert cfg hx hlook
      simp only [step, recv, hx, hpc, recvMessage]
      generalize s.dispatchOn cfg c (.obj msg) = out at hdone hst
      obtain ⟨s', r⟩ := out
      cases hdone
      dsimp only at hst ⊢
      rw [hst, setShadow_self, onAlert_alerts]
    · rename_i hpc
      split at hlook
      · rename_i hok
        split at hlook
        · cases hlook
        · rename_i htype
          obtain ⟨session, hv⟩ : ∃ session, x.link.session.verifyC2s msg = (session, .ok true) := ⟨_, Prod.ext rfl hok⟩
          have hself : (s.setConn c (proven x session msg)).conns c = some (proven x session msg) := setConn_self ..
          rw [← proven_lookupKey hv] at hlook
          obtain ⟨l, hdone, hc, hst⟩ := dispatchOn_alert cfg hself hlook
          unfold proven at hdone hc hst
          simp only [step, recv, hx, hpc, recvProof, hv, answerProof, if_neg htype]
          generalize State.dispatchOn cfg _ c (.obj msg) = out at hdone hc hst ⊢
          obtain ⟨s', r⟩ := out
          cases hdone
          dsimp only at hc hst ⊢
          rw [handshakeDone_eq cfg hc, called_deviceState, setShadow_self]
          rw [onConnect_alerts, hst, setShadow_self, onAlert_alerts, setConn_deviceState]
      · cases hlook
    · cases hlook
  · cases h

theorem State.panel_alerts (cfg : Config) (s : State) (d : Str) (e : PanelStep) :
    ((s.panel cfg e).deviceState d).alerts.length =
      (s.deviceState d).alerts.length + if s.alerted d e then 1 else 0 := by
  cases e with
  | server e =>
      cases h : s.alerted d (.server e) with
      | false => simp [panel, step_alerts_quiet h]
      | true =>
          obtain ⟨msg, hmsg⟩ := step_alerts cfg h
          simp [panel, hmsg]
  | report d' text =>
      refine setShadow_cases (P := fun st => st.alerts.length = _) rfl fun hd => ?_
      subst hd
      rfl

/-! ## Runs -/

namespace State

abbrev afterPanel (cfg : Config) (t : Nat) (es : List PanelStep) : State := Run.run (panel cfg) (init t) es

theorem run_capped (hlim : 1 ≤ cfg.limits.histMaxSamples) (t : Nat) (es : List PanelStep) (d : Str) :
    ((afterPanel cfg t es).deviceState d).Capped cfg.limits := by
  have hall : Run.Along (panel cfg) (fun _ _ => True) (init t) es := Run.along_of_forall (fun _ _ => trivial) _ _
  refine Run.invariant (P := fun s => ∀ d, (s.deviceState d).Capped cfg.limits)
    (fun s e hs _ => panel_capped hlim hs e) hall (fun d => ?_) d
  exact ⟨Nat.zero_le _, Nat.zero_le _, Nat.zero_le _⟩

theorem run_alerts (cfg : Config) (d : Str) (s : State) (es : List PanelStep) :
    ((Run.run (panel cfg) s es).deviceState d).alerts.length =
      (s.deviceState d).alerts.length + alertCount cfg d s es := by
  induction es generalizing s with
  | nil => rfl
  | cons e es ih =>
      rw [Run.run_cons, ih, panel_alerts, alertCount]
      omega

theorem alertCount_append (cfg : Config) (d : Str) (s : State) (es fs : List PanelStep) :
    alertCount cfg d s (es ++ fs) = alertCount cfg d s es + alertCount cfg d (Run.run (panel cfg) s es) fs := by
  induction es generalizing s with
  | nil => simp [alertCount]
  | cons e es ih => simp [alertCount, ih, Nat.add_assoc]

/-- The buffers of every device stay below a bound that is not below the caps exactly when no device sends
more alerts. -/
theorem buffers_bounded_iff (cfg : Config) (hlim : 1 ≤ cfg.limits.histMaxSamples) (n : Nat) (hn : 200 ≤ n)
    (hhist : cfg.limits.histMaxSamples ≤ n) (t : Nat) (es : List PanelStep) :
    (∀ before, before <+: es → ∀ d, ((afterPanel cfg t before).deviceState d).Bounded n) ↔
      ∀ d, alertCount cfg d (init t) es ≤ n := by
  have hcount : ∀ es d, ((afterPanel cfg t es).deviceState d).alerts.length = alertCount cfg d (init t) es := by
    intro es d
    rw [run_alerts]
    exact Nat.zero_add _
  constructor
  · intro h d
    rw [← hcount]
    exact (h es (List.prefix_refl es) d).alerts
  · rintro h before ⟨rest, rfl⟩ d
    have hcap := run_capped hlim t before d
    have hle := h d
    rw [alertCount_append] at hle
    refine ⟨Nat.le_trans hcap.events (by omega), Nat.le_trans hcap.logs hn, Nat.le_trans hcap.hist hhist, ?_⟩
    rw [hcount]
    exact Nat.le_trans (Nat.le_add_right _ _) hle

theorem alertCount_le_length (cfg : Config) (d : Str) (s : State) (es : List PanelStep) :
    alertCount cfg d s es ≤ es.length := by
  induction es generalizing s with
  | nil => exact Nat.le_refl 0
  | cons e es ih =>
      have hle := ih (s.panel cfg e)
      rw [alertCount, List.length_cons]
      split <;> omega

def sampleAlert : PanelStep :=
  .server (.recv 0 (.json (.obj [(py "type", .str (py "device_alert")), (py "code", .str (py "dry_run"))])))

def sampleSession : List PanelStep := (sampleHandshake 0 [7] "n").map .server

theorem buffers_bounded_iff_sample :
    let run := sampleSession ++ [sampleAlert, sampleAlert]
    ((afterPanel sampleConfig 0 run).deviceState (py "fon-1")).alerts.length = 2 ∧
    ((afterPanel sampleConfig 0 run).deviceState (py "fon-1")).Bounded 3600 := by
  intro run
  have h := buffers_bounded_iff sampleConfig (by decide) 3600 (by decide) (by decide) 0 run
  have hrun : run.length ≤ 3600 := by decide
  refine ⟨by decide +kernel, h.mpr (fun d => ?_) run (List.prefix_refl run) _⟩
  exact Nat.le_trans (alertCount_le_length ..) hrun

/-- Connection 0 belongs to the device and waits for a frame. -/
def SampleReady (s : State) : Prop :=
  ∃ x fired, s.conns 0 = some x ∧ x.deviceId = py "fon-1" ∧ x.pc = .live .idle fired

theorem SampleReady.alert (h : SampleReady s) :
    s.alerted (py "fon-1") sampleAlert = true ∧ SampleReady (s.panel sampleConfig sampleAlert) := by
  obtain ⟨x, fired, hx, hd, hpc⟩ := h
  have hkey : x.link.session.lookupKey [(py "type", .str (py "device_alert")), (py "code", .str (py "dry_run"))] =
      some (py "device_alert") := rfl
  obtain ⟨l, hdone, hc, -⟩ := dispatchOn_alert sampleConfig hx hkey
  constructor
  · simp [sampleAlert, alerted, lookedUp, hx, hpc, hkey, hd]
  · simp only [sampleAlert, panel, step, recv, hx, hpc, recvMessage]
    generalize s.dispatchOn sampleConfig 0 _ = out at hdone hc
    obtain ⟨s', r⟩ := out
    cases hdone
    exact ⟨_, fired, hc, hd, hpc⟩

theorem SampleReady.alertCount (h : SampleReady s) (k : Nat) :
    State.alertCount sampleConfig (py "fon-1") s (List.replicate k sampleAlert) = k := by
  induction k generalizing s with
  | zero => rfl
  | succ k ih =>
      obtain ⟨halert, hready⟩ := h.alert
      rw [List.replicate_succ, State.alertCount, halert, ih hready]
      exact Nat.add_comm 1 k

/-- A device that sends `n + 1` alerts exceeds the bound `n`. -/
theorem alerts_unbounded :
    ¬ ∃ n, ∀ (cfg : Config), cfg.limits = {} → ∀ t es d, ((afterPanel cfg t es).deviceState d).Bounded n := by
  rintro ⟨n, h⟩
  have hready : SampleReady (afterPanel sampleConfig 0 sampleSession) := by
    have hrun : ((afterPanel sampleConfig 0 sampleSession).conns 0).any (fun x =>
        x.deviceId = py "fon-1" ∧ x.pc = .live .idle false) = true := by decide +kernel
    obtain ⟨x, hx, hsession⟩ := (Option.any_eq_true _ _).mp hrun
    simp only [Bool.decide_and, Bool.and_eq_true, decide_eq_true_eq] at hsession
    exact ⟨x, false, hx, hsession⟩
  have hbound := (h sampleConfig rfl 0 (sampleSession ++ List.replicate (n + 1) sampleAlert) (py "fon-1")).alerts
  rw [afterPanel, Run.run_append, run_alerts, hready.alertCount] at hbound
  omega

end State

end Fountainer
