import Fountainer.System.Registry
import Fountainer.System.Stages

/-!
# When the lifecycle hooks run

The lifecycle hooks stand in the dictionary that `_dispatch` indexes with the type of a message.
-/

namespace Fountainer

variable {cfg : Config} {s₀ s s' : State} {e : Step}

/-- No message makes `_dispatch` look up the key of a lifecycle hook. -/
def plainTypes (s : State) : Step → Bool
  | .recv c (.json (.obj d)) => match s.lookedUp c d with
      | some key => decide (key ∉ lifecycleKeys)
      | none => true
  | _ => true

def Hook.lifecycle : Hook → Bool
  | .onConnect | .onDisconnect | .onOtaCheck => true
  | _ => false

theorem Hook.lifecycle_iff {key : Str} {h : Hook} (hk : callbackFor key = some h) :
    h.lifecycle = true ↔ key ∈ lifecycleKeys := by
  have hmem := mem_of_lookup hk
  simp only [callbacks, List.mem_cons, Prod.mk.injEq, List.not_mem_nil, or_false] at hmem
  rcases hmem with ⟨rfl, rfl⟩ | ⟨rfl, rfl⟩ | ⟨rfl, rfl⟩ | ⟨rfl, rfl⟩ | ⟨rfl, rfl⟩ | ⟨rfl, rfl⟩ | ⟨rfl, rfl⟩ <;>
    decide

theorem Invoked.plain {c : Nat} {x : Conn} {key : Str} {h : Hook} {cause : Cause} {msg : Dict}
    (hcall : Invoked s₀ e s c x key h cause msg) (hok : plainTypes s₀ e = true) :
    callbackFor key = some h ∧
      ((cause = .dispatched ∧ h.lifecycle = false) ∨
        (cause = .lifecycle ∧ h = .onOtaCheck ∧ x.proof = some msg)) := by
  cases hcall with
  | dispatched he hkey hh hpc hrec =>
      subst he
      refine ⟨hh, .inl ⟨rfl, ?_⟩⟩
      simp only [plainTypes, hkey, decide_eq_true_eq] at hok
      rw [← Hook.lifecycle_iff hh] at hok
      exact eq_false_of_ne_true hok
  | otaCheck he hpc hproof htype => exact ⟨by decide, .inr ⟨rfl, rfl, hproof⟩⟩

/-! ## The callbacks of one connection -/

/-- A property of a connection and its callbacks is kept by an update when the updates of one
connection keep it. -/
theorem Micro.each_calls {P : Conn → List HookCall → Prop} (hm : Micro cfg s₀ e s s')
    (hn : s.Numbered) (hk : s.Known)
    (hnew : ∀ d device rand now, P (Conn.new cfg d device rand now) [])
    (hclose : ∀ x b calls, P x calls → P { x with closeRequested := b } calls)
    (hstep : ∀ c x x' calls, ConnStep s₀ e s c x x' → P x calls → P x' calls)
    (hshake : ∀ c x calls, x.pc = .proofReply → P x calls →
      P (x.shake s.now) (calls ++ [⟨c, py "__connect__", .lifecycle, []⟩]))
    (hend : ∀ x calls, P x calls → P { x with pc := .ended } calls)
    (hbye : ∀ c x calls, x.pc ≠ .ended → P x calls →
      P { x with pc := .ended } (calls ++ [⟨c, py "__disconnect__", .lifecycle, []⟩]))
    (hcalled : ∀ c x key h cause msg calls, Invoked s₀ e s c x key h cause msg → P x calls →
      P x (calls ++ [⟨c, key, cause, msg⟩]))
    (h : ∀ c x, s.conns c = some x → P x (s.callsOf c)) :
    ∀ c x, s'.conns c = some x → P x (s'.callsOf c) := by
  intro c x hx
  cases hm with
  | tick he => exact h c x hx
  | accept he =>
      rw [State.callsOf_congr (State.accept_hooks ..)]
      rcases State.accept_conns hx with ⟨device, hd, rfl, rfl⟩ | ⟨x₀, b, hx₀, rfl⟩
      · rw [hk.callsOf_new hn]
        exact hnew ..
      · exact hclose _ _ _ (h c x₀ hx₀)
  | deviceSign he => exact h c x hx
  | conn hx₀ hnow ha hs =>
      rcases State.setConn_cases _ _ _ hx with ⟨rfl, rfl⟩ | ⟨-, hx⟩
      · exact hstep _ _ _ _ hs (h _ _ hx₀)
      · exact h c x hx
  | connected hx₀ hpc hc =>
      rename_i c₀ x₀
      rw [State.called_conns, State.shake_eq] at hx
      rw [State.callsOf_append (State.called_hooks ..)]
      rcases State.setConn_cases _ _ _ hx with ⟨rfl, rfl⟩ | ⟨hne, hx⟩
      · rw [if_pos rfl]
        exact hshake _ _ _ hpc (h _ _ hx₀)
      · rw [if_neg (Ne.symm hne), List.append_nil]
        exact h c x hx
  | finished hx₀ hpc he =>
      rename_i c₀ x₀
      have hhooks := State.finish_hooks cfg hx₀
      rw [State.finish_conns _ _ hx₀] at hx
      by_cases hd : s.sessions x₀.deviceId = some c₀
      · rw [if_pos hd] at hhooks
        rw [State.callsOf_append hhooks]
        rcases State.setConn_cases _ _ _ hx with ⟨rfl, rfl⟩ | ⟨hne, hx⟩
        · rw [if_pos rfl]
          exact hbye _ _ _ hpc (h _ _ hx₀)
        · rw [if_neg (Ne.symm hne), List.append_nil]
          exact h c x hx
      · rw [if_neg hd] at hhooks
        rw [State.callsOf_congr hhooks]
        rcases State.setConn_cases _ _ _ hx with ⟨rfl, rfl⟩ | ⟨-, hx⟩
        · exact hend _ _ (h _ _ hx₀)
        · exact h c x hx
  | called hx₀ hcall =>
      rename_i c₀ x₀ key hook cause msg
      rw [State.called_conns] at hx
      rw [State.callsOf_append (State.called_hooks ..)]
      by_cases hc : c₀ = c
      · subst hc
        rw [hx₀] at hx
        cases hx
        rw [if_pos rfl]
        exact hcalled _ _ _ _ _ _ _ hcall (h _ _ hx₀)
      · rw [if_neg hc, List.append_nil]
        exact h c x hx
  | stored => exact h c x hx
  | task => exact h c x hx
  | spawned => exact h c x hx

/-- The lifecycle hooks that have run on a connection. -/
structure Counted (x : Conn) (calls : List HookCall) : Prop where
  staged : Staged x
  connects : (calls.filter (·.runs .onConnect)).length = if x.shaken then 1 else 0
  disconnects : (calls.filter (·.runs .onDisconnect)).length ≤ 1
  bye : x.pc ≠ .ended → calls.filter (·.runs .onDisconnect) = []
  otaChecks : ∀ call ∈ calls.filter (·.runs .onOtaCheck), x.proof = some call.msg

theorem HookCall.runs_eq {key : Str} {h : Hook} (hk : callbackFor key = some h) (h' : Hook) (c : Nat)
    (cause : Cause) (msg : Dict) : HookCall.runs h' ⟨c, key, cause, msg⟩ = decide (h = h') := by
  simp [HookCall.runs, hk]

namespace Counted

theorem connStep {c : Nat} {x x' : Conn} {calls : List HookCall} (hs : ConnStep s₀ e s c x x')
    (h : Counted x calls) : Counted x' calls := by
  refine ⟨h.staged.connStep hs, ?_, h.disconnects, fun hne => h.bye fun hpc => ?_, ?_⟩
  · rw [hs.shaken]
    exact h.connects
  · exact absurd hpc (hs.pc_ne hne)
  · exact fun call hcall => h.staged.proof_eq hs (h.otaChecks call hcall)

/-- The connect hook runs when the handshake has been completed. -/
theorem shake {x : Conn} {calls : List HookCall} (h : Counted x calls) (hpc : x.pc = .proofReply)
    (c : Nat) (now : Clock) :
    Counted (x.shake now) (calls ++ [⟨c, py "__connect__", .lifecycle, []⟩]) := by
  have hkey : callbackFor (py "__connect__") = some .onConnect := by decide
  have hzero := h.connects
  rw [h.staged.not_shaken (by rw [hpc]; exact fun hs => (by cases hs))] at hzero
  have hbye := h.bye (by simp [hpc])
  refine ⟨h.staged.shake hpc now, ?_, ?_, fun _ => ?_, ?_⟩
  · simp [HookCall.runs_eq hkey, Conn.shake, List.filter_append, hzero]
  · simp [HookCall.runs_eq hkey, List.filter_append, hbye]
  · simp [HookCall.runs_eq hkey, List.filter_append, hbye]
  · intro call hcall
    simp only [HookCall.runs_eq hkey, List.filter_append, List.filter_cons, List.filter_nil] at hcall
    exact h.otaChecks call (by simpa using hcall)

theorem bye_ended {x : Conn} {calls : List HookCall} (h : Counted x calls) (hpc : x.pc ≠ .ended)
    (c : Nat) :
    Counted { x with pc := .ended } (calls ++ [⟨c, py "__disconnect__", .lifecycle, []⟩]) := by
  have hkey : callbackFor (py "__disconnect__") = some .onDisconnect := by decide
  have hbye := h.bye hpc
  refine ⟨h.staged.ended, ?_, ?_, fun hne => absurd rfl hne, ?_⟩
  · simpa [HookCall.runs_eq hkey, List.filter_append] using h.connects
  · simp [HookCall.runs_eq hkey, List.filter_append, hbye]
  · intro call hcall
    simp only [HookCall.runs_eq hkey, List.filter_append, List.filter_cons, List.filter_nil] at hcall
    exact h.otaChecks call (by simpa using hcall)

theorem invoked {c : Nat} {x : Conn} {key : Str} {hook : Hook} {cause : Cause} {msg : Dict}
    {calls : List HookCall} (hcall : Invoked s₀ e s c x key hook cause msg)
    (hok : plainTypes s₀ e = true) (h : Counted x calls) :
    Counted x (calls ++ [⟨c, key, cause, msg⟩]) := by
  obtain ⟨hkey, hplain⟩ := hcall.plain hok
  have hne : hook ≠ .onConnect ∧ hook ≠ .onDisconnect := by
    rcases hplain with ⟨-, hl⟩ | ⟨-, rfl, -⟩
    · constructor <;> rintro rfl <;> cases hl
    · decide
  refine ⟨h.staged, ?_, ?_, ?_, ?_⟩
  · simpa [HookCall.runs_eq hkey, List.filter_append, hne.1] using h.connects
  · simpa [HookCall.runs_eq hkey, List.filter_append, hne.2] using h.disconnects
  · simpa [HookCall.runs_eq hkey, List.filter_append, hne.2] using h.bye
  · intro call hmem
    rw [List.filter_append] at hmem
    rcases List.mem_append.mp hmem with hmem | hmem
    · exact h.otaChecks call hmem
    · obtain ⟨hlast, hruns⟩ := List.mem_filter.mp hmem
      rw [List.mem_singleton.mp hlast] at hruns ⊢
      rw [HookCall.runs_eq hkey, decide_eq_true_eq] at hruns
      rcases hplain with ⟨-, hl⟩ | ⟨-, -, hproof⟩
      · rw [hruns] at hl
        cases hl
      · exact hproof

end Counted

/-! ## Runs -/

structure Logged (s : State) : Prop where
  numbered : s.Numbered
  known : s.Known
  counted : ∀ c x, s.conns c = some x → Counted x (s.callsOf c)
  causes : ∀ call ∈ s.hooks, call.key ∈ lifecycleKeys → call.cause = .lifecycle

theorem logged_micro (hok : plainTypes s₀ e = true) (hm : Micro cfg s₀ e s s') (h : Logged s) :
    Logged s' := by
  refine ⟨hm.numbered h.numbered, hm.known h.numbered h.known, ?_, ?_⟩
  · refine hm.each_calls h.numbered h.known ?_ ?_ ?_ ?_ ?_ ?_ ?_ h.counted
    · exact fun d device rand now => ⟨.new .., rfl, Nat.zero_le _, fun _ => rfl, fun _ h => (by cases h)⟩
    · intro x b calls hx
      exact ⟨hx.staged.of_quiet (.same _), hx.connects, hx.disconnects, hx.bye, hx.otaChecks⟩
    · exact fun c x x' calls hs hx => hx.connStep hs
    · exact fun c x calls hpc hx => hx.shake hpc c _
    · exact fun x calls hx =>
        ⟨hx.staged.ended, hx.connects, hx.disconnects, fun hne => absurd rfl hne, hx.otaChecks⟩
    · exact fun c x calls hpc hx => hx.bye_ended hpc c
    · exact fun c x key hook cause msg calls hcall hx => hx.invoked hcall hok
  · intro call hcall hkey
    rcases hm.hooks with hh | ⟨call', x, -, hh, hcause⟩
    · rw [hh] at hcall
      exact h.causes call hcall hkey
    · rw [hh] at hcall
      rcases List.mem_append.mp hcall with hcall | hcall
      · exact h.causes call hcall hkey
      · rw [List.mem_singleton.mp hcall] at hkey ⊢
        rcases hcause with hcause | ⟨key, hook, hinv, hkey'⟩
        · exact hcause
        · obtain ⟨hcb, hplain⟩ := hinv.plain hok
          rcases hplain with ⟨-, hl⟩ | ⟨hc, -, -⟩
          · rw [hkey', ← Hook.lifecycle_iff hcb, hl] at hkey
            cases hkey
          · exact hc

theorem logged_after {t : Nat} {es : List Step} (hes : State.Along cfg plainTypes t es) :
    Logged (State.after cfg t es) := by
  refine invariant_of_micro ?_ (fun s₀ e s s' hok _ hm => logged_micro hok hm) hes
  exact ⟨State.numbered_init t, fun _ h => (by cases h), fun _ _ h => (by cases h), fun _ h => (by cases h)⟩

/-! ## The end of a session -/

theorem State.ran_congr (h : s'.hooks = s.hooks) (hook : Hook) (c : Nat) :
    s'.ran hook c = s.ran hook c := by
  unfold ran
  rw [callsOf_congr h]

theorem State.ran_append {c₀ : Nat} {key : Str} {hook : Hook} {cause : Cause} {msg : Dict}
    (h : s'.hooks = s.hooks ++ [⟨c₀, key, cause, msg⟩]) (hkey : callbackFor key = some hook)
    {hook' : Hook} {c : Nat} (hne : hook ≠ hook' ∨ c₀ ≠ c) : s'.ran hook' c = s.ran hook' c := by
  unfold ran
  rw [callsOf_append h]
  by_cases hc : c₀ = c
  · have hh : hook ≠ hook' := hne.resolve_right (not_not.mpr hc)
    simp [hc, List.filter_append, HookCall.runs_eq hkey, hh]
  · simp [hc]

/-- The disconnect hook runs in one kind of update, in which the registry loses the session. -/
theorem Micro.disconnects (hm : Micro cfg s₀ e s s') (hok : plainTypes s₀ e = true) :
    (s'.sessions = s.sessions ∧ ∀ c, s'.ran .onDisconnect c = s.ran .onDisconnect c) ∨
      (∃ d rand, e = .accept d rand ∧ s = s₀ ∧ ∀ c, s'.ran .onDisconnect c = s.ran .onDisconnect c) ∨
      ∃ c x, e.handler = some c ∧ s.conns c = some x ∧ s.sessions x.deviceId = some c ∧
        s'.sessions = Function.update s.sessions x.deviceId none ∧
        ∀ c', c' ≠ c → s'.ran .onDisconnect c' = s.ran .onDisconnect c' := by
  cases hm with
  | tick he => exact .inl ⟨rfl, fun c => rfl⟩
  | accept he => exact .inr (.inl ⟨_, _, he, rfl, State.ran_congr (State.accept_hooks ..) _⟩)
  | deviceSign he => exact .inl ⟨rfl, fun c => rfl⟩
  | conn hx hnow ha hs => exact .inl ⟨rfl, fun c => rfl⟩
  | connected hx hpc hc =>
      refine .inl ⟨State.called_sessions .., fun c => ?_⟩
      exact State.ran_append (State.called_hooks ..) (by decide) (.inl (by decide : Hook.onConnect ≠ _))
  | finished hx hpc he =>
      rename_i c x
      have hsessions := State.finish_sessions _ cfg hx
      have hhooks := State.finish_hooks cfg hx
      by_cases hd : s.sessions x.deviceId = some c
      · rw [if_pos hd] at hsessions hhooks
        refine .inr (.inr ⟨c, x, he, hx, hd, hsessions, fun c' hne => ?_⟩)
        have hkey : callbackFor (py "__disconnect__") = some .onDisconnect := by decide
        exact State.ran_append hhooks hkey (.inr (Ne.symm hne))
      · rw [if_neg hd] at hsessions hhooks
        exact .inl ⟨hsessions, State.ran_congr hhooks _⟩
  | called hx hcall =>
      obtain ⟨hkey, hplain⟩ := hcall.plain hok
      refine .inl ⟨State.called_sessions .., fun c => ?_⟩
      refine State.ran_append (State.called_hooks ..) hkey (.inl ?_)
      rcases hplain with ⟨-, hl⟩ | ⟨-, rfl, -⟩
      · rintro rfl
        cases hl
      · decide
  | stored => exact .inl ⟨rfl, fun c => rfl⟩
  | task => exact .inl ⟨rfl, fun c => rfl⟩
  | spawned => exact .inl ⟨rfl, fun c => rfl⟩

/-- The disconnect hook has run for sessions that have left the registry. -/
def DisconnectRemoves (s s' : State) : Prop :=
  ∀ c, s'.ran .onDisconnect c ≠ s.ran .onDisconnect c → ∃ x, s.conns c = some x ∧
    s.sessions x.deviceId = some c ∧ s'.sessions x.deviceId = none

/-- What holds inside a step: the registry loses entries only. -/
structure Leaving (s₀ : State) (e : Step) (s : State) : Prop where
  conns : s₀.Inherits e s
  sessions : e.handler ≠ none → ∀ d, s.sessions d = s₀.sessions d ∨ s.sessions d = none
  disconnects : DisconnectRemoves s₀ s

theorem Leaving.refl (s : State) (e : Step) : Leaving s e s :=
  ⟨.refl s e, fun _ _ => .inl rfl, fun _ hc => absurd rfl hc⟩

theorem leaving_micro (hm : Micro cfg s₀ e s s') (hok : plainTypes s₀ e = true) (h : Leaving s₀ e s) :
    Leaving s₀ e s' := by
  have hconns := hm.inherits h.conns
  rcases hm.disconnects hok with ⟨hs, hran⟩ | ⟨d, rand, rfl, rfl, hran⟩ | ⟨c, x, he, hx, hd, hs, hran⟩
  · refine ⟨hconns, ?_, fun c hc => ?_⟩
    · rw [hs]
      exact h.sessions
    · rw [hran] at hc
      rw [hs]
      exact h.disconnects c hc
  · exact ⟨hconns, fun hne => absurd rfl hne, fun c hc => absurd (hran c) hc⟩
  · have hne : e.handler ≠ none := by simp [he]
    obtain ⟨x₀, hx₀, hdev⟩ := h.conns hne c x hx
    have hd₀ : s₀.sessions x₀.deviceId = some c := by
      rcases h.sessions hne x.deviceId with h' | h'
      · rw [hdev, ← h']
        exact hd
      · rw [h'] at hd
        cases hd
    have hnone : ∀ d, s.sessions d = none → s'.sessions d = none := by
      intro d hd'
      rw [hs]
      by_cases hdd : d = x.deviceId
      · simp [hdd]
      · simpa [hdd] using hd'
    refine ⟨hconns, ?_, ?_⟩
    · intro _ d
      by_cases hdd : d = x.deviceId
      · exact .inr (by simp [hs, hdd])
      · rcases h.sessions hne d with h' | h'
        · exact .inl (by simpa [hs, hdd] using h')
        · exact .inr (hnone d h')
    · intro c' hc'
      by_cases hcc : c' = c
      · subst hcc
        exact ⟨x₀, hx₀, hd₀, by simp [hs, hdev]⟩
      · rw [hran c' hcc] at hc'
        obtain ⟨x₁, hx₁, hd₁, hd₁'⟩ := h.disconnects c' hc'
        exact ⟨x₁, hx₁, hd₁, hnone _ hd₁'⟩

/-- The lifecycle hooks have run for lifecycle events only. -/
structure LifecycleOnly (s : State) : Prop where
  connect : ∀ c x, s.conns c = some x →
    (s.ran .onConnect c).length = if x.shaken then 1 else 0
  disconnect : ∀ c x, s.conns c = some x → (s.ran .onDisconnect c).length ≤ 1
  otaCheck : ∀ c x, s.conns c = some x → ∀ call ∈ s.ran .onOtaCheck c,
    x.proof = some call.msg ∧ x.Verified call.msg
  cause : ∀ call ∈ s.hooks, call.key ∈ lifecycleKeys → call.cause = .lifecycle

/-- When no message names the key of a lifecycle hook, these hooks run on lifecycle events only. -/
theorem lifecycle_only (cfg : Config) (t : Nat) (es : List Step)
    (hes : State.Along cfg plainTypes t es) :
    LifecycleOnly (State.after cfg t es) ∧
      ∀ before e, before ++ [e] <+: es →
        DisconnectRemoves (State.after cfg t before) (State.after cfg t (before ++ [e])) := by
  constructor
  · have h := logged_after hes
    refine ⟨fun c x hx => (h.counted c x hx).connects, fun c x hx => (h.counted c x hx).disconnects, ?_,
      h.causes⟩
    intro c x hx call hcall
    have hproof := (h.counted c x hx).otaChecks call hcall
    exact ⟨hproof, (h.counted c x hx).staged.verified _ hproof⟩
  · intro before e hbefore
    rw [State.after_snoc]
    exact (Run.star_invariant (fun a b hm => leaving_micro hm (hes.last hbefore))
      (State.step_chain cfg _ e) (Leaving.refl _ e)).disconnects

/-- A device that proves itself, reports and leaves. -/
theorem lifecycle_only_sample :
    LifecycleOnly (State.after sampleConfig 0 (sampleHandshake 0 [7] "n" ++
      [.recv 0 (.json (.obj [(py "type", .str (py "heartbeat"))])), .lost 0, .stop 0, .finish 0])) :=
  (lifecycle_only _ _ _ (by decide +kernel)).1

def frameOfType (name : String) : Frame := .json (.obj [(py "type", .str (py name))])

/-- After the handshake a message of type `__connect__` runs the connect hook again, and one of type
`__disconnect__` runs the disconnect hook of a session that stays in the registry. -/
theorem lifecycle_hook_by_type :
    ¬ LifecycleOnly (State.after sampleConfig 0
        (sampleHandshake 0 [7] "n" ++ [.recv 0 (frameOfType "__connect__")])) ∧
      ¬ DisconnectRemoves (State.after sampleConfig 0 (sampleHandshake 0 [7] "n"))
        (State.after sampleConfig 0
          (sampleHandshake 0 [7] "n" ++ [.recv 0 (frameOfType "__disconnect__")])) := by
  constructor
  · intro h
    have hcall := h.cause ⟨0, py "__connect__", .dispatched, [(py "type", .str (py "__connect__"))]⟩
      (by decide +kernel) (by decide)
    cases hcall
  · intro h
    have hrun : (State.after sampleConfig 0
            (sampleHandshake 0 [7] "n" ++ [.recv 0 (frameOfType "__disconnect__")])).ran .onDisconnect 0 ≠
          (State.after sampleConfig 0 (sampleHandshake 0 [7] "n")).ran .onDisconnect 0 ∧
        ((State.after sampleConfig 0 (sampleHandshake 0 [7] "n")).conns 0).all
          (fun x => x.deviceId = py "fon-1") = true ∧
        (State.after sampleConfig 0
          (sampleHandshake 0 [7] "n" ++ [.recv 0 (frameOfType "__disconnect__")])).sessions (py "fon-1") ≠ none := by
      decide +kernel
    obtain ⟨hran, hdev, hsome⟩ := hrun
    obtain ⟨x, hx, -, hnone⟩ := h 0 hran
    rw [hx, Option.all_some, decide_eq_true_eq] at hdev
    rw [hdev] at hnone
    exact absurd hnone hsome

end Fountainer
