import Fountainer.System.Newest

/-!
# No ghost devices

`on_connect` reports a device as online whether or not its connection has been replaced. A device stays
online without a session only when this happens while it has no session in the registry.
-/

namespace Fountainer

variable {cfg : Config} {s₀ s s' : State} {e : Step}

/-- The step runs the connect hook on connection `c`: its handshake completes, or a message has the
hook's key as its type. -/
def State.connects (cfg : Config) (s : State) (c : Nat) (e : Step) : Bool :=
  s.completes cfg c e || match e with
    | .recv c' (.json (.obj d)) => c' = c ∧ s.lookedUp c d = some (py "__connect__")
    | _ => false

/-- The connect hook runs for devices that have a session in the registry. -/
def connectsRegistered (cfg : Config) (s : State) (e : Step) : Bool :=
  e.handler.all fun c => !s.connects cfg c e || (s.conns c).all fun x => (s.sessions x.deviceId).isSome

theorem State.connects_handler {c : Nat} (h : s.connects cfg c e = true) : e.handler = some c := by
  unfold connects at h
  rcases Bool.or_eq_true_iff.mp h with h | h
  · unfold completes at h
    split at h
    · simp only [decide_eq_true_eq] at h
      rw [← h.1]
      rfl
    · simp only [decide_eq_true_eq] at h
      rw [← h.1]
      rfl
    · cases h
  · split at h
    · simp only [decide_eq_true_eq] at h
      rw [← h.1]
      rfl
    · cases h

theorem connectsRegistered_sessions (hok : connectsRegistered cfg s e = true) {c : Nat} {x : Conn}
    (hc : s.connects cfg c e = true) (hx : s.conns c = some x) : s.sessions x.deviceId ≠ none := by
  have hsome : (s.sessions x.deviceId).isSome = true := by
    simpa [connectsRegistered, State.connects_handler hc, hc, hx] using hok
  exact Option.isSome_iff_ne_none.mp hsome

/-! ## Inside a step -/

/-- Until the handler of a step ends, the registry is as it was before the step. -/
structure Handling (s₀ : State) (e : Step) (s : State) : Prop where
  conns : s₀.Inherits e s
  sessions : ∀ c x, e.handler = some c → s.conns c = some x → x.pc ≠ .ended → s.sessions = s₀.sessions

theorem Handling.refl (s : State) (e : Step) : Handling s e s := ⟨.refl s e, fun _ _ _ _ _ => rfl⟩

theorem Micro.running (hm : Micro cfg s₀ e s s') {c : Nat} {x' : Conn} (he : e.handler ≠ none)
    (hx' : s'.conns c = some x') (hpc : x'.pc ≠ .ended) : ∃ x, s.conns c = some x ∧ x.pc ≠ .ended := by
  have hupdate := hm.update c
  rw [hx'] at hupdate
  cases hupdate with
  | same hx => exact ⟨x', hx, hpc⟩
  | new he' hc hd hs => exact absurd (by rw [he']; rfl) he
  | replaced hx => exact ⟨_, hx, hpc⟩
  | step hx hs => exact ⟨_, hx, hs.pc_ne hpc⟩
  | shaken hx hpc₀ hc => exact ⟨_, hx, by simp [hpc₀]⟩
  | ended hx hpc₀ hc hs => exact absurd rfl hpc

theorem handling_micro (hm : Micro cfg s₀ e s s') (h : Handling s₀ e s) : Handling s₀ e s' := by
  refine ⟨hm.inherits h.conns, fun c x' he hx' hpc => ?_⟩
  obtain ⟨x, hx, hpc₀⟩ := hm.running (by simp [he]) hx' hpc
  have hs := h.sessions c x he hx hpc₀
  rcases hm.sessions with hs' | ⟨d, rand, rfl, -⟩ | ⟨c₀, x₀, he₀, hx₀, -, -, hend, -⟩
  · exact hs'.trans hs
  · cases he
  · cases he.symm.trans he₀
    cases hx'.symm.trans hend
    exact absurd rfl hpc

theorem Handling.registered (h : Handling s₀ e s) (hok : connectsRegistered cfg s₀ e = true) {c : Nat} {x : Conn}
    (hc : s₀.connects cfg c e = true) (hx : s.conns c = some x) (hpc : x.pc ≠ .ended) :
    s.sessions x.deviceId ≠ none := by
  have he := State.connects_handler hc
  obtain ⟨x₀, hx₀, hd⟩ := h.conns (by simp [he]) c x hx
  rw [h.sessions c x he hx hpc, ← hd]
  exact connectsRegistered_sessions hok hc hx₀

/-! ## Runs -/

structure Attended (s : State) : Prop where
  numbered : s.Numbered
  newest : s.Newest
  running : ∀ d c x, s.sessions d = some c → s.conns c = some x → x.pc ≠ .ended
  online : ∀ d, (s.deviceState d).online = true → s.sessions d ≠ none

theorem Micro.sessions_some (hm : Micro cfg s₀ e s s') {d : Str} {c : Nat} (hd : s'.sessions d = some c) :
    s.sessions d = some c ∨ c = s.nextConn := by
  rcases hm.sessions with hs | ⟨d₀, rand, rfl, rfl, rfl⟩ | ⟨c₀, x₀, -, -, -, hs, -⟩
  · exact .inl (hs ▸ hd)
  · rcases State.accept_sessions cfg s d₀ rand with hacc | ⟨hacc, -⟩
    · rw [hacc] at hd
      exact .inl hd
    · rw [hacc, Function.update_apply] at hd
      split at hd
      · cases hd
        exact .inr rfl
      · exact .inl hd
  · rw [hs, Function.update_apply] at hd
    split at hd
    · cases hd
    · exact .inl hd

theorem attended_running (hm : Micro cfg s₀ e s s') (h : Attended s) {d : Str} {c : Nat} {x' : Conn}
    (hd : s'.sessions d = some c) (hx' : s'.conns c = some x') : x'.pc ≠ .ended := by
  have hold : ∀ {x}, s.conns c = some x → s.sessions d = some c := by
    intro x hx
    rcases hm.sessions_some hd with hd | rfl
    · exact hd
    · exact absurd (h.numbered _ x hx) (Nat.lt_irrefl _)
  intro hpc
  have hupdate := hm.update c
  rw [hx'] at hupdate
  cases hupdate with
  | same hx => exact h.running d c _ (hold hx) hx hpc
  | new he hc hdev hs => cases hpc
  | replaced hx => exact h.running d c _ (hold hx) hx hpc
  | step hx hs => exact h.running d c _ (hold hx) hx (hs.ended hpc)
  | shaken hx hpc₀ he => cases hpc
  | ended hx hpc₀ he hs =>
      obtain ⟨x, hx₀, rfl, -⟩ := h.newest d c (hold hx)
      cases hx.symm.trans hx₀
      rw [hs, if_pos (hold hx), Function.update_self] at hd
      cases hd

theorem Micro.comes_online (hm : Micro cfg s₀ e s s') {d : Str} (hon : (s'.deviceState d).online = true) :
    (s.deviceState d).online = true ∨
      ∃ c x, s₀.connects cfg c e = true ∧ s.conns c = some x ∧ x.deviceId = d ∧ x.pc ≠ .ended := by
  have hstep := hm.shadow d
  generalize s'.deviceState d = st at hstep hon
  cases hstep with
  | same => exact .inl hon
  | connected hx hd hpc he =>
      exact .inr ⟨_, _, by simp [State.connects, he], hx, hd, by simp [hpc]⟩
  | disconnected hx hd hcur => cases hon
  | hook hx hd hcall =>
      rename_i c x key hook cause msg
      cases hook with
      | onDisconnect => cases hon
      | onConnect =>
          cases hcall with
          | dispatched he hkey hh hpc hrec =>
              have hconnect : key = py "__connect__" := callbackFor_key hh
              rw [hconnect] at hkey
              refine .inr ⟨c, x, by simp [State.connects, he, hkey], hx, hd, ?_⟩
              rcases hpc with hpc | ⟨fired, hpc⟩ <;> simp [hpc]
      | _ =>
          rw [(runHook_stamped (by simp) (by simp)).online] at hon
          exact .inl hon
  | task ht hx hd hb hres =>
      rw [TaskBody.resume_online] at hon
      exact .inl hon

theorem Micro.goes_offline (hm : Micro cfg s₀ e s s') {d : Str} (hd : s.sessions d ≠ none)
    (hd' : s'.sessions d = none) : (s'.deviceState d).online = false := by
  rcases hm.sessions with hs | ⟨d₀, rand, rfl, rfl, rfl⟩ | ⟨c₀, x₀, -, -, -, hs, -, hoff⟩
  · exact absurd (hs ▸ hd') hd
  · rcases State.accept_sessions cfg s d₀ rand with hacc | ⟨hacc, -⟩
    · rw [hacc] at hd'
      exact absurd hd' hd
    · rw [hacc, Function.update_apply] at hd'
      split at hd'
      · cases hd'
      · exact absurd hd' hd
  · rw [hs, Function.update_apply] at hd'
    split at hd'
    · rename_i hdd
      rw [hdd]
      exact hoff
    · exact absurd hd' hd

theorem attended_online (hok : connectsRegistered cfg s₀ e = true) (hm : Micro cfg s₀ e s s')
    (hw : Handling s₀ e s) (h : Attended s) (d : Str) (hon : (s'.deviceState d).online = true) :
    s'.sessions d ≠ none := by
  have hold : s.sessions d ≠ none := by
    rcases hm.comes_online hon with hon₀ | ⟨c, x, hc, hx, rfl, hpc⟩
    · exact h.online d hon₀
    · exact hw.registered hok hc hx hpc
  intro hnone
  rw [hm.goes_offline hold hnone] at hon
  cases hon

theorem attended_micro (hok : connectsRegistered cfg s₀ e = true) (hm : Micro cfg s₀ e s s')
    (hw : Handling s₀ e s) (h : Attended s) : Attended s' :=
  ⟨hm.numbered h.numbered, hm.newest h.numbered h.newest, fun _ _ _ hd hx => attended_running hm h hd hx,
    attended_online hok hm hw h⟩

/-- When all handlers of a device have ended, it has no entry in the registry and is shown as offline. -/
theorem no_ghost_device (cfg : Config) (t : Nat) (es : List Step)
    (hes : State.Along cfg (connectsRegistered cfg) t es) (d : Str)
    (hquiet : ∀ c x, (State.after cfg t es).conns c = some x → x.deviceId = d → x.pc = .ended) :
    (State.after cfg t es).sessions d = none ∧ ((State.after cfg t es).deviceState d).online = false := by
  have h : Attended (State.after cfg t es) := by
    refine invariant_within ?_ Handling.refl (fun s₀ e s s' => handling_micro) ?_ hes
    · exact ⟨State.numbered_init t, fun _ _ h => (by cases h), fun _ _ _ h => (by cases h),
        fun _ h => (by cases h)⟩
    · exact fun s₀ e s s' hok _ hm hw h => attended_micro hok hm hw h
  have hnone : (State.after cfg t es).sessions d = none := by
    cases hd : (State.after cfg t es).sessions d with
    | none => rfl
    | some c =>
        obtain ⟨x, hx, hdev, -⟩ := h.newest d c hd
        exact absurd (hquiet c x hx hdev) (h.running d c x hd hx)
  exact ⟨hnone, eq_false_of_ne_true fun hon => h.online d hon hnone⟩

theorem State.Numbered.each {P : Conn → Prop} [DecidablePred P] (hn : s.Numbered)
    (h : ∀ c < s.nextConn, (s.conns c).all fun x => P x) : s.Each P := by
  intro c x hx
  simpa [hx] using h c (hn c x hx)

/-- A reconnect; both handlers end. -/
def sampleReconnect : List Step :=
  sampleHandshake 0 [7] "n" ++ sampleHandshake 1 [8] "m" ++ [.lost 0, .stop 0, .finish 0, .lost 1, .stop 1, .finish 1]

theorem no_ghost_device_sample :
    (State.after sampleConfig 0 sampleReconnect).sessions (py "fon-1") = none ∧
      ((State.after sampleConfig 0 sampleReconnect).deviceState (py "fon-1")).online = false := by
  have hrun : State.Along sampleConfig (connectsRegistered sampleConfig) 0 sampleReconnect ∧
      ∀ c < (State.after sampleConfig 0 sampleReconnect).nextConn,
        ((State.after sampleConfig 0 sampleReconnect).conns c).all fun x => x.pc = .ended := by decide +kernel
  have hended := (numbered_after sampleConfig 0 sampleReconnect).each hrun.2
  exact no_ghost_device _ _ _ hrun.1 _ fun c x hx _ => hended c x hx

/-- A session proof that is no `ota_check`: the handshake completes without an answer. -/
def heartbeatProof (rand : Bytes) (clientNonce : String) : Dict :=
  match sign (sampleParams rand clientNonce)
      [(py "v", .int 2), (py "type", .str (py "heartbeat")), (py "ts", .int 0)] 1 with
  | .ok msg => msg
  | .error _ => []

/-- The proof of connection 0 arrives after connection 1 has replaced it and has been lost. -/
def lateProof : List Step :=
  [.accept (py "fon-1") [7], .recv 0 (sampleHello "n"), .resume 0 true, .accept (py "fon-1") [8], .lost 1,
   .recv 0 (.json (.obj (heartbeatProof [7] "n"))), .lost 0, .stop 0, .finish 0]

/-- All handlers have ended, and the device stays online. -/
theorem late_proof_leaves_ghost :
    (State.after sampleConfig 0 lateProof).Each (fun x => x.pc = .ended) ∧
      (State.after sampleConfig 0 lateProof).sessions (py "fon-1") = none ∧
      ((State.after sampleConfig 0 lateProof).deviceState (py "fon-1")).online = true := by
  have hrun : (∀ c < (State.after sampleConfig 0 lateProof).nextConn,
        ((State.after sampleConfig 0 lateProof).conns c).all fun x => x.pc = .ended) ∧
      (State.after sampleConfig 0 lateProof).sessions (py "fon-1") = none ∧
      ((State.after sampleConfig 0 lateProof).deviceState (py "fon-1")).online = true := by decide +kernel
  exact ⟨(numbered_after sampleConfig 0 lateProof).each hrun.1, hrun.2⟩

end Fountainer
