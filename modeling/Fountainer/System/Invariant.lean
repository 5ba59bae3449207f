import Fountainer.System.Chain

/-!
# Invariants of runs

An invariant that every update keeps holds after every run whose steps meet its condition.
-/

namespace Fountainer

variable {cfg : Config} {t : Nat} {es : List Step}

theorem invariant_of_micro {Inv : State → Prop} {ok : State → Step → Bool}
    (hinit : Inv (State.init t))
    (hmicro : ∀ s₀ e s s', ok s₀ e = true → Inv s₀ → Micro cfg s₀ e s s' → Inv s → Inv s')
    (h : State.Along cfg ok t es) : Inv (State.after cfg t es) := by
  refine Run.invariant ?_ h hinit
  intro s e hs hok
  exact Run.star_invariant (fun a b hm => hmicro s e a b hok hs hm) (State.step_chain cfg s e) hs

theorem run_within {Inv : State → Prop} {ok : State → Step → Bool} {W : State → Step → State → Prop}
    {s : State} (hinit : Inv s) (hrefl : ∀ s e, W s e s)
    (hW : ∀ s₀ e s s', Micro cfg s₀ e s s' → W s₀ e s → W s₀ e s')
    (hmicro : ∀ s₀ e s s', ok s₀ e = true → Inv s₀ → Micro cfg s₀ e s s' → W s₀ e s → Inv s → Inv s')
    (h : Run.Along (State.step cfg) (fun s e => ok s e = true) s es) :
    Inv (Run.run (State.step cfg) s es) := by
  refine Run.invariant ?_ h hinit
  intro s e hs hok
  refine (Run.star_invariant (P := fun s' => W s e s' ∧ Inv s') ?_ (State.step_chain cfg s e)
    ⟨hrefl s e, hs⟩).2
  exact fun a b hm hab => ⟨hW s e a b hm hab.1, hmicro s e a b hok hs hm hab.1 hab.2⟩

theorem invariant_within {Inv : State → Prop} {ok : State → Step → Bool} {W : State → Step → State → Prop}
    (hinit : Inv (State.init t)) (hrefl : ∀ s e, W s e s)
    (hW : ∀ s₀ e s s', Micro cfg s₀ e s s' → W s₀ e s → W s₀ e s')
    (hmicro : ∀ s₀ e s s', ok s₀ e = true → Inv s₀ → Micro cfg s₀ e s s' → W s₀ e s → Inv s → Inv s')
    (h : State.Along cfg ok t es) : Inv (State.after cfg t es) :=
  run_within hinit hrefl hW hmicro h

theorem always_of_micro {Inv : State → Prop} (hinit : Inv (State.init t))
    (hmicro : ∀ s₀ e s s', Inv s₀ → Micro cfg s₀ e s s' → Inv s → Inv s') :
    Inv (State.after cfg t es) :=
  have h : State.Along cfg (fun _ _ => true) t es := Run.along_of_forall (fun _ _ => rfl) _ _
  invariant_of_micro hinit (fun s₀ e s s' _ => hmicro s₀ e s s') h

/-- Every connection has a property. -/
def State.Each (P : Conn → Prop) (s : State) : Prop := ∀ c x, s.conns c = some x → P x

theorem State.Each.all {P : Conn → Prop} [DecidablePred P] {s : State} (h : s.Each P) (c : Nat) :
    (s.conns c).all (fun x => decide (P x)) = true := by
  cases hx : s.conns c with
  | none => rfl
  | some x => simpa using h c x hx

/-- A connection that has just been accepted. -/
def Conn.new (cfg : Config) (d : Str) (device : Device) (rand : Bytes) (now : Clock) : Conn :=
  { deviceId := d
    link := { session := DeviceSession.new device cfg.authScope (ofChars (base64 rand)) now } }

/-- The connection of a completed handshake. -/
def Conn.shake (x : Conn) (now : Clock) : Conn :=
  { x with link := { x.link with session := { x.link.session with lastRxMs := now.ms } }
           pc := .live .idle false, shaken := true }

theorem State.shake_eq (s : State) (c : Nat) (x : Conn) : s.shake c x = s.setConn c (x.shake s.now) :=
  rfl

/-- A connection attempt for an unknown device does nothing; otherwise the new connection replaces the
session of its device. -/
theorem State.accept_cases (cfg : Config) (s : State) (d : Str) (rand : Bytes) :
    s.accept cfg d rand = s ∨
    ∃ device s₁, cfg.registry.get d = some device ∧
      (s₁ = s ∨ ∃ old x, s.conns old = some x ∧ s₁ = s.setConn old { x with closeRequested := true }) ∧
      s.accept cfg d rand =
        { s₁.setConn s.nextConn (Conn.new cfg d device rand s.now) with
          sessions := Function.update s.sessions d (some s.nextConn), nextConn := s.nextConn + 1 } := by
  unfold accept
  cases cfg.registry.get d with
  | none => exact .inl rfl
  | some device =>
      right
      dsimp only
      split
      · split
        · rename_i old _ _ x hold
          exact ⟨device, _, rfl, .inr ⟨old, x, hold, rfl⟩, rfl⟩
        · exact ⟨device, s, rfl, .inl rfl, rfl⟩
      · exact ⟨device, s, rfl, .inl rfl, rfl⟩

/-- The connections after an accept: the new one, or an old one that may be about to close. -/
theorem State.accept_conns {s : State} {d : Str} {rand : Bytes} {c : Nat} {x : Conn}
    (h : (s.accept cfg d rand).conns c = some x) :
    (∃ device, cfg.registry.get d = some device ∧ c = s.nextConn ∧
      x = Conn.new cfg d device rand s.now) ∨
    ∃ x₀ b, s.conns c = some x₀ ∧ x = { x₀ with closeRequested := b } := by
  rcases s.accept_cases cfg d rand with he | ⟨device, s₁, hd, hs₁, he⟩
  · rw [he] at h
    exact .inr ⟨x, x.closeRequested, h, rfl⟩
  · rw [he] at h
    rcases setConn_cases _ _ _ h with ⟨rfl, rfl⟩ | ⟨-, hx⟩
    · exact .inl ⟨device, hd, rfl, rfl⟩
    · rcases hs₁ with rfl | ⟨old, x₁, hold, rfl⟩
      · exact .inr ⟨x, x.closeRequested, hx, rfl⟩
      · rcases setConn_cases _ _ _ hx with ⟨rfl, rfl⟩ | ⟨-, hx⟩
        · exact .inr ⟨x₁, true, hold, rfl⟩
        · exact .inr ⟨x, x.closeRequested, hx, rfl⟩

/-- What an update that leaves `sessions` as the registry makes of connection `c`. -/
inductive ConnUpdate (cfg : Config) (s₀ : State) (e : Step) (s : State) (sessions : Str → Option Nat)
    (c : Nat) : Option Conn → Prop
  | same {o : Option Conn} (h : s.conns c = o) : ConnUpdate cfg s₀ e s sessions c o
  | new {d : Str} {device : Device} {rand : Bytes} (he : e = .accept d rand) (hc : c = s.nextConn)
      (hd : cfg.registry.get d = some device) (hs : sessions d = some c) :
      ConnUpdate cfg s₀ e s sessions c (some (Conn.new cfg d device rand s₀.now))
  | replaced {x : Conn} {b : Bool} (hx : s.conns c = some x) :
      ConnUpdate cfg s₀ e s sessions c (some { x with closeRequested := b })
  | step {x x' : Conn} (hx : s.conns c = some x) (h : ConnStep s₀ e s c x x') :
      ConnUpdate cfg s₀ e s sessions c (some x')
  | shaken {x : Conn} (hx : s.conns c = some x) (hpc : x.pc = .proofReply)
      (he : s₀.completes cfg c e = true) : ConnUpdate cfg s₀ e s sessions c (some (x.shake s.now))
  | ended {x : Conn} (hx : s.conns c = some x) (hpc : x.pc ≠ .ended) (he : e.handler = some c)
      (hs : sessions = if s.sessions x.deviceId = some c then
        Function.update s.sessions x.deviceId none else s.sessions) :
      ConnUpdate cfg s₀ e s sessions c (some { x with pc := .ended })

/-- The update of the connection `c` that is set, or of one that stays. -/
theorem ConnUpdate.of_setConn {s₀ s : State} {e : Step} {sessions : Str → Option Nat} {c₀ : Nat} {x : Conn}
    (h : ConnUpdate cfg s₀ e s sessions c₀ (some x)) (c : Nat) :
    ConnUpdate cfg s₀ e s sessions c ((s.setConn c₀ x).conns c) := by
  by_cases hc : c = c₀
  · subst hc
    rw [State.setConn_self]
    exact h
  · rw [State.setConn_ne _ _ _ hc]
    exact .same rfl

theorem Micro.update {s₀ s s' : State} {e : Step} (hm : Micro cfg s₀ e s s') (c : Nat) :
    ConnUpdate cfg s₀ e s s'.sessions c (s'.conns c) := by
  cases hm with
  | tick he => exact .same rfl
  | accept he =>
      rename_i d rand
      rcases s₀.accept_cases cfg d rand with hacc | ⟨device, s₁, hd, hs₁, hacc⟩
      · rw [hacc]
        exact .same rfl
      · rw [hacc]
        dsimp only
        by_cases hc : c = s₀.nextConn
        · subst hc
          rw [State.setConn_self]
          exact .new he rfl hd (Function.update_self ..)
        · rw [State.setConn_ne _ _ _ hc]
          rcases hs₁ with rfl | ⟨old, x, hold, rfl⟩
          · exact .same rfl
          · exact .of_setConn (.replaced hold) c
  | deviceSign he => exact .same rfl
  | conn hx hnow ha hs => exact .of_setConn (.step hx hs) c
  | connected hx hpc hc =>
      rw [State.called_conns, State.shake_eq]
      exact .of_setConn (.shaken hx hpc hc) c
  | finished hx hpc he =>
      rw [State.finish_conns _ _ hx]
      exact .of_setConn (.ended hx hpc he (State.finish_sessions _ cfg hx)) c
  | called hx hcall =>
      rw [State.called_conns]
      exact .same rfl
  | stored => exact .same rfl
  | task => exact .same rfl
  | spawned => exact .same rfl

/-- A property of connections is kept by an update when the updates of one connection keep it. -/
theorem Micro.each {P : Conn → Prop} {s₀ s s' : State} {e : Step} (hm : Micro cfg s₀ e s s')
    (hnew : ∀ d device rand, e = .accept d rand → cfg.registry.get d = some device →
      P (Conn.new cfg d device rand s₀.now))
    (hclose : ∀ x b, P x → P { x with closeRequested := b })
    (hstep : ∀ c x x', s.conns c = some x → ConnStep s₀ e s c x x' → P x → P x')
    (hshake : ∀ c x, s.conns c = some x → x.pc = .proofReply → P x → P (x.shake s.now))
    (hend : ∀ x, P x → P { x with pc := .ended }) (h : s.Each P) : s'.Each P := by
  intro c x hx
  have hupdate := hm.update c
  rw [hx] at hupdate
  cases hupdate with
  | same hx₀ => exact h c x hx₀
  | new he hc hd hs => exact hnew _ _ _ he hd
  | replaced hx₀ => exact hclose _ _ (h c _ hx₀)
  | step hx₀ hs => exact hstep _ _ _ hx₀ hs (h c _ hx₀)
  | shaken hx₀ hpc he => exact hshake _ _ hx₀ hpc (h c _ hx₀)
  | ended hx₀ hpc he hs => exact hend _ (h c _ hx₀)

/-! ## Connection numbers -/

/-- Connections are numbered in the order in which they are accepted. -/
def State.Numbered (s : State) : Prop := ∀ c x, s.conns c = some x → c < s.nextConn

theorem Micro.numbered {s₀ s s' : State} {e : Step} (hm : Micro cfg s₀ e s s') (h : s.Numbered) :
    s'.Numbered := by
  intro c x hx
  cases hm with
  | tick he => exact h c x hx
  | accept he =>
      rename_i d rand
      have hconns := State.accept_conns hx
      rcases s₀.accept_cases cfg d rand with hacc | ⟨device, s₁, hd, hs₁, hacc⟩
      · rw [hacc] at hx ⊢
        exact h c x hx
      · rw [hacc]
        rcases hconns with ⟨_, -, rfl, -⟩ | ⟨x₀, b, hx₀, -⟩
        · exact Nat.lt_succ_self _
        · exact Nat.lt_succ_of_lt (h c x₀ hx₀)
  | deviceSign he => exact h c x hx
  | conn hx₀ hnow ha hs =>
      rcases State.setConn_cases _ _ _ hx with ⟨rfl, -⟩ | ⟨-, hx⟩
      · exact h _ _ hx₀
      · exact h c x hx
  | connected hx₀ hpc hc =>
      rw [State.called_conns, State.shake_eq] at hx
      rw [State.called_nextConn]
      rcases State.setConn_cases _ _ _ hx with ⟨rfl, -⟩ | ⟨-, hx⟩
      · exact h _ _ hx₀
      · exact h c x hx
  | finished hx₀ hpc he =>
      rw [State.finish_conns _ _ hx₀] at hx
      rw [State.finish_nextConn]
      rcases State.setConn_cases _ _ _ hx with ⟨rfl, -⟩ | ⟨-, hx⟩
      · exact h _ _ hx₀
      · exact h c x hx
  | called hx₀ hcall =>
      rw [State.called_conns] at hx
      rw [State.called_nextConn]
      exact h c x hx
  | stored => exact h c x hx
  | task => exact h c x hx
  | spawned => exact h c x hx

theorem State.numbered_init (t : Nat) : (State.init t).Numbered := by
  intro c x hx
  cases hx

theorem numbered_after (cfg : Config) (t : Nat) (es : List Step) : (State.after cfg t es).Numbered :=
  always_of_micro (State.numbered_init t) fun _ _ _ _ _ hm h => hm.numbered h

/-! ## What connections and tasks keep -/

/-- What a connection keeps in every update. -/
structure Conn.Grows (x x' : Conn) : Prop where
  deviceId : x'.deviceId = x.deviceId
  negotiated : x.link.session.negotiated = true → x'.link.session.negotiated = true
  shaken : x.shaken = true → x'.shaken = true
  received : ∃ more, x'.link.received = x.link.received ++ more

theorem Conn.Grows.refl (x : Conn) : Conn.Grows x x :=
  ⟨rfl, id, id, [], (List.append_nil _).symm⟩

theorem Conn.Grows.trans {x y z : Conn} (h : Conn.Grows x y) (h' : Conn.Grows y z) :
    Conn.Grows x z := by
  obtain ⟨more, hm⟩ := h.received
  obtain ⟨more', hm'⟩ := h'.received
  refine ⟨h'.deviceId.trans h.deviceId, fun hn => h'.negotiated (h.negotiated hn),
    fun hs => h'.shaken (h.shaken hs), more ++ more', ?_⟩
  rw [hm', hm, List.append_assoc]

theorem Conn.Grows.of_still {x : Conn} {l : Link} (h : Link.Still x.link l)
    (hrec : ∃ more, l.received = x.link.received ++ more) : Conn.Grows x { x with link := l } := by
  obtain ⟨p, ms, hs⟩ := h.session
  refine ⟨rfl, fun hn => ?_, id, hrec⟩
  dsimp only
  rw [hs]
  exact hn

theorem ConnStep.grows {s₀ s : State} {e : Step} {c : Nat} {x x' : Conn}
    (h : ConnStep s₀ e s c x x') : Conn.Grows x x' := by
  have hnil : ∀ l : List Received, ∃ more, l = l ++ more := fun l => ⟨[], (List.append_nil l).symm⟩
  cases h with
  | quiet hq => exact ⟨rfl, id, id, hnil _⟩
  | helloFailed hpc =>
      rename_i d code
      obtain ⟨cn, kid, key, hs, -⟩ := DeviceSession.hello_session x.link.session s.now d
      refine ⟨rfl, fun hn => ?_, id, hnil _⟩
      dsimp only
      rw [hs]
      exact hn
  | helloAcked hpc hack =>
      rename_i d ack accepted
      obtain ⟨cn, kid, key, hs, -⟩ := DeviceSession.hello_session x.link.session s.now d
      refine ⟨rfl, fun hn => ?_, id, hnil _⟩
      simp only [Link.push, hs]
      exact hn
  | verified hpc hs he hv => exact ⟨rfl, fun _ => rfl, id, hnil _⟩
  | start ho =>
      rename_i call
      obtain ⟨seq, id', p, -, hs⟩ := Link.start_session x.link s.now call
      refine ⟨rfl, fun hn => ?_, id, [], ?_⟩
      · dsimp only
        rw [hs]
        exact hn
      · rw [List.append_nil, Link.start_received]
  | sendDone k ok =>
      exact .of_still (Link.sendDone_still ..) ⟨[], by rw [Link.sendDone_received, List.append_nil]⟩
  | expire k =>
      refine .of_still (Link.expire_still ..) ⟨[], ?_⟩
      rw [List.append_nil]
      unfold Link.expire
      split
      · rfl
      · split <;> rfl
  | wake k raises =>
      exact .of_still (Link.wake_still ..) ⟨[], by rw [Link.wake_received, List.append_nil]⟩
  | dispatch hpc he =>
      obtain ⟨en, hrec, -⟩ := Link.dispatch_received x.link s.now ‹Str → Bool› ‹Json›
      exact .of_still (Link.dispatch_still ..) ⟨[en], hrec⟩

theorem Micro.grows {s₀ s s' : State} {e : Step} (hm : Micro cfg s₀ e s s') (hs : s.Numbered)
    {c : Nat} {x : Conn} (hx : s.conns c = some x) :
    ∃ x', s'.conns c = some x' ∧ Conn.Grows x x' := by
  have hnil : ∃ more, x.link.received = x.link.received ++ more := ⟨[], (List.append_nil _).symm⟩
  have hupdate := hm.update c
  generalize s'.conns c = o at hupdate
  cases hupdate with
  | same hx₀ => exact ⟨x, hx₀.symm.trans hx, .refl x⟩
  | new he hc hd hs' => exact absurd (hc ▸ hs c x hx) (Nat.lt_irrefl _)
  | replaced hx₀ =>
      cases hx.symm.trans hx₀
      exact ⟨_, rfl, rfl, id, id, hnil⟩
  | step hx₀ h =>
      cases hx.symm.trans hx₀
      exact ⟨_, rfl, h.grows⟩
  | shaken hx₀ hpc he =>
      cases hx.symm.trans hx₀
      exact ⟨_, rfl, rfl, id, fun _ => rfl, hnil⟩
  | ended hx₀ hpc he hs' =>
      cases hx.symm.trans hx₀
      exact ⟨_, rfl, rfl, id, id, hnil⟩

theorem State.accept_tasks (cfg : Config) (s : State) (d : Str) (rand : Bytes) :
    (s.accept cfg d rand).tasks = s.tasks := by
  rcases s.accept_cases cfg d rand with he | ⟨device, s₁, hd, hs₁, he⟩
  · rw [he]
  · have hs : s₁.tasks = s.tasks := by
      rcases hs₁ with rfl | ⟨old, x₁, hold, rfl⟩
      · rfl
      · exact setConn_tasks ..
    rw [he]
    exact hs

theorem State.accept_deviceState (cfg : Config) (s : State) (d : Str) (rand : Bytes) :
    (s.accept cfg d rand).deviceState = s.deviceState := by
  rcases s.accept_cases cfg d rand with he | ⟨device, s₁, hd, hs₁, he⟩
  · rw [he]
  · have hs : s₁.deviceState = s.deviceState := by
      rcases hs₁ with rfl | ⟨old, x₁, hold, rfl⟩
      · rfl
      · exact setConn_deviceState ..
    rw [he]
    exact hs

theorem State.finish_tasks (cfg : Config) {s : State} {c : Nat} {x : Conn} (hx : s.conns c = some x)
    {t' : Nat} {y' : Task} (ht : (s.finish cfg c).tasks t' = some y') : s.tasks t' = some y' := by
  by_cases hd : s.sessions x.deviceId = some c
  · rw [finish_current _ _ hx hd] at ht
    rcases called_tasks _ _ _ _ _ _ _ _ ht with ht | ⟨hh, -⟩
    · exact ht
    · cases hh
  · rw [finish_replaced _ _ hx hd] at ht
    exact ht

theorem Invoked.dispatches {s₀ s : State} {e : Step} {c : Nat} {x : Conn} {key : Str} {h : Hook}
    {cause : Cause} {msg : Dict} (hcall : Invoked s₀ e s c x key h cause msg) : x.pc.dispatches := by
  cases hcall with
  | dispatched he hkey hh hpc hrec => exact hpc
  | otaCheck he hpc hproof htype => exact .inl hpc

/-- A task that polls is an old one, or one that a connect hook has just created. -/
theorem Micro.tasks {s₀ s s' : State} {e : Step} (hm : Micro cfg s₀ e s s') {t' : Nat} {y' : Task}
    (ht : s'.tasks t' = some y') (hp : y'.body.polls = true) :
    (∃ y, s.tasks t' = some y ∧ y.conn = y'.conn ∧ y.body.polls = true) ∨
      ∃ x, s.conns y'.conn = some x ∧ x.pc.dispatches := by
  cases hm with
  | tick he => exact .inl ⟨y', ht, rfl, hp⟩
  | accept he =>
      rw [State.accept_tasks] at ht
      exact .inl ⟨y', ht, rfl, hp⟩
  | deviceSign he => exact .inl ⟨y', ht, rfl, hp⟩
  | conn hx₀ hnow ha hs => exact .inl ⟨y', ht, rfl, hp⟩
  | connected hx₀ hpc hc =>
      rcases State.called_tasks _ _ _ _ _ _ _ _ ht with ht | ⟨-, hc, -⟩
      · exact .inl ⟨y', ht, rfl, hp⟩
      · subst hc
        exact .inr ⟨_, hx₀, .inl hpc⟩
  | finished hx₀ hpc he => exact .inl ⟨y', State.finish_tasks cfg hx₀ ht, rfl, hp⟩
  | called hx₀ hcall =>
      rcases State.called_tasks _ _ _ _ _ _ _ _ ht with ht | ⟨hh, hc, -⟩
      · exact .inl ⟨y', ht, rfl, hp⟩
      · subst hc
        exact .inr ⟨_, hx₀, hcall.dispatches⟩
  | stored => exact .inl ⟨y', ht, rfl, hp⟩
  | task ht₁ ht₀ hc hp' he ha hpause =>
      rcases State.setTask_cases _ _ _ ht with ⟨rfl, rfl⟩ | ⟨-, ht⟩
      · exact .inl ⟨_, ht₁, hc.symm, hp'.symm.trans hp⟩
      · exact .inl ⟨y', ht, rfl, hp⟩
  | spawned hp' ha =>
      rcases State.setTask_cases _ _ _ ht with ⟨-, rfl⟩ | ⟨-, ht⟩
      · rw [hp'] at hp
        cases hp
      · exact .inl ⟨y', ht, rfl, hp⟩

/-! ## What an update does to a shadow -/

/-- The shadow of device `d` after an update: the same, or what a hook or a task has left. -/
inductive ShadowStep (cfg : Config) (s₀ : State) (e : Step) (s : State) (d : Str) : Shadow → Prop
  | same : ShadowStep cfg s₀ e s d (s.deviceState d)
  | connected {c : Nat} {x : Conn} (hx : s.conns c = some x) (hd : x.deviceId = d)
      (hpc : x.pc = .proofReply) (he : s₀.completes cfg c e = true) :
      ShadowStep cfg s₀ e s d (onConnect (s.deviceState d) x.link.session s.now).shadow
  | disconnected {c : Nat} {x : Conn} (hx : s.conns c = some x) (hd : x.deviceId = d)
      (hcur : s.sessions d = some c) : ShadowStep cfg s₀ e s d (onDisconnect (s.deviceState d) s.now).shadow
  | hook {c : Nat} {x : Conn} {key : Str} {h : Hook} {cause : Cause} {msg : Dict}
      (hx : s.conns c = some x) (hd : x.deviceId = d) (hcall : Invoked s₀ e s c x key h cause msg) :
      ShadowStep cfg s₀ e s d (runHook cfg h (s.deviceState d) x.link.session s.now msg).shadow
  | task {t : Nat} {y : Task} {x : Conn} {b : TaskBody} {res : Except PyErr Dict}
      (ht : s.tasks t = some y) (hx : s.conns y.conn = some x) (hd : x.deviceId = d)
      (hb : b.reads = y.body.reads) (hres : Resumed s₀ e t y.conn res) :
      ShadowStep cfg s₀ e s d (b.resume cfg.limits (s.deviceState d) s.now res).shadow

theorem State.setShadow_cases {s : State} {d d' : Str} {st : Shadow} {P : Shadow → Prop}
    (hsame : P (s.deviceState d)) (hset : d' = d → P st) : P ((s.setShadow d' st).deviceState d) := by
  by_cases hd : d = d'
  · subst hd
    rw [setShadow_self]
    exact hset rfl
  · rw [setShadow_ne _ _ _ hd]
    exact hsame

theorem Micro.shadow {s₀ s s' : State} {e : Step} (hm : Micro cfg s₀ e s s') (d : Str) :
    ShadowStep cfg s₀ e s d (s'.deviceState d) := by
  cases hm with
  | tick he => exact .same
  | accept he =>
      rw [State.accept_deviceState]
      exact .same
  | deviceSign he => exact .same
  | conn hx hnow ha hs => exact .same
  | connected hx hpc hc =>
      rename_i c x
      rw [State.called_deviceState]
      refine State.setShadow_cases (s := s.shake c x) .same fun hd => ?_
      rw [← hd]
      exact .connected hx rfl hpc hc
  | finished hx hpc he =>
      rename_i c x
      by_cases hcur : s.sessions x.deviceId = some c
      · rw [State.finish_current _ _ hx hcur, State.called_deviceState]
        refine State.setShadow_cases .same fun hd => ?_
        rw [← hd]
        exact .disconnected hx rfl hcur
      · rw [State.finish_replaced _ _ hx hcur]
        exact .same
  | called hx hcall =>
      rw [State.called_deviceState]
      refine State.setShadow_cases .same fun hd => ?_
      rw [← hd]
      exact .hook hx rfl hcall
  | stored ht hx hb hres ht₀ hnow hrec ha =>
      refine State.setShadow_cases .same fun hd => ?_
      rw [← hd]
      exact .task ht hx rfl hb hres
  | task => exact .same
  | spawned => exact .same

end Fountainer
