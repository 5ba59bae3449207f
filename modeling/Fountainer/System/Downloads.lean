import Fountainer.System.Ghost

/-!
# Pauses for a download

The pollers of a session pause while the shadow of its device says `downloading`. The shadow outlives
the session that has reported the download, and any connection of the device can write it.
-/

namespace Fountainer

variable {cfg : Config} {s₀ s s' : State} {e : Step}

/-- The device has reported a running download on connection `c`. -/
def State.Reported (s : State) (c : Nat) : Prop :=
  ∃ call ∈ s.hooks, call.conn = c ∧ call.key = py "ota_status" ∧
    Dict.get call.msg (py "state") = .str (py "downloading")

instance (s : State) (c : Nat) : Decidable (s.Reported c) :=
  inferInstanceAs (Decidable (∃ call ∈ s.hooks, call.conn = c ∧ call.key = py "ota_status" ∧
    Dict.get call.msg (py "state") = .str (py "downloading")))

/-- A newer connection of the same device has proved itself. -/
def State.superseded (s : State) (c : Nat) : Bool :=
  (s.conns c).any fun x => (List.range s.nextConn).any fun c' => c < c' &&
    (s.conns c').any fun x' => x'.deviceId = x.deviceId && x'.link.session.negotiated

/-- The frame reports a running download on connection `c`. -/
def State.reportsDownload (s : State) (c : Nat) : Step → Bool
  | .recv c' (.json (.obj d)) => c' = c ∧ s.lookedUp c d = some (py "ota_status") ∧
      Dict.get d (py "state") = .str (py "downloading")
  | _ => false

/-! ## The condition -/

/-- A session starts with no download in the shadow. -/
def startsIdle (cfg : Config) (s : State) (e : Step) : Bool :=
  e.handler.all fun c => !s.connects cfg c e || s.superseded c || s.ran .onConnect c ≠ [] ||
    (s.conns c).all fun x => !(s.deviceState x.deviceId).downloading

/-- Downloads are reported on connections that have not been superseded. -/
def reportsCurrent (s : State) (e : Step) : Bool :=
  e.handler.all fun c => !s.reportsDownload c e || !s.superseded c

/-- When a poller of a superseded connection goes on, the shadow does not say `downloading`, or the device
has reported a running download on this connection. -/
def pausesCurrent (s : State) (e : Step) : Bool :=
  (s.resumes e).all fun t => (s.tasks t).all fun y =>
    !y.body.polls || y.body.paused || !s.superseded y.conn || decide (s.Reported y.conn) ||
      (s.conns y.conn).all fun x => !(s.deviceState x.deviceId).downloading

def downloadsCurrent (cfg : Config) (s : State) (e : Step) : Bool :=
  startsIdle cfg s e && reportsCurrent s e && pausesCurrent s e

/-! ## Superseded connections -/

theorem State.superseded_iff (hn : s.Numbered) {c : Nat} {x : Conn} (hx : s.conns c = some x) :
    s.superseded c = true ↔ ∃ c' x', c < c' ∧ s.conns c' = some x' ∧ x'.deviceId = x.deviceId ∧
      x'.link.session.negotiated = true := by
  simp only [superseded, hx, Option.any_some, List.any_eq_true, List.mem_range, Bool.and_eq_true,
    decide_eq_true_eq, Option.any_eq_true]
  constructor
  · rintro ⟨c', -, hlt, x', hx', hd, hneg⟩
    exact ⟨c', x', hlt, hx', hd, hneg⟩
  · rintro ⟨c', x', hlt, hx', hd, hneg⟩
    exact ⟨c', hn c' x' hx', hlt, x', hx', hd, hneg⟩

theorem State.ran_ne_nil (h : ∃ more, s'.hooks = s.hooks ++ more) {hook : Hook} {c : Nat}
    (hran : s.ran hook c ≠ []) : s'.ran hook c ≠ [] := by
  obtain ⟨more, hmore⟩ := h
  unfold ran callsOf at hran ⊢
  rw [hmore, List.filter_append, List.filter_append]
  exact fun hnil => hran (List.append_eq_nil_iff.mp hnil).1

theorem State.Reported.mono (h : ∃ more, s'.hooks = s.hooks ++ more) {c : Nat} (hr : s.Reported c) :
    s'.Reported c := by
  obtain ⟨more, hmore⟩ := h
  obtain ⟨call, hcall, hc⟩ := hr
  exact ⟨call, by rw [hmore]; exact List.mem_append_left _ hcall, hc⟩

theorem Micro.hooks_grow (hm : Micro cfg s₀ e s s') : ∃ more, s'.hooks = s.hooks ++ more := by
  rcases hm.hooks with h | ⟨call, x, -, h, -⟩
  · exact ⟨[], by rw [h, List.append_nil]⟩
  · exact ⟨[call], h⟩

/-! ## What an update adds -/

theorem Invoked.registered {c : Nat} {x : Conn} {key : Str} {h : Hook} {cause : Cause} {msg : Dict}
    (hcall : Invoked s₀ e s c x key h cause msg) : callbackFor key = some h := by
  cases hcall with
  | dispatched he hkey hh hpc hrec => exact hh
  | otaCheck he hpc hproof htype => decide

/-- The connect hook runs for the first time. -/
theorem Micro.first_connect (hm : Micro cfg s₀ e s s') {c : Nat} (hran : s'.ran .onConnect c ≠ []) :
    s.ran .onConnect c ≠ [] ∨
      (s₀.connects cfg c e = true ∧ ∃ x, s.conns c = some x ∧ x.pc.dispatches ∧
        (s'.deviceState x.deviceId).otaStatus = (s.deviceState x.deviceId).otaStatus) := by
  have hsame : s'.ran .onConnect c = s.ran .onConnect c → s.ran .onConnect c ≠ [] := fun h => h ▸ hran
  cases hm with
  | accept he => exact .inl (hsame (State.ran_congr (State.accept_hooks ..) _ _))
  | connected hx hpc hc =>
      rename_i c₀ x
      by_cases hcc : c₀ = c
      · subst hcc
        refine .inr ⟨by simp [State.connects, hc], x, hx, .inl hpc, ?_⟩
        rw [State.called_deviceState, State.setShadow_self]
        rfl
      · have hkey : callbackFor (py "__connect__") = some .onConnect := by decide
        exact .inl (hsame (State.ran_append (State.called_hooks ..) hkey (.inr hcc)))
  | finished hx hpc he =>
      rename_i c₀ x
      have hhooks := State.finish_hooks cfg hx
      split at hhooks
      · have hkey : callbackFor (py "__disconnect__") = some .onDisconnect := by decide
        exact .inl (hsame (State.ran_append hhooks hkey (.inl (by decide))))
      · exact .inl (hsame (State.ran_congr hhooks _ _))
  | called hx hcall =>
      rename_i c₀ x key hook cause msg
      by_cases hne : hook ≠ .onConnect ∨ c₀ ≠ c
      · exact .inl (hsame (State.ran_append (State.called_hooks ..) hcall.registered hne))
      · obtain ⟨rfl, rfl⟩ := not_or.mp hne |>.imp not_not.mp not_not.mp
        refine .inr ⟨?_, x, hx, hcall.dispatches, ?_⟩
        · cases hcall with
          | dispatched he hkey hh hpc hrec =>
              have hconnect : key = py "__connect__" := callbackFor_key hh
              simp [State.connects, he, ← hconnect, hkey]
        · rw [State.called_deviceState, State.setShadow_self]
          rfl
  | _ => exact .inl (hsame rfl)

theorem Micro.new_download (hm : Micro cfg s₀ e s s') {d : Str} (hd : (s'.deviceState d).downloading = true) :
    (s.deviceState d).downloading = true ∨
      ∃ c x, s₀.reportsDownload c e = true ∧ s.conns c = some x ∧ x.deviceId = d ∧ x.pc.dispatches ∧
        s'.Reported c := by
  have hset : ∀ {s₁ : State} {d₁ : Str} {st : Shadow}, s₁.deviceState = s.deviceState →
      ((s₁.setShadow d₁ st).deviceState d).downloading = true →
      (s.deviceState d).downloading = true ∨ (d₁ = d ∧ st.downloading = true) := by
    intro s₁ d₁ st hs₁ hd
    by_cases hdd : d = d₁
    · subst hdd
      rw [State.setShadow_self] at hd
      exact .inr ⟨rfl, hd⟩
    · rw [State.setShadow_ne _ _ _ hdd, hs₁] at hd
      exact .inl hd
  cases hm with
  | accept he =>
      rw [State.accept_deviceState] at hd
      exact .inl hd
  | connected hx hpc hc =>
      rw [State.called_deviceState] at hd
      rcases hset (State.setConn_deviceState ..) hd with hd | ⟨rfl, hst⟩
      · exact .inl hd
      · exact .inl hst
  | finished hx hpc he =>
      rename_i c x
      by_cases hcur : s.sessions x.deviceId = some c
      · rw [State.finish_current _ _ hx hcur, State.called_deviceState] at hd
        rcases hset rfl hd with hd | ⟨rfl, hst⟩
        · exact .inl hd
        · exact .inl hst
      · rw [State.finish_replaced _ _ hx hcur] at hd
        exact .inl hd
  | called hx hcall =>
      rename_i c x key hook cause msg
      rw [State.called_deviceState] at hd
      rcases hset rfl hd with hd | ⟨rfl, hst⟩
      · exact .inl hd
      · rcases runHook_downloading hst with hst | ⟨rfl, hmsg⟩
        · exact .inl hst
        · have hkey : key = py "ota_status" := callbackFor_key hcall.registered
          refine .inr ⟨c, x, ?_, hx, rfl, hcall.dispatches, ?_⟩
          · cases hcall with
            | dispatched he hlook hh hpc hrec => simp [State.reportsDownload, he, ← hkey, hlook, hmsg]
          · refine ⟨⟨c, key, cause, msg⟩, ?_, rfl, hkey, hmsg⟩
            rw [State.called_hooks]
            exact List.mem_append_right _ (List.mem_singleton_self _)
  | stored ht hx hb hres ht₀ hnow hrec ha =>
      rcases hset rfl hd with hd | ⟨rfl, hst⟩
      · exact .inl hd
      · rw [Shadow.downloading_congr (TaskBody.resume_otaStatus ..)] at hst
        exact .inl hst
  | _ => exact .inl hd

theorem ConnStep.proves {c : Nat} {x x' : Conn} (h : ConnStep s₀ e s c x x')
    (hn : x'.link.session.negotiated = true) :
    x.link.session.negotiated = true ∨ e.handler = some c := by
  have hstill : ∀ l, Link.Still x.link l → l.session.negotiated = true → x.link.session.negotiated = true := by
    intro l hl hl'
    obtain ⟨p, ms, hs⟩ := hl.session
    rw [hs] at hl'
    exact hl'
  cases h with
  | quiet hq => exact .inl hn
  | helloFailed hpc =>
      obtain ⟨cn, kid, key, hs, -⟩ := DeviceSession.hello_session x.link.session s.now ‹Dict›
      rw [hs] at hn
      exact .inl hn
  | helloAcked hpc hack =>
      rename_i d ack accepted
      obtain ⟨cn, kid, key, hs, -⟩ := DeviceSession.hello_session x.link.session s.now d
      simp only [Link.push, hs] at hn
      exact .inl hn
  | verified hpc hs he hv => exact .inr (by rw [he]; rfl)
  | start ho =>
      obtain ⟨seq, id', p, -, hs⟩ := Link.start_session x.link s.now ‹Call›
      rw [hs] at hn
      exact .inl hn
  | sendDone k ok => exact .inl (hstill _ (Link.sendDone_still ..) hn)
  | expire k => exact .inl (hstill _ (Link.expire_still ..) hn)
  | wake k raises => exact .inl (hstill _ (Link.wake_still ..) hn)
  | dispatch hpc he => exact .inl (hstill _ (Link.dispatch_still ..) hn)

theorem Micro.proven (hm : Micro cfg s₀ e s s') {c : Nat} {x' : Conn} (hx' : s'.conns c = some x')
    (hn : x'.link.session.negotiated = true) (he : e.handler ≠ some c) :
    ∃ x, s.conns c = some x ∧ x.deviceId = x'.deviceId ∧ x.link.session.negotiated = true := by
  have hupdate := hm.update c
  rw [hx'] at hupdate
  cases hupdate with
  | same hx => exact ⟨x', hx, rfl, hn⟩
  | new he hc hd hs => cases hn
  | replaced hx => exact ⟨_, hx, rfl, hn⟩
  | step hx h => exact ⟨_, hx, h.grows.deviceId.symm, (h.proves hn).resolve_right he⟩
  | shaken hx hpc hc => exact ⟨_, hx, rfl, hn⟩
  | ended hx hpc hc hs => exact ⟨_, hx, rfl, hn⟩

theorem State.superseded_mono (hn : s.Numbered) (hn' : s'.Numbered)
    (h : ∀ c x, s.conns c = some x → ∃ x', s'.conns c = some x' ∧ Conn.Grows x x') {c : Nat}
    (hsup : s.superseded c = true) : s'.superseded c = true := by
  cases hx : s.conns c with
  | none =>
      unfold superseded at hsup
      rw [hx] at hsup
      cases hsup
  | some x =>
      obtain ⟨c₁, x₁, hlt, hx₁, hd, hneg⟩ := (superseded_iff hn hx).mp hsup
      obtain ⟨x', hx', hg⟩ := h c x hx
      obtain ⟨x₁', hx₁', hg₁⟩ := h c₁ x₁ hx₁
      exact (superseded_iff hn' hx').mpr
        ⟨c₁, x₁', hlt, hx₁', hg₁.deviceId.trans (hd.trans hg.deviceId.symm), hg₁.negotiated hneg⟩

/-! ## Inside a step -/

/-- What a step has done so far. -/
structure Told (s₀ : State) (e : Step) (s : State) : Prop where
  hooks : ∃ more, s.hooks = s₀.hooks ++ more
  grown : ∀ c x₀, s₀.conns c = some x₀ → ∃ x, s.conns c = some x ∧ Conn.Grows x₀ x
  inherits : s₀.Inherits e s
  proven : ∀ c x, s.conns c = some x → x.link.session.negotiated = true → e.handler ≠ some c →
    ∃ x₀, s₀.conns c = some x₀ ∧ x₀.deviceId = x.deviceId ∧ x₀.link.session.negotiated = true
  download : ∀ d, (s.deviceState d).downloading = true → (s₀.deviceState d).downloading = true ∨
    ∃ c x, e.handler = some c ∧ s.conns c = some x ∧ x.deviceId = d ∧ s.Reported c
  paused : ∀ t y, s.tasks t = some y → y.body.paused = true →
    ∃ y₀, s₀.tasks t = some y₀ ∧ y₀.conn = y.conn ∧ (y₀.body.paused = true ∨
      (s₀.resumes e = some t ∧ y₀.body.polls = true ∧
        ∃ x, s.conns y.conn = some x ∧ (s₀.deviceState x.deviceId).downloading = true))

/-- The connections whose connect hook has run are proven, and on the newest of them the shadow says
`downloading` only after a report; the pollers are theirs. -/
structure Current (s : State) : Prop where
  stages : Stages s
  connected : ∀ c, s.ran .onConnect c ≠ [] → ∃ x, s.conns c = some x ∧ x.link.session.negotiated = true
  download : ∀ c x, s.conns c = some x → s.ran .onConnect c ≠ [] → s.superseded c = false →
    (s.deviceState x.deviceId).downloading = true → s.Reported c
  polling : ∀ t y, s.tasks t = some y → y.body.polls = true → s.ran .onConnect y.conn ≠ []

theorem Told.refl (s : State) (e : Step) : Told s e s :=
  ⟨⟨[], (List.append_nil _).symm⟩, fun _ x hx => ⟨x, hx, .refl x⟩, .refl s e, fun _ x hx hn _ => ⟨x, hx, rfl, hn⟩,
    fun _ => .inl, fun _ y hy hp => ⟨y, hy, rfl, .inl hp⟩⟩

theorem State.reportsDownload_handler {c : Nat} (h : s.reportsDownload c e = true) : e.handler = some c := by
  unfold reportsDownload at h
  split at h
  · simp only [decide_eq_true_eq] at h
    rw [← h.1]
    rfl
  · cases h

theorem TaskBody.polls_of_paused {b : TaskBody} (h : b.paused = true) : b.polls = true := by
  cases b with
  | dpRead => cases h
  | _ => rfl

/-- A paused poller was paused, or its turn has found a download. -/
theorem Micro.paused (hm : Micro cfg s₀ e s s') {t : Nat} {y' : Task} (ht : s'.tasks t = some y')
    (hp : y'.body.paused = true) :
    (∃ y, s.tasks t = some y ∧ y.conn = y'.conn ∧ y.body.paused = true) ∨
      ∃ y, s₀.tasks t = some y ∧ y.conn = y'.conn ∧ s₀.resumes e = some t ∧ y.body.polls = true ∧
        ∃ x, s.conns y'.conn = some x ∧ (s.deviceState x.deviceId).downloading = true := by
  have hcalled : ∀ {s₁ : State} {c d key hook cause msg st}, s₁.tasks = s.tasks →
      (s₁.called c d key hook cause msg st).tasks t = some y' →
      ∃ y, s.tasks t = some y ∧ y.conn = y'.conn ∧ y.body.paused = true := by
    intro s₁ c d key hook cause msg st hs₁ ht
    rcases State.called_tasks _ _ _ _ _ _ _ _ ht with ht | ⟨-, -, hfalse⟩
    · exact ⟨y', hs₁ ▸ ht, rfl, hp⟩
    · rw [hfalse] at hp
      cases hp
  cases hm with
  | accept he =>
      rw [State.accept_tasks] at ht
      exact .inl ⟨y', ht, rfl, hp⟩
  | connected hx hpc hc => exact .inl (hcalled (State.setConn_tasks s _ _) ht)
  | finished hx hpc he => exact .inl ⟨y', State.finish_tasks cfg hx ht, rfl, hp⟩
  | called hx hcall => exact .inl (hcalled rfl ht)
  | task ht₁ ht₀ hc hpolls he ha hpause =>
      rename_i t₁ y y₁
      rcases State.setTask_cases _ _ _ ht with ⟨rfl, rfl⟩ | ⟨-, ht⟩
      · rcases hpause hp with hp₁ | hdown
        · exact .inl ⟨y, ht₁, hc.symm, hp₁⟩
        · exact .inr ⟨y, ht₀, hc.symm, he, hpolls ▸ TaskBody.polls_of_paused hp, hc ▸ hdown⟩
      · exact .inl ⟨y', ht, rfl, hp⟩
  | spawned hpolls ha =>
      rcases State.setTask_cases _ _ _ ht with ⟨-, rfl⟩ | ⟨-, ht⟩
      · rw [TaskBody.polls_of_paused hp] at hpolls
        cases hpolls
      · exact .inl ⟨y', ht, rfl, hp⟩
  | _ => exact .inl ⟨y', ht, rfl, hp⟩

theorem told_micro (hm : Micro cfg s₀ e s s') (hn : s.Numbered) (h : Told s₀ e s) :
    Told s₀ e s' := by
  have hgrow := hm.hooks_grow
  refine ⟨?_, ?_, hm.inherits h.inherits, ?_, ?_, ?_⟩
  · obtain ⟨more, hmore⟩ := h.hooks
    obtain ⟨more', hmore'⟩ := hgrow
    exact ⟨more ++ more', by rw [hmore', hmore, List.append_assoc]⟩
  · intro c x₀ hx₀
    obtain ⟨x, hx, hg⟩ := h.grown c x₀ hx₀
    obtain ⟨x', hx', hg'⟩ := hm.grows hn hx
    exact ⟨x', hx', hg.trans hg'⟩
  · intro c x' hx' hneg he
    obtain ⟨x, hx, hd, hneg₁⟩ := hm.proven hx' hneg he
    obtain ⟨x₀, hx₀, hd₀, hneg₀⟩ := h.proven c x hx hneg₁ he
    exact ⟨x₀, hx₀, hd₀.trans hd, hneg₀⟩
  · intro d hd
    rcases hm.new_download hd with hd | ⟨c, x, hrep, hx, rfl, hpc, hr⟩
    · rcases h.download d hd with hd | ⟨c, x, he, hx, rfl, hr⟩
      · exact .inl hd
      · obtain ⟨x', hx', hg⟩ := hm.grows hn hx
        exact .inr ⟨c, x', he, hx', hg.deviceId, hr.mono hgrow⟩
    · obtain ⟨x', hx', hg⟩ := hm.grows hn hx
      exact .inr ⟨c, x', State.reportsDownload_handler hrep, hx', hg.deviceId, hr⟩
  · intro t y' ht hp
    rcases hm.paused ht hp with ⟨y, hy, hc, hp⟩ | ⟨y, hy, hc, he, hpolls, x, hx, hd⟩
    · obtain ⟨y₀, hy₀, hc₀, hp₀⟩ := h.paused t y hy hp
      refine ⟨y₀, hy₀, hc₀.trans hc, hp₀.imp_right fun ⟨he, hpolls, x, hx, hd⟩ => ⟨he, hpolls, ?_⟩⟩
      obtain ⟨x', hx', hg⟩ := hm.grows hn hx
      exact ⟨x', hc ▸ hx', hg.deviceId ▸ hd⟩
    · refine ⟨y, hy, hc, .inr ⟨he, hpolls, ?_⟩⟩
      obtain ⟨x', hx', hg⟩ := hm.grows hn hx
      refine ⟨x', hx', ?_⟩
      rw [hg.deviceId]
      rcases h.download _ hd with hd | ⟨c, -, hhandler, -⟩
      · exact hd
      · rw [State.resumes_handler he] at hhandler
        cases hhandler

/-! ## Runs -/

theorem reportsCurrent_superseded (hok : reportsCurrent s e = true) {c : Nat}
    (hr : s.reportsDownload c e = true) : s.superseded c = false := by
  have hhandler := State.reportsDownload_handler hr
  simpa [reportsCurrent, hhandler, hr] using hok

/-- A session that has connected before: a download that is new has been reported on it. -/
theorem Current.download_kept (hok : reportsCurrent s₀ e = true) (hm : Micro cfg s₀ e s s') (hn₀ : s₀.Numbered)
    (hw : Told s₀ e s) (h : Current s) {c : Nat} {x' : Conn} (hx' : s'.conns c = some x')
    (hran : s.ran .onConnect c ≠ []) (hsup : s'.superseded c = false)
    (hd : (s'.deviceState x'.deviceId).downloading = true) : s'.Reported c := by
  have hn := h.stages.numbered
  obtain ⟨x, hx, hneg⟩ := h.connected c hran
  obtain ⟨x₁, hx₁, hg⟩ := hm.grows hn hx
  cases hx'.symm.trans hx₁
  have hsup₀ : s.superseded c = false := by
    refine eq_false_of_ne_true fun htrue => ?_
    rw [State.superseded_mono hn (hm.numbered hn) (fun c x => hm.grows hn) htrue] at hsup
    cases hsup
  rcases hm.new_download hd with hd | ⟨c₂, x₂, hrep, hx₂, hdev, hpc, hr⟩
  · exact (h.download c x hx hran hsup₀ (hg.deviceId ▸ hd)).mono hm.hooks_grow
  · have hhandler := State.reportsDownload_handler hrep
    have hcur := reportsCurrent_superseded hok hrep
    rcases Nat.lt_trichotomy c₂ c with hlt | rfl | hlt
    · -- connection `c` has proved itself before this step
      obtain ⟨y₂, hy₂, hdev₂⟩ := hw.inherits (by simp [hhandler]) c₂ x₂ hx₂
      obtain ⟨y, hy, hdev₁, hneg₀⟩ := hw.proven c x hx hneg
        (by rw [hhandler]; exact fun heq => Nat.ne_of_lt hlt (Option.some.inj heq))
      have hsup₂ : s₀.superseded c₂ = true := (State.superseded_iff hn₀ hy₂).mpr
        ⟨c, y, hlt, hy, by rw [hdev₁, hdev₂, hdev, hg.deviceId], hneg₀⟩
      rw [hcur] at hsup₂
      cases hsup₂
    · exact hr
    · -- connection `c₂` is newer than `c`
      have hsup₁ : s.superseded c = true := (State.superseded_iff hn hx).mpr
        ⟨c₂, x₂, hlt, hx₂, hdev.trans hg.deviceId, (h.stages.staged _ _ hx₂).proven hpc.proven⟩
      rw [hsup₀] at hsup₁
      cases hsup₁

/-- A session that connects now: the download has been reported on it in this step. -/
theorem Current.download_new (hok : startsIdle cfg s₀ e = true) (hm : Micro cfg s₀ e s s') (hn₀ : s₀.Numbered)
    (hw : Told s₀ e s) (h : Current s) {c : Nat} {x' : Conn} (hx' : s'.conns c = some x')
    (hran : s.ran .onConnect c = []) (hran' : s'.ran .onConnect c ≠ []) (hsup : s'.superseded c = false)
    (hd : (s'.deviceState x'.deviceId).downloading = true) : s'.Reported c := by
  have hn := h.stages.numbered
  obtain ⟨hconn, x, hx, hpc, hota⟩ := (hm.first_connect hran').resolve_left (not_not.mpr hran)
  have hhandler := State.connects_handler hconn
  obtain ⟨x₁, hx₁, hg⟩ := hm.grows hn hx
  cases hx'.symm.trans hx₁
  rw [hg.deviceId, Shadow.downloading_congr hota] at hd
  obtain ⟨x₀, hx₀, hdev⟩ := hw.inherits (by simp [hhandler]) c x hx
  rcases hw.download _ hd with hd₀ | ⟨c₁, -, hc₁, -, -, hr⟩
  · exfalso
    have hran₀ : s₀.ran .onConnect c = [] := by
      by_contra hne
      exact State.ran_ne_nil hw.hooks hne hran
    have hsup₀ : s₀.superseded c = false := by
      refine eq_false_of_ne_true fun htrue => ?_
      have hsup₁ := State.superseded_mono hn₀ hn hw.grown htrue
      rw [State.superseded_mono hn (hm.numbered hn) (fun c x => hm.grows hn) hsup₁] at hsup
      cases hsup
    simp [startsIdle, hhandler, hconn, hsup₀, hran₀, hx₀, hdev, hd₀] at hok
  · rw [hhandler] at hc₁
    cases hc₁
    exact hr.mono hm.hooks_grow

theorem State.ran_of_append {c : Nat} {key : Str} {hook : Hook} {cause : Cause} {msg : Dict}
    (h : s'.hooks = s.hooks ++ [⟨c, key, cause, msg⟩]) (hkey : callbackFor key = some hook) :
    s'.ran hook c ≠ [] := by
  unfold ran
  rw [callsOf_append h]
  simp [List.filter_append, HookCall.runs_eq hkey]

/-- A task that polls is an old one, or one of a session that has connected. -/
theorem Micro.polling (hm : Micro cfg s₀ e s s') {t : Nat} {y' : Task} (ht : s'.tasks t = some y')
    (hp : y'.body.polls = true) :
    (∃ y, s.tasks t = some y ∧ y.conn = y'.conn ∧ y.body.polls = true) ∨ s'.ran .onConnect y'.conn ≠ [] := by
  cases hm with
  | accept he =>
      rw [State.accept_tasks] at ht
      exact .inl ⟨y', ht, rfl, hp⟩
  | connected hx hpc hc =>
      rcases State.called_tasks _ _ _ _ _ _ _ _ ht with ht | ⟨-, rfl, -⟩
      · exact .inl ⟨y', ht, rfl, hp⟩
      · exact .inr (State.ran_of_append (State.called_hooks ..) (by decide))
  | finished hx hpc he => exact .inl ⟨y', State.finish_tasks cfg hx ht, rfl, hp⟩
  | called hx hcall =>
      rcases State.called_tasks _ _ _ _ _ _ _ _ ht with ht | ⟨rfl, rfl, -⟩
      · exact .inl ⟨y', ht, rfl, hp⟩
      · exact .inr (State.ran_of_append (State.called_hooks ..) hcall.registered)
  | task ht₁ ht₀ hc hpolls he ha hpause =>
      rcases State.setTask_cases _ _ _ ht with ⟨rfl, rfl⟩ | ⟨-, ht⟩
      · exact .inl ⟨_, ht₁, hc.symm, hpolls ▸ hp⟩
      · exact .inl ⟨y', ht, rfl, hp⟩
  | spawned hpolls ha =>
      rcases State.setTask_cases _ _ _ ht with ⟨-, rfl⟩ | ⟨-, ht⟩
      · rw [hp] at hpolls
        cases hpolls
      · exact .inl ⟨y', ht, rfl, hp⟩
  | _ => exact .inl ⟨y', ht, rfl, hp⟩

theorem current_micro (hok : startsIdle cfg s₀ e = true) (hrep : reportsCurrent s₀ e = true)
    (hm : Micro cfg s₀ e s s') (hn₀ : s₀.Numbered) (hw : Told s₀ e s) (h : Current s) : Current s' := by
  refine ⟨stages_micro hm h.stages, ?_, ?_, ?_⟩
  · intro c hran
    have hold : ∃ x, s.conns c = some x ∧ x.link.session.negotiated = true := by
      rcases hm.first_connect hran with hran | ⟨-, x, hx, hpc, -⟩
      · exact h.connected c hran
      · exact ⟨x, hx, (h.stages.staged _ _ hx).proven hpc.proven⟩
    obtain ⟨x, hx, hneg⟩ := hold
    obtain ⟨x', hx', hg⟩ := hm.grows h.stages.numbered hx
    exact ⟨x', hx', hg.negotiated hneg⟩
  · intro c x' hx' hran' hsup hd
    by_cases hran : s.ran .onConnect c = []
    · exact h.download_new hok hm hn₀ hw hx' hran hran' hsup hd
    · exact h.download_kept hrep hm hn₀ hw hx' hran hsup hd
  · intro t y' ht hp
    rcases hm.polling ht hp with ⟨y, hy, hc, hp⟩ | hran
    · exact State.ran_ne_nil hm.hooks_grow (hc ▸ h.polling t y hy hp)
    · exact hran

/-- A paused poller belongs to a session in which a download has been reported. -/
def State.PausesTold (s : State) : Prop :=
  ∀ t y, s.tasks t = some y → y.body.paused = true → s.Reported y.conn

theorem pausesTold_step (hok : downloadsCurrent cfg s e = true) (h : Current s) (hp : s.PausesTold) :
    Current (s.step cfg e) ∧ (s.step cfg e).PausesTold := by
  simp only [downloadsCurrent, Bool.and_eq_true] at hok
  obtain ⟨⟨hstart, hrep⟩, hpause⟩ := hok
  obtain ⟨htold, hcur⟩ := Run.star_invariant (P := fun s' => Told s e s' ∧ Current s')
    (fun a b hm hab => ⟨told_micro hm hab.2.stages.numbered hab.1,
      current_micro hstart hrep hm h.stages.numbered hab.1 hab.2⟩)
    (State.step_chain cfg s e) ⟨Told.refl s e, h⟩
  refine ⟨hcur, fun t y ht hpaused => ?_⟩
  obtain ⟨y₀, hy₀, hc, hpaused₀ | ⟨he, hpolls, x, hx, hd⟩⟩ := htold.paused t y ht hpaused
  · exact (hc ▸ hp t y₀ hy₀ hpaused₀).mono htold.hooks
  · rw [← hc] at hx ⊢
    by_cases hpaused₀ : y₀.body.paused = true
    · exact (hp t y₀ hy₀ hpaused₀).mono htold.hooks
    · have hran := h.polling t y₀ hy₀ hpolls
      obtain ⟨x₀, hx₀, -⟩ := h.connected _ hran
      obtain ⟨x₁, hx₁, hg⟩ := htold.grown _ x₀ hx₀
      cases hx.symm.trans hx₁
      rw [hg.deviceId] at hd
      have hclause : s.superseded y₀.conn = false ∨ s.Reported y₀.conn := by
        simpa [pausesCurrent, he, hy₀, hpolls, hpaused₀, hx₀, hd] using hpause
      rcases hclause with hsup | hreported
      · exact (h.download _ x₀ hx₀ hran hsup hd).mono htold.hooks
      · exact hreported.mono htold.hooks

/-- A poller that has found a download and pauses belongs to a session in which the device has reported
that download. -/
theorem pauses_for_current_download (cfg : Config) (t : Nat) (es : List Step)
    (hes : State.Along cfg (downloadsCurrent cfg) t es) (k : Nat) (y : Task)
    (hy : (State.after cfg t es).tasks k = some y) (hp : y.body.paused = true) :
    (State.after cfg t es).Reported y.conn := by
  have hinit : Current (State.init t) := by
    refine ⟨stages_init t, fun _ h => absurd rfl h, fun _ _ h => (by cases h), fun _ _ h => (by cases h)⟩
  have h : Current (State.after cfg t es) ∧ (State.after cfg t es).PausesTold := by
    refine Run.invariant (P := fun s => Current s ∧ s.PausesTold) ?_ hes ⟨hinit, fun _ _ h => (by cases h)⟩
    exact fun s e hs hok => pausesTold_step hok hs.1 hs.2
  exact h.2 k y hy hp

def otaStatus (state : String) : Frame :=
  .json (.obj [(py "type", .str (py "ota_status")), (py "state", .str (py state))])

/-- A download; the log poller of the session wakes up. -/
def sampleDownload : List Step :=
  sampleHandshake 0 [7] "n" ++ [.recv 0 (otaStatus "downloading"), .tick 3000000000, .wake 1]

theorem pauses_for_current_download_sample :
    ∃ y, (State.after sampleConfig 0 sampleDownload).tasks 1 = some y ∧ y.body.paused = true ∧
      (State.after sampleConfig 0 sampleDownload).Reported y.conn := by
  have hrun : ((State.after sampleConfig 0 sampleDownload).tasks 1).any (fun y => y.body.paused) = true ∧
      State.Along sampleConfig (downloadsCurrent sampleConfig) 0 sampleDownload := by decide +kernel
  obtain ⟨y, hy, hp⟩ := (Option.any_eq_true _ _).mp hrun.1
  exact ⟨y, hy, hp, pauses_for_current_download sampleConfig 0 sampleDownload hrun.2 1 y hy hp⟩

/-- A server with a newer image for every version. -/
def offeringConfig : Config :=
  { sampleConfig with newerThan := fun _ _ => .ok (some
      { version := py "2.0", filename := py "fw-2.0.bin", size := 1, crc32 := 0, sha256 := py "00" }) }

/-- The device loses its power during a download, reconnects, and is offered the image again. -/
def interruptedDownload : List Step :=
  sampleHandshake 0 [7] "n" ++ [.recv 0 (otaStatus "downloading"), .lost 0, .stop 0, .finish 0] ++
    sampleHandshake 1 [8] "m" ++ [.tick 4000000000, .wake 4, .wake 5]

/-- Both pollers of the new session pause for a download that was reported in the old one. -/
theorem interrupted_download_pauses :
    ((State.after offeringConfig 0 interruptedDownload).tasks 4).any (fun y => y.conn = 1 ∧ y.body.paused) = true ∧
      ((State.after offeringConfig 0 interruptedDownload).tasks 5).any (fun y => y.conn = 1 ∧ y.body.paused) = true ∧
      ¬ (State.after offeringConfig 0 interruptedDownload).Reported 1 := by
  decide +kernel

end Fountainer
