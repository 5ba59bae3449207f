import Fountainer.System.Registry
import Fountainer.System.Requests
import Fountainer.System.Stages

/-!
# The heartbeat watchdog

The window of the watchdog depends on the receive stamps of two datapoints, which age independently of
the last receive time of the session.
-/

namespace Fountainer

variable {cfg : Config} {s₀ s s' : State} {e : Step}

theorem Clock.ms_le_of_stamp {now p a : Int} {lag : Nat} (hnow : now ≤ p + seconds 15)
    (hp : p + lag ≤ a + seconds 5) : Clock.ms (now + lag) ≤ Clock.ms a + 20000 := by
  unfold seconds Clock.ms at *
  omega

theorem Clock.lt_of_ms {now a : Int} (h : 20000 < Clock.ms now - Clock.ms a) : a + seconds 20 < now := by
  unfold seconds Clock.ms at *
  omega

theorem Clock.lt_of_late {now a : Int} (ha : 0 ≤ a) (h : a + seconds 20 < now) : seconds 15 < now := by
  unfold seconds at *
  change (15 * 1000000000 : Int) < now
  omega

theorem Clock.stamp_of_late {now a p : Int} (h : a + seconds 20 < now) (hp : now ≤ p + seconds 15) :
    a + seconds 5 < p := by
  unfold seconds at *
  omega

/-! ## Conditions on runs -/

/-- Once connection `c` is accepted, no other connection of device `d` delivers frames. -/
def onlyDelivers (d : Str) (c : Nat) (s : State) : Step → Bool
  | .recv c' _ => (s.conns c).isNone || (s.conns c').all fun x => decide (x.deviceId = d → c' = c)
  | _ => true

/-- Datapoints of a reply are merged at most 5 s, less `lag`, after its reception. -/
def timelyMerges (lag : Nat) (s : State) : Step → Bool
  | .sendDone c k _ | .reqDone c k _ => match s.waiter c k, s.conns c with
      | some t, some x => match s.tasks t, x.link.requests[k]? with
          | some y, some r => !y.body.reads || x.link.received.all fun en =>
              decide (.completed r.msgId ∈ en.effects → s.now + lag ≤ en.at_ + seconds 5)
          | _, _ => true
      | _, _ => true
  | _ => true

/-! ## Receive times -/

theorem Link.dispatch_lastRx (l : Link) (now : Clock) (callbacks : Str → Bool) (msg : Json) :
    (l.dispatch now callbacks msg).1.session.lastRxMs = now.ms := by
  unfold dispatch
  cases hd : l.session.dispatch now callbacks msg with
  | mk s r => cases DeviceSession.dispatch_cases hd <;> rfl

/-- A dispatch appends to the received messages and sets the receive time; nothing else of a connection
step changes either. -/
theorem ConnStep.received {c : Nat} {x x' : Conn} (hs : ConnStep s₀ e s c x x') :
    (x'.link.received = x.link.received ∧ x'.link.session.lastRxMs = x.link.session.lastRxMs) ∨
      (∃ msg, e = .recv c (.json msg)) ∧ x'.link.session.lastRxMs = s.now.ms ∧
        ∃ en, x'.link.received = x.link.received ++ [en] ∧ en.at_ = s.now := by
  cases hs with
  | quiet hq => exact .inl ⟨rfl, rfl⟩
  | helloFailed hpc =>
      obtain ⟨cn, kid, key, hs, -⟩ := DeviceSession.hello_session x.link.session s.now ‹Dict›
      exact .inl ⟨rfl, by rw [hs]⟩
  | helloAcked hpc hack =>
      rename_i d ack accepted
      obtain ⟨cn, kid, key, hs, -⟩ := DeviceSession.hello_session x.link.session s.now d
      exact .inl ⟨rfl, by simp [Link.push, hs]⟩
  | verified hpc hs he hv =>
      obtain ⟨replay, rfl⟩ := DeviceSession.verifyC2s_session hv
      exact .inl ⟨rfl, rfl⟩
  | start ho =>
      obtain ⟨seq, id, p, -, hs⟩ := Link.start_session x.link s.now ‹Call›
      exact .inl ⟨Link.start_received .., by rw [hs]⟩
  | sendDone k ok =>
      refine .inl ⟨Link.sendDone_received .., ?_⟩
      unfold Link.sendDone
      repeat' split
      all_goals rfl
  | expire k =>
      refine .inl ?_
      unfold Link.expire
      repeat' split
      all_goals exact ⟨rfl, rfl⟩
  | wake k raises =>
      refine .inl ⟨Link.wake_received .., ?_⟩
      unfold Link.wake
      repeat' split
      all_goals rfl
  | dispatch hpc he =>
      obtain ⟨en, hrec, hat⟩ := Link.dispatch_received x.link s.now ‹Str → Bool› ‹Json›
      exact .inr ⟨⟨_, he⟩, Link.dispatch_lastRx .., en, hrec, hat⟩

/-- Messages were received in the past, and the receive time of the session is not older. -/
def Conn.Timed (now : Clock) (x : Conn) : Prop :=
  ∀ en ∈ x.link.received, 0 ≤ en.at_ ∧ en.at_ ≤ now ∧ en.at_.ms ≤ x.link.session.lastRxMs

theorem Conn.Timed.mono {now now' : Clock} {x : Conn} (h : x.Timed now) (hle : now ≤ now') :
    x.Timed now' :=
  fun en hen => ⟨(h en hen).1, Int.le_trans (h en hen).2.1 hle, (h en hen).2.2⟩

/-- The clock has started after the epoch. -/
structure Clocked (s : State) : Prop where
  now : 0 ≤ s.now
  timed : s.Each (Conn.Timed s.now)

theorem Micro.now_le (hm : Micro cfg s₀ e s s') : s.now ≤ s'.now := by
  by_cases he : ∀ ns, e ≠ .tick ns
  · rw [hm.now he]
  · cases hm with
    | tick he' =>
        rename_i ns
        have hns : (0 : Int) ≤ ns := Int.natCast_nonneg ns
        exact Int.le_add_of_nonneg_right hns
    | accept he' => exact absurd (by simp [he']) he
    | deviceSign he' => exact Int.le_refl _
    | conn hx hnow ha hs => exact Int.le_refl _
    | connected hx hpc hc =>
        rw [State.called_now]
        exact Int.le_refl _
    | finished hx hpc he' =>
        rw [State.finish_now]
    | called hx hcall =>
        rw [State.called_now]
    | stored => exact Int.le_refl _
    | task => exact Int.le_refl _
    | spawned => exact Int.le_refl _

theorem Micro.accepted (hm : Micro cfg s₀ e s s') {d : Str} {rand : Bytes} (he : e = .accept d rand) :
    s.now = s₀.now := by
  subst he
  cases hm with
  | tick he => cases he
  | accept => rfl
  | deviceSign he => cases he
  | conn _ hnow => exact hnow
  | connected _ _ hc => cases hc
  | finished _ _ hh => cases hh
  | called _ hcall => exact absurd hcall.actor (by simp [State.actor])
  | stored _ _ _ _ _ hnow => exact hnow
  | task _ _ _ _ _ ha => exact absurd ha (by simp [State.actor])
  | spawned _ ha => exact absurd ha (by simp [State.actor])

theorem clocked_micro (hm : Micro cfg s₀ e s s') (h : Clocked s) : Clocked s' := by
  have hle := hm.now_le
  refine ⟨Int.le_trans h.now hle, ?_⟩
  refine hm.each ?_ ?_ ?_ ?_ ?_ (fun c x hx => (h.timed c x hx).mono hle)
  · exact fun d device rand _ _ en hen => (by cases hen)
  · exact fun x b hx => hx
  · intro c x x' hx hs ht en hen
    rcases hs.received with ⟨hrec, hlast⟩ | ⟨-, hlast, en', hrec, hat⟩
    · rw [hrec] at hen
      rw [hlast]
      exact ht en hen
    · rw [hrec] at hen
      rw [hlast]
      rcases List.mem_append.mp hen with hen | hen
      · obtain ⟨hpos, hnow, -⟩ := h.timed c x hx en hen
        exact ⟨hpos, Int.le_trans hnow hle, Clock.ms_mono hnow⟩
      · rw [List.mem_singleton.mp hen, hat]
        exact ⟨h.now, hle, Int.le_refl _⟩
  · intro c x hx _ ht en hen
    obtain ⟨hpos, hnow, -⟩ := h.timed c x hx en hen
    exact ⟨hpos, Int.le_trans hnow hle, Clock.ms_mono hnow⟩
  · exact fun x hx => hx

theorem clocked_after (cfg : Config) (t : Nat) (es : List Step) : Clocked (State.after cfg t es) := by
  refine always_of_micro ?_ fun _ _ _ _ _ hm => clocked_micro hm
  exact ⟨Int.natCast_nonneg t, fun _ _ h => (by cases h)⟩

theorem Quiet.live {pc : Pc} {l : Loop} {f : Bool} (h : Quiet pc (.live l f)) : ∃ l' f', pc = .live l' f' := by
  cases h with
  | same => exact ⟨_, _, rfl⟩
  | loop => exact ⟨_, _, rfl⟩

/-- Only the end of the handshake leads into the receive loop. -/
theorem ConnStep.live {c : Nat} {x x' : Conn} (hs : ConnStep s₀ e s c x x') {l : Loop} {f : Bool}
    (hpc : x'.pc = .live l f) : ∃ l' f', x.pc = .live l' f' := by
  cases hs with
  | quiet hq =>
      cases hpc
      exact hq.live
  | helloFailed => cases hpc
  | helloAcked => cases hpc
  | verified => cases hpc
  | _ => exact ⟨_, _, hpc⟩

/-! ## Receive stamps -/

/-- Connection `c` of device `d` was accepted at `a`: the other connections of the device have received
nothing since, and every stamp since its handshake is at most 5 s, less `lag`, later than `a` or than one of
its messages. -/
structure Anchored (lag : Nat) (d : Str) (c : Nat) (a : Clock) (s : State) (x : Conn) : Prop where
  pos : 0 ≤ a
  past : a ≤ s.now
  rx : a.ms ≤ x.link.session.lastRxMs
  others : ∀ c' x', s.conns c' = some x' → x'.deviceId = d → c' ≠ c → ∀ en ∈ x'.link.received, en.at_ ≤ a
  stamps : x.shaken = true → ∀ p ∈ (s.deviceState d).dpTs,
    p.2 + lag ≤ a + seconds 5 ∨ ∃ en ∈ x.link.received, p.2 + lag ≤ en.at_ + seconds 5

/-- What the stamps rest on. -/
structure Traced (s : State) : Prop where
  numbered : s.Numbered
  correlated : s.Each fun x => Correlated x.link
  clocked : Clocked s

theorem traced_init (t : Nat) : Traced (State.init t) :=
  ⟨State.numbered_init t, fun _ _ h => (by cases h), Int.natCast_nonneg t, fun _ _ h => (by cases h)⟩

theorem traced_micro (hm : Micro cfg s₀ e s s') (h : Traced s) : Traced s' :=
  ⟨hm.numbered h.numbered, correlated_micro hm h.correlated, clocked_micro hm h.clocked⟩

theorem onlyDelivers_recv {d : Str} {c c' : Nat} {x x' : Conn} {frame : Frame}
    (hok : onlyDelivers d c s₀ e = true) (he : e = .recv c' frame) (hw : s₀.Inherits e s)
    (hx : s.conns c = some x) (hx' : s.conns c' = some x') (hd : x'.deviceId = d) : c' = c := by
  subst he
  obtain ⟨x₁, hx₁, -⟩ := hw (by simp [Step.handler]) c x hx
  obtain ⟨x₀, hx₀, hdev⟩ := hw (by simp [Step.handler]) c' x' hx'
  simp only [onlyDelivers, hx₁, hx₀, Option.isNone_some, Option.all_some, Bool.false_or,
    decide_eq_true_eq] at hok
  exact hok (hdev.trans hd)

theorem others_micro {d : Str} {c : Nat} {x : Conn} {a : Clock} (hok : onlyDelivers d c s₀ e = true)
    (hm : Micro cfg s₀ e s s') (hw : s₀.Inherits e s) (hx : s.conns c = some x)
    (h : ∀ c' x', s.conns c' = some x' → x'.deviceId = d → c' ≠ c → ∀ en ∈ x'.link.received, en.at_ ≤ a) :
    ∀ c' x', s'.conns c' = some x' → x'.deviceId = d → c' ≠ c → ∀ en ∈ x'.link.received, en.at_ ≤ a := by
  intro c' x' hx' hd hne
  have hupdate := hm.update c'
  rw [hx'] at hupdate
  cases hupdate with
  | same hy => exact h c' x' hy hd hne
  | new he hc hd hs => exact fun en hen => (by cases hen)
  | replaced hy =>
      have hrec := h c' _ hy hd hne
      exact hrec
  | step hy hs =>
      rcases hs.received with ⟨hrec, -⟩ | ⟨⟨msg, he⟩, -, -⟩
      · rw [hrec]
        exact h c' _ hy (hs.grows.deviceId.symm.trans hd) hne
      · exact absurd (onlyDelivers_recv hok he hw hx hy (hs.grows.deviceId.symm.trans hd)) hne
  | shaken hy hpc he =>
      have hrec := h c' _ hy hd hne
      exact hrec
  | ended hy hpc he hs =>
      have hrec := h c' _ hy hd hne
      exact hrec

/-- The receive time of a session never goes back behind a time that has passed. -/
theorem Micro.lastRx (hm : Micro cfg s₀ e s s') (hn : s.Numbered) {c : Nat} {x x' : Conn} {a : Clock}
    (ha : a ≤ s.now) (hx : s.conns c = some x) (hx' : s'.conns c = some x')
    (h : a.ms ≤ x.link.session.lastRxMs) : a.ms ≤ x'.link.session.lastRxMs := by
  have hupdate := hm.update c
  rw [hx'] at hupdate
  cases hupdate with
  | same hx₀ =>
      cases hx.symm.trans hx₀
      exact h
  | new he hc hd hs => exact absurd (hc ▸ hn c x hx) (Nat.lt_irrefl _)
  | replaced hx₀ =>
      cases hx.symm.trans hx₀
      exact h
  | step hx₀ hs =>
      cases hx.symm.trans hx₀
      rcases hs.received with ⟨-, hlast⟩ | ⟨-, hlast, -⟩
      · rw [hlast]
        exact h
      · rw [hlast]
        exact Clock.ms_mono ha
  | shaken hx₀ hpc he => exact Clock.ms_mono ha
  | ended hx₀ hpc he hs =>
      cases hx.symm.trans hx₀
      exact h

/-- With the end of the handshake the stamps of the device are dropped. -/
theorem Micro.shaken_stamps (hm : Micro cfg s₀ e s s') (hn : s.Numbered) {c : Nat} {x x' : Conn}
    (hx : s.conns c = some x) (hx' : s'.conns c = some x') (hsh : x'.shaken = true) :
    x.shaken = true ∨ (s'.deviceState x.deviceId).dpTs = [] := by
  have hsame : ∀ {y}, s.conns c = some y → y.shaken = true → x.shaken = true := by
    intro y hy hyy
    cases hx.symm.trans hy
    exact hyy
  cases hm with
  | tick he => exact .inl (hsame hx' hsh)
  | accept he =>
      rcases State.accept_conns hx' with ⟨-, -, rfl, -⟩ | ⟨x₀, b, hx₀, rfl⟩
      · exact absurd (hn _ _ hx) (Nat.lt_irrefl _)
      · exact .inl (hsame hx₀ hsh)
  | deviceSign he => exact .inl (hsame hx' hsh)
  | conn hx₀ hnow ha hs =>
      rcases State.setConn_cases _ _ _ hx' with ⟨rfl, rfl⟩ | ⟨-, hx'⟩
      · exact .inl (hsame hx₀ (hs.shaken ▸ hsh))
      · exact .inl (hsame hx' hsh)
  | connected hx₀ hpc hc =>
      rw [State.called_conns, State.shake_eq] at hx'
      rcases State.setConn_cases _ _ _ hx' with ⟨rfl, -⟩ | ⟨-, hx'⟩
      · cases hx.symm.trans hx₀
        right
        rw [State.called_deviceState, State.setShadow_self]
        rfl
      · exact .inl (hsame hx' hsh)
  | finished hx₀ hpc he =>
      rw [State.finish_conns _ _ hx₀] at hx'
      rcases State.setConn_cases _ _ _ hx' with ⟨rfl, rfl⟩ | ⟨-, hx'⟩
      · exact .inl (hsame hx₀ hsh)
      · exact .inl (hsame hx' hsh)
  | called hx₀ hcall =>
      rw [State.called_conns] at hx'
      exact .inl (hsame hx' hsh)
  | stored => exact .inl (hsame hx' hsh)
  | task => exact .inl (hsame hx' hsh)
  | spawned => exact .inl (hsame hx' hsh)

/-- Why a datapoint of device `d` is stamped now: it was in a message of this moment, or in the reply
to a `dp_read` of a task. -/
inductive Stamping (s₀ : State) (e : Step) (s : State) (d : Str) : Prop
  | reported {c : Nat} {x : Conn} (he : ∃ frame, e = .recv c frame) (hx : s.conns c = some x)
      (hd : x.deviceId = d) (hrec : ∃ en ∈ x.link.received, en.at_ = s.now)
  | merged {t k : Nat} {y : Task} {x x₀ : Conn} {r : Request} {m : Json}
      (he : (∃ ok, e = .sendDone y.conn k ok) ∨ ∃ raises, e = .reqDone y.conn k raises)
      (hw : s₀.waiter y.conn k = some t) (ht : s₀.tasks t = some y) (hreads : y.body.reads = true)
      (hx₀ : s₀.conns y.conn = some x₀) (hr : x₀.link.requests[k]? = some r)
      (hm : r.phase = .returned m ∨ x₀.link.session.pending.lookup r.msgId = some (.result m))
      (hx : s.conns y.conn = some x) (hd : x.deviceId = d)
      (hrec : x₀.link.received = x.link.received) (hnow : s.now = s₀.now)

theorem State.finish_dpTs (cfg : Config) {c : Nat} {x : Conn} (hx : s.conns c = some x) (d : Str) :
    ((s.finish cfg c).deviceState d).dpTs = (s.deviceState d).dpTs := by
  by_cases hd : s.sessions x.deviceId = some c
  · rw [finish_current _ _ hx hd, called_deviceState]
    by_cases hdd : d = x.deviceId
    · subst hdd
      rw [setShadow_self]
      rfl
    · rw [setShadow_ne _ _ _ hdd]
      rfl
  · rw [finish_replaced _ _ hx hd, setConn_deviceState]

theorem State.mem_setShadow {d d' : Str} {st : Shadow} {p : Str × Clock}
    (hp : p ∈ ((s.setShadow d' st).deviceState d).dpTs) :
    (d' = d ∧ p ∈ st.dpTs) ∨ p ∈ (s.deviceState d).dpTs := by
  by_cases hd : d = d'
  · subst hd
    rw [setShadow_self] at hp
    exact .inl ⟨rfl, hp⟩
  · rw [setShadow_ne _ _ _ hd] at hp
    exact .inr hp

theorem runHook_dpTs (cfg : Config) (h : Hook) (st : Shadow) (session : DeviceSession) (now : Clock)
    (msg : Dict) : ∀ p ∈ (runHook cfg h st session now msg).shadow.dpTs, p ∈ st.dpTs ∨ p.2 = now := by
  by_cases hc : h = .onConnect
  · subst hc
    exact fun p hp => (by cases hp)
  · by_cases hd : h = .onDisconnect
    · subst hd
      exact fun p hp => .inl hp
    · exact (runHook_stamped hc hd).dpTs

theorem Micro.stamps (hm : Micro cfg s₀ e s s') {d : Str} {p : Str × Clock}
    (hp : p ∈ (s'.deviceState d).dpTs) :
    p ∈ (s.deviceState d).dpTs ∨ (p.2 = s.now ∧ Stamping s₀ e s d) := by
  cases hm with
  | tick he => exact .inl hp
  | accept he =>
      rw [State.accept_deviceState] at hp
      exact .inl hp
  | deviceSign he => exact .inl hp
  | conn hx hnow ha hs => exact .inl hp
  | connected hx hpc hc =>
      rw [State.called_deviceState] at hp
      rcases State.mem_setShadow hp with ⟨-, hp⟩ | hp
      · cases hp
      · exact .inl hp
  | finished hx hpc he =>
      rw [State.finish_dpTs cfg hx] at hp
      exact .inl hp
  | called hx hcall =>
      rw [State.called_deviceState] at hp
      rcases State.mem_setShadow hp with ⟨hd, hp'⟩ | hp'
      · subst hd
        cases hcall with
        | dispatched he hkey hh hpc hrec =>
            rcases runHook_dpTs _ _ _ _ _ _ p hp' with hp' | hp'
            · exact .inl hp'
            · exact .inr ⟨hp', .reported ⟨_, he⟩ hx rfl hrec⟩
        | otaCheck he hpc hproof htype =>
            rename_i c x msg
            have hsame := onOtaCheck_same cfg (s.deviceState x.deviceId) x.link.session s.now msg
            exact .inl (hsame.dpTs ▸ hp')
      · exact .inl hp'
  | stored ht hx hb hres ht₀ hnow hrec ha =>
      rename_i t y x b res
      rcases State.mem_setShadow hp with ⟨hd, hp'⟩ | hp'
      · subst hd
        rcases b.resume_stamped cfg.limits (s.deviceState x.deviceId) s.now res with
          hsame | ⟨hreads, ⟨reply, hok, hne⟩, hst⟩
        · exact .inl (hsame.dpTs ▸ hp')
        · rcases hst.dpTs p hp' with hp' | hp'
          · exact .inl hp'
          · refine .inr ⟨hp', ?_⟩
            cases hres with
            | raised err => cases hok
            | slept =>
                cases hok
                exact absurd rfl hne
            | replied he hw hx₀ hr hm =>
                exact .merged he hw ht₀ (hb.symm.trans hreads) hx₀ hr hm hx rfl (hrec _ hx₀).2 hnow
      · exact .inl hp'
  | task => exact .inl hp
  | spawned => exact .inl hp

/-- With replies merged in time, a stamp made now is at most 5 s, less `lag`, later than a received
message. -/
theorem Stamping.late {d : Str} {lag : Nat} (h : Stamping s₀ e s d) (hok : timelyMerges lag s₀ e = true)
    (hlag : (lag : Int) ≤ seconds 5) (hc : s₀.Each fun x => Correlated x.link) :
    ∃ c x, s.conns c = some x ∧ x.deviceId = d ∧
      ∃ en ∈ x.link.received, s.now + lag ≤ en.at_ + seconds 5 := by
  cases h with
  | reported he hx hd hrec =>
      obtain ⟨en, hen, hat⟩ := hrec
      refine ⟨_, _, hx, hd, en, hen, ?_⟩
      rw [← hat]
      exact Int.add_le_add_left hlag _
  | merged he hw ht hreads hx₀ hr hm hx hd hrec hnow =>
      rename_i t k y x x₀ r m
      have hcorr := hc _ x₀ hx₀
      have hans : Answers x₀.link.received r m := by
        have hmem := List.mem_of_getElem? hr
        rcases hm with hm | hm
        · exact hcorr.returned r hmem m hm
        · exact hcorr.result r hmem m (mem_of_lookup hm)
      obtain ⟨en, hen, heff⟩ := hans.mem
      refine ⟨_, x, hx, hd, en, hrec ▸ hen, ?_⟩
      rw [hnow]
      rcases he with ⟨ok, rfl⟩ | ⟨raises, rfl⟩
      · simp only [timelyMerges, hw, hx₀, ht, hr, hreads, Bool.not_true, Bool.false_or,
          List.all_eq_true, decide_eq_true_eq] at hok
        exact hok en hen heff
      · simp only [timelyMerges, hw, hx₀, ht, hr, hreads, Bool.not_true, Bool.false_or,
          List.all_eq_true, decide_eq_true_eq] at hok
        exact hok en hen heff

/-- The conditions on the steps. -/
def quietOthers (lag : Nat) (d : Str) (c : Nat) (s : State) (e : Step) : Bool :=
  onlyDelivers d c s e && timelyMerges lag s e

theorem anchored_micro {lag : Nat} {d : Str} {c : Nat} {x : Conn} {a : Clock}
    (hlag : (lag : Int) ≤ seconds 5) (hok : quietOthers lag d c s₀ e = true) (h₀ : Traced s₀)
    (hm : Micro cfg s₀ e s s') (hw : s₀.Inherits e s) (ht : Traced s) (hx : s.conns c = some x)
    (hd : x.deviceId = d) (h : Anchored lag d c a s x) :
    ∃ x', s'.conns c = some x' ∧ Conn.Grows x x' ∧ Anchored lag d c a s' x' := by
  obtain ⟨hone, htimely⟩ := (Bool.and_eq_true _ _).mp hok
  obtain ⟨x', hx', hg⟩ := hm.grows ht.numbered hx
  obtain ⟨more, hmore⟩ := hg.received
  refine ⟨x', hx', hg, h.pos, Int.le_trans h.past hm.now_le,
    hm.lastRx ht.numbered h.past hx hx' h.rx, others_micro hone hm hw hx h.others, fun hsh p hp => ?_⟩
  rcases hm.shaken_stamps ht.numbered hx hx' hsh with hsh | hnone
  · have hold : p.2 + lag ≤ a + seconds 5 ∨ ∃ en ∈ x.link.received, p.2 + lag ≤ en.at_ + seconds 5 := by
      rcases hm.stamps hp with hp | ⟨hnow, hst⟩
      · exact h.stamps hsh p hp
      · obtain ⟨c', y, hy, hyd, en, hen, hle⟩ := hst.late htimely hlag h₀.correlated
        rw [hnow]
        by_cases hc : c' = c
        · subst hc
          cases hx.symm.trans hy
          exact .inr ⟨en, hen, hle⟩
        · exact .inl (Int.le_trans hle (Int.add_le_add_right (h.others c' y hy hyd hc en hen) _))
    refine hold.imp_right fun ⟨en, hen, hle⟩ => ⟨en, ?_, hle⟩
    rw [hmore]
    exact List.mem_append_left _ hen
  · rw [← hd, hnone] at hp
    cases hp

/-- From a state on in which the connection is anchored. -/
theorem anchored_run {lag : Nat} {d : Str} {c : Nat} {x : Conn} {a : Clock} {es : List Step}
    (hlag : (lag : Int) ≤ seconds 5) (ht : Traced s) (hx : s.conns c = some x) (hd : x.deviceId = d)
    (h : Anchored lag d c a s x)
    (hok : Run.Along (State.step cfg) (fun s e => quietOthers lag d c s e = true) s es) :
    ∃ x', (Run.run (State.step cfg) s es).conns c = some x' ∧ Conn.Grows x x' ∧
      Anchored lag d c a (Run.run (State.step cfg) s es) x' := by
  have hrun := @run_within cfg es
    (fun s => Traced s ∧ ∃ x', s.conns c = some x' ∧ Conn.Grows x x' ∧ Anchored lag d c a s x')
    (quietOthers lag d c) State.Inherits s ⟨ht, x, hx, .refl x, h⟩ State.Inherits.refl
    (fun s₀ e s s' => Micro.inherits) ?_ hok
  · exact hrun.2
  · rintro s₀ e s s' hok ⟨h₀, -⟩ hm hw ⟨ht, y, hy, hg, h⟩
    obtain ⟨z, hz, hg', h'⟩ := anchored_micro hlag hok h₀ hm hw ht hy (hg.deviceId.trans hd) h
    exact ⟨traced_micro hm ht, z, hz, hg.trans hg', h'⟩

/-- Every connection of device `d` numbered `c` is anchored from its accept on. -/
structure Stamped (lag : Nat) (d : Str) (c : Nat) (s : State) : Prop where
  traced : Traced s
  anchored : ∀ x, s.conns c = some x → x.deviceId = d → ∃ a, Anchored lag d c a s x

theorem stamped_micro {lag : Nat} {d : Str} {c : Nat} (hlag : (lag : Int) ≤ seconds 5)
    (hok : quietOthers lag d c s₀ e = true) (h₀ : Stamped lag d c s₀) (hm : Micro cfg s₀ e s s')
    (hw : s₀.Inherits e s) (h : Stamped lag d c s) : Stamped lag d c s' := by
  have ht := h.traced
  refine ⟨traced_micro hm ht, fun x' hx' hd => ?_⟩
  have hold : ∀ x, s.conns c = some x → x.deviceId = x'.deviceId → ∃ a, Anchored lag d c a s' x' := by
    intro x hx hdx
    obtain ⟨a, ha⟩ := h.anchored x hx (hdx.trans hd)
    obtain ⟨y, hy, -, hanchored⟩ := anchored_micro hlag hok h₀.traced hm hw ht hx (hdx.trans hd) ha
    cases hx'.symm.trans hy
    exact ⟨a, hanchored⟩
  have hupdate := hm.update c
  rw [hx'] at hupdate
  cases hupdate with
  | same hx => exact hold _ hx rfl
  | new he hc hdev hs =>
      have hnow : s'.now = s₀.now := (hm.now (by simp [he])).trans (hm.accepted he)
      refine ⟨s₀.now, h₀.traced.clocked.now, Int.le_of_eq hnow.symm, Int.le_refl _, ?_, ?_⟩
      · intro c' y hy _ _ en hen
        exact hnow ▸ ((traced_micro hm ht).clocked.timed c' y hy en hen).2.1
      · exact fun hsh => (by cases hsh)
  | replaced hx => exact hold _ hx rfl
  | step hx hs => exact hold _ hx hs.grows.deviceId.symm
  | shaken hx hpc he => exact hold _ hx rfl
  | ended hx hpc he hs => exact hold _ hx rfl

theorem quietOthers_along {lag : Nat} {d : Str} {c t : Nat} {es : List Step}
    (hone : State.Along cfg (onlyDelivers d c) t es) (htimely : State.Along cfg (timelyMerges lag) t es) :
    State.Along cfg (quietOthers lag d c) t es :=
  (hone.and htimely).imp fun s e h => by simp [quietOthers, h]

theorem stamped_after {lag : Nat} {d : Str} {c t : Nat} {es : List Step} (hlag : (lag : Int) ≤ seconds 5)
    (hok : State.Along cfg (quietOthers lag d c) t es) : Stamped lag d c (State.after cfg t es) := by
  refine invariant_within ?_ State.Inherits.refl (fun s₀ e s s' => Micro.inherits) ?_ hok
  · exact ⟨traced_init t, fun _ h => (by cases h)⟩
  · exact fun s₀ e s s' hok h₀ hm hw h => stamped_micro hlag hok h₀ hm hw h

/-! ## The receive time of a live session -/

/-- A connection in the receive loop has completed its handshake. -/
theorem live_shaken (cfg : Config) (t : Nat) (es : List Step) :
    (State.after cfg t es).Each fun x => ∀ l f, x.pc = .live l f → x.shaken = true := by
  refine always_of_micro (fun _ _ h => (by cases h)) fun s₀ e s s' _ hm h => ?_
  refine hm.each ?_ ?_ ?_ ?_ ?_ h
  · exact fun d device rand _ _ l f hpc => (by cases hpc)
  · exact fun x b hx => hx
  · intro c x x' hx hs hlive l f hpc
    rw [hs.shaken]
    obtain ⟨l', f', hpc'⟩ := hs.live hpc
    exact hlive l' f' hpc'
  · exact fun _ _ _ _ _ _ _ _ => rfl
  · exact fun x _ l f hpc => (by cases hpc)

/-- In the receive loop the session has not been silent since before `a`. -/
def HeardSince (c : Nat) (a : Clock) (s : State) : Prop :=
  a ≤ s.now ∧ ∀ x, s.conns c = some x → ∀ l f, x.pc = .live l f → a.ms ≤ x.link.session.lastRxMs

theorem heardSince_micro {c : Nat} {a : Clock} (hm : Micro cfg s₀ e s s') (h : HeardSince c a s) :
    HeardSince c a s' := by
  refine ⟨Int.le_trans h.1 hm.now_le, fun x' hx' l f hpc => ?_⟩
  have hupdate := hm.update c
  rw [hx'] at hupdate
  cases hupdate with
  | same hx => exact h.2 x' hx l f hpc
  | new he hc hd hs => cases hpc
  | replaced hx =>
      have hlast := h.2 _ hx l f hpc
      exact hlast
  | step hx hs =>
      obtain ⟨l', f', hpc'⟩ := hs.live hpc
      rcases hs.received with ⟨-, hlast⟩ | ⟨-, hlast, -⟩
      · rw [hlast]
        exact h.2 _ hx l' f' hpc'
      · rw [hlast]
        exact Clock.ms_mono h.1
  | shaken hx hpc he => exact Clock.ms_mono h.1
  | ended hx hpc' he hs => cases hpc

theorem heardSince_run {c : Nat} {a : Clock} (h : HeardSince c a s) (es : List Step) :
    HeardSince c a (Run.run (State.step cfg) s es) := by
  have hall : Run.Along (State.step cfg) (fun _ _ => True) s es := Run.along_of_forall (fun _ _ => trivial) _ _
  refine Run.invariant (fun s e hs _ => ?_) hall h
  exact Run.star_invariant (P := HeardSince c a) (fun _ _ hm => heardSince_micro hm)
    (State.step_chain cfg s e) hs

/-! ## A message -/

theorem State.callback_rx {c : Nat} {x : Conn} {key : Str} {h : Hook} {cause : Cause} {msg : Dict}
    (hx : s.conns c = some x) : ∃ l, (s.callback cfg c key h cause msg).1.conns c = some { x with link := l } ∧
      l.received = x.link.received ∧ l.session.lastRxMs = x.link.session.lastRxMs := by
  simp only [callback, hx]
  split
  · exact ⟨x.link, by rw [called_conns]; exact hx, rfl, rfl⟩
  · exact ⟨x.link, by rw [called_conns]; exact hx, rfl, rfl⟩
  · rename_i call _ _
    have hcalled : (s.called c x.deviceId key h cause msg
        (runHook cfg h (s.deviceState x.deviceId) x.link.session s.now msg).shadow).conns c = some x := by
      rw [called_conns]
      exact hx
    rw [startOn_eq hcalled]
    obtain ⟨seq, id, p, -, hsession⟩ := Link.start_session x.link s.now call
    split
    all_goals
      rename_i hstart
      obtain ⟨rfl, -⟩ := Prod.mk.inj hstart
      refine ⟨_, setConn_self .., Link.start_received .., ?_⟩
      rw [called_now, hsession]

theorem State.dispatchOn_rx {c : Nat} {x : Conn} {msg : Json} (hx : s.conns c = some x) :
    ∃ l, (s.dispatchOn cfg c msg).1.conns c = some { x with link := l } ∧
      l.session.lastRxMs = s.now.ms := by
  have hlast := Link.dispatch_lastRx x.link s.now (fun k => (callbackFor k).isSome) msg
  simp only [dispatchOn, hx]
  generalize x.link.dispatch s.now (fun k => (callbackFor k).isSome) msg = out at hlast ⊢
  obtain ⟨l, r⟩ := out
  have hx' : (s.setConn c { x with link := l }).conns c = some { x with link := l } := setConn_self ..
  split
  · exact ⟨l, hx', hlast⟩
  · split
    · obtain ⟨l', hl', -, hlast'⟩ := callback_rx hx'
      exact ⟨l', hl', hlast'.trans hlast⟩
    · exact ⟨l, hx', hlast⟩
  · exact ⟨l, hx', hlast⟩

theorem State.recv_rx {c : Nat} {x : Conn} {fired : Bool} {msg : Json} (hx : s.conns c = some x)
    (hpc : x.pc = .live .idle fired) : ∃ x₁, (s.step cfg (.recv c (.json msg))).conns c = some x₁ ∧
      x₁.pc.Started ∧ x₁.deviceId = x.deviceId ∧ x₁.link.session.lastRxMs = s.now.ms := by
  obtain ⟨l, hl, hlast⟩ := @dispatchOn_rx cfg s c x msg hx
  simp only [step, recv, hx, hpc, recvMessage]
  generalize s.dispatchOn cfg c msg = out at hl ⊢
  obtain ⟨s₁, res⟩ := out
  dsimp only at hl
  cases res with
  | done => exact ⟨_, hl, by rw [hpc]; exact .live _ _, rfl, hlast⟩
  | suspended =>
      simp only [setPc, hl]
      exact ⟨_, setConn_self .., .live _ _, rfl, hlast⟩
  | raised =>
      simp only [setPc, hl]
      exact ⟨_, setConn_self .., .live _ _, rfl, hlast⟩

/-! ## The decision of the watchdog -/

/-- The fast window needs two fresh datapoints. -/
theorem Shadow.idleTimeoutMs_cases (st : Shadow) (lim : Limits) (now : Clock) :
    st.idleTimeoutMs lim now = lim.idleTimeoutSlowMs ∨
      (st.idleTimeoutMs lim now = lim.heartbeatTimeoutMs ∧
        st.freshNormal now (py "System_Power_Mode") = true ∧
        st.freshNormal now (py "Net_Link_State") = true) := by
  unfold idleTimeoutMs
  split
  · rename_i h
    rw [Bool.and_eq_true] at h
    exact .inr ⟨rfl, h⟩
  · exact .inl rfl

/-- A fresh datapoint is 0 and has a stamp of the last 15 s, unless the epoch is not older. -/
theorem Shadow.freshNormal_eq {st : Shadow} {now : Clock} {name : Str} :
    st.freshNormal now name = true ↔ (Dict.get st.dp name).isZero = true ∧
      (st.dpTs.lookup name = none ∧ now ≤ seconds 15 ∨
        ∃ p, st.dpTs.lookup name = some p ∧ now ≤ p + seconds 15) := by
  unfold freshNormal seconds
  rw [Bool.and_eq_true, decide_eq_true_eq]
  cases st.dpTs.lookup name with
  | none => simp
  | some p =>
      have hiff : now - p ≤ 15000000000 ↔ now ≤ p + 15 * 1000000000 := sub_le_iff_le_add'
      simp [hiff]

/-- A stamp that is at most 15 s old at the first reading means a message of the last 20 s at the second. -/
theorem Anchored.recent {lag : Nat} {d : Str} {c : Nat} {a : Clock} {x : Conn} (h : Anchored lag d c a s x)
    (hlag : (lag : Int) ≤ seconds 5) (ht : Clocked s) (hx : s.conns c = some x) (hsh : x.shaken = true)
    {name : Str} (hf : (s.deviceState d).freshNormal s.now name = true) :
    Clock.ms (s.now + lag) - x.link.session.lastRxMs ≤ 20000 := by
  have hrx := h.rx
  obtain ⟨-, hstamp⟩ := Shadow.freshNormal_eq.mp hf
  rcases hstamp with ⟨-, hnow⟩ | ⟨p, hp, hnow⟩
  · have hms : Clock.ms (s.now + lag) ≤ Clock.ms 0 + 20000 :=
      Clock.ms_le_of_stamp (by rw [Int.zero_add]; exact hnow) (Int.add_le_add_left hlag 0)
    have hzero := Clock.ms_mono h.pos
    have h0 : Clock.ms 0 = 0 := by decide
    omega
  · rcases h.stamps hsh _ (mem_of_lookup hp) with hle | ⟨en, hen, hle⟩
    · have hms := Clock.ms_le_of_stamp hnow hle
      omega
    · obtain ⟨-, -, hlast⟩ := ht.timed c x hx en hen
      have hms := Clock.ms_le_of_stamp hnow hle
      omega

theorem anchored_after {lag : Nat} {t : Nat} {before later : List Step} {c : Nat} {x₀ : Conn}
    (hlag : (lag : Int) ≤ seconds 5) (hx₀ : (State.after cfg t before).conns c = some x₀)
    (hok : State.Along cfg (quietOthers lag x₀.deviceId c) t (before ++ later)) :
    ∃ a, a ≤ (State.after cfg t before).now ∧ ∃ x, (State.after cfg t (before ++ later)).conns c = some x ∧
      Conn.Grows x₀ x ∧ Anchored lag x₀.deviceId c a (State.after cfg t (before ++ later)) x := by
  obtain ⟨hbefore, hlater⟩ := Run.along_append.mp hok
  have hstamped := stamped_after hlag hbefore
  obtain ⟨a, ha⟩ := hstamped.anchored x₀ hx₀ rfl
  refine ⟨a, ha.past, ?_⟩
  rw [State.after, Run.run_append]
  exact anchored_run hlag hstamped.traced hx₀ rfl ha hlater

/-- A message that the session receives, its proof included. -/
theorem heardSince_after {t : Nat} {before later : List Step} {c : Nat} {msg : Json} {x₀ : Conn}
    (hx₀ : (State.after cfg t before).conns c = some x₀)
    (hwaits : x₀.pc = .proof ∨ ∃ fired, x₀.pc = .live .idle fired) :
    HeardSince c (State.after cfg t before).now
      (State.after cfg t (before ++ .recv c (.json msg) :: later)) := by
  have hrun : State.after cfg t (before ++ .recv c (.json msg) :: later) =
      Run.run (State.step cfg) (State.after cfg t before) (.recv c (.json msg) :: later) := Run.run_append ..
  rw [hrun]
  rcases hwaits with hpc | ⟨fired, hpc⟩
  · refine heardSince_run ⟨Int.le_refl _, fun x hx l f hlive => ?_⟩ _
    cases hx₀.symm.trans hx
    rw [hpc] at hlive
    cases hlive
  · obtain ⟨x₁, hx₁, -, -, hlast⟩ := @State.recv_rx cfg _ c x₀ fired msg hx₀ hpc
    have hnow : ((State.after cfg t before).step cfg (.recv c (.json msg))).now =
        (State.after cfg t before).now := (State.step_chain cfg _ _).now (by simp)
    rw [Run.run_cons]
    refine heardSince_run ⟨Int.le_of_eq hnow.symm, fun x hx l f _ => ?_⟩ _
    cases hx₁.symm.trans hx
    exact Int.le_of_eq hlast.symm

/-- With the shipped constants no check of the watchdog decides offline within the slow window after a
message of the session, whatever the messages were, when datapoints of replies are merged at most 5 s, less
the time between the two clock readings of the check, after their reception. -/
theorem no_false_offline (cfg : Config) (hlim : cfg.limits = {}) (t : Nat) (before later : List Step)
    (c : Nat) (msg : Json) (lag : Nat) (hlag : (lag : Int) ≤ seconds 5) (x₀ : Conn)
    (hx₀ : (State.after cfg t before).conns c = some x₀)
    (hwaits : x₀.pc = .proof ∨ ∃ fired, x₀.pc = .live .idle fired)
    (hone : State.Along cfg (onlyDelivers x₀.deviceId c) t (before ++ .recv c (.json msg) :: later))
    (htimely : State.Along cfg (timelyMerges lag) t (before ++ .recv c (.json msg) :: later))
    (hidle : Clock.ms ((State.after cfg t (before ++ .recv c (.json msg) :: later)).now + lag) -
      (State.after cfg t before).now.ms ≤ 150000) :
    (State.after cfg t (before ++ .recv c (.json msg) :: later)).step cfg (.check c lag) =
      State.after cfg t (before ++ .recv c (.json msg) :: later) := by
  have hheard := (@heardSince_after cfg t before later c msg x₀ hx₀ hwaits).2
  obtain ⟨a, -, x, hx, hg, hanchored⟩ := anchored_after hlag hx₀ (quietOthers_along hone htimely)
  have hclocked := clocked_after cfg t (before ++ .recv c (.json msg) :: later)
  have hshaken := live_shaken cfg t (before ++ .recv c (.json msg) :: later) c x hx
  generalize State.after cfg t (before ++ .recv c (.json msg) :: later) = s at *
  simp only [State.step, State.check, hx]
  split
  · rename_i loop hpc
    have hlast := hheard x hx loop false hpc
    refine if_neg fun hfires => ?_
    simp only [State.idleTooLong, hg.deviceId, hlim, decide_eq_true_eq] at hfires
    rcases (s.deviceState x₀.deviceId).idleTimeoutMs_cases {} s.now with hslow | ⟨hfast, -, hlink⟩
    · have hslow' : (s.deviceState x₀.deviceId).idleTimeoutMs {} s.now = 150000 := hslow
      omega
    · have hfast' : (s.deviceState x₀.deviceId).idleTimeoutMs {} s.now = 20000 := hfast
      have hrecent := hanchored.recent hlag hclocked hx (hshaken loop false hpc) hlink
      omega
  · rfl

/-- A report of the normal mode. -/
def sampleReport : Json :=
  .obj [(py "type", .str (py "dp_report")), (py "dp", .obj [(py "System_Power_Mode", .int 0),
    (py "Net_Link_State", .int 0)])]

/-- The reply to the first `dp_read`, in normal mode. -/
def sampleDpReply : Json :=
  .obj [(py "in_reply_to", .str (py "s-1")), (py "dp", .obj [(py "System_Power_Mode", .int 0),
    (py "Net_Link_State", .int 0)])]

/-- A session and a reconnect, which is asked for datapoints. -/
def sampleAsked : List Step :=
  sampleHandshake 0 [7] "n" ++ [.recv 0 (.json sampleReport)] ++ sampleHandshake 1 [8] "m"
    ++ [.dpRead (py "fon-1") configNames, .sendDone 1 0 true]

/-- The reply is merged `ns` after its reception. -/
def sampleMerged (ns silence : Nat) : List Step := [.tick ns, .reqDone 1 0 false, .tick silence]

/-- Normal mode, merged 4 s late, and then the silence of the 60 s grid. -/
theorem no_false_offline_sample :
    (State.after sampleConfig 0 (sampleAsked ++ .recv 1 (.json sampleDpReply) ::
      sampleMerged 4000000000 56000000000)).step sampleConfig (.check 1 1000000) =
    State.after sampleConfig 0 (sampleAsked ++ .recv 1 (.json sampleDpReply) ::
      sampleMerged 4000000000 56000000000) := by
  have hrun : ((State.after sampleConfig 0 sampleAsked).conns 1).any (fun x =>
        decide (x.pc = .live .idle false) && decide (x.deviceId = py "fon-1")) = true ∧
      State.Along sampleConfig (onlyDelivers (py "fon-1") 1) 0
        (sampleAsked ++ .recv 1 (.json sampleDpReply) :: sampleMerged 4000000000 56000000000) ∧
      State.Along sampleConfig (timelyMerges 1000000) 0
        (sampleAsked ++ .recv 1 (.json sampleDpReply) :: sampleMerged 4000000000 56000000000) ∧
      Clock.ms ((State.after sampleConfig 0 (sampleAsked ++ .recv 1 (.json sampleDpReply) ::
          sampleMerged 4000000000 56000000000)).now + (1000000 : Nat)) -
        (State.after sampleConfig 0 sampleAsked).now.ms ≤ 150000 := by decide +kernel
  obtain ⟨hwaits, honly, htimely, hsoon⟩ := hrun
  obtain ⟨x₀, hx₀, hx₀'⟩ := (Option.any_eq_true _ _).mp hwaits
  rw [Bool.and_eq_true, decide_eq_true_eq, decide_eq_true_eq] at hx₀'
  rw [← hx₀'.2] at honly
  exact no_false_offline sampleConfig rfl 0 sampleAsked (sampleMerged 4000000000 56000000000) 1
    sampleDpReply 1000000 (by decide) x₀ hx₀ (.inr ⟨false, hx₀'.1⟩) honly htimely hsoon

/-- Without the allowance for the second clock reading the margin is used up: the reply is merged 5 s after
its reception, the window is read 15 s later, and the silence 1 ms after that. -/
theorem late_reading_decides_offline :
    ¬ ∀ (cfg : Config), cfg.limits = {} → ∀ (t : Nat) (before later : List Step) (c : Nat) (msg : Json)
      (lag : Nat), (lag : Int) ≤ seconds 5 → ∀ x₀, (State.after cfg t before).conns c = some x₀ →
      (x₀.pc = .proof ∨ ∃ fired, x₀.pc = .live .idle fired) →
      State.Along cfg (onlyDelivers x₀.deviceId c) t (before ++ .recv c (.json msg) :: later) →
      State.Along cfg (timelyMerges 0) t (before ++ .recv c (.json msg) :: later) →
      Clock.ms ((State.after cfg t (before ++ .recv c (.json msg) :: later)).now + lag) -
        (State.after cfg t before).now.ms ≤ 150000 →
      (State.after cfg t (before ++ .recv c (.json msg) :: later)).step cfg (.check c lag) =
        State.after cfg t (before ++ .recv c (.json msg) :: later) := by
  intro h
  have hrun : ((State.after sampleConfig 0 sampleAsked).conns 1).any (fun x =>
        decide (x.pc = .live .idle false) && decide (x.deviceId = py "fon-1")) = true ∧
      State.Along sampleConfig (onlyDelivers (py "fon-1") 1) 0
        (sampleAsked ++ .recv 1 (.json sampleDpReply) :: sampleMerged 5000000000 15000000000) ∧
      State.Along sampleConfig (timelyMerges 0) 0
        (sampleAsked ++ .recv 1 (.json sampleDpReply) :: sampleMerged 5000000000 15000000000) ∧
      Clock.ms ((State.after sampleConfig 0 (sampleAsked ++ .recv 1 (.json sampleDpReply) ::
          sampleMerged 5000000000 15000000000)).now + (1000000 : Nat)) -
        (State.after sampleConfig 0 sampleAsked).now.ms ≤ 150000 ∧
      (((State.after sampleConfig 0 (sampleAsked ++ .recv 1 (.json sampleDpReply) ::
          sampleMerged 5000000000 15000000000)).step sampleConfig (.check 1 1000000)).conns 1).map Conn.pc ≠
        ((State.after sampleConfig 0 (sampleAsked ++ .recv 1 (.json sampleDpReply) ::
          sampleMerged 5000000000 15000000000)).conns 1).map Conn.pc := by decide +kernel
  obtain ⟨hwaits, honly, htimely, hsoon, hfires⟩ := hrun
  obtain ⟨x₀, hx₀, hx₀'⟩ := (Option.any_eq_true _ _).mp hwaits
  rw [Bool.and_eq_true, decide_eq_true_eq, decide_eq_true_eq] at hx₀'
  rw [← hx₀'.2] at honly
  have hstill := h sampleConfig rfl 0 sampleAsked (sampleMerged 5000000000 15000000000) 1 sampleDpReply
    1000000 (by decide) x₀ hx₀ (.inr ⟨false, hx₀'.1⟩) honly htimely hsoon
  exact hfires (congrArg (fun s => (s.conns 1).map Conn.pc) hstill)

/-! ## Silence -/

/-- The receive data of connection `c` are those of `x₁`. -/
def State.Settled (c : Nat) (x₁ : Conn) (s : State) : Prop :=
  ∃ x, s.conns c = some x ∧ x.pc.Started ∧ x.deviceId = x₁.deviceId ∧
    x.link.received = x₁.link.received ∧ x.link.session.lastRxMs = x₁.link.session.lastRxMs

theorem ConnStep.started {c : Nat} {x x' : Conn} (hs : ConnStep s₀ e s c x x') (h : x.pc.Started) :
    x'.pc.Started := by
  cases hs with
  | quiet hq => exact hq.started h
  | helloFailed hpc => rw [hpc] at h; cases h
  | helloAcked hpc hack => rw [hpc] at h; cases h
  | verified hpc hs he hv => rw [hpc] at h; cases h
  | _ => exact h

theorem settled_micro {c : Nat} {x₁ : Conn} (he : ∀ frame, e ≠ .recv c frame) (hn : s.Numbered)
    (hm : Micro cfg s₀ e s s') (h : s.Settled c x₁) : s'.Settled c x₁ := by
  obtain ⟨x, hx, hpc, hd, hrec, hlast⟩ := h
  have hupdate := hm.update c
  unfold State.Settled
  generalize s'.conns c = o at hupdate
  cases hupdate with
  | same hx₀ => exact ⟨x, hx₀.symm.trans hx, hpc, hd, hrec, hlast⟩
  | new he hc hd hs => exact absurd (hc ▸ hn c x hx) (Nat.lt_irrefl _)
  | replaced hx₀ =>
      cases hx.symm.trans hx₀
      exact ⟨_, rfl, hpc, hd, hrec, hlast⟩
  | step hx₀ hs =>
      cases hx.symm.trans hx₀
      rcases hs.received with ⟨hrec', hlast'⟩ | ⟨⟨msg, he'⟩, -⟩
      · exact ⟨_, rfl, hs.started hpc, hs.grows.deviceId.trans hd, hrec'.trans hrec, hlast'.trans hlast⟩
      · exact absurd he' (he _)
  | shaken hx₀ hpc₀ he' =>
      cases hx.symm.trans hx₀
      rw [hpc₀] at hpc
      cases hpc
  | ended hx₀ hpc₀ he' hs =>
      cases hx.symm.trans hx₀
      exact ⟨_, rfl, .ended, hd, hrec, hlast⟩

theorem settled_run {c : Nat} {x₁ : Conn} {silent : List Step}
    (hsilent : ∀ frame, Step.recv c frame ∉ silent) (hn : s.Numbered) (h : s.Settled c x₁) :
    (Run.run (State.step cfg) s silent).Settled c x₁ := by
  have hok : Run.Along (State.step cfg) (fun _ e => ∀ frame, e ≠ .recv c frame) s silent :=
    Run.along_of_mem fun e he frame hrecv => hsilent frame (hrecv ▸ he)
  have hinv : (Run.run (State.step cfg) s silent).Numbered ∧
      (Run.run (State.step cfg) s silent).Settled c x₁ := by
    refine Run.invariant (P := fun s => s.Numbered ∧ s.Settled c x₁) ?_ hok ⟨hn, h⟩
    intro s e hs he
    refine Run.star_invariant (P := fun s => s.Numbered ∧ s.Settled c x₁) ?_ (State.step_chain cfg s e) hs
    exact fun a b hm hab => ⟨hm.numbered hab.1, settled_micro he hab.1 hm hab.2⟩
  exact hinv.2

/-! ## Detection -/

/-- Both datapoints are 0, with stamps of the last 15 s that are more than 5 s later than `t₀`. -/
def State.Refreshed (s : State) (d : Str) (t₀ : Clock) : Prop :=
  ∀ name ∈ [py "System_Power_Mode", py "Net_Link_State"],
    (Dict.get (s.deviceState d).dp name).isZero = true ∧
      ∃ p, (s.deviceState d).dpTs.lookup name = some p ∧ t₀ + seconds 5 < p ∧ s.now ≤ p + seconds 15

/-- After 20 s without a message the fast window applies to refreshed datapoints only. -/
theorem State.freshNormal_iff {d : Str} {t₀ : Clock} (ht₀ : 0 ≤ t₀)
    (hidle : 20000 < s.now.ms - t₀.ms) :
    ((s.deviceState d).freshNormal s.now (py "System_Power_Mode") = true ∧
      (s.deviceState d).freshNormal s.now (py "Net_Link_State") = true) ↔ s.Refreshed d t₀ := by
  have hlate := Clock.lt_of_ms hidle
  have hname : ∀ name, (s.deviceState d).freshNormal s.now name = true ↔
      (Dict.get (s.deviceState d).dp name).isZero = true ∧
        ∃ p, (s.deviceState d).dpTs.lookup name = some p ∧ t₀ + seconds 5 < p ∧ s.now ≤ p + seconds 15 := by
    intro name
    rw [Shadow.freshNormal_eq]
    refine and_congr_right fun _ => ⟨?_, ?_⟩
    · rintro (⟨-, hnow⟩ | ⟨p, hp, hnow⟩)
      · exact absurd (Clock.lt_of_late ht₀ hlate) (Int.not_lt.mpr hnow)
      · exact ⟨p, hp, Clock.stamp_of_late hlate hnow, hnow⟩
    · rintro ⟨p, hp, -, hnow⟩
      exact .inr ⟨p, hp, hnow⟩
  simp only [Refreshed, List.mem_cons, List.not_mem_nil, or_false, forall_eq_or_imp, forall_eq, hname]

theorem Shadow.idleTimeoutMs_lt {st : Shadow} {now : Clock} {idle : Int} (hidle : 20000 < idle) :
    st.idleTimeoutMs {} now < idle ↔ 150000 < idle ∨
      (st.freshNormal now (py "System_Power_Mode") = true ∧
        st.freshNormal now (py "Net_Link_State") = true) := by
  unfold idleTimeoutMs
  split
  · rename_i h
    rw [Bool.and_eq_true] at h
    exact ⟨fun _ => .inr h, fun _ => hidle⟩
  · rename_i h
    rw [Bool.and_eq_true] at h
    exact ⟨.inl, fun hor => hor.resolve_right h⟩

/-- The last message of a connected session, received at `t₀`, and a check more than 20 s later: it decides
offline after 150 s, or when the two datapoints have been refreshed since. Replies that are merged in time
do not refresh them. -/
theorem offline_detection (cfg : Config) (hlim : cfg.limits = {}) (t : Nat) (before silent : List Step)
    (c : Nat) (msg : Json) (x₀ : Conn) (fired : Bool)
    (hx₀ : (State.after cfg t before).conns c = some x₀) (hpc : x₀.pc = .live .idle fired)
    (hsilent : ∀ frame, Step.recv c frame ∉ silent) (s : State)
    (hs : s = State.after cfg t (before ++ .recv c (.json msg) :: silent)) (t₀ : Clock)
    (ht₀ : t₀ = (State.after cfg t before).now) (hidle : 20000 < s.now.ms - t₀.ms) (lag : Nat) (x : Conn)
    (hx : s.conns c = some x) :
    (s.idleTooLong cfg x lag = true ↔
      150000 < Clock.ms (s.now + lag) - t₀.ms ∨ s.Refreshed x.deviceId t₀) ∧
      (State.Along cfg (timelyMerges 0) t (before ++ .recv c (.json msg) :: silent) →
        State.Along cfg (onlyDelivers x.deviceId c) t (before ++ .recv c (.json msg) :: silent) →
        ¬ s.Refreshed x.deviceId t₀) := by
  obtain ⟨x₁, hx₁, hpc₁, hd₁, hlast₁⟩ := @State.recv_rx cfg _ c x₀ fired msg hx₀ hpc
  have hrun : s = Run.run (State.step cfg)
      ((State.after cfg t before).step cfg (.recv c (.json msg))) silent := by
    rw [hs, State.after, Run.run_append, Run.run_cons]
  rw [← State.after_snoc] at hx₁ hrun
  have hsettled : s.Settled c x₁ := by
    rw [hrun]
    exact settled_run hsilent (numbered_after _ _ _) ⟨x₁, hx₁, hpc₁, rfl, rfl, rfl⟩
  obtain ⟨x', hx', -, hd, hrec, hlast⟩ := hsettled
  rw [hx] at hx'
  cases hx'
  rw [hlast₁, ← ht₀] at hlast
  constructor
  · have hfresh := @State.freshNormal_iff s x.deviceId t₀ (ht₀ ▸ (clocked_after cfg t before).now) hidle
    have hlater : 20000 < Clock.ms (s.now + lag) - t₀.ms := by
      have hms := Clock.ms_mono (Int.le_add_of_nonneg_right (Int.natCast_nonneg lag) : s.now ≤ s.now + lag)
      omega
    unfold State.idleTooLong
    rw [decide_eq_true_eq, hlast, hlim, ← hfresh]
    exact Shadow.idleTimeoutMs_lt hlater
  · intro htimely hone hrefreshed
    have hdev : x.deviceId = x₀.deviceId := hd.trans hd₁
    rw [hdev] at hone hrefreshed
    obtain ⟨a, ha, y, hy, hg, hanchored⟩ :=
      anchored_after (by decide) hx₀ (quietOthers_along hone htimely)
    rw [← hs, hx] at hy
    cases hy
    rw [← hs] at hanchored
    obtain ⟨-, p, hp, hlt, -⟩ := hrefreshed (py "Net_Link_State") (by simp)
    have hshaken : x.shaken = true := hg.shaken (live_shaken cfg t before c x₀ hx₀ _ _ hpc)
    have hnow : (State.after cfg t (before ++ [.recv c (.json msg)])).now = t₀ := by
      rw [State.after_snoc, ht₀]
      exact (State.step_chain cfg _ _).now (by simp)
    rcases hanchored.stamps hshaken _ (mem_of_lookup hp) with hle | ⟨en, hen, hle⟩
    · have hbound : p ≤ t₀ + seconds 5 := by
        rw [ht₀]
        simpa using Int.le_trans hle (Int.add_le_add_right ha _)
      exact absurd hlt (Int.not_lt.mpr hbound)
    · rw [hrec] at hen
      have hat := ((clocked_after cfg t (before ++ [.recv c (.json msg)])).timed c x₁ hx₁ en hen).2.1
      rw [hnow] at hat
      have hbound : p ≤ t₀ + seconds 5 := by
        simpa using Int.le_trans hle (Int.add_le_add_right hat _)
      exact absurd hlt (Int.not_lt.mpr hbound)

/-- The report of the normal mode is the last message. -/
def sampleSilence (ns : Nat) : List Step :=
  sampleHandshake 0 [7] "n" ++ .recv 0 (.json sampleReport) :: [.tick ns]

theorem offline_detection_sample :
    ∃ x, (State.after sampleConfig 0 (sampleSilence 151000000000)).conns 0 = some x ∧
      (State.after sampleConfig 0 (sampleSilence 151000000000)).idleTooLong sampleConfig x 0 = true := by
  have hdecided : ((State.after sampleConfig 0 (sampleHandshake 0 [7] "n")).conns 0).any (fun x =>
        decide (x.pc = .live .idle false)) = true ∧
      ((State.after sampleConfig 0 (sampleSilence 151000000000)).conns 0).isSome = true ∧
      20000 < (State.after sampleConfig 0 (sampleSilence 151000000000)).now.ms -
        (State.after sampleConfig 0 (sampleHandshake 0 [7] "n")).now.ms ∧
      150000 < Clock.ms ((State.after sampleConfig 0 (sampleSilence 151000000000)).now + (0 : Nat)) -
        (State.after sampleConfig 0 (sampleHandshake 0 [7] "n")).now.ms := by decide +kernel
  obtain ⟨hbefore, hrun, hidle, hlate⟩ := hdecided
  obtain ⟨x₀, hx₀, hpc⟩ := (Option.any_eq_true _ _).mp hbefore
  obtain ⟨x, hx⟩ := Option.isSome_iff_exists.mp hrun
  have h := offline_detection sampleConfig rfl 0 (sampleHandshake 0 [7] "n") [.tick 151000000000] 0
    sampleReport x₀ false hx₀ (of_decide_eq_true hpc) (by simp) _ rfl _ rfl hidle 0 x hx
  exact ⟨x, hx, h.1.mpr (.inl hlate)⟩

/-- 21 s after a report of the normal mode the stamps are too old for the fast window. -/
theorem no_offline_after_21_s :
    ∃ x, (State.after sampleConfig 0 (sampleSilence 21000000000)).conns 0 = some x ∧
      20000 < (State.after sampleConfig 0 (sampleSilence 21000000000)).now.ms -
        (State.after sampleConfig 0 (sampleHandshake 0 [7] "n")).now.ms ∧
      (State.after sampleConfig 0 (sampleSilence 21000000000)).idleTooLong sampleConfig x 0 = false := by
  have hdecided : ((State.after sampleConfig 0 (sampleSilence 21000000000)).conns 0).any (fun x =>
        !(State.after sampleConfig 0 (sampleSilence 21000000000)).idleTooLong sampleConfig x 0) = true ∧
      20000 < (State.after sampleConfig 0 (sampleSilence 21000000000)).now.ms -
        (State.after sampleConfig 0 (sampleHandshake 0 [7] "n")).now.ms := by decide +kernel
  obtain ⟨hrun, hidle⟩ := hdecided
  obtain ⟨x, hx, hfalse⟩ := (Option.any_eq_true _ _).mp hrun
  exact ⟨x, hx, hidle, by simpa using hfalse⟩

end Fountainer
