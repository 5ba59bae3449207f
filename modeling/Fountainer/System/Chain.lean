import Fountainer.System.Lemmas.Processed

/-!
# Every step is a chain of updates
-/

namespace Fountainer

/-! ## What link operations leave alone -/

namespace Link

@[simp] theorem sendDone_received (l : Link) (k : Nat) (ok : Bool) :
    (l.sendDone k ok).received = l.received := by
  unfold sendDone leave
  split
  · rfl
  · split
    · rfl
    · split
      · rfl
      · split <;> rfl

@[simp] theorem wake_received (l : Link) (k : Nat) (raises : Bool) :
    (l.wake k raises).received = l.received := by
  unfold wake leave
  split
  · rfl
  · split
    · rfl
    · split
      · rfl
      · split <;> rfl

/-- A request that has returned after its `ws.send` had its reply before. -/
theorem sendDone_returned {l : Link} {k : Nat} {ok : Bool} {r : Request} {m : Json}
    (hr : (l.sendDone k ok).requests[k]? = some r) (hm : r.phase = .returned m) :
    ∃ r₀, l.requests[k]? = some r₀ ∧
      (r₀.phase = .returned m ∨ l.session.pending.lookup r₀.msgId = some (.result m)) := by
  unfold sendDone at hr
  split at hr
  · rename_i hk
    rw [hk] at hr
    cases hr
  · rename_i r₀ hk
    refine ⟨r₀, hk, ?_⟩
    have hlt := (List.getElem?_eq_some_iff.mp hk).1
    split at hr
    · rw [hk] at hr
      cases hr
      exact .inl hm
    · split at hr
      · rw [leave, List.getElem?_set_self hlt] at hr
        cases hr
        cases hm
      · split at hr
        · rename_i m' hm'
          rw [leave, List.getElem?_set_self hlt] at hr
          cases hr
          cases hm
          exact .inr hm'
        · rw [List.getElem?_set_self hlt] at hr
          cases hr
          cases hm

theorem wake_returned {l : Link} {k : Nat} {raises : Bool} {r : Request} {m : Json}
    (hr : (l.wake k raises).requests[k]? = some r) (hm : r.phase = .returned m) :
    ∃ r₀, l.requests[k]? = some r₀ ∧
      (r₀.phase = .returned m ∨ l.session.pending.lookup r₀.msgId = some (.result m)) := by
  unfold wake at hr
  split at hr
  · rename_i hk
    rw [hk] at hr
    cases hr
  · rename_i r₀ hk
    refine ⟨r₀, hk, ?_⟩
    have hlt := (List.getElem?_eq_some_iff.mp hk).1
    split at hr
    · rw [hk] at hr
      cases hr
      exact .inl hm
    · split at hr
      · rw [leave, List.getElem?_set_self hlt] at hr
        cases hr
        cases hm
      · split at hr
        · rename_i m' hm'
          rw [leave, List.getElem?_set_self hlt] at hr
          cases hr
          cases hm
          exact .inr hm'
        · rw [hk] at hr
          cases hr
          exact .inl hm

theorem dispatch_received (l : Link) (now : Clock) (callbacks : Str → Bool) (msg : Json) :
    ∃ en, (l.dispatch now callbacks msg).1.received = l.received ++ [en] ∧ en.at_ = now :=
  ⟨_, rfl, rfl⟩

end Link

namespace State

abbrev Chain (cfg : Config) (s₀ : State) (e : Step) : State → State → Prop :=
  Relation.ReflTransGen (Micro cfg s₀ e)

variable {cfg : Config} {s₀ s : State} {e : Step} {c : Nat} {x : Conn}

theorem Chain.now {s' : State} (h : Chain cfg s₀ e s s') (he : ∀ ns, e ≠ .tick ns) :
    s'.now = s.now := by
  induction h with
  | refl => rfl
  | tail _ hm ih => exact (hm.now he).trans ih

/-! ## Calls and tasks -/

theorem startOn_eq (hx : s.conns c = some x) (call : Call) :
    s.startOn c call =
      (s.setConn c { x with link := (x.link.start s.now call).1 }, (x.link.start s.now call).2) := by
  simp only [startOn, hx]

theorem startOn_chain (hx : s.conns c = some x) (hnow : s.now = s₀.now) (ha : s₀.actor e = some c) {call : Call}
    (h : Origin s₀ e s c x call) : Chain cfg s₀ e s (s.startOn c call).1 := by
  rw [startOn_eq hx]
  exact .single (.conn hx hnow ha (.start h))

theorem runTask_succ {y : Task} (hx : s.conns y.conn = some x) {o : TaskOut TaskBody} {t fuel : Nat}
    {res : Except PyErr Dict}
    (ho : y.body.resume cfg.limits (s.deviceState x.deviceId) s.now res = o) :
    s.runTask cfg t y res (fuel + 1) =
      match o.next with
      | .finish => (s.store x.deviceId o).setTask t { y with body := o.task, state := .finished }
      | .sleep ns =>
          (s.store x.deviceId o).setTask t { y with body := o.task, state := .asleep (s.now + ns) }
      | .call call =>
          match (s.store x.deviceId o).startOn y.conn call with
          | (s, .ok (some k)) => s.setTask t { y with body := o.task, state := .awaiting k }
          | (s, .ok none) => s.setTask t { y with body := o.task, state := .finished }
          | (s, .error e) => s.runTask cfg t { y with body := o.task } (.error e) fuel := by
  subst ho
  simp only [runTask, hx]
  rfl

/-- A task runs on: each turn stores a result, and perhaps starts a request. -/
theorem runTask_chain {t : Nat} {y₀ : Task} (he : s₀.resumes e = some t) (ha : s₀.actor e = some y₀.conn)
    (ht₀ : s₀.tasks t = some y₀) (fuel : Nat) :
    ∀ {s : State} {y : Task} {res : Except PyErr Dict}, s.tasks t = some y₀ → y.conn = y₀.conn →
      y.body.polls = y₀.body.polls → y.body.reads = y₀.body.reads →
      (y.body.paused = true → y₀.body.paused = true) →
      Resumed s₀ e t y₀.conn res → s.now = s₀.now →
      (∀ x x₀, s.conns y₀.conn = some x → s₀.conns y₀.conn = some x₀ →
        x₀.deviceId = x.deviceId ∧ x₀.link.received = x.link.received) →
      Chain cfg s₀ e s (s.runTask cfg t y res fuel) := by
  induction fuel with
  | zero =>
      intro s y res ht hc hp hr hpa hres hnow hrec
      exact .single (.task ht ht₀ hc hp he ha fun h => .inl (hpa h))
  | succ fuel ih =>
      intro s y res ht hc hp hr hpa hres hnow hrec
      cases hx : s.conns y.conn with
      | none =>
          simp only [runTask, hx]
          exact .refl
      | some x =>
          have hx₀ : s.conns y₀.conn = some x := hc ▸ hx
          have hstore : Micro cfg s₀ e s (s.store x.deviceId
              (y.body.resume cfg.limits (s.deviceState x.deviceId) s.now res)) :=
            .stored ht hx₀ hr hres ht₀ hnow (fun x₀ => hrec x x₀ hx₀) ha
          obtain ⟨hpolls, hreads⟩ := y.body.resume_polls cfg.limits (s.deviceState x.deviceId) s.now res
          have hpaused : (y.body.resume cfg.limits (s.deviceState x.deviceId) s.now res).task.paused = true →
              y₀.body.paused = true ∨ (y.body.resume cfg.limits (s.deviceState x.deviceId) s.now res).Pauses :=
            fun h => (TaskBody.resume_paused h).imp_left hpa
          generalize ho : y.body.resume cfg.limits (s.deviceState x.deviceId) s.now res = o
            at hstore hpolls hreads hpaused
          rw [runTask_succ hx ho]
          refine .head hstore ?_
          have ht' : (s.store x.deviceId o).tasks t = some y₀ := ht
          have hdown : o.Pauses → ∃ x', (s.store x.deviceId o).conns y₀.conn = some x' ∧
              ((s.store x.deviceId o).deviceState x'.deviceId).downloading = true := by
            rintro ⟨-, hd⟩
            refine ⟨x, hx₀, ?_⟩
            rw [← hd]
            exact congrArg _ (setShadow_self s x.deviceId o.shadow)
          -- a turn that asks or ends pauses for no download
          have hgoes : (∀ ns, o.next ≠ .sleep ns) → o.task.paused = true → y₀.body.paused = true :=
            fun hne h => (hpaused h).resolve_right fun ⟨⟨ns, hns⟩, _⟩ => hne ns hns
          cases hn : o.next with
          | finish => exact .single (.task ht' ht₀ hc (hpolls.trans hp) he ha fun h => (hpaused h).imp_right hdown)
          | sleep ns => exact .single (.task ht' ht₀ hc (hpolls.trans hp) he ha fun h => (hpaused h).imp_right hdown)
          | call call =>
              have hquiet := hgoes (by rw [hn]; exact fun ns h => by cases h)
              have hx' : (s.store x.deviceId o).conns y.conn = some x := hx
              obtain ⟨hpoll, name, body, rfl, hbody⟩ := TaskBody.resume_call (ho ▸ hn)
              have horigin : Origin s₀ e (s.store x.deviceId o) y.conn x (.request name body) :=
                .task ht' hc.symm (hp ▸ hpoll) hbody
              refine .head (.conn hx' hnow (hc ▸ ha) (.start horigin)) ?_
              dsimp only
              have ht'' : ((s.store x.deviceId o).setConn y.conn { x with
                  link := (x.link.start (s.store x.deviceId o).now (.request name body)).1 }).tasks t
                  = some y₀ := ht
              rw [startOn_eq hx']
              cases (x.link.start (s.store x.deviceId o).now (.request name body)).2 with
              | ok k =>
                  cases k with
                  | none => exact .single (.task ht'' ht₀ hc (hpolls.trans hp) he ha fun h => .inl (hquiet h))
                  | some k => exact .single (.task ht'' ht₀ hc (hpolls.trans hp) he ha fun h => .inl (hquiet h))
              | error err =>
                refine ih ht'' hc (hpolls.trans hp) (hreads.trans hr) hquiet (.raised err) hnow ?_
                intro x' x₀ hx₁ hx₂
                rw [← hc, setConn_self] at hx₁
                cases hx₁
                obtain ⟨hd, hl⟩ := hrec x x₀ hx₀ hx₂
                exact ⟨hd, by rw [hl]; exact (Link.start_received ..).symm⟩

theorem waiter_some {k t : Nat} (h : s.waiter c k = some t) :
    ∃ y, s.tasks t = some y ∧ y.conn = c := by
  have hf := List.find?_some h
  cases hy : s.tasks t with
  | none => simp [hy] at hf
  | some y =>
      simp only [hy, decide_eq_true_eq] at hf
      exact ⟨y, rfl, hf.1⟩

theorem settle_chain {k : Nat} {f : Link → Link}
    (he : (∃ ok, e = .sendDone c k ok) ∨ ∃ raises, e = .reqDone c k raises)
    (hrec : ∀ l, (f l).received = l.received)
    (hret : ∀ l r m, (f l).requests[k]? = some r → r.phase = .returned m →
      ∃ r₀, l.requests[k]? = some r₀ ∧
        (r₀.phase = .returned m ∨ l.session.pending.lookup r₀.msgId = some (.result m)))
    (hstep : ∀ x, s₀.conns c = some x → ConnStep s₀ e s₀ c x { x with link := f x.link }) :
    Chain cfg s₀ e s₀ ((s₀.modLink c f).settle cfg c k) := by
  have hresumes : s₀.resumes e = s₀.waiter c k ∧ s₀.actor e = some c := by
    rcases he with ⟨ok, rfl⟩ | ⟨raises, rfl⟩ <;> exact ⟨rfl, rfl⟩
  cases hx : s₀.conns c with
  | none =>
      have hmod : s₀.modLink c f = s₀ := by simp only [modLink, hx]
      rw [hmod]
      unfold settle
      rw [hx]
  | some x =>
      have hmod : s₀.modLink c f = s₀.setConn c { x with link := f x.link } := by
        simp only [modLink, hx]
      rw [hmod]
      refine .head (.conn hx rfl hresumes.2 (hstep x hx)) ?_
      unfold settle
      rw [setConn_self]
      have hwait : (s₀.setConn c { x with link := f x.link }).waiter c k = s₀.waiter c k := rfl
      rw [hwait]
      cases hw : s₀.waiter c k with
      | none => exact .refl
      | some t =>
          obtain ⟨y, hy, hyc⟩ := waiter_some hw
          dsimp only
          rw [setConn_tasks, hy]
          cases hr : (f x.link).requests[k]? with
          | none => exact .refl
          | some r =>
              dsimp only
              have hconns : ∀ x' x₀, (s₀.setConn c { x with link := f x.link }).conns y.conn = some x' →
                  s₀.conns y.conn = some x₀ →
                  x₀.deviceId = x'.deviceId ∧ x₀.link.received = x'.link.received := by
                intro x' x₀ hx' hx₀
                rw [hyc] at hx' hx₀
                rw [setConn_self] at hx'
                rw [hx] at hx₀
                cases hx'
                cases hx₀
                exact ⟨rfl, (hrec _).symm⟩
              have hrun : ∀ res, Resumed s₀ e t y.conn res →
                  Chain cfg s₀ e (s₀.setConn c { x with link := f x.link })
                    ((s₀.setConn c { x with link := f x.link }).runTask cfg t y res 4) :=
                fun res hres => runTask_chain (hresumes.1.trans hw) (hyc ▸ hresumes.2) hy 4 hy rfl rfl rfl id hres rfl hconns
              cases hp : r.phase with
              | sending => exact .refl
              | waiting => exact .refl
              | raised => exact hrun _ (.raised _)
              | returned m =>
                  obtain ⟨r₀, hr₀, hm⟩ := hret _ r m hr hp
                  exact hrun _ (.replied (by rw [hyc]; exact he) (hyc ▸ hw) (hyc ▸ hx) hr₀ hm)

/-! ## Callbacks and dispatch -/

/-- The same connection, perhaps with more calls on its link. -/
def Kept (s : State) (c : Nat) (x : Conn) : Prop := ∃ x', s.conns c = some x' ∧ x'.pc = x.pc

theorem callback_chain {key : Str} {h : Hook} {cause : Cause} {msg : Dict}
    (hx : s.conns c = some x) (hnow : s.now = s₀.now) (hinv : Invoked s₀ e s c x key h cause msg) :
    Chain cfg s₀ e s (s.callback cfg c key h cause msg).1 ∧
      Kept (s.callback cfg c key h cause msg).1 c x := by
  have hcalled : Micro cfg s₀ e s (s.called c x.deviceId key h cause msg
      (runHook cfg h (s.deviceState x.deviceId) x.link.session s.now msg).shadow) := .called hx hinv
  generalize hs' : s.called c x.deviceId key h cause msg
    (runHook cfg h (s.deviceState x.deviceId) x.link.session s.now msg).shadow = s' at hcalled
  have hx' : s'.conns c = some x := by rw [← hs', called_conns]; exact hx
  have hnow' : s'.now = s₀.now := by rw [← hs', called_now]; exact hnow
  have hkept : Kept s' c x := ⟨x, hx', rfl⟩
  simp only [callback, hx, hs']
  cases herr : (runHook cfg h (s.deviceState x.deviceId) x.link.session s.now msg).err with
  | some err => exact ⟨.single hcalled, hkept⟩
  | none =>
      cases hr : (runHook cfg h (s.deviceState x.deviceId) x.link.session s.now msg).reply with
      | none => exact ⟨.single hcalled, hkept⟩
      | some call =>
          obtain ⟨hh, name, body, rfl, hbody⟩ := runHook_reply hr
          have horigin : Origin s₀ e s' c x (.send name body (msg.get (py "msg_id"))) := by
            cases hinv with
            | dispatched he hkey hcb hpc hrec =>
                rw [hh] at hcb
                have hota : key = py "__ota_check__" := callbackFor_key hcb
                exact .answer hpc hbody (.inr ⟨he, hota ▸ hkey⟩)
            | otaCheck he hpc hproof htype => exact .answer (.inl hpc) hbody (.inl hproof)
          have hstart : Chain cfg s₀ e s (s'.setConn c { x with
              link := (x.link.start s'.now (.send name body (msg.get (py "msg_id")))).1 }) :=
            .tail (.single hcalled) (.conn hx' hnow' hinv.actor (.start horigin))
          dsimp only
          rw [startOn_eq hx']
          cases (x.link.start s'.now (.send name body (msg.get (py "msg_id")))).2 with
          | ok k => exact ⟨hstart, _, setConn_self .., rfl⟩
          | error err => exact ⟨hstart, _, setConn_self .., rfl⟩

theorem dispatchOn_chain {msg : Json} (hx : s.conns c = some x) (hnow : s.now = s₀.now)
    (hpc : x.pc.dispatches) (he : e = .recv c (.json msg))
    (hlook : ∀ d key, msg = .obj d → x.link.session.lookupKey d = some key →
      s₀.lookedUp c d = some key) :
    Chain cfg s₀ e s (s.dispatchOn cfg c msg).1 ∧ Kept (s.dispatchOn cfg c msg).1 c x := by
  have hdisp : ConnStep s₀ e s c x { x with
      link := (x.link.dispatch s.now (fun k => (callbackFor k).isSome) msg).1 } := .dispatch hpc he
  obtain ⟨en, hrec, hat⟩ := Link.dispatch_received x.link s.now (fun k => (callbackFor k).isSome) msg
  have hcases : DeviceSession.DispatchCase x.link.session s.now (fun k => (callbackFor k).isSome) msg
      (x.link.dispatch s.now (fun k => (callbackFor k).isSome) msg).1.session
      (x.link.dispatch s.now (fun k => (callbackFor k).isSome) msg).2 :=
    DeviceSession.dispatch_cases rfl
  simp only [dispatchOn, hx]
  generalize x.link.dispatch s.now (fun k => (callbackFor k).isSome) msg = out
    at hdisp hrec hcases ⊢
  obtain ⟨l, r⟩ := out
  have ha : s₀.actor e = some c := by rw [he]; rfl
  have hchain : Chain cfg s₀ e s (s.setConn c { x with link := l }) := .single (.conn hx hnow ha hdisp)
  have hx' : (s.setConn c { x with link := l }).conns c = some { x with link := l } :=
    setConn_self ..
  cases r with
  | error err => exact ⟨hchain, _, hx', rfl⟩
  | ok r =>
      cases r with
      | reply i o => exact ⟨hchain, _, hx', rfl⟩
      | dropped => exact ⟨hchain, _, hx', rfl⟩
      | callback key =>
          dsimp only at hcases ⊢
          split
          · rename_i h d hh hd
            have hobj : msg = .obj d := by
              cases msg with
              | obj kvs => cases hd; rfl
              | _ => cases hd
            have hkey : x.link.session.lookupKey d = some key := by
              generalize l.session = session at hcases
              cases hcases with
              | callback hmsg hkey hcb =>
                  rw [hobj] at hmsg
                  cases hmsg
                  exact hkey
            have hinv : Invoked s₀ e (s.setConn c { x with link := l }) c { x with link := l } key h
                .dispatched d :=
              .dispatched (hobj ▸ he) (hlook d key hobj hkey) hh hpc
                ⟨en, by rw [hrec]; exact List.mem_append_right _ (List.mem_singleton_self _), hat⟩
            obtain ⟨hcb, x', hx'', hpc'⟩ := callback_chain hx' hnow hinv
            exact ⟨.trans hchain hcb, x', hx'', hpc'⟩
          · exact ⟨hchain, _, hx', rfl⟩

/-! ## The handler -/

theorem setPc_chain {pc : Pc} (hx : s.conns c = some x) (hnow : s.now = s₀.now) (ha : s₀.actor e = some c)
    (hq : Quiet x.pc pc) : Chain cfg s₀ e s (s.setPc c pc) := by
  simp only [setPc, hx]
  exact .single (.conn hx hnow ha (.quiet hq))

theorem finish_chain (hx : s.conns c = some x) (hpc : x.pc ≠ .ended) (he : e.handler = some c) :
    Chain cfg s₀ e s (s.finish cfg c) := .single (.finished hx hpc he)

theorem handshakeDone_eq (cfg : Config) (hx : s.conns c = some x) :
    s.handshakeDone cfg c = (s.shake c x).called c x.deviceId (py "__connect__") .onConnect .lifecycle []
      (onConnect (s.deviceState x.deviceId) x.link.session s.now).shadow := by
  have hkey : callbackFor (py "__connect__") = some .onConnect := by decide
  have hcb : (s.shake c x).callback cfg c (py "__connect__") .onConnect .lifecycle [] = _ :=
    callback_quiet (s.shake c x) c { x with
      link := { x.link with session := { x.link.session with lastRxMs := s.now.ms } }
      pc := .live .idle false, shaken := true } (py "__connect__") .onConnect .lifecycle []
      (setConn_self ..) rfl rfl
  simp only [shake] at hcb
  simp only [handshakeDone, hx, hkey, hcb]
  rfl

theorem handshakeDone_chain (hx : s.conns c = some x) (hpc : x.pc = .proofReply)
    (he : s₀.completes cfg c e = true) : Chain cfg s₀ e s (s.handshakeDone cfg c) := by
  rw [handshakeDone_eq cfg hx]
  exact .single (.connected hx hpc he)

/-- `_on_ota_check` sends an answer or raises. -/
theorem callback_otaCheck (cfg : Config) (s : State) (c : Nat) (key : Str) (cause : Cause) (msg : Dict) :
    (s.callback cfg c key .onOtaCheck cause msg).2 ≠ .done := by
  have hout : ∀ st session now, (onOtaCheck cfg st session now msg).err = none →
      (onOtaCheck cfg st session now msg).reply ≠ none := by
    intro st session now
    unfold onOtaCheck
    dsimp only
    split
    · simp
    · split <;> simp
  unfold callback
  split
  · simp
  · rename_i x hx
    have hx := hout (s.deviceState x.deviceId) x.link.session s.now
    simp only [runHook]
    split
    · simp
    · rename_i herr hreply
      exact absurd hreply (hx herr)
    · split <;> simp

theorem dispatchOn_otaCheck (hx : s.conns c = some x) {d : Dict}
    (hkey : x.link.session.lookupKey d = some (py "__ota_check__")) :
    (s.dispatchOn cfg c (.obj d)).2 ≠ .done := by
  have hcb : callbackFor (py "__ota_check__") = some .onOtaCheck := by decide
  have hr : (x.link.dispatch s.now (fun k => (callbackFor k).isSome) (.obj d)).2 = _ :=
    DeviceSession.dispatch_of_lookupKey hkey s.now (by rw [hcb]; rfl)
  simp only [dispatchOn, hx, hr, hcb, Json.asDict]
  exact callback_otaCheck _ _ _ _ _ _

theorem recvHello_chain {frame : Frame} (hx : s₀.conns c = some x) (hpc : x.pc = .hello)
    (he : e.handler = some c) : Chain cfg s₀ e s₀ (s₀.recvHello cfg c x frame) := by
  have hend : Chain cfg s₀ e s₀ (s₀.finish cfg c) := finish_chain hx (by rw [hpc]; simp) he
  unfold recvHello
  split
  · rename_i d
    have hfailed : ∀ code, Micro cfg s₀ e s₀ (s₀.setConn c { x with
        link := { x.link with session := (x.link.session.hello s₀.now d).1 }
        pc := .closing, closeCode := code }) := fun code => .conn hx rfl (actor_of_handler he) (.helloFailed hpc)
    have hacked : ∀ ack b, (x.link.session.hello s₀.now d).2 = .ok (.accepted ack) ∨
        (x.link.session.hello s₀.now d).2 = .ok (.rejected ack) →
        Micro cfg s₀ e s₀ (s₀.setConn c { x with
          link := Link.push { x.link with session := (x.link.session.hello s₀.now d).1 } ack
          pc := .ackSend b }) := fun ack b hack => .conn hx rfl (actor_of_handler he) (.helloAcked hpc hack)
    generalize x.link.session.hello s₀.now d = out at hfailed hacked ⊢
    obtain ⟨session, r⟩ := out
    cases r with
    | error err => exact .tail (.single (hfailed x.closeCode)) (.finished (setConn_self ..) (by simp) he)
    | ok r =>
        cases r with
        | notHello => exact .single (hfailed _)
        | rejected ack => exact .single (hacked ack false (.inr rfl))
        | accepted ack => exact .single (hacked ack true (.inl rfl))
  · exact hend

/-- The connection `x` with the verified proof `d`. -/
def proven (x : Conn) (session : DeviceSession) (d : Dict) : Conn :=
  { x with link := { x.link with session := { session with negotiated := true } }
           pc := .proofReply, proof := some d }

section Proof

variable {d : Dict} {session : DeviceSession} (hx : s₀.conns c = some x) (hpc : x.pc = .proof)
  (hv : x.link.session.verifyC2s d = (session, .ok true))

include hv in
theorem proven_lookupKey : (proven x session d).link.session.lookupKey d = x.link.session.lookupKey d := by
  obtain ⟨replay, rfl⟩ := DeviceSession.verifyC2s_session hv
  simp only [proven, DeviceSession.lookupKey]
  cases Dict.get d (py "in_reply_to") <;> rfl

include hx hpc hv in
theorem proven_lookedUp (htype : Dict.get d (py "type") ≠ .str (py "ota_check")) :
    s₀.lookedUp c d = (proven x session d).link.session.lookupKey d := by
  rw [proven_lookupKey hv]
  simp only [lookedUp, hx, hpc, hv, if_neg htype]

include hx hpc hv in
theorem answerProof_chain (cfg : Config) (he : e = .recv c (.json (.obj d))) :
    Chain cfg s₀ e (s₀.setConn c (proven x session d)) ((s₀.setConn c (proven x session d)).answerProof cfg c d).1 ∧
      Kept ((s₀.setConn c (proven x session d)).answerProof cfg c d).1 c (proven x session d) := by
  have hself : (s₀.setConn c (proven x session d)).conns c = some (proven x session d) := setConn_self ..
  have hkey : callbackFor (py "__ota_check__") = some .onOtaCheck := by decide
  unfold answerProof
  split
  · rename_i htype
    rw [hkey]
    exact callback_chain hself rfl (.otaCheck (by rw [he]; rfl) rfl rfl htype)
  · rename_i htype
    refine dispatchOn_chain hself rfl (.inl rfl) he fun d' key hd hlook => ?_
    cases hd
    rw [proven_lookedUp hx hpc hv htype]
    exact hlook

include hv in
/-- The answer to a verified proof raises exactly when there is none. -/
theorem answerProof_raised_iff (s : State) :
    ((s.setConn c (proven x session d)).answerProof cfg c d).2 = .raised ↔
      proofAnswerable cfg x.link.session s.now d = false := by
  have hself : (s.setConn c (proven x session d)).conns c = some (proven x session d) := setConn_self ..
  have hkey : callbackFor (py "__ota_check__") = some .onOtaCheck := by decide
  obtain ⟨hmac, -⟩ := DeviceSession.verifyC2s_true hv
  obtain ⟨replay, rfl⟩ := DeviceSession.verifyC2s_session hv
  have hready : ((proven x { x.link.session with replay } d).link.session.params .s2c).Ready :=
    (AuthParams.Ready.of_verify hmac).direction rfl
  unfold answerProof proofAnswerable
  split
  · rw [hkey]
    exact callback_raised_iff cfg hself hready _ _ _ d
  · have hprocessed : Frame.processed cfg (proven x { x.link.session with replay } d).link.session s.now
        (.json (.obj d)) = Frame.processed cfg x.link.session s.now (.json (.obj d)) := by
      simp only [Frame.processed, proven]
      cases Dict.get d (py "in_reply_to") <;> rfl
    rw [dispatchOn_raised_iff hself hready d, setConn_now, hprocessed]

include hx hpc hv in
/-- A proof whose answer needs no message completes the handshake. -/
theorem answerProof_completes (hdone : ((s₀.setConn c (proven x session d)).answerProof cfg c d).2 = .done) :
    s₀.completes cfg c (.recv c (.json (.obj d))) = true := by
  have hself : (s₀.setConn c (proven x session d)).conns c = some (proven x session d) := setConn_self ..
  have hkey : callbackFor (py "__ota_check__") = some .onOtaCheck := by decide
  have hraised : ((s₀.setConn c (proven x session d)).answerProof cfg c d).2 = .raised ↔ _ :=
    answerProof_raised_iff hv s₀
  have htype : Dict.get d (py "type") ≠ .str (py "ota_check") := by
    intro htype
    rw [answerProof, if_pos htype, hkey] at hdone
    exact callback_otaCheck _ _ _ _ _ _ hdone
  have hlook : s₀.lookedUp c d ≠ some (py "__ota_check__") := by
    intro hlook
    rw [answerProof, if_neg htype] at hdone
    rw [proven_lookedUp hx hpc hv htype] at hlook
    exact dispatchOn_otaCheck hself hlook hdone
  rw [hdone, proofAnswerable, if_neg htype, ← Bool.not_eq_true] at hraised
  have hprocessed := not_not.mp fun hnot => by cases hraised.mpr hnot
  simp [completes, htype, hlook, hx, hpc, hv, hprocessed]

end Proof

theorem recvProof_chain {frame : Frame} (hx : s₀.conns c = some x) (hpc : x.pc = .proof)
    (he : e = .recv c frame) : Chain cfg s₀ e s₀ (s₀.recvProof cfg c x frame) := by
  have he' : e.handler = some c := by rw [he]; rfl
  have hend : Chain cfg s₀ e s₀ (s₀.finish cfg c) := finish_chain hx (by rw [hpc]; simp) he'
  unfold recvProof
  split
  · rename_i d
    cases hv : x.link.session.verifyC2s d with
    | mk session r =>
        cases r with
        | error err => exact hend
        | ok ok =>
            cases ok with
            | false =>
                rw [DeviceSession.verifyC2s_false hv]
                exact .single (.conn hx rfl (actor_of_handler he') (.quiet (hpc ▸ .noProof)))
            | true =>
                have hcompletes : ((s₀.setConn c (proven x session d)).answerProof cfg c d).2 = .done → _ :=
                  answerProof_completes hx hpc hv
                rw [← he] at hcompletes
                obtain ⟨hchain, x₂, hx₂, hpc₂⟩ := answerProof_chain hx hpc hv cfg he
                refine .head (.conn hx rfl (actor_of_handler he') (.verified hpc rfl he hv)) ?_
                cases hanswer : (s₀.setConn c (proven x session d)).answerProof cfg c d with
                | mk s₂ res =>
                    rw [hanswer] at hchain hx₂ hcompletes
                    unfold proven at hanswer
                    dsimp only
                    rw [hanswer]
                    cases res with
                    | done => exact .trans hchain (handshakeDone_chain hx₂ hpc₂ (hcompletes rfl))
                    | suspended => exact hchain
                    | raised => exact .trans hchain (finish_chain hx₂ (by rw [hpc₂]; simp [proven]) he')
  · exact hend

theorem recvMessage_chain {frame : Frame} {fired : Bool} (hx : s₀.conns c = some x)
    (hpc : x.pc = .live .idle fired) (he : e = .recv c frame) :
    Chain cfg s₀ e s₀ (s₀.recvMessage cfg c fired frame) := by
  have ha : s₀.actor e = some c := by rw [he]; rfl
  unfold recvMessage
  split
  · exact .refl
  · exact setPc_chain hx rfl ha (hpc ▸ .loop ..)
  · rename_i j
    have hdisp : Chain cfg s₀ e s₀ (s₀.dispatchOn cfg c j).1 ∧ Kept (s₀.dispatchOn cfg c j).1 c x := by
      refine dispatchOn_chain hx rfl (.inr ⟨fired, hpc⟩) he ?_
      intro d key _ hlook
      simp only [lookedUp, hx, hpc]
      exact hlook
    obtain ⟨hchain, x₂, hx₂, hpc₂⟩ := hdisp
    have hnow := hchain.now (by rw [he]; simp)
    rw [hpc] at hpc₂
    generalize s₀.dispatchOn cfg c j = out at hchain hx₂ hnow
    obtain ⟨s₂, res⟩ := out
    cases res with
    | done => exact hchain
    | suspended => exact .trans hchain (setPc_chain hx₂ hnow ha (hpc₂ ▸ .loop ..))
    | raised => exact .trans hchain (setPc_chain hx₂ hnow ha (hpc₂ ▸ .loop ..))

/-! ## Steps -/

theorem setConn_chain {pc : Pc} {code : Option Nat} {req : Bool} (hx : s₀.conns c = some x)
    (ha : s₀.actor e = some c) (hq : Quiet x.pc pc) :
    Chain cfg s₀ e s₀ (s₀.setConn c { x with pc, closeCode := code, closeRequested := req }) :=
  .single (.conn hx rfl ha (.quiet hq))

theorem lost_chain (he : e.handler = some c) : Chain cfg s₀ e s₀ (s₀.lost cfg c) := by
  unfold lost
  split
  · exact .refl
  · rename_i x hx
    split
    · rename_i hpc
      exact finish_chain hx (by rw [hpc]; simp) he
    · rename_i hpc
      exact finish_chain hx (by rw [hpc]; simp) he
    · rename_i hpc
      exact setPc_chain hx rfl (actor_of_handler he) (hpc ▸ .loop ..)
    · exact .refl

theorem resume_chain {ok : Bool} (he : e = .resume c ok) : Chain cfg s₀ e s₀ (s₀.resume cfg c ok) := by
  have he' : e.handler = some c := by rw [he]; rfl
  unfold State.resume
  split
  · exact .refl
  · rename_i x hx
    split
    · rename_i hpc
      split
      · exact setPc_chain hx rfl (actor_of_handler he') (hpc ▸ .acked)
      · exact finish_chain hx (by rw [hpc]; simp) he'
    · rename_i hpc
      split
      · exact setConn_chain hx (actor_of_handler he') (hpc ▸ .rejected)
      · exact finish_chain hx (by rw [hpc]; simp) he'
    · rename_i hpc
      split
      · rename_i hok
        exact handshakeDone_chain hx hpc (by simp [completes, he, hok, hx, hpc])
      · exact finish_chain hx (by rw [hpc]; simp) he'
    · rename_i hpc
      exact finish_chain hx (by rw [hpc]; simp) he'
    · rename_i hpc
      exact setPc_chain hx rfl (actor_of_handler he') (hpc ▸ .loop ..)
    · exact .refl

theorem recv_chain {frame : Frame} (he : e = .recv c frame) :
    Chain cfg s₀ e s₀ (s₀.recv cfg c frame) := by
  unfold recv
  split
  · exact .refl
  · rename_i x hx
    split
    · rename_i hpc
      exact recvHello_chain hx hpc (by rw [he]; rfl)
    · rename_i hpc
      exact recvProof_chain hx hpc he
    · rename_i hpc
      exact recvMessage_chain hx hpc he
    · exact .refl

theorem timeout_chain (ha : s₀.actor e = some c) : Chain cfg s₀ e s₀ (s₀.timeout c) := by
  unfold timeout
  split
  · exact .refl
  · rename_i x hx
    split
    · rename_i hpc
      exact setConn_chain hx ha (hpc ▸ .noHello)
    · rename_i hpc
      exact setConn_chain hx ha (hpc ▸ .noProof)
    · exact .refl

theorem check_chain (lag : Nat) (ha : s₀.actor e = some c) : Chain cfg s₀ e s₀ (s₀.check cfg c lag) := by
  unfold check
  split
  · exact .refl
  · rename_i x hx
    split
    · rename_i hpc
      split
      · exact setPc_chain hx rfl ha (hpc ▸ .loop ..)
      · exact .refl
    · exact .refl

theorem stop_chain (ha : s₀.actor e = some c) : Chain cfg s₀ e s₀ (s₀.stop c) := by
  unfold stop
  split
  · exact .refl
  · rename_i x hx
    split
    · rename_i hpc
      split
      · exact setConn_chain hx ha (hpc ▸ .stopped ..)
      · exact .refl
    · exact .refl

/-- Every step is a chain of updates. -/
theorem step_chain (cfg : Config) (s : State) (e : Step) : Chain cfg s e s (s.step cfg e) := by
  cases e with
  | tick ns => exact .single (.tick rfl)
  | accept d rand => exact .single (.accept rfl)
  | recv c frame => exact recv_chain rfl
  | lost c => exact lost_chain rfl
  | resume c ok => exact resume_chain rfl
  | timeout c => exact timeout_chain rfl
  | check c lag => exact check_chain lag rfl
  | stop c => exact stop_chain rfl
  | finish c =>
      dsimp only [step]
      split
      · rename_i x hx
        split
        · rename_i hpc
          exact finish_chain hx (by rw [hpc]; simp) rfl
        · exact .refl
      · exact .refl
  | api d call =>
      dsimp only [step]
      split
      · rename_i c hd
        cases hx : s.conns c with
        | none =>
            simp only [startOn, hx]
            exact .refl
        | some x =>
            have ha : s.actor (.api d call) = some c := hd
            exact startOn_chain hx rfl ha (.api rfl hd rfl)
      · exact .refl
  | dpRead d names =>
      dsimp only [step]
      split
      · rename_i c hd
        cases hx : s.conns c with
        | none =>
            simp only [startOn, hx]
            exact .refl
        | some x =>
            have ha : s.actor (.dpRead d names) = some c := hd
            have hstart : Chain cfg s (.dpRead d names) s (s.startOn c (dpReadCall names)).1 :=
              startOn_chain hx rfl ha (.dpRead rfl hd rfl)
            split
            · rename_i s' k hs'
              rw [hs'] at hstart
              exact .tail hstart (.spawned rfl ha)
            · rename_i s' r hne hs'
              rw [hs'] at hstart
              exact hstart
      · exact .refl
  | sendDone c k ok =>
      refine settle_chain (.inl ⟨ok, rfl⟩) (fun l => l.sendDone_received k ok) ?_ ?_
      · exact fun l r m hr hm => Link.sendDone_returned hr hm
      · exact fun x _ => .sendDone k ok
  | expire c k =>
      dsimp only [step, modLink]
      split
      · exact .refl
      · rename_i x hx
        exact .single (.conn hx rfl rfl (.expire k))
  | reqDone c k raises =>
      refine settle_chain (.inr ⟨raises, rfl⟩) (fun l => l.wake_received k raises) ?_ ?_
      · exact fun l r m hr hm => Link.wake_returned hr hm
      · exact fun x _ => .wake k raises
  | wake t =>
      dsimp only [step]
      split
      · rename_i y hy
        split
        · split
          · refine runTask_chain rfl (by simp only [actor, hy]; rfl) hy 4 hy rfl rfl rfl id .slept rfl ?_
            intro x x₀ hx hx₀
            rw [hx] at hx₀
            cases hx₀
            exact ⟨rfl, rfl⟩
          · exact .refl
        · exact .refl
      · exact .refl
  | deviceSign y => exact .single (.deviceSign rfl)

end State

end Fountainer
