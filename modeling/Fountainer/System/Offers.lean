import Fountainer.System.Lifecycle
import Fountainer.System.Routing

/-!
# The offers of the server

A connection gets at most one `ota_available`: the answer to its session proof.
-/

namespace Fountainer

variable {cfg : Config} {s : State} {e : Step} {c : Nat} {x : Conn}

/-! ## Without a firmware folder -/

/-- The server with an empty firmware folder. -/
def Config.silent (cfg : Config) : Config := { cfg with newerThan := fun _ _ => .ok none }

@[simp] theorem Config.silent_limits (cfg : Config) : cfg.silent.limits = cfg.limits := rfl

@[simp] theorem Config.silent_registry (cfg : Config) : cfg.silent.registry = cfg.registry := rfl

@[simp] theorem Config.silent_authScope (cfg : Config) : cfg.silent.authScope = cfg.authScope := rfl

theorem runHook_silent {h : Hook} (hh : h ≠ .onOtaCheck) : runHook cfg.silent h = runHook cfg h := by
  cases h with
  | onOtaCheck => exact absurd rfl hh
  | _ => rfl

namespace State

/-- The step answers a session proof. -/
def checks (s : State) : Step → Bool
  | .recv c (.json (.obj d)) => match s.conns c with
      | some x => x.pc = .proof ∧ (x.link.session.verifyC2s d).2 = .ok true ∧
          Dict.get d (py "type") = .str (py "ota_check")
      | none => false
  | _ => false

@[simp] theorem runTask_silent (s : State) (t : Nat) (y : Task) (res : Except PyErr Dict) (fuel : Nat) :
    s.runTask cfg.silent t y res fuel = s.runTask cfg t y res fuel := by
  induction fuel generalizing s y res with
  | zero => rfl
  | succ fuel ih => simp only [runTask, ih, Config.silent_limits]

@[simp] theorem settle_silent (s : State) (c k : Nat) : s.settle cfg.silent c k = s.settle cfg c k := by
  simp only [settle, runTask_silent]

theorem callback_silent (s : State) (c : Nat) (key : Str) {h : Hook} (hh : h ≠ .onOtaCheck) (cause : Cause)
    (msg : Dict) : s.callback cfg.silent c key h cause msg = s.callback cfg c key h cause msg := by
  simp only [callback, runHook_silent hh]

theorem dispatchOn_silent {msg : Json} (hx : s.conns c = some x)
    (hkey : ∀ d, msg = .obj d → x.link.session.lookupKey d ≠ some (py "__ota_check__")) :
    s.dispatchOn cfg.silent c msg = s.dispatchOn cfg c msg := by
  have hcases : DeviceSession.DispatchCase x.link.session s.now (fun k => (callbackFor k).isSome) msg
      (x.link.dispatch s.now (fun k => (callbackFor k).isSome) msg).1.session
      (x.link.dispatch s.now (fun k => (callbackFor k).isSome) msg).2 :=
    DeviceSession.dispatch_cases rfl
  simp only [dispatchOn, hx]
  generalize x.link.dispatch s.now (fun k => (callbackFor k).isSome) msg = out at hcases ⊢
  obtain ⟨l, r⟩ := out
  cases r with
  | error err => rfl
  | ok r =>
      cases r with
      | reply i o => rfl
      | dropped => rfl
      | callback key =>
          dsimp only at hcases ⊢
          split
          · rename_i h d hh hd
            refine callback_silent _ _ _ ?_ _ _
            rintro rfl
            generalize l.session = session at hcases
            cases hcases with
            | callback hmsg hlook hcb =>
                rw [callbackFor_key hh] at hlook
                exact hkey _ hmsg hlook
          · rfl

@[simp] theorem finish_silent (s : State) (c : Nat) : s.finish cfg.silent c = s.finish cfg c := by
  have hkey : callbackFor (py "__disconnect__") = some .onDisconnect := by decide
  have hne : Hook.onDisconnect ≠ .onOtaCheck := by decide
  simp only [finish, hkey, callback_silent _ _ _ hne]

@[simp] theorem handshakeDone_silent (s : State) (c : Nat) :
    s.handshakeDone cfg.silent c = s.handshakeDone cfg c := by
  have hkey : callbackFor (py "__connect__") = some .onConnect := by decide
  have hne : Hook.onConnect ≠ .onOtaCheck := by decide
  simp only [handshakeDone, hkey, callback_silent _ _ _ hne, finish_silent]

theorem recvProof_silent {frame : Frame} (hx : s.conns c = some x) (hpc : x.pc = .proof)
    (hplain : plainTypes s (.recv c frame) = true) (h : s.checks (.recv c frame) = false) :
    s.recvProof cfg.silent c x frame = s.recvProof cfg c x frame := by
  unfold recvProof
  split
  · rename_i d
    cases hv : x.link.session.verifyC2s d with
    | mk session r =>
        cases r with
        | error err => simp
        | ok ok =>
            cases ok with
            | false => rfl
            | true =>
                have htype : Dict.get d (py "type") ≠ .str (py "ota_check") := by
                  intro htype
                  simp [checks, hx, hpc, hv, htype] at h
                have hlook := proven_lookedUp hx hpc hv htype
                have hanswer : (s.setConn c (proven x session d)).answerProof cfg.silent c d =
                    (s.setConn c (proven x session d)).answerProof cfg c d := by
                  simp only [answerProof, if_neg htype]
                  refine dispatchOn_silent (setConn_self ..) fun d' hd' hkey => ?_
                  cases hd'
                  rw [hkey] at hlook
                  simp only [plainTypes, hlook, decide_eq_true_eq] at hplain
                  exact hplain (by decide)
                unfold proven at hanswer
                simp only [hanswer, handshakeDone_silent, finish_silent]
  · simp

theorem recvMessage_silent {frame : Frame} {fired : Bool} (hx : s.conns c = some x)
    (hpc : x.pc = .live .idle fired) (hplain : plainTypes s (.recv c frame) = true) :
    s.recvMessage cfg.silent c fired frame = s.recvMessage cfg c fired frame := by
  unfold recvMessage
  split
  · rfl
  · rfl
  · rename_i j
    have hdispatch : s.dispatchOn cfg.silent c j = s.dispatchOn cfg c j := by
      refine dispatchOn_silent hx fun d hd hkey => ?_
      subst hd
      simp only [plainTypes, lookedUp, hx, hpc, hkey, decide_eq_true_eq] at hplain
      exact hplain (by decide)
    rw [hdispatch]

/-- Only the answer to a session proof depends on the firmware folder. -/
theorem step_silent (hplain : plainTypes s e = true) (h : s.checks e = false) :
    s.step cfg.silent e = s.step cfg e := by
  cases e with
  | recv c frame =>
      simp only [step, recv]
      split
      · rfl
      · rename_i x hx
        split
        · simp only [recvHello, finish_silent]
        · rename_i hpc
          exact recvProof_silent hx hpc hplain h
        · rename_i hpc
          exact recvMessage_silent hx hpc hplain
        · rfl
  | lost c => simp only [step, lost, finish_silent]
  | resume c ok => simp only [step, resume, finish_silent, handshakeDone_silent]
  | finish c => simp only [step, finish_silent]
  | sendDone c k ok => simp only [step, settle_silent]
  | reqDone c k raises => simp only [step, settle_silent]
  | wake t => simp only [step, runTask_silent]
  | accept d rand => rfl
  | check c lag => rfl
  | _ => rfl

end State

/-! ## The offer of a connection -/

def isOffer (frame : Dict) : Bool := decide (frame.get (py "type") = .str (py "ota_available"))

def Conn.offers (x : Conn) : List Dict := x.link.sent.filter isOffer

/-- The connection has got no offer, or one: the answer to its session proof. -/
inductive Conn.Offers (cfg : Config) (x : Conn) : Prop
  | none (h : x.offers = [])
  | one {now : Clock} {msg frame : Dict} {im : FirmwareImage} (hproof : x.proof = some msg)
      (him : cfg.newerThan now (Dict.getOr msg (py "current_version") (.str [])) = .ok (some im))
      (hbody : bodyFields frame = im.otaAvailableBody (cfg.firmwareUrl im.filename) cfg.mandatoryOta)
      (h : x.offers = [frame])

theorem Carried.isOffer {frame : Dict} {call : Call} (h : Carried frame call) :
    isOffer frame = decide (call.name = py "ota_available") := by
  simp [Fountainer.isOffer, h.1]

/-- A call that is no offer. -/
theorem Link.start_offers {l : Link} {now : Clock} {call : Call} (hcall : call.Fields)
    (hname : call.name ≠ py "ota_available") :
    (l.start now call).1.sent.filter isOffer = l.sent.filter isOffer := by
  rcases start_sent l now call with hsent | ⟨frame, hsent⟩
  · rw [hsent]
  · have hcarried := (start_carried hcall hsent).isOffer
    simp [hsent, hcarried, hname]

/-- Without a folder, only a control call could be an offer. -/
theorem Spoken.silent_name {ok : Step → Prop} {d : Str} {now : Clock} {call : Call}
    (h : Spoken cfg.silent ok d now call) (hok : ∀ d call, ok (.api d call) → call.name ≠ py "ota_available") :
    call.name ≠ py "ota_available" := by
  cases h with
  | api h => exact hok _ _ h
  | otaAvailable hheld him => cases him
  | dpRead | config => exact show py "dp_read" ≠ _ by decide
  | logRead => exact show py "log_read" ≠ _ by decide
  | logReadPrev => exact show py "log_read_prev" ≠ _ by decide
  | logAckPrev => exact show py "log_ack_prev" ≠ _ by decide
  | historyRead => exact show py "history_read" ≠ _ by decide
  | otaNone => exact show py "ota_none" ≠ _ by decide

/-- The control calls of a run are no offers. -/
def NoOffers (ok : Step → Prop) : Prop :=
  ∀ d call, ok (.api d call) → call.Fields ∧ call.name ≠ py "ota_available"

namespace State

/-- A step without an answer to a session proof sends no offer. -/
theorem offers_silent (hdevice : ∀ c x, s.conns c = some x → x.link.session.deviceId = x.deviceId)
    (hnew : s.Newest) (hcalls : NoOffers (· = e)) (hplain : plainTypes s e = true) (h : s.checks e = false)
    {x' : Conn} (hx' : (s.step cfg e).conns c = some x') :
    x'.offers = [] ∨ ∃ x, s.conns c = some x ∧ x'.offers = x.offers := by
  have hkept : FramesKept cfg.silent (· = e) s.now fun c _ sent =>
      sent.filter isOffer = [] ∨ ∃ x, s.conns c = some x ∧ sent.filter isOffer = x.offers := by
    constructor
    · exact fun _ _ => .inl rfl
    · intro c d sent ack hsent hack
      have hno : isOffer ack = false := by simp [isOffer, hack]; decide
      simpa [hno] using hsent
    · intro c d l call frame hsent hc hcall
      have hoffers : (l.start s.now call).1.sent.filter isOffer = l.sent.filter isOffer :=
        Link.start_offers (hc.fields fun d call h => (hcalls d call h).1)
          (hc.silent_name fun d call h => (hcalls d call h).2)
      rw [hcall] at hoffers
      rwa [hoffers]
  have hheard : (s.step cfg.silent e).Heard _ :=
    step_heard hkept ⟨rfl, fun c x hx => ⟨hdevice c x hx, .inr ⟨x, hx, rfl⟩⟩⟩ hnew rfl
  rw [step_silent hplain h] at hheard
  exact (hheard c x' hx').frames

/-- A session proof stays. -/
theorem proof_step {msg : Dict} (hs : Stages s) (hx : s.conns c = some x) (hproof : x.proof = some msg) :
    ∃ x', (s.step cfg e).conns c = some x' ∧ x'.proof = some msg := by
  refine (Run.star_invariant (P := fun s => Stages s ∧ ∃ x, s.conns c = some x ∧ x.proof = some msg) ?_
    (step_chain cfg s e) ⟨hs, x, hx, hproof⟩).2
  rintro a b hm ⟨ha, h⟩
  exact ⟨stages_micro hm ha, hm.keeps ha.numbered (fun _ _ h => h)
    (fun x _ hx hstep h => (ha.staged c x hx).proof_eq hstep h) (fun _ h => h) (fun _ h => h) h⟩

/-- The connection `x` after the answer to its session proof `d`. -/
structure Answered (cfg : Config) (now : Clock) (x : Conn) (d : Dict) (x' : Conn) : Prop where
  proof : x'.proof = some d
  sent : x'.link.sent = x.link.sent ∨ ∃ (l : Link) (st : Shadow) (session : DeviceSession) (call : Call),
    l.sent = x.link.sent ∧ (onOtaCheck cfg st session now d).reply = some call ∧
      x'.link.sent = (l.start now call).1.sent

theorem finish_answered {now : Clock} {d : Dict} {c' : Nat} {x' : Conn}
    (hx' : (s.finish cfg c).conns c' = some x') (h : ∀ x₁, s.conns c' = some x₁ → c' = c → Answered cfg now x d x₁) :
    (c' ≠ c ∧ s.conns c' = some x') ∨ (c' = c ∧ Answered cfg now x d x') := by
  cases hx : s.conns c with
  | none =>
      simp only [finish, hx] at hx'
      refine .inl ⟨?_, hx'⟩
      rintro rfl
      simp [hx] at hx'
  | some x₁ =>
      rw [finish_conns _ _ hx] at hx'
      rcases setConn_cases _ _ _ hx' with ⟨rfl, rfl⟩ | ⟨hc, hx'⟩
      · exact .inr ⟨rfl, (h x₁ hx rfl).proof, (h x₁ hx rfl).sent⟩
      · exact .inl ⟨hc, hx'⟩

theorem callback_answered {d : Dict} (hx : s.conns c = some x) (hproof : x.proof = some d) {c' : Nat} {x' : Conn}
    (hx' : (s.callback cfg c (py "__ota_check__") .onOtaCheck .lifecycle d).1.conns c' = some x') :
    (c' ≠ c ∧ s.conns c' = some x') ∨ (c' = c ∧ Answered cfg s.now x d x') := by
  have hold : s.conns c' = some x' → (c' ≠ c ∧ s.conns c' = some x') ∨ (c' = c ∧ Answered cfg s.now x d x') := by
    intro h
    by_cases hc : c' = c
    · rw [hc, hx] at h
      cases h
      exact .inr ⟨hc, hproof, .inl rfl⟩
    · exact .inl ⟨hc, h⟩
  have hcalled : (s.called c x.deviceId (py "__ota_check__") .onOtaCheck .lifecycle d
      (onOtaCheck cfg (s.deviceState x.deviceId) x.link.session s.now d).shadow).conns c = some x := by
    rw [called_conns]
    exact hx
  simp only [callback, hx, runHook] at hx'
  split at hx'
  · rw [called_conns] at hx'
    exact hold hx'
  · rw [called_conns] at hx'
    exact hold hx'
  · rename_i call herr hreply
    rw [startOn_eq hcalled] at hx'
    have hset : ((s.called c x.deviceId (py "__ota_check__") .onOtaCheck .lifecycle d
        (onOtaCheck cfg (s.deviceState x.deviceId) x.link.session s.now d).shadow).setConn c
          { x with link := (x.link.start s.now call).1 }).conns c' = some x' := by
      rw [called_now] at hx'
      generalize (x.link.start s.now call).2 = r at hx'
      cases r <;> exact hx'
    rcases setConn_cases _ _ _ hset with ⟨rfl, rfl⟩ | ⟨hc, hset⟩
    · exact .inr ⟨rfl, hproof, .inr ⟨x.link, _, _, call, rfl, hreply, rfl⟩⟩
    · rw [called_conns] at hset
      exact .inl ⟨hc, hset⟩

/-- The answer to a session proof reaches the connection that has sent it. -/
theorem checks_answered (h : s.checks e = true) : ∃ c d x, s.conns c = some x ∧ x.pc = .proof ∧
    ∀ c' x', (s.step cfg e).conns c' = some x' →
      (c' ≠ c ∧ s.conns c' = some x') ∨ (c' = c ∧ Answered cfg s.now x d x') := by
  unfold checks at h
  split at h
  · rename_i c d
    split at h
    · rename_i x hx
      obtain ⟨hpc, hv, htype⟩ := of_decide_eq_true h
      refine ⟨c, d, x, hx, hpc, fun c' x' hx' => ?_⟩
      have hkey : callbackFor (py "__ota_check__") = some .onOtaCheck := by decide
      obtain ⟨session, hv⟩ : ∃ session, x.link.session.verifyC2s d = (session, .ok true) := ⟨_, Prod.ext rfl hv⟩
      have hself : (s.setConn c (proven x session d)).conns c = some (proven x session d) := setConn_self ..
      have hanswered : ∀ {c' : Nat} {x' : Conn}, ((s.setConn c (proven x session d)).callback cfg c
          (py "__ota_check__") .onOtaCheck .lifecycle d).1.conns c' = some x' →
          (c' ≠ c ∧ s.conns c' = some x') ∨ (c' = c ∧ Answered cfg s.now x d x') := by
        intro c' x' hx'
        rcases callback_answered hself rfl hx' with ⟨hc, hx'⟩ | ⟨hc, hproof, hsent⟩
        · exact .inl ⟨hc, by rwa [setConn_ne _ _ _ hc] at hx'⟩
        · exact .inr ⟨hc, hproof, hsent⟩
      have hnot := callback_otaCheck cfg (s.setConn c (proven x session d)) c (py "__ota_check__") .lifecycle d
      simp only [step, recv, hx, hpc, recvProof, hv, answerProof, htype, if_true, hkey] at hx'
      unfold proven at hnot hanswered
      generalize callback cfg _ c (py "__ota_check__") .onOtaCheck .lifecycle d = out at hnot hanswered hx'
      obtain ⟨s', r⟩ := out
      cases r with
      | done => exact absurd rfl hnot
      | suspended => exact hanswered hx'
      | raised =>
          have hended := finish_answered hx' fun x₁ hx₁ hc =>
            (hanswered hx₁).elim (fun h => absurd hc h.1) And.right
          rcases hended with ⟨hc, hx'⟩ | hended
          · exact (hanswered hx').elim .inl fun h => absurd h.1 hc
          · exact .inr hended
    · cases h
  · cases h

end State

theorem Conn.Offers.answered {now : Clock} {d : Dict} {x' : Conn} (hx : x.offers = [])
    (h : State.Answered cfg now x d x') : x'.Offers cfg := by
  rcases h.sent with hsent | ⟨l, st, session, call, hl, hreply, hsent⟩
  · exact .none (by rw [Conn.offers, hsent]; exact hx)
  · have hold : l.sent.filter isOffer = [] := by rw [hl]; exact hx
    have hanswer : (call.Fields ∧ call.name ≠ py "ota_available") ∨ ∃ im irt,
        cfg.newerThan now (Dict.getOr d (py "current_version") (.str [])) = .ok (some im) ∧
        call = .send (py "ota_available") (im.otaAvailableBody (cfg.firmwareUrl im.filename) cfg.mandatoryOta) irt := by
      have hnone : ∀ irt, Call.Fields (.send (py "ota_none") [] irt) ∧
          Call.name (.send (py "ota_none") [] irt) ≠ py "ota_available" :=
        fun irt => ⟨.of_keys [] rfl rfl, show py "ota_none" ≠ _ by decide⟩
      simp only [onOtaCheck] at hreply
      split at hreply
      · cases hreply
        exact .inl (hnone _)
      · split at hreply
        · cases hreply
        · cases hreply
          exact .inl (hnone _)
        · rename_i him
          cases hreply
          exact .inr ⟨_, _, him, rfl⟩
    rcases hanswer with ⟨hfields, hname⟩ | ⟨im, irt, him, rfl⟩
    · refine .none ?_
      rw [Conn.offers, hsent, Link.start_offers hfields hname, hold]
    · rcases Link.start_sent l now (.send (py "ota_available")
        (im.otaAvailableBody (cfg.firmwareUrl im.filename) cfg.mandatoryOta) irt) with hstart | ⟨frame, hstart⟩
      · refine .none ?_
        rw [Conn.offers, hsent, hstart, hold]
      · have hfields : Call.Fields (.send (py "ota_available")
            (im.otaAvailableBody (cfg.firmwareUrl im.filename) cfg.mandatoryOta) irt) :=
          .of_keys [py "target_version", py "url", py "size", py "crc32", py "sha256", py "mandatory"] rfl rfl
        have hcarried := Link.start_carried hfields hstart
        refine .one h.proof him hcarried.2 ?_
        have hoffer : isOffer frame = true := hcarried.isOffer
        rw [Conn.offers, hsent, hstart, List.filter_append, hold, List.nil_append, List.filter_singleton, hoffer]
        rfl

/-- When no control call is an offer and no frame has the type of a lifecycle hook, every connection gets at
most one offer, chosen by the version in its session proof. -/
theorem offers_after {t : Nat} {es : List Step} (hcalls : NoOffers (· ∈ es)) (hplain : State.Along cfg plainTypes t es) :
    (State.after cfg t es).Each (Conn.Offers cfg) := by
  induction es using List.reverseRecOn with
  | nil => exact fun c x hx => (by cases hx)
  | append_singleton es e ih =>
      have hbefore := ih (fun d call h => hcalls d call (List.mem_append_left _ h)) (Run.along_append.mp hplain).1
      have hlast : plainTypes (State.after cfg t es) e = true := (Run.along_append.mp hplain).2.1
      have hstages : Stages (State.after cfg t es) := by
        refine invariant_of_micro (stages_init t) (fun s₀ e s s' _ _ hm h => stages_micro hm h) (Run.along_append.mp hplain).1
      have hdevice : ∀ c x, (State.after cfg t es).conns c = some x → x.link.session.deviceId = x.deviceId :=
        fun c x hx => State.device_after cfg t es hx
      rw [State.after_snoc]
      intro c x' hx'
      cases hchecks : (State.after cfg t es).checks e with
      | false =>
          have hnew := newest_after cfg t es
          rcases State.offers_silent hdevice hnew (fun d call h => hcalls d call (by simp [h])) hlast hchecks hx' with
            hnone | ⟨x, hx, hsame⟩
          · exact .none hnone
          · cases hbefore c x hx with
            | none h => exact .none (hsame.trans h)
            | one hproof him hbody h =>
                obtain ⟨x₁, hx₁, hproof₁⟩ := State.proof_step (e := e) hstages hx hproof
                cases hx'.symm.trans hx₁
                exact .one hproof₁ him hbody (hsame.trans h)
      | true =>
          obtain ⟨c₀, d, x, hx, hpc, hconns⟩ := State.checks_answered hchecks
          rcases hconns c x' hx' with ⟨-, hx'⟩ | ⟨-, hanswer⟩
          · exact hbefore c x' hx'
          · refine .answered ?_ hanswer
            cases hbefore c₀ x hx with
            | none h => exact h
            | one hproof =>
                rw [((hstages.staged c₀ x hx).early (hpc ▸ .proof)).1] at hproof
                cases hproof

end Fountainer
