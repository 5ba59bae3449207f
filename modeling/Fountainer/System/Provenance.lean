import Fountainer.System.Newest

/-!
# Where the frames of a connection come from

Every frame is an acknowledgement of the hello or belongs to a call: a control call of the run, or one
of the calls that the application makes itself.
-/

namespace Fountainer

variable {cfg : Config} {ok : Step → Prop} {s : State} {e : Step} {c : Nat} {x : Conn}

/-- The calls on a connection of device `d` at the time `now`, with the control calls that satisfy `ok`. -/
inductive Spoken (cfg : Config) (ok : Step → Prop) (d : Str) (now : Clock) : Call → Prop
  | api {call : Call} (h : ok (.api d call)) : Spoken cfg ok d now call
  | dpRead {names : Json} (h : ok (.dpRead d names)) : Spoken cfg ok d now (dpReadCall names)
  | config : Spoken cfg ok d now (dpReadCall configNames)
  | logRead (sinceSeq : Int) : Spoken cfg ok d now (logReadCall sinceSeq)
  | logReadPrev : Spoken cfg ok d now logReadPrevCall
  | logAckPrev (bootId : Int) : Spoken cfg ok d now (logAckPrevCall bootId)
  | historyRead (sinceSeq : Int) : Spoken cfg ok d now (historyReadCall sinceSeq)
  | otaNone (irt : Json) : Spoken cfg ok d now (.send (py "ota_none") [] irt)
  | otaAvailable {im : FirmwareImage} {current irt : Json} (hheld : cfg.otaHeld d = false)
      (h : cfg.newerThan now current = .ok (some im)) :
      Spoken cfg ok d now (.send (py "ota_available")
        (im.otaAvailableBody (cfg.firmwareUrl im.filename) cfg.mandatoryOta) irt)

/-! ## The calls of the application -/

section Tasks

variable {d : Str} {now : Clock} {call : Call}

theorem LogPoll.head_spoken {p : LogPoll} {st : Shadow} {lines : List LogLine}
    (h : (p.head st lines).next = .call call) : Spoken cfg ok d now call := by
  unfold LogPoll.head at h
  split at h
  · cases h
  · split at h
    · cases h
    · cases h
      exact .logRead _

theorem LogPoll.resume_spoken {p : LogPoll} {st : Shadow} {t : Clock} {res : Except PyErr Dict}
    (h : (p.resume st t res).next = .call call) : Spoken cfg ok d now call := by
  have hrecords : ∀ res, (p.onRecords st t res).next = .call call → Spoken cfg ok d now call := by
    intro res h
    unfold LogPoll.onRecords at h
    dsimp only at h
    split at h
    · cases h
    · split at h
      · cases h
      · split at h
        · cases h
        · split at h
          · exact LogPoll.head_spoken h
          · cases h
      · cases h
  unfold LogPoll.resume at h
  split at h
  · exact LogPoll.head_spoken h
  · exact LogPoll.head_spoken h
  · cases h
  · unfold LogPoll.onBatch at h
    split at h
    · cases h
    · split at h
      · cases h
        exact .logReadPrev
      · exact hrecords _ h
  · exact LogPoll.head_spoken h
  · unfold LogPoll.onPrev at h
    split at h
    · exact LogPoll.head_spoken h
    · split at h
      · exact LogPoll.head_spoken h
      · split at h
        · exact LogPoll.head_spoken h
        · cases h
          exact .logAckPrev _
  · exact LogPoll.head_spoken h

theorem HistoryStage.resume_spoken {p : HistoryStage} {lim : Limits} {st : Shadow} {t : Clock}
    {res : Except PyErr Dict} (h : (p.resume lim st t res).next = .call call) :
    Spoken cfg ok d now call := by
  have hhead : (historyHead st).next = .call call → Spoken cfg ok d now call := by
    intro h
    unfold historyHead at h
    split at h
    · cases h
    · split at h
      · cases h
      · cases h
        exact .historyRead _
  unfold HistoryStage.resume at h
  split at h
  · exact hhead h
  · exact hhead h
  · cases h
  · split at h <;> cases h

theorem TaskBody.resume_spoken {b : TaskBody} {lim : Limits} {st : Shadow} {t : Clock}
    {res : Except PyErr Dict} (h : (b.resume lim st t res).next = .call call) :
    Spoken cfg ok d now call := by
  cases b with
  | dpRead => cases res <;> cases h
  | fetchConfig asked =>
      cases asked with
      | false =>
          cases h
          exact .config
      | true => cases res <;> cases h
  | pollLogs p => exact LogPoll.resume_spoken h
  | pollHistory p => exact HistoryStage.resume_spoken h

theorem runHook_spoken {h : Hook} {st : Shadow} {session : DeviceSession} {msg : Dict}
    (hr : (runHook cfg h st session now msg).reply = some call) :
    Spoken cfg ok session.deviceId now call := by
  obtain ⟨rfl, -⟩ := runHook_reply hr
  simp only [runHook, onOtaCheck] at hr
  split at hr
  · cases hr
    exact .otaNone _
  · rename_i hheld
    split at hr
    · cases hr
    · cases hr
      exact .otaNone _
    · rename_i im him
      cases hr
      exact .otaAvailable (by simpa using hheld) him

end Tasks

/-- In every run, the session of a device is its newest connection. -/
theorem newest_after (cfg : Config) (t : Nat) (es : List Step) : (State.after cfg t es).Newest := by
  have hinit : (State.init t).Numbered ∧ (State.init t).Newest :=
    ⟨State.numbered_init t, fun _ _ h => (by cases h)⟩
  have hmicro : ∀ s₀ e s s', (s₀ : State).Numbered ∧ s₀.Newest → Micro cfg s₀ e s s' →
      s.Numbered ∧ s.Newest → s'.Numbered ∧ s'.Newest :=
    fun s₀ e s s' _ hm h => ⟨hm.numbered h.1, hm.newest h.1 h.2⟩
  exact (always_of_micro hinit hmicro).2

/-- What the updates of one connection keep is kept on connection `c`. -/
theorem Micro.keeps {s₀ s' : State} {P : Conn → Prop} (hm : Micro cfg s₀ e s s') (hs : s.Numbered)
    (hclose : ∀ x b, P x → P { x with closeRequested := b })
    (hstep : ∀ x x', s.conns c = some x → ConnStep s₀ e s c x x' → P x → P x')
    (hshake : ∀ x, P x → P (x.shake s.now)) (hend : ∀ x, P x → P { x with pc := .ended })
    (h : ∃ x, s.conns c = some x ∧ P x) : ∃ x', s'.conns c = some x' ∧ P x' := by
  obtain ⟨x, hx, hP⟩ := h
  have hupdate := hm.update c
  generalize s'.conns c = o at hupdate
  cases hupdate with
  | same hx₀ => exact ⟨x, hx₀.symm.trans hx, hP⟩
  | new he hc => exact absurd (hc ▸ hs c x hx) (Nat.lt_irrefl _)
  | replaced hx₀ =>
      cases hx.symm.trans hx₀
      exact ⟨_, rfl, hclose x _ hP⟩
  | step hx₀ h =>
      cases hx.symm.trans hx₀
      exact ⟨_, rfl, hstep x _ hx h hP⟩
  | shaken hx₀ =>
      cases hx.symm.trans hx₀
      exact ⟨_, rfl, hshake x hP⟩
  | ended hx₀ =>
      cases hx.symm.trans hx₀
      exact ⟨_, rfl, hend x hP⟩

/-- What every update of a numbered state keeps is kept by a run. -/
theorem State.Numbered.run {P : State → Prop}
    (hmicro : ∀ s₀ e s s', Micro cfg s₀ e s s' → s.Numbered → P s → P s') {s : State} (hs : s.Numbered) (h : P s)
    (es : List Step) : (Run.run (State.step cfg) s es).Numbered ∧ P (Run.run (State.step cfg) s es) := by
  have hall : Run.Along (State.step cfg) (fun _ _ => True) s es :=
    Run.along_of_forall (fun _ _ => trivial) s es
  refine Run.invariant (P := fun s => s.Numbered ∧ P s) ?_ hall ⟨hs, h⟩
  intro s e hP _
  refine Run.star_invariant (P := fun s => s.Numbered ∧ P s) ?_ (State.step_chain cfg s e) hP
  exact fun a b hm ha => ⟨hm.numbered ha.1, hmicro s e a b hm ha.1 ha.2⟩

/-! ## The frames of the connections -/

/-- A property of the frames of a connection, by its number and device, that every frame of the time `now`
keeps. -/
structure FramesKept (cfg : Config) (ok : Step → Prop) (now : Clock) (Q : Nat → Str → List Dict → Prop) :
    Prop where
  nil (c : Nat) (d : Str) : Q c d []
  helloAck {c : Nat} {d : Str} {sent : List Dict} {ack : Dict} (h : Q c d sent)
    (hack : ack.get (py "type") = .str (py "hello_ack")) : Q c d (sent ++ [ack])
  call {c : Nat} {d : Str} {l : Link} {call : Call} {frame : Dict} (h : Q c d l.sent)
    (hc : Spoken cfg ok d now call) (hsent : (l.start now call).1.sent = l.sent ++ [frame]) :
    Q c d (l.sent ++ [frame])

/-- A connection is a session of its device, and its frames have the property. -/
structure Conn.Heard (Q : Nat → Str → List Dict → Prop) (c : Nat) (x : Conn) : Prop where
  device : x.link.session.deviceId = x.deviceId
  frames : Q c x.deviceId x.link.sent

def State.Heard (Q : Nat → Str → List Dict → Prop) (s : State) : Prop :=
  ∀ c x, s.conns c = some x → x.Heard Q c

/-- The same, while the clock reads `now`. -/
def State.HeardAt (now : Clock) (Q : Nat → Str → List Dict → Prop) (s : State) : Prop :=
  s.now = now ∧ s.Heard Q

section Heard

variable {now : Clock} {Q : Nat → Str → List Dict → Prop} (hQ : FramesKept cfg ok now Q)
include hQ

theorem Conn.Heard.start (h : x.Heard Q c) {call : Call}
    (hc : Spoken cfg ok x.deviceId now call) :
    Conn.Heard Q c { x with link := (x.link.start now call).1 } := by
  obtain ⟨seq, id, p, -, hs⟩ := Link.start_session x.link now call
  refine ⟨?_, ?_⟩
  · dsimp only
    rw [hs]
    exact h.device
  · dsimp only
    rcases Link.start_sent x.link now call with hsent | ⟨frame, hsent⟩
    · exact hsent ▸ h.frames
    · exact hsent ▸ hQ.call h.frames hc hsent

namespace State

omit hQ in
theorem HeardAt.setConn (h : s.HeardAt now Q) (hx : x.Heard Q c) : (s.setConn c x).HeardAt now Q := by
  refine ⟨h.1, fun c' x' hx' => ?_⟩
  rcases setConn_cases _ _ _ hx' with ⟨rfl, rfl⟩ | ⟨-, hx'⟩
  · exact hx
  · exact h.2 c' x' hx'

theorem startOn_heard (h : s.HeardAt now Q) {call : Call}
    (hc : ∀ x, s.conns c = some x → Spoken cfg ok x.deviceId s.now call) :
    (s.startOn c call).1.HeardAt now Q := by
  cases hx : s.conns c with
  | none => simpa only [startOn, hx] using h
  | some x =>
      rw [startOn_eq hx]
      exact h.setConn (h.1 ▸ (h.2 c x hx).start hQ (h.1 ▸ hc x hx))

theorem runTask_heard (h : s.HeardAt now Q) (t : Nat) (y : Task) (res : Except PyErr Dict)
    (fuel : Nat) : (s.runTask cfg t y res fuel).HeardAt now Q := by
  induction fuel generalizing s y res with
  | zero => exact h
  | succ fuel ih =>
      cases hx : s.conns y.conn with
      | none => simpa only [runTask, hx] using h
      | some x =>
          generalize ho : y.body.resume cfg.limits (s.deviceState x.deviceId) s.now res = o
          rw [runTask_succ hx ho]
          cases hn : o.next with
          | finish => exact h
          | sleep ns => exact h
          | call call =>
              have hspoken : ∀ d, Spoken cfg ok d (s.store x.deviceId o).now call :=
                fun d => TaskBody.resume_spoken (ho ▸ hn)
              have hstart : ((s.store x.deviceId o).startOn y.conn call).1.HeardAt now Q :=
                startOn_heard hQ (s := s.store x.deviceId o) h fun x' _ => hspoken x'.deviceId
              dsimp only
              generalize (s.store x.deviceId o).startOn y.conn call = out at hstart
              obtain ⟨s', r⟩ := out
              cases r with
              | ok k => cases k <;> exact hstart
              | error err => exact ih hstart _ _

omit hQ in
theorem modLink_heard (h : s.HeardAt now Q) {f : Link → Link}
    (hf : ∀ l, Link.Still l (f l)) : (s.modLink c f).HeardAt now Q := by
  unfold modLink
  split
  · exact h
  · rename_i x hx
    obtain ⟨p, ms, hs⟩ := (hf x.link).session
    refine h.setConn ⟨?_, ?_⟩
    · dsimp only
      rw [hs]
      exact (h.2 c x hx).device
    · dsimp only
      rw [(hf x.link).sent]
      exact (h.2 c x hx).frames

theorem settle_heard (h : s.HeardAt now Q) (c k : Nat) :
    (s.settle cfg c k).HeardAt now Q := by
  unfold settle
  split
  · split
    · split
      · exact runTask_heard hQ h _ _ _ _
      · exact runTask_heard hQ h _ _ _ _
      · exact h
    · exact h
  · exact h

/-! ### Callbacks -/

omit hQ in
theorem called_heard (h : s.HeardAt now Q) (c : Nat) (d key : Str) (hk : Hook) (cause : Cause)
    (msg : Dict) (st : Shadow) : (s.called c d key hk cause msg st).HeardAt now Q := by
  refine ⟨(called_now ..).trans h.1, fun c' x' hx' => ?_⟩
  rw [called_conns] at hx'
  exact h.2 c' x' hx'

theorem callback_heard (h : s.HeardAt now Q) (key : Str) (hk : Hook) (cause : Cause)
    (msg : Dict) : (s.callback cfg c key hk cause msg).1.HeardAt now Q := by
  unfold callback
  split
  · exact h
  · rename_i x hx
    have hcalled := called_heard h c x.deviceId key hk cause msg
      (runHook cfg hk (s.deviceState x.deviceId) x.link.session s.now msg).shadow
    dsimp only
    split
    · exact hcalled
    · exact hcalled
    · rename_i call herr hreply
      have hspoken : Spoken cfg ok x.link.session.deviceId s.now call := runHook_spoken hreply
      rw [(h.2 c x hx).device] at hspoken
      have hstart : ((s.called c x.deviceId key hk cause msg
          (runHook cfg hk (s.deviceState x.deviceId) x.link.session s.now msg).shadow).startOn c call).1.HeardAt now Q := by
        refine startOn_heard hQ hcalled fun x' hx' => ?_
        rw [called_conns, hx] at hx'
        cases hx'
        rw [called_now]
        exact hspoken
      generalize (s.called c x.deviceId key hk cause msg
        (runHook cfg hk (s.deviceState x.deviceId) x.link.session s.now msg).shadow).startOn c call = out
        at hstart
      obtain ⟨s', r⟩ := out
      cases r <;> exact hstart

theorem dispatchOn_heard (h : s.HeardAt now Q) (c : Nat) (msg : Json) :
    (s.dispatchOn cfg c msg).1.HeardAt now Q := by
  unfold dispatchOn
  split
  · exact h
  · rename_i x hx
    have hstill := Link.dispatch_still x.link s.now (fun k => (callbackFor k).isSome) msg
    obtain ⟨p, ms, hs⟩ := hstill.session
    have hset : (s.setConn c { x with
        link := (x.link.dispatch s.now (fun k => (callbackFor k).isSome) msg).1 }).HeardAt now Q := by
      refine h.setConn ⟨?_, ?_⟩
      · dsimp only
        rw [hs]
        exact (h.2 c x hx).device
      · dsimp only
        rw [hstill.sent]
        exact (h.2 c x hx).frames
    dsimp only
    split
    · exact hset
    · split
      · exact callback_heard hQ hset _ _ _ _
      · exact hset
    · exact hset

/-! ### The handler -/

omit hQ in
theorem finish_heard (h : s.HeardAt now Q) (c : Nat) :
    (s.finish cfg c).HeardAt now Q := by
  cases hx : s.conns c with
  | none => simpa only [finish, hx] using h
  | some x =>
      refine ⟨(finish_now s cfg c).trans h.1, fun c' x' hx' => ?_⟩
      rw [finish_conns _ _ hx] at hx'
      exact (h.setConn (x := { x with pc := .ended }) ⟨(h.2 c x hx).device, (h.2 c x hx).frames⟩).2 c' x' hx'

omit hQ in
theorem setPc_heard (h : s.HeardAt now Q) (c : Nat) (pc : Pc) :
    (s.setPc c pc).HeardAt now Q := by
  unfold setPc
  split
  · rename_i x hx
    exact h.setConn ⟨(h.2 c x hx).device, (h.2 c x hx).frames⟩
  · exact h

theorem handshakeDone_heard (h : s.HeardAt now Q) (c : Nat) :
    (s.handshakeDone cfg c).HeardAt now Q := by
  have hkey : callbackFor (py "__connect__") = some .onConnect := by decide
  unfold handshakeDone
  split
  · exact h
  · rename_i x hx
    simp only [hkey]
    have hset : (s.setConn c { x with
        link := { x.link with session := { x.link.session with lastRxMs := s.now.ms } }
        pc := .live .idle false, shaken := true }).HeardAt now Q :=
      h.setConn ⟨(h.2 c x hx).device, (h.2 c x hx).frames⟩
    have hcall := callback_heard hQ (c := c) hset (py "__connect__") .onConnect .lifecycle []
    split
    · rename_i s' hs'
      rw [hs'] at hcall
      exact finish_heard hcall c
    · rename_i s' r _ hs'
      rw [hs'] at hcall
      exact hcall

theorem recvHello_heard (h : s.HeardAt now Q) (hx : s.conns c = some x) (frame : Frame) :
    (s.recvHello cfg c x frame).HeardAt now Q := by
  unfold recvHello
  split
  · rename_i d
    have hheard := h.2 c x hx
    obtain ⟨cn, kid, key, hs, -⟩ := DeviceSession.hello_session x.link.session s.now d
    have hdevice : (x.link.session.hello s.now d).1.deviceId = x.deviceId := by
      rw [hs]
      exact hheard.device
    have hack : ∀ session ack, x.link.session.hello s.now d = (session, .ok (.accepted ack)) ∨
        x.link.session.hello s.now d = (session, .ok (.rejected ack)) → ∀ pc code,
          Conn.Heard Q c { x with
            link := Link.push { x.link with session } ack, pc, closeCode := code } := by
      intro session ack hello pc code
      have hsession : (x.link.session.hello s.now d).1 = session := by
        rcases hello with hello | hello <;> rw [hello]
      exact ⟨hsession ▸ hdevice, hQ.helloAck hheard.frames (DeviceSession.hello_ack hello)⟩
    generalize x.link.session.hello s.now d = out at hdevice hack
    obtain ⟨session, r⟩ := out
    cases r with
    | error err => exact finish_heard (h.setConn (x := { x with link := { x.link with session }, pc := .closing })
          ⟨hdevice, hheard.frames⟩) c
    | ok r =>
        cases r with
        | notHello => exact h.setConn ⟨hdevice, hheard.frames⟩
        | rejected ack => exact h.setConn (hack session ack (.inr rfl) _ _)
        | accepted ack => exact h.setConn (hack session ack (.inl rfl) _ _)
  · exact finish_heard h c

theorem recvProof_heard (h : s.HeardAt now Q) (hx : s.conns c = some x) (frame : Frame) :
    (s.recvProof cfg c x frame).HeardAt now Q := by
  have hkey : callbackFor (py "__ota_check__") = some .onOtaCheck := by decide
  unfold recvProof
  split
  · rename_i d
    have hheard := h.2 c x hx
    cases hv : x.link.session.verifyC2s d with
    | mk session r =>
        obtain ⟨replay, hs⟩ := DeviceSession.verifyC2s_session hv
        have hdevice : session.deviceId = x.deviceId := by
          rw [hs]
          exact hheard.device
        cases r with
        | error err => exact finish_heard h c
        | ok ok' =>
            cases ok' with
            | false => exact h.setConn ⟨hdevice, hheard.frames⟩
            | true =>
                have hset : (s.setConn c { x with
                    link := { x.link with session := { session with negotiated := true } }
                    pc := .proofReply, proof := some d }).HeardAt now Q :=
                  h.setConn ⟨hdevice, hheard.frames⟩
                have hanswer : ((s.setConn c { x with
                    link := { x.link with session := { session with negotiated := true } }
                    pc := .proofReply, proof := some d }).answerProof cfg c d).1.HeardAt now Q := by
                  unfold answerProof
                  simp only [hkey]
                  split
                  · exact callback_heard hQ hset _ _ _ _
                  · exact dispatchOn_heard hQ hset _ _
                dsimp only
                generalize (s.setConn c { x with
                    link := { x.link with session := { session with negotiated := true } }
                    pc := .proofReply, proof := some d }).answerProof cfg c d = out at hanswer
                obtain ⟨s', r⟩ := out
                cases r with
                | done => exact handshakeDone_heard hQ hanswer c
                | suspended => exact hanswer
                | raised => exact finish_heard hanswer c
  · exact finish_heard h c

theorem recvMessage_heard (h : s.HeardAt now Q) (c : Nat) (fired : Bool) (frame : Frame) :
    (s.recvMessage cfg c fired frame).HeardAt now Q := by
  unfold recvMessage
  split
  · exact h
  · exact setPc_heard h _ _
  · rename_i j
    have hdispatch := dispatchOn_heard hQ h c j
    generalize s.dispatchOn cfg c j = out at hdispatch
    obtain ⟨s', r⟩ := out
    cases r with
    | done => exact hdispatch
    | suspended => exact setPc_heard hdispatch _ _
    | raised => exact setPc_heard hdispatch _ _

/-! ### Steps -/

theorem accept_heard (h : s.Heard Q) (d : Str) (rand : Bytes) :
    (s.accept cfg d rand).Heard Q := by
  intro c x hx
  rcases accept_conns hx with ⟨device, hd, -, rfl⟩ | ⟨x₀, b, hx₀, rfl⟩
  · have hid : device.deviceId = d := by
      have hmem := mem_of_lookup hd
      exact cfg.registry.named _ hmem
    exact ⟨hid, hQ.nil ..⟩
  · exact ⟨(h c x₀ hx₀).device, (h c x₀ hx₀).frames⟩

theorem recv_heard (h : s.HeardAt now Q) (c : Nat) (frame : Frame) :
    (s.recv cfg c frame).HeardAt now Q := by
  unfold recv
  split
  · exact h
  · rename_i x hx
    split
    · exact recvHello_heard hQ h hx frame
    · exact recvProof_heard hQ h hx frame
    · exact recvMessage_heard hQ h c _ frame
    · exact h

theorem resume_heard (h : s.HeardAt now Q) (c : Nat) (b : Bool) :
    (s.resume cfg c b).HeardAt now Q := by
  unfold State.resume
  split
  · exact h
  · rename_i x hx
    split
    · split
      · exact setPc_heard h _ _
      · exact finish_heard h c
    · split
      · exact h.setConn ⟨(h.2 c x hx).device, (h.2 c x hx).frames⟩
      · exact finish_heard h c
    · split
      · exact handshakeDone_heard hQ h c
      · exact finish_heard h c
    · exact finish_heard h c
    · exact setPc_heard h _ _
    · exact h

theorem step_heard (h : s.HeardAt now Q) (hnew : s.Newest) (he : ok e) :
    (s.step cfg e).Heard Q := by
  have hdevice : ∀ d c x, s.sessions d = some c → s.conns c = some x → x.deviceId = d := by
    intro d c x hd hx
    obtain ⟨x', hx', hd', -⟩ := hnew d c hd
    rw [hx] at hx'
    cases hx'
    exact hd'
  cases e with
  | tick ns => exact h.2
  | accept d rand => exact accept_heard hQ h.2 d rand
  | recv c frame => exact (recv_heard hQ h c frame).2
  | lost c =>
      dsimp only [step]
      unfold lost
      split
      · exact h.2
      · split
        · exact (finish_heard h c).2
        · exact (finish_heard h c).2
        · exact (setPc_heard h _ _).2
        · exact h.2
  | resume c b => exact (resume_heard hQ h c b).2
  | timeout c =>
      dsimp only [step]
      unfold timeout
      split
      · exact h.2
      · rename_i x hx
        split
        · exact (h.setConn (x := { x with pc := .closing, closeCode := some 4000 })
            ⟨(h.2 c x hx).device, (h.2 c x hx).frames⟩).2
        · exact (h.setConn (x := { x with pc := .closing, closeCode := some 4000 })
            ⟨(h.2 c x hx).device, (h.2 c x hx).frames⟩).2
        · exact h.2
  | check c lag =>
      dsimp only [step]
      unfold check
      split
      · exact h.2
      · split
        · split
          · exact (setPc_heard h _ _).2
          · exact h.2
        · exact h.2
  | stop c =>
      dsimp only [step]
      unfold stop
      split
      · exact h.2
      · rename_i x hx
        split
        · split
          · exact (h.setConn (x := { x with pc := .cancelling, closeRequested := x.closeRequested || _ })
              ⟨(h.2 c x hx).device, (h.2 c x hx).frames⟩).2
          · exact h.2
        · exact h.2
  | finish c =>
      dsimp only [step]
      split
      · split
        · exact (finish_heard h c).2
        · exact h.2
      · exact h.2
  | api d call =>
      dsimp only [step]
      split
      · rename_i c hd
        exact (startOn_heard hQ h fun x hx => hdevice d c x hd hx ▸ .api (hdevice d c x hd hx ▸ he)).2
      · exact h.2
  | dpRead d names =>
      dsimp only [step]
      split
      · rename_i c hd
        have hstart : (s.startOn c (dpReadCall names)).1.HeardAt now Q :=
          startOn_heard hQ h fun x hx => .dpRead (hdevice d c x hd hx ▸ he)
        split
        · rename_i s' k hs'
          rw [hs'] at hstart
          exact hstart.2
        · rename_i s' r _ hs'
          rw [hs'] at hstart
          exact hstart.2
      · exact h.2
  | sendDone c k b => exact (settle_heard hQ (modLink_heard h fun l => Link.sendDone_still l k b) c k).2
  | expire c k => exact (modLink_heard h fun l => Link.expire_still l k).2
  | reqDone c k raises => exact (settle_heard hQ (modLink_heard h fun l => Link.wake_still l k raises) c k).2
  | wake t =>
      dsimp only [step]
      split
      · split
        · split
          · exact (runTask_heard hQ h _ _ _ _).2
          · exact h.2
        · exact h.2
      · exact h.2
  | deviceSign y => exact h.2

end State

end Heard

/-! ## The frames of a run -/

/-- A frame on a connection of device `d`, at the time `now`. -/
inductive FrameOf (cfg : Config) (ok : Step → Prop) (d : Str) (now : Clock) (frame : Dict) : Prop
  | helloAck (h : frame.get (py "type") = .str (py "hello_ack")) : FrameOf cfg ok d now frame
  | call {call : Call} {l : Link} (hc : Spoken cfg ok d now call)
      (h : (l.start now call).1.sent = l.sent ++ [frame]) : FrameOf cfg ok d now frame

theorem ConnStep.sent {s₀ : State} {x' : Conn} (hs : ConnStep s₀ e s c x x') : x.link.sent <+: x'.link.sent := by
  have hstill : ∀ l, Link.Still x.link l → x.link.sent <+: l.sent := fun l hl => by rw [hl.sent]
  cases hs with
  | helloAcked hpc hack => exact List.prefix_append ..
  | start ho =>
      rcases Link.start_sent x.link s.now ‹Call› with hsent | ⟨frame, hsent⟩
      · dsimp only
        rw [hsent]
      · dsimp only
        rw [hsent]
        exact List.prefix_append ..
  | quiet hq => exact List.prefix_rfl
  | helloFailed hpc => exact List.prefix_rfl
  | verified hpc hs he hv => exact List.prefix_rfl
  | sendDone k ok => exact hstill _ (Link.sendDone_still ..)
  | expire k => exact hstill _ (Link.expire_still ..)
  | wake k raises => exact hstill _ (Link.wake_still ..)
  | dispatch hpc he => exact hstill _ (Link.dispatch_still ..)

namespace State

/-- The frames that connection `c` has got. -/
def sentOn (s : State) (c : Nat) : List Dict := (s.conns c).elim [] fun x => x.link.sent

/-- The step sends the frame on connection `c`. -/
def Sends (cfg : Config) (s : State) (e : Step) (c : Nat) (frame : Dict) : Prop :=
  frame ∈ ((s.step cfg e).sentOn c).drop (s.sentOn c).length

theorem sentOn_eq (hx : s.conns c = some x) : s.sentOn c = x.link.sent := by rw [sentOn, hx, Option.elim_some]

/-- A step keeps the connections, their devices and their frames. -/
theorem step_sent (hs : s.Numbered) (hx : s.conns c = some x) (e : Step) :
    ∃ x', (s.step cfg e).conns c = some x' ∧ x.link.sent <+: x'.link.sent ∧ x'.deviceId = x.deviceId := by
  refine (hs.run (P := fun s => ∃ x', s.conns c = some x' ∧ x.link.sent <+: x'.link.sent ∧
    x'.deviceId = x.deviceId) ?_ ⟨x, hx, List.prefix_rfl, rfl⟩ [e]).2
  intro s₀ e s s' hm hs h
  refine hm.keeps hs (fun _ _ h => h) (fun y y' _ hstep h => ?_) (fun _ h => h) (fun _ h => h) h
  exact ⟨h.1.trans hstep.sent, hstep.grows.deviceId.trans h.2⟩

/-- In every run, the session of a connection is one of its device. -/
theorem device_after (cfg : Config) (t : Nat) (es : List Step) {c : Nat} {x : Conn}
    (hx : (after cfg t es).conns c = some x) : x.link.session.deviceId = x.deviceId := by
  have hheard : (after cfg t es).Heard fun _ _ _ => True := by
    clear hx
    induction es using List.reverseRecOn with
    | nil => exact fun c x hx => (by cases hx)
    | append_singleton es e ih =>
        rw [after_snoc]
        have hkept : FramesKept cfg (fun _ => True) (after cfg t es).now fun _ _ _ => True :=
          ⟨fun _ _ => trivial, fun _ _ => trivial, fun _ _ _ => trivial⟩
        exact step_heard hkept ⟨rfl, ih⟩ (newest_after cfg t es) trivial
  exact (hheard c x hx).device

/-- A frame that a step sends is an acknowledgement or belongs to a call of this step. -/
theorem Sends.origin {t : Nat} {es : List Step} {frame : Dict} (h : (after cfg t es).Sends cfg e c frame)
    (hx : ((after cfg t es).step cfg e).conns c = some x) :
    FrameOf cfg (· = e) x.deviceId (after cfg t es).now frame := by
  have hkept : FramesKept cfg (· = e) (after cfg t es).now fun c d sent =>
      ∀ frame ∈ sent.drop ((after cfg t es).sentOn c).length, FrameOf cfg (· = e) d (after cfg t es).now frame := by
    constructor
    · intro c d frame hframe
      simp at hframe
    · intro c d sent ack h hack frame hframe
      rw [List.drop_append] at hframe
      rcases List.mem_append.mp hframe with hold | hnew
      · exact h frame hold
      · rw [List.mem_singleton.mp (List.mem_of_mem_drop hnew)]
        exact .helloAck hack
    · intro c d l call frame' h hc hsent frame hframe
      rw [List.drop_append] at hframe
      rcases List.mem_append.mp hframe with hold | hnew
      · exact h frame hold
      · rw [List.mem_singleton.mp (List.mem_of_mem_drop hnew)]
        exact .call hc hsent
  have hnone : ∀ c x, (after cfg t es).conns c = some x →
      x.link.sent.drop ((after cfg t es).sentOn c).length = [] := by
    intro c x hx
    rw [sentOn_eq hx, List.drop_length]
  have hheard := step_heard (e := e) hkept
    ⟨rfl, fun c x hx => ⟨device_after cfg t es hx, by simp [hnone c x hx]⟩⟩ (newest_after cfg t es) rfl
  rw [Sends, sentOn_eq hx] at h
  exact (hheard c x hx).frames frame h

/-- Every frame of a connection has been sent in a step of the run. -/
theorem sent_after {t : Nat} {es : List Step} {frame : Dict} (hx : (after cfg t es).conns c = some x)
    (hframe : frame ∈ x.link.sent) :
    ∃ before e rest, es = before ++ e :: rest ∧ (after cfg t before).Sends cfg e c frame ∧
      FrameOf cfg (· = e) x.deviceId (after cfg t before).now frame := by
  induction es using List.reverseRecOn generalizing x with
  | nil => cases hx
  | append_singleton es e ih =>
      rw [after_snoc] at hx
      by_cases hsends : (after cfg t es).Sends cfg e c frame
      · exact ⟨es, e, [], rfl, hsends, hsends.origin hx⟩
      · rw [Sends, sentOn_eq hx] at hsends
        cases hx₀ : (after cfg t es).conns c with
        | none =>
            rw [sentOn, hx₀] at hsends
            exact absurd hframe hsends
        | some x₀ =>
            obtain ⟨x', hx', ⟨more, hmore⟩, hdevice⟩ := step_sent (numbered_after cfg t es) hx₀ e
            cases hx.symm.trans hx'
            rw [sentOn_eq hx₀, ← hmore, List.drop_left] at hsends
            rw [← hmore] at hframe
            obtain ⟨before, e', rest, rfl, h⟩ := ih hx₀ ((List.mem_append.mp hframe).resolve_right hsends)
            exact ⟨before, e', rest ++ [e], by simp, hdevice ▸ h⟩

end State

end Fountainer
