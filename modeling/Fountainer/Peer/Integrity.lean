import Fountainer.Library.Matching
import Fountainer.Peer.World
import Fountainer.Proto.Binding
import Fountainer.Python.Keyed
import Fountainer.System.Provenance

/-!
# What an open network can do to the control messages

Every signed message that the device accepts is a frame that the server has handed to a connection of this
device, and the messages of a connection are accepted in the order of their sending, each at most once.
-/

namespace Fountainer

variable {cfg : Config}

/-! ## Signatures and frames of a connection -/

/-- A frame with the fields of a signature. -/
structure Conn.Carries (x : Conn) (y : Signed) (frame : Dict) : Prop where
  sent : frame ∈ x.link.sent
  control : isControlFrame frame = true
  key : x.link.session.authKey = some y.key
  fields : y.fields.Of (x.link.session.params .s2c) frame

/-- Nothing is signed before the hello, and what is signed has been sent. -/
structure Conn.Backed (x : Conn) : Prop where
  early : x.link.session.kid = none → x.link.signed = []
  frames : ∀ y ∈ x.link.signed, ∃ frame, x.Carries y frame

theorem Conn.Carries.congr {x x' : Conn} {y : Signed} {frame : Dict} (h : x.Carries y frame)
    (hsent : x.link.sent ⊆ x'.link.sent)
    (hparams : x'.link.session.params .s2c = x.link.session.params .s2c) : x'.Carries y frame := by
  refine ⟨hsent h.sent, h.control, ?_, by rw [hparams]; exact h.fields⟩
  have hkey : (x'.link.session.params .s2c).authKey = (x.link.session.params .s2c).authKey := by rw [hparams]
  exact hkey.trans h.key

theorem Conn.Backed.congr {x x' : Conn} (h : x.Backed) (hsent : x.link.sent ⊆ x'.link.sent)
    (hsigned : x'.link.signed = x.link.signed)
    (hparams : x'.link.session.params .s2c = x.link.session.params .s2c) : x'.Backed := by
  have hkid : (x'.link.session.params .s2c).kid = (x.link.session.params .s2c).kid := by rw [hparams]
  constructor
  · intro hnone
    rw [hsigned]
    exact h.early (hkid.symm.trans hnone)
  · intro y hy
    obtain ⟨frame, hframe⟩ := h.frames y (hsigned ▸ hy)
    exact ⟨frame, hframe.congr hsent hparams⟩

theorem Link.signedBy_of_kid_none {session : DeviceSession} (hkid : session.kid = none) (now : Clock)
    (call : Call) : Link.signedBy session now call = [] := by
  refine List.eq_nil_iff_forall_not_mem.mpr fun y hy => ?_
  obtain ⟨name, msg, msgId, irt, -, -, hx, -, -⟩ := Link.signedBy_mem hy
  obtain ⟨hfields, -, -⟩ := signInput_eq_ok hx
  have hof := (messageFields_eq_ok hfields)
  obtain ⟨v, mtype, ts, bhash, -, -, -, -, -, -, -, -, -, -, -, -, htext, -⟩ := hof
  have hnone : (session.params .s2c).kid = none := hkid
  rw [hnone] at htext
  cases htext

/-- The signature of a message is on the frame that `signIfNeeded` makes. -/
theorem DeviceSession.signIfNeeded_signs {s : DeviceSession} {name : Str} {msg : Dict} {y : Signed}
    (hc : isControl name = true) (hx : signInput (s.params .s2c) msg (s.s2cSeq + 1) = .ok y) :
    ∃ frame, s.signIfNeeded name msg = ({ s with s2cSeq := s.s2cSeq + 1 }, .ok frame) ∧
      frame.get (py "type") = msg.get (py "type") ∧ s.authKey = some y.key ∧
      y.fields.Of (s.params .s2c) frame := by
  obtain ⟨hfields, hraw, hkey⟩ := signInput_eq_ok hx
  have hsign : sign (s.params .s2c) msg (s.s2cSeq + 1) =
      .ok (msg.set (py "auth") (authObject (optText s.kid) (s.s2cSeq + 1) (computeMac y.key y.raw))) := by
    simp only [sign, hx, bind, Except.bind, pure, Except.pure]
    rfl
  refine ⟨msg.set (py "auth") (authObject (optText s.kid) (s.s2cSeq + 1) (computeMac y.key y.raw)), ?_, ?_, hkey, ?_⟩
  · rw [signIfNeeded, if_pos hc, hsign]
  · exact Dict.get_set_of_ne (by decide)
  · refine .of_messageFields ?_
    rw [(verify_sign hsign).2, messageFields_set_auth]
    exact hfields

/-- A call that signs a message hands the signed frame to the connection. -/
theorem Link.start_signs {l : Link} {now : Clock} {call : Call} {y : Signed}
    (hy : y ∈ Link.signedBy l.session now call) (hbody : py "type" ∉ call.body.map Prod.fst) :
    ∃ frame, frame ∈ (l.start now call).1.sent ∧ isControlFrame frame = true ∧
      l.session.authKey = some y.key ∧ y.fields.Of (l.session.params .s2c) frame := by
  have hgo : ∀ name (s : DeviceSession) (msg : Except PyErr Dict), y ∈ signedBy.go s name msg →
      ∃ m, msg = .ok m ∧ isControl name = true ∧
        signInput (s.params .s2c) m (s.s2cSeq + 1) = .ok y := by
    intro name s msg hy
    unfold signedBy.go at hy
    split at hy
    · split at hy
      · rename_i hcontrol
        split at hy
        · rename_i hx
          rw [List.mem_singleton.mp hy]
          exact ⟨_, rfl, hcontrol, hx⟩
        · cases hy
      · cases hy
    · cases hy
  cases call with
  | send name body irt =>
      obtain ⟨m, hm, hcontrol, hx⟩ := hgo _ _ _ hy
      obtain ⟨frame, hframe, htype, hkey, hof⟩ := DeviceSession.signIfNeeded_signs hcontrol hx
      have hname := DeviceSession.buildMessage_type hm hbody
      refine ⟨frame, ?_, ?_, hkey, hof⟩
      · simp only [start, DeviceSession.send, hm, hframe, push, List.mem_append, List.mem_singleton, or_true]
      · rw [isControlFrame_of_type (htype.trans hname), hcontrol]
  | request name body =>
      obtain ⟨m, hm, hcontrol, hx⟩ := hgo _ _ _ hy
      have hx' : signInput (l.session.nextMsgId.1.params .s2c) m (l.session.nextMsgId.1.s2cSeq + 1) = .ok y := hx
      obtain ⟨frame, hframe, htype, hkey, hof⟩ := DeviceSession.signIfNeeded_signs hcontrol hx'
      have hname := DeviceSession.buildMessage_type hm hbody
      have hbuild : buildMessage name body none (some (DeviceSession.msgIdText (l.session.msgSeq + 1))) .null
          now = .ok m := hm
      refine ⟨frame, ?_, ?_, hkey, hof⟩
      · simp only [DeviceSession.nextMsgId] at hframe
        simp only [start, DeviceSession.request, DeviceSession.nextMsgId, hbuild, hframe, push,
          List.mem_append, List.mem_singleton, or_true]
      · rw [isControlFrame_of_type (htype.trans hname), hcontrol]

theorem Conn.Backed.start {x : Conn} (h : x.Backed) {now : Clock} {call : Call}
    (hbody : py "type" ∉ call.body.map Prod.fst) :
    Conn.Backed { x with link := (x.link.start now call).1 } := by
  have hparams : (x.link.start now call).1.session.params .s2c = x.link.session.params .s2c := by
    obtain ⟨seq, id, p, -, hs⟩ := Link.start_session x.link now call
    rw [hs]
    rfl
  have hsent : x.link.sent ⊆ (x.link.start now call).1.sent := by
    rcases Link.start_sent x.link now call with hs | ⟨frame, hs⟩
    · rw [hs]
      exact List.Subset.refl _
    · rw [hs]
      exact List.subset_append_left ..
  have hkid : (x.link.start now call).1.session.kid = x.link.session.kid :=
    congrArg AuthParams.kid hparams
  constructor
  · intro hnone
    dsimp only at hnone ⊢
    rw [hkid] at hnone
    rw [Link.start_signed, h.early hnone, Link.signedBy_of_kid_none hnone, List.append_nil]
  · intro y hy
    dsimp only at hy
    rw [Link.start_signed] at hy
    rcases List.mem_append.mp hy with hy | hy
    · obtain ⟨frame, hframe⟩ := h.frames y hy
      exact ⟨frame, hframe.congr hsent hparams⟩
    · obtain ⟨frame, hframe, hcontrol, hkey, hof⟩ := Link.start_signs hy hbody
      refine ⟨frame, hframe, hcontrol, ?_, by dsimp only; rw [hparams]; exact hof⟩
      exact (congrArg AuthParams.authKey hparams).trans hkey

theorem Conn.Backed.connStep {s₀ s : State} {e : Step} {c : Nat} {x x' : Conn}
    (hok : cleanBodies s₀ e = true) (h : ConnStep s₀ e s c x x') (ha : Acceptable x) (hx : x.Backed) :
    x'.Backed := by
  have hstill : ∀ l', Link.Still x.link l' → Conn.Backed { x with link := l' } := fun l' hl =>
    hx.congr (fun frame hframe => by dsimp only; rwa [hl.sent]) hl.signed (hl.params _)
  have hempty : x.pc = .hello → x.link.signed = [] := fun hpc => hx.early (ha.kid hpc)
  cases h with
  | quiet hq => exact hx.congr (List.Subset.refl _) rfl rfl
  | helloFailed hpc => exact ⟨fun _ => hempty hpc, fun y hy => absurd hy (hempty hpc ▸ List.not_mem_nil)⟩
  | helloAcked hpc hack => exact ⟨fun _ => hempty hpc, fun y hy => absurd hy (hempty hpc ▸ List.not_mem_nil)⟩
  | verified hpc hs he hv =>
      obtain ⟨replay, rfl⟩ := DeviceSession.verifyC2s_session hv
      exact hx.congr (List.Subset.refl _) rfl rfl
  | start ho => exact hx.start (ho.cleanBody hok).type
  | sendDone k ok => exact hstill _ (Link.sendDone_still ..)
  | expire k => exact hstill _ (Link.expire_still ..)
  | wake k raises => exact hstill _ (Link.wake_still ..)
  | dispatch hpc he => exact hstill _ (Link.dispatch_still ..)

/-- In a run with clean control calls, signatures and signed frames belong together. -/
theorem backed_after {t : Nat} {es : List Step} (hes : State.Along cfg cleanBodies t es) :
    (State.after cfg t es).Each fun x => Acceptable x ∧ x.Backed := by
  refine invariant_of_micro (fun c x hx => (by cases hx)) (fun s₀ e s s' hok _ hm h => ?_) hes
  refine hm.each ?_ ?_ ?_ ?_ ?_ h
  · exact fun d device rand _ _ => ⟨⟨.of_no_control (by simp [Conn.new]), fun _ => rfl⟩, fun _ => rfl,
      fun y hy => (by cases hy)⟩
  · exact fun x b hx => ⟨⟨hx.1.frames, hx.1.kid⟩, hx.2.congr (List.Subset.refl _) rfl rfl⟩
  · exact fun c x x' _ hs hx => ⟨hx.1.connStep hok hs, hx.2.connStep hok hs hx.1⟩
  · exact fun c x _ _ hx => ⟨⟨hx.1.frames.congr rfl rfl (Nat.le_refl _), fun h => by cases h⟩,
      hx.2.congr (List.Subset.refl _) rfl rfl⟩
  · exact fun x hx => ⟨⟨hx.1.frames, fun h => by cases h⟩, hx.2.congr (List.Subset.refl _) rfl rfl⟩

/-! ## Signatures stay -/

/-- Connection `c` has signed `y`. -/
def State.Signs (s : State) (c : Nat) (y : Signed) : Prop := ∃ x, s.conns c = some x ∧ y ∈ x.link.signed

theorem ConnStep.signs {s₀ s : State} {e : Step} {c : Nat} {x x' : Conn} {y : Signed}
    (hs : ConnStep s₀ e s c x x') (hy : y ∈ x.link.signed) : y ∈ x'.link.signed := by
  rcases hs.signed with h | ⟨call, -, h⟩
  · rw [h]
    exact hy
  · rw [h]
    exact List.mem_append_left _ hy

theorem Micro.signs {s₀ s s' : State} {e : Step} (hm : Micro cfg s₀ e s s') (hs : s.Numbered) {c : Nat}
    {y : Signed} (h : s.Signs c y) : s'.Signs c y :=
  hm.keeps hs (fun _ _ hy => hy) (fun _ _ _ hstep hy => hstep.signs hy) (fun _ hy => hy) (fun _ hy => hy) h

theorem State.Signs.run {s : State} {c : Nat} {y : Signed} (hs : s.Numbered) (h : s.Signs c y)
    (es : List Step) : (Run.run (State.step cfg) s es).Signs c y :=
  (hs.run (fun _ _ _ _ hm hs h => hm.signs hs h) h es).2

/-! ## What the device accepts -/

/-- The frame is accepted under the key of `y`, with the fields of `y`. -/
def AcceptedFrame.Shows (a : AcceptedFrame) (y : Signed) : Prop :=
  a.params.authKey = some y.key ∧ y.fields.Of a.params a.frame

namespace World

variable {t : Nat} {d : SimulatedDevice} {es : List WorldStep}

/-- Every accepted frame has been signed by a connection, and their sequence numbers increase. -/
structure Trusted (w : World) : Prop where
  signed : ∀ a ∈ w.device.accepted, ∃ c y, w.server.Signs c y ∧ a.Shows y
  params : ∀ a ∈ w.device.accepted, a.params.deviceId = w.device.deviceId
  handled : ∀ a ∈ w.device.accepted, ∃ name ∈ SimulatedDevice.handlers.map Prod.fst,
    a.frame.get (py "type") = .str name
  counted : ∀ a ∈ w.device.accepted, (authSeq a.frame).asInt = some (frameSeq a.frame)
  last : ∀ a ∈ w.device.accepted, frameSeq a.frame ≤ w.device.s2cReplay.last
  ordered : w.device.accepted.Pairwise fun a b => frameSeq a.frame < frameSeq b.frame

/-- A frame that passes the check of the device has been signed by a connection. -/
theorem verified_signs {w : World} {now : Clock} {msg : Dict} (hsecure : Secure w.server)
    (hdirection : ∀ y ∈ w.server.deviceSigned, y.fields.direction = py "c2s")
    (hmac : idealMac w (.device (.recv now (.json (.obj msg)))) = true)
    (hv : verify (w.device.params .s2c) msg = .ok .ok) :
    ∃ c y, w.server.Signs c y ∧ AcceptedFrame.Shows ⟨w.device.params .s2c, msg⟩ y := by
  obtain ⟨z, hz, hfields, hraw, hkey, -⟩ := verify_accepts hv
  have hof := MacFields.Of.of_messageFields hfields
  simp only [idealMac, hz, hv, ne_eq, not_true_eq_false, decide_false, Bool.false_or, List.any_eq_true,
    decide_eq_true_eq] at hmac
  obtain ⟨y, hy, hykey, hyraw⟩ := hmac
  rcases State.mem_signedInputs hy with hy | ⟨c, x, hx, hy⟩
  · -- a message of a device has another direction
    obtain ⟨hclean, hinput⟩ := hsecure.device y hy
    have hsame : y.fields = z.fields := macInput_inj hclean hinput (by rw [hyraw]; exact hraw)
    have hne : py "c2s" ≠ py "s2c" := by decide
    have hdir := hdirection y hy
    rw [hsame, hof.direction] at hdir
    exact absurd hdir.symm hne
  · obtain ⟨hclean, -, hinput⟩ := hsecure.server c x hx y hy
    have hsame : y.fields = z.fields := macInput_inj hclean hinput (by rw [hyraw]; exact hraw)
    exact ⟨c, y, ⟨x, hx, hy⟩, hkey.trans (congrArg some hykey.symm), hsame ▸ hof⟩

theorem Trusted.kept {w w' : World} (h : Trusted w)
    (hsigns : ∀ c y, w.server.Signs c y → w'.server.Signs c y)
    (hid : w'.device.deviceId = w.device.deviceId) (haccepted : w'.device.accepted = w.device.accepted)
    (hreplay : w'.device.s2cReplay = w.device.s2cReplay) : Trusted w' := by
  constructor
  · intro a ha
    obtain ⟨c, y, hy, hshows⟩ := h.signed a (haccepted ▸ ha)
    exact ⟨c, y, hsigns c y hy, hshows⟩
  · intro a ha
    rw [hid]
    exact h.params a (haccepted ▸ ha)
  · exact fun a ha => h.handled a (haccepted ▸ ha)
  · exact fun a ha => h.counted a (haccepted ▸ ha)
  · intro a ha
    rw [hreplay]
    exact h.last a (haccepted ▸ ha)
  · rw [haccepted]
    exact h.ordered

theorem Trusted.accept {w w' : World} {msg : Dict} {n : Int} {name : Str} (h : Trusted w)
    (hsigns : ∀ c y, w.server.Signs c y → w'.server.Signs c y)
    (hsigned : ∃ c y, w.server.Signs c y ∧ AcceptedFrame.Shows ⟨w.device.params .s2c, msg⟩ y)
    (hname : name ∈ SimulatedDevice.handlers.map Prod.fst) (htype : msg.get (py "type") = .str name)
    (hn : (authSeq msg).asInt = some n) (hlt : w.device.s2cReplay.last < n)
    (hkept : SimulatedDevice.Kept (w.device.accept msg n) w'.device) : Trusted w' := by
  have hseq : frameSeq msg = n := by rw [frameSeq, hn, Option.getD_some]
  have hmem : ∀ a ∈ w'.device.accepted, a ∈ w.device.accepted ∨ a = ⟨w.device.params .s2c, msg⟩ := by
    intro a ha
    rw [hkept.accepted] at ha
    simpa [SimulatedDevice.accept] using ha
  constructor
  · intro a ha
    rcases hmem a ha with ha | rfl
    · obtain ⟨c, y, hy, hshows⟩ := h.signed a ha
      exact ⟨c, y, hsigns c y hy, hshows⟩
    · obtain ⟨c, y, hy, hshows⟩ := hsigned
      exact ⟨c, y, hsigns c y hy, hshows⟩
  · intro a ha
    rw [hkept.deviceId]
    rcases hmem a ha with ha | rfl
    · exact h.params a ha
    · rfl
  · intro a ha
    rcases hmem a ha with ha | rfl
    · exact h.handled a ha
    · exact ⟨name, hname, htype⟩
  · intro a ha
    rcases hmem a ha with ha | rfl
    · exact h.counted a ha
    · dsimp only
      rw [hn, hseq]
  · intro a ha
    rw [hkept.s2cReplay]
    rcases hmem a ha with ha | rfl
    · exact (h.last a ha).trans hlt.le
    · exact hseq.le
  · rw [hkept.accepted]
    refine List.pairwise_append.mpr ⟨h.ordered, List.pairwise_singleton .., fun a ha b hb => ?_⟩
    rw [List.mem_singleton.mp hb]
    exact (h.last a ha).trans_lt (hseq ▸ hlt)

theorem Trusted.progress {w w' : World} {e : DeviceStep} (h : Trusted w)
    (hsigns : ∀ c y, w.server.Signs c y → w'.server.Signs c y) (hsecure : Secure w.server)
    (hdirection : ∀ y ∈ w.server.deviceSigned, y.fields.direction = py "c2s")
    (hmac : idealMac w (.device e) = true) (hp : w.device.Progress e w'.device) : Trusted w' := by
  obtain ⟨server, device⟩ := w'
  cases hp with
  | kept hkept hrx => exact h.kept hsigns hkept.deviceId hkept.accepted hkept.s2cReplay
  | accepted hidle htype hhandler hv hn hlt hkept hrx =>
      exact h.accept hsigns (verified_signs hsecure hdirection hmac hv) hhandler htype hn hlt hkept
  | downloading hrx => exact h.kept hsigns rfl rfl rfl
  | downloaded hrx hkept hok hrx' => exact h.kept hsigns hkept.deviceId hkept.accepted hkept.s2cReplay
  | flashed hrx => exact h.kept hsigns rfl rfl rfl

theorem trusted_after (h : Sound cfg t d es) : Trusted (after cfg t d es) := by
  induction es using List.reverseRecOn with
  | nil => exact ⟨fun a ha => (by cases ha), fun a ha => (by cases ha), fun a ha => (by cases ha),
      fun a ha => (by cases ha), fun a ha => (by cases ha), .nil⟩
  | append_singleton es e ih =>
      have hbefore := ih h.init
      have hnumbered : (after cfg t d es).server.Numbered := by
        rw [server_after]
        exact Fountainer.numbered_after cfg t _
      have hsigns : ∀ c y, (after cfg t d es).server.Signs c y →
          ((after cfg t d es).step cfg e).server.Signs c y := fun c y hy => hy.run hnumbered _
      rw [after_snoc]
      cases e with
      | server e => exact hbefore.kept hsigns rfl rfl rfl
      | device e =>
          exact hbefore.progress hsigns h.init.secure (deviceSigned_direction h.init.direction)
            (Sound.last h.deviceMac) ((after cfg t d es).device.step_progress e)

theorem device_after (cfg : Config) (t : Nat) (d : SimulatedDevice) (es : List WorldStep) :
    (after cfg t d es).device.deviceId = d.deviceId := by
  have hall : Run.Along (step cfg) (fun _ _ => True) (start t d) es :=
    Run.along_of_forall (fun _ _ => trivial) _ es
  refine Run.invariant (P := fun w : World => w.device.deviceId = d.deviceId) ?_ hall rfl
  intro w e hw _
  cases e with
  | server e => exact hw
  | device e => exact (w.device.step_progress e).deviceId.trans hw

end World

/-! ## The frames behind the accepted ones -/

/-- An integer object with the text of an integer is that integer. -/
theorem eq_int_of_toStr {j : Json} {i n : Int} (hint : j.asInt = some i) (h : j.toStr = decimal n) :
    j = .int n := by
  cases j with
  | int m => exact congrArg Json.int (decimal_inj h)
  | bool b =>
      have hmem : .scalar 'e' ∈ decimal n := by
        rw [← h]
        cases b <;> decide
      exact absurd (mem_decimal hmem) (by decide)
  | null | float | str | arr | obj => cases hint

/-- The accepted frame is the frame of the connection: their MAC fields are the same. -/
structure SameMessage (x : Conn) (a : AcceptedFrame) (frame : Dict) : Prop where
  key : a.params.authKey = x.link.session.authKey
  seq : authSeq a.frame = authSeq frame
  fields : ∃ f : MacFields, f.Of a.params a.frame ∧ f.Of (x.link.session.params .s2c) frame

theorem Conn.Carries.sameMessage {x : Conn} {y : Signed} {frame : Dict} {a : AcceptedFrame}
    (h : x.Carries y frame) (hx : Accepted x.link) (hshows : a.Shows y)
    (hcounted : (authSeq a.frame).asInt = some (frameSeq a.frame)) :
    SameMessage x a frame := by
  obtain ⟨-, n, hn, -, -⟩ := hx.verified frame h.sent h.control
  refine ⟨hshows.1.trans h.key.symm, ?_, y.fields, hshows.2, h.fields⟩
  rw [hn]
  refine eq_int_of_toStr hcounted ?_
  rw [← hshows.2.seq, h.fields.seq, hn]
  rfl

namespace World

variable {t : Nat} {d : SimulatedDevice} {es : List WorldStep}

/-- Every accepted message is a frame of the connection `origin` gives, and those of a connection are accepted
in the order of its frames. -/
structure Genuine (w : World) (origin : AcceptedFrame → Nat) : Prop where
  device : ∀ a ∈ w.device.accepted, ∃ x, w.server.conns (origin a) = some x ∧ x.deviceId = w.device.deviceId
  frames : ∀ c x, w.server.conns c = some x →
    List.SublistForall₂ (SameMessage x) (w.device.accepted.filter fun a => origin a = c) x.link.sent

theorem genuine_after (h : Sound cfg t d es) : ∃ origin, (after cfg t d es).Genuine origin := by
  have htrusted := trusted_after h
  have hbacked : (after cfg t d es).server.Each fun x => Acceptable x ∧ x.Backed := by
    rw [server_after]
    exact backed_after h.bodies
  have hdevice : ∀ c x, (after cfg t d es).server.conns c = some x → x.link.session.deviceId = x.deviceId := by
    rw [server_after]
    exact fun c x hx => State.device_after cfg t _ hx
  choose! origin hsigned using htrusted.signed
  refine ⟨origin, fun a ha => ?_, fun c x hx => ?_⟩
  · obtain ⟨y, ⟨x, hx, hy⟩, hshows⟩ := hsigned a ha
    obtain ⟨frame, hframe⟩ := (hbacked _ x hx).2.frames _ hy
    refine ⟨x, hx, ?_⟩
    calc x.deviceId = x.link.session.deviceId := (hdevice _ x hx).symm
      _ = y.fields.deviceId := hframe.fields.deviceId.symm
      _ = a.params.deviceId := hshows.2.deviceId
      _ = (after cfg t d es).device.deviceId := htrusted.params a ha
  · have hmatch : List.SublistForall₂ (SameMessage x)
        ((after cfg t d es).device.accepted.filter fun a => origin a = c)
        (x.link.sent.filter fun frame => isControlFrame frame) := by
      refine Matching.sublistForall₂ (f := fun a : AcceptedFrame => frameSeq a.frame) (g := frameSeq)
        (htrusted.ordered.sublist List.filter_sublist) ?_ ?_
      · exact List.pairwise_filter.mpr (hbacked c x hx).1.frames.ordered
      · intro a ha
        obtain ⟨ha, hc⟩ := List.mem_filter.mp ha
        have hc : origin a = c := of_decide_eq_true hc
        obtain ⟨y, ⟨x', hx', hy⟩, hshows⟩ := hsigned a ha
        rw [hc, hx] at hx'
        cases hx'
        obtain ⟨frame, hframe⟩ := (hbacked c x hx).2.frames _ hy
        have hsame := hframe.sameMessage (hbacked c x hx).1.frames hshows (htrusted.counted a ha)
        refine ⟨frame, List.mem_filter.mpr ⟨hframe.sent, hframe.control⟩, hsame, ?_⟩
        rw [frameSeq, frameSeq, hsame.seq]
    obtain ⟨frames, hall, hsub⟩ := List.sublistForall₂_iff.mp hmatch
    exact List.sublistForall₂_iff.mpr ⟨frames, hall, hsub.trans List.filter_sublist⟩

/-- Whatever the network does, every signed message that the device accepts is a frame of a connection of
this device, and the messages of a connection are accepted in the order of its frames, each at most once:
none is forged, changed, repeated, redirected or brought into another order. -/
theorem control_messages_genuine (cfg : Config) (t : Nat) (d : SimulatedDevice) (es : List WorldStep)
    (h : Sound cfg t d es) :
    ∃ origin : AcceptedFrame → Nat,
      (∀ a ∈ (after cfg t d es).device.accepted, ∃ x,
        (after cfg t d es).server.conns (origin a) = some x ∧ x.deviceId = d.deviceId) ∧
      ∀ c x, (after cfg t d es).server.conns c = some x →
        List.SublistForall₂ (SameMessage x)
          ((after cfg t d es).device.accepted.filter fun a => origin a = c) x.link.sent := by
  obtain ⟨origin, hgenuine⟩ := genuine_after h
  have hdevice := hgenuine.device
  rw [device_after] at hdevice
  exact ⟨origin, hdevice, hgenuine.frames⟩

/-! ## A device with one command -/

/-- A run in which every step is chosen in the state before it. -/
def script (cfg : Config) (w : World) : List (World → WorldStep) → List WorldStep
  | [] => []
  | f :: fs => f w :: script cfg (w.step cfg (f w)) fs

/-- The last frame of the device reaches connection `c`. -/
def toServer (c : Nat) (w : World) : WorldStep :=
  .server (.recv c (.json (.obj (w.device.sent.getLast?.getD []))))

/-- The last frame of connection `c` reaches the device at the time `now` of its clock. -/
def toDevice (now : Clock) (c : Nat) (w : World) : WorldStep :=
  .device (.recv now (.json (.obj (match w.server.conns c with
    | some x => x.link.sent.getLast?.getD []
    | none => []))))

def sampleSimulator : SimulatedDevice :=
  { deviceId := py "fon-1", serial := py "S1", key := [1, 2, 3, 4], kid := py "k1" }

/-- The handshake, and a command that reaches the device twice. -/
def sampleRun : List WorldStep := script sampleConfig (start 0 sampleSimulator)
  [fun _ => .device (.connect 0 [9]), fun _ => .server (.accept (py "fon-1") [7]), toServer 0,
   fun _ => .server (.resume 0 true), toDevice 0 0, toServer 0, fun _ => .server (.resume 0 true),
   fun _ => .server (.api (py "fon-1") sampleCommand), toDevice 0 0, fun _ => .device (.sendDone true),
   toDevice 0 0]

theorem sampleRun_sound : Sound sampleConfig 0 sampleSimulator sampleRun ∧
    (after sampleConfig 0 sampleSimulator sampleRun).device.accepted.length = 1 := by
  have hchecks : State.Along sampleConfig (fun s e => guarded s e && cleanBodies s e) 0
        (trace sampleConfig 0 sampleSimulator sampleRun) ∧
      Along sampleConfig (fun w e => idealMac w e && devicesSign w e) 0 sampleSimulator sampleRun ∧
      (after sampleConfig 0 sampleSimulator sampleRun).device.accepted.length = 1 := by decide +kernel
  exact ⟨.of_checks hchecks.1 hchecks.2.1, hchecks.2.2⟩

theorem control_messages_genuine_sample :
    (after sampleConfig 0 sampleSimulator sampleRun).device.accepted.length = 1 ∧
      ∃ origin : AcceptedFrame → Nat,
        (∀ a ∈ (after sampleConfig 0 sampleSimulator sampleRun).device.accepted, ∃ x,
          (after sampleConfig 0 sampleSimulator sampleRun).server.conns (origin a) = some x ∧
            x.deviceId = sampleSimulator.deviceId) ∧
        ∀ c x, (after sampleConfig 0 sampleSimulator sampleRun).server.conns c = some x →
          List.SublistForall₂ (SameMessage x)
            ((after sampleConfig 0 sampleSimulator sampleRun).device.accepted.filter fun a => origin a = c)
            x.link.sent :=
  ⟨sampleRun_sound.2, control_messages_genuine sampleConfig 0 sampleSimulator sampleRun sampleRun_sound.1⟩

end World

end Fountainer
