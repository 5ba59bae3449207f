import Mathlib.Data.List.Chain
import Fountainer.Peer.Firmware
import Fountainer.System.Offers
import Fountainer.System.Proofs

/-!
# The versions of the device

Whatever the network does, the device only ever moves to newer versions.
-/

namespace Fountainer

variable {cfg : Config}

/-- The signature of a message is on its frame, and the frame has the body of the message. -/
theorem frame_of_sign {p : AuthParams} {msg frame : Dict} {seq : Int} {y : Signed}
    (hy : signInput p msg seq = .ok y) (hframe : sign p msg seq = .ok frame) :
    y.fields.Of p frame ∧ canonicalBody frame = canonicalBody msg := by
  have hof : messageFields p frame (optText p.kid) (authSeq frame) = .ok y.fields := by
    rw [(verify_sign hframe).2]
    obtain ⟨y', -, rfl⟩ := sign_eq_ok hframe
    rw [messageFields_set_auth]
    exact (signInput_eq_ok hy).1
  refine ⟨.of_messageFields hof, ?_⟩
  obtain ⟨y', -, rfl⟩ := sign_eq_ok hframe
  exact canonicalBody_set_auth ..

theorem Dict.getOr_of_get {d : Dict} {k v : Str} {x : Json} (h : d.get k = .str v) : d.getOr k x = .str v := by
  unfold Dict.get at h
  unfold Dict.getOr
  cases hk : d.lookup k with
  | none =>
      rw [hk] at h
      cases h
  | some w =>
      rw [hk] at h
      exact h

theorem MacFields.Of.nonce_eq {f : MacFields} {p : AuthParams} {msg : Dict} (h : f.Of p msg) {nonce : Str}
    (hp : p.clientNonce = .str nonce) : f.clientNonce = nonce := by
  have htext : (Json.str nonce).textOrEmpty = .ok nonce := by cases nonce <;> rfl
  have hnonce := h.clientNonce
  rw [hp, htext, Except.ok.injEq] at hnonce
  exact hnonce.symm

namespace SimulatedDevice

/-- A `hello` with the nonce has been sent. -/
def Greeted (d : SimulatedDevice) (nonce : Str) : Prop := ∃ m ∈ d.sent, m.get (py "client_nonce") = .str nonce

theorem Greeted.mono {d d' : SimulatedDevice} {nonce : Str} (h : d.Greeted nonce) (hsent : d.sent ⊆ d'.sent) :
    d'.Greeted nonce := by
  obtain ⟨m, hm, hnonce⟩ := h
  exact ⟨m, hsent hm, hnonce⟩

/-- The offers that have been accepted since the last `hello`. -/
def offers (d : SimulatedDevice) : List AcceptedFrame :=
  d.accepted.filter fun a => decide (a.params.clientNonce = .str d.clientNonce) && isOffer a.frame

/-- What a step accepts, and what it does with an offer. -/
inductive Accepts (d d' : SimulatedDevice) : Prop
  | none (haccepted : d'.accepted = d.accepted) (hversion : d'.fwVersion = d.fwVersion ∨ ∃ msg, d.rx.offer = some msg)
      (hoffer : ∀ msg, d'.rx.offer = some msg → d.rx.offer = some msg)
  | one {msg : Dict} (hidle : d.rx = .idle) (haccepted : d'.accepted = d.accepted ++ [⟨d.params .s2c, msg⟩])
      (hversion : d'.fwVersion = d.fwVersion)
      (hoffer : ∀ msg', d'.rx.offer = some msg' → msg' = msg ∧ isOffer msg = true)

theorem Progress.accepts {d d' : SimulatedDevice} {e : DeviceStep} (h : Progress d e d') : Accepts d d' := by
  cases h with
  | kept h hrx =>
      refine .none h.accepted (.inl h.fwVersion) fun msg hmsg => ?_
      rcases hrx with hrx | hrx
      · rw [hrx] at hmsg
        cases hmsg
      · rwa [hrx] at hmsg
  | accepted hidle htype hhandler hv hn hlt h hrx =>
      refine .one hidle h.accepted h.fwVersion fun msg' hmsg => ?_
      rcases hrx with hrx | ⟨rfl, hrx⟩
      · rw [hrx] at hmsg
        cases hmsg
      · rw [hrx] at hmsg
        cases hmsg
        exact ⟨rfl, decide_eq_true htype⟩
  | downloading hrx =>
      refine .none rfl (.inl rfl) fun msg hmsg => ?_
      rw [hrx]
      exact hmsg
  | downloaded hrx h hok hrx' =>
      refine .none h.accepted (.inl h.fwVersion) fun msg hmsg => ?_
      rw [hrx'] at hmsg
      rw [hrx]
      exact hmsg
  | flashed hrx =>
      refine .none rfl (.inr ⟨_, by rw [hrx]; rfl⟩) fun msg hmsg => ?_
      cases hmsg

/-- Only the answer to a `hello` is followed by a signed message. -/
theorem Session.nothing {d d' : SimulatedDevice} {e : DeviceStep} {ys : List Signed} (h : Session d e ys d')
    (hrx : d.rx ≠ .handshake) : ys = [] := by
  cases h with
  | kept => rfl
  | opened => rfl
  | failed => rfl
  | proven hwait => exact absurd hwait hrx

end SimulatedDevice

namespace World

variable {t : Nat} {d : SimulatedDevice} {es : List WorldStep}

/-! ## What belongs to a session of the device -/

/-- The client nonces are fresh. -/
def freshHellos (w : World) : WorldStep → Bool
  | .device (.connect _ rand) =>
      w.device.sent.all fun m => m.get (py "client_nonce") ≠ .str (ofChars (base64 rand))
  | _ => true

/-- Nobody else has the identity of the device. -/
def soleSigner (w : World) : WorldStep → Bool
  | .server (.deviceSign y) => y.fields.deviceId ≠ w.device.deviceId
  | _ => true

/-- The message has been signed by the device. -/
def Own (w : World) (y : Signed) : Prop :=
  y ∈ w.server.deviceSigned ∧ y.fields.deviceId = w.device.deviceId

/-- What the device has signed or accepted is bound to a nonce of one of its `hello` messages, and the proof of
the current session carries the version of the device until it accepts an offer. -/
structure Bound (w : World) : Prop where
  signed : ∀ y, w.Own y → w.device.Greeted y.fields.clientNonce
  accepted : ∀ a ∈ w.device.accepted, ∃ nonce, a.params.clientNonce = .str nonce ∧ w.device.Greeted nonce
  greeted : w.device.rx ≠ .offline → w.device.Greeted w.device.clientNonce
  waiting : w.device.rx = .handshake → (∀ y, w.Own y → y.fields.clientNonce ≠ w.device.clientNonce) ∧
    ∀ a ∈ w.device.accepted, a.params.clientNonce ≠ .str w.device.clientNonce
  params : ∀ a ∈ w.device.accepted, a.params.clientNonce = .str w.device.clientNonce →
    a.params = w.device.params .s2c
  proof : w.device.offers = [] → ∀ y, w.Own y → y.fields.clientNonce = w.device.clientNonce →
    ∃ m ∈ w.device.sent, bodyHashHex m = .ok y.fields.bhash ∧
      canonicalBody m = canonicalBody [(py "current_version", w.device.fwVersion)]
  working : ∀ msg, w.device.rx.offer = some msg → ∃ a ∈ w.device.offers, a.frame = msg

/-- A step in which the device stays in its session. -/
theorem Bound.kept {w w' : World} {e : DeviceStep} (h : Bound w) (hown : ∀ y, w'.Own y → w.Own y)
    (hp : w.device.Progress e w'.device) (hparams : w'.device.params .s2c = w.device.params .s2c)
    (hrx : w'.device.rx = .handshake → w.device.rx = .handshake)
    (hoff : w.device.rx = .offline → w'.device.rx = .offline) : Bound w' := by
  have hclient : w'.device.clientNonce = w.device.clientNonce :=
    Json.str.inj (congrArg AuthParams.clientNonce hparams)
  have hgreeted : ∀ {nonce}, w.device.Greeted nonce → w'.device.Greeted nonce := fun h => h.mono hp.sent
  have hsigned : ∀ y, w'.Own y → w'.device.Greeted y.fields.clientNonce := fun y hy => hgreeted (h.signed y (hown y hy))
  have hhello : w'.device.rx ≠ .offline → w'.device.Greeted w'.device.clientNonce := by
    intro hon
    rw [hclient]
    exact hgreeted (h.greeted fun hrx => hon (hoff hrx))
  have hproof : w.device.offers = [] → w'.device.fwVersion = w.device.fwVersion → ∀ y, w'.Own y →
      y.fields.clientNonce = w'.device.clientNonce → ∃ m ∈ w'.device.sent, bodyHashHex m = .ok y.fields.bhash ∧
        canonicalBody m = canonicalBody [(py "current_version", w'.device.fwVersion)] := by
    intro hnone hversion y hy hnonce
    obtain ⟨m, hm, hhash, hbody⟩ := h.proof hnone y (hown y hy) (hnonce.trans hclient)
    exact ⟨m, hp.sent hm, hhash, by rw [hversion]; exact hbody⟩
  cases hp.accepts with
  | none haccepted hversion hoffer =>
      have hoffers : w'.device.offers = w.device.offers := by
        rw [SimulatedDevice.offers, SimulatedDevice.offers, haccepted, hclient]
      refine ⟨hsigned, fun a ha => ?_, hhello, fun hwait => ?_, fun a ha hnonce => ?_, fun hnone => ?_, fun msg hmsg => ?_⟩
      · obtain ⟨nonce, hnonce, hg⟩ := h.accepted a (haccepted ▸ ha)
        exact ⟨nonce, hnonce, hgreeted hg⟩
      · obtain ⟨hys, has⟩ := h.waiting (hrx hwait)
        rw [hclient, haccepted]
        exact ⟨fun y hy => hys y (hown y hy), has⟩
      · rw [hparams]
        exact h.params a (haccepted ▸ ha) (hclient ▸ hnonce)
      · rw [hoffers] at hnone
        rcases hversion with hversion | ⟨msg, hmsg⟩
        · exact hproof hnone hversion
        · obtain ⟨a, ha, -⟩ := h.working msg hmsg
          rw [hnone] at ha
          cases ha
      · rw [hoffers]
        exact h.working msg (hoffer msg hmsg)
  | one hidle haccepted hversion hoffer =>
      rename_i msg
      have hoffers : w'.device.offers = w.device.offers ++
          List.filter (fun a => decide (a.params.clientNonce = .str w.device.clientNonce) && isOffer a.frame)
            [⟨w.device.params .s2c, msg⟩] := by
        rw [SimulatedDevice.offers, SimulatedDevice.offers, haccepted, hclient, List.filter_append]
      refine ⟨hsigned, fun a ha => ?_, hhello, fun hwait => ?_, fun a ha hnonce => ?_, fun hnone => ?_, fun msg' hmsg => ?_⟩
      · rw [haccepted] at ha
        rcases List.mem_append.mp ha with ha | ha
        · obtain ⟨nonce, hnonce, hg⟩ := h.accepted a ha
          exact ⟨nonce, hnonce, hgreeted hg⟩
        · rw [List.mem_singleton.mp ha]
          exact ⟨_, rfl, hgreeted (h.greeted (by simp [hidle]))⟩
      · rw [hidle] at hrx
        cases hrx hwait
      · rw [haccepted] at ha
        rw [hparams]
        rcases List.mem_append.mp ha with ha | ha
        · exact h.params a ha (hclient ▸ hnonce)
        · rw [List.mem_singleton.mp ha]
      · rw [hoffers] at hnone
        exact hproof (List.append_eq_nil_iff.mp hnone).1 hversion
      · obtain ⟨rfl, hmsg⟩ := hoffer msg' hmsg
        refine ⟨⟨w.device.params .s2c, msg'⟩, ?_, rfl⟩
        rw [hoffers]
        refine List.mem_append_right _ (List.mem_filter.mpr ⟨List.mem_singleton_self _, ?_⟩)
        simp [SimulatedDevice.params, hmsg]

/-- A step in which the device waits for the answer to its `hello`, and signs `ys`. -/
theorem Bound.answered {w w' : World} {ys : List Signed} {e : DeviceStep} (h : Bound w)
    (hown : ∀ y, w'.Own y → w.Own y ∨ y ∈ ys) (hp : w.device.Progress e w'.device) (hrx : w.device.rx = .handshake)
    (hclient : w'.device.clientNonce = w.device.clientNonce) (hrx' : w'.device.rx = .offline ∨ w'.device.rx = .idle)
    (hys : ∀ y ∈ ys, y.fields.clientNonce = w.device.clientNonce ∧ ∃ m ∈ w'.device.sent,
      bodyHashHex m = .ok y.fields.bhash ∧
        canonicalBody m = canonicalBody [(py "current_version", w.device.fwVersion)]) : Bound w' := by
  obtain ⟨hold, hoffers⟩ := h.waiting hrx
  have hgreeted : ∀ {nonce}, w.device.Greeted nonce → w'.device.Greeted nonce := fun h => h.mono hp.sent
  have hhello : w'.device.Greeted w.device.clientNonce := hgreeted (h.greeted (by simp [hrx]))
  have hsame : w'.device.accepted = w.device.accepted ∧ w'.device.fwVersion = w.device.fwVersion := by
    cases hp.accepts with
    | none haccepted hversion hoffer =>
        refine ⟨haccepted, hversion.resolve_right ?_⟩
        rintro ⟨msg, hmsg⟩
        rw [hrx] at hmsg
        cases hmsg
    | one hidle =>
        rw [hrx] at hidle
        cases hidle
  refine ⟨fun y hy => ?_, fun a ha => ?_, fun _ => ?_, fun hwait => ?_, fun a ha hnonce => ?_,
    fun _ y hy hnonce => ?_, fun msg hmsg => ?_⟩
  · rcases hown y hy with hy | hy
    · exact hgreeted (h.signed y hy)
    · rw [(hys y hy).1]
      exact hhello
  · obtain ⟨nonce, hnonce, hg⟩ := h.accepted a (hsame.1 ▸ ha)
    exact ⟨nonce, hnonce, hgreeted hg⟩
  · rw [hclient]
    exact hhello
  · rcases hrx' with hrx' | hrx' <;> simp [hrx'] at hwait
  · rw [hsame.1] at ha
    rw [hclient] at hnonce
    exact absurd hnonce (hoffers a ha)
  · rw [hclient] at hnonce
    rw [hsame.2]
    rcases hown y hy with hy | hy
    · exact absurd hnonce (hold y hy)
    · exact (hys y hy).2
  · rcases hrx' with hrx' | hrx' <;> simp [hrx', RxState.offer] at hmsg

/-- A new connection with a fresh nonce. -/
theorem Bound.opened {w w' : World} {now : Clock} {rand : Bytes} (h : Bound w) (hown : ∀ y, w'.Own y → w.Own y)
    (hdevice : w'.device = w.device.connect now rand)
    (hfresh : freshHellos w (.device (.connect now rand)) = true) : Bound w' := by
  have hunused : ¬ w.device.Greeted (ofChars (base64 rand)) := by
    rintro ⟨m, hm, hnonce⟩
    exact absurd hnonce (of_decide_eq_true (List.all_eq_true.mp hfresh m hm))
  have hsent : w.device.sent ⊆ w'.device.sent := by
    rw [hdevice]
    exact List.subset_append_left ..
  have hclient : w'.device.clientNonce = ofChars (base64 rand) := by rw [hdevice]; rfl
  have haccepted : w'.device.accepted = w.device.accepted := by rw [hdevice]; rfl
  have hys : ∀ y, w'.Own y → y.fields.clientNonce ≠ w'.device.clientNonce := by
    intro y hy hnonce
    have hg := h.signed y (hown y hy)
    rw [hnonce, hclient] at hg
    exact hunused hg
  have has : ∀ a ∈ w'.device.accepted, a.params.clientNonce ≠ .str w'.device.clientNonce := by
    intro a ha hsame
    obtain ⟨nonce, hnonce, hg⟩ := h.accepted a (haccepted ▸ ha)
    rw [hnonce, hclient, Json.str.injEq] at hsame
    exact hunused (hsame ▸ hg)
  refine ⟨fun y hy => (h.signed y (hown y hy)).mono hsent, fun a ha => ?_, fun _ => ?_, fun _ => ⟨hys, has⟩,
    fun a ha hnonce => absurd hnonce (has a ha), fun _ y hy hnonce => absurd hnonce (hys y hy), fun msg hmsg => ?_⟩
  · obtain ⟨nonce, hnonce, hg⟩ := h.accepted a (haccepted ▸ ha)
    exact ⟨nonce, hnonce, hg.mono hsent⟩
  · rw [hdevice]
    exact ⟨_, List.mem_append_right _ (List.mem_singleton_self _), rfl⟩
  · rw [hdevice] at hmsg
    cases hmsg

theorem Bound.device {w : World} (h : Bound w) (e : DeviceStep) (hfresh : freshHellos w (.device e) = true) :
    Bound (w.step cfg (.device e)) := by
  have hp := w.device.step_progress e
  have hown : ∀ y, (w.step cfg (.device e)).Own y → w.Own y ∨ y ∈ (w.device.step e).2 := by
    rintro y ⟨hy, hid⟩
    rcases deviceSigned_run hy with hy | hy
    · exact .inl ⟨hy, hid.trans hp.deviceId⟩
    · obtain ⟨y', hy', he⟩ := List.mem_map.mp hy
      cases he
      exact .inr hy'
  have hdevice : (w.step cfg (.device e)).device = (w.device.step e).1 := rfl
  generalize w.step cfg (.device e) = w' at hown hdevice
  have hs := w.device.step_signs_session e
  rw [← hdevice] at hp hs
  generalize (w.device.step e).2 = ys at hown hs
  have hold : ys = [] → ∀ y, w'.Own y → w.Own y := by
    rintro rfl y hy
    exact (hown y hy).resolve_right List.not_mem_nil
  generalize hd' : w'.device = d' at hs
  cases hs with
  | kept hparams hrx hoff =>
      subst hd'
      exact h.kept (hold rfl) hp hparams hrx hoff
  | opened hrx => exact h.opened (hold rfl) hd' hfresh
  | failed hrx hclient hrx' =>
      subst hd'
      exact h.answered hown hp hrx hclient (.inl hrx') fun y hy => (by cases hy)
  | proven hrx hclient hrx' hy hframe hsent =>
      subst hd'
      obtain ⟨hof, hbody⟩ := frame_of_sign hy hframe
      refine h.answered hown hp hrx hclient (.inr hrx') fun y' hy' => ?_
      rw [List.mem_singleton.mp hy']
      refine ⟨(hof.nonce_eq rfl).trans hclient, _, hsent, hof.bhash, ?_⟩
      rw [hbody]
      rfl

theorem bound_after (hfresh : Along cfg freshHellos t d es) (hsole : Along cfg soleSigner t d es) :
    Bound (after cfg t d es) := by
  have hall : Run.Along (step cfg) (fun w e => freshHellos w e = true ∧ soleSigner w e = true) (start t d) es :=
    hfresh.and hsole
  refine Run.invariant (P := Bound) ?_ hall ?_
  · rintro w e h ⟨hfresh, hsole⟩
    cases e with
    | server e =>
        have hown : ∀ y, (w.step cfg (.server e)).Own y → w.Own y := by
          rintro y ⟨hy, hid⟩
          rcases deviceSigned_run hy with hy | hy
          · exact ⟨hy, hid⟩
          · rw [serverSteps, List.mem_singleton] at hy
            subst hy
            exact absurd hid (of_decide_eq_true hsole)
        exact ⟨fun y hy => h.signed y (hown y hy), h.accepted, h.greeted,
          fun hrx => ⟨fun y hy => (h.waiting hrx).1 y (hown y hy), (h.waiting hrx).2⟩, h.params,
          fun hnone y hy => h.proof hnone y (hown y hy), h.working⟩
    | device e => exact h.device e hfresh
  · exact ⟨fun y hy => (by cases hy.1), fun a ha => (by cases ha), fun h => absurd rfl h, fun h => (by cases h),
      fun a ha => (by cases ha), fun _ y hy => (by cases hy.1), fun msg hmsg => (by cases hmsg)⟩

end World

/-! ## One offer for each session -/

theorem SameMessage.serverNonce {x : Conn} {a : AcceptedFrame} {frame : Dict} (h : SameMessage x a frame) :
    x.link.session.serverNonce = a.params.serverNonce := by
  obtain ⟨f, hf, hf'⟩ := h.fields
  exact hf'.serverNonce.symm.trans hf.serverNonce

theorem SameMessage.isOffer {x : Conn} {a : AcceptedFrame} {frame : Dict} (h : SameMessage x a frame) :
    Fountainer.isOffer a.frame = Fountainer.isOffer frame := by
  rw [Fountainer.isOffer, h.type_eq, Fountainer.isOffer]

theorem Matching.length_le {α β : Type} {R : α → β → Prop} {as : List α} {bs : List β}
    (h : List.SublistForall₂ R as bs) : as.length ≤ bs.length := by
  obtain ⟨cs, hall, hsub⟩ := List.sublistForall₂_iff.mp h
  exact hall.length_eq.trans_le hsub.length_le

theorem Conn.Offers.length_le {x : Conn} (h : x.Offers cfg) : x.offers.length ≤ 1 := by
  cases h with
  | none h => simp [h]
  | one _ _ _ h => simp [h]

/-- The frame of the step is a value of `json.loads`. -/
def WorldStep.keyed : WorldStep → Bool
  | .server (.recv _ (.json j)) => j.keyed
  | .device (.recv _ (.json j)) => j.keyed
  | _ => true

namespace World

variable {t : Nat} {d : SimulatedDevice} {es : List WorldStep} {e : WorldStep}

/-- The run is sound, with fresh nonces; nobody else has the identity of the device, no control call is an
offer, and no frame has the type of a lifecycle hook. -/
structure Undisturbed (cfg : Config) (t : Nat) (d : SimulatedDevice) (es : List WorldStep) : Prop where
  sound : Sound cfg t d es
  calls : NoOffers (· ∈ trace cfg t d es)
  plain : State.Along cfg plainTypes t (trace cfg t d es)
  nonces : State.Along cfg freshNonces t (trace cfg t d es)
  hellos : Along cfg freshHellos t d es
  sole : Along cfg soleSigner t d es
  keyed : ∀ e ∈ es, e.keyed = true

namespace Undisturbed

theorem init (h : Undisturbed cfg t d (es ++ [e])) : Undisturbed cfg t d es := by
  have htrace : trace cfg t d es <+: trace cfg t d (es ++ [e]) := by
    rw [trace_snoc]
    exact List.prefix_append ..
  exact ⟨h.sound.init, fun d' call hmem => h.calls d' call (htrace.subset hmem), h.plain.init htrace,
    h.nonces.init htrace, (Run.along_append.mp h.hellos).1, (Run.along_append.mp h.sole).1,
    fun e he => h.keyed e (List.mem_append_left _ he)⟩

theorem bound (h : Undisturbed cfg t d es) : Bound (after cfg t d es) := bound_after h.hellos h.sole

theorem offers (h : Undisturbed cfg t d es) : (after cfg t d es).server.Each (Conn.Offers cfg) := by
  rw [server_after]
  exact offers_after h.calls h.plain

theorem distinct (h : Undisturbed cfg t d es) : (after cfg t d es).server.Distinct := by
  rw [server_after]
  exact distinct_after h.nonces

theorem attested (h : Undisturbed cfg t d es) : (after cfg t d es).server.Attested := by
  have hkeyed : State.Along cfg keyedFrames t (trace cfg t d es) := by
    refine Run.along_of_mem fun e he => (show keyedFrames (.init t) e = true from ?_)
    rcases mem_traceFrom he with he | ⟨y, rfl⟩
    · have hkeyed := h.keyed _ he
      cases e with
      | recv c frame => cases frame <;> exact hkeyed
      | _ => rfl
    · rfl
  rw [server_after]
  exact attested_after h.sound.serverMac h.sound.devices h.sound.fields hkeyed

/-- The device accepts at most one offer in a session. -/
theorem offers_length_le (h : Undisturbed cfg t d es) : (after cfg t d es).device.offers.length ≤ 1 := by
  obtain ⟨origin, hgenuine⟩ := genuine_after h.sound
  have hnonce : ∀ a ∈ (after cfg t d es).device.offers, ∃ x, (after cfg t d es).server.conns (origin a) = some x ∧
      x.link.session.serverNonce = (after cfg t d es).device.serverNonce := by
    intro a ha
    obtain ⟨ha, hsession⟩ := List.mem_filter.mp ha
    obtain ⟨x, hx, -⟩ := hgenuine.device a ha
    obtain ⟨frame, -, hsame⟩ := Matching.exists_of_mem (hgenuine.frames _ x hx)
      (List.mem_filter.mpr ⟨ha, decide_eq_true rfl⟩)
    have hparams := h.bound.params a ha (of_decide_eq_true (Bool.and_eq_true_iff.mp hsession).1)
    refine ⟨x, hx, hsame.serverNonce.trans ?_⟩
    rw [hparams]
    rfl
  cases hoffers : (after cfg t d es).device.offers with
  | nil => simp
  | cons a₀ rest =>
      rw [← hoffers]
      obtain ⟨x₀, hx₀, hnonce₀⟩ := hnonce a₀ (by rw [hoffers]; exact List.mem_cons_self)
      have hsent := Matching.filter (fun a frame hsame => SameMessage.isOffer hsame) (hgenuine.frames _ x₀ hx₀)
      have hsub : List.Sublist (after cfg t d es).device.offers (((after cfg t d es).device.accepted.filter
          fun a => decide (origin a = origin a₀)).filter fun a => isOffer a.frame) := by
        have hall : ∀ a ∈ (after cfg t d es).device.offers, (isOffer a.frame && decide (origin a = origin a₀)) = true := by
          intro a ha
          obtain ⟨x, hx, hnonce⟩ := hnonce a ha
          have hsame := h.distinct _ _ _ _ hx hx₀ (hnonce.trans hnonce₀.symm)
          have hoffer := (Bool.and_eq_true_iff.mp (List.mem_filter.mp ha).2).2
          simp [hsame, hoffer]
        rw [List.filter_filter, ← List.filter_eq_self.mpr hall]
        exact List.filter_sublist.filter _
      exact hsub.length_le.trans ((Matching.length_le hsent).trans (h.offers _ x₀ hx₀).length_le)

end Undisturbed

/-! ## Frames of the run -/

/-- A frame that the device or a connection has sent, or has accepted as signed. -/
def Exchanged (w : World) (m : Dict) : Prop :=
  m ∈ w.device.sent ∨ (∃ a ∈ w.device.accepted, a.frame = m) ∨
    ∃ c x, w.server.conns c = some x ∧ (m ∈ x.link.sent ∨ x.proof = some m)

/-- SHA-256 has a collision between the bodies of two frames. -/
def Collided (w : World) : Prop := ∃ m m' b b', w.Exchanged m ∧ w.Exchanged m' ∧
  canonicalBody m = .ok b ∧ canonicalBody m' = .ok b' ∧ Collide b b'

theorem Collided.or_eq {w : World} {m m' : Dict} {hash : Str} (hm : w.Exchanged m) (hm' : w.Exchanged m')
    (hhash : bodyHashHex m = .ok hash) (hhash' : bodyHashHex m' = .ok hash) :
    w.Collided ∨ ∃ b, canonicalBody m = .ok b ∧ canonicalBody m' = .ok b := by
  obtain ⟨b, hb, hbhash⟩ := ok_of_bind hhash
  obtain ⟨b', hb', hbhash'⟩ := ok_of_bind hhash'
  rcases eq_or_collide (Except.ok.inj (hbhash.trans hbhash'.symm)) with rfl | hcollide
  · exact .inr ⟨b, hb, hb'⟩
  · exact .inl ⟨m, m', b, b', hm, hm', hb, hb', hcollide⟩

theorem Exchanged.step {w : World} {m : Dict} (h : w.Exchanged m) (hs : Stages w.server) (e : WorldStep) :
    (w.step cfg e).Exchanged m := by
  rcases h with h | ⟨a, ha, rfl⟩ | ⟨c, x, hx, hm⟩
  · cases e with
    | server e => exact .inl h
    | device e => exact .inl ((w.device.step_progress e).sent h)
  · cases e with
    | server e => exact .inr (.inl ⟨a, ha, rfl⟩)
    | device e =>
        refine .inr (.inl ⟨a, ?_, rfl⟩)
        cases (w.device.step_progress e).accepts with
        | none haccepted => exact haccepted.symm ▸ ha
        | one hidle haccepted =>
            show a ∈ (w.device.step e).1.accepted
            rw [haccepted]
            exact List.mem_append_left _ ha
  · have hkept : ∀ s₀ e s s', Micro cfg s₀ e s s' → State.Numbered s →
        (Stages s ∧ ∃ x, s.conns c = some x ∧ (m ∈ x.link.sent ∨ x.proof = some m)) →
        Stages s' ∧ ∃ x, s'.conns c = some x ∧ (m ∈ x.link.sent ∨ x.proof = some m) := by
      rintro s₀ e s s' hmicro hn ⟨hs, h⟩
      refine ⟨stages_micro hmicro hs, hmicro.keeps hn (fun _ _ h => h) (fun x x' hx hstep h => ?_) (fun _ h => h)
        (fun _ h => h) h⟩
      exact h.imp (fun h => hstep.sent.subset h) ((hs.staged c x hx).proof_eq hstep)
    exact .inr (.inr ⟨c, (hs.numbered.run hkept ⟨hs, x, hx, hm⟩ (w.serverSteps e)).2.2⟩)

theorem Collided.step {w : World} (h : w.Collided) (hs : Stages w.server) (e : WorldStep) :
    (w.step cfg e).Collided := by
  obtain ⟨m, m', b, b', hm, hm', hb⟩ := h
  exact ⟨m, m', b, b', hm.step hs e, hm'.step hs e, hb⟩

theorem stages_after (cfg : Config) (t : Nat) (d : SimulatedDevice) (es : List WorldStep) :
    Stages (after cfg t d es).server := by
  rw [server_after]
  exact always_of_micro (stages_init t) fun _ _ _ _ _ hm h => stages_micro hm h

/-! ## Newer versions -/

theorem Undisturbed.keyed_accepted (h : Undisturbed cfg t d es) {a : AcceptedFrame}
    (ha : a ∈ (after cfg t d es).device.accepted) : (Json.obj a.frame).keyed = true := by
  obtain ⟨now, hmem⟩ := received_after cfg t d es a ha
  exact h.keyed _ hmem

/-- The proof of a session carries the version of the device. -/
theorem Undisturbed.proof_version (h : Undisturbed cfg t d es) (hnone : (after cfg t d es).device.offers = [])
    {cur : Str} (hcur : (after cfg t d es).device.fwVersion = .str cur) {c : Nat} {x : Conn} {msg : Dict}
    (hx : (after cfg t d es).server.conns c = some x) (hproof : x.proof = some msg)
    (hdevice : x.deviceId = (after cfg t d es).device.deviceId)
    (hclient : x.link.session.clientNonce.textOrEmpty = .ok (after cfg t d es).device.clientNonce) :
    (after cfg t d es).Collided ∨ Dict.getOr msg (py "current_version") (.str []) = .str cur := by
  obtain ⟨hkeyed, y, hy, hof⟩ := h.attested c x hx msg hproof
  have hsession : x.link.session.deviceId = x.deviceId := by
    rw [server_after] at hx
    exact State.device_after cfg t _ hx
  have hown : (after cfg t d es).Own y := ⟨hy, hof.deviceId.trans (hsession.trans hdevice)⟩
  have hnonce : y.fields.clientNonce = (after cfg t d es).device.clientNonce :=
    Except.ok.inj (hof.clientNonce.symm.trans hclient)
  obtain ⟨m, hm, hhash, hbody⟩ := h.bound.proof hnone y hown hnonce
  rcases Collided.or_eq (.inl hm) (.inr (.inr ⟨c, x, hx, .inr hproof⟩)) hhash hof.bhash with
    hcollided | ⟨b, hb, hb'⟩
  · exact .inl hcollided
  · rw [hbody, hcur] at hb
    have hkeys : (Json.obj [(py "current_version", .str cur)]).keyed = true := by
      simp [Json.keyed, Json.keyedFields]
    have hget := body_fields rfl hkeys hkeyed hb' hb _ (List.mem_singleton_self _)
    simp only [Json.Same] at hget
    exact .inr (Dict.getOr_of_get hget)

/-- The offer that the device accepts in a step is newer than what it runs. -/
theorem Undisturbed.newer_of_accepted {folder : Clock → Folder} (h : Undisturbed cfg t d (es ++ [e]))
    (hfolder : ∀ now, cfg.newerThan now = newerThan (folder now)) {msg : Dict} {cur : Str}
    (hserver : (after cfg t d (es ++ [e])).server = (after cfg t d es).server)
    (haccepted : (after cfg t d (es ++ [e])).device.accepted =
      (after cfg t d es).device.accepted ++ [⟨(after cfg t d es).device.params .s2c, msg⟩])
    (hclient : (after cfg t d (es ++ [e])).device.clientNonce = (after cfg t d es).device.clientNonce)
    (hmsg : isOffer msg = true) (hcur : (after cfg t d es).device.fwVersion = .str cur) :
    (after cfg t d (es ++ [e])).Collided ∨
      ∃ new, msg.get (py "target_version") = .str new ∧ versionGt new cur = true := by
  obtain ⟨origin, hgenuine⟩ := genuine_after h.sound
  have hlast : ⟨(after cfg t d es).device.params .s2c, msg⟩ ∈ (after cfg t d (es ++ [e])).device.accepted := by
    rw [haccepted]
    exact List.mem_append_right _ (List.mem_singleton_self _)
  -- the device has accepted no other offer in this session
  have hnone : (after cfg t d es).device.offers = [] := by
    have hlength := h.offers_length_le
    have hmine : (decide (((after cfg t d es).device.params .s2c).clientNonce =
        .str (after cfg t d es).device.clientNonce) && isOffer msg) = true := by
      simp [SimulatedDevice.params, hmsg]
    rw [SimulatedDevice.offers, haccepted, hclient, List.filter_append, List.length_append,
      List.filter_singleton, hmine] at hlength
    exact List.length_eq_zero_iff.mp (Nat.le_zero.mp (Nat.le_of_succ_le_succ hlength))
  -- the frame that the server has sent
  obtain ⟨x, hx, hid⟩ := hgenuine.device _ hlast
  obtain ⟨frame, hframe, hsame⟩ := Matching.exists_of_mem (hgenuine.frames _ x hx)
    (List.mem_filter.mpr ⟨hlast, decide_eq_true rfl⟩)
  have hoffer : frame ∈ x.offers := List.mem_filter.mpr ⟨hframe, hsame.isOffer.symm.trans hmsg⟩
  have hnonce : x.link.session.clientNonce.textOrEmpty = .ok (after cfg t d es).device.clientNonce := by
    obtain ⟨f, hf, hf'⟩ := hsame.fields
    rw [← hf.nonce_eq rfl]
    exact hf'.clientNonce
  have hoffers := h.offers _ x hx
  rw [device_after] at hid
  rw [hserver] at hx
  cases hoffers with
  | none hnil =>
      rw [hnil] at hoffer
      cases hoffer
  | one hproof him hbody hone =>
      rename_i now proof frame' im
      obtain rfl := List.mem_singleton.mp (hone ▸ hoffer)
      rcases h.init.proof_version hnone hcur hx hproof (hid.trans (device_after ..).symm) hnonce with
        hcollided | hversion
      · refine .inl ?_
        rw [after_snoc]
        exact hcollided.step (stages_after ..) e
      · rw [hversion, hfolder, newerThan_ok, versionGt, versionTuple_orZero] at him
        obtain ⟨f, hf, hf'⟩ := hsame.fields
        have hexchanged : (after cfg t d (es ++ [e])).Exchanged frame :=
          .inr (.inr ⟨_, x, hserver ▸ hx, .inl hframe⟩)
        rcases Collided.or_eq (.inr (.inl ⟨_, hlast, rfl⟩)) hexchanged hf.bhash hf'.bhash with
          hcollided | ⟨b, hb, hb'⟩
        · exact .inl hcollided
        · have hbody' : canonicalBody (im.otaAvailableBody (cfg.firmwareUrl im.filename) cfg.mandatoryOta) = .ok b := by
            rw [← hb', ← hbody]
            simp only [canonicalBody, bodyFields, List.filter_filter, Bool.and_self]
          obtain ⟨htarget, -⟩ := offer_fields (h.keyed_accepted hlast) hb hbody'
          exact .inr ⟨_, htarget, him.2⟩

end World

/-! ## Whole runs -/

namespace SimulatedDevice

/-- The installed versions, each newer than the one before it; `first` is the version that the device came
with, and a download brings a newer version than the last. -/
structure Rising (first : Str) (d : SimulatedDevice) (vs : List Str) : Prop where
  targets : d.installed.map (fun i => i.msg.get (py "target_version")) = vs.map .str
  chain : (first :: vs).IsChain fun old new => versionGt new old = true
  version : d.fwVersion = .str (vs.getLast?.getD first)
  offer : ∀ msg, d.rx.offer = some msg →
    ∃ new, msg.get (py "target_version") = .str new ∧ versionGt new (vs.getLast?.getD first) = true

theorem Rising.kept {first : Str} {d d' : SimulatedDevice} {vs : List Str} (h : Rising first d vs)
    (hinstalled : d'.installed = d.installed) (hversion : d'.fwVersion = d.fwVersion)
    (hoffer : ∀ msg, d'.rx.offer = some msg → d.rx.offer = some msg ∨
      ∃ new, msg.get (py "target_version") = .str new ∧ versionGt new (vs.getLast?.getD first) = true) :
    Rising first d' vs := by
  refine ⟨?_, h.chain, hversion.trans h.version, fun msg hmsg => (hoffer msg hmsg).elim (h.offer msg) id⟩
  rw [hinstalled]
  exact h.targets

theorem Rising.flashed {first : Str} {d : SimulatedDevice} {vs : List Str} {msg : Dict} {data : Bytes}
    (h : Rising first d vs) (hrx : d.rx.offer = some msg) :
    ∃ vs', Rising first { d with
      fwVersion := msg.get (py "target_version"), rx := .idle
      installed := d.installed ++ [⟨msg, data⟩] } vs' := by
  obtain ⟨new, htarget, hnew⟩ := h.offer msg hrx
  refine ⟨vs ++ [new], ?_, ?_, ?_, fun msg hmsg => (by cases hmsg)⟩
  · simp [h.targets, htarget]
  · rw [← List.cons_append, List.isChain_append]
    refine ⟨h.chain, List.isChain_singleton _, fun old hold new' hnew' => ?_⟩
    rw [List.getLast?_cons, Option.mem_some_iff] at hold
    rw [List.head?_cons, Option.mem_some_iff] at hnew'
    rw [← hold, ← hnew']
    exact hnew
  · simp [htarget]

end SimulatedDevice

namespace World

variable {t : Nat} {d : SimulatedDevice} {es : List WorldStep} {e : WorldStep}

theorem Undisturbed.rising_step {folder : Clock → Folder} {first : Str} {vs : List Str} (h : Undisturbed cfg t d (es ++ [e]))
    (hfolder : ∀ now, cfg.newerThan now = newerThan (folder now)) (hrising : (after cfg t d es).device.Rising first vs) :
    (after cfg t d (es ++ [e])).Collided ∨ ∃ vs', (after cfg t d (es ++ [e])).device.Rising first vs' := by
  cases e with
  | server e =>
      rw [after_snoc]
      exact .inr ⟨vs, hrising⟩
  | device e =>
      have hp := (after cfg t d es).device.step_progress e
      have hdevice : (after cfg t d (es ++ [.device e])).device = ((after cfg t d es).device.step e).1 := by
        rw [after_snoc]
        rfl
      have hserver : (after cfg t d es).device.rx = .idle →
          (after cfg t d (es ++ [.device e])).server = (after cfg t d es).server := by
        intro hidle
        have hsigned := ((after cfg t d es).device.step_signs_session e).nothing (by simp [hidle])
        rw [after_snoc, step, serverSteps, hsigned]
        rfl
      rw [← hdevice] at hp
      generalize hd' : (after cfg t d (es ++ [.device e])).device = d' at hp ⊢
      cases hp with
      | kept hkept hrx hs =>
          refine .inr ⟨vs, hrising.kept hkept.installed hkept.fwVersion fun msg hmsg => .inl ?_⟩
          rcases hrx with hrx | hrx
          · rw [hrx] at hmsg
            cases hmsg
          · rwa [hrx] at hmsg
      | accepted hidle htype hhandler hv hn hlt hkept hrx hs =>
          rcases hrx with hrx | ⟨rfl, hrx⟩
          · refine .inr ⟨vs, hrising.kept hkept.installed hkept.fwVersion fun msg hmsg => ?_⟩
            rw [hrx] at hmsg
            cases hmsg
          · have hclient := Json.str.inj (congrArg AuthParams.clientNonce hs.params)
            rcases h.newer_of_accepted hfolder (hserver hidle) (hd' ▸ hkept.accepted) (hd' ▸ hclient)
              (decide_eq_true htype) hrising.version with hcollided | ⟨new, htarget, hnew⟩
            · exact .inl hcollided
            · refine .inr ⟨vs, hrising.kept hkept.installed hkept.fwVersion fun msg hmsg => ?_⟩
              rw [hrx] at hmsg
              cases hmsg
              exact .inr ⟨new, htarget, hnew⟩
      | downloading hrx =>
          refine .inr ⟨vs, hrising.kept rfl rfl fun msg hmsg => .inl ?_⟩
          rw [hrx]
          exact hmsg
      | downloaded hrx hkept hok hrx' hs =>
          refine .inr ⟨vs, hrising.kept hkept.installed hkept.fwVersion fun msg hmsg => .inl ?_⟩
          rw [hrx'] at hmsg
          rw [hrx]
          exact hmsg
      | flashed hrx => exact .inr (hrising.flashed (by rw [hrx]; rfl))

theorem rising_after {folder : Clock → Folder} {v : Str} (h : Undisturbed cfg t d es)
    (hfolder : ∀ now, cfg.newerThan now = newerThan (folder now)) (hv : d.fwVersion = .str v) :
    (after cfg t d es).Collided ∨ ∃ vs, (after cfg t d es).device.Rising v vs := by
  induction es using List.reverseRecOn with
  | nil => exact .inr ⟨[], rfl, List.isChain_singleton _, hv, fun msg hmsg => (by cases hmsg)⟩
  | append_singleton es e ih =>
      rcases ih h.init with hcollided | ⟨vs, hrising⟩
      · rw [after_snoc]
        exact .inl (hcollided.step (stages_after ..) e)
      · exact h.rising_step hfolder hrising

/-- Whatever the network does, the device never goes back: unless SHA-256 has a collision on the frames of the
run, every image that it installs is newer than the version it came with and than every image before. -/
theorem versions_increase (cfg : Config) (t : Nat) (d : SimulatedDevice) (es : List WorldStep)
    (folder : Clock → Folder) (v : Str) (h : Undisturbed cfg t d es)
    (hfolder : ∀ now, cfg.newerThan now = newerThan (folder now)) (hv : d.fwVersion = .str v) :
    (after cfg t d es).Collided ∨ ∃ vs : List Str,
      (after cfg t d es).device.installed.map (fun i => i.msg.get (py "target_version")) = vs.map .str ∧
      (v :: vs).Pairwise (fun old new => versionGt new old = true) ∧
      (after cfg t d es).device.fwVersion = .str (vs.getLast?.getD v) := by
  rcases rising_after h hfolder hv with hcollided | ⟨vs, hrising⟩
  · exact .inl hcollided
  · have htrans : IsTrans Str fun old new => versionGt new old = true :=
      ⟨fun a b c hab hbc => versionGt_isStrictWeakOrder.trans c b a hbc hab⟩
    exact .inr ⟨vs, hrising.targets, List.isChain_iff_pairwise.mp hrising.chain, hrising.version⟩

theorem Undisturbed.of_checks
    (hserver : State.Along cfg (fun s e => guarded s e && cleanBodies s e && plainTypes s e && freshNonces s e) t
      (trace cfg t d es))
    (hdevice : Along cfg (fun w e => idealMac w e && devicesSign w e && freshHellos w e && soleSigner w e) t d es)
    (hcalls : NoOffers (· ∈ trace cfg t d es)) (hkeyed : ∀ e ∈ es, e.keyed = true) : Undisturbed cfg t d es := by
  have hs : ∀ s e, (guarded s e && cleanBodies s e && plainTypes s e && freshNonces s e) = true →
      ((guarded s e && cleanBodies s e) = true ∧ plainTypes s e = true) ∧ freshNonces s e = true := by
    simp only [Bool.and_eq_true]
    exact fun _ _ => id
  have hd : ∀ w e, (idealMac w e && devicesSign w e && freshHellos w e && soleSigner w e) = true →
      ((idealMac w e && devicesSign w e) = true ∧ freshHellos w e = true) ∧ soleSigner w e = true := by
    simp only [Bool.and_eq_true]
    exact fun _ _ => id
  exact ⟨.of_checks (hserver.imp fun s e h => (hs s e h).1.1) (hdevice.imp fun w e h => (hd w e h).1.1), hcalls,
    hserver.imp fun s e h => (hs s e h).1.2, hserver.imp fun s e h => (hs s e h).2,
    hdevice.imp fun w e h => (hd w e h).1.2, hdevice.imp fun w e h => (hd w e h).2, hkeyed⟩

theorem versions_increase_sample :
    (after updateConfig 0 sampleSimulator updateRun).device.installed.length = 1 ∧
      ((after updateConfig 0 sampleSimulator updateRun).Collided ∨ ∃ vs : List Str,
        (after updateConfig 0 sampleSimulator updateRun).device.installed.map
          (fun i => i.msg.get (py "target_version")) = vs.map .str ∧
        (py "1.0.0" :: vs).Pairwise (fun old new => versionGt new old = true) ∧
        (after updateConfig 0 sampleSimulator updateRun).device.fwVersion =
          .str (vs.getLast?.getD (py "1.0.0"))) := by
  have hchecks : State.Along updateConfig
        (fun s e => guarded s e && cleanBodies s e && plainTypes s e && freshNonces s e) 0
        (trace updateConfig 0 sampleSimulator updateRun) ∧
      Along updateConfig (fun w e => idealMac w e && devicesSign w e && freshHellos w e && soleSigner w e) 0
        sampleSimulator updateRun ∧
      ((trace updateConfig 0 sampleSimulator updateRun).all fun e => (apiCall e).isNone) = true ∧
      updateRun.all WorldStep.keyed = true ∧
      (after updateConfig 0 sampleSimulator updateRun).device.installed.length = 1 := by decide +kernel
  obtain ⟨hserver, hdevice, hcalls, hkeyed, hinstalled⟩ := hchecks
  have h : Undisturbed updateConfig 0 sampleSimulator updateRun :=
    .of_checks hserver hdevice (fun d call hmem => absurd hmem (not_called hcalls d call)) (List.all_eq_true.mp hkeyed)
  exact ⟨hinstalled,
    versions_increase updateConfig 0 sampleSimulator updateRun (fun _ => updateFolder) (py "1.0.0") h (fun _ => rfl) rfl⟩

end World

end Fountainer
