import Fountainer.Peer.Integrity
import Fountainer.System.FailClosed

/-!
# What reaches the device when nothing is lost

A device of the registry completes the handshake, and from then on its check of a signed frame depends on
the sequence numbers only.
-/

namespace Fountainer

/-! ## The device in the handshake -/

theorem sign_of_signable {p : AuthParams} {msg : Dict} (hp : p.Ready) (hmsg : Signable msg) (seq : Int) :
    ∃ y frame, signInput p msg seq = .ok y ∧ sign p msg seq = .ok frame := by
  obtain ⟨kid, hkid, -⟩ := hp.kid
  obtain ⟨key, hkey⟩ := hp.key
  have hseq : (Json.int seq).asInt.isSome = true := rfl
  obtain ⟨f, hf, hall⟩ := (messageFields_encode msg hkid hseq hkey).mpr ⟨hp, hmsg⟩
  obtain ⟨raw, hraw⟩ := isOk_iff.mp (macInput_isOk.mpr hall)
  have hinput : signInput p msg seq = .ok ⟨key, f, raw⟩ := by
    simp [signInput, hkid, optText, hf, hraw, hkey, bind, Except.bind, pure, Except.pure]
  have hsign : sign p msg seq = .ok (msg.set (py "auth") (authObject (optText p.kid) seq (computeMac key raw))) := by
    simp [sign, hinput, bind, Except.bind, pure, Except.pure]
  exact ⟨_, _, hinput, hsign⟩

namespace SimulatedDevice

/-- What the device puts into its proof can be encoded. -/
structure Encodable (d : SimulatedDevice) : Prop where
  deviceId : d.deviceId.encodes = true
  serial : d.serial.encodes = true
  kid : d.kid.encodes = true
  fwVersion : d.fwVersion.encodes = true

theorem fieldText_str {t : Str} (h : t.encodes = true) : (Json.str t).fieldText = true := by
  apply fieldText_iff.mpr
  refine ⟨t, ?_, h⟩
  cases t <;> rfl

theorem otaCheck_signable {d : SimulatedDevice} (h : d.Encodable) (now : Clock) : Signable (d.otaCheck now) := by
  constructor
  · exact ⟨.int 2, rfl, fun s hs => by cases hs⟩
  · exact ⟨py "ota_check", rfl, rfl⟩
  · exact ⟨.int now.ms, rfl, fun s hs => by cases hs⟩
  · exact fieldText_str h.serial
  · rfl
  · rfl
  · intro kv hkv hbody
    have hmem : kv ∈ bodyFields (d.otaCheck now) := List.mem_filter.mpr ⟨hkv, by simpa using hbody⟩
    rw [show bodyFields (d.otaCheck now) = [(py "current_version", d.fwVersion)] from rfl, List.mem_singleton] at hmem
    rw [hmem]
    exact ⟨rfl, h.fwVersion⟩

/-- The device after it has agreed on its key and the nonce of the server. -/
def agree (d : SimulatedDevice) (nonce : Str) : SimulatedDevice :=
  { d with serverNonce := nonce, negKid := some d.kid }

/-- The server of a device with the key answers its hello with its nonce. -/
theorem hello_accepted (d : SimulatedDevice) (now : Clock) {device : Device}
    (hkey : device.keyFor d.kid = some d.key) (scope nonce : Str) (t t' : Clock) :
    ∃ ack, (DeviceSession.new device scope nonce t).hello t' (d.hello now) =
        ({ DeviceSession.new device scope nonce t with
            clientNonce := .str d.clientNonce, kid := some d.kid, authKey := some d.key },
          .ok (.accepted ack)) ∧
      (ack.get (py "accepted")).truthy = true ∧ ack.item (py "server_nonce") = .ok (.str nonce) ∧
      ack.item (py "auth_kid") = .ok (.str d.kid) := by
  have htype : Dict.get (d.hello now) (py "type") = .str (py "hello") := rfl
  have hkids : Dict.get (d.hello now) (py "auth_kids") = .arr [.str d.kid] := rfl
  have hschemes : Dict.get (d.hello now) (py "auth_schemes") = .arr [.str authScheme] := rfl
  have hnonce : Dict.get (d.hello now) (py "client_nonce") = .str d.clientNonce := rfl
  have hor : ∀ x : Json, (Json.arr [x]).or (.arr []) = .arr [x] := fun x => rfl
  have hpick : device.pickKid (.arr [.str d.kid]) = .ok (some d.kid) := by
    simp [Device.pickKid, hor, Json.iter, Device.firstKnown, hkey, bind, Except.bind]
  have hknown : (Json.arr [.str authScheme]).contains authScheme = .ok true := by simp [Json.contains]
  obtain ⟨i, hmsg⟩ : ∃ i, Dict.get (d.hello now) (py "msg_id") = .str i := ⟨_, rfl⟩
  obtain ⟨m, hmeta⟩ : ∃ m, messageMeta (py "hello_ack") = some m := ⟨_, rfl⟩
  have hreply : Dict.set [(py "v", .int m.wire), (py "type", .str (py "hello_ack")), (py "ts", .int t'.ms)]
      (py "in_reply_to") (.str i) = [(py "v", .int m.wire), (py "type", .str (py "hello_ack")),
        (py "ts", .int t'.ms), (py "in_reply_to", .str i)] := rfl
  have hkeys : [py "v", py "type", py "ts", py "in_reply_to", py "accepted", py "supported_protocols",
      py "server_ts", py "auth_required", py "auth_scheme", py "auth_scope", py "auth_kid",
      py "server_nonce"].Nodup := by decide
  have hack := Dict.update_eq_append (d := [(py "v", .int m.wire), (py "type", .str (py "hello_ack")),
    (py "ts", .int t'.ms), (py "in_reply_to", .str i)]) (e := [(py "accepted", .bool true), (py "supported_protocols", .arr [.int 1, .int 2]),
    (py "server_ts", .int t'.ms), (py "auth_required", .bool true), (py "auth_scheme", .str authScheme),
    (py "auth_scope", .str scope), (py "auth_kid", .str d.kid), (py "server_nonce", .str nonce)]) hkeys
  simp only [DeviceSession.hello, htype, hkids, hschemes, hnonce, hmsg, hreply, DeviceSession.new, hor, hpick, hknown, hkey,
    buildMessage, hmeta, hack, bind, Except.bind, pure, Except.pure, ne_eq, not_true_eq_false, if_false,
    reduceCtorEq]
  exact ⟨_, rfl, rfl, rfl, rfl⟩

theorem recvAck_accepted {d : SimulatedDevice} (h : d.Encodable) (now : Clock) {ack : Dict} {nonce : Str}
    (hclient : d.clientNonce.encodes = true) (hserver : nonce.encodes = true)
    (haccepted : (ack.get (py "accepted")).truthy = true) (hnonce : ack.item (py "server_nonce") = .ok (.str nonce))
    (hkid : ack.item (py "auth_kid") = .ok (.str d.kid)) :
    ∃ y frame, d.recvAck now ack =
        ({ d.agree nonce with
            c2sSeq := d.c2sSeq + 1, sent := d.sent ++ [frame], rx := .idle, telemetry := .waiting 0 }, [y]) ∧
      sign ((d.agree nonce).params .c2s) (d.otaCheck now) (d.c2sSeq + 1 : Nat) = .ok frame := by
  have hready : ((d.agree nonce).params .c2s).Ready :=
    ⟨⟨_, rfl⟩, ⟨_, rfl, h.kid⟩, h.deviceId, hserver, fieldText_str hclient⟩
  obtain ⟨y, frame, hy, hframe⟩ := sign_of_signable hready (otaCheck_signable h now) (d.c2sSeq + 1 : Nat)
  have htext : (Json.str nonce).textOrEmpty = .ok nonce := by cases nonce <;> rfl
  refine ⟨y, frame, ?_, hframe⟩
  unfold recvAck
  simp only [haccepted, hnonce, hkid, htext, Json.text, Bool.not_true, Bool.false_eq_true, if_false]
  simp only [params, otaCheck, agree] at hy hframe ⊢
  simp only [hy, hframe]

end SimulatedDevice

/-! ## The connection in the handshake -/

variable {cfg : Config} {s : State} {c : Nat} {x : Conn}

/-- The connection is still in the stage and in the session of `x`. -/
structure Conn.Stays (x x' : Conn) : Prop where
  deviceId : x'.deviceId = x.deviceId
  pc : x'.pc = x.pc
  negotiated : x'.link.session.negotiated = x.link.session.negotiated
  params : ∀ dir, x'.link.session.params dir = x.link.session.params dir

namespace State

theorem accept_known (cfg : Config) (s : State) {d : Str} {device : Device} (hd : cfg.registry.get d = some device)
    (rand : Bytes) : (s.accept cfg d rand).conns s.nextConn = some (Conn.new cfg d device rand s.now) ∧
      (s.accept cfg d rand).sessions d = some s.nextConn ∧ (s.accept cfg d rand).now = s.now := by
  simp only [accept, hd]
  split
  · split
    · exact ⟨setConn_self .., Function.update_self .., rfl⟩
    · exact ⟨setConn_self .., Function.update_self .., rfl⟩
  · exact ⟨setConn_self .., Function.update_self .., rfl⟩

/-- A callback leaves the registry alone, and on its connection it can only send a message. -/
theorem callback_stays (cfg : Config) (hx : s.conns c = some x) (key : Str) (h : Hook) (cause : Cause) (msg : Dict) :
    (s.callback cfg c key h cause msg).1.sessions = s.sessions ∧
      ∃ x', (s.callback cfg c key h cause msg).1.conns c = some x' ∧ x.Stays x' := by
  have hcalled : ∀ st, (s.called c x.deviceId key h cause msg st).conns c = some x := fun st => by
    rw [called_conns, hx]
  have hkept : ∀ st, (s.called c x.deviceId key h cause msg st).sessions = s.sessions ∧
      ∃ x', (s.called c x.deviceId key h cause msg st).conns c = some x' ∧ x.Stays x' := fun st =>
    ⟨called_sessions .., x, hcalled st, rfl, rfl, rfl, fun _ => rfl⟩
  simp only [callback, hx]
  split
  · exact hkept _
  · exact hkept _
  · rename_i call _ _
    have hstart := startOn_eq (hcalled
      (runHook cfg h (s.deviceState x.deviceId) x.link.session s.now msg).shadow) call
    obtain ⟨seq, id, p, -, hsession⟩ := Link.start_session x.link (s.called c x.deviceId key h cause msg
      (runHook cfg h (s.deviceState x.deviceId) x.link.session s.now msg).shadow).now call
    rw [hstart]
    generalize (x.link.start _ call) = out at hsession
    obtain ⟨l, r⟩ := out
    dsimp only at hsession
    have hstays : x.Stays { x with link := l } :=
      ⟨rfl, rfl, by dsimp only; rw [hsession], fun dir => by dsimp only; rw [hsession]; rfl⟩
    cases r <;> exact ⟨called_sessions .., _, setConn_self .., hstays⟩

/-- The server takes a hello that it accepts, and then awaits the proof. -/
theorem hello_acked (hx : s.conns c = some x) (hpc : x.pc = .hello) {d ack : Dict} {session : DeviceSession}
    (hhello : x.link.session.hello s.now d = (session, .ok (.accepted ack))) :
    s.step cfg (.recv c (.json (.obj d))) =
      s.setConn c { x with link := Link.push { x.link with session } ack, pc := .ackSend true } := by
  simp only [step, recv, hx, hpc, recvHello, hhello]

theorem ack_sent (hx : s.conns c = some x) (hpc : x.pc = .ackSend true) :
    s.step cfg (.resume c true) = s.setConn c { x with pc := .proof } := by
  simp only [step, resume, hx, hpc, setPc, if_true]

/-- A session proof that can be answered completes the handshake. -/
theorem proof_completes (hx : s.conns c = some x) (hpc : x.pc = .proof) {d : Dict}
    (hproves : x.link.session.Proves d) (htype : d.get (py "type") = .str (py "ota_check"))
    (hanswer : otaAnswerable cfg x.link.session.deviceId s.now d = true) {s' : State}
    (hs' : (s.step cfg (.recv c (.json (.obj d)))).step cfg (.resume c true) = s') :
    s'.sessions = s.sessions ∧ ∃ x', s'.conns c = some x' ∧ x'.deviceId = x.deviceId ∧
      x'.pc = .live .idle false ∧ x'.shaken = true ∧ x'.link.session.negotiated = true ∧
      ∀ dir, x'.link.session.params dir = x.link.session.params dir := by
  have hok := (x.link.session.verifyC2s_proves d).mpr hproves
  obtain ⟨session, hv⟩ : ∃ session, x.link.session.verifyC2s d = (session, .ok true) :=
    ⟨_, Prod.ext rfl hok⟩
  obtain ⟨replay, hsession⟩ := DeviceSession.verifyC2s_session hv
  have hself : (s.setConn c (proven x session d)).conns c = some (proven x session d) := setConn_self ..
  have hkey : callbackFor (py "__ota_check__") = some .onOtaCheck := by decide
  have hanswered : (s.setConn c (proven x session d)).answerProof cfg c d =
      (s.setConn c (proven x session d)).callback cfg c (py "__ota_check__") .onOtaCheck .lifecycle d := by
    simp only [answerProof, htype, hkey, if_true]
  have hraised : ((s.setConn c (proven x session d)).answerProof cfg c d).2 = .raised ↔ _ :=
    answerProof_raised_iff hv s
  obtain ⟨hsessions, x₂, hx₂, hstays⟩ :=
    callback_stays cfg hself (py "__ota_check__") .onOtaCheck .lifecycle d
  have hdone := callback_otaCheck cfg (s.setConn c (proven x session d)) c (py "__ota_check__") .lifecycle d
  rw [hanswered, proofAnswerable, if_pos htype, hanswer] at hraised
  simp only [step, recv, hx, hpc, recvProof, hv] at hs'
  have hproven : { x with
      link := { x.link with session := { session with negotiated := true } }, pc := .proofReply,
      proof := some d } = proven x session d := rfl
  rw [hproven, hanswered] at hs'
  generalize (s.setConn c (proven x session d)).callback cfg c (py "__ota_check__") .onOtaCheck .lifecycle d = out
    at hs' hraised hsessions hx₂ hdone
  obtain ⟨s₂, r⟩ := out
  cases r with
  | done => exact absurd rfl hdone
  | raised => simp at hraised
  | suspended =>
      dsimp only at hs' hsessions hx₂
      have hpc₂ : x₂.pc = .proofReply := hstays.pc
      simp only [resume, hx₂, hpc₂, if_true] at hs'
      rw [handshakeDone_eq cfg hx₂, shake_eq] at hs'
      subst hs'
      refine ⟨(called_sessions ..).trans hsessions, x₂.shake s₂.now, ?_, ?_, rfl, rfl, ?_, fun dir => ?_⟩
      · rw [called_conns, setConn_self]
      · exact hstays.deviceId
      · exact hstays.negotiated
      · exact (hstays.params dir).trans (by rw [hsession]; rfl)

end State

namespace World

/-- The messages of a handshake, with nothing in between. -/
def handshake (c : Nat) (d : Str) (now : Clock) (clientRand serverRand : Bytes) : List (World → WorldStep) :=
  [fun _ => .device (.connect now clientRand), fun _ => .server (.accept d serverRand), toServer c,
   fun _ => .server (.resume c true), toDevice now c, toServer c, fun _ => .server (.resume c true)]

/-- The device and connection `c` have completed a handshake with each other. -/
structure Met (w : World) (c : Nat) : Prop where
  idle : w.device.rx = .idle
  current : w.server.sessions w.device.deviceId = some c
  conn : ∃ x, w.server.conns c = some x ∧ x.deviceId = w.device.deviceId ∧ x.pc = .live .idle false ∧
    x.shaken = true ∧ x.link.session.negotiated = true ∧
    ∀ dir, x.link.session.params dir = w.device.params dir

theorem proves_of_sign {s : DeviceSession} {msg frame : Dict} {seq : Int}
    (h : sign (s.params .c2s) msg seq = .ok frame) (hlt : s.replay.last < seq) : s.Proves frame := by
  obtain ⟨hv, hseq⟩ := verify_sign h
  exact ⟨(verify_ok_iff _ _).mp hv, seq, by rw [hseq]; rfl, hlt⟩

theorem run_script_nil (w : World) : Run.run (step cfg) w (script cfg w []) = w := rfl

theorem run_script_cons (w : World) (f : World → WorldStep) (fs : List (World → WorldStep)) :
    Run.run (step cfg) w (script cfg w (f :: fs)) =
      Run.run (step cfg) (w.step cfg (f w)) (script cfg (w.step cfg (f w)) fs) := rfl

theorem step_server (d : SimulatedDevice) (e : Step) : step cfg ⟨s, d⟩ (.server e) = ⟨s.step cfg e, d⟩ := rfl

theorem step_device {d d' : SimulatedDevice} {e : DeviceStep} {ys : List Signed} (h : d.step e = (d', ys)) :
    step cfg ⟨s, d⟩ (.device e) = ⟨{ s with deviceSigned := s.deviceSigned ++ ys }, d'⟩ := by
  have hsign : ∀ (ys : List Signed) (s : State), Run.run (State.step cfg) s (ys.map .deviceSign) =
      { s with deviceSigned := s.deviceSigned ++ ys } := by
    intro ys
    induction ys with
    | nil => simp
    | cons y ys ih => simp [ih, State.step]
  simp only [step, serverSteps, h, hsign]

/-- A device whose key the registry knows completes the handshake when its messages arrive. -/
theorem met_of_handshake (cfg : Config) (w : World) {device : Device} (now : Clock) (clientRand serverRand : Bytes)
    (hoff : w.device.rx = .offline) (hdevice : cfg.registry.get w.device.deviceId = some device)
    (hkey : device.keyFor w.device.kid = some w.device.key) (henc : w.device.Encodable)
    (hanswer : otaAnswerable cfg w.device.deviceId w.server.now (w.device.otaCheck now) = true) :
    (Run.run (step cfg) w (script cfg w
      (handshake w.server.nextConn w.device.deviceId now clientRand serverRand))).Met w.server.nextConn := by
  obtain ⟨s, d⟩ := w
  dsimp only at hoff hdevice hkey henc hanswer ⊢
  -- the device opens the connection
  obtain ⟨d₁, hd₁⟩ : ∃ d₁, d.connect now clientRand = d₁ := ⟨_, rfl⟩
  have hrx₁ : d₁.rx = .handshake := by rw [← hd₁]; rfl
  have hid₁ : d₁.deviceId = d.deviceId := by rw [← hd₁]; rfl
  have hkey₁ : device.keyFor d₁.kid = some d₁.key := by rw [← hd₁]; exact hkey
  have henc₁ : d₁.Encodable := by rw [← hd₁]; exact ⟨henc.deviceId, henc.serial, henc.kid, henc.fwVersion⟩
  have hnonce₁ : d₁.clientNonce.encodes = true := by rw [← hd₁]; exact ofChars_encodes _
  have hhello₁ : d₁.sent.getLast?.getD [] = d₁.hello now := by
    rw [← hd₁]
    simp [SimulatedDevice.connect]
    rfl
  have hcheck₁ : d₁.otaCheck now = d.otaCheck now := by rw [← hd₁]; rfl
  have h₁ : step cfg ⟨s, d⟩ (.device (.connect now clientRand)) = ⟨s, d₁⟩ := by
    have hstep : d.step (.connect now clientRand) = (d₁, []) := by simp [SimulatedDevice.step, hoff, hd₁]
    rw [step_device hstep, List.append_nil]
  -- the server accepts it
  obtain ⟨hconn, hcurrent, hnow⟩ := State.accept_known cfg s hdevice serverRand
  have hid : device.deviceId = d.deviceId := cfg.registry.named _ (mem_of_lookup hdevice)
  have h₂ : State.step cfg s (.accept d.deviceId serverRand) = s.accept cfg d.deviceId serverRand := rfl
  generalize s.accept cfg d.deviceId serverRand = s₁ at hconn hcurrent hnow h₂
  generalize s.nextConn = c at hconn hcurrent ⊢
  -- the hello is answered
  obtain ⟨ack, hhello, haccepted, hserver, hackKid⟩ :=
    d₁.hello_accepted now hkey₁ cfg.authScope (ofChars (base64 serverRand)) s.now s₁.now
  obtain ⟨x₁, h₃, hpc₁, hsent₁, hdevice₁, hsession₁, hreplay₁, hparams₁⟩ : ∃ x₁ : Conn,
      State.step cfg s₁ (.recv c (.json (.obj (d₁.hello now)))) = s₁.setConn c x₁ ∧ x₁.pc = .ackSend true ∧
        x₁.link.sent = [ack] ∧ x₁.deviceId = d.deviceId ∧ x₁.link.session.deviceId = d.deviceId ∧
        x₁.link.session.replay = {} ∧
        ∀ dir, x₁.link.session.params dir = (d₁.agree (ofChars (base64 serverRand))).params dir := by
    refine ⟨_, State.hello_acked hconn rfl hhello, rfl, rfl, rfl, hid, rfl, fun dir => ?_⟩
    simp [Link.push, DeviceSession.params, SimulatedDevice.params, SimulatedDevice.agree, DeviceSession.new, hid, hid₁]
  have h₄ : State.step cfg (s₁.setConn c x₁) (.resume c true) = _ :=
    State.ack_sent (State.setConn_self s₁ c x₁) hpc₁
  -- the device sends its proof
  obtain ⟨y, frame, hrecv, hsign⟩ := SimulatedDevice.recvAck_accepted henc₁ now hnonce₁ (ofChars_encodes _)
    haccepted hserver hackKid
  have hreceived : d₁.step (.recv now (.json (.obj ack))) = d₁.recvAck now ack := by
    simp only [SimulatedDevice.step, SimulatedDevice.recv, hrx₁]
  obtain ⟨d₂, hstep, hrx₂, hid₂, hparams₂, hsent₂⟩ : ∃ d₂, d₁.step (.recv now (.json (.obj ack))) = (d₂, [y]) ∧
      d₂.rx = .idle ∧ d₂.deviceId = d.deviceId ∧
      (∀ dir, d₂.params dir = (d₁.agree (ofChars (base64 serverRand))).params dir) ∧
      d₂.sent.getLast?.getD [] = frame := by
    exact ⟨_, hreceived.trans hrecv, rfl, hid₁, fun dir => rfl, by simp⟩
  have h₅ : ∀ s, step cfg ⟨s, d₁⟩ (.device (.recv now (.json (.obj ack)))) =
      ⟨{ s with deviceSigned := s.deviceSigned ++ [y] }, d₂⟩ := fun s => step_device hstep
  -- the proof is answered
  have hproves : x₁.link.session.Proves frame := by
    have hsigned : sign (x₁.link.session.params .c2s) (d₁.otaCheck now) (d₁.c2sSeq + 1 : Nat) = .ok frame := by
      rw [hparams₁]
      exact hsign
    apply proves_of_sign hsigned
    rw [hreplay₁]
    exact Int.natCast_pos.mpr (Nat.succ_pos _)
  obtain ⟨x, hx, hframe⟩ := sign_eq_ok hsign
  have htype : frame.get (py "type") = .str (py "ota_check") := by
    rw [hframe]
    rfl
  have hanswer₁ : otaAnswerable cfg x₁.link.session.deviceId s₁.now frame = true := by
    rw [hsession₁, hnow, ← hanswer, ← hcheck₁, hframe]
    rfl
  simp only [handshake, run_script_cons, run_script_nil, h₁, step_server, h₂, toServer, hhello₁, h₃, h₄, toDevice,
    State.setConn_self, hsent₁, List.getLast?_singleton, Option.getD_some, h₅, hsent₂]
  have hx₃ : ∀ signed, ({ (s₁.setConn c x₁).setConn c { x₁ with pc := .proof } with
      deviceSigned := signed } : State).conns c = some { x₁ with pc := .proof } := fun _ => State.setConn_self ..
  obtain ⟨hsessions, x₂, hx₂, hdevice₂, hpc₂, hshaken₂, hnegotiated₂, hparams⟩ :=
    State.proof_completes (hx₃ _) rfl hproves htype hanswer₁ rfl
  refine ⟨hrx₂, ?_, x₂, hx₂, ?_, hpc₂, hshaken₂, hnegotiated₂, fun dir => ?_⟩
  · rw [hid₂]
    exact (congrFun hsessions _).trans hcurrent
  · rw [hid₂]
    exact hdevice₂.trans hdevice₁
  · rw [hparams₂]
    exact (hparams dir).trans (hparams₁ dir)

end World

/-! ## After the handshake -/

/-- Connection `c` signs under the parameters `p`. -/
def State.Speaks (s : State) (c : Nat) (p : AuthParams) : Prop :=
  ∃ x, s.conns c = some x ∧ x.pc ≠ .hello ∧ x.link.session.params .s2c = p

/-- After the hello the parameters of a connection are fixed. -/
theorem ConnStep.speaks {s₀ : State} {e : Step} {x' : Conn} (hs : ConnStep s₀ e s c x x') (hpc : x.pc ≠ .hello) :
    x'.pc ≠ .hello ∧ x'.link.session.params .s2c = x.link.session.params .s2c := by
  cases hs with
  | quiet hq => exact ⟨fun h => hpc (hq.stage.2.2.1 h), rfl⟩
  | helloFailed h => exact absurd h hpc
  | helloAcked h => exact absurd h hpc
  | verified _ _ _ hv =>
      obtain ⟨replay, rfl⟩ := DeviceSession.verifyC2s_session hv
      exact ⟨by simp, rfl⟩
  | start =>
      obtain ⟨seq, id, p, -, hsession⟩ := Link.start_session x.link s.now ‹Call›
      exact ⟨hpc, by dsimp only; rw [hsession]; rfl⟩
  | sendDone k ok => exact ⟨hpc, (Link.sendDone_still ..).params _⟩
  | expire k => exact ⟨hpc, (Link.expire_still ..).params _⟩
  | wake k raises => exact ⟨hpc, (Link.wake_still ..).params _⟩
  | dispatch => exact ⟨hpc, (Link.dispatch_still ..).params _⟩

theorem Micro.speaks {s₀ s' : State} {e : Step} {p : AuthParams} (hm : Micro cfg s₀ e s s') (hs : s.Numbered)
    (h : s.Speaks c p) : s'.Speaks c p := by
  refine hm.keeps hs (fun _ _ hx => hx) (fun x x' _ hstep hx => ?_) (fun x hx => ⟨by simp [Conn.shake], hx.2⟩)
    (fun x hx => ⟨by simp, hx.2⟩) h
  obtain ⟨hpc, hp⟩ := hstep.speaks hx.1
  exact ⟨hpc, hp.trans hx.2⟩

namespace World

variable {t : Nat} {d : SimulatedDevice} {es : List WorldStep}

/-- The device and connection `c` hold the same parameters. -/
structure Together (w : World) (c : Nat) : Prop where
  numbered : w.server.Numbered
  speaks : w.server.Speaks c (w.device.params .s2c)
  rx : w.device.rx ≠ .handshake

theorem Met.together {w : World} (h : w.Met c) (hnumbered : w.server.Numbered) : w.Together c := by
  obtain ⟨x, hx, -, hpc, -, -, hparams⟩ := h.conn
  exact ⟨hnumbered, ⟨x, hx, by simp [hpc], hparams .s2c⟩, by simp [h.idle]⟩

/-- Until the device connects again, it stays in its session. -/
theorem Together.step {w : World} {e : WorldStep} (h : w.Together c)
    (he : ∀ now rand, e ≠ .device (.connect now rand)) : (w.step cfg e).Together c := by
  obtain ⟨hnumbered, hspeaks⟩ : (Run.run (State.step cfg) w.server (w.serverSteps e)).Numbered ∧
      (Run.run (State.step cfg) w.server (w.serverSteps e)).Speaks c (w.device.params .s2c) :=
    h.numbered.run (fun _ _ _ _ hm hs h => hm.speaks hs h) h.speaks (w.serverSteps e)
  cases e with
  | server e => exact ⟨hnumbered, hspeaks, h.rx⟩
  | device e =>
      obtain ⟨hparams, hrx⟩ : SimulatedDevice.SameSession w.device (w.device.step e).1 :=
        SimulatedDevice.step_session h.rx fun now rand heq => he now rand (by rw [heq])
      exact ⟨hnumbered, by dsimp only [World.step]; rw [hparams]; exact hspeaks, hrx⟩

theorem Together.run {w : World} (h : w.Together c) {fs : List WorldStep}
    (hfs : ∀ e ∈ fs, ∀ now rand, e ≠ .device (.connect now rand)) : (Run.run (World.step cfg) w fs).Together c := by
  induction fs generalizing w with
  | nil => exact h
  | cons e fs ih =>
      apply ih
      · exact h.step (hfs e List.mem_cons_self)
      · exact fun e he => hfs e (List.mem_cons_of_mem _ he)

/-- The device checks a signed frame of its session by the sequence number. -/
theorem verifyS2c_frame {d : SimulatedDevice} {l : Link} (h : Accepted l)
    (hparams : l.session.params .s2c = d.params .s2c) {frame : Dict} (hsent : frame ∈ l.sent)
    (hcontrol : isControlFrame frame = true) :
    (d.verifyS2c frame).2 = .ok (decide (d.s2cReplay.last < frameSeq frame)) := by
  obtain ⟨hv, n, hn, -, -⟩ := h.verified frame hsent hcontrol
  rw [hparams] at hv
  have hseq : frameSeq frame = n := by simp [frameSeq, hn, Json.asInt]
  rw [hseq]
  unfold SimulatedDevice.verifyS2c
  simp only [hv, AntiReplay.check, hn, Json.asInt]
  by_cases hle : (n : Int) ≤ d.s2cReplay.last
  · simp [hle]
  · simp [hle, lt_of_not_ge hle]

/-- A device whose key the registry knows completes the handshake with a new connection when its messages
arrive. Whatever happens then, until it connects again it accepts a signed frame of this connection exactly when
the sequence number is larger than that of the last frame accepted, in this session or in an earlier one. -/
theorem handshake_delivers (cfg : Config) (t : Nat) (d : SimulatedDevice) (es : List WorldStep) {w : World}
    (hw : w = after cfg t d es) {device : Device} (now : Clock) (clientRand serverRand : Bytes)
    (hoff : w.device.rx = .offline) (hdevice : cfg.registry.get w.device.deviceId = some device)
    (hkey : device.keyFor w.device.kid = some w.device.key) (henc : w.device.Encodable)
    (hanswer : otaAnswerable cfg w.device.deviceId w.server.now (w.device.otaCheck now) = true)
    {hs : List WorldStep}
    (hhs : hs = script cfg w (handshake w.server.nextConn w.device.deviceId now clientRand serverRand)) :
    (after cfg t d (es ++ hs)).Met w.server.nextConn ∧
    ∀ fs, State.Along cfg cleanBodies t (trace cfg t d (es ++ hs ++ fs)) →
      (∀ e ∈ fs, ∀ now rand, e ≠ .device (.connect now rand)) →
      ∃ x, (after cfg t d (es ++ hs ++ fs)).server.conns w.server.nextConn = some x ∧
        ∀ frame ∈ x.link.sent, isControlFrame frame = true →
          ((after cfg t d (es ++ hs ++ fs)).device.verifyS2c frame).2 =
            .ok (decide ((after cfg t d (es ++ hs ++ fs)).device.s2cReplay.last < frameSeq frame)) := by
  have hmet : (after cfg t d (es ++ hs)).Met w.server.nextConn := by
    rw [after, Run.run_append, hhs]
    subst hw
    exact met_of_handshake cfg _ now clientRand serverRand hoff hdevice hkey henc hanswer
  refine ⟨hmet, fun fs hclean hfs => ?_⟩
  have hnumbered : (after cfg t d (es ++ hs)).server.Numbered := by
    rw [server_after]
    exact Fountainer.numbered_after cfg t _
  have htogether : (after cfg t d (es ++ hs ++ fs)).Together w.server.nextConn := by
    rw [after, Run.run_append]
    exact (hmet.together hnumbered).run hfs
  obtain ⟨x, hx, -, hparams⟩ := htogether.speaks
  have hacceptable : (after cfg t d (es ++ hs ++ fs)).server.Each fun x => Acceptable x ∧ x.Backed := by
    rw [server_after]
    exact backed_after hclean
  exact ⟨x, hx, fun frame hsent hcontrol => verifyS2c_frame (hacceptable _ x hx).1.frames hparams hsent hcontrol⟩

/-- The device has accepted a command and connects again. -/
def returnRun : List WorldStep := script sampleConfig (start 0 sampleSimulator)
  (handshake 0 (py "fon-1") 0 [9] [7] ++
    [fun _ => .server (.api (py "fon-1") sampleCommand), toDevice 0 0, fun _ => .device .stop])

def returnHandshake : List WorldStep :=
  script sampleConfig (after sampleConfig 0 sampleSimulator returnRun) (handshake 1 (py "fon-1") 0 [8] [6])

/-- The first command of the second session has the number of the command of the first. -/
theorem handshake_delivers_sample :
    ∃ x, (after sampleConfig 0 sampleSimulator
        (returnRun ++ returnHandshake ++ [.server (.api (py "fon-1") sampleCommand)])).server.conns 1 = some x ∧
      (x.link.sent.filter fun frame => isControlFrame frame).map frameSeq = [1] ∧
      ∀ frame ∈ x.link.sent, isControlFrame frame = true →
        ((after sampleConfig 0 sampleSimulator (returnRun ++ returnHandshake ++
          [.server (.api (py "fon-1") sampleCommand)])).device.verifyS2c frame).2 = .ok false := by
  have hback : (after sampleConfig 0 sampleSimulator returnRun).device.rx = .offline ∧
      (after sampleConfig 0 sampleSimulator returnRun).server.nextConn = 1 ∧
      sampleDevice.keyFor (after sampleConfig 0 sampleSimulator returnRun).device.kid =
        some (after sampleConfig 0 sampleSimulator returnRun).device.key ∧
      (after sampleConfig 0 sampleSimulator returnRun).device.serial.encodes = true ∧
      (after sampleConfig 0 sampleSimulator returnRun).device.kid.encodes = true ∧
      (after sampleConfig 0 sampleSimulator returnRun).device.fwVersion.encodes = true ∧
      otaAnswerable sampleConfig (after sampleConfig 0 sampleSimulator returnRun).device.deviceId
        (after sampleConfig 0 sampleSimulator returnRun).server.now
        ((after sampleConfig 0 sampleSimulator returnRun).device.otaCheck 0) = true ∧
      State.Along sampleConfig cleanBodies 0 (trace sampleConfig 0 sampleSimulator
        (returnRun ++ returnHandshake ++ [.server (.api (py "fon-1") sampleCommand)])) ∧
      ((after sampleConfig 0 sampleSimulator (returnRun ++ returnHandshake ++
        [.server (.api (py "fon-1") sampleCommand)])).server.conns 1).all (fun x =>
          (x.link.sent.filter fun frame => isControlFrame frame).map frameSeq = [1]) = true ∧
      (after sampleConfig 0 sampleSimulator (returnRun ++ returnHandshake ++
        [.server (.api (py "fon-1") sampleCommand)])).device.s2cReplay.last = 1 := by decide +kernel
  obtain ⟨hoff, hnext, hkey, hserial, hkid, hversion, hanswer, hclean, hnumbers, hlast⟩ := hback
  have hid := device_after sampleConfig 0 sampleSimulator returnRun
  have hhs : returnHandshake = script sampleConfig (after sampleConfig 0 sampleSimulator returnRun)
      (handshake (after sampleConfig 0 sampleSimulator returnRun).server.nextConn
        (after sampleConfig 0 sampleSimulator returnRun).device.deviceId 0 [8] [6]) := by
    rw [hnext, hid]
    rfl
  have hdevice : sampleConfig.registry.get (after sampleConfig 0 sampleSimulator returnRun).device.deviceId =
      some sampleDevice := by
    rw [hid]
    rfl
  obtain ⟨-, h⟩ := handshake_delivers sampleConfig 0 sampleSimulator returnRun rfl 0 [8] [6] hoff hdevice hkey
    ⟨by rw [hid]; rfl, hserial, hkid, hversion⟩ hanswer hhs
  rw [hnext] at h
  obtain ⟨x, hx, hframes⟩ := h [.server (.api (py "fon-1") sampleCommand)] hclean (by simp)
  rw [hx] at hnumbers
  have hnumbers : (x.link.sent.filter fun frame => isControlFrame frame).map frameSeq = [1] := by
    simpa using hnumbers
  refine ⟨x, hx, hnumbers, fun frame hsent hcontrol => (hframes frame hsent hcontrol).trans ?_⟩
  have hseq : frameSeq frame ∈ [1] := by
    rw [← hnumbers]
    exact List.mem_map_of_mem (List.mem_filter.mpr ⟨hsent, hcontrol⟩)
  rw [List.mem_singleton.mp hseq, hlast]
  rfl

end World

end Fountainer
