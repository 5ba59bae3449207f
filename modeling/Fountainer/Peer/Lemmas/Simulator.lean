import Fountainer.Peer.Simulator
import Fountainer.Proto.Lemmas.Session
import Fountainer.Proto.Peer

/-!
# What a step of the device does

Which frames a step accepts, and what becomes of an offered image.
-/

namespace Fountainer

/-- The offer that the receive loop works on. -/
def RxState.offer : RxState → Option Dict
  | .sending (.download msg) | .downloading msg | .sending (.flash msg _) => some msg
  | _ => none

namespace SimulatedDevice

/-- The two devices agree on everything that depends on verified frames; `d'` has sent what `d` has. -/
structure Kept (d d' : SimulatedDevice) : Prop where
  deviceId : d'.deviceId = d.deviceId
  key : d'.key = d.key
  s2cReplay : d'.s2cReplay = d.s2cReplay
  accepted : d'.accepted = d.accepted
  installed : d'.installed = d.installed
  fwVersion : d'.fwVersion = d.fwVersion
  sent : d.sent ⊆ d'.sent

theorem Kept.refl (d : SimulatedDevice) : Kept d d := ⟨rfl, rfl, rfl, rfl, rfl, rfl, List.Subset.refl _⟩

theorem Kept.rx {d d' : SimulatedDevice} (h : Kept d d') (rx : RxState) : Kept d { d' with rx } :=
  ⟨h.deviceId, h.key, h.s2cReplay, h.accepted, h.installed, h.fwVersion, h.sent⟩

theorem Kept.prevAcked {d d' : SimulatedDevice} (h : Kept d d') (prevAcked : Bool) :
    Kept d { d' with prevAcked } :=
  ⟨h.deviceId, h.key, h.s2cReplay, h.accepted, h.installed, h.fwVersion, h.sent⟩

theorem Kept.seq {d d' : SimulatedDevice} (h : Kept d d') (seq : Nat) : Kept d { d' with seq } :=
  ⟨h.deviceId, h.key, h.s2cReplay, h.accepted, h.installed, h.fwVersion, h.sent⟩

theorem Kept.transmit {d d' : SimulatedDevice} (h : Kept d d') (frame : Dict) (next : AfterSend) :
    Kept d (d'.transmit frame next) :=
  ⟨h.deviceId, h.key, h.s2cReplay, h.accepted, h.installed, h.fwVersion,
    List.Subset.trans h.sent (List.subset_append_left ..)⟩

/-- The two devices are in one session. -/
structure SameSession (d d' : SimulatedDevice) : Prop where
  params : d'.params .s2c = d.params .s2c
  rx : d'.rx ≠ .handshake

theorem SameSession.idle {d : SimulatedDevice} (hidle : d.rx = .idle) : SameSession d d :=
  ⟨rfl, by simp [hidle]⟩

/-! ## Verification -/

/-- The device after the frame `msg` with the sequence number `n` has been accepted. -/
def accept (d : SimulatedDevice) (msg : Dict) (n : Int) : SimulatedDevice :=
  { d with s2cReplay := ⟨n⟩, accepted := d.accepted ++ [⟨d.params .s2c, msg⟩] }

/-- The outcomes of `_verify_s2c`. -/
inductive VerifyCase (d : SimulatedDevice) (msg : Dict) : SimulatedDevice → Except PyErr Bool → Prop
  | raised (e : PyErr) : VerifyCase d msg d (.error e)
  | rejected : VerifyCase d msg d (.ok false)
  | accepted {n : Int} (hv : verify (d.params .s2c) msg = .ok .ok) (hn : (authSeq msg).asInt = some n)
      (hlt : d.s2cReplay.last < n) : VerifyCase d msg (d.accept msg n) (.ok true)

theorem verifyS2c_cases (d : SimulatedDevice) (msg : Dict) :
    VerifyCase d msg (d.verifyS2c msg).1 (d.verifyS2c msg).2 := by
  unfold verifyS2c
  split
  · exact .raised _
  · rename_i hv
    cases hc : d.s2cReplay.check (authSeq msg) with
    | mk r fresh =>
        rcases DeviceSession.check_eq hc with ⟨rfl, rfl⟩ | ⟨rfl, n, hn, hlt, rfl⟩
        · exact .rejected
        · exact .accepted hv hn hlt
  · exact .rejected

/-! ## Handlers -/

/-- What a handler makes of the frame `msg` with the type `name`. -/
inductive Handled (d : SimulatedDevice) (name : Str) (msg : Dict) (d' : SimulatedDevice) : Prop
  | kept (h : Kept d d') (hrx : d'.rx.offer = none) (hs : SameSession d d')
  | accepted {n : Int} (hv : verify (d.params .s2c) msg = .ok .ok) (hn : (authSeq msg).asInt = some n)
      (hlt : d.s2cReplay.last < n) (h : Kept (d.accept msg n) d')
      (hrx : d'.rx.offer = none ∨ name = py "ota_available" ∧ d'.rx = .sending (.download msg))
      (hs : SameSession d d')

variable {d : SimulatedDevice} {now : Clock} {msg : Dict}

theorem ifSigned_handled {name : Str} {answer : SimulatedDevice → SimulatedDevice} (hidle : d.rx = .idle)
    (h : ∀ d, Kept d (answer d) ∧ (answer d).rx.offer = none ∧ SameSession d (answer d)) :
    Handled d name msg (d.ifSigned msg answer) := by
  have hv := d.verifyS2c_cases msg
  unfold ifSigned
  generalize d.verifyS2c msg = out at hv ⊢
  obtain ⟨d', r⟩ := out
  cases hv with
  | raised e => exact .kept ((Kept.refl _).rx _) rfl ⟨rfl, by simp⟩
  | rejected => exact .kept (.refl _) (by rw [hidle]; rfl) (.idle hidle)
  | accepted hv hn hlt =>
      obtain ⟨hkept, hrx, hs⟩ := h (d.accept msg _)
      exact .accepted hv hn hlt hkept (.inl hrx) ⟨hs.params, hs.rx⟩

theorem replyTo_kept {d d' : SimulatedDevice} (h : Kept d d') (now : Clock) (name : Str) (msg body : Dict) :
    Kept d (d'.replyTo now name msg body) ∧ (d'.replyTo now name msg body).rx.offer = none ∧
      SameSession d' (d'.replyTo now name msg body) :=
  ⟨h.transmit _ _, rfl, rfl, by simp [replyTo, transmit]⟩

theorem handleOtaAvailable_handled (hidle : d.rx = .idle) :
    Handled d (py "ota_available") msg (d.handleOtaAvailable now msg) := by
  have hv := d.verifyS2c_cases msg
  unfold handleOtaAvailable
  generalize d.verifyS2c msg = out at hv ⊢
  obtain ⟨d', r⟩ := out
  cases hv with
  | raised e => exact .kept ((Kept.refl _).rx _) rfl ⟨rfl, by simp⟩
  | rejected => exact .kept (.refl _) (by rw [hidle]; rfl) (.idle hidle)
  | accepted hv hn hlt =>
      exact .accepted hv hn hlt ((Kept.refl _).transmit _ _) (.inr ⟨rfl, rfl⟩) ⟨rfl, by simp [transmit]⟩

theorem handleCommand_handled {name : Str} : Handled d name msg (d.handleCommand now msg) := by
  have hv := d.verifyS2c_cases msg
  unfold handleCommand
  generalize d.verifyS2c msg = out at hv ⊢
  obtain ⟨d', r⟩ := out
  cases hv with
  | raised e => exact .kept ((Kept.refl _).rx _) rfl ⟨rfl, by simp⟩
  | rejected =>
      exact .kept (replyTo_kept (.refl _) _ _ _ _).1 rfl (replyTo_kept (.refl _) _ _ _ _).2.2
  | accepted hv hn hlt =>
      obtain ⟨hkept, hrx, hs⟩ := replyTo_kept (.refl (d.accept msg _)) ..
      exact .accepted hv hn hlt hkept (.inl hrx) ⟨hs.params, hs.rx⟩

theorem handleDpWrite_handled {name : Str} : Handled d name msg (d.handleDpWrite now msg) := by
  have hv := d.verifyS2c_cases msg
  unfold handleDpWrite
  generalize d.verifyS2c msg = out at hv ⊢
  obtain ⟨d', r⟩ := out
  cases hv with
  | raised e => exact .kept ((Kept.refl _).rx _) rfl ⟨rfl, by simp⟩
  | rejected =>
      exact .kept (replyTo_kept (.refl _) _ _ _ _).1 rfl (replyTo_kept (.refl _) _ _ _ _).2.2
  | accepted hv hn hlt =>
      obtain ⟨hkept, hrx, hs⟩ := replyTo_kept (.refl (d.accept msg _)) ..
      exact .accepted hv hn hlt hkept (.inl hrx) ⟨hs.params, hs.rx⟩

theorem handleLogRead_handled {name : Str} (hidle : d.rx = .idle) :
    Handled d name msg (d.handleLogRead now msg) := by
  refine ifSigned_handled hidle fun d => ?_
  split
  · exact ⟨(Kept.refl d).rx _, rfl, rfl, by simp⟩
  · exact replyTo_kept (.refl d) ..

theorem handleHistoryRead_handled {name : Str} (hidle : d.rx = .idle) :
    Handled d name msg (d.handleHistoryRead now msg) := by
  refine ifSigned_handled hidle fun d => ?_
  split
  · exact ⟨(Kept.refl d).rx _, rfl, rfl, by simp⟩
  · exact replyTo_kept (.refl d) ..

theorem handleLogReadPrev_handled {name : Str} (hidle : d.rx = .idle) :
    Handled d name msg (d.handleLogReadPrev now msg) := by
  refine ifSigned_handled hidle fun d => ?_
  split
  · exact replyTo_kept (.refl d) ..
  · exact replyTo_kept (.refl d) ..

theorem handleLogAckPrev_handled {name : Str} (hidle : d.rx = .idle) :
    Handled d name msg (d.handleLogAckPrev now msg) := by
  refine ifSigned_handled hidle fun d => ?_
  split
  · exact ⟨(Kept.refl d).rx _, rfl, rfl, by simp⟩
  · dsimp only
    split
    · obtain ⟨hkept, hrx, hs⟩ := replyTo_kept ((Kept.refl d).prevAcked true) ..
      exact ⟨hkept, hrx, hs.params, hs.rx⟩
    · exact replyTo_kept (.refl d) ..

theorem handlers_handled {name : Str} {h : SimulatedDevice → Clock → Dict → SimulatedDevice}
    (hidle : d.rx = .idle) (hmem : (name, h) ∈ handlers) : Handled d name msg (h d now msg) := by
  have hsame : Handled d name msg d := .kept (.refl d) (by rw [hidle]; rfl) (.idle hidle)
  simp only [handlers, List.mem_cons, Prod.mk.injEq, List.not_mem_nil, or_false] at hmem
  rcases hmem with ⟨rfl, rfl⟩ | ⟨rfl, rfl⟩ | ⟨rfl, rfl⟩ | ⟨rfl, rfl⟩ | ⟨rfl, rfl⟩ | ⟨rfl, rfl⟩ | ⟨rfl, rfl⟩ |
    ⟨rfl, rfl⟩ | ⟨rfl, rfl⟩ | ⟨rfl, rfl⟩
  · exact handleOtaAvailable_handled hidle
  · exact hsame
  · exact handleCommand_handled
  · exact handleDpWrite_handled
  · obtain ⟨hkept, hrx, hs⟩ := replyTo_kept ((Kept.refl d).seq (d.seq + 1)) ..
    exact .kept hkept hrx ⟨hs.params, hs.rx⟩
  · exact handleLogRead_handled hidle
  · exact handleLogReadPrev_handled hidle
  · exact handleHistoryRead_handled hidle
  · exact handleLogAckPrev_handled hidle
  · exact hsame

/-! ## Steps -/

/-- What a step does. -/
inductive Progress (d : SimulatedDevice) : DeviceStep → SimulatedDevice → Prop
  | kept {e : DeviceStep} {d' : SimulatedDevice} (h : Kept d d')
      (hrx : d'.rx.offer = none ∨ d'.rx = d.rx)
      (hs : (∃ now rand, e = .connect now rand) ∨ d.rx = .handshake ∨ SameSession d d') : Progress d e d'
  | accepted {now : Clock} {msg : Dict} {name : Str} {d' : SimulatedDevice} {n : Int} (hidle : d.rx = .idle)
      (htype : Dict.get msg (py "type") = .str name) (hhandler : name ∈ handlers.map Prod.fst)
      (hv : verify (d.params .s2c) msg = .ok .ok) (hn : (authSeq msg).asInt = some n)
      (hlt : d.s2cReplay.last < n) (h : Kept (d.accept msg n) d')
      (hrx : d'.rx.offer = none ∨ name = py "ota_available" ∧ d'.rx = .sending (.download msg))
      (hs : SameSession d d') : Progress d (.recv now (.json (.obj msg))) d'
  | downloading {msg : Dict} {ok : Bool} (hrx : d.rx = .sending (.download msg)) :
      Progress d (.sendDone ok) { d with rx := .downloading msg }
  | downloaded {now : Clock} {msg : Dict} {data : Bytes} {d' : SimulatedDevice} (hrx : d.rx = .downloading msg)
      (h : Kept d d') (hok : downloadAndVerify msg data = true) (hrx' : d'.rx = .sending (.flash msg data))
      (hs : SameSession d d') : Progress d (.downloaded now (some data)) d'
  | flashed {msg : Dict} {ok : Bool} {data : Bytes} (hrx : d.rx = .sending (.flash msg data)) :
      Progress d (.sendDone ok) { d with
        fwVersion := msg.get (py "target_version"), rx := .idle
        installed := d.installed ++ [⟨msg, data⟩] }

theorem recvAck_kept (d : SimulatedDevice) (now : Clock) (ack : Dict) :
    Kept d (d.recvAck now ack).1 ∧ (d.recvAck now ack).1.rx.offer = none := by
  have hsent := List.Subset.refl d.sent
  unfold recvAck
  dsimp only
  split
  · exact ⟨⟨rfl, rfl, rfl, rfl, rfl, rfl, hsent⟩, rfl⟩
  · split
    · split
      · split
        · exact ⟨⟨rfl, rfl, rfl, rfl, rfl, rfl, List.subset_append_left ..⟩, rfl⟩
        · exact ⟨⟨rfl, rfl, rfl, rfl, rfl, rfl, hsent⟩, rfl⟩
      · exact ⟨⟨rfl, rfl, rfl, rfl, rfl, rfl, hsent⟩, rfl⟩
    · exact ⟨⟨rfl, rfl, rfl, rfl, rfl, rfl, hsent⟩, rfl⟩

theorem recvMessage_progress (hidle : d.rx = .idle) (frame : Frame) :
    Progress d (.recv now frame) (d.recvMessage now frame) := by
  have hsame : ∀ e, Progress d e d := fun e => .kept (.refl d) (.inr rfl) (.inr (.inr (.idle hidle)))
  have hover : ∀ e, Progress d e { d with rx := .over } := fun e =>
    .kept ((Kept.refl d).rx _) (.inl rfl) (.inr (.inr ⟨rfl, by simp⟩))
  unfold recvMessage
  split
  · exact hsame _
  · rename_i msg
    split
    · rename_i name htype
      split
      · rename_i h hlookup
        have hmem : (name, h) ∈ handlers := mem_of_lookup hlookup
        have hhandler : name ∈ handlers.map Prod.fst := List.mem_map_of_mem hmem
        have hhandled : Handled d name msg (h d now msg) := handlers_handled hidle hmem
        cases hhandled with
        | kept h hrx hs => exact .kept h (.inl hrx) (.inr (.inr hs))
        | accepted hv hn hlt h hrx hs => exact .accepted hidle htype hhandler hv hn hlt h hrx hs
      · exact hsame _
    · split
      · exact hsame _
      · exact hover _
  · exact hover _

theorem step_progress (d : SimulatedDevice) (e : DeviceStep) : Progress d e (d.step e).1 := by
  have hsame : ∀ e, Progress d e d := fun e => by
    by_cases hrx : d.rx = .handshake
    · exact .kept (.refl d) (.inr rfl) (.inr (.inl hrx))
    · exact .kept (.refl d) (.inr rfl) (.inr (.inr ⟨rfl, hrx⟩))
  have hended : ∀ e, Progress d e d.ended := fun e =>
    .kept ⟨rfl, rfl, rfl, rfl, rfl, rfl, List.Subset.refl _⟩ (.inl rfl) (.inr (.inr ⟨rfl, by simp [ended]⟩))
  have hover : ∀ e, Progress d e { d with rx := .over } := fun e =>
    .kept ((Kept.refl d).rx _) (.inl rfl) (.inr (.inr ⟨rfl, by simp⟩))
  have hbeat : ∀ e telemetry sent seq, d.sent ⊆ sent → Progress d e { d with telemetry, sent, seq } := by
    intro e telemetry sent seq hsent
    by_cases hrx : d.rx = .handshake
    · exact .kept ⟨rfl, rfl, rfl, rfl, rfl, rfl, hsent⟩ (.inr rfl) (.inr (.inl hrx))
    · exact .kept ⟨rfl, rfl, rfl, rfl, rfl, rfl, hsent⟩ (.inr rfl) (.inr (.inr ⟨rfl, hrx⟩))
  cases e with
  | connect now rand =>
      dsimp only [step]
      split
      · exact .kept ⟨rfl, rfl, rfl, rfl, rfl, rfl, List.subset_append_left ..⟩ (.inl rfl) (.inl ⟨_, _, rfl⟩)
      · exact hsame _
  | recv now frame =>
      dsimp only [step]
      unfold recv
      split
      · rename_i hrx
        exact .kept (recvAck_kept ..).1 (.inl (recvAck_kept ..).2) (.inr (.inl hrx))
      · rename_i hrx _
        exact .kept ((Kept.refl d).rx _) (.inl rfl) (.inr (.inl hrx))
      · rename_i hidle
        exact recvMessage_progress hidle _
      · exact hsame _
  | sendDone ok =>
      dsimp only [step]
      unfold sendDone
      split
      · rename_i next hrx
        split
        · exact hover _
        · cases next with
          | read => exact .kept ((Kept.refl d).rx _) (.inl rfl) (.inr (.inr ⟨rfl, by simp⟩))
          | download msg => exact .downloading hrx
          | flash msg data => exact .flashed hrx
      · exact hsame _
  | downloaded now data =>
      dsimp only [step]
      split
      · rename_i msg hrx
        unfold downloaded
        dsimp only
        split
        · split
          · rename_i hok
            exact .downloaded hrx ((Kept.refl d).transmit _ _) hok rfl ⟨rfl, by simp [transmit]⟩
          · exact .kept ((Kept.refl d).transmit _ _) (.inl rfl) (.inr (.inr ⟨rfl, by simp [transmit]⟩))
        · exact hover _
      · exact hsame _
  | beat now ok =>
      dsimp only [step]
      unfold beat
      split
      · exact hsame _
      · exact hbeat _ _ _ _ (List.subset_append_left ..)
      · split
        · exact hbeat _ _ _ _ (List.Subset.refl _)
        · exact hbeat _ _ _ _ (List.subset_append_left ..)
      · exact hbeat _ _ _ _ (List.Subset.refl _)
  | lost =>
      dsimp only [step]
      split
      · exact hended _
      · exact hended _
      · exact hsame _
  | stop =>
      dsimp only [step]
      split
      · exact hsame _
      · exact hsame _
      · exact hended _

/-- Only a new connection changes the session. -/
theorem step_session {d : SimulatedDevice} {e : DeviceStep} (hrx : d.rx ≠ .handshake)
    (he : ∀ now rand, e ≠ .connect now rand) : SameSession d (d.step e).1 := by
  have hp := d.step_progress e
  generalize (d.step e).1 = d' at hp
  cases hp with
  | kept h hrx' hs =>
      rcases hs with ⟨now, rand, rfl⟩ | hs | hs
      · exact absurd rfl (he now rand)
      · exact absurd hs hrx
      · exact hs
  | accepted _ _ _ _ _ _ _ _ hs => exact hs
  | downloading => exact ⟨rfl, by simp⟩
  | downloaded _ _ _ _ hs => exact hs
  | flashed => exact ⟨rfl, by simp⟩

theorem Progress.sent {d d' : SimulatedDevice} {e : DeviceStep} (h : Progress d e d') : d.sent ⊆ d'.sent := by
  cases h with
  | kept h => exact h.sent
  | accepted _ _ _ _ _ _ h => exact h.sent
  | downloading => exact List.Subset.refl _
  | downloaded _ h => exact h.sent
  | flashed => exact List.Subset.refl _

theorem Progress.deviceId {d d' : SimulatedDevice} {e : DeviceStep} (h : Progress d e d') :
    d'.deviceId = d.deviceId := by
  cases h with
  | kept h => exact h.deviceId
  | accepted _ _ _ _ _ _ h => exact h.deviceId
  | downloading => rfl
  | downloaded _ h => exact h.deviceId
  | flashed => rfl

/-! ## Sessions -/

/-- What a step signs, and what becomes of the session. -/
inductive Session (d : SimulatedDevice) : DeviceStep → List Signed → SimulatedDevice → Prop
  | kept {e : DeviceStep} {d' : SimulatedDevice} (hparams : d'.params .s2c = d.params .s2c)
      (hrx : d'.rx = .handshake → d.rx = .handshake) (hoff : d.rx = .offline → d'.rx = .offline) : Session d e [] d'
  | opened {now : Clock} {rand : Bytes} (hrx : d.rx = .offline) :
      Session d (.connect now rand) [] (d.connect now rand)
  | failed {e : DeviceStep} {d' : SimulatedDevice} (hrx : d.rx = .handshake)
      (hclient : d'.clientNonce = d.clientNonce) (hrx' : d'.rx = .offline) : Session d e [] d'
  | proven {e : DeviceStep} {now : Clock} {y : Signed} {frame : Dict} {seq : Int} {d' : SimulatedDevice} (hrx : d.rx = .handshake)
      (hclient : d'.clientNonce = d.clientNonce) (hrx' : d'.rx = .idle)
      (hy : signInput (d'.params .c2s) (d.otaCheck now) seq = .ok y)
      (hframe : sign (d'.params .c2s) (d.otaCheck now) seq = .ok frame) (hsent : frame ∈ d'.sent) :
      Session d e [y] d'

theorem recvAck_session {d : SimulatedDevice} (hrx : d.rx = .handshake) (e : DeviceStep) (now : Clock) (ack : Dict) :
    Session d e (d.recvAck now ack).2 (d.recvAck now ack).1 := by
  unfold recvAck
  dsimp only
  split
  · exact .failed hrx rfl rfl
  · split
    · split
      · split
        · rename_i y frame hy hframe
          exact .proven hrx rfl rfl hy hframe (List.mem_append_right _ (List.mem_singleton_self _))
        · exact .failed hrx rfl rfl
      · exact .failed hrx rfl rfl
    · exact .failed hrx rfl rfl

theorem step_signs_session (d : SimulatedDevice) (e : DeviceStep) : Session d e (d.step e).2 (d.step e).1 := by
  have hsame : Session d e [] d := .kept rfl id id
  have hother : ∀ {d' : SimulatedDevice}, d.rx ≠ .offline → SameSession d d' → Session d e [] d' :=
    fun hoff hs => .kept hs.params (fun h => absurd h hs.rx) fun h => absurd h hoff
  cases e with
  | connect now rand =>
      dsimp only [step]
      split
      · rename_i hrx
        exact .opened hrx
      · exact hsame
  | recv now frame =>
      dsimp only [step]
      unfold recv
      split
      · rename_i hrx
        exact recvAck_session hrx _ now _
      · rename_i hrx _
        exact .failed hrx rfl rfl
      · rename_i hidle
        have hs : ∀ frame, SameSession d (d.recvMessage now frame) := fun frame => by
          have hs : SameSession d (d.step (.recv now frame)).1 := step_session (by simp [hidle]) (by simp)
          simpa [step, recv, hidle] using hs
        exact hother (by simp [hidle]) (hs _)
      · exact hsame
  | sendDone ok =>
      dsimp only [step]
      unfold sendDone
      split
      · rename_i next hrx
        have hoff : d.rx ≠ .offline := by simp [hrx]
        split
        · exact hother hoff ⟨rfl, by simp⟩
        · cases next with
          | _ => exact hother hoff ⟨rfl, by simp⟩
      · exact hsame
  | downloaded now data =>
      dsimp only [step]
      split
      · rename_i msg hrx
        have hs : SameSession d (d.step (.downloaded now data)).1 := step_session (by simp [hrx]) (by simp)
        dsimp only [step] at hs
        rw [hrx] at hs
        exact hother (by simp [hrx]) hs
      · exact hsame
  | beat now ok =>
      dsimp only [step]
      unfold beat
      split
      · exact hsame
      · exact .kept rfl id id
      · split <;> exact .kept rfl id id
      · exact .kept rfl id id
  | lost =>
      dsimp only [step]
      split
      · exact .kept rfl (fun h => (by cases h)) fun _ => rfl
      · exact .kept rfl (fun h => (by cases h)) fun _ => rfl
      · exact hsame
  | stop =>
      dsimp only [step]
      split
      · exact hsame
      · exact hsame
      · exact .kept rfl (fun h => (by cases h)) fun _ => rfl

end SimulatedDevice

end Fountainer
