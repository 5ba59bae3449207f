import Fountainer.App.FirmwareHttp
import Fountainer.Peer.Authority

/-!
# Which images the device installs

An image that the device reboots into is, byte for byte, a file of the firmware folder that the server has
offered to this device.
-/

namespace Fountainer

variable {cfg : Config}

/-! ## From the offer to the new version -/

namespace SimulatedDevice

/-- The message is an offer that has been accepted. -/
def Offered (d : SimulatedDevice) (msg : Dict) : Prop :=
  msg.get (py "type") = .str (py "ota_available") ∧ ∃ a ∈ d.accepted, a.frame = msg

/-- The download follows an accepted offer, and only an image that fits the offer is installed; `first` is the
version that the device came with. -/
structure Flashed (first : Json) (d : SimulatedDevice) : Prop where
  offer : ∀ msg, d.rx.offer = some msg → d.Offered msg
  image : ∀ msg data, d.rx = .sending (.flash msg data) → downloadAndVerify msg data = true
  installed : ∀ i ∈ d.installed, d.Offered i.msg ∧ downloadAndVerify i.msg i.data = true
  version : d.fwVersion = (d.installed.getLast?.map fun i => i.msg.get (py "target_version")).getD first

theorem Offered.mono {d d' : SimulatedDevice} {msg : Dict} (h : d.Offered msg)
    (haccepted : d.accepted ⊆ d'.accepted) : d'.Offered msg := by
  obtain ⟨htype, a, ha, rfl⟩ := h
  exact ⟨htype, a, haccepted ha, rfl⟩

theorem Flashed.kept {first : Json} {d d' : SimulatedDevice} (h : Flashed first d)
    (haccepted : d.accepted ⊆ d'.accepted) (hinstalled : d'.installed = d.installed)
    (hversion : d'.fwVersion = d.fwVersion) (hoffer : ∀ msg, d'.rx.offer = some msg → d'.Offered msg)
    (himage : ∀ msg data, d'.rx = .sending (.flash msg data) → downloadAndVerify msg data = true) :
    Flashed first d' := by
  refine ⟨hoffer, himage, fun i hi => ?_, ?_⟩
  · obtain ⟨hi, hok⟩ := h.installed i (hinstalled ▸ hi)
    exact ⟨hi.mono haccepted, hok⟩
  · rw [hversion, hinstalled]
    exact h.version

theorem Flashed.step {first : Json} {d d' : SimulatedDevice} {e : DeviceStep} (h : Flashed first d)
    (hp : d.Progress e d') : Flashed first d' := by
  have hnone : ∀ {rx : RxState}, rx.offer = none → ∀ msg data, rx = .sending (.flash msg data) →
      downloadAndVerify msg data = true := by
    rintro rx hrx msg data rfl
    cases hrx
  cases hp with
  | kept hkept hrx =>
      have hsub : d.accepted ⊆ d'.accepted := fun a ha => hkept.accepted.symm ▸ ha
      rcases hrx with hrx | hrx
      · refine h.kept hsub hkept.installed hkept.fwVersion (fun msg hmsg => ?_) (hnone hrx)
        rw [hrx] at hmsg
        cases hmsg
      · refine h.kept hsub hkept.installed hkept.fwVersion (fun msg hmsg => ?_) fun msg data hdata => ?_
        · rw [hrx] at hmsg
          exact (h.offer msg hmsg).mono hsub
        · rw [hrx] at hdata
          exact h.image msg data hdata
  | accepted hidle htype hhandler hv hn hlt hkept hrx hs =>
      rename_i msg name n
      have hsub : d.accepted ⊆ d'.accepted := fun a ha => by
        rw [hkept.accepted]
        exact List.mem_append_left _ ha
      have hmem : ⟨d.params .s2c, msg⟩ ∈ d'.accepted := by
        rw [hkept.accepted]
        exact List.mem_append_right _ (List.mem_singleton_self _)
      rcases hrx with hrx | ⟨rfl, hrx⟩
      · refine h.kept hsub hkept.installed hkept.fwVersion (fun msg hmsg => ?_) (hnone hrx)
        rw [hrx] at hmsg
        cases hmsg
      · refine h.kept hsub hkept.installed hkept.fwVersion (fun msg' hmsg => ?_) fun msg' data hdata => ?_
        · rw [hrx] at hmsg
          cases hmsg
          exact ⟨htype, _, hmem, rfl⟩
        · rw [hrx] at hdata
          cases hdata
  | downloading hrx =>
      refine h.kept (List.Subset.refl _) rfl rfl (fun msg hmsg => ?_) fun msg data hdata => (by cases hdata)
      cases hmsg
      have hoffer := h.offer
      rw [hrx] at hoffer
      exact hoffer _ rfl
  | downloaded hrx hkept hok hrx' =>
      have hsub : d.accepted ⊆ d'.accepted := fun a ha => hkept.accepted.symm ▸ ha
      refine h.kept hsub hkept.installed hkept.fwVersion (fun msg hmsg => ?_) fun msg data hdata => ?_
      · rw [hrx'] at hmsg
        cases hmsg
        have hoffer := h.offer
        rw [hrx] at hoffer
        exact (hoffer _ rfl).mono hsub
      · rw [hrx'] at hdata
        cases hdata
        exact hok
  | flashed hrx =>
      have hoffer := h.offer
      rw [hrx] at hoffer
      refine ⟨fun msg hmsg => (by cases hmsg), fun msg data hdata => (by cases hdata), fun i hi => ?_, ?_⟩
      · rcases List.mem_append.mp hi with hi | hi
        · exact h.installed i hi
        · rw [List.mem_singleton.mp hi]
          exact ⟨hoffer _ rfl, h.image _ _ hrx⟩
      · rw [List.getLast?_concat]
        rfl

end SimulatedDevice

namespace World

variable {t : Nat} {d : SimulatedDevice} {es : List WorldStep}

theorem flashed_after (cfg : Config) (t : Nat) (d : SimulatedDevice) (es : List WorldStep) :
    (after cfg t d es).device.Flashed d.fwVersion := by
  have hall : Run.Along (step cfg) (fun _ _ => True) (start t d) es :=
    Run.along_of_forall (fun _ _ => trivial) _ es
  refine Run.invariant (P := fun w : World => w.device.Flashed d.fwVersion) ?_ hall ?_
  · intro w e hw _
    cases e with
    | server e => exact hw
    | device e => exact hw.step (w.device.step_progress e)
  · exact ⟨fun msg h => (by cases h), fun msg data h => (by cases h), fun i hi => (by cases hi), rfl⟩

/-! ## The offer of the server -/

/-- The device accepts what step `e` of the server, in state `s`, sends on one of its connections. -/
def SentIn (cfg : Config) (w : World) (s : State) (e : Step) (a : AcceptedFrame) : Prop :=
  ∃ c x frame, s.Sends cfg e c frame ∧ w.server.conns c = some x ∧ x.deviceId = w.device.deviceId ∧
    SameMessage x a frame

/-- An accepted offer is the answer of the server to a device that is not held back, chosen in the step that sends
it. -/
theorem offer_origin (h : Sound cfg t d es)
    (hcalls : ∀ d' call, .api d' call ∈ trace cfg t d es → call.Fields ∧ call.name ≠ py "ota_available")
    {a : AcceptedFrame} (ha : a ∈ (after cfg t d es).device.accepted)
    (htype : a.frame.get (py "type") = .str (py "ota_available")) :
    ∃ before e rest, trace cfg t d es = before ++ e :: rest ∧
      SentIn cfg (after cfg t d es) (State.after cfg t before) e a ∧ cfg.otaHeld d.deviceId = false ∧
      ∃ current im hash, cfg.newerThan (State.after cfg t before).now current = .ok (some im) ∧
        bodyHashHex a.frame = .ok hash ∧
        bodyHashHex (im.otaAvailableBody (cfg.firmwareUrl im.filename) cfg.mandatoryOta) = .ok hash := by
  obtain ⟨origin, hgenuine⟩ := genuine_after h
  obtain ⟨x, hx, hid⟩ := hgenuine.device a ha
  obtain ⟨frame, hframe, hsame⟩ := Matching.exists_of_mem (hgenuine.frames _ x hx)
    (List.mem_filter.mpr ⟨ha, decide_eq_true rfl⟩)
  have hx' := hx
  rw [server_after] at hx'
  obtain ⟨before, e, rest, htrace, hsends, hof⟩ := State.sent_after hx' hframe
  have he : e ∈ trace cfg t d es := by simp [htrace]
  refine ⟨before, e, rest, htrace, ⟨_, x, frame, hsends, hx, hid, hsame⟩, ?_⟩
  rw [device_after] at hid
  have hftype : frame.get (py "type") = .str (py "ota_available") := hsame.type_eq.symm.trans htype
  cases hof with
  | helloAck hack =>
      rw [hack, Json.str.injEq] at hftype
      exact absurd hftype (by decide)
  | call hc hsent =>
      have hcarried := Link.start_carried (hc.fields fun d' call heq => (hcalls d' call (heq ▸ he)).1) hsent
      have hname := hcarried.1.symm.trans hftype
      rw [Json.str.injEq] at hname
      obtain ⟨hash, hhash, hbody⟩ := hsame.body_eq hcarried
      cases hc with
      | otaAvailable hheld him => exact ⟨hid ▸ hheld, _, _, hash, him, hhash, hbody⟩
      | api heq => exact absurd hname (hcalls _ _ (heq ▸ he)).2
      | dpRead | config => exact absurd (show py "dp_read" = _ from hname) (by decide)
      | logRead => exact absurd (show py "log_read" = _ from hname) (by decide)
      | logReadPrev => exact absurd (show py "log_read_prev" = _ from hname) (by decide)
      | logAckPrev => exact absurd (show py "log_ack_prev" = _ from hname) (by decide)
      | historyRead => exact absurd (show py "history_read" = _ from hname) (by decide)
      | otaNone => exact absurd (show py "ota_none" = _ from hname) (by decide)

/-! ## The installed image -/

/-- A frame with the canonical body of an offer has its fields. -/
theorem offer_fields {im : FirmwareImage} {url : Str} {mandatory : Bool} {msg : Dict} {b : Bytes}
    (hkeyed : (Json.obj msg).keyed = true) (hmsg : canonicalBody msg = .ok b)
    (hoffer : canonicalBody (im.otaAvailableBody url mandatory) = .ok b) :
    msg.get (py "target_version") = .str im.version ∧ msg.get (py "size") = .int im.size ∧
      msg.get (py "crc32") = .int im.crc32 ∧ msg.get (py "sha256") = .str im.sha256 := by
  have hkeys : (Json.obj (im.otaAvailableBody url mandatory)).keyed = true := by
    refine Json.keyed_obj.mpr ⟨?_, ?_⟩
    · exact of_decide_eq_true (show decide ([py "target_version", py "url", py "size", py "crc32",
        py "sha256", py "mandatory"] : List Str).Nodup = true from rfl)
    · simp [FirmwareImage.otaAvailableBody, Json.keyed]
  have hget := body_fields rfl hkeys hkeyed hmsg hoffer
  simp only [FirmwareImage.otaAvailableBody, List.append_nil, List.forall_mem_cons, Json.Same] at hget
  obtain ⟨hversion, -, hsize, hcrc, hsha, -⟩ := hget
  exact ⟨hversion, Json.eq_int_of_numberText hsize, Json.eq_int_of_numberText hcrc, hsha⟩

/-- Whatever the network and the download give it, the device only installs images that were the newest of the
firmware folder in the step in which the server offered them to it, unless SHA-256 has a collision there; held back
devices install none, and the version of the device is the one it came with or that of the last image. -/
theorem installed_images_offered (cfg : Config) (t : Nat) (d : SimulatedDevice) (es : List WorldStep)
    (folder : Clock → Folder) (h : Sound cfg t d es)
    (hcalls : ∀ d' call, .api d' call ∈ trace cfg t d es → call.Fields ∧ call.name ≠ py "ota_available")
    (hkeyed : ∀ now msg, .device (.recv now (.json (.obj msg))) ∈ es → (Json.obj msg).keyed = true)
    (hfolder : ∀ now, cfg.newerThan now = newerThan (folder now)) :
    (∀ i ∈ (after cfg t d es).device.installed, ∃ a ∈ (after cfg t d es).device.accepted, a.frame = i.msg ∧
      ∃ before e rest, trace cfg t d es = before ++ e :: rest ∧
        SentIn cfg (after cfg t d es) (State.after cfg t before) e a ∧ cfg.otaHeld d.deviceId = false ∧
        ∃ im content, latest (folder (State.after cfg t before).now) = some im ∧
          (im.filename, content) ∈ folder (State.after cfg t before).now ∧
          (i.msg.get (py "target_version") = .str im.version ∧ i.data = content ∨ Collide i.data content ∨
            ∃ b b', canonicalBody i.msg = .ok b ∧
              canonicalBody (im.otaAvailableBody (cfg.firmwareUrl im.filename) cfg.mandatoryOta) = .ok b' ∧
              Collide b b')) ∧
    (after cfg t d es).device.fwVersion =
      ((after cfg t d es).device.installed.getLast?.map fun i => i.msg.get (py "target_version")).getD
        d.fwVersion := by
  have hflashed := flashed_after cfg t d es
  refine ⟨fun i hi => ?_, hflashed.version⟩
  obtain ⟨⟨htype, a, ha, hmsg⟩, hok⟩ := hflashed.installed i hi
  obtain ⟨now, hreceived⟩ := received_after cfg t d es a ha
  obtain ⟨before, e, rest, htrace, hsent, hheld, current, im, hash, him, hhash, hoffer⟩ :=
    offer_origin h hcalls ha (hmsg ▸ htype)
  rw [hfolder] at him
  obtain ⟨hlatest, content, hmem, hsha⟩ := latest_of_newerThan him
  refine ⟨a, ha, hmsg, before, e, rest, htrace, hsent, hheld, im, content, hlatest, hmem, ?_⟩
  have hkeys := hkeyed now a.frame hreceived
  rw [hmsg] at hhash hkeys
  obtain ⟨b, hb, hbhash⟩ := ok_of_bind hhash
  obtain ⟨b', hb', hbhash'⟩ := ok_of_bind hoffer
  cases hbhash
  rcases eq_or_collide (Except.ok.inj hbhash').symm with rfl | hcollide
  · obtain ⟨hversion, -, -, hsha'⟩ := offer_fields hkeys hb hb'
    have hdata : sha256Hex i.data = sha256Hex content := by
      simp only [SimulatedDevice.downloadAndVerify, hsha', Bool.and_eq_true, decide_eq_true_eq,
        Json.str.injEq] at hok
      exact hok.2.symm.trans hsha
    rcases eq_or_collide hdata with hdata | hcollide
    · exact .inl ⟨hversion, hdata⟩
    · exact .inr (.inl hcollide)
  · exact .inr (.inr ⟨b, b', hb, hb', hcollide⟩)

def updateFolder : Folder := [(py "fountain-2.1.0.bin", [1, 2])]

def updateConfig : Config := { sampleConfig with newerThan := fun _ => newerThan updateFolder }

/-- The handshake of a device with an old version, and its update. -/
def updateRun : List WorldStep := script updateConfig (start 0 sampleSimulator)
  [fun _ => .device (.connect 0 [9]), fun _ => .server (.accept (py "fon-1") [7]), toServer 0,
   fun _ => .server (.resume 0 true), toDevice 0 0, toServer 0, toDevice 0 0,
   fun _ => .device (.sendDone true), fun _ => .device (.downloaded 0 (some [1, 2])),
   fun _ => .device (.sendDone true)]

theorem installed_images_offered_sample :
    (after updateConfig 0 sampleSimulator updateRun).device.installed.length = 1 ∧
      ∀ i ∈ (after updateConfig 0 sampleSimulator updateRun).device.installed,
        ∃ a ∈ (after updateConfig 0 sampleSimulator updateRun).device.accepted, a.frame = i.msg ∧
        ∃ before e rest, trace updateConfig 0 sampleSimulator updateRun = before ++ e :: rest ∧
          SentIn updateConfig (after updateConfig 0 sampleSimulator updateRun)
            (State.after updateConfig 0 before) e a ∧
          updateConfig.otaHeld sampleSimulator.deviceId = false ∧
          ∃ im content, latest updateFolder = some im ∧ (im.filename, content) ∈ updateFolder ∧
            (i.msg.get (py "target_version") = .str im.version ∧ i.data = content ∨ Collide i.data content ∨
              ∃ b b', canonicalBody i.msg = .ok b ∧
                canonicalBody (im.otaAvailableBody (updateConfig.firmwareUrl im.filename)
                  updateConfig.mandatoryOta) = .ok b' ∧ Collide b b') := by
  have hchecks : State.Along updateConfig (fun s e => guarded s e && cleanBodies s e) 0
        (trace updateConfig 0 sampleSimulator updateRun) ∧
      Along updateConfig (fun w e => idealMac w e && devicesSign w e) 0 sampleSimulator updateRun ∧
      ((trace updateConfig 0 sampleSimulator updateRun).all fun e => (apiCall e).isNone) = true ∧
      (updateRun.all fun e => (received e).all fun msg => (Json.obj msg).keyed) = true ∧
      (after updateConfig 0 sampleSimulator updateRun).device.installed.length = 1 := by decide +kernel
  obtain ⟨hserver, hdevice, hcalls, hkeyed, hinstalled⟩ := hchecks
  have h := installed_images_offered updateConfig 0 sampleSimulator updateRun (fun _ => updateFolder)
    (.of_checks hserver hdevice) (fun d call hmem => absurd hmem (not_called hcalls d call))
    (fun now msg hmem => List.all_eq_true.mp hkeyed _ hmem) (fun _ => rfl)
  exact ⟨hinstalled, h.1⟩

end World

end Fountainer
