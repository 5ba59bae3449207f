import Fountainer.System.Lemmas.State
import Fountainer.System.Lemmas.Tasks

/-!
# Frames that are processed

`_dispatch` raises exactly on the frames that are not processed.
-/

namespace Fountainer

theorem stampAll_keys (ts : List (Str × Clock)) (now : Clock) (d : Dict) :
    (Shadow.stampAll ts now (d.map fun kv => .str kv.1)).2 = none := by
  induction d generalizing ts with
  | nil => rfl
  | cons kv d ih => exact ih _

theorem dpMerge_obj (st : Shadow) (now : Clock) (d : Dict) : (st.dpMerge now (.obj d)).2 = none := by
  have hkeys := stampAll_keys st.dpTs now d
  simp only [Shadow.dpMerge, Shadow.dictUpdate, Json.iter]
  exact hkeys

theorem onDpReport_err (cfg : Config) (st : Shadow) (now : Clock) (msg : Dict) :
    (onDpReport cfg st now msg).reply = none ∧
      ((onDpReport cfg st now msg).err = none ↔ dpReadable msg = true) := by
  unfold onDpReport dpReadable
  dsimp only
  generalize (Dict.getOr msg (py "dp") (.obj [])).or (.obj []) = dp
  cases hm : st.dpMerge now dp with
  | mk st' e =>
      cases dp with
      | obj d =>
          have he : e = none := (congrArg Prod.snd hm).symm.trans (dpMerge_obj st now d)
          subst he
          cases hh : (Dict.get d (py "Fon_Current_State")).hashable with
          | false => simp [Json.asDict, hh]
          | true =>
              simp only [Json.asDict, hh, Bool.not_true, Bool.false_eq_true, if_false]
              split <;> simp
      | _ => cases e <;> simp [Json.asDict]

theorem send_otaNone (s : DeviceSession) (now : Clock) (irt : Json) :
    (s.send now (py "ota_none") [] irt).2.isOk = true := by
  rfl

theorem canonicalBody_available (im : FirmwareImage) (url : Str) (mandatory : Bool) {irt : Json} {now : Clock}
    {msg : Dict}
    (h : buildMessage (py "ota_available") (im.otaAvailableBody url mandatory) none none irt now = .ok msg) :
    canonicalBody msg = canonicalBody (im.otaAvailableBody url mandatory) := by
  by_cases hirt : irt = .null
  · subst hirt
    cases h
    rfl
  · have hmsg : msg = Dict.update [(py "v", .int 2), (py "type", .str (py "ota_available")),
        (py "ts", .int now.ms), (py "in_reply_to", irt)] (im.otaAvailableBody url mandatory) := by
      simp only [buildMessage, hirt] at h
      cases h
      rfl
    rw [hmsg]
    rfl

theorem send_otaAvailable {s : DeviceSession} (hs : (s.params .s2c).Ready) (now : Clock) (irt : Json)
    (im : FirmwareImage) (url : Str) (mandatory : Bool) :
    (s.send now (py "ota_available") (im.otaAvailableBody url mandatory) irt).2.isOk = true ↔
      (canonicalBody (im.otaAvailableBody url mandatory)).isOk = true ∧ irt.fieldText = true := by
  have hbody : ∀ k ∈ (im.otaAvailableBody url mandatory).map Prod.fst, k ∉ envelopeFields := by
    have : (im.otaAvailableBody url mandatory).map Prod.fst = [py "target_version", py "url", py "size",
      py "crc32", py "sha256", py "mandatory"] := rfl
    rw [this]
    decide
  cases hm : buildMessage (py "ota_available") (im.otaAvailableBody url mandatory) none none irt now with
  | error e => cases hm
  | ok msg =>
      have hsign := sign_isOk hs (by rfl) hm hbody (s.s2cSeq + 1)
      rw [canonicalBody_available im url mandatory hm] at hsign
      rw [← hsign]
      simp only [DeviceSession.send, hm, DeviceSession.signIfNeeded]
      rw [if_pos (by rfl)]

/-! ## One frame -/

namespace State

variable {cfg : Config} {s : State} {c : Nat} {x : Conn}

theorem startOn_isOk (hx : s.conns c = some x) (name : Str) (body : Dict) (irt : Json) :
    (s.startOn c (.send name body irt)).2.isOk = (x.link.session.send s.now name body irt).2.isOk := by
  simp only [startOn, hx, Link.start]
  cases x.link.session.send s.now name body irt with
  | mk session r => cases r <;> rfl

theorem callback_done (hx : s.conns c = some x) (key : Str) (h : Hook) (cause : Cause) (msg : Dict)
    (hreply : (runHook cfg h (s.deviceState x.deviceId) x.link.session s.now msg).reply = none) :
    (s.callback cfg c key h cause msg).2 = .raised ↔
      (runHook cfg h (s.deviceState x.deviceId) x.link.session s.now msg).err ≠ none := by
  simp only [callback, hx, hreply]
  cases (runHook cfg h (s.deviceState x.deviceId) x.link.session s.now msg).err <;> simp

theorem callback_sends (cfg : Config) (hx : s.conns c = some x) (key : Str) (h : Hook) (cause : Cause) (msg : Dict)
    (name : Str) (body : Dict) (irt : Json)
    (herr : (runHook cfg h (s.deviceState x.deviceId) x.link.session s.now msg).err = none)
    (hreply : (runHook cfg h (s.deviceState x.deviceId) x.link.session s.now msg).reply =
      some (.send name body irt)) :
    (s.callback cfg c key h cause msg).2 = .raised ↔
      (x.link.session.send s.now name body irt).2.isOk = false := by
  have hx' : (s.called c x.deviceId key h cause msg
      (runHook cfg h (s.deviceState x.deviceId) x.link.session s.now msg).shadow).conns c = some x := by
    rw [called_conns]
    exact hx
  have hok := startOn_isOk hx' name body irt
  rw [called_now] at hok
  rw [← hok]
  simp only [callback, hx, herr, hreply]
  split
  · rename_i hr
    simp [hr, Except.isOk, Except.toBool]
  · rename_i hr
    simp [hr, Except.isOk, Except.toBool]

/-- A callback raises on what it does not process. -/
theorem callback_raised_iff (cfg : Config) (hx : s.conns c = some x) (hready : (x.link.session.params .s2c).Ready) (key : Str)
    (h : Hook) (cause : Cause) (msg : Dict) :
    (s.callback cfg c key h cause msg).2 = .raised ↔
      h.processes cfg x.link.session.deviceId s.now msg = false := by
  cases h with
  | onDpReport =>
      obtain ⟨hreply, herr⟩ := onDpReport_err cfg (s.deviceState x.deviceId) s.now msg
      rw [callback_done hx key .onDpReport cause msg hreply]
      simp only [runHook, Hook.processes, ne_eq, herr, Bool.not_eq_true]
  | onOtaCheck =>
      have hsends := fun name body =>
        callback_sends cfg hx key .onOtaCheck cause msg name body (msg.get (py "msg_id"))
      simp only [Hook.processes, otaAnswerable]
      cases hheld : cfg.otaHeld x.link.session.deviceId with
      | true =>
          rw [hsends (py "ota_none") [] (by simp [runHook, onOtaCheck, hheld])
            (by simp [runHook, onOtaCheck, hheld]), send_otaNone]
          simp
      | false =>
          cases hnew : cfg.newerThan s.now (Dict.getOr msg (py "current_version") (.str [])) with
          | error e =>
              rw [callback_done hx key .onOtaCheck cause msg (by simp [runHook, onOtaCheck, hheld, hnew])]
              simp [runHook, onOtaCheck, hheld, hnew]
          | ok im =>
              cases im with
              | none =>
                  rw [hsends (py "ota_none") [] (by simp [runHook, onOtaCheck, hheld, hnew])
                    (by simp [runHook, onOtaCheck, hheld, hnew]), send_otaNone]
                  simp
              | some im =>
                  have hoffer := send_otaAvailable hready s.now (msg.get (py "msg_id")) im
                    (cfg.firmwareUrl im.filename) cfg.mandatoryOta
                  rw [hsends (py "ota_available") (im.otaAvailableBody (cfg.firmwareUrl im.filename) cfg.mandatoryOta)
                    (by simp [runHook, onOtaCheck, hheld, hnew]) (by simp [runHook, onOtaCheck, hheld, hnew]),
                    ← Bool.not_eq_true, hoffer]
                  simp
  | onHeartbeat => simp [callback_done hx key .onHeartbeat cause msg rfl, Hook.processes, runHook, onHeartbeat]
  | onAlert => simp [callback_done hx key .onAlert cause msg rfl, Hook.processes, runHook, onAlert]
  | onOtaStatus => simp [callback_done hx key .onOtaStatus cause msg rfl, Hook.processes, runHook, onOtaStatus]
  | onConnect => simp [callback_done hx key .onConnect cause msg rfl, Hook.processes, runHook, onConnect]
  | onDisconnect => simp [callback_done hx key .onDisconnect cause msg rfl, Hook.processes, runHook, onDisconnect]

theorem dispatch_obj (session : DeviceSession) (now : Clock) (callbacks : Str → Bool) (d : Dict) :
    (session.dispatch now callbacks (.obj d)).2 =
      if (d.get (py "in_reply_to")).truthy ∧ !(d.get (py "in_reply_to")).hashable then .error .typeError
      else match DeviceSession.dispatch.pendingOf session (d.get (py "in_reply_to")) with
        | some (i, f) => .ok (.reply i !f.done)
        | none => match Dict.getOr d (py "type") (.str []) with
            | .str name => .ok (if callbacks name then .callback name else .dropped)
            | name => if name.hashable then .ok .dropped else .error .typeError := by
  have hpend : ∀ irt, DeviceSession.dispatch.pendingOf { session with lastRxMs := now.ms } irt
      = DeviceSession.dispatch.pendingOf session irt := fun irt => by cases irt <;> rfl
  simp only [DeviceSession.dispatch, Json.asDict, hpend]
  by_cases hirt : (d.get (py "in_reply_to")).truthy ∧ !(d.get (py "in_reply_to")).hashable
  · simp only [if_pos hirt]
  · simp only [if_neg hirt]
    cases DeviceSession.dispatch.pendingOf session (d.get (py "in_reply_to")) with
    | some e => rfl
    | none => cases Dict.getOr d (py "type") (.str []) <;> rfl

theorem dispatchOn_raised_iff (hx : s.conns c = some x) (hready : (x.link.session.params .s2c).Ready) (d : Dict) :
    (s.dispatchOn cfg c (.obj d)).2 = .raised ↔
      Frame.processed cfg x.link.session s.now (.json (.obj d)) = false := by
  have hstill := Link.dispatch_still x.link s.now (fun k => (callbackFor k).isSome) (.obj d)
  have hresult : (x.link.dispatch s.now (fun k => (callbackFor k).isSome) (.obj d)).2 = _ :=
    dispatch_obj x.link.session s.now (fun k => (callbackFor k).isSome) d
  simp only [dispatchOn, hx, Frame.processed]
  generalize x.link.dispatch s.now (fun k => (callbackFor k).isSome) (.obj d) = out at hstill hresult ⊢
  obtain ⟨l, r⟩ := out
  dsimp only at hstill hresult ⊢
  rw [hresult]
  by_cases hirt : (d.get (py "in_reply_to")).truthy ∧ !(d.get (py "in_reply_to")).hashable
  · rw [if_pos hirt]
    simp [hirt.1, Bool.not_eq_true' _ ▸ hirt.2]
  · rw [if_neg hirt]
    have hguard : (!(d.get (py "in_reply_to")).truthy || (d.get (py "in_reply_to")).hashable) = true := by
      simpa [Bool.or_eq_true, imp_iff_not_or] using hirt
    rw [hguard]
    cases DeviceSession.dispatch.pendingOf x.link.session (d.get (py "in_reply_to")) with
    | some e => simp
    | none =>
        cases ht : Dict.getOr d (py "type") (.str []) with
        | str name =>
            cases hcb : callbackFor name with
            | none => simp [hcb]
            | some h =>
                have hx' : (s.setConn c { x with link := l }).conns c = some { x with link := l } := setConn_self ..
                have hready' : (l.session.params .s2c).Ready := by
                  rw [hstill.params]
                  exact hready
                have hraised := callback_raised_iff cfg hx' hready' name h .dispatched d
                obtain ⟨p, ms, hsession⟩ := hstill.session
                rw [hsession] at hraised
                simpa [hcb, Json.asDict] using hraised
        | _ => simp [Json.hashable]

theorem setPc_self (hx : s.conns c = some x) (pc : Pc) : (s.setPc c pc).conns c = some { x with pc } := by
  simp only [setPc, hx, setConn_self]

end State

end Fountainer
