import Fountainer.Proto.Lemmas.Signing
import Fountainer.Proto.Session
import Fountainer.Python.Lemmas.Canonical

/-!
# Messages that `verify` answers

`verify` raises on a field that cannot go into the MAC input, and on a tag that cannot be compared.
-/

namespace Fountainer

/-- What goes into the MAC is there and has an encoding. -/
structure Signable (msg : Dict) : Prop where
  v : ∃ v, msg.item (py "v") = .ok v ∧ ∀ s, v = .str s → s.encodes = true
  mtype : ∃ s, msg.item (py "type") = .ok (.str s) ∧ s.encodes = true
  ts : ∃ ts, msg.item (py "ts") = .ok ts ∧ ∀ s, ts = .str s → s.encodes = true
  serial : (msg.get (py "serial")).fieldText = true
  msgId : (msg.get (py "msg_id")).fieldText = true
  inReplyTo : (msg.get (py "in_reply_to")).fieldText = true
  body : ∀ kv ∈ msg, kv.1 ∉ envelopeFields → kv.1.encodes = true ∧ kv.2.encodes = true

/-- A message whose MAC is checked has all fields, and an ASCII tag. -/
def Verifiable (p : AuthParams) (msg : Dict) : Prop :=
  ∀ auth, msg.get (py "auth") = .obj auth → Dict.get auth (py "kid") = optText p.kid →
    (Dict.get auth (py "seq")).asInt.isSome = true →
    p.Ready ∧ Signable msg ∧ ∀ c ∈ (Dict.getOr auth (py "mac") (.str [])).toStr, c.ord < 0x80

/-- The message carries the MAC of its own fields, for the kid of the session. -/
def Genuine (p : AuthParams) (msg : Dict) : Prop :=
  (∃ auth, msg.get (py "auth") = .obj auth ∧ Dict.get auth (py "kid") = optText p.kid ∧
    (Dict.get auth (py "seq")).asInt.isSome = true) ∧
  ∃ z, verifyInput p msg = .ok z ∧ msgMac msg = computeMac z.key z.raw

/-- The message is a session proof: it is genuine and its sequence number is fresh. -/
def DeviceSession.Proves (s : DeviceSession) (d : Dict) : Prop :=
  Genuine (s.params .c2s) d ∧ ∃ n, (authSeq d).asInt = some n ∧ s.replay.last < n

/-! ## The MAC input -/

theorem canonicalBody_isOk (msg : Dict) : (canonicalBody msg).isOk = true ↔
    ∀ kv ∈ msg, kv.1 ∉ envelopeFields → kv.1.encodes = true ∧ kv.2.encodes = true := by
  have h := Json.dumps_encodes_iff (.obj (msg.filter fun kv => kv.1 ∉ envelopeFields))
  rw [Json.encodes, Json.encodesFields_iff] at h
  refine h.trans (forall_congr' fun kv => ?_)
  simp [List.mem_filter]

theorem toStr_seq_encodes {seq : Json} (h : seq.asInt.isSome = true) : seq.toStr.encodes = true := by
  refine Json.toStr_encodes.mpr fun s hs => ?_
  rw [hs] at h
  cases h

/-- The MAC input of a message exists exactly when its fields and the session parameters have encodings. -/
theorem messageFields_encode (msg : Dict) {p : AuthParams} {kid : Str} (hkid : p.kid = some kid) {seq : Json}
    (hseq : seq.asInt.isSome = true) {key : Bytes} (hkey : p.authKey = some key) :
    (∃ f, messageFields p msg (.str kid) seq = .ok f ∧ ∀ t ∈ f.toList, t.encodes = true) ↔
      p.Ready ∧ Signable msg := by
  constructor
  · rintro ⟨f, hf, hall⟩
    obtain ⟨v, mtype, ts, bhash, hv, ht, hts, hhash, fv, ft, -, fd, fserial, fts, fmsgId, firt, fk, -, fsn, fcn, -⟩ :=
      messageFields_eq_ok hf
    simp only [MacFields.toList, List.forall_mem_cons] at hall
    obtain ⟨ev, et, -, ed, es, ets, em, ei, ek, -, esn, ecn, -, -⟩ := hall
    obtain ⟨b, hb, -⟩ := ok_of_bind hhash
    cases mtype <;> cases ft
    cases fk
    refine ⟨⟨⟨key, hkey⟩, ⟨_, hkid, ek⟩, fd ▸ ed, fsn ▸ esn, fieldText_iff.mpr ⟨_, fcn, ecn⟩⟩, ?_⟩
    exact ⟨⟨v, hv, Json.toStr_encodes.mp (fv ▸ ev)⟩, ⟨_, ht, et⟩, ⟨ts, hts, Json.toStr_encodes.mp (fts ▸ ets)⟩,
      fieldText_iff.mpr ⟨_, fserial, es⟩, fieldText_iff.mpr ⟨_, fmsgId, em⟩, fieldText_iff.mpr ⟨_, firt, ei⟩,
      (canonicalBody_isOk msg).mp (isOk_iff.mpr ⟨b, hb⟩)⟩
  · rintro ⟨hp, hmsg⟩
    obtain ⟨v, hv, ev⟩ := hmsg.v
    obtain ⟨mtype, ht, et⟩ := hmsg.mtype
    obtain ⟨ts, hts, ets⟩ := hmsg.ts
    obtain ⟨serial, hserial, es⟩ := fieldText_iff.mp hmsg.serial
    obtain ⟨msgId, hmsgId, em⟩ := fieldText_iff.mp hmsg.msgId
    obtain ⟨irt, hirt, ei⟩ := fieldText_iff.mp hmsg.inReplyTo
    obtain ⟨b, hb⟩ := isOk_iff.mp ((canonicalBody_isOk msg).mpr hmsg.body)
    obtain ⟨cn, hcn, ecn⟩ := fieldText_iff.mp hp.clientNonce
    obtain ⟨k, hk, ek⟩ := hp.kid
    cases hkid.symm.trans hk
    let f : MacFields :=
      { v := v.toStr, mtype, direction := p.direction.text, deviceId := p.deviceId, serial, ts := ts.toStr,
        msgId, inReplyTo := irt, kid, seq := seq.toStr, serverNonce := p.serverNonce, clientNonce := cn,
        bhash := sha256Hex b }
    refine ⟨f, ?_, ?_⟩
    · simp only [messageFields, hv, ht, hts, bodyHashHex, hb, macFields, hserial, hmsgId, hirt, hcn, bind,
        Except.bind, pure, Except.pure, Json.text]
      rfl
    · have hdir : p.direction.text.encodes = true := by cases p.direction <;> rfl
      simp only [f, MacFields.toList, List.forall_mem_cons, Json.toStr_encodes.mpr ev, et, hdir, hp.deviceId, es,
        Json.toStr_encodes.mpr ets, em, ei, ek, toStr_seq_encodes hseq, hp.serverNonce, ecn, true_and]
      exact ⟨ofChars_encodes _, by simp⟩

/-! ## `verify` -/

theorem compareDigest_isOk {a b : Str} (h : ∀ c ∈ a, c.ord < 0x80) :
    (compareDigest a b).isOk = true ↔ ∀ c ∈ b, c.ord < 0x80 := by
  have hall : (a ++ b).all (fun c => decide (c.ord < 0x80)) = true ↔ ∀ c ∈ b, c.ord < 0x80 := by
    simp only [List.all_append, Bool.and_eq_true, List.all_eq_true, decide_eq_true_eq]
    exact and_iff_right h
  rw [← hall]
  unfold compareDigest
  split
  · exact iff_of_true rfl ‹_›
  · exact iff_of_false Bool.false_ne_true ‹_›

theorem not_isOk {α : Type} {e : PyErr} : ¬ (Except.error e : Except PyErr α).isOk = true := by
  simp [Except.isOk, Except.toBool]

theorem verify_checked {p : AuthParams} {msg auth : Dict} (hauth : msg.get (py "auth") = .obj auth)
    (hkid : Dict.get auth (py "kid") = optText p.kid) (hseq : (Dict.get auth (py "seq")).asInt.isSome = true) :
    (verify p msg).isOk = true ↔
      p.Ready ∧ Signable msg ∧ ∀ c ∈ (Dict.getOr auth (py "mac") (.str [])).toStr, c.ord < 0x80 := by
  have hno : ¬ (Dict.get auth (py "seq")).asInt = none := by
    intro hnone
    rw [hnone] at hseq
    cases hseq
  unfold verify
  simp only [hauth, hkid, ne_eq, not_true_eq_false, if_false, hno]
  cases hp : p.kid with
  | none =>
      refine iff_of_false ?_ fun h => ?_
      · -- without a kid the field is missing, or it is no text
        intro h
        obtain ⟨r, h⟩ := isOk_iff.mp h
        obtain ⟨kid, hitem, h⟩ := ok_of_bind h
        obtain ⟨f, hf, -⟩ := ok_of_bind h
        obtain ⟨_, _, _, _, -, -, -, -, -, -, -, -, -, -, -, -, fk, -⟩ := messageFields_eq_ok hf
        have hget := Dict.get_of_item hitem
        rw [hkid, hp] at hget
        rw [← hget] at fk
        cases fk
      · obtain ⟨k, hk, -⟩ := h.1.kid
        cases hp.symm.trans hk
  | some kid =>
      have hitem : Dict.item auth (py "kid") = .ok (.str kid) := by
        rw [hp] at hkid
        unfold Dict.item
        unfold Dict.get at hkid
        cases hl : auth.lookup (py "kid") with
        | none =>
            rw [hl] at hkid
            cases hkid
        | some w =>
            rw [hl] at hkid
            exact congrArg Except.ok hkid
      rw [hitem]
      cases hkey : p.authKey with
      | none =>
          refine iff_of_false ?_ fun h => ?_
          · intro h
            obtain ⟨r, h⟩ := isOk_iff.mp h
            obtain ⟨_, -, h⟩ := ok_of_bind h
            obtain ⟨_, -, h⟩ := ok_of_bind h
            obtain ⟨_, -, h⟩ := ok_of_bind h
            cases h
          · obtain ⟨k, hk⟩ := h.1.key
            cases hkey.symm.trans hk
      | some key =>
          have hfields := messageFields_encode msg hp hseq hkey
          rw [← and_assoc, ← hfields]
          simp only [bind, Except.bind]
          cases hf : messageFields p msg (.str kid) (Dict.get auth (py "seq")) with
          | error e =>
              refine iff_of_false not_isOk ?_
              rintro ⟨⟨f, hf', -⟩, -⟩
              cases hf'
          | ok f =>
              cases hraw : macInput f with
              | error e =>
                  refine iff_of_false ?_ ?_
                  · simp only [hraw]
                    exact not_isOk
                  · rintro ⟨⟨f', hf', hall⟩, -⟩
                    cases hf'
                    have hok := macInput_isOk.mpr hall
                    rw [hraw] at hok
                    cases hok
              | ok raw =>
                  have hall := macInput_isOk.mp (isOk_iff.mpr ⟨raw, hraw⟩)
                  rw [and_iff_right ⟨f, rfl, hall⟩, ← compareDigest_isOk (computeMac_ascii key raw)]
                  simp only [hraw]
                  cases compareDigest (computeMac key raw) (Dict.getOr auth (py "mac") (.str [])).toStr with
                  | error e => exact iff_of_false not_isOk not_isOk
                  | ok b => cases b <;> exact iff_of_true rfl rfl

theorem verify_isOk_iff (p : AuthParams) (msg : Dict) : (verify p msg).isOk = true ↔ Verifiable p msg := by
  by_cases h : ∃ auth, msg.get (py "auth") = .obj auth ∧ Dict.get auth (py "kid") = optText p.kid ∧
      (Dict.get auth (py "seq")).asInt.isSome = true
  · obtain ⟨auth, hauth, hkid, hseq⟩ := h
    rw [verify_checked hauth hkid hseq]
    constructor
    · intro h auth' hauth' _ _
      cases hauth.symm.trans hauth'
      exact h
    · exact fun h => h auth hauth hkid hseq
  · refine iff_of_true ?_ fun auth hauth hkid hseq => absurd ⟨auth, hauth, hkid, hseq⟩ h
    unfold verify
    split
    · rename_i auth hauth
      split
      · rfl
      · rename_i hkid
        split
        · rfl
        · rename_i hseq
          exact absurd ⟨auth, hauth, not_not.mp hkid, Option.isSome_iff_ne_none.mpr hseq⟩ h
    · rfl

theorem verify_ok_iff (p : AuthParams) (msg : Dict) : verify p msg = .ok .ok ↔ Genuine p msg := by
  constructor
  · intro h
    obtain ⟨z, hz, -, -, -, hmac⟩ := verify_accepts h
    refine ⟨?_, z, hz, hmac⟩
    unfold verify at h
    split at h
    · rename_i auth hauth
      split at h
      · cases h
      · rename_i hkid
        split at h
        · cases h
        · rename_i hseq
          exact ⟨auth, hauth, not_not.mp hkid, Option.isSome_iff_ne_none.mpr hseq⟩
    · cases h
  · rintro ⟨⟨auth, hauth, hkid, hseq⟩, z, hz, hmac⟩
    have hno : ¬ (Dict.get auth (py "seq")).asInt = none := Option.isSome_iff_ne_none.mp hseq
    unfold msgMac at hmac
    unfold verifyInput at hz
    rw [hauth] at hz hmac
    obtain ⟨_, hdict, hz⟩ := ok_of_bind hz
    cases hdict
    obtain ⟨kid, hitem, hz⟩ := ok_of_bind hz
    obtain ⟨f, hf, hz⟩ := ok_of_bind hz
    obtain ⟨raw, hraw, hz⟩ := ok_of_bind hz
    unfold verify
    simp only [hauth, hkid, ne_eq, not_true_eq_false, if_false, hno, hitem, hf, hraw, bind, Except.bind]
    cases hkey : p.authKey with
    | none =>
        rw [hkey] at hz
        cases hz
    | some key =>
        rw [hkey] at hz
        cases hz
        dsimp only at hmac ⊢
        rw [hmac, compareDigest_self (computeMac_ascii key raw)]
        rfl

/-- `_verify_c2s` accepts exactly the session proofs. -/
theorem DeviceSession.verifyC2s_proves (s : DeviceSession) (d : Dict) :
    (s.verifyC2s d).2 = .ok true ↔ s.Proves d := by
  unfold DeviceSession.Proves
  rw [← verify_ok_iff]
  unfold verifyC2s
  cases hv : verify (s.params .c2s) d with
  | error e => simp
  | ok r =>
      cases r with
      | ok =>
          simp only [AntiReplay.check]
          cases (authSeq d).asInt with
          | none => simp
          | some n =>
              by_cases hn : n ≤ s.replay.last
              · simp [hn]
              · simpa [hn] using Int.not_le.mp hn
      | _ => simp

theorem DeviceSession.verifyC2s_isOk (s : DeviceSession) (d : Dict) :
    (s.verifyC2s d).2.isOk = true ↔ Verifiable (s.params .c2s) d := by
  rw [← verify_isOk_iff]
  unfold verifyC2s
  cases verify (s.params .c2s) d with
  | error e => exact Iff.rfl
  | ok r => cases r <;> exact Iff.rfl

end Fountainer
