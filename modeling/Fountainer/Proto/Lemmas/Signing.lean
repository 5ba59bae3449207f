import Fountainer.Proto.Lemmas.Auth

/-!
# When signing succeeds

A session whose parameters have gone into an accepted MAC can sign every message of the server whose
body has an encoding.
-/

namespace Fountainer

theorem compareDigest_true {a b : Str} (h : compareDigest a b = .ok true) : a = b := by
  unfold compareDigest at h
  split at h
  · exact of_decide_eq_true (Except.ok.inj h)
  · cases h

/-- What `verify` computes the expected MAC over. -/
def verifyInput (p : AuthParams) (msg : Dict) : Except PyErr Signed := do
  let auth ← (msg.get (py "auth")).asDict
  let kid ← Dict.item auth (py "kid")
  let fields ← messageFields p msg kid (Dict.get auth (py "seq"))
  let raw ← macInput fields
  match p.authKey with
  | some key => return { key, fields, raw }
  | none => .error .typeError

theorem Dict.get_of_item {d : Dict} {k : Str} {v : Json} (h : d.item k = .ok v) : d.get k = v := by
  unfold item at h
  split at h
  · rename_i w hw
    cases h
    exact get_of_lookup hw
  · cases h

/-- The tag of a received message. -/
def msgMac (msg : Dict) : Str :=
  match msg.get (py "auth") with
  | .obj auth => (Dict.getOr auth (py "mac") (.str [])).toStr
  | _ => []

/-- What an accepted message has been checked against. -/
theorem verify_accepts {p : AuthParams} {msg : Dict} (h : verify p msg = .ok .ok) :
    ∃ z, verifyInput p msg = .ok z ∧ messageFields p msg (optText p.kid) (authSeq msg) = .ok z.fields ∧
      macInput z.fields = .ok z.raw ∧ p.authKey = some z.key ∧ msgMac msg = computeMac z.key z.raw := by
  unfold verify at h
  unfold verifyInput authSeq msgMac
  split at h
  · rename_i auth hauth
    rw [hauth]
    split at h
    · cases h
    · rename_i hkid
      split at h
      · cases h
      · obtain ⟨kid, hitem, h⟩ := ok_of_bind h
        obtain ⟨fields, hfields, h⟩ := ok_of_bind h
        obtain ⟨raw, hraw, h⟩ := ok_of_bind h
        have hget := Dict.get_of_item hitem
        rw [not_not.mp hkid] at hget
        cases hkey : p.authKey with
        | none =>
            rw [hkey] at h
            cases h
        | some key =>
            rw [hkey] at h
            obtain ⟨same, hdigest, h⟩ := ok_of_bind h
            have hsame : same = true := by
              cases same with
              | true => rfl
              | false => cases h
            refine ⟨⟨key, fields, raw⟩, ?_, ?_, hraw, rfl, ?_⟩
            · simp only [Json.asDict, hitem, hfields, hraw, bind, Except.bind]
              rfl
            · rw [hget]
              exact hfields
            · exact (compareDigest_true (hsame ▸ hdigest)).symm
  · cases h

/-- The envelope fields of a message that the server builds. -/
theorem buildMessage_fields {name : Str} {body msg : Dict} {msgId : Option Str} {irt : Json} {now : Clock}
    (h : buildMessage name body none msgId irt now = .ok msg)
    (hbody : ∀ k ∈ body.map Prod.fst, k ∉ envelopeFields) :
    (∃ w, msg.item (py "v") = .ok (.int w)) ∧ msg.item (py "type") = .ok (.str name) ∧
      msg.item (py "ts") = .ok (.int now.ms) ∧ msg.get (py "serial") = .null ∧
      msg.get (py "msg_id") = optText msgId ∧ msg.get (py "in_reply_to") = irt := by
  have hnot : ∀ k, k ∈ envelopeFields → k ∉ body.map Prod.fst := fun k hk hmem => hbody k hmem hk
  unfold buildMessage at h
  split at h
  · cases h
  · cases h
    simp only [Dict.item, Dict.get]
    rw [Dict.lookup_update (hnot _ (by decide)), Dict.lookup_update (hnot _ (by decide)),
      Dict.lookup_update (hnot _ (by decide)), Dict.lookup_update (hnot _ (by decide)),
      Dict.lookup_update (hnot _ (by decide)), Dict.lookup_update (hnot _ (by decide))]
    cases msgId with
    | none =>
        by_cases hirt : irt = .null
        · subst hirt
          exact ⟨⟨_, rfl⟩, rfl, rfl, rfl, rfl, rfl⟩
        · simp only [hirt, if_false]
          exact ⟨⟨_, rfl⟩, rfl, rfl, rfl, rfl, rfl⟩
    | some i =>
        by_cases hirt : irt = .null
        · subst hirt
          exact ⟨⟨_, rfl⟩, rfl, rfl, rfl, rfl, rfl⟩
        · simp only [hirt, if_false]
          exact ⟨⟨_, rfl⟩, rfl, rfl, rfl, rfl, rfl⟩

theorem textOrEmpty_cases {x : Json} {t : Str} (h : x.textOrEmpty = .ok t) : x = .str t ∨ t = [] := by
  unfold Json.textOrEmpty Json.or at h
  by_cases hx : x.truthy = true
  · rw [if_pos hx] at h
    cases x with
    | str s => cases h; exact .inl rfl
    | _ => cases h
  · rw [if_neg hx] at h
    cases h
    exact .inr rfl

/-! ## Encodings -/

theorem encodeAll_isOk {ts : List Str} : (encodeAll ts).isOk = true ↔ ∀ t ∈ ts, t.encodes = true := by
  induction ts with
  | nil => simp [encodeAll, Except.isOk, Except.toBool]
  | cons t ts ih =>
      rw [List.forall_mem_cons, ← ih, Str.encodes, encodeAll]
      cases t.encode with
      | error e => simp [bind, Except.bind, Except.isOk, Except.toBool]
      | ok b => cases encodeAll ts <;> simp [bind, Except.bind, Except.isOk, Except.toBool, pure, Except.pure]

theorem macInput_isOk {f : MacFields} : (macInput f).isOk = true ↔ ∀ t ∈ f.toList, t.encodes = true := by
  rw [← encodeAll_isOk, macInput, joinFields]
  cases encodeAll f.toList <;> rfl

/-- A falsy value or a text with an encoding. -/
def Json.fieldText (x : Json) : Bool :=
  match x.textOrEmpty with
  | .ok t => t.encodes
  | .error _ => false

theorem fieldText_iff {x : Json} : x.fieldText = true ↔ ∃ t, x.textOrEmpty = .ok t ∧ t.encodes = true := by
  unfold Json.fieldText
  cases x.textOrEmpty with
  | error e => simp
  | ok t => simp

/-! ## Signing -/

/-- The session parameters are set and have encodings. -/
structure AuthParams.Ready (p : AuthParams) : Prop where
  key : ∃ key, p.authKey = some key
  kid : ∃ kid, p.kid = some kid ∧ kid.encodes = true
  deviceId : p.deviceId.encodes = true
  serverNonce : p.serverNonce.encodes = true
  clientNonce : p.clientNonce.fieldText = true

theorem AuthParams.Ready.of_verify {p : AuthParams} {msg : Dict} (h : verify p msg = .ok .ok) : p.Ready := by
  obtain ⟨z, -, hfields, hraw, hkey, -⟩ := verify_accepts h
  obtain ⟨v, mtype, ts, bhash, -, -, -, -, -, -, -, fid, -, -, -, -, fkid, -, fsn, fcn, -⟩ :=
    messageFields_eq_ok hfields
  have hall : ∀ t ∈ z.fields.toList, t.encodes = true := macInput_isOk.mp (isOk_iff.mpr ⟨_, hraw⟩)
  constructor
  · exact ⟨_, hkey⟩
  · exact ⟨_, optText_text fkid, hall _ (by simp [MacFields.toList])⟩
  · rw [← fid]
    exact hall _ (by simp [MacFields.toList])
  · rw [← fsn]
    exact hall _ (by simp [MacFields.toList])
  · exact fieldText_iff.mpr ⟨_, fcn, hall _ (by simp [MacFields.toList])⟩

theorem AuthParams.Ready.direction {p p' : AuthParams} (h : p.Ready)
    (hp : p' = { p with direction := p'.direction }) : p'.Ready := by
  rw [hp]
  exact ⟨h.key, h.kid, h.deviceId, h.serverNonce, h.clientNonce⟩

theorem sign_isOk {p : AuthParams} (hp : p.Ready) {name : Str} (hname : name.encodes = true) {body msg : Dict}
    {irt : Json} {now : Clock} (hmsg : buildMessage name body none none irt now = .ok msg)
    (hbody : ∀ k ∈ body.map Prod.fst, k ∉ envelopeFields) (seq : Int) :
    (sign p msg seq).isOk = true ↔ (canonicalBody msg).isOk = true ∧ irt.fieldText = true := by
  obtain ⟨⟨w, gv⟩, gtype, gts, gserial, gmsgId, girt⟩ := buildMessage_fields hmsg hbody
  constructor
  · intro h
    obtain ⟨frame, hs⟩ := isOk_iff.mp h
    obtain ⟨x, hx, -⟩ := sign_eq_ok hs
    obtain ⟨hfields, hraw, -⟩ := signInput_eq_ok hx
    obtain ⟨v, mtype, ts, bhash, -, -, -, hhash, -, -, -, -, -, -, -, firt, -⟩ := messageFields_eq_ok hfields
    obtain ⟨b, hb, -⟩ := ok_of_bind hhash
    rw [girt] at firt
    have hall := macInput_isOk.mp (isOk_iff.mpr ⟨_, hraw⟩)
    exact ⟨isOk_iff.mpr ⟨b, hb⟩, fieldText_iff.mpr ⟨_, firt, hall _ (by simp [MacFields.toList])⟩⟩
  · rintro ⟨hcanonical, hirt⟩
    obtain ⟨key, hkey⟩ := hp.key
    obtain ⟨kid, hkid, hkidText⟩ := hp.kid
    obtain ⟨cn, hcn, hcnText⟩ := fieldText_iff.mp hp.clientNonce
    obtain ⟨i, hi, hiText⟩ := fieldText_iff.mp hirt
    obtain ⟨b, hb⟩ := isOk_iff.mp hcanonical
    let f : MacFields :=
      { v := decimal w, mtype := name, direction := p.direction.text, deviceId := p.deviceId,
        serial := [], ts := decimal now.ms, msgId := [], inReplyTo := i, kid, seq := decimal seq,
        serverNonce := p.serverNonce, clientNonce := cn, bhash := sha256Hex b }
    have hfields : messageFields p msg (optText p.kid) (.int seq) = .ok f := by
      have hempty : Json.null.textOrEmpty = .ok [] := rfl
      simp only [messageFields, gv, gtype, gts, bodyHashHex, hb, gserial, gmsgId, girt, macFields, hempty,
        hi, hkid, hcn, bind, Except.bind, pure, Except.pure, Json.text, optText]
      rfl
    have hdir : p.direction.text.encodes = true := by cases p.direction <;> rfl
    have hall : ∀ t ∈ f.toList, t.encodes = true := by
      simp only [f, MacFields.toList, List.forall_mem_cons, decimal_encodes, hname, hdir, hp.deviceId, hiText,
        hkidText, hp.serverNonce, hcnText, true_and]
      exact ⟨rfl, rfl, ofChars_encodes _, by simp⟩
    obtain ⟨raw, hraw⟩ := isOk_iff.mp (macInput_isOk.mpr hall)
    refine isOk_iff.mpr ⟨msg.set (py "auth") (authObject (optText p.kid) seq (computeMac key raw)), ?_⟩
    simp only [sign, signInput, hfields, hraw, hkey, bind, Except.bind, pure, Except.pure]

end Fountainer
