import Fountainer.Proto.Lemmas.Signing
import Fountainer.Python.Lemmas.Canonical

/-!
# What a MAC is bound to

The canonical body determines the body fields up to the order of their keys, and the MAC input of fields
without separators determines all thirteen.
-/

namespace Fountainer

/-! ## The body -/

/-- The fields that are not of the envelope (`split_envelope`). -/
def bodyFields (msg : Dict) : Dict := msg.filter fun kv => kv.1 ∉ envelopeFields

theorem bodyFields_decoded {msg : Dict} (h : (Json.obj msg).decoded = true) :
    (Json.obj (bodyFields msg)).decoded = true := by
  obtain ⟨hnodup, hall⟩ := Json.decoded_obj.mp h
  have hsub : (bodyFields msg).Sublist msg := List.filter_sublist
  exact Json.decoded_obj.mpr ⟨hnodup.sublist (hsub.map _), fun kv hkv => hall kv (hsub.subset hkv)⟩

/-- Two messages have the same canonical body exactly when their body fields are the same. -/
theorem canonical_body_faithful {m₁ m₂ : Dict} (h₁ : (Json.obj m₁).decoded = true)
    (h₂ : (Json.obj m₂).decoded = true) :
    (canonicalBody m₁).isOk = true ∧
      (canonicalBody m₁ = canonicalBody m₂ ↔ (Json.obj (bodyFields m₁)).Same (.obj (bodyFields m₂))) := by
  have hd₁ := bodyFields_decoded h₁
  have hd₂ := bodyFields_decoded h₂
  have hok : ∀ m : Dict, (Json.obj (bodyFields m)).decoded = true → (canonicalBody m).isOk = true :=
    fun m hm => Json.dumps_encodes _ hm
  refine ⟨hok m₁ hd₁, fun heq => ?_, fun hsame => ?_⟩
  · obtain ⟨b, hb⟩ := isOk_iff.mp (hok m₁ hd₁)
    have hb₂ : canonicalBody m₂ = .ok b := heq ▸ hb
    unfold canonicalBody at hb hb₂
    have htext : (Json.obj (bodyFields m₁)).dumps = (Json.obj (bodyFields m₂)).dumps := Str.encode_inj hb hb₂
    exact (Json.dumps_reads _ _ hd₁ hd₂ [] [] trivial trivial (by rw [htext])).1
  · have htext := Json.dumps_same _ _ hd₁ hd₂ hsame
    exact congrArg Str.encode htext

def sampleBody : Dict :=
  [(py "v", .int 2), (py "dp", .obj [(py "a", .float (.finite false 1 0)), (py "type", .arr [.null, .str (py "ä\n")])]),
    (py "q", .bool true)]

def sampleReordered : Dict :=
  [(py "q", .bool true), (py "dp", .obj [(py "type", .arr [.null, .str (py "ä\n")]), (py "a", .float (.finite false 1 0))]),
    (py "msg_id", .str (py "m"))]

/-- Other key orders and other envelope fields. -/
theorem canonical_body_faithful_sample : canonicalBody sampleBody = canonicalBody sampleReordered := by
  have hdecoded : (Json.obj sampleBody).decoded = true := by decide +kernel
  have hdecoded' : (Json.obj sampleReordered).decoded = true := by decide +kernel
  have hfaithful := (canonical_body_faithful hdecoded hdecoded').2
  refine hfaithful.mpr ?_
  have hbody : bodyFields sampleBody = sampleBody.tail := by decide +kernel
  have hreordered : bodyFields sampleReordered = sampleReordered.take 2 := by decide +kernel
  rw [hbody, hreordered]
  have hinner : Json.Same (.obj [(py "a", .float (.finite false 1 0)), (py "type", .arr [.null, .str (py "ä\n")])])
      (.obj [(py "type", .arr [.null, .str (py "ä\n")]), (py "a", .float (.finite false 1 0))]) := by
    refine Json.same_obj rfl ?_
    simp only [List.forall_mem_cons]
    exact ⟨⟨_, rfl, by simp [Json.Same, Json.numberText]⟩, ⟨_, rfl, by simp [Json.Same, Json.SameList]⟩, by simp⟩
  refine Json.same_obj rfl ?_
  simp only [sampleBody, List.tail_cons, List.forall_mem_cons]
  exact ⟨⟨_, rfl, hinner⟩, ⟨_, rfl, by simp [Json.Same]⟩, by simp⟩

/-! ## The MAC input -/

/-- The fields are those of a message under the session parameters. -/
structure MacFields.Of (f : MacFields) (p : AuthParams) (msg : Dict) : Prop where
  v : ∃ v, msg.item (py "v") = .ok v ∧ f.v = v.toStr
  mtype : msg.item (py "type") = .ok (.str f.mtype)
  direction : f.direction = p.direction.text
  deviceId : f.deviceId = p.deviceId
  serial : (msg.get (py "serial")).textOrEmpty = .ok f.serial
  ts : ∃ ts, msg.item (py "ts") = .ok ts ∧ f.ts = ts.toStr
  msgId : (msg.get (py "msg_id")).textOrEmpty = .ok f.msgId
  inReplyTo : (msg.get (py "in_reply_to")).textOrEmpty = .ok f.inReplyTo
  kid : p.kid = some f.kid
  seq : f.seq = (authSeq msg).toStr
  serverNonce : f.serverNonce = p.serverNonce
  clientNonce : p.clientNonce.textOrEmpty = .ok f.clientNonce
  bhash : bodyHashHex msg = .ok f.bhash

theorem MacFields.Of.of_messageFields {f : MacFields} {p : AuthParams} {msg : Dict}
    (h : messageFields p msg (optText p.kid) (authSeq msg) = .ok f) : f.Of p msg := by
  obtain ⟨v, mtype, ts, bhash, gv, gtype, gts, ghash, hv, htype, hdir, hdev, hserial, hts, hmsgId, hirt, hkid,
    hseq, hsn, hcn, hb⟩ := messageFields_eq_ok h
  have hmtype : mtype = .str f.mtype := by
    cases mtype with
    | str t => cases htype; rfl
    | _ => cases htype
  exact ⟨⟨v, gv, hv⟩, hmtype ▸ gtype, hdir, hdev, hserial, ⟨ts, gts, hts⟩, hmsgId, hirt, optText_text hkid, hseq, hsn,
    hcn, hb ▸ ghash⟩

/-- The MAC input of fields without separators has no other reading, and a tag computed over it is accepted
only for a message with these fields, or else its check has met a collision of the MAC. -/
theorem honest_mac_binds {f : MacFields} {raw : Bytes} (hclean : f.Clean) (hraw : macInput f = .ok raw) :
    (∀ g, macInput g = .ok raw → f = g) ∧
    ∀ (p : AuthParams) (msg : Dict) (key : Bytes), p.authKey = some key → verify p msg = .ok .ok →
      msgMac msg = computeMac key raw →
      ∃ z, verifyInput p msg = .ok z ∧
        (f.Of p msg ∨ z.raw ≠ raw ∧ computeMac key z.raw = computeMac key raw) := by
  refine ⟨fun g hg => macInput_inj hclean hraw hg, fun p msg key hkey hok hmac => ?_⟩
  obtain ⟨z, hz, hfields, hzraw, hzkey, hzmac⟩ := verify_accepts hok
  refine ⟨z, hz, ?_⟩
  by_cases heq : z.raw = raw
  · rw [heq] at hzraw
    rw [← macInput_inj hclean hraw hzraw] at hfields
    exact .inl (.of_messageFields hfields)
  · cases hkey.symm.trans hzkey
    exact .inr ⟨heq, hzmac.symm.trans hmac⟩

def sampleAuth : AuthParams :=
  { authKey := some [1, 2, 3, 4], kid := some (py "k1"), direction := .c2s, deviceId := py "fon-1"
    serverNonce := py "c2Vydmlj", clientNonce := .str (py "n") }

def sampleCheck : Dict := [(py "v", .int 2), (py "type", .str (py "ota_check")), (py "ts", .int 0)]

/-- The tag of a signed message, found again in the message. -/
theorem honest_mac_binds_sample : ∃ x msg, signInput sampleAuth sampleCheck 1 = .ok x ∧
    sign sampleAuth sampleCheck 1 = .ok msg ∧ ∃ z, verifyInput sampleAuth msg = .ok z ∧
      (x.fields.Of sampleAuth msg ∨ z.raw ≠ x.raw ∧ computeMac x.key z.raw = computeMac x.key x.raw) := by
  have hok : (sign sampleAuth sampleCheck 1).isOk = true := by decide +kernel
  obtain ⟨msg, hmsg⟩ := isOk_iff.mp hok
  obtain ⟨x, hx, rfl⟩ := sign_eq_ok hmsg
  obtain ⟨hfields, hraw, hkey⟩ := signInput_eq_ok hx
  have hall : (match signInput sampleAuth sampleCheck 1 with
      | .ok x => decide x.fields.Clean
      | .error _ => false) = true := by decide +kernel
  rw [hx] at hall
  refine ⟨x, _, hx, hmsg, (honest_mac_binds (of_decide_eq_true hall) hraw).2 _ _ _ hkey (verify_sign hmsg).1 ?_⟩
  rw [msgMac, Dict.get_set_self]
  rfl

end Fountainer
