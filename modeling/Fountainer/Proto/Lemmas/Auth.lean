import Fountainer.Library.Framing
import Fountainer.Proto.Auth
import Fountainer.Python.Lemmas.Dict
import Fountainer.Python.Lemmas.Text

/-!
# Signing and checking agree

A message that `sign` has completed passes `verify` under the same session parameters, and the MAC
input of clean fields determines the fields.
-/

namespace Fountainer

theorem ok_of_bind {α β : Type} {x : Except PyErr α} {f : α → Except PyErr β} {b : β}
    (h : (x >>= f) = .ok b) : ∃ a, x = .ok a ∧ f a = .ok b := by
  match x, h with
  | .ok a, h => exact ⟨a, rfl, h⟩

theorem ok_of_map {α β : Type} {x : Except PyErr α} {f : α → β} {b : β}
    (h : x.map f = .ok b) : ∃ a, x = .ok a ∧ f a = b := by
  match x, h with
  | .ok a, h => exact ⟨a, rfl, by injection h⟩

/-! ## The MAC input -/

/-- Fields that contain no separator. -/
def MacFields.Clean (f : MacFields) : Prop := ∀ t ∈ f.toList, Str.Clean t

instance (f : MacFields) : Decidable f.Clean := inferInstanceAs (Decidable (∀ t ∈ _, _))

theorem MacFields.toList_inj {f g : MacFields} (h : f.toList = g.toList) : f = g := by
  cases f
  cases g
  simpa [MacFields.toList] using h

theorem encodeAll_length {ts : List Str} {bs : List Bytes} (h : encodeAll ts = .ok bs) :
    bs.length = ts.length := by
  induction ts generalizing bs with
  | nil => cases h; rfl
  | cons t ts ih =>
      obtain ⟨b, -, h⟩ := ok_of_bind h
      obtain ⟨bs', hbs, h⟩ := ok_of_bind h
      cases h
      simp [ih hbs]

theorem encodeAll_clean {ts : List Str} {bs : List Bytes} (h : encodeAll ts = .ok bs)
    (hts : ∀ t ∈ ts, Str.Clean t) : ∀ b ∈ bs, Framing.Clean unitSep b := by
  induction ts generalizing bs with
  | nil => cases h; simp
  | cons t ts ih =>
      obtain ⟨b, hb, h⟩ := ok_of_bind h
      obtain ⟨bs', hbs, h⟩ := ok_of_bind h
      cases h
      intro x hx
      rcases List.mem_cons.mp hx with rfl | hx
      · exact (hts t List.mem_cons_self).encode hb
      · exact ih hbs (fun u hu => hts u (List.mem_cons_of_mem _ hu)) x hx

theorem encodeAll_inj {ts us : List Str} {bs : List Bytes} (ht : encodeAll ts = .ok bs)
    (hu : encodeAll us = .ok bs) : ts = us := by
  induction ts generalizing us bs with
  | nil =>
      cases ht
      exact (List.length_eq_zero_iff.mp (encodeAll_length hu).symm).symm
  | cons t ts ih =>
      obtain ⟨b, hb, ht⟩ := ok_of_bind ht
      obtain ⟨bs', hbs, ht⟩ := ok_of_bind ht
      cases ht
      cases us with
      | nil => cases hu
      | cons u us =>
          obtain ⟨b', hb', hu⟩ := ok_of_bind hu
          obtain ⟨bs'', hbs', hu⟩ := ok_of_bind hu
          cases hu
          rw [Str.encode_inj hb hb', ih hbs hbs']

/-- The MAC input of clean fields has no other reading as thirteen fields. -/
theorem macInput_inj {f g : MacFields} {raw : Bytes} (hclean : f.Clean)
    (hf : macInput f = .ok raw) (hg : macInput g = .ok raw) : f = g := by
  obtain ⟨xs, hxs, hf⟩ := ok_of_bind hf
  obtain ⟨ys, hys, hg⟩ := ok_of_bind hg
  cases hf
  have hlen : xs.length = ys.length := by
    rw [encodeAll_length hxs, encodeAll_length hys]
    rfl
  have hjoin : Framing.join unitSep xs = Framing.join unitSep ys := by
    injection hg with hg
    exact hg.symm
  have hxy := Framing.join_inj (encodeAll_clean hxs hclean) hlen hjoin
  exact MacFields.toList_inj (encodeAll_inj hxs (hxy ▸ hys))

/-! ## From `sign` to `verify` -/

theorem computeMac_ascii (key raw : Bytes) : ∀ c ∈ computeMac key raw, c.ord < 0x80 := by
  intro c hc
  obtain ⟨x, hx, rfl⟩ := List.mem_map.mp hc
  exact (base64_ascii _ x hx).2

theorem compareDigest_self {t : Str} (h : ∀ c ∈ t, c.ord < 0x80) : compareDigest t t = .ok true := by
  have hall : (t ++ t).all (fun c => c.ord < 0x80) = true := by
    simp only [List.all_append, Bool.and_self, List.all_eq_true, decide_eq_true_eq]
    exact h
  simp [compareDigest, hall]

theorem canonicalBody_set_auth (msg : Dict) (v : Json) :
    canonicalBody (msg.set (py "auth") v) = canonicalBody msg := by
  have h := filter_setKey (d := msg) (k := py "auth") (v := v)
    (p := fun k => decide (k ∉ envelopeFields)) (by decide)
  unfold canonicalBody
  rw [h]

theorem messageFields_set_auth (p : AuthParams) (msg : Dict) (v kid seq : Json) :
    messageFields p (msg.set (py "auth") v) kid seq = messageFields p msg kid seq := by
  simp only [messageFields, bodyHashHex, canonicalBody_set_auth]
  rw [Dict.item_set_of_ne (by decide), Dict.item_set_of_ne (by decide),
    Dict.item_set_of_ne (by decide), Dict.get_set_of_ne (by decide),
    Dict.get_set_of_ne (by decide), Dict.get_set_of_ne (by decide)]

theorem signInput_eq_ok {p : AuthParams} {msg : Dict} {seq : Int} {x : Signed}
    (h : signInput p msg seq = .ok x) :
    messageFields p msg (optText p.kid) (.int seq) = .ok x.fields ∧
      macInput x.fields = .ok x.raw ∧ p.authKey = some x.key := by
  obtain ⟨f, hf, h⟩ := ok_of_bind h
  obtain ⟨raw, hraw, h⟩ := ok_of_bind h
  cases hkey : p.authKey with
  | none => rw [hkey] at h; cases h
  | some key =>
      rw [hkey] at h
      cases h
      exact ⟨hf, hraw, rfl⟩

theorem sign_eq_ok {p : AuthParams} {msg frame : Dict} {seq : Int}
    (h : sign p msg seq = .ok frame) :
    ∃ x, signInput p msg seq = .ok x ∧
      frame = msg.set (py "auth") (authObject (optText p.kid) seq (computeMac x.key x.raw)) := by
  obtain ⟨x, hx, h⟩ := ok_of_bind h
  cases h
  exact ⟨x, hx, rfl⟩

/-- The fields of `messageFields`, one by one. -/
theorem messageFields_eq_ok {p : AuthParams} {msg : Dict} {kid seq : Json} {f : MacFields}
    (h : messageFields p msg kid seq = .ok f) :
    ∃ v mtype ts bhash,
      msg.item (py "v") = .ok v ∧ msg.item (py "type") = .ok mtype ∧
      msg.item (py "ts") = .ok ts ∧ bodyHashHex msg = .ok bhash ∧
      f.v = v.toStr ∧ mtype.text = .ok f.mtype ∧ f.direction = p.direction.text ∧
      f.deviceId = p.deviceId ∧ (msg.get (py "serial")).textOrEmpty = .ok f.serial ∧
      f.ts = ts.toStr ∧ (msg.get (py "msg_id")).textOrEmpty = .ok f.msgId ∧
      (msg.get (py "in_reply_to")).textOrEmpty = .ok f.inReplyTo ∧ kid.text = .ok f.kid ∧
      f.seq = seq.toStr ∧ f.serverNonce = p.serverNonce ∧
      p.clientNonce.textOrEmpty = .ok f.clientNonce ∧ f.bhash = bhash := by
  obtain ⟨v, hv, h⟩ := ok_of_bind h
  obtain ⟨mtype, hmtype, h⟩ := ok_of_bind h
  obtain ⟨ts, hts, h⟩ := ok_of_bind h
  obtain ⟨bhash, hbhash, h⟩ := ok_of_bind h
  obtain ⟨mtypeText, hmt, h⟩ := ok_of_bind h
  obtain ⟨serial, hserial, h⟩ := ok_of_bind h
  obtain ⟨msgId, hmsgId, h⟩ := ok_of_bind h
  obtain ⟨irt, hirt, h⟩ := ok_of_bind h
  obtain ⟨kidText, hkid, h⟩ := ok_of_bind h
  obtain ⟨cn, hcn, h⟩ := ok_of_bind h
  cases h
  exact ⟨v, mtype, ts, bhash, hv, hmtype, hts, hbhash, rfl, hmt, rfl, rfl, hserial, rfl, hmsgId, hirt,
    hkid, rfl, rfl, hcn, rfl⟩

theorem optText_text {k : Option Str} {t : Str} (h : (optText k).text = .ok t) : k = some t := by
  cases k with
  | none => cases h
  | some s => cases h; rfl

@[simp] theorem get_authObject_kid (kid : Json) (seq : Int) (mac : Str) :
    Dict.get [(py "kid", kid), (py "seq", .int seq), (py "mac", .str mac)] (py "kid") = kid := rfl

/-- A signed message passes the check of the peer with the same session parameters. -/
theorem verify_sign {p : AuthParams} {msg frame : Dict} {seq : Int}
    (h : sign p msg seq = .ok frame) :
    verify p frame = .ok .ok ∧ authSeq frame = .int seq := by
  obtain ⟨x, hx, rfl⟩ := sign_eq_ok h
  obtain ⟨hf, hraw, hkey⟩ := signInput_eq_ok hx
  have hmac := compareDigest_self (computeMac_ascii x.key x.raw)
  have hseq : Dict.get [(py "kid", optText p.kid), (py "seq", .int seq),
      (py "mac", .str (computeMac x.key x.raw))] (py "seq") = .int seq := rfl
  have hitem : Dict.item [(py "kid", optText p.kid), (py "seq", .int seq),
      (py "mac", .str (computeMac x.key x.raw))] (py "kid") = .ok (optText p.kid) := rfl
  have htext : (Dict.getOr [(py "kid", optText p.kid), (py "seq", .int seq),
      (py "mac", .str (computeMac x.key x.raw))] (py "mac") (.str [])).toStr
      = computeMac x.key x.raw := rfl
  constructor
  · unfold verify
    rw [Dict.get_set_self]
    simp only [authObject, get_authObject_kid, ne_eq, not_true_eq_false, if_false, hseq, Json.asInt,
      reduceCtorEq, hitem, htext]
    have hfields : messageFields p (msg.set (py "auth") (authObject (optText p.kid) seq
        (computeMac x.key x.raw))) (optText p.kid) (.int seq) = .ok x.fields := by
      rw [messageFields_set_auth, hf]
    simp only [authObject] at hfields
    simp only [bind, Except.bind, hfields, hraw, hkey, hmac, if_true]
    rfl
  · unfold authSeq
    rw [Dict.get_set_self]
    exact hseq

end Fountainer
