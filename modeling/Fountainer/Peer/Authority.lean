import Fountainer.Peer.Integrity
import Fountainer.System.Routing

/-!
# Who can make the device act

The commands and datapoint writes that the device carries out are control calls for this device.
-/

namespace Fountainer

variable {cfg : Config}

/-! ## Bodies -/

theorem bodyFields_bodyFields (msg : Dict) : bodyFields (bodyFields msg) = bodyFields msg := by
  simp only [bodyFields, List.filter_filter, Bool.and_self]

theorem bodyHashHex_bodyFields (msg : Dict) : bodyHashHex (bodyFields msg) = bodyHashHex msg := by
  simp only [bodyHashHex, canonicalBody, bodyFields, List.filter_filter, Bool.and_self]

/-- Two byte strings are a collision of SHA-256. -/
def Collide (b b' : Bytes) : Prop := b ≠ b' ∧ sha256Hex b = sha256Hex b'

theorem eq_or_collide {b b' : Bytes} (h : sha256Hex b = sha256Hex b') : b = b' ∨ Collide b b' := by
  by_cases heq : b = b'
  · exact .inl heq
  · exact .inr ⟨heq, h⟩

/-- Two messages with one canonical body have the same fields. -/
theorem same_body {body msg : Dict} {b : Bytes} (hbody : bodyFields body = body)
    (hkeys : (Json.obj body).keyed = true) (hkeyed : (Json.obj msg).keyed = true)
    (hmsg : canonicalBody msg = .ok b) (hcanonical : canonicalBody body = .ok b) :
    (Json.obj body).Same (.obj (bodyFields msg)) := by
  obtain ⟨hnodup, hmembers⟩ := Json.keyed_obj.mp hkeyed
  have hencodes : ∀ m : Dict, canonicalBody m = .ok b → (Json.obj (bodyFields m)).encodes = true :=
    fun m hm => (Json.dumps_encodes_iff _).mp (isOk_iff.mpr ⟨b, hm⟩)
  have hdecoded : (Json.obj body).decoded = true :=
    (Json.decoded_iff _).mpr ⟨hkeys, hbody ▸ hencodes _ hcanonical⟩
  have hdecoded' : (Json.obj (bodyFields msg)).decoded = true := by
    refine (Json.decoded_iff _).mpr ⟨Json.keyed_obj.mpr ⟨?_, ?_⟩, hencodes _ hmsg⟩
    · exact hnodup.sublist (List.filter_sublist.map _)
    · exact fun kv hkv => hmembers kv (List.mem_of_mem_filter hkv)
  have hcanonical' : Str.encode (Json.obj body).dumps = .ok b := by
    conv => lhs; rw [← hbody]
    exact hcanonical
  have htext : (Json.obj body).dumps = (Json.obj (bodyFields msg)).dumps := Str.encode_inj hcanonical' hmsg
  exact (Json.dumps_reads _ _ hdecoded hdecoded' [] [] trivial trivial (by rw [htext])).1

/-- A frame with the canonical body of another message has the fields of that message. -/
theorem body_fields {body msg : Dict} {b : Bytes} (hbody : bodyFields body = body)
    (hkeys : (Json.obj body).keyed = true) (hkeyed : (Json.obj msg).keyed = true)
    (hmsg : canonicalBody msg = .ok b) (hcanonical : canonicalBody body = .ok b) :
    ∀ kv ∈ body, Json.Same kv.2 (msg.get kv.1) := by
  obtain ⟨hnodup, -⟩ := Json.keyed_obj.mp hkeyed
  have hsame := same_body hbody hkeys hkeyed hmsg hcanonical
  rw [Json.Same] at hsame
  obtain ⟨fields, hfields, -, hall⟩ := hsame
  cases hfields
  intro kv hkv
  obtain ⟨w, hw, hsame⟩ := Json.sameFields_iff.mp hall kv hkv
  rw [bodyFields, lookup_filter hnodup, Option.filter_eq_some_iff] at hw
  rw [Dict.get_of_lookup hw.1]
  exact hsame

/-- The accepted frame has the type and the body of the call; only a collision of SHA-256 can stand for its body. -/
structure AcceptedFrame.Executes (a : AcceptedFrame) (call : Call) : Prop where
  type : a.frame.get (py "type") = .str call.name
  body : (Json.obj call.body).Same (.obj (bodyFields a.frame)) ∨
    ∃ b b', canonicalBody call.body = .ok b ∧ canonicalBody a.frame = .ok b' ∧ Collide b b'

theorem SameMessage.type_eq {x : Conn} {a : AcceptedFrame} {frame : Dict} (h : SameMessage x a frame) :
    a.frame.get (py "type") = frame.get (py "type") := by
  obtain ⟨f, hf, hf'⟩ := h.fields
  rw [Dict.get_of_item hf.mtype, Dict.get_of_item hf'.mtype]

/-- The frame of a call and the accepted frame have the same body hash. -/
theorem SameMessage.body_eq {x : Conn} {a : AcceptedFrame} {frame : Dict} {call : Call} (h : SameMessage x a frame)
    (hcall : Carried frame call) : ∃ hash, bodyHashHex a.frame = .ok hash ∧ bodyHashHex call.body = .ok hash := by
  obtain ⟨f, hf, hf'⟩ := h.fields
  refine ⟨f.bhash, hf.bhash, ?_⟩
  rw [← hcall.2, bodyHashHex_bodyFields]
  exact hf'.bhash

theorem SameMessage.executes {x : Conn} {a : AcceptedFrame} {frame : Dict} {call : Call} (h : SameMessage x a frame)
    (hcall : Carried frame call) (hkeys : (Json.obj call.body).keyed = true)
    (hkeyed : (Json.obj a.frame).keyed = true) : a.Executes call := by
  have hbody : bodyFields call.body = call.body := by
    rw [← hcall.2, bodyFields_bodyFields]
  refine ⟨h.type_eq.trans hcall.1, ?_⟩
  obtain ⟨hash, hframe, hcallHash⟩ := h.body_eq hcall
  obtain ⟨b', hb', hbhash'⟩ := ok_of_bind hframe
  obtain ⟨b, hb, hbhash⟩ := ok_of_bind hcallHash
  rcases eq_or_collide (Except.ok.inj (hbhash.trans hbhash'.symm)) with rfl | hcollide
  · exact .inl (same_body hbody hkeys hkeyed hb' hb)
  · exact .inr ⟨b, b', hb, hb', hcollide⟩

theorem SameMessage.isControlCall {x : Conn} {a : AcceptedFrame} {frame : Dict} (h : SameMessage x a frame) :
    Fountainer.isControlCall a.frame = Fountainer.isControlCall frame := by
  rw [Fountainer.isControlCall, h.type_eq, Fountainer.isControlCall]

namespace World

variable {t : Nat} {d : SimulatedDevice} {es : List WorldStep}

/-- Only a received frame is accepted. -/
theorem received_after (cfg : Config) (t : Nat) (d : SimulatedDevice) (es : List WorldStep) :
    ∀ a ∈ (after cfg t d es).device.accepted, ∃ now, .device (.recv now (.json (.obj a.frame))) ∈ es := by
  induction es using List.reverseRecOn with
  | nil => exact fun a ha => (by cases ha)
  | append_singleton es e ih =>
      have hold : ∀ a ∈ (after cfg t d es).device.accepted,
          ∃ now, .device (.recv now (.json (.obj a.frame))) ∈ es ++ [e] := by
        intro a ha
        obtain ⟨now, hmem⟩ := ih a ha
        exact ⟨now, List.mem_append_left _ hmem⟩
      rw [after_snoc]
      cases e with
      | server e => exact hold
      | device e =>
          have hp := (after cfg t d es).device.step_progress e
          show ∀ a ∈ ((after cfg t d es).device.step e).1.accepted, _
          generalize ((after cfg t d es).device.step e).1 = d' at hp
          cases hp with
          | kept hkept =>
              rw [hkept.accepted]
              exact hold
          | accepted _ _ _ _ _ _ hkept =>
              rw [hkept.accepted]
              intro a ha
              rcases List.mem_append.mp ha with ha | ha
              · exact hold a ha
              · rw [List.mem_singleton.mp ha]
                exact ⟨_, List.mem_append_right _ (List.mem_singleton_self _)⟩
          | downloading => exact hold
          | downloaded _ hkept =>
              rw [hkept.accepted]
              exact hold
          | flashed => exact hold

/-- Over each connection the device carries out calls routed to it, in their order. -/
theorem executed_after (h : Sound cfg t d es)
    (hcalls : ∀ d' call, .api d' call ∈ trace cfg t d es → call.Fields ∧ (Json.obj call.body).keyed = true)
    (hkeyed : ∀ now msg, .device (.recv now (.json (.obj msg))) ∈ es → (Json.obj msg).keyed = true) :
    ∃ origin, (after cfg t d es).Genuine origin ∧
      ∀ c, List.SublistForall₂ AcceptedFrame.Executes
        ((after cfg t d es).device.accepted.filter fun a => isControlCall a.frame && decide (origin a = c))
        (State.routed cfg c (.init t) (trace cfg t d es)) := by
  obtain ⟨origin, hgenuine⟩ := genuine_after h
  have hordered : (after cfg t d es).server.Heard
      (Ordered fun c => State.routed cfg c (.init t) (trace cfg t d es)) := by
    rw [server_after]
    exact State.ordered_after cfg t _ fun d' call hmem => (hcalls d' call hmem).1
  refine ⟨origin, hgenuine, fun c => ?_⟩
  cases hx : (after cfg t d es).server.conns c with
  | none =>
      have hnil : ((after cfg t d es).device.accepted.filter fun a =>
          isControlCall a.frame && decide (origin a = c)) = [] := by
        refine List.filter_eq_nil_iff.mpr fun a ha hc => ?_
        obtain ⟨x, hx', -⟩ := hgenuine.device a ha
        rw [of_decide_eq_true (Bool.and_eq_true_iff.mp hc).2, hx] at hx'
        cases hx'
      rw [hnil]
      exact .nil
  | some x =>
      have hsent := Matching.filter (fun a frame hsame => SameMessage.isControlCall hsame) (hgenuine.frames c x hx)
      rw [List.filter_filter] at hsent
      refine Matching.mono_mem ?_ (Matching.comp hsent (hordered c x hx).frames)
      rintro a ha call hcall ⟨frame, hsame, hcarried⟩
      obtain ⟨d', hapi⟩ := State.api_of_routed hcall
      obtain ⟨now, hreceived⟩ := received_after cfg t d es a (List.mem_of_mem_filter ha)
      exact hsame.executes hcarried (hcalls d' call hapi).2 (hkeyed now a.frame hreceived)

/-- Whatever the network does, the device carries out commands and datapoint writes only for control calls
to this device: the calls of a connection in their order, and each at most once. -/
theorem control_calls_executed (cfg : Config) (t : Nat) (d : SimulatedDevice) (es : List WorldStep)
    (h : Sound cfg t d es)
    (hcalls : ∀ d' call, .api d' call ∈ trace cfg t d es → call.Fields ∧ (Json.obj call.body).keyed = true)
    (hkeyed : ∀ now msg, .device (.recv now (.json (.obj msg))) ∈ es → (Json.obj msg).keyed = true) :
    ∃ origin : AcceptedFrame → Nat,
      (∀ a ∈ (after cfg t d es).device.accepted, ∃ x,
        (after cfg t d es).server.conns (origin a) = some x ∧ x.deviceId = d.deviceId) ∧
      (∀ c x, (after cfg t d es).server.conns c = some x →
        List.SublistForall₂ (SameMessage x)
          ((after cfg t d es).device.accepted.filter fun a => origin a = c) x.link.sent) ∧
      ∀ c, List.SublistForall₂ AcceptedFrame.Executes
        ((after cfg t d es).device.accepted.filter fun a => isControlCall a.frame && decide (origin a = c))
        (State.routed cfg c (.init t) (trace cfg t d es)) := by
  obtain ⟨origin, hgenuine, hexecuted⟩ := executed_after h hcalls hkeyed
  have hdevice := hgenuine.device
  rw [device_after] at hdevice
  exact ⟨origin, hdevice, hgenuine.frames, hexecuted⟩

/-- The control call of a step. -/
def apiCall : Step → Option Call
  | .api _ call => some call
  | _ => none

theorem not_called {es : List Step} (h : (es.all fun e => (apiCall e).isNone) = true) (d : Str) (call : Call) :
    .api d call ∉ es := by
  intro hmem
  have hnone := List.all_eq_true.mp h _ hmem
  cases hnone

/-- The message that reaches the device in a step. -/
def received : WorldStep → Option Dict
  | .device (.recv _ (.json (.obj msg))) => some msg
  | _ => none

theorem control_calls_executed_sample :
    ((after sampleConfig 0 sampleSimulator sampleRun).device.accepted.filter fun a =>
        isControlCall a.frame).length = 1 ∧
      ∃ origin : AcceptedFrame → Nat,
        (∀ a ∈ (after sampleConfig 0 sampleSimulator sampleRun).device.accepted, ∃ x,
          (after sampleConfig 0 sampleSimulator sampleRun).server.conns (origin a) = some x ∧
            x.deviceId = sampleSimulator.deviceId) ∧
        (∀ c x, (after sampleConfig 0 sampleSimulator sampleRun).server.conns c = some x →
          List.SublistForall₂ (SameMessage x)
            ((after sampleConfig 0 sampleSimulator sampleRun).device.accepted.filter fun a => origin a = c)
            x.link.sent) ∧
        ∀ c, List.SublistForall₂ AcceptedFrame.Executes
          ((after sampleConfig 0 sampleSimulator sampleRun).device.accepted.filter fun a =>
            isControlCall a.frame && decide (origin a = c))
          (State.routed sampleConfig c (.init 0) (trace sampleConfig 0 sampleSimulator sampleRun)) := by
  have hchecks : ((trace sampleConfig 0 sampleSimulator sampleRun).all fun e => (apiCall e).all fun call =>
        decide ((call.body.map Prod.fst).Nodup ∧ ∀ k ∈ call.body.map Prod.fst, k ∉ envelopeFields) &&
          (Json.obj call.body).keyed) = true ∧
      (sampleRun.all fun e => (received e).all fun msg => (Json.obj msg).keyed) = true ∧
      ((after sampleConfig 0 sampleSimulator sampleRun).device.accepted.filter fun a =>
        isControlCall a.frame).length = 1 := by decide +kernel
  obtain ⟨hbodies, hkeyed, haccepted⟩ := hchecks
  have hcalls : ∀ d' call, .api d' call ∈ trace sampleConfig 0 sampleSimulator sampleRun →
      call.Fields ∧ (Json.obj call.body).keyed = true := by
    intro d' call hmem
    obtain ⟨hfields, hkeys⟩ := Bool.and_eq_true_iff.mp (List.all_eq_true.mp hbodies _ hmem)
    exact ⟨.of_keys _ rfl hfields, hkeys⟩
  exact ⟨haccepted, control_calls_executed sampleConfig 0 sampleSimulator sampleRun sampleRun_sound.1 hcalls
    fun now msg hmem => List.all_eq_true.mp hkeyed _ hmem⟩

end World

end Fountainer
