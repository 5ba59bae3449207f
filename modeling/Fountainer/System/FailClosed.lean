import Fountainer.Proto.Verifiable
import Fountainer.System.Stages

/-!
# Frames that end the handshake

The handshake takes two frames of a peer that has not proven itself. It goes on, succeeds or closes the
connection exactly when nothing raises on the way.
-/

namespace Fountainer

/-! ## Conditions on the frames -/

/-- A falsy value, or one that can be searched for a text. -/
def Json.searchable (x : Json) : Bool :=
  !x.truthy || match x with
    | .arr _ | .str _ | .obj _ => true
    | _ => false

def Device.knows (device : Device) : Json → Bool
  | .str k => (device.keyFor k).isSome
  | _ => false

/-- No list or dictionary is offered before the first kid that is known. -/
def Device.offersReadable (device : Device) : Json → Bool
  | .arr ks => (ks.takeWhile fun k => !device.knows k).all Json.hashable
  | kids => kids.searchable

/-- An object, and a hello offers kids and schemes that can be searched. -/
def Frame.helloReadable (device : Device) : Frame → Bool
  | .json (.obj d) => Dict.get d (py "type") ≠ .str (py "hello") ||
      (device.offersReadable (Dict.get d (py "auth_kids")) && (Dict.get d (py "auth_schemes")).searchable)
  | _ => false

/-- An object whose proof can be checked, and answered if it is one. -/
def Frame.ProofReadable (cfg : Config) (s : DeviceSession) (now : Clock) : Frame → Prop
  | .json (.obj d) => Verifiable (s.params .c2s) d ∧ (s.Proves d → proofAnswerable cfg s now d = true)
  | _ => False

/-! ## Outcomes -/

/-- The handshake waits for the proof, has closed the connection, or has verified the proof. -/
inductive Conn.Settled (x : Conn) : Prop
  | awaits (hpc : x.pc = .proof) (hn : x.link.session.negotiated = false)
  | closed (hpc : x.pc = .closing) (hcode : x.closeCode = some 4000 ∨ x.closeCode = some 4004)
      (hn : x.link.session.negotiated = false)
  | verified {loop : Loop} {fired : Bool} (hpc : x.pc = .live loop fired)
      (hn : x.link.session.negotiated = true)

/-- Connection `c` is settled, at once or when the message of the handshake is sent. -/
def FailsClosed (cfg : Config) (s : State) (c : Nat) : Prop :=
  ∃ s' ∈ [s, s.step cfg (.resume c true)], ∃ x, s'.conns c = some x ∧ x.Settled

variable {cfg : Config} {s : State} {c : Nat} {x : Conn}

theorem FailsClosed.now (hx : s.conns c = some x) (h : x.Settled) : FailsClosed cfg s c :=
  ⟨s, by simp, x, hx, h⟩

theorem FailsClosed.sent (hx : (s.step cfg (.resume c true)).conns c = some x) (h : x.Settled) :
    FailsClosed cfg s c := ⟨_, by simp, x, hx, h⟩

theorem not_failsClosed (hx : s.conns c = some x) (hpc : x.pc = .ended) : ¬ FailsClosed cfg s c := by
  have hstep : s.step cfg (.resume c true) = s := by simp only [State.step, State.resume, hx, hpc]
  rintro ⟨s', hs', y, hy, hsettled⟩
  rw [hstep] at hs'
  have hs' : s' = s := by simpa using hs'
  rw [hs', hx] at hy
  cases hy
  cases hsettled with
  | awaits h => cases hpc.symm.trans h
  | closed h => cases hpc.symm.trans h
  | verified h => cases hpc.symm.trans h

theorem not_failsClosed_finish (hx : s.conns c = some x) : ¬ FailsClosed cfg (s.finish cfg c) c := by
  refine not_failsClosed (x := { x with pc := .ended }) ?_ rfl
  rw [State.finish_conns s cfg hx]
  exact State.setConn_self ..

/-! ## The hello -/

theorem contains_isOk (t : Str) {x : Json} : ((x.or (.arr [])).contains t).isOk = x.searchable := by
  unfold Json.or Json.searchable
  cases hx : x.truthy with
  | false => rfl
  | true => cases x <;> rfl

theorem Device.firstKnown_isOk (device : Device) (ks : List Json) :
    (device.firstKnown ks).isOk = (ks.takeWhile fun k => !device.knows k).all Json.hashable := by
  induction ks with
  | nil => rfl
  | cons k ks ih =>
      cases k with
      | str k =>
          cases hk : (device.keyFor k).isSome with
          | true => simp [Device.firstKnown, Device.knows, hk, Except.isOk, Except.toBool]
          | false => simp [Device.firstKnown, Device.knows, hk, Json.hashable, ih]
      | arr xs => simp [Device.firstKnown, Device.knows, Json.hashable, Except.isOk, Except.toBool]
      | obj kvs => simp [Device.firstKnown, Device.knows, Json.hashable, Except.isOk, Except.toBool]
      | _ => simp [Device.firstKnown, Device.knows, Json.hashable, ih]

theorem Device.firstKnown_texts (device : Device) (ts : List Str) :
    (device.firstKnown (ts.map Json.str)).isOk = true := by
  rw [firstKnown_isOk, List.all_eq_true]
  intro k hk
  obtain ⟨t, -, rfl⟩ := List.mem_map.mp (List.takeWhile_subset _ hk)
  rfl

theorem Device.pickKid_isOk (device : Device) (kids : Json) :
    (device.pickKid (kids.or (.arr []))).isOk = device.offersReadable kids := by
  have hor : (kids.or (.arr [])).or (.arr []) = kids.or (.arr []) := by
    unfold Json.or
    cases hk : kids.truthy with
    | false => rfl
    | true => simp [hk]
  unfold pickKid
  rw [hor]
  cases kids with
  | arr ks =>
      have harr : (Json.arr ks).or (.arr []) = .arr ks := by
        cases ks <;> rfl
      rw [harr]
      exact device.firstKnown_isOk ks
  | str t =>
      cases t with
      | nil => rfl
      | cons ch t =>
          have htexts := device.firstKnown_texts ((ch :: t).map fun ch => [ch])
          rw [List.map_map] at htexts
          exact htexts
  | obj kvs =>
      cases kvs with
      | nil => rfl
      | cons kv kvs =>
          have htexts := device.firstKnown_texts ((kv :: kvs).map Prod.fst)
          rw [List.map_map] at htexts
          exact htexts
  | bool b => cases b <;> rfl
  | int i =>
      by_cases hi : i = 0
      · subst hi
        rfl
      · simp [Json.or, Json.truthy, hi, Json.iter, Device.offersReadable, Json.searchable, bind, Except.bind,
          Except.isOk, Except.toBool]
  | float f =>
      cases hf : f.truthy <;> simp [Json.or, Json.truthy, hf, Json.iter, Device.offersReadable, Json.searchable,
        bind, Except.bind, Except.isOk, Except.toBool, Device.firstKnown]
  | null => rfl

namespace DeviceSession

/-- The hello raises exactly on offers that cannot be searched. -/
theorem hello_isOk (s : DeviceSession) (now : Clock) (d : Dict) :
    (s.hello now d).2.isOk = Frame.helloReadable s.device (.json (.obj d)) := by
  have hack : ∀ (body : Dict) (irt : Json),
      (buildMessage (py "hello_ack") body none none irt now).isOk = true := fun _ _ => rfl
  unfold hello Frame.helloReadable
  by_cases htype : d.get (py "type") = .str (py "hello")
  · simp only [htype, ne_eq, not_true_eq_false, if_false, decide_false, Bool.false_or]
    rw [← Device.pickKid_isOk, ← contains_isOk authScheme]
    cases s.device.pickKid ((d.get (py "auth_kids")).or (.arr [])) with
    | error e => rfl
    | ok chosen =>
        cases ((d.get (py "auth_schemes")).or (.arr [])).contains authScheme with
        | error e => rfl
        | ok known => cases chosen <;> cases known <;> rfl
  · simp only [htype, ne_eq, not_false_eq_true, decide_true, Bool.true_or]
    rfl

theorem hello_negotiated (s : DeviceSession) (now : Clock) (d : Dict) :
    (s.hello now d).1.negotiated = s.negotiated := by
  obtain ⟨cn, kid, key, hsession, -⟩ := s.hello_session now d
  rw [hsession]

end DeviceSession

theorem recvHello_failsClosed (hx : s.conns c = some x) (hn : x.link.session.negotiated = false) (frame : Frame) :
    FailsClosed cfg (s.recvHello cfg c x frame) c ↔ frame.helloReadable x.link.session.device = true := by
  have hnot : ∀ {P : Prop}, ¬ P → (FailsClosed cfg (s.finish cfg c) c ↔ P) :=
    fun hP => iff_of_false (not_failsClosed_finish hx) hP
  unfold State.recvHello
  split
  · rename_i d
    have hok := x.link.session.hello_isOk s.now d
    have hneg := (x.link.session.hello_negotiated s.now d).trans hn
    rw [← hok]
    generalize x.link.session.hello s.now d = out at hneg
    obtain ⟨session, r⟩ := out
    cases r with
    | error e => exact iff_of_false (not_failsClosed_finish (State.setConn_self ..)) not_isOk
    | ok r =>
        refine iff_of_true ?_ rfl
        cases r with
        | notHello => exact .now (State.setConn_self ..) (.closed rfl (.inl rfl) hneg)
        | rejected ack =>
            refine .sent (x := { x with
              link := Link.push { x.link with session } ack, pc := .closing, closeCode := some 4004 }) ?_
              (.closed rfl (.inr rfl) hneg)
            simp only [State.step, State.resume, State.setConn_self, if_true]
        | accepted ack =>
            refine .sent (x := { x with link := Link.push { x.link with session } ack, pc := .proof }) ?_
              (.awaits rfl hneg)
            simp only [State.step, State.resume, State.setConn_self, if_true]
            exact State.setPc_self (State.setConn_self ..) _
  · rename_i hobj
    refine hnot ?_
    cases frame with
    | json j =>
        cases j with
        | obj d => exact absurd rfl (hobj d)
        | _ => simp [Frame.helloReadable]
    | _ => simp [Frame.helloReadable]

/-! ## The session proof -/

theorem handshakeDone_settled (cfg : Config) (hx : s.conns c = some x) (hn : x.link.session.negotiated = true) :
    ∃ x', (s.handshakeDone cfg c).conns c = some x' ∧ x'.Settled := by
  refine ⟨x.shake s.now, ?_, .verified rfl hn⟩
  rw [State.handshakeDone_eq cfg hx, State.called_conns, State.shake_eq]
  exact State.setConn_self ..

/-- After a verified proof the outcome depends on its answer. -/
theorem answered_failsClosed (hs : Stages s) (hx : s.conns c = some x) (hpc : x.pc = .proof) {d : Dict}
    {session : DeviceSession} (hv : x.link.session.verifyC2s d = (session, .ok true)) :
    FailsClosed cfg (match (s.setConn c (State.proven x session d)).answerProof cfg c d with
      | (s, .done) => s.handshakeDone cfg c
      | (s, .suspended) => s
      | (s, .raised) => s.finish cfg c) c ↔ proofAnswerable cfg x.link.session s.now d = true := by
  have hraised : ((s.setConn c (State.proven x session d)).answerProof cfg c d).2 = .raised ↔ _ :=
    State.answerProof_raised_iff hv s
  obtain ⟨hchain, x₂, hx₂, hpc₂⟩ := State.answerProof_chain hx hpc hv cfg rfl
  have hproof : State.Chain cfg s (.recv c (.json (.obj d))) s
      ((s.setConn c (State.proven x session d)).answerProof cfg c d).1 :=
    .head (.conn hx rfl rfl (.verified hpc rfl rfl hv)) hchain
  have hs₂ := Run.star_invariant (fun _ _ hm h => stages_micro hm h) hproof hs
  have hn₂ := (hs₂.staged c x₂ hx₂).proven (hpc₂ ▸ .proofReply)
  rw [← not_iff_not, Bool.not_eq_true, ← hraised]
  generalize (s.setConn c (State.proven x session d)).answerProof cfg c d = out at hx₂
  obtain ⟨s₂, r⟩ := out
  obtain ⟨x₃, hx₃, hsettled⟩ := handshakeDone_settled cfg hx₂ hn₂
  dsimp only at hx₂ hx₃
  cases r with
  | done => exact iff_of_false (not_not.mpr (.now hx₃ hsettled)) (by simp)
  | suspended =>
      refine iff_of_false (not_not.mpr (.sent ?_ hsettled)) (by simp)
      simp only [State.step, State.resume, hx₂, hpc₂, State.proven, if_true]
      exact hx₃
  | raised => exact iff_of_true (not_failsClosed_finish hx₂) rfl

theorem recvProof_failsClosed (hs : Stages s) (hx : s.conns c = some x) (hpc : x.pc = .proof) (frame : Frame) :
    FailsClosed cfg (s.recvProof cfg c x frame) c ↔ frame.ProofReadable cfg x.link.session s.now := by
  obtain ⟨-, hn, -⟩ := (hs.staged c x hx).early (hpc ▸ .proof)
  unfold State.recvProof
  split
  · rename_i d
    have hok := x.link.session.verifyC2s_isOk d
    have hproves := x.link.session.verifyC2s_proves d
    simp only [Frame.ProofReadable]
    rw [← hok, ← hproves]
    cases hv : x.link.session.verifyC2s d with
    | mk session r =>
        cases r with
        | error e => exact iff_of_false (not_failsClosed_finish hx) fun h => not_isOk h.1
        | ok ok =>
            cases ok with
            | false =>
                refine iff_of_true (.now (State.setConn_self ..) (.closed rfl (.inr rfl) ?_))
                  ⟨rfl, fun h => by cases h⟩
                rw [DeviceSession.verifyC2s_false hv]
                exact hn
            | true =>
                refine (answered_failsClosed hs hx hpc hv).trans ?_
                exact ⟨fun h => ⟨rfl, fun _ => h⟩, fun h => h.2 rfl⟩
  · rename_i hobj
    refine iff_of_false (not_failsClosed_finish hx) ?_
    cases frame with
    | json j =>
        cases j with
        | obj d => exact absurd rfl (hobj d)
        | _ => exact id
    | _ => exact id

/-! ## Every run -/

/-- Every message is answered with a reason exactly when it is verifiable, and in every run a frame of the
handshake leads to a verified session, to the wait for the proof or to the close codes 4000 and 4004 exactly
when it is readable. -/
theorem handshake_fails_closed_iff (p : AuthParams) (msg : Dict) (cfg : Config) (t : Nat) (es : List Step) (c : Nat)
    (frame : Frame) :
    ((verify p msg).isOk = true ↔ Verifiable p msg) ∧
    ∀ x : Conn, (State.after cfg t es).conns c = some x →
      (x.pc = .hello → (FailsClosed cfg (State.after cfg t (es ++ [.recv c frame])) c ↔
        frame.helloReadable x.link.session.device = true)) ∧
      (x.pc = .proof → (FailsClosed cfg (State.after cfg t (es ++ [.recv c frame])) c ↔
        frame.ProofReadable cfg x.link.session (State.after cfg t es).now)) := by
  refine ⟨verify_isOk_iff p msg, fun x hx => ?_⟩
  have hs : Stages (State.after cfg t es) :=
    always_of_micro (stages_init t) fun _ _ _ _ _ hm h => stages_micro hm h
  rw [State.after_snoc]
  refine ⟨fun hpc => ?_, fun hpc => ?_⟩ <;> simp only [State.step, State.recv, hx, hpc]
  · exact recvHello_failsClosed hx ((hs.staged c x hx).early (hpc ▸ .hello)).2.1 frame
  · exact recvProof_failsClosed hs hx hpc frame

/-- A good hello, and an empty object in the place of the proof. -/
theorem handshake_fails_closed_sample :
    FailsClosed sampleConfig (State.after sampleConfig 0 ([.accept (py "fon-1") [7]] ++ [.recv 0 (sampleHello "n")])) 0 ∧
    FailsClosed sampleConfig (State.after sampleConfig 0
      ([.accept (py "fon-1") [7], .recv 0 (sampleHello "n"), .resume 0 true] ++
        [.recv 0 (.json (.obj []))])) 0 := by
  have hello : ((State.after sampleConfig 0 [.accept (py "fon-1") [7]]).conns 0).any (fun x =>
      x.pc = .hello ∧ (sampleHello "n").helloReadable x.link.session.device) = true := by decide +kernel
  have proof : ((State.after sampleConfig 0 [.accept (py "fon-1") [7], .recv 0 (sampleHello "n"),
      .resume 0 true]).conns 0).any (fun x => x.pc = .proof) = true := by decide +kernel
  obtain ⟨x, hx, hpc⟩ := (Option.any_eq_true _ _).mp hello
  obtain ⟨y, hy, hpc'⟩ := (Option.any_eq_true _ _).mp proof
  simp only [Bool.decide_and, Bool.and_eq_true, decide_eq_true_eq, Bool.decide_eq_true] at hpc hpc'
  constructor
  · exact (((handshake_fails_closed_iff (sampleParams [7] "n") [] _ _ _ 0 _).2 x hx).1 hpc.1).mpr hpc.2
  · -- without an `auth` field there is nothing to check
    refine (((handshake_fails_closed_iff (sampleParams [7] "n") [] _ _ _ 0 _).2 y hy).2 hpc').mpr ⟨?_, fun h => ?_⟩
    · intro auth h
      cases h
    · obtain ⟨⟨auth, h, -⟩, -⟩ := h.1
      cases h

/-- Unauthenticated frames on which the handshake raises: a hello `[]`, one whose `auth_kids` is a number,
and a proof without `v`, for which `verify` raises. -/
theorem handshake_raises :
    ¬ FailsClosed sampleConfig (State.after sampleConfig 0
      [.accept (py "fon-1") [7], .recv 0 (.json (.arr []))]) 0 ∧
    ¬ FailsClosed sampleConfig (State.after sampleConfig 0
      [.accept (py "fon-1") [7], .recv 0 (.json (.obj [(py "type", .str (py "hello")),
        (py "auth_kids", .int 1)]))]) 0 ∧
    verify (sampleParams [7] "n") [(py "auth", .obj [(py "kid", .str (py "k1")), (py "seq", .int 1)])] =
      .error .keyError ∧
    ¬ FailsClosed sampleConfig (State.after sampleConfig 0
      [.accept (py "fon-1") [7], .recv 0 (sampleHello "n"), .resume 0 true, .recv 0 (.json (.obj
        [(py "auth", .obj [(py "kid", .str (py "k1")), (py "seq", .int 1)])]))]) 0 := by
  have hended : ∀ es, ((State.after sampleConfig 0 es).conns 0).any (fun x => x.pc = .ended) = true →
      ¬ FailsClosed sampleConfig (State.after sampleConfig 0 es) 0 := by
    intro es h
    obtain ⟨x, hx, hpc⟩ := (Option.any_eq_true _ _).mp h
    exact not_failsClosed hx (of_decide_eq_true hpc)
  refine ⟨hended _ (by decide +kernel), hended _ (by decide +kernel), ?_, hended _ (by decide +kernel)⟩
  rfl

end Fountainer
