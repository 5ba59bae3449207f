import Fountainer.Proto.Binding
import Fountainer.Python.Keyed
import Fountainer.System.Agreement

/-!
# The session proofs of a run

The proof of a connection is a message of the device, and with fresh nonces it belongs to one connection.
-/

namespace Fountainer

variable {cfg : Config} {s₀ s s' : State} {e : Step}

/-! ## Evidence -/

/-- The objects of the frames have distinct keys, as `json.loads` makes them. -/
def keyedFrames (_ : State) : Step → Bool
  | .recv _ (.json j) => j.keyed
  | _ => true

/-- The session proof is a message that the device has signed for this session. -/
structure Conn.Attested (signed : List Signed) (x : Conn) (msg : Dict) : Prop where
  keyed : (Json.obj msg).keyed = true
  signed : ∃ y ∈ signed, y.fields.Of (x.link.session.params .c2s) msg

theorem Conn.Attested.mono {signed signed' : List Signed} {x x' : Conn} {msg : Dict} (h : x.Attested signed msg)
    (hsigned : signed ⊆ signed') (hp : x'.link.session.params .c2s = x.link.session.params .c2s) :
    x'.Attested signed' msg := by
  obtain ⟨y, hy, hof⟩ := h.signed
  exact ⟨h.keyed, y, hsigned hy, by rw [hp]; exact hof⟩

/-- A verified proof has the fields of a message of the device. -/
theorem Secure.attested {c : Nat} {x : Conn} {session : DeviceSession} {d : Dict} (h : Secure s)
    (hx : s.conns c = some x) (hv : x.link.session.verifyC2s d = (session, .ok true))
    (hmac : idealMac s (.recv c (.json (.obj d))) = true) (hkeyed : (Json.obj d).keyed = true) :
    x.Attested s.deviceSigned d := by
  obtain ⟨hok, -⟩ := DeviceSession.verifyC2s_true hv
  obtain ⟨z, hz, hfields, hraw, -, -⟩ := verify_accepts hok
  have hof := MacFields.Of.of_messageFields hfields
  simp only [idealMac, hx, hz, hok, ne_eq, not_true_eq_false, decide_false, Bool.false_or,
    List.any_eq_true, decide_eq_true_eq] at hmac
  obtain ⟨y, hy, -, hyraw⟩ := hmac
  rcases State.mem_signedInputs hy with hy | ⟨c', x', hx', hy⟩
  · obtain ⟨hclean, hinput⟩ := h.device y hy
    have hsame : y.fields = z.fields := macInput_inj hclean hinput (by rw [hyraw]; exact hraw)
    exact ⟨hkeyed, y, hy, hsame ▸ hof⟩
  · -- a message of the server has another direction
    obtain ⟨hclean, hdir, hinput⟩ := h.server c' x' hx' y hy
    have hsame : y.fields = z.fields := macInput_inj hclean hinput (by rw [hyraw]; exact hraw)
    have hne : py "c2s" ≠ py "s2c" := by decide
    rw [hsame, hof.direction] at hdir
    exact absurd hdir hne

/-- The parameters of a session are fixed when its proof has been verified. -/
theorem ConnStep.attested {c : Nat} {x x' : Conn} {signed : List Signed} (hs : ConnStep s₀ e s c x x')
    (h : Staged x) (hx : ∀ msg, x.proof = some msg → x.Attested signed msg)
    (hverified : ∀ d session, s = s₀ → e = .recv c (.json (.obj d)) →
      x.link.session.verifyC2s d = (session, .ok true) → x.Attested signed d) :
    ∀ msg, x'.proof = some msg → x'.Attested signed msg := by
  have hstill : ∀ l, Link.Still x.link l → ∀ msg, x.proof = some msg → Conn.Attested signed { x with link := l } msg :=
    fun l hl msg hmsg => (hx msg hmsg).mono (List.Subset.refl _) (hl.params _)
  have hearly : x.pc.Early → ∀ msg, x.proof ≠ some msg := by
    intro hpc msg hmsg
    rw [(h.early hpc).1] at hmsg
    cases hmsg
  cases hs with
  | quiet hq => exact fun msg hmsg => (hx msg hmsg).mono (List.Subset.refl _) rfl
  | helloFailed hpc => exact fun msg hmsg => absurd hmsg (hearly (hpc ▸ .hello) msg)
  | helloAcked hpc hack => exact fun msg hmsg => absurd hmsg (hearly (hpc ▸ .hello) msg)
  | verified hpc hs he hv =>
      intro msg hmsg
      cases hmsg
      have hattested := hverified _ _ hs he hv
      obtain ⟨replay, rfl⟩ := DeviceSession.verifyC2s_session hv
      exact hattested.mono (List.Subset.refl _) rfl
  | start ho =>
      obtain ⟨seq, id, p, -, hsession⟩ := Link.start_session x.link s.now ‹Call›
      refine fun msg hmsg => (hx msg hmsg).mono (List.Subset.refl _) ?_
      rw [hsession]
      rfl
  | sendDone k ok => exact hstill _ (Link.sendDone_still ..)
  | expire k => exact hstill _ (Link.expire_still ..)
  | wake k raises => exact hstill _ (Link.wake_still ..)
  | dispatch hpc he => exact hstill _ (Link.dispatch_still ..)

def State.Attested (s : State) : Prop :=
  s.Each fun x => ∀ msg, x.proof = some msg → x.Attested s.deviceSigned msg

theorem attested_micro (hok : guarded s₀ e = true) (hkeyed : keyedFrames s₀ e = true) (hm : Micro cfg s₀ e s s')
    (hsecure : Secure s) (h : s.Attested) : s'.Attested := by
  simp only [guarded, Bool.and_eq_true] at hok
  have hgrow : s.deviceSigned ⊆ s'.deviceSigned := by
    intro y hy
    rcases hm.deviceSigned with hs | ⟨y', -, hs⟩
    · rw [hs]
      exact hy
    · rw [hs]
      exact List.mem_append_left _ hy
  refine hm.each ?_ ?_ ?_ ?_ ?_ (P := fun x => ∀ msg, x.proof = some msg → x.Attested s'.deviceSigned msg) ?_
  · exact fun d device rand _ _ msg hmsg => (by cases hmsg)
  · exact fun x b hx msg hmsg => (hx msg hmsg).mono (List.Subset.refl _) rfl
  · intro c x x' hx hs hattested
    refine hs.attested (hsecure.stages.staged c x hx) hattested fun d session hs he hv => ?_
    subst hs he
    exact (hsecure.attested hx hv hok.1.1 hkeyed).mono hgrow rfl
  · exact fun c x _ _ hx msg hmsg => (hx msg hmsg).mono (List.Subset.refl _) rfl
  · exact fun x hx msg hmsg => (hx msg hmsg).mono (List.Subset.refl _) rfl
  · exact fun c x hx msg hmsg => (h c x hx msg hmsg).mono hgrow rfl

theorem attested_after {t : Nat} {es : List Step} (hmac : State.Along cfg idealMac t es)
    (hdevice : State.Along cfg honestDevices t es) (hclear : State.Along cfg clearFields t es)
    (hkeyed : State.Along cfg keyedFrames t es) : (State.after cfg t es).Attested := by
  have hall : State.Along cfg (fun s e => guarded s e && keyedFrames s e) t es :=
    (((hmac.and hdevice).and hclear).and hkeyed).imp fun s e h => by simp [guarded, h]
  have hinit : Secure (State.init t) ∧ (State.init t).Attested :=
    ⟨⟨stages_init t, fun _ h => (by cases h), fun _ _ h => (by cases h), fun _ _ h => (by cases h)⟩,
      fun _ _ h => (by cases h)⟩
  have hmicro : ∀ s₀ e s s', (guarded s₀ e && keyedFrames s₀ e) = true → (Secure s₀ ∧ s₀.Attested) →
      Micro cfg s₀ e s s' → (Secure s ∧ s.Attested) → Secure s' ∧ s'.Attested := by
    intro s₀ e s s' hok _ hm h
    obtain ⟨hguarded, hkeyed⟩ := Bool.and_eq_true_iff.mp hok
    exact ⟨secure_micro hguarded hm h.1, attested_micro hguarded hkeyed hm h.1 h.2⟩
  exact (invariant_of_micro hinit hmicro hall).2

/-! ## Server nonces -/

/-- A new connection gets a nonce that no other connection has. -/
def freshNonces (s : State) : Step → Bool
  | .accept _ rand => (List.range s.nextConn).all fun c =>
      (s.conns c).all fun x => x.link.session.serverNonce ≠ ofChars (base64 rand)
  | _ => true

/-- The nonces tell the connections apart. -/
def State.Distinct (s : State) : Prop := ∀ c c' x x', s.conns c = some x → s.conns c' = some x' →
  x.link.session.serverNonce = x'.link.session.serverNonce → c = c'

theorem ConnStep.serverNonce {c : Nat} {x x' : Conn} (hs : ConnStep s₀ e s c x x') :
    x'.link.session.serverNonce = x.link.session.serverNonce := by
  have hstill : ∀ l, Link.Still x.link l → l.session.serverNonce = x.link.session.serverNonce := by
    intro l hl
    obtain ⟨p, ms, hsession⟩ := hl.session
    rw [hsession]
  have hhello : ∀ now d, (x.link.session.hello now d).1.serverNonce = x.link.session.serverNonce := by
    intro now d
    obtain ⟨cn, kid, key, hsession, -⟩ := DeviceSession.hello_session x.link.session now d
    rw [hsession]
  cases hs with
  | quiet hq => rfl
  | helloFailed hpc => exact hhello _ _
  | helloAcked hpc hack => exact hhello _ _
  | verified hpc hs he hv =>
      obtain ⟨replay, rfl⟩ := DeviceSession.verifyC2s_session hv
      rfl
  | start ho =>
      obtain ⟨seq, id, p, -, hsession⟩ := Link.start_session x.link s.now ‹Call›
      rw [hsession]
  | sendDone k ok => exact hstill _ (Link.sendDone_still ..)
  | expire k => exact hstill _ (Link.expire_still ..)
  | wake k raises => exact hstill _ (Link.wake_still ..)
  | dispatch hpc he => exact hstill _ (Link.dispatch_still ..)

/-- A connection has had its nonce before the update, or it is new and has a fresh one. -/
theorem Micro.serverNonce (hok : freshNonces s₀ e = true) (hm : Micro cfg s₀ e s s') (hn : s.Numbered) {c : Nat}
    {x' : Conn} (hx' : s'.conns c = some x') :
    (∃ x, s.conns c = some x ∧ x.link.session.serverNonce = x'.link.session.serverNonce) ∨
      c = s.nextConn ∧ ∀ c' x, s.conns c' = some x →
        x.link.session.serverNonce ≠ x'.link.session.serverNonce := by
  have hold : s.conns c = some x' → ∃ x, s.conns c = some x ∧
      x.link.session.serverNonce = x'.link.session.serverNonce := fun hx => ⟨x', hx, rfl⟩
  cases hm with
  | accept he =>
      subst he
      rcases State.accept_conns hx' with ⟨device, hd, hc, rfl⟩ | ⟨x₀, b, hx₀, rfl⟩
      · refine .inr ⟨hc, fun c' x hx => ?_⟩
        have hall := List.all_eq_true.mp hok c' (List.mem_range.mpr (hn c' x hx))
        rw [hx] at hall
        exact of_decide_eq_true hall
      · exact .inl ⟨x₀, hx₀, rfl⟩
  | conn hx hnow ha hs =>
      rcases State.setConn_cases _ _ _ hx' with ⟨rfl, rfl⟩ | ⟨-, hx'⟩
      · exact .inl ⟨_, hx, hs.serverNonce.symm⟩
      · exact .inl (hold hx')
  | connected hx hpc hc =>
      rw [State.called_conns, State.shake_eq] at hx'
      rcases State.setConn_cases _ _ _ hx' with ⟨rfl, rfl⟩ | ⟨-, hx'⟩
      · exact .inl ⟨_, hx, rfl⟩
      · exact .inl (hold hx')
  | finished hx hpc he =>
      rw [State.finish_conns _ _ hx] at hx'
      rcases State.setConn_cases _ _ _ hx' with ⟨rfl, rfl⟩ | ⟨-, hx'⟩
      · exact .inl ⟨_, hx, rfl⟩
      · exact .inl (hold hx')
  | called hx hcall =>
      rw [State.called_conns] at hx'
      exact .inl (hold hx')
  | tick he => exact .inl (hold hx')
  | deviceSign he => exact .inl (hold hx')
  | stored => exact .inl (hold hx')
  | task => exact .inl (hold hx')
  | spawned => exact .inl (hold hx')

theorem distinct_after {t : Nat} {es : List Step} (hes : State.Along cfg freshNonces t es) :
    (State.after cfg t es).Distinct := by
  have hinit : (State.init t).Numbered ∧ (State.init t).Distinct :=
    ⟨State.numbered_init t, fun c c' x x' hx => (by cases hx)⟩
  have hmicro : ∀ s₀ e s s', freshNonces s₀ e = true → (s₀.Numbered ∧ s₀.Distinct) → Micro cfg s₀ e s s' →
      (s.Numbered ∧ s.Distinct) → s'.Numbered ∧ s'.Distinct := by
    intro s₀ e s s' hok _ hm h
    refine ⟨hm.numbered h.1, fun c c' x x' hx hx' hsame => ?_⟩
    rcases hm.serverNonce hok h.1 hx with ⟨y, hy, hxy⟩ | ⟨hc, hfresh⟩
    · rcases hm.serverNonce hok h.1 hx' with ⟨y', hy', hxy'⟩ | ⟨hc', hfresh'⟩
      · exact h.2 c c' y y' hy hy' (hxy.trans (hsame.trans hxy'.symm))
      · exact absurd (hxy.trans hsame) (hfresh' c y hy)
    · rcases hm.serverNonce hok h.1 hx' with ⟨y', hy', hxy'⟩ | ⟨hc', hfresh'⟩
      · exact absurd (hxy'.trans hsame.symm) (hfresh c' y' hy')
      · rw [hc, hc']
  exact (invariant_of_micro hinit hmicro hes).2

end Fountainer
