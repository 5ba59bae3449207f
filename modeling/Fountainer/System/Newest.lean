import Fountainer.System.Lifecycle

/-!
# The newest connection wins
-/

namespace Fountainer

variable {cfg : Config} {s₀ s s' : State} {e : Step}

/-- Devices use the message types of the protocol only. -/
def metaTypes (_ : State) : Step → Bool
  | .recv _ (.json (.obj d)) => match Dict.get d (py "type") with
      | .str name => isMessageType name
      | _ => true
  | _ => true

theorem DeviceSession.lookupKey_type {session : DeviceSession} {d : Dict} {key : Str}
    (h : session.lookupKey d = some key) : key = [] ∨ d.get (py "type") = .str key := by
  unfold lookupKey at h
  dsimp only at h
  split at h
  · cases h
  · split at h
    · cases h
    · unfold Dict.getOr at h
      unfold Dict.get
      cases hl : d.lookup (py "type") with
      | none =>
          simp only [hl, Option.getD_none, Option.some.injEq] at h
          exact .inl h.symm
      | some v =>
          simp only [hl, Option.getD_some] at h ⊢
          split at h
          · cases h
            exact .inr rfl
          · cases h

theorem State.lookedUp_type {c : Nat} {d : Dict} {key : Str} (h : s.lookedUp c d = some key) :
    key = [] ∨ d.get (py "type") = .str key := by
  unfold lookedUp at h
  split at h
  · cases h
  · split at h
    · exact DeviceSession.lookupKey_type h
    · split at h
      · split at h
        · cases h
        · exact DeviceSession.lookupKey_type h
      · cases h
    · cases h

theorem lifecycle_not_meta {key : Str} (h : key ∈ lifecycleKeys) :
    key ≠ [] ∧ isMessageType key = false := by
  simp only [lifecycleKeys, List.mem_cons, List.not_mem_nil, or_false] at h
  rcases h with rfl | rfl | rfl <;> decide

theorem plainTypes_of_metaTypes (h : metaTypes s e = true) : plainTypes s e = true := by
  unfold plainTypes
  split
  · rename_i c d
    split
    · rename_i key hkey
      refine decide_eq_true fun hmem => ?_
      obtain ⟨hne, hmeta⟩ := lifecycle_not_meta hmem
      rcases State.lookedUp_type hkey with rfl | htype
      · exact hne rfl
      · simp [metaTypes, htype, hmeta] at h
    · rfl
  · rfl

/-! ## The entry of a device is its newest connection -/

theorem State.accept_sessions (cfg : Config) (s : State) (d : Str) (rand : Bytes) :
    s.accept cfg d rand = s ∨
      ((s.accept cfg d rand).sessions = Function.update s.sessions d (some s.nextConn) ∧
        ∃ x, (s.accept cfg d rand).conns s.nextConn = some x ∧ x.deviceId = d) := by
  rcases s.accept_cases cfg d rand with he | ⟨device, s₁, hd, hs₁, he⟩
  · exact .inl he
  · rw [he]
    exact .inr ⟨rfl, _, setConn_self .., rfl⟩

/-- An entry of the registry is the newest connection of its device. -/
def State.Newest (s : State) : Prop :=
  ∀ d c, s.sessions d = some c → ∃ x, s.conns c = some x ∧ x.deviceId = d ∧
    ∀ c' x', s.conns c' = some x' → x'.deviceId = d → c' ≤ c

theorem Micro.newest (hm : Micro cfg s₀ e s s') (hn : s.Numbered) (h : s.Newest) : s'.Newest := by
  have hkeep : ∀ d c, s.sessions d = some c → s'.sessions d = some c → ∃ x, s'.conns c = some x ∧
      x.deviceId = d ∧ ∀ c' x', s'.conns c' = some x' → x'.deviceId = d → c' ≤ c := by
    intro d c hc hc'
    obtain ⟨x, hx, hd, hmax⟩ := h d c hc
    obtain ⟨x', hx', hg⟩ := hm.grows hn hx
    refine ⟨x', hx', hg.deviceId.trans hd, fun c₁ x₁ hx₁ hd₁ => ?_⟩
    rcases hm.conns hx₁ with ⟨x₂, hx₂, hd₂⟩ | ⟨d₂, rand, -, -, hd₂, hs₂⟩
    · exact hmax c₁ x₂ hx₂ (hd₂.trans hd₁)
    · rw [← hd₂, hd₁, hc'] at hs₂
      cases hs₂
      exact Nat.le_refl _
  intro d c hc
  rcases hm.sessions with hs | ⟨d₀, rand, rfl, rfl, rfl⟩ | ⟨c₀, x₀, he, hx₀, hd₀, hs, -⟩
  · rw [hs] at hc
    exact hkeep d c hc (hs ▸ hc)
  · rcases State.accept_sessions cfg s d₀ rand with hacc | ⟨hacc, x, hx, hd⟩
    · rw [hacc] at hc ⊢
      exact h d c hc
    · have hc' := hc
      rw [hacc] at hc'
      by_cases hdd : d = d₀
      · subst hdd
        rw [Function.update_self, Option.some.injEq] at hc'
        subst hc'
        refine ⟨x, hx, hd, fun c₁ x₁ hx₁ hd₁ => ?_⟩
        rcases hm.conns hx₁ with ⟨x₂, hx₂, -⟩ | ⟨-, -, -, rfl, -⟩
        · exact Nat.le_of_lt (hn c₁ x₂ hx₂)
        · exact Nat.le_refl _
      · rw [Function.update_of_ne hdd] at hc'
        exact hkeep d c hc' hc
  · have hc' := hc
    rw [hs] at hc'
    by_cases hdd : d = x₀.deviceId
    · rw [hdd, Function.update_self] at hc'
      cases hc'
    · rw [Function.update_of_ne hdd] at hc'
      exact hkeep d c hc' hc

/-! ## The online flag -/

/-- A session in the registry that has completed its handshake is shown as online. -/
def State.Online (s : State) : Prop :=
  ∀ c x, s.conns c = some x → x.shaken = true → s.sessions x.deviceId = some c →
    (s.deviceState x.deviceId).online = true

theorem State.setShadow_online {d : Str} {st : Shadow} (h : st.online = (s.deviceState d).online)
    (d' : Str) : ((s.setShadow d st).deviceState d').online = (s.deviceState d').online := by
  by_cases hd : d' = d
  · subst hd
    rw [setShadow_self, h]
  · rw [setShadow_ne _ _ _ hd]

theorem Micro.online (hm : Micro cfg s₀ e s s') (hok : plainTypes s₀ e = true) (hn : s.Numbered)
    (h : s.Online) : s'.Online := by
  intro c x hx hsh hd
  cases hm with
  | tick he => exact h c x hx hsh hd
  | accept he =>
      rename_i d rand
      rcases State.accept_conns hx with ⟨device, -, rfl, rfl⟩ | ⟨x₀, b, hx₀, rfl⟩
      · cases hsh
      · rcases s₀.accept_cases cfg d rand with hacc | ⟨device, s₁, -, hs₁, hacc⟩
        · rw [hacc] at hd ⊢
          exact h c x₀ hx₀ hsh hd
        · have hstate : s₁.deviceState = s₀.deviceState := by
            rcases hs₁ with rfl | ⟨old, x₁, -, rfl⟩
            · rfl
            · exact State.setConn_deviceState ..
          rw [hacc] at hd ⊢
          dsimp only at hd
          by_cases hdd : x₀.deviceId = d
          · rw [hdd, Function.update_self, Option.some.injEq] at hd
            exact absurd (hd ▸ hn c x₀ hx₀) (Nat.lt_irrefl _)
          · rw [Function.update_of_ne hdd] at hd
            have hon := h c x₀ hx₀ hsh hd
            rw [← hstate] at hon
            exact hon
  | deviceSign he => exact h c x hx hsh hd
  | conn hx₀ hnow ha hs =>
      rcases State.setConn_cases _ _ _ hx with ⟨rfl, rfl⟩ | ⟨-, hx⟩
      · rw [hs.grows.deviceId] at hd ⊢
        exact h _ _ hx₀ (hs.shaken ▸ hsh) hd
      · exact h c x hx hsh hd
  | connected hx₀ hpc hc =>
      rename_i c₀ x₀
      rw [State.called_conns, State.shake_eq] at hx
      rw [State.called_sessions] at hd
      rw [State.called_deviceState]
      by_cases hdd : x.deviceId = x₀.deviceId
      · rw [hdd, State.setShadow_self]
        rfl
      · rw [State.setShadow_ne _ _ _ hdd]
        rcases State.setConn_cases _ _ _ hx with ⟨rfl, rfl⟩ | ⟨-, hx⟩
        · exact absurd rfl hdd
        · exact h c x hx hsh hd
  | finished hx₀ hpc he =>
      rename_i c₀ x₀
      have hold : ∃ x₁, s.conns c = some x₁ ∧ x₁.shaken = true ∧ x₁.deviceId = x.deviceId := by
        rw [State.finish_conns _ _ hx₀] at hx
        rcases State.setConn_cases _ _ _ hx with ⟨rfl, rfl⟩ | ⟨-, hx⟩
        · exact ⟨x₀, hx₀, hsh, rfl⟩
        · exact ⟨x, hx, hsh, rfl⟩
      obtain ⟨x₁, hx₁, hsh₁, hdev⟩ := hold
      by_cases hcur : s.sessions x₀.deviceId = some c₀
      · rw [State.finish_sessions _ cfg hx₀, if_pos hcur] at hd
        rw [State.finish_current _ _ hx₀ hcur, State.called_deviceState]
        by_cases hdd : x.deviceId = x₀.deviceId
        · rw [hdd, Function.update_self] at hd
          cases hd
        · rw [Function.update_of_ne hdd] at hd
          rw [State.setShadow_ne _ _ _ hdd]
          rw [← hdev] at hd ⊢
          exact h c x₁ hx₁ hsh₁ hd
      · rw [State.finish_sessions _ cfg hx₀, if_neg hcur] at hd
        rw [State.finish_replaced _ _ hx₀ hcur, State.setConn_deviceState]
        rw [← hdev] at hd ⊢
        exact h c x₁ hx₁ hsh₁ hd
  | called hx₀ hcall =>
      rename_i c₀ x₀ key hook cause msg
      rw [State.called_conns] at hx
      rw [State.called_sessions] at hd
      rw [State.called_deviceState]
      have hne : hook ≠ .onConnect ∧ hook ≠ .onDisconnect := by
        rcases (hcall.plain hok).2 with ⟨-, hl⟩ | ⟨-, rfl, -⟩
        · constructor <;> rintro rfl <;> cases hl
        · decide
      rw [State.setShadow_online (runHook_stamped hne.1 hne.2).online]
      exact h c x hx hsh hd
  | stored ht hx₀ hb hres ht₀ hnow hrec ha =>
      refine (State.setShadow_online ?_ _).trans (h c x hx hsh hd)
      exact TaskBody.resume_online ..
  | task => exact h c x hx hsh hd
  | spawned => exact h c x hx hsh hd

/-! ## The end of a replaced handler -/

theorem Micro.ended (hm : Micro cfg s₀ e s s') {c : Nat} {x x' : Conn} (hx : s.conns c = some x)
    (hx' : s'.conns c = some x') (hpc : x'.pc = .ended) : x.pc = .ended ∨ e.handler = some c := by
  have hupdate := hm.update c
  rw [hx'] at hupdate
  cases hupdate with
  | same hx₀ =>
      cases hx.symm.trans hx₀
      exact .inl hpc
  | new he hc hd hs => cases hpc
  | replaced hx₀ =>
      cases hx.symm.trans hx₀
      exact .inl hpc
  | step hx₀ hs =>
      cases hx.symm.trans hx₀
      exact .inl (hs.ended hpc)
  | shaken hx₀ hpc₀ he => cases hpc
  | ended hx₀ hpc₀ he hs => exact .inr he

/-- When a handler ends whose session is not in the registry, the registry stays as it is and no
disconnect hook runs. -/
def ReplacedEnds (s s' : State) : Prop :=
  ∀ c x x', s.conns c = some x → s'.conns c = some x' → x.pc ≠ .ended → x'.pc = .ended →
    s.sessions x.deviceId ≠ some c →
    s'.sessions = s.sessions ∧ ∀ c', s'.ran .onDisconnect c' = s.ran .onDisconnect c'

/-- What holds inside a step for a handler `c` whose session has been replaced. -/
structure Replaced (s₀ : State) (e : Step) (c : Nat) (d : Str) (s : State) : Prop where
  numbered : s.Numbered
  conn : ∃ x, s.conns c = some x ∧ x.deviceId = d ∧ (x.pc = .ended → e.handler = some c)
  registry : e.handler = some c →
    s.sessions = s₀.sessions ∧ ∀ c', s.ran .onDisconnect c' = s₀.ran .onDisconnect c'

theorem replaced_micro {c : Nat} {d : Str} (hd : s₀.sessions d ≠ some c)
    (hok : plainTypes s₀ e = true) (hm : Micro cfg s₀ e s s') (h : Replaced s₀ e c d s) :
    Replaced s₀ e c d s' := by
  obtain ⟨x, hx, hdev, hend⟩ := h.conn
  refine ⟨hm.numbered h.numbered, ?_, fun he => ?_⟩
  · obtain ⟨x', hx', hg⟩ := hm.grows h.numbered hx
    refine ⟨x', hx', hg.deviceId.trans hdev, fun hpc => ?_⟩
    rcases hm.ended hx hx' hpc with hpc | he
    · exact hend hpc
    · exact he
  · obtain ⟨hs, hran⟩ := h.registry he
    rcases hm.disconnects hok with ⟨hs', hran'⟩ | ⟨d', rand, rfl, -, -⟩ | ⟨c', y, he', hy, hcur, -, -⟩
    · exact ⟨hs'.trans hs, fun c' => (hran' c').trans (hran c')⟩
    · cases he
    · rw [he', Option.some.injEq] at he
      subst he
      rw [hx] at hy
      cases hy
      rw [hs, hdev] at hcur
      exact absurd hcur hd

/-! ## Runs -/

structure Ruled (s : State) : Prop where
  logged : Logged s
  newest : s.Newest
  online : s.Online

theorem ruled_after {t : Nat} {es : List Step} (hes : State.Along cfg metaTypes t es) :
    Ruled (State.after cfg t es) := by
  refine invariant_of_micro ?_ ?_ hes
  · exact ⟨⟨State.numbered_init t, fun _ h => (by cases h), fun _ _ h => (by cases h), fun _ h => (by cases h)⟩,
      fun _ _ h => (by cases h), fun _ _ h => (by cases h)⟩
  · intro s₀ e s s' hok _ hm h
    have hplain := plainTypes_of_metaTypes hok
    exact ⟨logged_micro hplain hm h.logged, hm.newest h.logged.numbered h.newest,
      hm.online hplain h.logged.numbered h.online⟩

/-- The registry holds the newest connection of a device or none, the end of a replaced handler changes
neither the registry nor the status, and a registered session that has run its connect hook is shown as
online. -/
theorem newest_connection_wins (cfg : Config) (t : Nat) (es : List Step)
    (hes : State.Along cfg metaTypes t es) :
    (State.after cfg t es).Newest ∧
      (∀ before e, before ++ [e] <+: es →
        ReplacedEnds (State.after cfg t before) (State.after cfg t (before ++ [e]))) ∧
      ∀ d c, (State.after cfg t es).sessions d = some c →
        (State.after cfg t es).ran .onConnect c ≠ [] →
        ((State.after cfg t es).deviceState d).online = true := by
  have h := ruled_after hes
  refine ⟨h.newest, ?_, ?_⟩
  · intro before e hbefore c x x' hx hx' hpc hend hd
    rw [State.after_snoc] at hx' ⊢
    have hinit : Replaced (State.after cfg t before) e c x.deviceId (State.after cfg t before) := by
      refine ⟨?_, ⟨x, hx, rfl, fun hpc' => absurd hpc' hpc⟩, fun _ => ⟨rfl, fun _ => rfl⟩⟩
      exact (ruled_after (hes.init ((List.prefix_append _ _).trans hbefore))).logged.numbered
    have hlast := plainTypes_of_metaTypes (hes.last hbefore)
    have hfinal := Run.star_invariant (fun a b hm => replaced_micro hd hlast hm)
      (State.step_chain cfg _ e) hinit
    obtain ⟨y, hy, -, hhandler⟩ := hfinal.conn
    rw [hx'] at hy
    cases hy
    exact hfinal.registry (hhandler hend)
  · intro d c hc hran
    obtain ⟨x, hx, hdev, -⟩ := h.newest d c hc
    have hsh : x.shaken = true := by
      refine eq_true_of_ne_false fun hfalse => hran (List.eq_nil_of_length_eq_zero ?_)
      have hcount := (h.logged.counted c x hx).connects
      rw [hfalse] at hcount
      exact hcount
    rw [← hdev] at hc ⊢
    exact h.online c x hx hsh hc

/-- A reconnect: the handler of the first connection ends after the second handshake. -/
theorem newest_connection_wins_sample :
    ((State.after sampleConfig 0 (sampleHandshake 0 [7] "n" ++ sampleHandshake 1 [8] "m" ++
      [.lost 0, .stop 0, .finish 0])).deviceState (py "fon-1")).online = true := by
  have hrun : State.Along sampleConfig metaTypes 0 (sampleHandshake 0 [7] "n" ++ sampleHandshake 1 [8] "m" ++
        [.lost 0, .stop 0, .finish 0]) ∧
      (State.after sampleConfig 0 (sampleHandshake 0 [7] "n" ++ sampleHandshake 1 [8] "m" ++
        [.lost 0, .stop 0, .finish 0])).sessions (py "fon-1") = some 1 ∧
      (State.after sampleConfig 0 (sampleHandshake 0 [7] "n" ++ sampleHandshake 1 [8] "m" ++
        [.lost 0, .stop 0, .finish 0])).ran .onConnect 1 ≠ [] := by decide +kernel
  exact (newest_connection_wins _ _ _ hrun.1).2.2 (py "fon-1") 1 hrun.2.1 hrun.2.2

end Fountainer
