import Fountainer.System.Lemmas.Link

/-!
# Requests and their replies

The pending table holds exactly the ids of the requests in progress, and whatever a request returns
is a message that named it after it was registered.
-/

namespace Fountainer

/-- The message names `i` in `in_reply_to`. -/
def NamesReply (m : Json) (i : Str) : Prop :=
  ∃ d : Dict, m = .obj d ∧ d.get (py "in_reply_to") = .str i

/-- `m` was received after `r` was registered, names it, and completed it. -/
def Answers (received : List Received) (r : Request) (m : Json) : Prop :=
  ∃ n en, r.regAt ≤ n ∧ received[n]? = some en ∧ en.msg = m ∧ NamesReply m r.msgId ∧
    en.effects = [.completed r.msgId]

structure Correlated (l : Link) : Prop where
  ids : ∀ r ∈ l.requests, ∃ n ≤ l.session.msgSeq, r.msgId = DeviceSession.msgIdText n
  nodup : (l.requests.map Request.msgId).Nodup
  keysNodup : (l.session.pending.map Prod.fst).Nodup
  keys : ∀ i, i ∈ l.session.pending.map Prod.fst ↔
    ∃ r ∈ l.requests, r.phase.inProgress ∧ r.msgId = i
  regAt : ∀ r ∈ l.requests, r.regAt ≤ l.received.length
  result : ∀ r ∈ l.requests, ∀ m, (r.msgId, Fut.result m) ∈ l.session.pending →
    Answers l.received r m
  returned : ∀ r ∈ l.requests, ∀ m, r.phase = .returned m → Answers l.received r m
  effects : ∀ en ∈ l.received, en.effects.length ≤ 1

theorem Answers.append {received : List Received} {r : Request} {m : Json}
    (h : Answers received r m) (en : Received) : Answers (received ++ [en]) r m := by
  obtain ⟨n, e, hn, he, hrest⟩ := h
  have hlt : n < received.length := (List.getElem?_eq_some_iff.mp he).1
  exact ⟨n, e, hn, by rw [List.getElem?_append_left hlt]; exact he, hrest⟩

theorem Answers.mem {received : List Received} {r : Request} {m : Json}
    (h : Answers received r m) : ∃ en ∈ received, Effect.completed r.msgId ∈ en.effects := by
  obtain ⟨n, en, -, hen, -, -, heff⟩ := h
  exact ⟨en, List.mem_of_getElem? hen, by rw [heff]; exact List.mem_singleton_self _⟩

namespace Correlated

theorem congr {l l' : Link} (h : Correlated l) (hreq : l'.requests = l.requests)
    (hrec : l'.received = l.received) (hp : l'.session.pending = l.session.pending)
    (hid : l.session.msgSeq ≤ l'.session.msgSeq) : Correlated l' := by
  constructor
  · rw [hreq]
    intro r hr
    obtain ⟨n, hn, hi⟩ := h.ids r hr
    exact ⟨n, hn.trans hid, hi⟩
  · rw [hreq]; exact h.nodup
  · rw [hp]; exact h.keysNodup
  · rw [hp, hreq]; exact h.keys
  · rw [hreq, hrec]; exact h.regAt
  · rw [hreq, hrec, hp]; exact h.result
  · rw [hreq, hrec]; exact h.returned
  · rw [hrec]; exact h.effects

theorem new (s : DeviceSession) (h : s.pending = []) : Correlated { session := s } := by
  constructor <;> simp [h]

/-! ## The list of requests -/

theorem mem_set {α : Type} {xs : List α} {k : Nat} {x y : α} (h : y ∈ xs.set k x) :
    y = x ∨ ∃ j, j ≠ k ∧ xs[j]? = some y := by
  obtain ⟨j, hj⟩ := List.mem_iff_getElem?.mp h
  by_cases hjk : j = k
  · subst hjk
    rw [List.getElem?_set_self'] at hj
    obtain ⟨z, -, hz⟩ := Option.map_eq_some_iff.mp hj
    exact .inl hz.symm
  · rw [List.getElem?_set_ne (Ne.symm hjk)] at hj
    exact .inr ⟨j, hjk, hj⟩

theorem mem_set_of_ne {α : Type} {xs : List α} {j k : Nat} {x y : α} (hjk : j ≠ k)
    (h : xs[j]? = some y) : y ∈ xs.set k x := by
  refine List.mem_of_getElem? (i := j) ?_
  rw [List.getElem?_set_ne (Ne.symm hjk)]
  exact h

theorem map_set {α β : Type} {f : α → β} {xs : List α} {k : Nat} {x y : α} (h : xs[k]? = some x)
    (hf : f y = f x) : (xs.set k y).map f = xs.map f := by
  rw [List.map_set, hf]
  refine List.ext_getElem? fun j => ?_
  by_cases hjk : j = k
  · subst hjk
    obtain ⟨hlt, hx⟩ := List.getElem?_eq_some_iff.mp h
    rw [List.getElem?_set_self (by simpa using hlt), List.getElem?_map, h]
    rfl
  · rw [List.getElem?_set_ne (Ne.symm hjk)]

theorem msgId_ne {l : Link} (h : Correlated l) {j k : Nat} {r r' : Request} (hjk : j ≠ k)
    (hj : l.requests[j]? = some r) (hk : l.requests[k]? = some r') : r.msgId ≠ r'.msgId := by
  intro he
  have hlt : j < (l.requests.map Request.msgId).length := by
    rw [List.length_map]
    exact (List.getElem?_eq_some_iff.mp hj).1
  refine hjk ((List.getElem?_inj hlt h.nodup).mp ?_)
  simp [List.getElem?_map, hj, hk, he]

/-! ## Starting -/

theorem fresh {l : Link} (h : Correlated l) {n : Nat} (hn : l.session.msgSeq < n) :
    ∀ r ∈ l.requests, r.msgId ≠ DeviceSession.msgIdText n := by
  intro r hr he
  obtain ⟨m, hm, hi⟩ := h.ids r hr
  have := DeviceSession.msgIdText_inj (hi.symm.trans he)
  omega

theorem start {l : Link} (h : Correlated l) (now : Clock) (call : Call) :
    Correlated (l.start now call).1 := by
  have hs := Link.start_started l now call
  generalize l.start now call = out at hs ⊢
  obtain ⟨l', res⟩ := out
  cases hs with
  | failed hseq hid => exact h.congr rfl rfl rfl hid
  | send hmsg hframe =>
      obtain ⟨seq, -, rfl⟩ := hframe.session
      exact h.congr rfl rfl rfl (Nat.le_refl _)
  | @request name body msg frame s msgId hid hmsg hframe =>
      obtain ⟨seq, -, rfl⟩ := hframe.session
      have hfresh := h.fresh (Nat.lt_succ_self l.session.msgSeq)
      have hkey : msgId ∉ l.session.pending.map Prod.fst := by
        rw [h.keys]
        rintro ⟨r, hr, -, he⟩
        exact hfresh r hr (he.trans hid)
      constructor
      · intro r hr
        rcases List.mem_append.mp hr with hr | hr
        · obtain ⟨n, hn, hi⟩ := h.ids r hr
          exact ⟨n, Nat.le_succ_of_le hn, hi⟩
        · rw [List.mem_singleton.mp hr]
          exact ⟨_, Nat.le_refl _, hid⟩
      · rw [List.map_append, List.nodup_append]
        refine ⟨h.nodup, by simp, ?_⟩
        intro a ha b hb
        obtain ⟨r, hr, rfl⟩ := List.mem_map.mp ha
        rw [List.mem_singleton.mp hb, hid]
        exact hfresh r hr
      · dsimp only
        rw [List.map_append, List.nodup_append]
        refine ⟨h.keysNodup, by simp, ?_⟩
        intro a ha b hb
        rw [List.mem_singleton.mp hb]
        rintro rfl
        exact hkey ha
      · intro i
        simp only [List.map_append, List.map_cons, List.map_nil, List.mem_append,
          List.mem_singleton, h.keys i]
        constructor
        · rintro (⟨r, hr, hp, he⟩ | rfl)
          · exact ⟨r, .inl hr, hp, he⟩
          · exact ⟨_, .inr rfl, rfl, rfl⟩
        · rintro ⟨r, hr | rfl, hp, he⟩
          · exact .inl ⟨r, hr, hp, he⟩
          · exact .inr he.symm
      · intro r hr
        rcases List.mem_append.mp hr with hr | hr
        · exact h.regAt r hr
        · rw [List.mem_singleton.mp hr]
      · intro r hr m hm
        have hold : (r.msgId, Fut.result m) ∈ l.session.pending := by
          rcases List.mem_append.mp hm with hm | hm
          · exact hm
          · simp at hm
        rcases List.mem_append.mp hr with hr | hr
        · exact h.result r hr m hold
        · rw [List.mem_singleton.mp hr] at hold
          exact absurd (List.mem_map_of_mem (f := Prod.fst) hold) hkey
      · intro r hr m hm
        rcases List.mem_append.mp hr with hr | hr
        · exact h.returned r hr m hm
        · rw [List.mem_singleton.mp hr] at hm
          cases hm
      · exact h.effects

/-! ## Leaving and waiting -/

/-- A request that leaves in a phase that it may leave in takes its pending entry with it. -/
theorem leave {l : Link} (h : Correlated l) {k : Nat} {r : Request} {p : Phase}
    (hk : l.requests[k]? = some r) (hp : p.inProgress = false)
    (hret : ∀ m, p = .returned m → Answers l.received r m) : Correlated (l.leave k r p) := by
  have hr : r ∈ l.requests := List.mem_of_getElem? hk
  have hmem : ∀ e ∈ (l.session.popPending r.msgId).pending,
      e ∈ l.session.pending ∧ e.1 ≠ r.msgId := by
    intro e he
    simpa [DeviceSession.popPending] using he
  constructor
  · intro x hx
    rcases mem_set hx with rfl | ⟨j, -, hj⟩
    · exact h.ids r hr
    · exact h.ids x (List.mem_of_getElem? hj)
  · have hids : (l.leave k r p).requests.map Request.msgId = l.requests.map Request.msgId :=
      map_set (f := Request.msgId) hk rfl
    rw [hids]
    exact h.nodup
  · exact (h.keysNodup.sublist (List.filter_sublist.map _))
  · intro i
    have hi : i ∈ (l.session.popPending r.msgId).pending.map Prod.fst ↔
        i ∈ l.session.pending.map Prod.fst ∧ i ≠ r.msgId := by
      constructor
      · intro hi
        obtain ⟨e, he, rfl⟩ := List.mem_map.mp hi
        exact ⟨List.mem_map_of_mem (hmem e he).1, (hmem e he).2⟩
      · rintro ⟨hi, hne⟩
        obtain ⟨e, he, rfl⟩ := List.mem_map.mp hi
        refine List.mem_map_of_mem ?_
        simpa [DeviceSession.popPending] using ⟨he, hne⟩
    refine hi.trans ?_
    rw [h.keys]
    constructor
    · rintro ⟨⟨x, hx, hprog, rfl⟩, hne⟩
      obtain ⟨j, hj⟩ := List.mem_iff_getElem?.mp hx
      have hjk : j ≠ k := by
        rintro rfl
        rw [hk] at hj
        cases hj
        exact hne rfl
      exact ⟨x, mem_set_of_ne hjk hj, hprog, rfl⟩
    · rintro ⟨x, hx, hprog, rfl⟩
      rcases mem_set hx with rfl | ⟨j, hjk, hj⟩
      · rw [hp] at hprog
        cases hprog
      · exact ⟨⟨x, List.mem_of_getElem? hj, hprog, rfl⟩, h.msgId_ne hjk hj hk⟩
  · intro x hx
    rcases mem_set hx with rfl | ⟨j, -, hj⟩
    · exact h.regAt r hr
    · exact h.regAt x (List.mem_of_getElem? hj)
  · intro x hx m hm
    obtain ⟨hm, hne⟩ := hmem _ hm
    rcases mem_set hx with rfl | ⟨j, -, hj⟩
    · exact absurd rfl hne
    · exact h.result x (List.mem_of_getElem? hj) m hm
  · intro x hx m hm
    rcases mem_set hx with rfl | ⟨j, -, hj⟩
    · exact hret m hm
    · exact h.returned x (List.mem_of_getElem? hj) m hm
  · exact h.effects

theorem wait {l : Link} (h : Correlated l) {k : Nat} {r : Request} (hk : l.requests[k]? = some r)
    (hprog : r.phase.inProgress = true) :
    Correlated { l with requests := l.requests.set k { r with phase := .waiting } } := by
  have hr : r ∈ l.requests := List.mem_of_getElem? hk
  constructor
  · intro x hx
    rcases mem_set hx with rfl | ⟨j, -, hj⟩
    · exact h.ids r hr
    · exact h.ids x (List.mem_of_getElem? hj)
  · have hids : (l.requests.set k { r with phase := .waiting }).map Request.msgId
        = l.requests.map Request.msgId := map_set (f := Request.msgId) hk rfl
    dsimp only
    rw [hids]
    exact h.nodup
  · exact h.keysNodup
  · intro i
    rw [h.keys]
    constructor
    · rintro ⟨x, hx, hp, rfl⟩
      obtain ⟨j, hj⟩ := List.mem_iff_getElem?.mp hx
      by_cases hjk : j = k
      · subst hjk
        rw [hk] at hj
        cases hj
        exact ⟨_, List.mem_set (List.getElem?_eq_some_iff.mp hk).1 _, rfl, rfl⟩
      · exact ⟨x, mem_set_of_ne hjk hj, hp, rfl⟩
    · rintro ⟨x, hx, hp, rfl⟩
      rcases mem_set hx with rfl | ⟨j, -, hj⟩
      · exact ⟨r, hr, hprog, rfl⟩
      · exact ⟨x, List.mem_of_getElem? hj, hp, rfl⟩
  · intro x hx
    rcases mem_set hx with rfl | ⟨j, -, hj⟩
    · exact h.regAt r hr
    · exact h.regAt x (List.mem_of_getElem? hj)
  · intro x hx m hm
    rcases mem_set hx with rfl | ⟨j, -, hj⟩
    · exact h.result r hr m hm
    · exact h.result x (List.mem_of_getElem? hj) m hm
  · intro x hx m hm
    rcases mem_set hx with rfl | ⟨j, -, hj⟩
    · cases hm
    · exact h.returned x (List.mem_of_getElem? hj) m hm
  · exact h.effects

/-- A result in the pending table belongs to the request it is looked up for. -/
theorem result_of_lookup {l : Link} (h : Correlated l) {r : Request} (hr : r ∈ l.requests) {m : Json}
    (hm : l.session.pending.lookup r.msgId = some (.result m)) : Answers l.received r m :=
  h.result r hr m (mem_of_lookup hm)

theorem sendDone {l : Link} (h : Correlated l) (k : Nat) (ok : Bool) :
    Correlated (l.sendDone k ok) := by
  unfold Link.sendDone
  split
  · exact h
  · rename_i r hk
    split
    · exact h
    · rename_i hphase
      have hsending : r.phase = .sending := by simpa using hphase
      split
      · exact h.leave hk rfl (by simp)
      · split
        · rename_i m hm
          refine h.leave hk rfl fun m' he => ?_
          cases he
          exact h.result_of_lookup (List.mem_of_getElem? hk) hm
        · exact h.wait hk (by rw [hsending]; rfl)

theorem wake {l : Link} (h : Correlated l) (k : Nat) (raises : Bool) :
    Correlated (l.wake k raises) := by
  unfold Link.wake
  split
  · exact h
  · rename_i r hk
    split
    · exact h
    · split
      · exact h.leave hk rfl (by simp)
      · split
        · rename_i m hm
          refine h.leave hk rfl fun m' he => ?_
          cases he
          exact h.result_of_lookup (List.mem_of_getElem? hk) hm
        · exact h

/-! ## Futures -/

theorem setFuture_keys (s : DeviceSession) (i : Str) (f : Fut) :
    (s.setFuture i f).pending.map Prod.fst = s.pending.map Prod.fst := by
  simp only [DeviceSession.setFuture, List.map_map]
  refine List.map_congr_left fun e _ => ?_
  simp only [Function.comp_apply]
  split <;> rfl

theorem mem_setFuture {s : DeviceSession} {i j : Str} {f g : Fut}
    (h : (j, g) ∈ (s.setFuture i f).pending) :
    (j, g) ∈ s.pending ∨ (j = i ∧ g = f ∧ (i, Fut.waiting) ∈ s.pending) := by
  obtain ⟨e, he, hje⟩ := List.mem_map.mp h
  obtain ⟨e₁, e₂⟩ := e
  split at hje
  · rename_i hc
    obtain ⟨rfl, hdone⟩ := hc
    cases hje
    cases e₂ with
    | waiting => exact .inr ⟨rfl, rfl, he⟩
    | result m => cases hdone
    | cancelled => cases hdone
  · cases hje
    exact .inl he

theorem expire {l : Link} (h : Correlated l) (k : Nat) : Correlated (l.expire k) := by
  unfold Link.expire
  split
  · exact h
  · split
    · exact h
    · refine ⟨h.ids, h.nodup, ?_, ?_, h.regAt, ?_, h.returned, h.effects⟩
      · dsimp only
        rw [setFuture_keys]
        exact h.keysNodup
      · intro i
        dsimp only
        rw [setFuture_keys]
        exact h.keys i
      · intro r hr m hm
        rcases mem_setFuture hm with hm | ⟨-, hm, -⟩
        · exact h.result r hr m hm
        · cases hm

/-! ## Dispatch -/

theorem completedIn_self (p : List (Str × Fut)) : Link.completedIn p p = [] := by
  induction p with
  | nil => rfl
  | cons e p ih =>
      obtain ⟨i, f⟩ := e
      cases f <;> exact ih

/-- Setting a future completes the request that waits for it, if any. -/
theorem completedIn_setFuture {s : DeviceSession} (hs : (s.pending.map Prod.fst).Nodup) {i : Str}
    {f : Fut} (hf : s.pending.lookup i = some f) (m : Json) :
    Link.completedIn s.pending (s.setFuture i (.result m)).pending
      = if f = .waiting then [i] else [] := by
  unfold DeviceSession.setFuture
  dsimp only
  generalize s.pending = p at hs hf
  induction p with
  | nil => cases hf
  | cons e p ih =>
      obtain ⟨j, g⟩ := e
      simp only [List.map_cons, List.nodup_cons] at hs
      by_cases hij : i = j
      · subst hij
        have hg : g = f := by simpa using hf
        subst hg
        have hrest : p.map (fun e => if e.1 = i ∧ (!e.2.done) = true then (e.1, Fut.result m) else e)
            = p := by
          refine (List.map_congr_left fun e he => ?_).trans p.map_id'
          have hne : e.1 ≠ i := fun h => hs.1 (h ▸ List.mem_map_of_mem he)
          simp [hne]
        rw [List.map_cons, hrest]
        cases g <;> simp [Fut.done, Link.completedIn, completedIn_self]
      · have hf' : p.lookup i = some f := by
          simpa [List.lookup_cons, beq_eq_false_iff_ne.mpr hij] using hf
        rw [List.map_cons]
        dsimp only
        rw [if_neg (fun h => hij h.1.symm)]
        cases g <;> exact ih hs.2 hf'

/-- A dispatched message has one effect at most. -/
theorem dispatch {l : Link} (h : Correlated l) (now : Clock) (callbacks : Str → Bool) (msg : Json) :
    Correlated (l.dispatch now callbacks msg).1 := by
  unfold Link.dispatch
  cases hd : l.session.dispatch now callbacks msg with
  | mk s res =>
      have hcases := DeviceSession.dispatch_cases hd
      -- without a reply the pending table stays, and at most the callback is an effect
      have hquiet : ∀ en : Received, en.effects.length ≤ 1 →
          Correlated { l with session := { l.session with lastRxMs := now.ms }
                              received := l.received ++ [en] } := by
        intro en hen
        refine ⟨h.ids, h.nodup, h.keysNodup, h.keys, ?_, ?_, ?_, ?_⟩
        · intro r hr
          rw [List.length_append]
          exact Nat.le_add_right_of_le (h.regAt r hr)
        · exact fun r hr m hm => (h.result r hr m hm).append en
        · exact fun r hr m hm => (h.returned r hr m hm).append en
        · intro e he
          rcases List.mem_append.mp he with he | he
          · exact h.effects e he
          · rw [List.mem_singleton.mp he]
            exact hen
      cases hcases with
      | @reply d i f hmsg hirt hp =>
          have hcomp := completedIn_setFuture h.keysNodup hp msg
          have hcomp' : Link.completedIn l.session.pending
              (DeviceSession.setFuture { l.session with lastRxMs := now.ms } i (.result msg)).pending
              = if f = .waiting then [i] else [] := hcomp
          dsimp only
          rw [hcomp', List.append_nil]
          refine ⟨h.ids, h.nodup, ?_, ?_, ?_, ?_, ?_, ?_⟩
          · dsimp only
            rw [setFuture_keys]
            exact h.keysNodup
          · intro j
            dsimp only
            rw [setFuture_keys]
            exact h.keys j
          · intro r hr
            rw [List.length_append]
            exact Nat.le_add_right_of_le (h.regAt r hr)
          · intro r hr m hm
            rcases mem_setFuture hm with hm | ⟨hri, hm, hwait⟩
            · exact (h.result r hr m hm).append _
            · cases hm
              have hf : f = .waiting := by
                have := lookup_of_mem h.keysNodup hwait
                rw [hp] at this
                injection this
              refine ⟨l.received.length, ⟨msg, now, [.completed i]⟩, h.regAt r hr, ?_, rfl,
                ⟨d, hmsg, hri ▸ hirt⟩, by rw [hri]⟩
              rw [List.getElem?_append_right (Nat.le_refl _), Nat.sub_self, if_pos hf]
              rfl
          · exact fun r hr m hm => (h.returned r hr m hm).append _
          · intro e he
            rcases List.mem_append.mp he with he | he
            · exact h.effects e he
            · rw [List.mem_singleton.mp he]
              dsimp only
              split <;> simp
      | callback hmsg hkey hcb =>
          dsimp only
          rw [completedIn_self]
          exact hquiet _ (by simp)
      | dropped =>
          dsimp only
          rw [completedIn_self]
          exact hquiet _ (by simp)
      | raised =>
          dsimp only
          rw [completedIn_self]
          exact hquiet _ (by simp)

end Correlated

end Fountainer
