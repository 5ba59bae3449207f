import Fountainer.System.Invariant
import Fountainer.System.Lemmas.Correlated

/-!
# Requests and replies of all sessions
-/

namespace Fountainer

theorem Correlated.connStep {s₀ s : State} {e : Step} {c : Nat} {x x' : Conn}
    (h : ConnStep s₀ e s c x x') (hx : Correlated x.link) : Correlated x'.link := by
  cases h with
  | quiet hq => exact hx
  | helloFailed hpc =>
      rename_i d code
      obtain ⟨cn, kid, key, hs, -⟩ := DeviceSession.hello_session x.link.session s.now d
      refine hx.congr rfl rfl ?_ ?_
      · rw [hs]
      · rw [hs]
  | helloAcked hpc hack =>
      rename_i d ack accepted
      obtain ⟨cn, kid, key, hs, -⟩ := DeviceSession.hello_session x.link.session s.now d
      refine hx.congr rfl rfl ?_ ?_
      · simp only [Link.push, hs]
      · simp only [Link.push, hs, Nat.le_refl]
  | verified hpc hs he hv =>
      obtain ⟨replay, rfl⟩ := DeviceSession.verifyC2s_session hv
      exact hx.congr rfl rfl rfl (Nat.le_refl _)
  | start ho => exact hx.start ..
  | sendDone k ok => exact hx.sendDone k ok
  | expire k => exact hx.expire k
  | wake k raises => exact hx.wake k raises
  | dispatch hpc he => exact hx.dispatch ..

theorem correlated_micro {cfg : Config} {s₀ s s' : State} {e : Step} (hm : Micro cfg s₀ e s s')
    (h : s.Each fun x => Correlated x.link) : s'.Each fun x => Correlated x.link := by
  refine hm.each ?_ ?_ ?_ ?_ ?_ h
  · exact fun d device rand _ _ => Correlated.new _ rfl
  · exact fun x b hx => hx
  · exact fun c x x' _ hs hx => hx.connStep hs
  · exact fun c x _ _ hx => hx.congr rfl rfl rfl (Nat.le_refl _)
  · exact fun x hx => hx

theorem correlated_after (cfg : Config) (t : Nat) (es : List Step) :
    (State.after cfg t es).Each fun x => Correlated x.link := by
  refine always_of_micro ?_ (fun s₀ e s s' _ hm => correlated_micro hm)
  intro c x hx
  cases hx

/-- Request/reply correlation on every session, in every run of the server. -/
theorem requests_correlated (cfg : Config) (t : Nat) (es : List Step) (c : Nat) (x : Conn)
    (hx : (State.after cfg t es).conns c = some x) :
    -- a request returns a message of its own session, received after it was registered
    (∀ r ∈ x.link.requests, ∀ m, r.phase = .returned m →
      ∃ n en, r.regAt ≤ n ∧ x.link.received[n]? = some en ∧ en.msg = m ∧
        NamesReply m r.msgId ∧ en.effects = [.completed r.msgId]) ∧
    -- a received message completes one request or goes to one callback, at most
    (∀ en ∈ x.link.received, en.effects.length ≤ 1) ∧
    -- and no two requests return the same message
    (∀ (j k n : Nat) (rj rk : Request) (en : Received), x.link.requests[j]? = some rj → x.link.requests[k]? = some rk →
      x.link.received[n]? = some en → Effect.completed rj.msgId ∈ en.effects →
      Effect.completed rk.msgId ∈ en.effects → j = k) ∧
    (x.link.requests.map Request.msgId).Nodup ∧
    -- the pending table holds the requests in progress
    (∀ i, i ∈ x.link.session.pending.map Prod.fst ↔
      ∃ r ∈ x.link.requests, r.phase.inProgress ∧ r.msgId = i) ∧
    (x.link.session.pending.map Prod.fst).Nodup ∧
    ((∀ r ∈ x.link.requests, r.phase.inProgress = false) → x.link.session.pending = []) := by
  have h := correlated_after cfg t es c x hx
  refine ⟨h.returned, h.effects, ?_, h.nodup, h.keys, h.keysNodup, ?_⟩
  · intro j k n rj rk en hj hk hn hcj hck
    have hlen := h.effects en (List.mem_of_getElem? hn)
    have hid : rj.msgId = rk.msgId := by
      match he : en.effects with
      | [] => simp [he] at hcj
      | [f] =>
          simp only [he, List.mem_singleton] at hcj hck
          rw [← hck] at hcj
          injection hcj
      | f :: g :: rest => simp [he] at hlen
    by_contra hjk
    exact h.msgId_ne hjk hj hk hid
  · intro hdone
    have hnone : x.link.session.pending.map Prod.fst = [] := by
      refine List.eq_nil_iff_forall_not_mem.mpr fun i hi => ?_
      obtain ⟨r, hr, hp, -⟩ := (h.keys i).mp hi
      rw [hdone r hr] at hp
      cases hp
    exact List.map_eq_nil_iff.mp hnone

/-- A reply of the device to its first request. -/
def sampleReply : Dict :=
  [(py "type", .str (py "dp_report")), (py "in_reply_to", .str (py "s-1")), (py "dp", .obj [])]

def sampleRequest : List Step :=
  sampleHandshake 0 [7] "n" ++
    [.dpRead (py "fon-1") configNames, .recv 0 (.json (.obj sampleReply)), .sendDone 0 0 true]

/-- A request whose reply arrives while its frame is still being sent. -/
theorem requests_correlated_sample :
    ∃ x, (State.after sampleConfig 0 sampleRequest).conns 0 = some x ∧
      ∃ r ∈ x.link.requests, r.phase = .returned (.obj sampleReply) ∧
        ∃ n en, r.regAt ≤ n ∧ x.link.received[n]? = some en ∧ en.msg = .obj sampleReply ∧
          NamesReply (.obj sampleReply) r.msgId ∧ en.effects = [.completed r.msgId] := by
  have hrun : ((State.after sampleConfig 0 sampleRequest).conns 0).any (fun x =>
      x.link.requests.any fun r => decide (r.phase = .returned (.obj sampleReply))) = true := by
    decide +kernel
  obtain ⟨x, hx, hany⟩ := (Option.any_eq_true _ _).mp hrun
  obtain ⟨r, hr, hp⟩ := List.any_eq_true.mp hany
  have hret := of_decide_eq_true hp
  exact ⟨x, hx, r, hr, hret, (requests_correlated _ _ _ _ x hx).1 r hr _ hret⟩

end Fountainer
