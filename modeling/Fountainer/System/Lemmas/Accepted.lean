import Fountainer.Proto.Peer
import Fountainer.System.Lemmas.Link

/-!
# Signed frames in order

The signed frames of a link pass the check of the device, and their sequence numbers increase in the
order in which they were handed to the connection.
-/

namespace Fountainer

/-- The sequence number of a signed frame. -/
def frameSeq (frame : Dict) : Int := (authSeq frame).asInt.getD 0

/-- Signed frames carry increasing sequence numbers and a MAC that the peer recomputes. -/
structure Accepted (l : Link) : Prop where
  verified : ∀ f ∈ l.sent, isControlFrame f →
    verify (l.session.params .s2c) f = .ok .ok ∧
      ∃ n : Nat, authSeq f = .int n ∧ 0 < n ∧ n ≤ l.session.s2cSeq
  ordered : l.sent.Pairwise fun f g => isControlFrame f → isControlFrame g → frameSeq f < frameSeq g

/-- A MAC is never accepted before the hello has fixed the kid. -/
theorem verify_ok_kid {p : AuthParams} {f : Dict} (h : verify p f = .ok .ok) : p.kid ≠ none := by
  intro hkid
  unfold verify at h
  split at h
  · rename_i auth hauth
    rw [hkid] at h
    split at h
    · cases h
    · rename_i hget
      split at h
      · cases h
      · obtain ⟨kid, hitem, h⟩ := ok_of_bind h
        obtain ⟨f', hf, h⟩ := ok_of_bind h
        have hnull : kid = .null := by
          simp only [optText, ne_eq, Decidable.not_not] at hget
          unfold Dict.item at hitem
          split at hitem
          · rename_i v hv
            cases hitem
            rw [← Dict.get_of_lookup hv]
            exact hget
          · cases hitem
        obtain ⟨_, _, _, _, -, -, -, -, -, -, -, -, -, -, -, -, htext, -⟩ := messageFields_eq_ok hf
        rw [hnull] at htext
        cases htext
  · cases h

theorem Accepted.kid_of_control {l : Link} (h : Accepted l) (hkid : l.session.kid = none) :
    ∀ f ∈ l.sent, isControlFrame f = false := by
  intro f hf
  by_contra hc
  have := (h.verified f hf (by simpa using hc)).1
  exact verify_ok_kid this hkid

theorem Accepted.congr {l l' : Link} (h : Accepted l) (hsent : l'.sent = l.sent)
    (hparams : l'.session.params .s2c = l.session.params .s2c)
    (hseq : l.session.s2cSeq ≤ l'.session.s2cSeq) : Accepted l' := by
  constructor
  · intro f hf hc
    rw [hsent] at hf
    obtain ⟨hv, n, hn, hpos, hle⟩ := h.verified f hf hc
    exact ⟨hparams ▸ hv, n, hn, hpos, hle.trans hseq⟩
  · rw [hsent]
    exact h.ordered

theorem Accepted.of_no_control {l : Link} (h : ∀ f ∈ l.sent, isControlFrame f = false) :
    Accepted l := by
  constructor
  · intro f hf hc
    simp [h f hf] at hc
  · refine List.pairwise_of_forall_mem_list ?_
    intro f hf g _ hc
    simp [h f hf] at hc

theorem isControlFrame_of_type {f : Dict} {name : Str} (h : f.get (py "type") = .str name) :
    isControlFrame f = isControl name := by
  simp only [isControlFrame, h]

/-- A frame of `send` or `request` is signed exactly when its type is a control type. -/
theorem Accepted.push {l : Link} (h : Accepted l) {name : Str} {body msg frame : Dict}
    {msgId : Option Str} {irt : Json} {now : Clock} {s₀ s : DeviceSession}
    (hbody : py "type" ∉ body.map Prod.fst)
    (hmsg : buildMessage name body none msgId irt now = .ok msg)
    (hframe : DeviceSession.Framed s₀ name msg s frame)
    (hparams : s₀.params .s2c = l.session.params .s2c) (hseq : s₀.s2cSeq = l.session.s2cSeq) {l' : Link}
    (hsent : l'.sent = l.sent ++ [frame]) (hparams' : l'.session.params .s2c = s.params .s2c)
    (hseq' : l'.session.s2cSeq = s.s2cSeq) : Accepted l' := by
  have htype := DeviceSession.buildMessage_type hmsg hbody
  cases hframe with
  | plain hc =>
      have hplain : isControlFrame msg = false := by rw [isControlFrame_of_type htype, hc]
      constructor
      · intro f hf hcf
        rw [hsent, List.mem_append, List.mem_singleton] at hf
        rcases hf with hf | rfl
        · obtain ⟨hv, n, hn, hpos, hle⟩ := h.verified f hf hcf
          exact ⟨by rw [hparams', hparams]; exact hv, n, hn, hpos, by omega⟩
        · simp [hplain] at hcf
      · rw [hsent, List.pairwise_append]
        refine ⟨h.ordered, List.pairwise_singleton .., ?_⟩
        intro f _ g hg _ hcg
        rw [List.mem_singleton.mp hg, hplain] at hcg
        cases hcg
  | signed hc hsign =>
      obtain ⟨hv, hauth⟩ := verify_sign hsign
      constructor
      · intro f hf hcf
        rw [hsent, List.mem_append, List.mem_singleton] at hf
        rcases hf with hf | rfl
        · obtain ⟨hv', n, hn, hpos, hle⟩ := h.verified f hf hcf
          refine ⟨?_, n, hn, hpos, ?_⟩
          · rw [hparams']
            exact hparams ▸ hv'
          · rw [hseq']
            dsimp only
            omega
        · refine ⟨?_, s₀.s2cSeq + 1, by exact_mod_cast hauth, Nat.succ_pos _, ?_⟩
          · rw [hparams']
            exact hv
          · rw [hseq']
      · rw [hsent, List.pairwise_append]
        refine ⟨h.ordered, List.pairwise_singleton .., ?_⟩
        intro f hf g hg hcf _
        obtain ⟨-, n, hn, -, hle⟩ := h.verified f hf hcf
        rw [List.mem_singleton.mp hg, frameSeq, frameSeq, hn, hauth]
        simp only [Json.asInt, Option.getD_some]
        omega

/-- A call whose body does not override the type keeps the frames acceptable. -/
theorem Accepted.start {l : Link} (h : Accepted l) (now : Clock) (call : Call)
    (hbody : py "type" ∉ call.body.map Prod.fst) : Accepted (l.start now call).1 := by
  have hs := Link.start_started l now call
  generalize l.start now call = out at hs ⊢
  obtain ⟨l', r⟩ := out
  cases hs with
  | failed hseq hid => exact h.congr rfl rfl hseq
  | send hmsg hframe => exact h.push hbody hmsg hframe rfl rfl rfl rfl rfl
  | request hid hmsg hframe => exact h.push hbody hmsg hframe rfl rfl rfl rfl rfl

/-! ## What the device does with the frames -/

theorem acceptsAll_of_ordered {p : AuthParams} {fs : List Dict} {r : AntiReplay}
    (hv : ∀ f ∈ fs, isControlFrame f → verify p f = .ok .ok ∧
      ∃ n : Nat, authSeq f = .int n ∧ r.last < n)
    (ho : fs.Pairwise fun f g => isControlFrame f → isControlFrame g → frameSeq f < frameSeq g) :
    acceptsAll p r fs = true := by
  induction fs generalizing r with
  | nil => rfl
  | cons f fs ih =>
      have hrest : ∀ g ∈ fs, isControlFrame g → verify p g = .ok .ok ∧
          ∃ n : Nat, authSeq g = .int n ∧ r.last < n :=
        fun g hg => hv g (List.mem_cons_of_mem _ hg)
      unfold acceptsAll
      split
      · rename_i hc
        obtain ⟨hok, n, hn, hlt⟩ := hv f List.mem_cons_self hc
        have hcheck : verifyS2c p r f = (⟨n⟩, true) := by
          simp only [verifyS2c, hok, hn, AntiReplay.check, Json.asInt]
          rw [if_neg (by omega)]
        simp only [hcheck, Bool.true_and]
        refine ih ?_ (List.Pairwise.of_cons ho)
        intro g hg hcg
        obtain ⟨hokg, m, hm, -⟩ := hrest g hg hcg
        have hfg := List.rel_of_pairwise_cons ho hg hc hcg
        simp only [frameSeq, hn, hm, Json.asInt, Option.getD_some] at hfg
        exact ⟨hokg, m, hm, hfg⟩
      · exact ih hrest (List.Pairwise.of_cons ho)

/-- Whatever part of the frames arrives in order, the device accepts it. -/
theorem Accepted.accepts {l : Link} (h : Accepted l) {got : List Dict} (hgot : got.Sublist l.sent) :
    acceptsAll (l.session.params .s2c) {} got = true := by
  refine acceptsAll_of_ordered ?_ (h.ordered.sublist hgot)
  intro f hf hc
  obtain ⟨hok, n, hn, hpos, -⟩ := h.verified f (hgot.subset hf) hc
  exact ⟨hok, n, hn, Int.natCast_pos.mpr hpos⟩

end Fountainer
