import Fountainer.Library.Matching
import Fountainer.System.Admin
import Fountainer.System.Provenance

/-!
# Control calls and the frames of a connection

The commands and datapoint writes on a connection are control calls that found this connection as the
session of their device: the same bodies, in the order of the calls.
-/

namespace Fountainer

variable {cfg : Config}

def Call.name : Call → Str
  | .send name _ _ | .request name _ => name

/-! ## The frame of a call -/

/-- The frame is the message of the call. -/
def Carried (frame : Dict) (call : Call) : Prop :=
  frame.get (py "type") = .str call.name ∧ bodyFields frame = call.body

theorem Link.start_carried {l : Link} {now : Clock} {call : Call} {frame : Dict} (hcall : call.Fields)
    (hsent : (l.start now call).1.sent = l.sent ++ [frame]) : Carried frame call := by
  have hmem : frame ∈ (l.start now call).1.sent.drop l.sent.length := by
    rw [hsent, List.drop_left]
    exact List.mem_singleton_self _
  refine ⟨?_, start_bodyFields hcall hmem⟩
  have htype : py "type" ∉ call.body.map Prod.fst := fun hmem => hcall.clean _ hmem (by decide)
  have hframed : ∀ {s s' : DeviceSession} {name : Str} {msg frame : Dict},
      DeviceSession.Framed s name msg s' frame → frame.get (py "type") = msg.get (py "type") := by
    intro s s' name msg frame h
    cases h with
    | plain => rfl
    | signed _ hsign =>
        obtain ⟨x, -, rfl⟩ := sign_eq_ok hsign
        exact Dict.get_set_of_ne (by decide)
  have hs := Link.start_started l now call
  generalize l.start now call = out at hs hsent
  obtain ⟨l', r⟩ := out
  cases hs with
  | failed => simp at hsent
  | send hmsg hframe =>
      obtain rfl : _ = frame := by simpa using hsent
      exact (hframed hframe).trans (DeviceSession.buildMessage_type hmsg htype)
  | request hid hmsg hframe =>
      obtain rfl : _ = frame := by simpa using hsent
      exact (hframed hframe).trans (DeviceSession.buildMessage_type hmsg htype)

theorem Call.Fields.of_keys {call : Call} (ks : List Str) (hkeys : call.body.map Prod.fst = ks)
    (h : decide (ks.Nodup ∧ ∀ k ∈ ks, k ∉ envelopeFields) = true) : call.Fields := by
  subst hkeys
  exact ⟨(of_decide_eq_true h).2, (of_decide_eq_true h).1⟩

/-- The calls of the application name no envelope field. -/
theorem Spoken.fields {ok : Step → Prop} {d : Str} {now : Clock} {call : Call}
    (h : Spoken cfg ok d now call) (hok : ∀ d call, ok (.api d call) → call.Fields) : call.Fields := by
  cases h with
  | api h => exact hok _ _ h
  | dpRead h => exact .of_keys [py "names"] rfl rfl
  | config => exact .of_keys [py "names"] rfl rfl
  | logRead => exact .of_keys [py "since_seq", py "min_level", py "max_records"] rfl rfl
  | logReadPrev => exact .of_keys [py "min_level", py "max_records"] rfl rfl
  | logAckPrev => exact .of_keys [py "boot_id"] rfl rfl
  | historyRead => exact .of_keys [py "since_seq", py "max_samples"] rfl rfl
  | otaNone => exact .of_keys [] rfl rfl
  | otaAvailable =>
      exact .of_keys [py "target_version", py "url", py "size", py "crc32", py "sha256",
        py "mandatory"] rfl rfl

/-! ## The calls of a connection -/

/-- The messages that only a control call sends. -/
def controlTypes : List Str := [py "command", py "dp_write"]

def isControlCall (frame : Dict) : Bool :=
  match frame.get (py "type") with
  | .str name => decide (name ∈ controlTypes)
  | _ => false

theorem Carried.isControlCall {frame : Dict} {call : Call} (h : Carried frame call) :
    isControlCall frame = decide (call.name ∈ controlTypes) := by
  rw [Fountainer.isControlCall, h.1]

theorem Spoken.name {ok : Step → Prop} {d : Str} {now : Clock} {call : Call}
    (h : Spoken cfg ok d now call) (hname : call.name ∈ controlTypes) : ok (.api d call) := by
  cases h with
  | api h => exact h
  | dpRead | config => exact absurd (show py "dp_read" ∈ controlTypes from hname) (by decide)
  | logRead => exact absurd (show py "log_read" ∈ controlTypes from hname) (by decide)
  | logReadPrev => exact absurd (show py "log_read_prev" ∈ controlTypes from hname) (by decide)
  | logAckPrev => exact absurd (show py "log_ack_prev" ∈ controlTypes from hname) (by decide)
  | historyRead => exact absurd (show py "history_read" ∈ controlTypes from hname) (by decide)
  | otaNone => exact absurd (show py "ota_none" ∈ controlTypes from hname) (by decide)
  | otaAvailable => exact absurd (show py "ota_available" ∈ controlTypes from hname) (by decide)

/-- The control call of a step that connection `c` gets. -/
def State.routes (s : State) (c : Nat) : Step → List Call
  | .api d call => if s.sessions d = some c then [call] else []
  | _ => []

/-- The control calls that connection `c` gets in a run, oldest first. -/
def State.routed (cfg : Config) (c : Nat) : State → List Step → List Call
  | _, [] => []
  | s, e :: es => s.routes c e ++ routed cfg c (s.step cfg e) es

theorem State.routed_append (c : Nat) (s : State) (es fs : List Step) :
    routed cfg c s (es ++ fs) = routed cfg c s es ++ routed cfg c (Run.run (step cfg) s es) fs := by
  induction es generalizing s with
  | nil => rfl
  | cons e es ih => rw [List.cons_append, routed, ih, routed, List.append_assoc, Run.run_cons]

/-- A routed call is a control call of the run. -/
theorem State.api_of_routed {c : Nat} {s : State} {es : List Step} {call : Call} (h : call ∈ routed cfg c s es) :
    ∃ d, .api d call ∈ es := by
  induction es generalizing s with
  | nil => cases h
  | cons e es ih =>
      rcases List.mem_append.mp h with h | h
      · cases e with
        | api d call' =>
            rw [routes] at h
            split at h
            · cases List.mem_singleton.mp h
              exact ⟨d, List.mem_cons_self⟩
            · cases h
        | _ => cases h
      · obtain ⟨d, hd⟩ := ih h
        exact ⟨d, List.mem_cons_of_mem _ hd⟩

/-- The commands and writes of a connection match calls of `calls c`, in order. -/
def Ordered (calls : Nat → List Call) (c : Nat) (_ : Str) (sent : List Dict) : Prop :=
  List.SublistForall₂ Carried (sent.filter isControlCall) (calls c)

theorem Ordered.other {calls : Nat → List Call} {c : Nat} {d : Str} {sent : List Dict} {frame : Dict}
    (h : Ordered calls c d sent) (hframe : isControlCall frame = false) :
    Ordered calls c d (sent ++ [frame]) := by
  rw [Ordered, List.filter_append, List.filter_cons_of_neg (by rw [hframe]; exact Bool.false_ne_true),
    List.filter_nil, List.append_nil]
  exact h

/-- No step other than a control call sends a command or a write. -/
theorem framesKept_ordered (cfg : Config) (now : Clock) (calls : Nat → List Call) :
    FramesKept cfg (fun e => ∀ d call, e ≠ .api d call) now (Ordered calls) := by
  constructor
  · exact fun c d => .nil
  · intro c d sent ack h hack
    refine h.other ?_
    rw [isControlCall, hack]
    decide
  · intro c d l call frame h hc hsent
    have hcarried := Link.start_carried (hc.fields fun d call hno => absurd rfl (hno d call)) hsent
    refine h.other ?_
    rw [hcarried.isControlCall]
    exact decide_eq_false fun hname => hc.name hname d call rfl

theorem State.api_ordered {s : State} {calls : Nat → List Call} {d : Str} {call : Call}
    (h : s.Heard (Ordered calls)) (hcall : call.Fields) :
    (s.step cfg (.api d call)).Heard (Ordered fun c => calls c ++ s.routes c (.api d call)) := by
  have hmore : ∀ c x, s.conns c = some x →
      x.Heard (Ordered fun c => calls c ++ s.routes c (.api d call)) c :=
    fun c x hx => ⟨(h c x hx).device, Matching.append_right (h c x hx).frames _⟩
  dsimp only [step]
  cases hd : s.sessions d with
  | none => exact hmore
  | some c =>
      dsimp only
      cases hx : s.conns c with
      | none =>
          unfold startOn
          rw [hx]
          exact hmore
      | some x =>
          rw [startOn_eq hx]
          refine (HeardAt.setConn ⟨rfl, hmore⟩ ?_).2
          obtain ⟨seq, id, p, -, hs⟩ := Link.start_session x.link s.now call
          refine ⟨by dsimp only; rw [hs]; exact (h c x hx).device, ?_⟩
          dsimp only
          rcases Link.start_sent x.link s.now call with hsent | ⟨frame, hsent⟩
          · rw [hsent]
            exact (hmore c x hx).frames
          · rw [hsent]
            have hcarried := Link.start_carried hcall hsent
            by_cases hframe : Fountainer.isControlCall frame = true
            · rw [Ordered, List.filter_append, List.filter_cons_of_pos hframe, List.filter_nil, routes, if_pos hd]
              exact Matching.append (h c x hx).frames (.cons hcarried .nil)
            · exact Ordered.other (hmore c x hx).frames (by simpa using hframe)

/-- In every run the commands and writes of a connection are control calls that it got, in their order. -/
theorem State.ordered_after (cfg : Config) (t : Nat) (es : List Step)
    (hes : ∀ d call, .api d call ∈ es → call.Fields) :
    (after cfg t es).Heard (Ordered fun c => routed cfg c (init t) es) := by
  induction es using List.reverseRecOn with
  | nil => exact fun c x hx => (by cases hx)
  | append_singleton es e ih =>
      have hbefore := ih fun d call hmem => hes d call (List.mem_append_left _ hmem)
      have hrouted : (fun c => routed cfg c (init t) (es ++ [e])) =
          fun c => routed cfg c (init t) es ++ (after cfg t es).routes c e := by
        funext c
        rw [routed_append, routed, routed, List.append_nil]
      rw [after_snoc, hrouted]
      by_cases hapi : ∃ d call, e = .api d call
      · obtain ⟨d, call, rfl⟩ := hapi
        exact api_ordered hbefore (hes d call (List.mem_append_right _ (List.mem_singleton_self _)))
      · have hno : ∀ d call, e ≠ .api d call := fun d call he => hapi ⟨d, call, he⟩
        have hnone : ∀ c, (after cfg t es).routes c e = [] := by
          intro c
          cases e with
          | api d call => exact absurd rfl (hno d call)
          | _ => rfl
        simp only [hnone, List.append_nil]
        exact step_heard (framesKept_ordered cfg _ _) ⟨rfl, hbefore⟩ (newest_after cfg t es) hno

end Fountainer
