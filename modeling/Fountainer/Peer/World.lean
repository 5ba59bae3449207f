import Fountainer.Peer.Lemmas.Simulator
import Fountainer.System.Agreement
import Fountainer.System.Frames

/-!
# A server and a device on an open network

Whoever runs the network decides what reaches the server and the device, when, and in which order: the
steps of both are interleaved freely, and every frame they receive is part of the step.
-/

namespace Fountainer

structure World where
  server : State
  device : SimulatedDevice

inductive WorldStep
  | server (e : Step)
  | device (e : DeviceStep)

/-- The constructor, with the arguments of `d`. -/
def SimulatedDevice.fresh (d : SimulatedDevice) : SimulatedDevice :=
  { deviceId := d.deviceId, serial := d.serial, key := d.key, kid := d.kid, fwVersion := d.fwVersion,
    reportInterval := d.reportInterval }

namespace World

/-- The steps of the server in a step of the world: what the device signs is recorded there. -/
def serverSteps (w : World) : WorldStep → List Step
  | .server e => [e]
  | .device e => (w.device.step e).2.map .deviceSign

def step (cfg : Config) (w : World) (e : WorldStep) : World :=
  { server := Run.run (State.step cfg) w.server (w.serverSteps e)
    device := match e with
      | .server _ => w.device
      | .device e => (w.device.step e).1 }

/-- A server that has just been started, and a new device. -/
def start (t : Nat) (d : SimulatedDevice) : World := { server := .init t, device := d.fresh }

/-- The state after a run. -/
abbrev after (cfg : Config) (t : Nat) (d : SimulatedDevice) (es : List WorldStep) : World :=
  Run.run (step cfg) (start t d) es

/-- Every step of a run meets a condition. -/
abbrev Along (cfg : Config) (ok : World → WorldStep → Bool) (t : Nat) (d : SimulatedDevice)
    (es : List WorldStep) : Prop :=
  Run.Along (step cfg) (fun w e => ok w e = true) (start t d) es

/-- The steps of the server in a run. -/
def traceFrom (cfg : Config) (w : World) : List WorldStep → List Step
  | [] => []
  | e :: es => w.serverSteps e ++ traceFrom cfg (w.step cfg e) es

abbrev trace (cfg : Config) (t : Nat) (d : SimulatedDevice) (es : List WorldStep) : List Step :=
  traceFrom cfg (start t d) es

variable {cfg : Config} {t : Nat} {d : SimulatedDevice} {es : List WorldStep} {e : WorldStep}

theorem after_snoc (cfg : Config) (t : Nat) (d : SimulatedDevice) (es : List WorldStep) (e : WorldStep) :
    after cfg t d (es ++ [e]) = (after cfg t d es).step cfg e := Run.run_append ..

theorem run_server (w : World) (es : List WorldStep) :
    (Run.run (step cfg) w es).server = Run.run (State.step cfg) w.server (traceFrom cfg w es) := by
  induction es generalizing w with
  | nil => rfl
  | cons e es ih =>
      rw [Run.run_cons, ih, traceFrom, Run.run_append]
      rfl

theorem traceFrom_append (w : World) (es fs : List WorldStep) :
    traceFrom cfg w (es ++ fs) = traceFrom cfg w es ++ traceFrom cfg (Run.run (step cfg) w es) fs := by
  induction es generalizing w with
  | nil => rfl
  | cons e es ih => rw [List.cons_append, traceFrom, ih, traceFrom, List.append_assoc, Run.run_cons]

/-- The server of a world is a server that has taken the steps of the trace. -/
theorem server_after (cfg : Config) (t : Nat) (d : SimulatedDevice) (es : List WorldStep) :
    (after cfg t d es).server = State.after cfg t (trace cfg t d es) := run_server ..

theorem trace_snoc (cfg : Config) (t : Nat) (d : SimulatedDevice) (es : List WorldStep) (e : WorldStep) :
    trace cfg t d (es ++ [e]) = trace cfg t d es ++ (after cfg t d es).serverSteps e := by
  rw [trace, traceFrom_append, traceFrom, traceFrom, List.append_nil]

/-- A step of the trace is a step of the server, or the device signs. -/
theorem mem_traceFrom {w : World} {es : List WorldStep} {e : Step} (h : e ∈ traceFrom cfg w es) :
    .server e ∈ es ∨ ∃ y, e = .deviceSign y := by
  induction es generalizing w with
  | nil => cases h
  | cons e' es ih =>
      rcases List.mem_append.mp h with h | h
      · cases e' with
        | server e' =>
            rw [serverSteps, List.mem_singleton] at h
            rw [h]
            exact .inl List.mem_cons_self
        | device e' =>
            obtain ⟨y, -, hy⟩ := List.mem_map.mp h
            exact .inr ⟨y, hy.symm⟩
      · exact (ih h).imp (List.mem_cons_of_mem _) id

/-! ## Conditions on runs -/

/-- The ideal MAC at the device: a frame is accepted only if its input has been signed under its key. -/
def idealMac (w : World) : WorldStep → Bool
  | .device (.recv _ (.json (.obj msg))) => match verifyInput (w.device.params .s2c) msg with
      | .ok z => decide (verify (w.device.params .s2c) msg ≠ .ok .ok) ||
          w.server.signedInputs.any fun y => y.key = z.key ∧ y.raw = z.raw
      | .error _ => true
  | _ => true

/-- Genuine devices sign messages to the server. -/
def devicesSign (_ : World) : WorldStep → Bool
  | .server (.deviceSign y) => decide (y.fields.direction = py "c2s")
  | _ => true

/-- The MACs are ideal; devices sign messages to the server only; neither the server nor a genuine device signs a
field with a separator; and the bodies of control calls name no envelope field. -/
structure Sound (cfg : Config) (t : Nat) (d : SimulatedDevice) (es : List WorldStep) : Prop where
  serverMac : State.Along cfg Fountainer.idealMac t (trace cfg t d es)
  deviceMac : Along cfg idealMac t d es
  devices : State.Along cfg honestDevices t (trace cfg t d es)
  direction : Along cfg devicesSign t d es
  fields : State.Along cfg clearFields t (trace cfg t d es)
  bodies : State.Along cfg cleanBodies t (trace cfg t d es)

/-- The conditions, checked in one pass over the server and one over the world. -/
theorem Sound.of_checks
    (hserver : State.Along cfg (fun s e => guarded s e && cleanBodies s e) t (trace cfg t d es))
    (hdevice : Along cfg (fun w e => idealMac w e && devicesSign w e) t d es) : Sound cfg t d es := by
  have hs : ∀ s e, (guarded s e && cleanBodies s e) = true → ((Fountainer.idealMac s e = true ∧
      honestDevices s e = true) ∧ clearFields s e = true) ∧ cleanBodies s e = true := by
    simp only [guarded, Bool.and_eq_true]
    exact fun _ _ => id
  have hd : ∀ w e, (idealMac w e && devicesSign w e) = true → idealMac w e = true ∧ devicesSign w e = true := by
    simp only [Bool.and_eq_true]
    exact fun _ _ => id
  exact ⟨hserver.imp fun s e h => (hs s e h).1.1.1, hdevice.imp fun w e h => (hd w e h).1,
    hserver.imp fun s e h => (hs s e h).1.1.2, hdevice.imp fun w e h => (hd w e h).2,
    hserver.imp fun s e h => (hs s e h).1.2, hserver.imp fun s e h => (hs s e h).2⟩

theorem Sound.init (h : Sound cfg t d (es ++ [e])) : Sound cfg t d es := by
  have htrace : trace cfg t d es <+: trace cfg t d (es ++ [e]) := by
    rw [trace_snoc]
    exact List.prefix_append ..
  exact ⟨h.serverMac.init htrace, (Run.along_append.mp h.deviceMac).1, h.devices.init htrace,
    (Run.along_append.mp h.direction).1, h.fields.init htrace, h.bodies.init htrace⟩

theorem Sound.last {ok : World → WorldStep → Bool} (h : Along cfg ok t d (es ++ [e])) :
    ok (after cfg t d es) e = true := (Run.along_append.mp h).2.1

theorem Sound.secure (h : Sound cfg t d es) : Secure (after cfg t d es).server := by
  rw [server_after]
  exact secure_after h.serverMac h.devices h.fields

/-! ## Who signs -/

theorem deviceSigned_step {s : State} {e : Step} {y : Signed} (h : y ∈ (s.step cfg e).deviceSigned) :
    y ∈ s.deviceSigned ∨ e = .deviceSign y := by
  refine Run.star_invariant (P := fun s' => ∀ y ∈ s'.deviceSigned, y ∈ s.deviceSigned ∨ e = .deviceSign y)
    ?_ (State.step_chain cfg s e) (fun y hy => .inl hy) y h
  intro a b hm ha y hy
  rcases hm.deviceSigned with hs | ⟨y', he, hs⟩
  · exact ha y (hs ▸ hy)
  · rw [hs] at hy
    rcases List.mem_append.mp hy with hy | hy
    · exact ha y hy
    · rw [List.mem_singleton.mp hy]
      exact .inr he

theorem deviceSigned_run {s : State} {es : List Step} {y : Signed}
    (h : y ∈ (Run.run (State.step cfg) s es).deviceSigned) :
    y ∈ s.deviceSigned ∨ .deviceSign y ∈ es := by
  induction es generalizing s with
  | nil => exact .inl h
  | cons e es ih =>
      rcases ih h with h | h
      · rcases deviceSigned_step h with h | rfl
        · exact .inl h
        · exact .inr List.mem_cons_self
      · exact .inr (List.mem_cons_of_mem _ h)

/-- The device signs its own messages only. -/
theorem step_signs {d : SimulatedDevice} {e : DeviceStep} {y : Signed} (h : y ∈ (d.step e).2) :
    y.fields.direction = py "c2s" := by
  have hack : ∀ now ack, y ∈ (d.recvAck now ack).2 → y.fields.direction = py "c2s" := by
    intro now ack hy
    unfold SimulatedDevice.recvAck at hy
    dsimp only at hy
    split at hy
    · cases hy
    · split at hy
      · split at hy
        · split at hy
          · rename_i y' frame hy' hframe
            rw [List.mem_singleton.mp hy]
            obtain ⟨hfields, -, -⟩ := signInput_eq_ok hy'
            obtain ⟨v, mtype, ts, bhash, -, -, -, -, -, -, hdir, -⟩ := messageFields_eq_ok hfields
            exact hdir
          · cases hy
        · cases hy
      · cases hy
  cases e with
  | recv now frame =>
      dsimp only [SimulatedDevice.step] at h
      unfold SimulatedDevice.recv at h
      split at h
      · exact hack _ _ h
      · cases h
      · cases h
      · cases h
  | _ =>
      dsimp only [SimulatedDevice.step] at h
      first
        | cases h
        | (split at h <;> cases h)

theorem deviceSigned_direction (h : Along cfg devicesSign t d es) :
    ∀ y ∈ (after cfg t d es).server.deviceSigned, y.fields.direction = py "c2s" := by
  refine Run.invariant (P := fun w : World => ∀ y ∈ w.server.deviceSigned, y.fields.direction = py "c2s")
    ?_ h fun y hy => (by cases hy)
  intro w e hw hok y hy
  rcases deviceSigned_run hy with hy | hy
  · exact hw y hy
  · cases e with
    | server e =>
        rw [serverSteps, List.mem_singleton] at hy
        subst hy
        exact of_decide_eq_true hok
    | device e =>
        obtain ⟨y', hy', he⟩ := List.mem_map.mp hy
        cases he
        exact step_signs hy'

end World

end Fountainer
