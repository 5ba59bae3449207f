import Fountainer.App.Tasks
import Fountainer.Proto.Lemmas.Auth
import Fountainer.Python.Keyed
import Fountainer.Python.Whole

/-!
# The admin calls that send signed messages (`server/web.py`)
-/

namespace Fountainer

def deviceCommands : List Str :=
  [py "set_state", py "turn_on_duration", py "restart", py "reboot", py "wd_fault", py "link_fault"]

inductive AdminApi
  | command | dpWrite | otaCancel
  deriving DecidableEq, Repr

namespace AdminApi

/-- `cmd in DEVICE_COMMANDS`. -/
def inCommands (cmd : Json) : Except PyErr Bool :=
  if cmd.hashable then .ok (decide (cmd ∈ deviceCommands.map .str)) else .error .typeError

/-- `str(data["target_state"])`, where it is truthy. -/
def targetArg (data : Dict) : Dict :=
  if (data.get (py "target_state")).truthy then
    [(py "target_state", .str (data.get (py "target_state")).toStr)]
  else []

/-- The keyword arguments of `api_command`. -/
def commandArgs (data : Dict) : Except PyErr Dict := do
  let steps := data.get (py "duration_steps")
  if steps = .null then return targetArg data
  return targetArg data ++ [(py "duration_steps", .int (← steps.toInt))]

/-- `api_command`; `none` is the response 400. -/
def apiCommand (data : Dict) : Except PyErr (Option Call) := do
  let cmd := data.get (py "command")
  if !(← inCommands cmd) then return none
  if cmd = .str (py "set_state") ∧ !(data.get (py "target_state")).truthy then return none
  return some (commandCall cmd (← commandArgs data))

/-- `api_dp_write`. -/
def apiDpWrite (data : Dict) : Except PyErr (Option Call) :=
  match (data.get (py "dp")).or (.obj []) with
  | .obj dp => .ok (if dp = [] then none else some (dpWriteCall dp))
  | _ => .ok none

/-- `api_ota_cancel`. -/
def apiOtaCancel (data : Dict) : Except PyErr (Option Call) :=
  .ok (some (otaCancelCall (data.getOr (py "reason") (.str (py "admin")))))

def accept (data : Dict) : AdminApi → Except PyErr (Option Call)
  | command => apiCommand data
  | dpWrite => apiDpWrite data
  | otaCancel => apiOtaCancel data

/-- The device and the call that the JSON body of a request leads to. -/
def handle (a : AdminApi) (data : Json) : Except PyErr (Option (Json × Call)) := do
  let data ← data.asDict
  let call ← a.accept data
  return call.map fun call => (data.get (py "device_id"), call)

/-- The message content that a request body asks for, as it stands there. -/
def requested (data : Dict) : AdminApi → Dict
  | command =>
      (py "command", data.get (py "command")) ::
        ((if (data.get (py "target_state")).truthy then
            [(py "target_state", data.get (py "target_state"))] else []) ++
          if data.get (py "duration_steps") = .null then []
          else [(py "duration_steps", data.get (py "duration_steps"))])
  | dpWrite => [(py "dp", data.get (py "dp"))]
  | otaCancel => [(py "reason", data.getOr (py "reason") (.str (py "admin")))]

def isText : Json → Bool
  | .str _ => true
  | _ => false

def isFloat : Json → Bool
  | .float _ => true
  | _ => false

/-- An integer, as an integral float if need be. -/
def isWhole : Json → Bool
  | .int _ => true
  | .float f => f.isInteger
  | _ => false

/-- Integral floats are on the top level of a `dp` only, and no argument is converted to another
value. -/
def regular (data : Dict) : AdminApi → Bool
  | command =>
      (!(data.get (py "target_state")).truthy || isText (data.get (py "target_state"))) &&
        (data.get (py "duration_steps") = .null || isWhole (data.get (py "duration_steps")))
  | dpWrite => match data.get (py "dp") with
      | .obj dp => dp.all fun kv => isFloat kv.2 || kv.2.noIntegral
      | _ => false
  | otaCancel => (data.getOr (py "reason") (.str (py "admin"))).noIntegral

/-! ## The body of the call -/

theorem integral_float (f : PyFloat) : dpWriteCall.integral (.float f) = Json.whole (.float f) := rfl

theorem integral_eq_whole_iff (x : Json) :
    dpWriteCall.integral x = x.whole ↔ (isFloat x || x.noIntegral) = true := by
  cases x with
  | float f => simp [integral_float, isFloat]
  | _ =>
      exact ⟨fun h => Json.whole_eq_self_iff.mp h.symm, fun h => (Json.whole_eq_self_iff.mpr h).symm⟩

/-- The text of a value is the value itself for texts only. -/
theorem str_eq_whole_iff (x : Json) : Json.str x.toStr = x.whole ↔ isText x = true := by
  cases x with
  | str s => simp [Json.toStr, Json.whole, isText]
  | float f =>
      rw [Json.whole, wholeFloat]
      split
      · split <;> simp [isText]
      · simp [isText]
  | _ => simp [Json.whole, isText]

theorem int_eq_whole_iff {x : Json} {i : Int} (h : x.toInt = .ok i) :
    Json.int i = x.whole ↔ isWhole x = true := by
  cases x with
  | int j =>
      cases h
      simp [Json.whole, isWhole]
  | float f =>
      rw [Json.whole]
      cases hf : f.isInteger with
      | true =>
          obtain ⟨j, hj, htoInt, -⟩ := wholeFloat_value hf
          rw [Json.toInt, htoInt] at h
          cases h
          simp [hj, isWhole, hf]
      | false => simp [wholeFloat_of_fractional hf, isWhole, hf]
  | _ => simp [Json.whole, isWhole]

theorem dpWrite_body_iff {data : Dict} {call : Call} (h : apiDpWrite data = .ok (some call)) :
    call.body = Json.wholeFields (requested data dpWrite) ↔ regular data dpWrite = true := by
  unfold apiDpWrite at h
  have hdp : ∀ dp, (data.get (py "dp")).or (.obj []) = .obj dp → dp ≠ [] →
      data.get (py "dp") = .obj dp := by
    intro dp hor hne
    unfold Json.or at hor
    split at hor
    · exact hor
    · cases hor
      exact absurd rfl hne
  split at h
  · rename_i dp hor
    split at h
    · cases h
    · rename_i hne
      cases h
      have hdp := hdp dp hor hne
      simp only [dpWriteCall, Call.body, requested, regular, hdp, Json.wholeFields_eq, Json.whole,
        List.map_cons, List.map_nil, List.cons.injEq, Prod.mk.injEq, Json.obj.injEq, true_and,
        and_true, List.map_inj_left, integral_eq_whole_iff, List.all_eq_true]
  · cases h

theorem otaCancel_body_iff {data : Dict} {call : Call} (h : apiOtaCancel data = .ok (some call)) :
    call.body = Json.wholeFields (requested data otaCancel) ↔ regular data otaCancel = true := by
  cases h
  simp only [otaCancelCall, Call.body, requested, regular, Json.wholeFields, List.cons.injEq,
    Prod.mk.injEq, true_and, and_true, ← Json.whole_eq_self_iff]
  exact eq_comm

theorem inCommands_text {cmd : Json} (h : inCommands cmd = .ok true) : ∃ t, cmd = .str t := by
  unfold inCommands at h
  split at h
  · obtain ⟨t, -, ht⟩ := List.mem_map.mp (of_decide_eq_true (Except.ok.inj h))
    exact ⟨t, ht.symm⟩
  · cases h

theorem commandArgs_ok {data kw : Dict} (h : commandArgs data = .ok kw) :
    ∃ steps : Dict, kw = targetArg data ++ steps ∧
      (data.get (py "duration_steps") = .null ∧ steps = [] ∨
        data.get (py "duration_steps") ≠ .null ∧ ∃ i, (data.get (py "duration_steps")).toInt = .ok i ∧
          steps = [(py "duration_steps", .int i)]) := by
  unfold commandArgs at h
  dsimp only at h
  split at h
  · rename_i hnull
    cases h
    exact ⟨[], (List.append_nil _).symm, .inl ⟨hnull, rfl⟩⟩
  · rename_i hnull
    obtain ⟨i, hi, h⟩ := ok_of_bind h
    cases h
    exact ⟨_, rfl, .inr ⟨hnull, i, hi, rfl⟩⟩

theorem targetArg_cases (data : Dict) :
    (data.get (py "target_state")).truthy = false ∧ targetArg data = [] ∨
      (data.get (py "target_state")).truthy = true ∧
        targetArg data = [(py "target_state", .str (data.get (py "target_state")).toStr)] := by
  unfold targetArg
  split
  · rename_i ht
    exact .inr ⟨ht, rfl⟩
  · rename_i ht
    exact .inl ⟨Bool.eq_false_iff.mpr ht, rfl⟩

theorem apiCommand_body {data : Dict} {call : Call} (h : apiCommand data = .ok (some call)) :
    ∃ cmd steps, data.get (py "command") = .str cmd ∧
      call.body = (py "command", .str cmd) :: (targetArg data ++ steps) ∧
      (data.get (py "duration_steps") = .null ∧ steps = [] ∨
        data.get (py "duration_steps") ≠ .null ∧ ∃ i, (data.get (py "duration_steps")).toInt = .ok i ∧
          steps = [(py "duration_steps", .int i)]) := by
  obtain ⟨known, hknown, h⟩ := ok_of_bind h
  cases known with
  | false => cases h
  | true =>
      obtain ⟨cmd, hcmd⟩ := inCommands_text hknown
      simp only [Bool.not_true, Bool.false_eq_true, if_false] at h
      split at h
      · cases h
      · obtain ⟨kw, hkw, h⟩ := ok_of_bind h
        cases h
        obtain ⟨steps, rfl, hsteps⟩ := commandArgs_ok hkw
        refine ⟨cmd, steps, hcmd, ?_, hsteps⟩
        rw [hcmd]
        rcases targetArg_cases data with ⟨-, ht⟩ | ⟨-, ht⟩ <;>
          rcases hsteps with ⟨-, rfl⟩ | ⟨-, i, -, rfl⟩ <;> rw [ht] <;> rfl

theorem command_body_iff {data : Dict} {call : Call} (h : apiCommand data = .ok (some call)) :
    call.body = Json.wholeFields (requested data command) ↔ regular data command = true := by
  obtain ⟨cmd, steps, hcmd, hbody, hsteps⟩ := apiCommand_body h
  have hcommand : (Json.str cmd).whole = .str cmd := rfl
  simp only [hbody, requested, regular, hcmd, Json.wholeFields_eq, List.map_cons, List.map_append, hcommand]
  rcases targetArg_cases data with ⟨htruthy, ht⟩ | ⟨htruthy, ht⟩
  · rcases hsteps with ⟨hnull, rfl⟩ | ⟨hnull, i, hi, rfl⟩
    · simp [ht, htruthy, hnull]
    · simp [ht, htruthy, hnull, int_eq_whole_iff hi]
  · rcases hsteps with ⟨hnull, rfl⟩ | ⟨hnull, i, hi, rfl⟩
    · simp [ht, htruthy, hnull, str_eq_whole_iff]
    · simp [ht, htruthy, hnull, str_eq_whole_iff, int_eq_whole_iff hi]

/-- The body of an accepted request is the requested content with whole numbers, exactly when the
request is regular. -/
theorem body_iff {a : AdminApi} {data : Dict} {call : Call} (h : accept data a = .ok (some call)) :
    call.body = Json.wholeFields (requested data a) ↔ regular data a = true := by
  cases a with
  | command => exact command_body_iff h
  | dpWrite => exact dpWrite_body_iff h
  | otaCancel => exact otaCancel_body_iff h

/-- The keys of the bodies that the admin calls send. -/
def bodyKeys : List (List Str) :=
  [[py "command"], [py "command", py "target_state"], [py "command", py "duration_steps"],
   [py "command", py "target_state", py "duration_steps"], [py "dp"], [py "reason"]]

theorem accept_keys {a : AdminApi} {data : Dict} {call : Call} (h : accept data a = .ok (some call)) :
    call.body.map Prod.fst ∈ bodyKeys := by
  cases a with
  | command =>
      obtain ⟨cmd, steps, -, hbody, hsteps⟩ := apiCommand_body h
      rw [hbody]
      rcases targetArg_cases data with ⟨-, ht⟩ | ⟨-, ht⟩ <;>
        rcases hsteps with ⟨-, rfl⟩ | ⟨-, i, -, rfl⟩ <;> rw [ht] <;> simp [bodyKeys]
  | dpWrite =>
      rw [accept, apiDpWrite] at h
      split at h
      · split at h
        · cases h
        · cases h
          simp [bodyKeys, dpWriteCall, Call.body]
      · cases h
  | otaCancel =>
      cases h
      simp [bodyKeys, otaCancelCall, Call.body]

theorem integral_keyed {x : Json} (h : x.keyed = true) : (dpWriteCall.integral x).keyed = true := by
  cases x with
  | float f =>
      rw [dpWriteCall.integral]
      repeat' split
      all_goals rfl
  | _ => exact h

/-- The body of an accepted request has distinct keys, as the request has. -/
theorem accept_keyed {a : AdminApi} {data : Dict} {call : Call} (hdata : (Json.obj data).keyed = true)
    (h : accept data a = .ok (some call)) : (Json.obj call.body).keyed = true := by
  have hkeys : bodyKeys.all (fun ks => decide ks.Nodup) = true := by decide
  refine Json.keyed_obj.mpr ⟨of_decide_eq_true (List.all_eq_true.mp hkeys _ (accept_keys h)), ?_⟩
  cases a with
  | command =>
      obtain ⟨cmd, steps, -, hbody, hsteps⟩ := apiCommand_body h
      rw [hbody]
      rcases targetArg_cases data with ⟨-, ht⟩ | ⟨-, ht⟩ <;>
        rcases hsteps with ⟨-, rfl⟩ | ⟨-, i, -, rfl⟩ <;> rw [ht] <;> simp [Json.keyed]
  | dpWrite =>
      rw [accept, apiDpWrite] at h
      split at h
      · rename_i dp hor
        split at h
        · cases h
        · cases h
          have hdp : (Json.obj dp).keyed = true := by
            rw [← hor, Json.or]
            split
            · exact Json.keyed_getOr hdata rfl _
            · rfl
          obtain ⟨hnodup, hvalues⟩ := Json.keyed_obj.mp hdp
          simp only [dpWriteCall, Call.body, List.forall_mem_singleton]
          refine Json.keyed_obj.mpr ⟨?_, ?_⟩
          · rw [List.map_map]
            exact hnodup
          · exact List.forall_mem_map.mpr fun kv hkv => integral_keyed (hvalues kv hkv)
      · cases h
  | otaCancel =>
      cases h
      simp only [otaCancelCall, Call.body, List.forall_mem_singleton]
      exact Json.keyed_getOr hdata rfl _

theorem handle_ok {a : AdminApi} {data d : Json} {call : Call} (h : a.handle data = .ok (some (d, call))) :
    ∃ kvs, data = .obj kvs ∧ accept kvs a = .ok (some call) := by
  obtain ⟨kvs, hkvs, h⟩ := ok_of_bind h
  obtain ⟨out, hout, h⟩ := ok_of_bind h
  refine ⟨kvs, ?_, ?_⟩
  · cases data with
    | obj kvs' => cases hkvs; rfl
    | _ => cases hkvs
  · cases out with
    | none => cases h
    | some call' => cases h; exact hout

end AdminApi

end Fountainer
