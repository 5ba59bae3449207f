import Fountainer.App.Chart
import Fountainer.App.Hooks
import Fountainer.Python.Lemmas.Text

/-!
# `/api/history` (`server/web.py`)
-/

namespace Fountainer

/-- The query parameters of a request, decoded. -/
abbrev Query := List (Str × Str)

/-- `int(request.query.get(key, "0"))`, without the limit on the number of digits. -/
def Query.int (q : Query) (key : Str) : Except PyErr Int :=
  match parseInt ((q.lookup key).getD (py "0")) with
  | some i => .ok i
  | none => .error .valueError

/-- The filter on insertion numbers, else the one on times, else everything. -/
def historySince (hist : List Sample) (sinceI since : Int) : List Sample :=
  if sinceI ≠ 0 then hist.filter fun x => sinceI < x.i
  else if since ≠ 0 then hist.filter fun x => since < x.t
  else hist

/-- `api_history`; `none` is the response for an unknown device. -/
def apiHistory (cfg : Config) (deviceState : Str → Shadow) (q : Query) :
    Except PyErr (Option (List Sample)) :=
  match q.lookup (py "device_id") with
  | none => .ok none
  | some d =>
      if d = [] ∨ (cfg.registry.get d).isNone then .ok none
      else do
        let sinceI ← q.int (py "since_i")
        let since ← q.int (py "since")
        return some (historySince (deviceState d).hist sinceI since)

/-- The query of `pollHistory`. -/
def historyQuery (d : Str) (lastI : Nat) : Query :=
  [(py "device_id", d), (py "since_i", decimal lastI)]

/-- A device that `/api/history` serves. -/
def Config.serves (cfg : Config) (d : Str) : Bool := d ≠ [] ∧ (cfg.registry.get d).isSome

theorem apiHistory_historyQuery {cfg : Config} {d : Str} (h : cfg.serves d = true)
    (deviceState : Str → Shadow) (lastI : Nat) :
    apiHistory cfg deviceState (historyQuery d lastI) =
      .ok (some (historySince (deviceState d).hist lastI 0)) := by
  have hd : (historyQuery d lastI).lookup (py "device_id") = some d := rfl
  have hi : (historyQuery d lastI).int (py "since_i") = .ok (lastI : Int) := by
    have : (historyQuery d lastI).lookup (py "since_i") = some (decimal lastI) := rfl
    rw [Query.int, this, Option.getD_some, parseInt_decimal]
  have hs : (historyQuery d lastI).int (py "since") = .ok 0 := rfl
  simp only [Config.serves, Bool.decide_and, Bool.and_eq_true, decide_eq_true_eq] at h
  rw [apiHistory, hd]
  dsimp only
  rw [if_neg (by simp [h.1, Option.isSome_iff_ne_none.mp h.2]), hi, hs]
  rfl

/-- A client asks for the samples behind the last one it has, and 0 stands for none. -/
theorem historySince_behind {hist : List Sample} (hpos : ∀ x ∈ hist, 0 < x.i) (lastI : Nat) :
    historySince hist lastI 0 = hist.filter fun x => decide (lastI < x.i) := by
  unfold historySince
  by_cases hl : lastI = 0
  · simp only [hl]
    exact (List.filter_eq_self.mpr fun x hx => by simpa using hpos x hx).symm
  · simp [hl]

theorem historySince_sublist (hist : List Sample) (sinceI since : Int) :
    (historySince hist sinceI since).Sublist hist := by
  unfold historySince
  split
  · exact List.filter_sublist
  · split
    · exact List.filter_sublist
    · exact List.Sublist.refl _

theorem apiHistory_sublist {cfg : Config} {deviceState : Str → Shadow} {d : Str} {q : Query}
    {samples : List Sample} (hd : q.lookup (py "device_id") = some d)
    (h : apiHistory cfg deviceState q = .ok (some samples)) : samples.Sublist (deviceState d).hist := by
  rw [apiHistory, hd] at h
  dsimp only at h
  split at h
  · cases h
  · cases hi : q.int (py "since_i") with
    | error e =>
        rw [hi] at h
        cases h
    | ok sinceI =>
        cases hs : q.int (py "since") with
        | error e =>
            rw [hi, hs] at h
            cases h
        | ok since =>
            rw [hi, hs] at h
            cases h
            exact historySince_sublist ..

end Fountainer
