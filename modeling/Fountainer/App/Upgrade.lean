import Fountainer.App.Hooks
import Fountainer.Proto.Auth
import Fountainer.Python.Url

/-!
# The upgrade of a device connection (`fountain_proto/server.py`)
-/

namespace Fountainer

/-- The first `device_id` of a request path. -/
def pathDevice (netlocOk : Str → Bool) (path : Str) : Except PyErr (Option Str) := do
  return (parseQsl (← urlQuery netlocOk path)).lookup (py "device_id")

/-- `check_token`. -/
def Registry.checkToken (r : Registry) (d token : Str) : Except PyErr Bool :=
  match r.get d with
  | none => .ok false
  | some device => compareDigest token device.bearerToken

/-- The token of an `Authorization` header. -/
def bearerToken (authz : Str) : Str := if (py "Bearer ").isPrefixOf authz then authz.drop 7 else []

inductive UpgradeResult
  | unknownDevice | invalidToken | accepted
  deriving DecidableEq

/-- `_process_request`; `authz` is what `request_headers.get` gives. -/
def processRequest (r : Registry) (netlocOk : Str → Bool) (path : Str) (authz : Except PyErr Str) :
    Except PyErr UpgradeResult := do
  match ← pathDevice netlocOk path with
  | none => return .unknownDevice
  | some d =>
      if d = [] ∨ (r.get d).isNone then return .unknownDevice
      else if ← r.checkToken d (bearerToken (← authz)) then return .accepted else return .invalidToken

/-- The device of a connection: `_process_request` lets it through, and `_handler` finds the device. -/
def upgrade (r : Registry) (netlocOk : Str → Bool) (path : Str) (authz : Except PyErr Str) : Option Str :=
  match processRequest r netlocOk path authz, pathDevice netlocOk path with
  | .ok .accepted, .ok (some d) => if (r.get d).isSome then some d else none
  | _, _ => none

/-- The header shows the token of the device. -/
def Device.shownBy (device : Device) (authz : Str) : Prop :=
  authz = py "Bearer " ++ device.bearerToken ∨ device.bearerToken = [] ∧ (py "Bearer ").isPrefixOf authz = false

theorem bearerToken_iff {authz : Str} {device : Device} :
    bearerToken authz = device.bearerToken ↔ device.shownBy authz := by
  unfold bearerToken Device.shownBy
  cases hprefix : (py "Bearer ").isPrefixOf authz with
  | true =>
      obtain ⟨rest, rfl⟩ := List.isPrefixOf_iff_prefix.mp hprefix
      have hdrop : (py "Bearer " ++ rest).drop 7 = rest := rfl
      simp [hdrop]
  | false =>
      have hne : authz ≠ py "Bearer " ++ device.bearerToken := by
        rintro rfl
        rw [List.isPrefixOf_iff_prefix.mpr (List.prefix_append ..)] at hprefix
        cases hprefix
      simp [hne, eq_comm]

theorem compareDigest_iff {a b : Str} :
    compareDigest a b = .ok true ↔ a = b ∧ (b.all fun c => c.ord < 0x80) = true := by
  unfold compareDigest
  split
  · rename_i hascii
    rw [List.all_append, Bool.and_eq_true] at hascii
    simp [hascii.2]
  · rename_i hascii
    refine iff_of_false (by simp) ?_
    rintro ⟨rfl, hb⟩
    rw [List.all_append, hb] at hascii
    exact hascii rfl

theorem checkToken_iff {r : Registry} {d token : Str} :
    r.checkToken d token = .ok true ↔
      ∃ device, r.get d = some device ∧ token = device.bearerToken ∧
        (device.bearerToken.all fun c => c.ord < 0x80) = true := by
  unfold Registry.checkToken
  cases hd : r.get d with
  | none => simp
  | some device => simp [compareDigest_iff]

/-- A request is let through exactly when it names a registered device and shows its token, which is ASCII. -/
theorem processRequest_iff {r : Registry} {netlocOk : Str → Bool} {path d : Str} {authz : Except PyErr Str}
    (hd : pathDevice netlocOk path = .ok (some d)) :
    processRequest r netlocOk path authz = .ok .accepted ↔
      d ≠ [] ∧ ∃ device header, r.get d = some device ∧ authz = .ok header ∧ device.shownBy header ∧
        (device.bearerToken.all fun c => c.ord < 0x80) = true := by
  unfold processRequest
  rw [hd]
  dsimp only [bind, Except.bind]
  by_cases hknown : d = [] ∨ (r.get d).isNone
  · rw [if_pos hknown]
    refine iff_of_false (by simp [pure, Except.pure]) ?_
    rintro ⟨hne, device, header, hget, -⟩
    rcases hknown with hnil | hnone
    · exact hne hnil
    · rw [hget] at hnone
      cases hnone
  · rw [if_neg hknown]
    obtain ⟨hne, hnone⟩ := not_or.mp hknown
    cases authz with
    | error e => simp
    | ok header =>
        have hcheck : r.checkToken d (bearerToken header) = .ok true ↔
            ∃ device, r.get d = some device ∧ device.shownBy header ∧
              (device.bearerToken.all fun c => c.ord < 0x80) = true := by
          simp only [checkToken_iff, bearerToken_iff]
        have hright : (d ≠ [] ∧ ∃ device header', r.get d = some device ∧
            (Except.ok header : Except PyErr Str) = .ok header' ∧ device.shownBy header' ∧
              (device.bearerToken.all fun c => c.ord < 0x80) = true) ↔
            r.checkToken d (bearerToken header) = .ok true := by
          simp [hcheck, hne]
        rw [hright]
        dsimp only
        cases r.checkToken d (bearerToken header) with
        | error e => simp
        | ok b => cases b <;> simp [pure, Except.pure]

/-- A connection passes exactly when it names a registered device and shows its token. -/
theorem upgrade_iff {r : Registry} {netlocOk : Str → Bool} {path : Str} {authz : Except PyErr Str} {d : Str} :
    upgrade r netlocOk path authz = some d ↔
      pathDevice netlocOk path = .ok (some d) ∧ d ≠ [] ∧ ∃ device header, r.get d = some device ∧
        authz = .ok header ∧ device.shownBy header ∧ (device.bearerToken.all fun c => c.ord < 0x80) = true := by
  cases hpath : pathDevice netlocOk path with
  | error e => simp [upgrade, hpath]
  | ok o =>
      cases o with
      | none => simp [upgrade, hpath]
      | some d' =>
          have haccept : upgrade r netlocOk path authz = some d ↔
              processRequest r netlocOk path authz = .ok .accepted ∧ d' = d := by
            unfold upgrade
            rw [hpath]
            split
            · rename_i d₁ haccepted hd₁
              cases hd₁
              obtain ⟨-, device, -, hget, -⟩ := (processRequest_iff hpath).mp haccepted
              simp [haccepted, hget]
            · rename_i hother
              refine iff_of_false (by simp) ?_
              rintro ⟨haccepted, -⟩
              exact hother d' haccepted rfl
          rw [haccept, processRequest_iff hpath]
          constructor
          · rintro ⟨h, rfl⟩
            exact ⟨rfl, h⟩
          · rintro ⟨hd, h⟩
            cases hd
            exact ⟨h, rfl⟩

end Fountainer
