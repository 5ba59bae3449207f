import Fountainer.Proto.Session

/-!
# The per-device shadow (`server/app.py`, state helpers)

`device_state[device_id]`, the event buffer, the datapoint merge, the watchdog window and the chart
history. An absent key and its default are the same to every reader, so absent keys are defaults.
-/

namespace Fountainer

/-- The constants that the environment can override, with their shipped values. -/
structure Limits where
  heartbeatTimeoutMs : Int := 20000
  idleTimeoutSlowMs : Int := 150000
  histMaxSamples : Nat := 3600

inductive Level
  | info | ok | warn | err
  deriving DecidableEq, Repr

/-- An entry of the event buffer; `t` is the clock reading behind the displayed time. -/
structure Event where
  t : Clock
  text : Str
  level : Level
  deriving DecidableEq

/-- A chart sample. -/
structure Sample where
  i : Nat
  t : Int
  p : Json
  r : Json
  seq : Option Int := none
  deriving DecidableEq

structure Shadow where
  online : Bool := false
  dp : Dict := []
  dpTs : List (Str × Clock) := []
  config : Json := .obj []
  fwVersion : Json := .null
  uptimeS : Json := .null
  faultActive : Json := .null
  alerts : List Json := []
  events : List Event := []
  logs : List Dict := []
  otaStatus : Option Json := none
  hist : List Sample := []
  histI : Nat := 0
  histBoot : Option Int := none
  histSeq : Int := 0

/-- `del xs[:-n]`. -/
def keepLast {α : Type} (n : Nat) (xs : List α) : List α :=
  if n = 0 then xs else xs.drop (xs.length - n)

namespace Shadow

/-- `event`. -/
def event (st : Shadow) (now : Clock) (text : Str) (level : Level := .info) : Shadow :=
  { st with events := keepLast 40 (st.events ++ [⟨now, text, level⟩]) }

/-! ## Datapoints -/

/-- One element of the sequence form of `dict.update`: a pair, given as any sequence of length two.
Keys that are no text are not kept: nothing looks them up. -/
def updatePair (d : Dict) : Json → Except PyErr Dict
  | .arr [.str k, v] => .ok (d.set k v)
  | .arr [k, _] => if k.hashable then .ok d else .error .typeError
  | .str [a, b] => .ok (d.set [a] (.str [b]))
  | .obj [(k, _), (l, _)] => .ok (d.set k (.str l))
  | .arr _ | .str _ | .obj _ => .error .valueError
  | _ => .error .typeError

/-- The sequence form of `dict.update`: the elements before a bad one have taken effect. -/
def updatePairs (d : Dict) : List Json → Dict × Option PyErr
  | [] => (d, none)
  | x :: xs => match updatePair d x with
      | .ok d => updatePairs d xs
      | .error e => (d, some e)

/-- `d.update(x)` of any value. -/
def dictUpdate (d : Dict) : Json → Dict × Option PyErr
  | .obj kvs => (d.update kvs, none)
  | x => match x.iter with
      | .ok xs => updatePairs d xs
      | .error e => (d, some e)

/-- `for key in dp: ts[key] = now`. -/
def stampAll (ts : List (Str × Clock)) (now : Clock) : List Json → List (Str × Clock) × Option PyErr
  | [] => (ts, none)
  | .str k :: rest => stampAll (setKey ts k now) now rest
  | k :: rest => if k.hashable then stampAll ts now rest else (ts, some .typeError)

/-- `_dp_merge`. -/
def dpMerge (st : Shadow) (now : Clock) (dp : Json) : Shadow × Option PyErr :=
  match dictUpdate st.dp dp with
  | (d, some e) => ({ st with dp := d }, some e)
  | (d, none) =>
      match dp.iter with
      | .error e => ({ st with dp := d }, some e)
      | .ok keys =>
          let (ts, e) := stampAll st.dpTs now keys
          ({ st with dp := d, dpTs := ts }, e)

/-! ## The watchdog window -/

end Shadow

/-- `x == 0`. -/
def Json.isZero : Json → Bool
  | .int i => i == 0
  | .bool b => !b
  | .float (.finite _ m _) => m == 0
  | _ => false

namespace Shadow

/-- `fresh_normal`: the datapoint is 0 and was received in the last 15 s. -/
def freshNormal (st : Shadow) (now : Clock) (name : Str) : Bool :=
  (Dict.get st.dp name).isZero && now - (st.dpTs.lookup name).getD 0 ≤ 15000000000

/-- `_idle_timeout_ms`. -/
def idleTimeoutMs (st : Shadow) (lim : Limits) (now : Clock) : Int :=
  if st.freshNormal now (py "System_Power_Mode") && st.freshNormal now (py "Net_Link_State") then
    lim.heartbeatTimeoutMs
  else lim.idleTimeoutSlowMs

/-! ## The chart history -/

/-- The backward scan of `_hist_add`: behind the last sample that is not later. -/
def insertSample (s : Sample) (hist : List Sample) : List Sample :=
  let later := hist.reverse.takeWhile fun x => x.t > s.t
  hist.take (hist.length - later.length) ++ s :: hist.drop (hist.length - later.length)

/-- `_hist_add`. -/
def histAdd (st : Shadow) (lim : Limits) (tMs : Int) (pressure relay : Json)
    (seq : Option Int := none) : Shadow :=
  let s : Sample := { i := st.histI + 1, t := tMs, p := pressure, r := relay, seq }
  { st with histI := st.histI + 1, hist := keepLast lim.histMaxSamples (insertSample s st.hist) }

/-- `(st.get("ota_status") or {}).get("state") == "downloading"`. -/
def downloading (st : Shadow) : Bool :=
  match st.otaStatus with
  | some (.obj d) => Dict.get d (py "state") == .str (py "downloading")
  | _ => false

end Shadow

end Fountainer
