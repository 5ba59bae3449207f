import Fountainer.App.Hooks

/-!
# The background tasks of a session (`server/app.py`)

`_fetch_config`, `_poll_logs` and `_poll_history` from one suspension point to the next, and the
merge of `dp_read` results.
-/

namespace Fountainer

/-- Where a task suspends. -/
inductive Next
  | sleep (ns : Clock)
  | call (c : Call)
  | finish

/-- A line appended to `<boot_id>.jsonl`. -/
structure LogLine where
  bootId : Int
  record : Dict

structure TaskOut (α : Type) where
  shadow : Shadow
  written : List LogLine := []
  task : α
  next : Next

def seconds (n : Int) : Clock := n * 1000000000

/-! ## The convenience calls of a session -/

def dpReadCall (names : Json) : Call := .request (py "dp_read") [(py "names", names)]

/-- `dp_write`: integral floats of the top level are sent as integers. -/
def dpWriteCall (dp : Dict) : Call :=
  .request (py "dp_write") [(py "dp", .obj (dp.map fun kv => (kv.1, integral kv.2)))]
where
  integral : Json → Json
    | .float f => if f.isInteger then (match f.toInt with
        | .ok i => .int i
        | .error _ => .float f) else .float f
    | x => x

def commandCall (command : Json) (kw : Dict) : Call :=
  .request (py "command") (Dict.update [(py "command", command)] kw)

def otaCancelCall (reason : Json) : Call := .send (py "ota_cancel") [(py "reason", reason)] .null

def logReadCall (sinceSeq : Int) : Call :=
  .request (py "log_read")
    [(py "since_seq", .int sinceSeq), (py "min_level", .int 0), (py "max_records", .int 64)]

def logReadPrevCall : Call :=
  .request (py "log_read_prev") [(py "min_level", .int 0), (py "max_records", .int 128)]

def logAckPrevCall (bootId : Int) : Call :=
  .request (py "log_ack_prev") [(py "boot_id", .int bootId)]

def historyReadCall (sinceSeq : Int) : Call :=
  .request (py "history_read") [(py "since_seq", .int sinceSeq), (py "max_samples", .int 100)]

/-! ## Datapoint results -/

/-- `app.dp_read` after the reply: the result goes into the config and the datapoint shadow. -/
def mergeDpRead (st : Shadow) (now : Clock) (res : Dict) : Shadow × Option PyErr :=
  let dp := res.get (py "dp")
  if !dp.truthy then (st, none) else
  match st.config with
  | .obj config =>
      match Shadow.dictUpdate config dp with
      | (config, some e) => ({ st with config := .obj config }, some e)
      | (config, none) => { st with config := .obj config }.dpMerge now dp
  | _ => (st, some .attributeError)

/-- `_fetch_config` after the reply; the exceptions of the merge are swallowed. -/
def fetchConfigReply (st : Shadow) (now : Clock) (res : Dict) : Shadow :=
  let dp := (res.get (py "dp")).or (.obj [])
  if dp.truthy then ({ st with config := dp }.dpMerge now dp).1 else st

def configNames : Json :=
  .arr ([py "Network_DHCP", py "Network_IP_Address", py "Network_Subnetmask", py "Network_Gateway",
    py "Network_Server", py "Network_Server_Port", py "Network_SSID", py "Backup_DHCP",
    py "Backup_IP_Address", py "Backup_Subnetmask", py "Backup_Gateway", py "Backup_Server",
    py "Backup_Server_Port", py "Backup_SSID", py "Device_SW_Version", py "Device_HW_Version",
    py "Device_Serial_Number", py "Device_Build_Version"].map .str)

/-! ## Device log -/

/-- `_log_store`: the lines before a record that is no dictionary are written. -/
def logStore (st : Shadow) (now : Clock) (bootId : Int) (records : Json) :
    Shadow × List LogLine × Option PyErr :=
  if !records.truthy then (st, [], none) else
  match records.iter with
  | .error e => (st, [], some e)
  | .ok rs =>
      let rx : Json := .float (PyFloat.ofRat ((now : ℚ) / 1000000000)).round3
      let good := rs.takeWhile isObj
      let lines := good.map fun r => ⟨bootId, Dict.update [(py "rx", rx)] (fieldsOf r)⟩
      if good.length < rs.length then (st, lines, some .typeError)
      else
        let entries := rs.map fun r => Dict.update [(py "boot_id", .int bootId)] (fieldsOf r)
        ({ st with logs := keepLast 200 (st.logs ++ entries) }, lines, none)
where
  isObj : Json → Bool
    | .obj _ => true
    | _ => false
  fieldsOf : Json → Dict
    | .obj d => d
    | _ => []

/-- `max(int(r.get("s", 0)) for r in records)` of a nonempty list. -/
def maxSeq : List Json → Except PyErr Int
  | [] => .error .valueError
  | [r] => recordSeq r
  | r :: rest => do return max (← recordSeq r) (← maxSeq rest)
where
  recordSeq (r : Json) : Except PyErr Int := do (Dict.getOr (← r.asDict) (py "s") (.int 0)).toInt

/-- What `_poll_logs` is waiting for. -/
inductive LogStage
  | asleep
  /-- The sleep for the time of a download. -/
  | paused
  | batch | prev | ack
  deriving DecidableEq, Repr

/-- The local variables of `_poll_logs`. -/
structure LogPoll where
  lastSeq : Int := 0
  bootId : Option Int := none
  started : Clock
  fastUntil : Clock := 0
  stage : LogStage := .asleep

namespace LogPoll

/-- The head of the loop. -/
def head (p : LogPoll) (st : Shadow) (written : List LogLine := []) : TaskOut LogPoll :=
  if !st.online then { shadow := st, written, task := p, next := .finish }
  else if st.downloading then
    { shadow := st, written, task := { p with stage := .paused }, next := .sleep (seconds 2) }
  else
    { shadow := st, written, task := { p with stage := .batch }
      next := .call (logReadCall p.lastSeq) }

def stop (p : LogPoll) (st : Shadow) (written : List LogLine := []) : TaskOut LogPoll :=
  { shadow := st, written, task := p, next := .finish }

/-- The sleep at the end of an iteration. -/
def rest (p : LogPoll) (st : Shadow) (lines : List LogLine) (now : Clock) : TaskOut LogPoll :=
  let fast := now - p.started < seconds 60 ∨ now < p.fastUntil
  { shadow := st, written := lines, task := { p with stage := .asleep }
    next := .sleep (if fast then seconds 2 else seconds 60) }

/-- The records of a batch of the current boot. -/
def onRecords (p : LogPoll) (st : Shadow) (now : Clock) (res : Dict) : TaskOut LogPoll :=
  let records := (res.get (py "records")).or (.arr [])
  let overflow := (res.get (py "overflow")).truthy
  let st := if overflow then st.event now (py "log: ring overflow, gap before seq "
      ++ (res.get (py "first_seq_available")).toStr) .warn else st
  let p := if overflow then { p with fastUntil := now + seconds 120 } else p
  match logStore st now (p.bootId.getD 0) records with
  | (st, lines, some _) => p.stop st lines
  | (st, lines, none) =>
      match records with
      | .arr [] => p.rest st lines now
      | .arr rs =>
          match maxSeq rs with
          | .error _ => p.stop st lines
          | .ok s =>
              let p := { p with lastSeq := s }
              if 64 ≤ rs.length then p.head st lines else p.rest st lines now
      | _ => p.stop st lines

/-- A reply to `log_read`: a new boot id starts over after the previous-boot log. -/
def onBatch (p : LogPoll) (st : Shadow) (now : Clock) (res : Dict) : TaskOut LogPoll :=
  match (res.get (py "boot_id")).toIntOr 0 with
  | .error _ => p.stop st
  | .ok newBoot =>
      if newBoot ≠ 0 ∧ p.bootId ≠ some newBoot then
        let st := if p.bootId.isSome then
            st.event now (py "log: new boot_id " ++ decimal newBoot) .warn else st
        { shadow := st, next := .call logReadPrevCall
          task := { p with bootId := some newBoot, lastSeq := 0, stage := .prev } }
      else p.onRecords st now res

/-- A reply to `log_read_prev`: store, then acknowledge. -/
def onPrev (p : LogPoll) (st : Shadow) (now : Clock) (res : Dict) : TaskOut LogPoll :=
  if !(res.get (py "available")).truthy then p.head st else
  match (res.get (py "boot_id")).toIntOr 0 with
  | .error _ => p.head st
  | .ok boot =>
      match logStore st now boot ((res.get (py "records")).or (.arr [])) with
      | (st, lines, some _) => p.head st lines
      | (st, lines, none) =>
          { shadow := st, written := lines, task := { p with stage := .ack }
            next := .call (logAckPrevCall boot) }

/-- The task resumes with the result of its request, or after its sleep. -/
def resume (p : LogPoll) (st : Shadow) (now : Clock) (res : Except PyErr Dict) : TaskOut LogPoll :=
  match p.stage, res with
  | .asleep, _ | .paused, _ => p.head st
  | .batch, .error _ => p.stop st
  | .batch, .ok res => p.onBatch st now res
  | .prev, .error _ => p.head st
  | .prev, .ok res => p.onPrev st now res
  | .ack, _ => p.head st

end LogPoll

/-! ## Pressure history -/

/-- `row[i]`. -/
def rowItem (row : Json) (i : Nat) : Except PyErr Json :=
  match row with
  | .arr xs => match xs[i]? with
      | some x => .ok x
      | none => .error .indexError
  | .str s => match s[i]? with
      | some c => .ok (.str [c])
      | none => .error .indexError
  | .obj _ => .error .keyError
  | _ => .error .typeError

/-- `(seq, ts_ms, mbar)` of a row whose fourth entry is an integer as well. -/
def parseRow (row : Json) : Except PyErr (Int × Int × Int) := do
  let seq ← (← rowItem row 0).toInt
  let ts ← (← rowItem row 1).toInt
  let mbar ← (← rowItem row 2).toInt
  let _ ← (← rowItem row 3).toInt
  return (seq, ts, mbar)

/-- The exceptions that skip a row. -/
def PyErr.skipsRow : PyErr → Bool
  | .typeError | .valueError | .indexError => true
  | _ => false

/-- The loop over the samples of a batch. -/
def ingest (lim : Limits) (wallNow devNow : Int) (relay : Json) :
    Shadow → Int → List Json → Shadow × Int × Option PyErr
  | st, cursor, [] => (st, cursor, none)
  | st, cursor, row :: rest =>
      match parseRow row with
      | .error e => if e.skipsRow then ingest lim wallNow devNow relay st cursor rest
          else (st, cursor, some e)
      | .ok (seq, ts, mbar) =>
          if seq ≤ cursor then ingest lim wallNow devNow relay st cursor rest
          else match PyFloat.divLit mbar 1000 with
            | .error e => (st, seq, some e)
            | .ok bar =>
                let st := st.histAdd lim (wallNow - max 0 (devNow - ts)) (.float bar.round3) relay
                  (some seq)
                ingest lim wallNow devNow relay st seq rest

/-- The boot check of `_poll_history`: a new boot or a `next_seq` behind the cursor resets it. -/
def Shadow.resetCursor (st : Shadow) (bootId nextSeq : Int) : Shadow :=
  if st.histBoot ≠ some bootId ∨ nextSeq ≤ st.histSeq then
    { st with histBoot := some bootId, histSeq := 0 }
  else st

/-- The gap event of `_poll_history`. -/
def Shadow.reportGap (st : Shadow) (now : Clock) (firstAvail : Int) : Shadow :=
  if st.histSeq ≠ 0 ∧ st.histSeq + 1 < firstAvail then
    st.event now (py "pressure history: gap seq " ++ decimal (st.histSeq + 1) ++ py ".."
      ++ decimal (firstAvail - 1) ++ py " (ring overwrote)") .warn
  else st

/-- `_poll_history` from a reply to the end of the iteration. -/
def historyBatch (lim : Limits) (st : Shadow) (now : Clock) (res : Dict) :
    Shadow × Option PyErr :=
  match (res.get (py "boot_id")).toIntOr 0, (res.get (py "next_seq")).toIntOr 1 with
  | .error e, _ | _, .error e => (st, some e)
  | .ok bootId, .ok nextSeq =>
      let st := st.resetCursor bootId nextSeq
      match (res.get (py "first_seq_available")).toIntOr 1 with
      | .error e => (st, some e)
      | .ok firstAvail =>
          let st := st.reportGap now firstAvail
          match (res.get (py "now_ms")).toIntOr 0,
              ((res.get (py "samples")).or (.arr [])).iter with
          | .error e, _ | _, .error e => (st, some e)
          | .ok devNow, .ok rows =>
              let relay : Json :=
                .int (if (Dict.get st.dp (py "Fon_Relay_Output")).truthy then 1 else 0)
              match ingest lim now.ms devNow relay st st.histSeq rows with
              | (st, _, some e) => (st, some e)
              | (st, cursor, none) => ({ st with histSeq := cursor }, none)

inductive HistoryStage
  | asleep | paused | batch
  deriving DecidableEq, Repr

/-- The head of the loop of `_poll_history`. -/
def historyHead (st : Shadow) : TaskOut HistoryStage :=
  if !st.online then { shadow := st, task := .asleep, next := .finish }
  else if st.downloading then { shadow := st, task := .paused, next := .sleep (seconds 2) }
  else { shadow := st, task := .batch, next := .call (historyReadCall st.histSeq) }

/-- `_poll_history` resumes. -/
def HistoryStage.resume (p : HistoryStage) (lim : Limits) (st : Shadow) (now : Clock)
    (res : Except PyErr Dict) : TaskOut HistoryStage :=
  match p, res with
  | .asleep, _ | .paused, _ => historyHead st
  | .batch, .error _ => { shadow := st, task := .batch, next := .finish }
  | .batch, .ok res =>
      match historyBatch lim st now res with
      | (st, some _) => { shadow := st, task := .batch, next := .finish }
      | (st, none) => { shadow := st, task := .asleep, next := .sleep (seconds 30) }

end Fountainer
