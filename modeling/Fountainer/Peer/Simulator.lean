import Fountainer.App.Firmware
import Fountainer.System.Step

/-!
# The device (`esp_client_simulator.py`)

`SimulatedDevice` between two suspension points. Its receive loop and its telemetry loop share the
connection; the download of an image runs in a thread while the receive loop waits for it.
-/

namespace Fountainer

/-- What the receive loop does when its `_send` returns. -/
inductive AfterSend
  | read
  | download (msg : Dict)
  /-- 'reboot' into the new version. -/
  | flash (msg : Dict) (data : Bytes)
  deriving DecidableEq

inductive RxState
  | offline
  /-- Awaiting the `hello_ack`. -/
  | handshake
  | idle
  | sending (next : AfterSend)
  | downloading (msg : Dict)
  /-- The receive loop has ended with an exception; `run` waits on. -/
  | over
  deriving DecidableEq

/-- The telemetry loop, with its uptime. -/
inductive Telemetry
  | off
  | waiting (uptime : Int)
  | heartbeat (uptime : Int)
  | report (uptime : Int)

/-- A frame that `_verify_s2c` has accepted, with the session parameters of that moment. -/
structure AcceptedFrame where
  params : AuthParams
  frame : Dict

/-- An image that the device has rebooted into. -/
structure Installed where
  msg : Dict
  data : Bytes

structure SimulatedDevice where
  deviceId : Str
  serial : Str
  key : Bytes
  kid : Str := py "1"
  fwVersion : Json := .str (py "1.0.0")
  /-- `int(self.report_interval)`. -/
  reportInterval : Int := 5
  clientNonce : Str := []
  serverNonce : Str := []
  negKid : Option Str := none
  c2sSeq : Nat := 0
  s2cReplay : AntiReplay := {}
  seq : Nat := 0
  prevAcked : Bool := false
  rx : RxState := .offline
  telemetry : Telemetry := .off
  /-- The frames handed to `ws.send`, oldest first. -/
  sent : List Dict := []
  accepted : List AcceptedFrame := []
  installed : List Installed := []

/-! ## Python operations -/

/-- `x == n` of an integer `n`. -/
def Json.eqInt (x : Json) (n : Int) : Bool :=
  match x with
  | .bool b => (if b then 1 else 0) = n
  | .int i => i = n
  | .float f => f.toRat = some (n : ℚ)
  | _ => false

/-- `xs[:n]`. -/
def sliceTo {α : Type} (xs : List α) (n : Int) : List α :=
  xs.take (if 0 ≤ n then n else xs.length + n).toNat

namespace SimulatedDevice

def params (d : SimulatedDevice) (dir : Direction) : AuthParams :=
  { authKey := some d.key, kid := d.negKid, direction := dir, deviceId := d.deviceId,
    serverNonce := d.serverNonce, clientNonce := .str d.clientNonce }

/-- `await self._send(ws, frame)`, up to its suspension. -/
def transmit (d : SimulatedDevice) (frame : Dict) (next : AfterSend) : SimulatedDevice :=
  { d with sent := d.sent ++ [frame], rx := .sending next }

/-- `_dp_snapshot`. -/
def dpSnapshot (d : SimulatedDevice) : Json := .obj
  [(py "Device_SW_Version", d.fwVersion), (py "Fon_Current_Pressure", .float (.ofRat (27 / 10))),
   (py "Fon_Current_State", .int 3), (py "Fon_Relay_Output", .bool false),
   (py "Fon_Run_Time", .int 1234), (py "Fon_Cycles_Total", .int 42),
   (py "Fon_Max_On_Time", .int 240), (py "Fon_Report_Interval", .int d.reportInterval),
   (py "System_Temperature", .float (.ofRat (83 / 2)))]

/-- The envelope of the device's own frames. -/
def envelope (d : SimulatedDevice) (now : Clock) (name : Str) : Dict :=
  [(py "v", .int 2), (py "type", .str name), (py "ts", .int now.ms), (py "serial", .str d.serial)]

/-- `_verify_s2c`. -/
def verifyS2c (d : SimulatedDevice) (msg : Dict) : SimulatedDevice × Except PyErr Bool :=
  match verify (d.params .s2c) msg with
  | .error e => (d, .error e)
  | .ok .ok =>
      let (s2cReplay, fresh) := d.s2cReplay.check (authSeq msg)
      let accepted := if fresh then d.accepted ++ [⟨d.params .s2c, msg⟩] else d.accepted
      ({ d with s2cReplay, accepted }, .ok fresh)
  | .ok _ => (d, .ok false)

/-! ## Handshake -/

def hello (d : SimulatedDevice) (now : Clock) : Dict :=
  [(py "v", .int 1), (py "type", .str (py "hello")), (py "ts", .int now.ms),
   (py "msg_id", .str (py "hello-1")), (py "serial", .str d.serial),
   (py "device_id", .str d.deviceId), (py "protocol_version", .int 2),
   (py "fw_version", d.fwVersion), (py "auth_schemes", .arr [.str authScheme]),
   (py "auth_kids", .arr [.str d.kid]), (py "client_nonce", .str d.clientNonce)]

/-- The session proof before it is signed. -/
def otaCheck (d : SimulatedDevice) (now : Clock) : Dict :=
  [(py "v", .int 2), (py "type", .str (py "ota_check")), (py "ts", .int now.ms),
   (py "msg_id", .str (py "chk-1")), (py "serial", .str d.serial),
   (py "current_version", d.fwVersion)]

/-- `_handshake` up to the wait for the `hello_ack`. -/
def connect (d : SimulatedDevice) (now : Clock) (rand : Bytes) : SimulatedDevice :=
  let d := { d with clientNonce := ofChars (base64 rand), rx := .handshake }
  { d with sent := d.sent ++ [d.hello now] }

/-- `_handshake` after the `hello_ack`, with what it has computed a MAC over. -/
def recvAck (d : SimulatedDevice) (now : Clock) (ack : Dict) : SimulatedDevice × List Signed :=
  let failed (d : SimulatedDevice) : SimulatedDevice × List Signed := ({ d with rx := .offline }, [])
  if !(ack.get (py "accepted")).truthy then failed d else
  match ack.item (py "server_nonce"), ack.item (py "auth_kid") with
  | .ok serverNonce, .ok kid =>
      let d := { d with c2sSeq := d.c2sSeq + 1 }
      -- `auth.sign` encodes both
      match serverNonce.textOrEmpty, kid.text with
      | .ok serverNonce, .ok kid =>
          let d := { d with serverNonce, negKid := some kid }
          match signInput (d.params .c2s) (d.otaCheck now) d.c2sSeq,
              sign (d.params .c2s) (d.otaCheck now) d.c2sSeq with
          | .ok y, .ok frame =>
              ({ d with sent := d.sent ++ [frame], rx := .idle, telemetry := .waiting 0 }, [y])
          | _, _ => failed d
      | _, _ => failed d
  | _, _ => failed d

/-! ## Firmware -/

/-- `_ota_status`. -/
def otaStatus (d : SimulatedDevice) (now : Clock) (target : Json) (state : Str) (more : Dict) : Dict :=
  d.envelope now (py "ota_status") ++
    [(py "target_version", target.or d.fwVersion), (py "state", .str state)] ++ more

/-- `_download_and_verify`: whether size, checksum and hash of the downloaded image fit. -/
def downloadAndVerify (body : Dict) (data : Bytes) : Bool :=
  (body.get (py "size")).eqInt data.length && (body.get (py "crc32")).eqInt (crc32 data) &&
    body.get (py "sha256") = .str (sha256Hex data)

/-- `_handle_ota_available` up to the download. -/
def handleOtaAvailable (d : SimulatedDevice) (now : Clock) (msg : Dict) : SimulatedDevice :=
  match d.verifyS2c msg with
  | (d, .error _) => { d with rx := .over }
  | (d, .ok false) => d
  | (d, .ok true) =>
      d.transmit (d.otaStatus now (msg.get (py "target_version")) (py "downloading")
        [(py "progress_pct", .int 10)]) (.download msg)

/-- `_handle_ota_available` after the download; without data, `urlopen` has raised. -/
def downloaded (d : SimulatedDevice) (now : Clock) (msg : Dict) (data : Option Bytes) : SimulatedDevice :=
  let target := msg.get (py "target_version")
  match msg.get (py "url"), data with
  | .str _, some data =>
      if downloadAndVerify msg data then
        d.transmit (d.otaStatus now target (py "applied") [(py "progress_pct", .int 100)])
          (.flash msg data)
      else
        d.transmit (d.otaStatus now target (py "failed")
          [(py "error", .str (py "verification_failed"))]) .read
  | _, _ => { d with rx := .over }

/-! ## Control and pull messages -/

/-- A reply to `msg`. -/
def replyTo (d : SimulatedDevice) (now : Clock) (name : Str) (msg body : Dict) : SimulatedDevice :=
  d.transmit (d.envelope now name ++ (py "in_reply_to", msg.get (py "msg_id")) :: body) .read

def handleCommand (d : SimulatedDevice) (now : Clock) (msg : Dict) : SimulatedDevice :=
  let body (ok : Bool) : Dict :=
    [(py "command", msg.get (py "command")),
     (py "status", .str (if ok then py "applied" else py "rejected"))]
  match d.verifyS2c msg with
  | (d, .error _) => { d with rx := .over }
  | (d, .ok true) => d.replyTo now (py "command_result") msg (body true)
  | (d, .ok false) =>
      d.replyTo now (py "command_result") msg (body false ++ [(py "error", .str (py "auth_failed"))])

def handleDpWrite (d : SimulatedDevice) (now : Clock) (msg : Dict) : SimulatedDevice :=
  match d.verifyS2c msg with
  | (d, .error _) => { d with rx := .over }
  | (d, .ok true) => d.replyTo now (py "dp_write_result") msg
      [(py "status", .str (py "applied")), (py "readback", Dict.getOr msg (py "dp") (.obj []))]
  | (d, .ok false) => d.replyTo now (py "dp_write_result") msg
      [(py "status", .str (py "rejected")),
       (py "errors", .obj [(py "_msg", .str (py "auth_failed"))])]

/-- `dp_read` is not signed. -/
def handleDpRead (d : SimulatedDevice) (now : Clock) (msg : Dict) : SimulatedDevice :=
  let d := { d with seq := d.seq + 1 }
  d.replyTo now (py "dp_report") msg [(py "seq", .int d.seq), (py "dp", d.dpSnapshot)]

def logRecord (s u ev mod lvl : Int) (a : Option (List Int)) (t : String) : Int × Json :=
  let args : Dict := match a with
    | some a => [(py "a", .arr (a.map .int))]
    | none => []
  (s, .obj ([(py "s", .int s), (py "u", .int u), (py "ev", .int ev), (py "mod", .int mod),
    (py "lvl", .int lvl)] ++ args ++ [(py "t", .str (py t))]))

/-- `_log_seed`, with the sequence numbers. -/
def logRecords : List (Int × Json) :=
  [logRecord 1 120 100 1 3 (some [1]) "boot",
   logRecord 2 900 200 2 3 (some [0x0C01A8C0]) "wlan connected",
   logRecord 3 1500 202 2 3 none "session ready",
   logRecord 4 2100 201 2 2 (some [201]) "wlan disconnected"]

/-- `_hist_seed`, with the sequence numbers. -/
def histSamples : List (Int × Json) :=
  [1, 2, 3, 4, 5].map fun seq : Int => (seq, .arr [.int seq, .int (1000 * seq), .int (2400 + seq), .int 1])

/-- The entries after `since_seq`, at most as many as asked for. -/
def entriesAfter (entries : List (Int × Json)) (msg : Dict) (limitKey : Str) (limit : Int) :
    Except PyErr Json := do
  let since ← (msg.get (py "since_seq")).toIntOr 0
  let n ← (msg.get limitKey).toIntOr limit
  return .arr ((sliceTo (entries.filter fun e => since < e.1) n).map Prod.snd)

/-- A pull message: unless it is signed, it is ignored. -/
def ifSigned (d : SimulatedDevice) (msg : Dict) (answer : SimulatedDevice → SimulatedDevice) :
    SimulatedDevice :=
  match d.verifyS2c msg with
  | (d, .error _) => { d with rx := .over }
  | (d, .ok false) => d
  | (d, .ok true) => answer d

def handleLogRead (d : SimulatedDevice) (now : Clock) (msg : Dict) : SimulatedDevice :=
  d.ifSigned msg fun d =>
    match entriesAfter logRecords msg (py "max_records") 64 with
    | .error _ => { d with rx := .over }
    | .ok recs => d.replyTo now (py "log_batch") msg
        [(py "boot_id", .int 0xC0FFEE), (py "first_seq_available", .int 1), (py "next_seq", .int 5),
         (py "dropped_count", .int 0), (py "overflow", .bool false), (py "records", recs)]

def handleHistoryRead (d : SimulatedDevice) (now : Clock) (msg : Dict) : SimulatedDevice :=
  d.ifSigned msg fun d =>
    match entriesAfter histSamples msg (py "max_samples") 100 with
    | .error _ => { d with rx := .over }
    | .ok samples => d.replyTo now (py "history_batch") msg
        [(py "boot_id", .int 0xC0FFEE), (py "now_ms", .int 5000), (py "sample_interval_ms", .int 1000),
         (py "next_seq", .int 6), (py "first_seq_available", .int 1), (py "overwritten", .int 0),
         (py "high_watermark", .int 5), (py "samples", samples)]

def handleLogReadPrev (d : SimulatedDevice) (now : Clock) (msg : Dict) : SimulatedDevice :=
  d.ifSigned msg fun d =>
    if d.prevAcked then d.replyTo now (py "log_batch") msg
      [(py "boot_id", .int 0), (py "available", .bool false), (py "records", .arr [])]
    else d.replyTo now (py "log_batch") msg
      [(py "boot_id", .int 0xDEAD01), (py "available", .bool true), (py "records", .arr
        [(logRecord 90 55000 700 1 2 (some [0, 5]) "wd timeout").2,
         (logRecord 91 56000 702 1 1 (some [0, 130]) "wd reboot").2])]

def handleLogAckPrev (d : SimulatedDevice) (now : Clock) (msg : Dict) : SimulatedDevice :=
  d.ifSigned msg fun d =>
    match (msg.get (py "boot_id")).toIntOr 0 with
    | .error _ => { d with rx := .over }
    | .ok bootId =>
        let ok := (bootId = 0 ∨ bootId = 0xDEAD01) ∧ !d.prevAcked
        let d := if ok then { d with prevAcked := true } else d
        d.replyTo now (py "log_ack_result") msg [(py "ok", .bool ok)]

/-! ## The receive loop -/

/-- `handlers` of `_rx_loop`. -/
def handlers : List (Str × (SimulatedDevice → Clock → Dict → SimulatedDevice)) :=
  [(py "ota_available", handleOtaAvailable), (py "ota_none", fun d _ _ => d),
   (py "command", handleCommand), (py "dp_write", handleDpWrite), (py "dp_read", handleDpRead),
   (py "log_read", handleLogRead), (py "log_read_prev", handleLogReadPrev),
   (py "history_read", handleHistoryRead), (py "log_ack_prev", handleLogAckPrev),
   (py "ota_cancel", fun d _ _ => d)]

/-- A frame in `_rx_loop`. -/
def recvMessage (d : SimulatedDevice) (now : Clock) : Frame → SimulatedDevice
  | .invalid => d
  | .json (.obj msg) =>
      match Dict.get msg (py "type") with
      | .str name => match handlers.lookup name with
          | some h => h d now msg
          | none => d
      | name => if name.hashable then d else { d with rx := .over }
  | _ => { d with rx := .over }

/-- A frame while the device waits for one. -/
def recv (d : SimulatedDevice) (now : Clock) (frame : Frame) : SimulatedDevice × List Signed :=
  match d.rx, frame with
  | .handshake, .json (.obj ack) => d.recvAck now ack
  | .handshake, _ => ({ d with rx := .offline }, [])
  | .idle, frame => (d.recvMessage now frame, [])
  | _, _ => (d, [])

/-- The `_send` of the receive loop returns or raises. -/
def sendDone (d : SimulatedDevice) (ok : Bool) : SimulatedDevice :=
  match d.rx with
  | .sending next =>
      if !ok then { d with rx := .over } else
      match next with
      | .read => { d with rx := .idle }
      | .download msg => { d with rx := .downloading msg }
      | .flash msg data => { d with
          fwVersion := msg.get (py "target_version"), rx := .idle
          installed := d.installed ++ [⟨msg, data⟩] }
  | _ => d

/-- The telemetry loop goes on: its timer has run out, or its `_send` returns or raises. -/
def beat (d : SimulatedDevice) (now : Clock) (ok : Bool) : SimulatedDevice :=
  match d.telemetry with
  | .off => d
  | .waiting uptime =>
      let uptime := uptime + d.reportInterval
      { d with telemetry := .heartbeat uptime
               sent := d.sent ++ [d.envelope now (py "heartbeat") ++
                 [(py "uptime_s", .int uptime), (py "fw_version", d.fwVersion)]] }
  | .heartbeat uptime =>
      if !ok then { d with telemetry := .off } else
      let d := { d with seq := d.seq + 1 }
      { d with telemetry := .report uptime
               sent := d.sent ++ [d.envelope now (py "dp_report") ++
                 [(py "seq", .int d.seq), (py "dp", d.dpSnapshot)]] }
  | .report uptime => { d with telemetry := if ok then .waiting uptime else .off }

/-- `run` has returned or raised. -/
def ended (d : SimulatedDevice) : SimulatedDevice := { d with rx := .offline, telemetry := .off }

end SimulatedDevice

/-! ## Steps -/

/-- What can happen to a device next; each step carries the time of the device's own clock. -/
inductive DeviceStep
  /-- The connection is open; `rand` becomes the client nonce. -/
  | connect (now : Clock) (rand : Bytes)
  | recv (now : Clock) (frame : Frame)
  | sendDone (ok : Bool)
  | downloaded (now : Clock) (data : Option Bytes)
  | beat (now : Clock) (ok : Bool)
  /-- The connection is found closed while a frame is awaited. -/
  | lost
  /-- The `stop` event of `run` is set. -/
  | stop

namespace SimulatedDevice

/-- One step of the device, with what it has computed a MAC over. -/
def step (d : SimulatedDevice) : DeviceStep → SimulatedDevice × List Signed
  | .connect now rand => match d.rx with
      | .offline => (d.connect now rand, [])
      | _ => (d, [])
  | .recv now frame => d.recv now frame
  | .sendDone ok => (d.sendDone ok, [])
  | .downloaded now data => match d.rx with
      | .downloading msg => (d.downloaded now msg data, [])
      | _ => (d, [])
  | .beat now ok => (d.beat now ok, [])
  | .lost => match d.rx with
      | .handshake | .idle => (d.ended, [])
      | _ => (d, [])
  | .stop => match d.rx with
      | .offline | .handshake => (d, [])
      | _ => (d.ended, [])

end SimulatedDevice

end Fountainer
