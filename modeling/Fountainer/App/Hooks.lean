import Fountainer.App.Shadow

/-!
# The callbacks of the application (`server/app.py`, protocol hooks)

The callback dictionary, and what each callback does to the shadow of the session's device up to the
message it sends last, if any.
-/

namespace Fountainer

/-- A message that is sent through a session: `send`, or `request` with its timeout. -/
inductive Call
  | send (name : Str) (body : Dict) (inReplyTo : Json)
  | request (name : Str) (body : Dict)

def Call.body : Call → Dict
  | .send _ body _ | .request _ body => body

/-- `FirmwareImage`, without the path. -/
structure FirmwareImage where
  version : Str
  filename : Str
  size : Int
  crc32 : Int
  sha256 : Str
  deriving DecidableEq

/-- `ota_available_body`. -/
def FirmwareImage.otaAvailableBody (im : FirmwareImage) (url : Str) (mandatory : Bool)
    (maxAttempts : Option Int := none) : Dict :=
  [(py "target_version", .str im.version), (py "url", .str url), (py "size", .int im.size),
   (py "crc32", .int im.crc32), (py "sha256", .str im.sha256), (py "mandatory", .bool mandatory)]
  ++ match maxAttempts with
    | some n => [(py "max_attempts", .int n)]
    | none => []

/-- The registry: a device stands under its own id. -/
structure Registry where
  devices : List (Str × Device)
  named : ∀ e ∈ devices, e.2.deviceId = e.1

def Registry.get (r : Registry) (d : Str) : Option Device := r.devices.lookup d

/-- The configuration of a server process; `newerThan` is the firmware folder at a clock reading. -/
structure Config where
  registry : Registry
  authScope : Str := py "control"
  limits : Limits := {}
  newerThan : Clock → Json → Except PyErr (Option FirmwareImage)
  publicBaseUrl : Str
  mandatoryOta : Bool := false

/-- `firmware_url`. -/
def Config.firmwareUrl (cfg : Config) (filename : Str) : Str :=
  cfg.publicBaseUrl ++ py "/" ++ filename

/-! ## Registration -/

/-- The bound methods that the application registers. -/
inductive Hook
  | onOtaCheck | onDpReport | onHeartbeat | onAlert | onOtaStatus | onConnect | onDisconnect
  deriving DecidableEq, Repr

/-- The dictionary after `FountainAppServer.__init__`: message types and lifecycle keys together. -/
def callbacks : List (Str × Hook) :=
  [(py "__ota_check__", .onOtaCheck), (py "dp_report", .onDpReport),
   (py "heartbeat", .onHeartbeat), (py "device_alert", .onAlert),
   (py "ota_status", .onOtaStatus), (py "__connect__", .onConnect),
   (py "__disconnect__", .onDisconnect)]

def callbackFor (key : Str) : Option Hook := callbacks.lookup key

/-! ## The hooks -/

/-- What a hook leaves behind: the shadow, the message it sends last, or the exception it raised. -/
structure HookOut where
  shadow : Shadow
  reply : Option Call := none
  err : Option PyErr := none

/-- `_on_connect` up to the tasks it creates. -/
def onConnect (st : Shadow) (s : DeviceSession) (now : Clock) : HookOut :=
  let st := { st with online := true, dp := [], dpTs := [], config := .obj [] }
  { shadow := st.event now (py "connected & authenticated (kid=" ++ (optText s.kid).toStr
      ++ py ")") .ok }

/-- `_on_disconnect`. -/
def onDisconnect (st : Shadow) (now : Clock) : HookOut :=
  { shadow := ({ st with online := false }).event now (py "connection closed (offline)") .warn }

/-- `dev is not None and dev.ota_hold`. -/
def Config.otaHeld (cfg : Config) (d : Str) : Bool :=
  match cfg.registry.get d with
  | some dev => dev.otaHold
  | none => false

/-- `_on_ota_check`. -/
def onOtaCheck (cfg : Config) (st : Shadow) (s : DeviceSession) (now : Clock) (msg : Dict) :
    HookOut :=
  let current := Dict.getOr msg (py "current_version") (.str [])
  let st := { st with fwVersion := current }
  if cfg.otaHeld s.deviceId then
    { shadow := st.event now (py "ota_check: held (ota_hold), currently on " ++ current.toStr)
      reply := some (.send (py "ota_none") [] (msg.get (py "msg_id"))) }
  else match cfg.newerThan now current with
    | .error e => { shadow := st, err := some e }
    | .ok none =>
        let st := st.event now (py "ota_check: currently on " ++ current.toStr ++ py ", no update")
        { shadow := { st with otaStatus := none }
          reply := some (.send (py "ota_none") [] (msg.get (py "msg_id"))) }
    | .ok (some im) =>
        { shadow := st.event now (py "OTA offered: " ++ current.toStr ++ py " -> " ++ im.version
            ++ py " (" ++ decimal im.size ++ py " B)") .ok
          reply := some (.send (py "ota_available")
            (im.otaAvailableBody (cfg.firmwareUrl im.filename) cfg.mandatoryOta)
            (msg.get (py "msg_id"))) }

/-- `_on_dp_report`: a chart sample when the report touched pressure or relay. -/
def onDpReport (cfg : Config) (st : Shadow) (now : Clock) (msg : Dict) : HookOut :=
  let dp := (Dict.getOr msg (py "dp") (.obj [])).or (.obj [])
  match st.dpMerge now dp with
  | (st, some e) => { shadow := st, err := some e }
  | (st, none) =>
      match dp.asDict with
      | .error e => { shadow := st, err := some e }
      | .ok d =>
          -- the state label is looked up in a dictionary
          if !(d.get (py "Fon_Current_State")).hashable then
            { shadow := st, err := some .typeError }
          else if (d.lookup (py "Fon_Current_Pressure")).isSome
              ∨ (d.lookup (py "Fon_Relay_Output")).isSome then
            { shadow := st.histAdd cfg.limits now.ms (Dict.get st.dp (py "Fon_Current_Pressure"))
                (.int (if (Dict.get st.dp (py "Fon_Relay_Output")).truthy then 1 else 0)) }
          else { shadow := st }

/-- `_on_heartbeat`. -/
def onHeartbeat (st : Shadow) (msg : Dict) : HookOut :=
  { shadow := { st with
      uptimeS := msg.get (py "uptime_s")
      fwVersion := msg.getOr (py "fw_version") st.fwVersion
      faultActive := msg.getOr (py "fault_active") (.bool false) } }

/-- `_on_alert`. -/
def onAlert (st : Shadow) (now : Clock) (msg : Dict) : HookOut :=
  let st := { st with alerts := st.alerts ++ [Json.obj msg] }
  let severity := msg.get (py "severity")
  { shadow := st.event now (py "ALERT " ++ (msg.get (py "code")).toStr ++ py "/" ++ severity.toStr
      ++ py ": " ++ (msg.getOr (py "detail") (.str [])).toStr)
      (if severity = Json.str (py "critical") then .err else .warn) }

/-- `_on_ota_status`. -/
def onOtaStatus (st : Shadow) (now : Clock) (msg : Dict) : HookOut :=
  let st := { st with otaStatus := some (Json.obj msg) }
  let progress := msg.get (py "progress_pct")
  let error := msg.get (py "error")
  { shadow := st.event now (py "OTA " ++ (msg.get (py "target_version")).toStr ++ py ": "
      ++ (msg.get (py "state")).toStr
      ++ (if progress = Json.null then [] else py " (" ++ progress.toStr ++ py "%)")
      ++ (if error.truthy then py " — " ++ error.toStr else []))
      (if msg.get (py "state") = Json.str (py "failed") then .err else .info) }

/-- The callback `h` applied to a session and a message. -/
def runHook (cfg : Config) (h : Hook) (st : Shadow) (s : DeviceSession) (now : Clock)
    (msg : Dict) : HookOut :=
  match h with
  | .onOtaCheck => onOtaCheck cfg st s now msg
  | .onDpReport => onDpReport cfg st now msg
  | .onHeartbeat => onHeartbeat st msg
  | .onAlert => onAlert st now msg
  | .onOtaStatus => onOtaStatus st now msg
  | .onConnect => onConnect st s now
  | .onDisconnect => onDisconnect st now

end Fountainer
