import Fountainer.Python.Json

/-!
# The message table (`fountain_proto/_messages.py`)
-/

namespace Fountainer

inductive Direction
  | c2s | s2c
  deriving DecidableEq, Repr

/-- Which messages carry a MAC: none, the session proof, the control messages. -/
inductive AuthClass
  | none | session | control
  deriving DecidableEq, Repr

/-- A row of `META`. -/
structure Meta where
  name : Str
  direction : Direction
  wire : Int
  auth : AuthClass
  request : Bool
  response : Option Str

def authScheme : Str := py "hmac-sha256"

def messageTable : List Meta :=
  [⟨py "hello", .c2s, 1, .none, true, some (py "hello_ack")⟩,
   ⟨py "hello_ack", .s2c, 1, .none, false, none⟩,
   ⟨py "protocol_mismatch", .c2s, 1, .none, false, none⟩,
   ⟨py "ota_check", .c2s, 2, .session, true, some (py "ota_available")⟩,
   ⟨py "ota_available", .s2c, 2, .control, false, some (py "ota_status")⟩,
   ⟨py "ota_none", .s2c, 2, .none, false, none⟩,
   ⟨py "ota_cancel", .s2c, 2, .control, false, some (py "ota_status")⟩,
   ⟨py "ota_status", .c2s, 2, .none, false, none⟩,
   ⟨py "heartbeat", .c2s, 2, .none, false, none⟩,
   ⟨py "dp_report", .c2s, 2, .none, false, none⟩,
   ⟨py "dp_read", .s2c, 2, .none, true, some (py "dp_report")⟩,
   ⟨py "dp_write", .s2c, 2, .control, true, some (py "dp_write_result")⟩,
   ⟨py "dp_write_result", .c2s, 2, .none, false, none⟩,
   ⟨py "command", .s2c, 2, .control, true, some (py "command_result")⟩,
   ⟨py "command_result", .c2s, 2, .none, false, none⟩,
   ⟨py "error_report", .c2s, 2, .none, false, none⟩,
   ⟨py "device_alert", .c2s, 2, .none, false, none⟩,
   ⟨py "log_read", .s2c, 2, .control, true, some (py "log_batch")⟩,
   ⟨py "log_batch", .c2s, 2, .none, false, none⟩,
   ⟨py "log_read_prev", .s2c, 2, .control, true, some (py "log_batch")⟩,
   ⟨py "log_ack_prev", .s2c, 2, .control, true, some (py "log_ack_result")⟩,
   ⟨py "log_ack_result", .c2s, 2, .none, false, none⟩,
   ⟨py "history_read", .s2c, 2, .control, true, some (py "history_batch")⟩,
   ⟨py "history_batch", .c2s, 2, .none, false, none⟩]

/-- `META[name]`. -/
def messageMeta (name : Str) : Option Meta := messageTable.find? fun m => m.name = name

/-- `name in META`. -/
def isMessageType (name : Str) : Bool := (messageMeta name).isSome

/-- Whether a message of this type is signed when the server sends it. -/
def isControl (name : Str) : Bool :=
  match messageMeta name with
  | some m => m.auth = .control
  | none => false

theorem messageMeta_name {name : Str} {m : Meta} (h : messageMeta name = some m) :
    m.name = name := by
  have := List.find?_some h
  simpa using this

end Fountainer
