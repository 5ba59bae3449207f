import Fountainer.Proto.Auth

/-!
# The device's check of server frames (`esp_client_simulator.py`)
-/

namespace Fountainer

/-- A frame whose type is signed when the server sends it. -/
def isControlFrame (frame : Dict) : Bool :=
  match frame.get (py "type") with
  | .str name => isControl name
  | _ => false

/-- `_verify_s2c`: `verify` with the session parameters, then the sequence counter. -/
def verifyS2c (p : AuthParams) (r : AntiReplay) (msg : Dict) : AntiReplay × Bool :=
  match verify p msg with
  | .ok .ok => r.check (authSeq msg)
  | _ => (r, false)

/-- The device accepts every signed frame of a sequence of frames. -/
def acceptsAll (p : AuthParams) : AntiReplay → List Dict → Bool
  | _, [] => true
  | r, frame :: rest =>
      if isControlFrame frame then
        let (r', ok) := verifyS2c p r frame
        ok && acceptsAll p r' rest
      else acceptsAll p r rest

end Fountainer
