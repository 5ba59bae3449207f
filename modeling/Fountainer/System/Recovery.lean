import Fountainer.App.Log
import Fountainer.Library.Run

/-!
# The log of the boot before

A device with its previous-boot slot, the log pollers of its sessions and the disk of the server, in any
interleaving. A request can fail at any time, the disk at any line, and the device frees its slot when an
acknowledgement arrives. What has been acknowledged should be on the disk.
-/

namespace Fountainer

/-! ## Failing writes -/

/-- `_poll_logs` resumes while the disk refuses the line with number `fault`: the lines before it are
written. The exchange about the boot before swallows the exception, the loop ends with it. -/
def LogPoll.resumeOn (fault : Option Nat) (p : LogPoll) (st : Shadow) (now : Clock)
    (res : Except PyErr Dict) : TaskOut LogPoll :=
  let o := p.resume st now res
  match fault with
  | none => o
  | some n =>
      if n < o.written.length then
        match p.stage with
        | .prev => p.head st (o.written.take n)
        | _ => p.stop { o.shadow with logs := st.logs } (o.written.take n)
      else o

/-- The line with number `fault` is one of `n` lines. -/
def hits (fault : Option Nat) (n : Nat) : Bool := fault.any (· < n)

/-! ## The device and the pollers -/

/-- `max_records` of a request. -/
def maxRecords (fields : Dict) : Nat :=
  match fields.get (py "max_records") with
  | .int n => n.toNat
  | _ => 64

/-- The oldest records of the slot, as many as the request of `log_read_prev` asks for. -/
def Slot.carried (slot : Slot) : Slot where
  boot := slot.boot
  records := slot.records.take (maxRecords logReadPrevCall.body)
  sorted := slot.sorted.sublist (List.take_sublist _ _)

/-- `_poll_logs` of one session. -/
inductive Recoverer
  /-- It sleeps, or waits for `log_read` or `log_ack_prev`. -/
  | waits (p : LogPoll)
  /-- Its `log_read_prev` is with the device. -/
  | asked (p : LogPoll) (h : p.stage = .prev)
  /-- The device has answered with its slot. -/
  | answered (p : LogPoll) (h : p.stage = .prev) (slot : Option Slot)
  | finished

def Recoverer.after (o : TaskOut LogPoll) : Recoverer :=
  match o.next with
  | .finish => .finished
  | _ => if h : o.task.stage = .prev then .asked o.task h else .waits o.task

structure Recovery where
  now : Clock := 0
  shadow : Shadow := {}
  slot : Option Slot := none
  pollers : List Recoverer := []
  /-- The lines of all files of the device. -/
  written : List LogLine := []
  /-- The slots that `log_ack_prev` has been sent for. -/
  acked : List Slot := []

inductive RecoveryStep
  | tick (ns : Nat)
  /-- The rest of the application leaves the shadow `st`. -/
  | app (st : Shadow)
  /-- A session is connected. -/
  | connect
  /-- The device restarts with another slot, or none. -/
  | restart (slot : Option Slot)
  /-- An acknowledgement arrives at the device. -/
  | free (boot : Int)
  /-- Poller `k` resumes from its sleep or with any result of `log_read` or `log_ack_prev`. -/
  | resume (k : Nat) (res : Except PyErr Dict) (fault : Option Nat)
  | answer (k : Nat)
  | deliver (k : Nat) (other : Dict) (fault : Option Nat)
  /-- The `log_read_prev` of poller `k` raises. -/
  | fail (k : Nat) (e : PyErr)

namespace Recovery

def goOn (s : Recovery) (k : Nat) (o : TaskOut LogPoll) : Recovery :=
  { s with shadow := o.shadow, written := s.written ++ o.written, pollers := s.pollers.set k (.after o) }

/-- The reply with the slot is read. -/
def deliver (s : Recovery) (k : Nat) (p : LogPoll) (slot : Option Slot) (other : Dict) (fault : Option Nat) :
    Recovery :=
  let reply : PrevReply := { slot := slot.map Slot.carried, other }
  let o := p.resumeOn fault s.shadow s.now (.ok reply.message)
  { s.goOn k o with acked := if o.task.stage = .ack then slot.toList ++ s.acked else s.acked }

def step (s : Recovery) : RecoveryStep → Recovery
  | .tick ns => { s with now := s.now + ns }
  | .app st => { s with shadow := st }
  | .connect => { s with pollers := s.pollers ++ [.waits { started := s.now }] }
  | .restart slot => { s with slot }
  | .free boot => { s with slot := s.slot.filter fun slot => slot.boot ≠ boot }
  | .resume k res fault => match s.pollers[k]? with
      | some (.waits p) => s.goOn k (p.resumeOn fault s.shadow s.now res)
      | _ => s
  | .answer k => match s.pollers[k]? with
      | some (.asked p h) => { s with pollers := s.pollers.set k (.answered p h s.slot) }
      | _ => s
  | .deliver k other fault => match s.pollers[k]? with
      | some (.answered p _ slot) => s.deliver k p slot other fault
      | _ => s
  | .fail k e => match s.pollers[k]? with
      | some (.asked p _) | some (.answered p _ _) => s.goOn k (p.resume s.shadow s.now (.error e))
      | _ => s

/-- There is a line for the record in `<boot_id>.jsonl`. -/
def Saved (s : Recovery) (boot : Int) (x : Record) : Prop := ∃ rx, logLine rx boot x ∈ s.written

/-- When a reply is read and written without a fault, it carries the whole slot, or the file has the
other records. -/
def ok (s : Recovery) : RecoveryStep → Prop
  | .deliver k _ fault => match s.pollers[k]? with
      | some (.answered _ _ (some slot)) =>
          hits fault slot.carried.records.length = true ∨
            ∀ x ∈ slot.records.drop (maxRecords logReadPrevCall.body), s.Saved slot.boot x
      | _ => True
  | _ => True

/-! ## The exchange -/

variable {s : Recovery}

theorem Saved.append {s s' : Recovery} {lines : List LogLine} (hw : s'.written = s.written ++ lines)
    {boot : Int} {x : Record} (h : s.Saved boot x) : s'.Saved boot x := by
  obtain ⟨rx, hrx⟩ := h
  refine ⟨rx, ?_⟩
  rw [hw]
  exact List.mem_append_left _ hrx

end Recovery

end Fountainer
