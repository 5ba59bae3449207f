import Fountainer.App.Log
import Fountainer.Library.Run

/-!
# The device log of one session

One `_poll_logs` task and a device with its RAM log ring, within one boot: records are produced and
overwritten between any two steps of the exchange. What the cursor has passed is in the file, in order, or
an overflow was reported.
-/

namespace Fountainer

/-- The records `start`, `start + 1`, … of a boot, of which those before `first` are overwritten. -/
structure RamLog where
  boot : Int
  start : Int := 1
  first : Int := start
  records : List Dict := []
  pos : 1 ≤ start := by decide
  oldest : start ≤ first := by exact Int.le_refl _

namespace RamLog

def next (r : RamLog) : Int := r.first + r.records.length

def record (r : RamLog) (fields : Dict) : RamLog := { r with records := r.records ++ [fields] }

/-- The oldest record is overwritten. -/
def overwrite (r : RamLog) : RamLog :=
  match r.records with
  | [] => r
  | _ :: xs => { r with first := r.first + 1, records := xs, oldest := Int.le_add_one r.oldest }

end RamLog

/-- A reply to `log_read`: the ring when it was built and the fields of the request. -/
structure LogRead where
  ring : RamLog
  fields : Dict
  other : Dict := []

namespace LogRead

/-- `int(msg.get(key) or d)`. -/
def asked (r : LogRead) (key : Str) (d : Int) : Int :=
  match (r.fields.get key).toIntOr d with
  | .ok i => i
  | .error _ => d

def since (r : LogRead) : Int := r.asked (py "since_seq") 0

def limit (r : LogRead) : Nat := (r.asked (py "max_records") 64).toNat

/-- The oldest records behind `since_seq`. -/
def rows (r : LogRead) : List Record := Numbered.window r.since r.limit r.ring.first r.ring.records

/-- A record behind `since_seq` has been overwritten. -/
def overflow (r : LogRead) : Bool := max r.ring.start (r.since + 1) < r.ring.first

def message (r : LogRead) : Dict :=
  Dict.update r.other
    [(py "boot_id", .int r.ring.boot), (py "first_seq_available", .int r.ring.first),
     (py "next_seq", .int r.ring.next), (py "overflow", .bool r.overflow),
     (py "records", .arr (r.rows.map recordJson))]

end LogRead

/-- What the task waits for. -/
inductive LogInbox
  | asleep
  /-- The fields of its request are with the device. -/
  | asked (fields : Dict)
  | batch (r : LogRead)
  | prev (r : PrevReply)
  | ack (res : Dict)
  | finished

def LogInbox.after : Next → LogInbox
  | .sleep _ => .asleep
  | .call call => .asked call.body
  | .finish => .finished

structure LogSession where
  now : Clock := 0
  shadow : Shadow := {}
  ring : RamLog
  poll : LogPoll
  inbox : LogInbox := .asleep
  written : List LogLine := []
  /-- The latest entry of the event buffer whenever the task has gone on. -/
  noticed : List Event := []

inductive SessionStep
  | tick (ns : Nat)
  /-- The rest of the application leaves the shadow `st`. -/
  | app (st : Shadow)
  | record (fields : Dict)
  | overwrite
  | wake
  | answer (other : Dict)
  | answerPrev (r : PrevReply)
  | answerAck (res : Dict)
  | deliver
  /-- The request raises. -/
  | fail (e : PyErr)

namespace LogSession

/-- The task goes on until it suspends. -/
def goOn (s : LogSession) (res : Except PyErr Dict) : LogSession :=
  let o := s.poll.resume s.shadow s.now res
  { s with shadow := o.shadow, poll := o.task, inbox := .after o.next, written := s.written ++ o.written
           noticed := s.noticed ++ o.shadow.events.getLast?.toList }

def step (s : LogSession) : SessionStep → LogSession
  | .tick ns => { s with now := s.now + ns }
  | .app st => { s with shadow := st }
  | .record fields => { s with ring := s.ring.record fields }
  | .overwrite => { s with ring := s.ring.overwrite }
  | .wake => match s.inbox with
      | .asleep => s.goOn (.ok [])
      | _ => s
  | .answer other => match s.inbox with
      | .asked fields =>
          if s.poll.stage = .batch then { s with inbox := .batch { ring := s.ring, fields, other } } else s
      | _ => s
  | .answerPrev r => match s.inbox with
      | .asked _ =>
          -- the log of the boot before is that of another boot
          if s.poll.stage = .prev ∧ ∀ slot ∈ r.slot, slot.boot ≠ s.ring.boot then { s with inbox := .prev r }
          else s
      | _ => s
  | .answerAck res => match s.inbox with
      | .asked _ => if s.poll.stage = .ack then { s with inbox := .ack res } else s
      | _ => s
  | .deliver => match s.inbox with
      | .batch r => s.goOn (.ok r.message)
      | .prev r => s.goOn (.ok r.message)
      | .ack res => s.goOn (.ok res)
      | _ => s
  | .fail e => match s.inbox with
      | .asked _ | .batch _ | .prev _ | .ack _ => s.goOn (.error e)
      | _ => s

/-- A session begins with a device that has any log. -/
def init (ring : RamLog) (started : Clock) : LogSession := { ring, poll := { started } }

/-- The numbers of the records of the present boot in the order of the file. -/
def appended (s : LogSession) : List Json :=
  (s.written.filter fun l => l.bootId = s.ring.boot).map fun l => l.record.get (py "s")

/-- The event of an overflow says that record `q` is gone. -/
def Reports (e : Event) (q : Int) : Prop :=
  ∃ t first, q < first ∧ e = ⟨t, py "log: ring overflow, gap before seq " ++ decimal first, .warn⟩

/-- Record `q` is in the file, or it is overwritten and this was reported. -/
def Accounted (s : LogSession) (ns : List Int) (q : Int) : Prop :=
  q ∈ ns ∨ (q < s.ring.first ∧ ∃ e ∈ s.noticed, Reports e q)

end LogSession

/-! ## Replies -/

namespace LogRead

variable (r : LogRead)

theorem message_get :
    r.message.get (py "boot_id") = .int r.ring.boot ∧
    r.message.get (py "first_seq_available") = .int r.ring.first ∧
    r.message.get (py "overflow") = .bool r.overflow ∧
    r.message.get (py "records") = .arr (r.rows.map recordJson) := by
  refine ⟨?_, ?_, ?_, ?_⟩ <;> exact Dict.get_update_of_mem (by simp; decide) (by simp)

theorem since_of_logRead {r : LogRead} {c : Int} (h : r.fields = (logReadCall c).body) : r.since = c := by
  have hget : r.fields.get (py "since_seq") = .int c := by rw [h]; rfl
  simp only [since, asked, hget, toIntOr_int (.inr rfl)]

/-- What a reply leaves out between the request and its last row is overwritten, and the reply says so. -/
theorem rows_complete {q : Int} (hstart : r.ring.start ≤ q) (hs : r.since < q)
    (hle : q ≤ Numbered.last r.since r.rows) :
    q ∈ r.rows.map Prod.fst ∨ (q < r.ring.first ∧ r.overflow = true) := by
  by_cases hf : r.ring.first ≤ q
  · left
    rcases Numbered.last_cases r.since r.rows with ⟨-, he⟩ | ⟨p, hp, he⟩
    · rw [he] at hle
      exact absurd hle (Int.not_le.mpr hs)
    · exact Numbered.window_consecutive hp hf hs (he ▸ hle)
  · have hlt := Int.not_le.mp hf
    exact .inr ⟨hlt, decide_eq_true (lt_of_le_of_lt (max_le hstart (Int.add_one_le_of_lt hs)) hlt)⟩

end LogRead

namespace LogSession

/-! ## The invariant -/

/-- What the task waits for fits its stage. -/
def Fits (s : LogSession) : LogInbox → Prop
  | .asleep => s.poll.stage.sleeps = true
  | .asked fields => s.poll.stage = .batch → fields = (logReadCall s.poll.lastSeq).body
  | .batch r => s.poll.stage = .batch ∧ r.since = s.poll.lastSeq ∧ r.ring.boot = s.ring.boot ∧
      r.ring.start = s.ring.start ∧ r.ring.first ≤ s.ring.first
  | .prev r => s.poll.stage = .prev ∧ ∀ slot ∈ r.slot, slot.boot ≠ s.ring.boot
  | .ack _ => s.poll.stage = .ack
  | .finished => True

structure Followed (s : LogSession) : Prop where
  fits : s.Fits s.inbox
  boot : s.poll.bootId = none ∨ s.poll.bootId = some s.ring.boot
  /-- Before the first reply nothing is stored. -/
  unread : s.poll.bootId = none → s.ring.boot ≠ 0 → s.appended = []
  numbers : ∃ ns : List Int, s.appended = ns.map Json.int ∧ ns.Pairwise (· < ·) ∧
    (∀ q ∈ ns, q ≤ s.poll.lastSeq) ∧ ∀ q, s.ring.start ≤ q → q ≤ s.poll.lastSeq → s.Accounted ns q

variable {s : LogSession}

theorem Followed.init (ring : RamLog) (started : Clock) : Followed (init ring started) where
  fits := rfl
  boot := .inl rfl
  unread := fun _ _ => rfl
  numbers := by
    refine ⟨[], rfl, .nil, by simp, fun q hstart hle => ?_⟩
    have hpos := ring.pos
    simp only [LogSession.init] at hstart hle
    omega

theorem Accounted.mono {s' : LogSession} {ns : List Int} {q : Int} (h : s.Accounted ns q)
    (hfirst : s.ring.first ≤ s'.ring.first) (hnoticed : ∀ e ∈ s.noticed, e ∈ s'.noticed) :
    s'.Accounted ns q := by
  rcases h with h | ⟨hlt, e, he, hr⟩
  · exact .inl h
  · exact .inr ⟨Int.lt_of_lt_of_le hlt hfirst, e, hnoticed e he, hr⟩

theorem Followed.setRing (h : Followed s) {r : RamLog} (hb : r.boot = s.ring.boot) (hs : r.start = s.ring.start)
    (hf : s.ring.first ≤ r.first) : Followed { s with ring := r } := by
  have happended : appended { s with ring := r } = s.appended := by
    unfold appended
    rw [hb]
  refine ⟨?_, ?_, ?_, ?_⟩
  · have hfits := h.fits
    show Fits { s with ring := r } s.inbox
    cases hi : s.inbox with
    | batch reply =>
        rw [hi] at hfits
        obtain ⟨hstage, hsince, hboot, hstart, hfirst⟩ := hfits
        exact ⟨hstage, hsince, hboot.trans hb.symm, hstart.trans hs.symm, Int.le_trans hfirst hf⟩
    | prev reply =>
        rw [hi] at hfits
        exact ⟨hfits.1, fun slot hslot => hb ▸ hfits.2 slot hslot⟩
    | _ =>
        rw [hi] at hfits
        exact hfits
  · rw [hb]
    exact h.boot
  · intro hnone h0
    rw [happended]
    exact h.unread hnone (hb ▸ h0)
  · obtain ⟨ns, hns, hsorted, hle, hall⟩ := h.numbers
    refine ⟨ns, happended.trans hns, hsorted, hle, fun q hstart hq => ?_⟩
    exact (hall q (hs ▸ hstart) hq).mono hf fun _ he => he

theorem Followed.setInbox (h : Followed s) {inbox : LogInbox} (hfits : s.Fits inbox) :
    Followed { s with inbox } where
  fits := hfits
  boot := h.boot
  unread := h.unread
  numbers := h.numbers

theorem after_fits {s' : LogSession} {p : LogPoll} {lines : List LogLine} {o : TaskOut LogPoll}
    (h : p.Goes lines o) (hs : s'.poll = o.task) : s'.Fits (.after o.next) := by
  rcases h.next with ⟨hsleeps, ns, hn⟩ | hn | ⟨-, hn⟩
  · rw [hn]
    exact (congrArg _ (congrArg _ hs)).trans hsleeps
  · simp [hn, LogInbox.after, Fits]
  · rw [hn]
    intro _
    rw [hs, h.lastSeq]

theorem appended_goOn (s : LogSession) (res : Except PyErr Dict) :
    (s.goOn res).appended = s.appended ++
      ((s.poll.resume s.shadow s.now res).written.filter fun l => l.bootId = s.ring.boot).map
        fun l => l.record.get (py "s") := by
  unfold appended
  rw [← List.map_append, ← List.filter_append]
  rfl

theorem appended_lines (now : Clock) (boot : Int) (xs : List Record) :
    ((xs.map (logLine now boot)).filter fun l => l.bootId = boot).map (fun l => l.record.get (py "s")) =
      (xs.map Prod.fst).map Json.int := by
  rw [List.filter_eq_self.mpr]
  · rw [List.map_map, List.map_map]
    refine List.map_congr_left fun x _ => ?_
    exact congrArg Prod.snd (logLine_key now boot x)
  · intro l hl
    obtain ⟨x, -, rfl⟩ := List.mem_map.mp hl
    exact decide_eq_true rfl

theorem Followed.quiet (h : Followed s) {res : Except PyErr Dict} {o : TaskOut LogPoll}
    (ho : s.poll.resume s.shadow s.now res = o) (hlines : ∀ l ∈ o.written, l.bootId ≠ s.ring.boot)
    (hboot : o.task.bootId = s.poll.bootId) (hseq : o.task.lastSeq = s.poll.lastSeq)
    (hfits : (s.goOn res).Fits (.after o.next)) : Followed (s.goOn res) := by
  have happended : (s.goOn res).appended = s.appended := by
    rw [appended_goOn, ho, List.filter_eq_nil_iff.mpr (by simpa using hlines)]
    simp
  have hpoll : (s.goOn res).poll = o.task := congrArg TaskOut.task ho
  refine ⟨?_, ?_, ?_, ?_⟩
  · show Fits (s.goOn res) (.after (s.poll.resume s.shadow s.now res).next)
    rw [ho]
    exact hfits
  · rw [hpoll, hboot]
    exact h.boot
  · rw [hpoll, hboot, happended]
    exact h.unread
  · obtain ⟨ns, hns, hsorted, hle, hall⟩ := h.numbers
    rw [hpoll, hseq]
    exact ⟨ns, happended.trans hns, hsorted, hle, fun q hstart hq => (hall q hstart hq).mono
      (Int.le_refl _) fun e he => List.mem_append_left _ he⟩

theorem Followed.goes (h : Followed s) {res : Except PyErr Dict}
    (hgoes : s.poll.Goes [] (s.poll.resume s.shadow s.now res)) : Followed (s.goOn res) :=
  h.quiet rfl (by simp [hgoes.written]) hgoes.bootId hgoes.lastSeq (after_fits hgoes rfl)

/-! ## Replies are read -/

theorem resume_batch {p : LogPoll} (hp : p.stage = .batch) (st : Shadow) (now : Clock) (res : Dict) :
    p.resume st now (.ok res) = p.onBatch st now res := by
  unfold LogPoll.resume
  rw [hp]

/-- The first reply is discarded: the boot is read from the start. -/
theorem Followed.switches (h : Followed s) {r : LogRead} (hi : s.inbox = .batch r)
    (hnew : r.ring.boot ≠ 0 ∧ s.poll.bootId ≠ some r.ring.boot) : Followed (s.goOn (.ok r.message)) := by
  have hfits := h.fits
  rw [hi] at hfits
  obtain ⟨hstage, -, hboot, -⟩ := hfits
  rw [hboot] at hnew
  have hnone := h.boot.resolve_right hnew.2
  have hnil := h.unread hnone hnew.1
  obtain ⟨st', hout⟩ := s.poll.onBatch_switches s.shadow s.now r.message_get.1 (by rw [hboot]; exact hnew)
  rw [hboot, ← resume_batch hstage] at hout
  have happended : (s.goOn (.ok r.message)).appended = [] := by
    rw [appended_goOn, hout, hnil]
    rfl
  have hpoll : (s.goOn (.ok r.message)).poll =
      { s.poll with bootId := some s.ring.boot, lastSeq := 0, stage := .prev } := congrArg TaskOut.task hout
  refine ⟨?_, ?_, ?_, ?_⟩
  · show Fits (s.goOn (.ok r.message)) (.after (s.poll.resume s.shadow s.now (.ok r.message)).next)
    rw [hout]
    intro hbatch
    rw [hpoll] at hbatch
    cases hbatch
  · rw [hpoll]
    exact .inr rfl
  · rw [hpoll]
    intro hno
    cases hno
  · refine ⟨[], happended, .nil, by simp, fun q hstart hle => ?_⟩
    have hpos := s.ring.pos
    rw [hpoll] at hle
    have hstart : s.ring.start ≤ q := hstart
    dsimp only at hle
    omega

/-- The records of a reply are appended behind those before, and what it leaves out is reported. -/
theorem Followed.stores (h : Followed s) {r : LogRead} (hi : s.inbox = .batch r)
    (hold : ¬(r.ring.boot ≠ 0 ∧ s.poll.bootId ≠ some r.ring.boot)) : Followed (s.goOn (.ok r.message)) := by
  have hfits := h.fits
  rw [hi] at hfits
  obtain ⟨hstage, hsince, hboot, hstart, hfirst⟩ := hfits
  have hid : s.poll.bootId.getD 0 = s.ring.boot := by
    rcases h.boot with hnone | hsome
    · have h0 : s.ring.boot = 0 := by
        by_contra h0
        exact hold ⟨hboot ▸ h0, by simp [hnone]⟩
      rw [hnone, h0]
      rfl
    · rw [hsome]
      rfl
  obtain ⟨hget, hgetFirst, hoverflow, hrecords⟩ := r.message_get
  obtain ⟨⟨p', hpb, hps, hgoes⟩, hevent⟩ := s.poll.onBatch_rows s.shadow s.now hget hrecords
    (Numbered.window_sorted ..) hold (hid.trans hboot.symm)
  rw [← resume_batch hstage] at hgoes hevent
  have hseq : (s.goOn (.ok r.message)).poll.lastSeq = Numbered.last s.poll.lastSeq r.rows :=
    hgoes.lastSeq.trans hps
  obtain ⟨ns, hns, hsorted, hle, hall⟩ := h.numbers
  have happended : (s.goOn (.ok r.message)).appended = (ns ++ r.rows.map Prod.fst).map Json.int := by
    rw [appended_goOn, hns, hgoes.written, hboot, List.map_append, appended_lines]
  have hbehind : ∀ q ∈ r.rows.map Prod.fst, s.poll.lastSeq < q := by
    intro q hq
    obtain ⟨x, hx, rfl⟩ := List.mem_map.mp hq
    exact hsince ▸ (Numbered.mem_behind.mp (List.mem_of_mem_take hx)).2
  have hrows : Numbered.Sorted r.rows := Numbered.window_sorted ..
  refine ⟨?_, ?_, ?_, ?_⟩
  · exact after_fits hgoes rfl
  · rw [show (s.goOn (.ok r.message)).poll.bootId = s.poll.bootId from hgoes.bootId.trans hpb]
    exact h.boot
  · intro hnone h0
    have hnone : s.poll.bootId = none := (hgoes.bootId.trans hpb).symm.trans hnone
    exact absurd ⟨hboot ▸ h0, by simp [hnone]⟩ hold
  · refine ⟨ns ++ r.rows.map Prod.fst, happended, ?_, ?_, ?_⟩
    · exact List.pairwise_append.mpr ⟨hsorted, List.pairwise_map.mpr hrows,
        fun a ha b hb => Int.lt_of_le_of_lt (hle a ha) (hbehind b hb)⟩
    · intro q hq
      rw [hseq]
      rcases List.mem_append.mp hq with hq | hq
      · rcases Numbered.last_cases s.poll.lastSeq r.rows with ⟨-, he⟩ | ⟨x, hx, he⟩
        · rw [he]
          exact hle q hq
        · rw [← he]
          exact Int.le_of_lt (Int.lt_of_le_of_lt (hle q hq) (hbehind x.1 (List.mem_map_of_mem hx)))
      · obtain ⟨x, hx, rfl⟩ := List.mem_map.mp hq
        exact hrows.le_last hx _
    · intro q hq hlast
      rw [hseq] at hlast
      by_cases hold : q ≤ s.poll.lastSeq
      · have hacc : (s.goOn (.ok r.message)).Accounted ns q :=
          (hall q hq hold).mono (Int.le_refl _) fun e he => List.mem_append_left _ he
        exact hacc.imp_left (List.mem_append_left _)
      · rcases r.rows_complete (hstart ▸ hq) (hsince ▸ Int.not_le.mp hold) (hsince ▸ hlast) with hmem | ⟨hlt, ho⟩
        · exact .inl (List.mem_append_right _ hmem)
        · -- the overflow is reported by this step
          have he := hevent (by rw [hoverflow, ho]; rfl)
          refine .inr ⟨Int.lt_of_lt_of_le hlt hfirst, overflowEvent s.now r.message, ?_, s.now, r.ring.first, hlt, ?_⟩
          · exact List.mem_append_right _ (Option.mem_toList.mpr he)
          · rw [overflowEvent, hgetFirst]
            rfl

theorem Followed.prev (h : Followed s) {r : PrevReply} (hi : s.inbox = .prev r) :
    Followed (s.goOn (.ok r.message)) := by
  have hfits := h.fits
  rw [hi] at hfits
  obtain ⟨hstage, hother⟩ := hfits
  have hresume : s.poll.resume s.shadow s.now (.ok r.message) = s.poll.onPrev s.shadow s.now r.message := by
    unfold LogPoll.resume
    rw [hstage]
  rcases s.poll.onPrev_goes s.shadow s.now r with ⟨-, hgoes⟩ | ⟨slot, st', hslot, hout⟩
  · exact h.goes (hresume ▸ hgoes)
  · refine h.quiet (hresume.trans hout) ?_ rfl rfl ?_
    · intro l hl
      obtain ⟨x, -, rfl⟩ := List.mem_map.mp hl
      exact hother slot hslot
    · intro hbatch
      have hack : (s.goOn (.ok r.message)).poll.stage = .ack :=
        congrArg (LogPoll.stage ∘ TaskOut.task) (hresume.trans hout)
      rw [hack] at hbatch
      cases hbatch

theorem Followed.ack (h : Followed s) {res : Dict} (hi : s.inbox = .ack res) : Followed (s.goOn (.ok res)) := by
  have hfits := h.fits
  rw [hi] at hfits
  have hstage : s.poll.stage = .ack := hfits
  apply h.goes
  unfold LogPoll.resume
  rw [hstage]
  exact s.poll.head_goes ..

theorem Followed.batch (h : Followed s) {r : LogRead} (hi : s.inbox = .batch r) :
    Followed (s.goOn (.ok r.message)) := by
  by_cases hnew : r.ring.boot ≠ 0 ∧ s.poll.bootId ≠ some r.ring.boot
  · exact h.switches hi hnew
  · exact h.stores hi hnew

/-! ## Steps -/

theorem Followed.overwrite (h : Followed s) : Followed { s with ring := s.ring.overwrite } := by
  refine h.setRing ?_ ?_ ?_ <;> unfold RamLog.overwrite <;> split
  · rfl
  · rfl
  · rfl
  · rfl
  · exact Int.le_refl _
  · exact Int.le_add_one (Int.le_refl _)

theorem Followed.step (h : Followed s) (e : SessionStep) : Followed (s.step e) := by
  cases e with
  | tick ns => exact ⟨h.fits, h.boot, h.unread, h.numbers⟩
  | app st => exact ⟨h.fits, h.boot, h.unread, h.numbers⟩
  | record fields => exact h.setRing rfl rfl (Int.le_refl _)
  | overwrite => exact h.overwrite
  | wake =>
      unfold LogSession.step
      have hfits := h.fits
      cases hi : s.inbox with
      | asleep =>
          rw [hi] at hfits
          apply h.goes
          rw [LogPoll.resume_sleeps hfits]
          exact s.poll.head_goes ..
      | _ => exact h
  | answer other =>
      unfold LogSession.step
      have hfits := h.fits
      cases hi : s.inbox with
      | asked fields =>
          rw [hi] at hfits
          dsimp only
          split
          · rename_i hstage
            exact h.setInbox ⟨hstage, LogRead.since_of_logRead (hfits hstage), rfl, rfl, Int.le_refl _⟩
          · exact h
      | _ => exact h
  | answerPrev r =>
      unfold LogSession.step
      cases hi : s.inbox with
      | asked fields =>
          dsimp only
          split
          · exact h.setInbox ‹_›
          · exact h
      | _ => exact h
  | answerAck res =>
      unfold LogSession.step
      cases hi : s.inbox with
      | asked fields =>
          dsimp only
          split
          · exact h.setInbox ‹_›
          · exact h
      | _ => exact h
  | deliver =>
      unfold LogSession.step
      cases hi : s.inbox with
      | batch r => exact h.batch hi
      | prev r => exact h.prev hi
      | ack res => exact h.ack hi
      | _ => exact h
  | fail e =>
      unfold LogSession.step
      cases hi : s.inbox with
      | asked fields => exact h.goes (s.poll.error_goes ..)
      | batch r => exact h.goes (s.poll.error_goes ..)
      | prev r => exact h.goes (s.poll.error_goes ..)
      | ack res => exact h.goes (s.poll.error_goes ..)
      | _ => exact h

theorem step_ring (s : LogSession) (e : SessionStep) :
    (s.step e).ring.boot = s.ring.boot ∧ (s.step e).ring.start = s.ring.start := by
  cases e with
  | overwrite =>
      show s.ring.overwrite.boot = _ ∧ s.ring.overwrite.start = _
      unfold RamLog.overwrite
      split <;> exact ⟨rfl, rfl⟩
  | tick ns => exact ⟨rfl, rfl⟩
  | app st => exact ⟨rfl, rfl⟩
  | record fields => exact ⟨rfl, rfl⟩
  | answer other | answerPrev r | answerAck res =>
      simp only [LogSession.step]
      split
      · split <;> exact ⟨rfl, rfl⟩
      · exact ⟨rfl, rfl⟩
  | wake | deliver | fail e =>
      simp only [LogSession.step]
      split <;> exact ⟨rfl, rfl⟩

theorem Followed.run (h : Followed s) (es : List SessionStep) : Followed (Run.run LogSession.step s es) := by
  have hany : Run.Along LogSession.step (fun _ _ => True) s es := Run.along_of_forall (fun _ _ => True.intro) s es
  refine Run.invariant ?_ hany h
  intro s' e hs _
  exact Followed.step hs e

theorem run_ring (s : LogSession) (es : List SessionStep) :
    (Run.run LogSession.step s es).ring.boot = s.ring.boot ∧
    (Run.run LogSession.step s es).ring.start = s.ring.start := by
  induction es generalizing s with
  | nil => exact ⟨rfl, rfl⟩
  | cons e es ih =>
      obtain ⟨hb, hs⟩ := ih (s.step e)
      exact ⟨hb.trans (step_ring s e).1, hs.trans (step_ring s e).2⟩

/-- Whatever is produced, overwritten, answered, delayed or lost: the records of the boot that are appended
have increasing numbers, and each up to the cursor is among them or was overwritten with an overflow
event. -/
theorem log_pull_complete (ring : RamLog) (started : Clock) (es : List SessionStep) :
    let s := Run.run LogSession.step (LogSession.init ring started) es
    ∃ ns : List Int, s.appended = ns.map Json.int ∧ ns.Pairwise (· < ·) ∧
      ∀ q, ring.start ≤ q → q ≤ s.poll.lastSeq → s.Accounted ns q := by
  intro s
  obtain ⟨ns, hns, hsorted, -, hall⟩ := ((Followed.init ring started).run es).numbers
  refine ⟨ns, hns, hsorted, fun q hq hle => hall q ?_ hle⟩
  rw [(run_ring _ es).2]
  exact hq

example :
    let s := Run.run LogSession.step (LogSession.init { boot := 7, start := 3, records := [[], [], []] } 0)
      [.app { online := true }, .wake, .overwrite, .answer [], .deliver, .answerPrev ⟨none, []⟩, .deliver,
        .record [], .answer [], .overwrite, .deliver]
    s.appended = [.int 4, .int 5, .int 6] ∧ s.poll.lastSeq = 6 ∧ s.ring.first = 5 := by
  decide +kernel

end LogSession

end Fountainer
