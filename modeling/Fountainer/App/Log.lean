import Fountainer.App.History

/-!
# A `log_batch` of a device

The RAM log ring of a device, its previous-boot slot, the replies to `log_read` and `log_read_prev`, and
what `_poll_logs` does with them.
-/

namespace Fountainer

/-- The fields of a record besides `s`, by `s`. -/
abbrev Record := Int × Dict

/-- Records of one boot with increasing numbers. -/
structure LogRing where
  boot : Int
  records : List Record := []
  /-- The last number that was given. -/
  top : Int := 0
  sorted : Numbered.Sorted records := by exact .nil
  le_top : ∀ x ∈ records, x.1 ≤ top := by simp

namespace LogRing

/-- The next record, `skipped` numbers on. -/
def record (r : LogRing) (skipped : Nat) (fields : Dict) : LogRing where
  boot := r.boot
  records := r.records ++ [(r.top + 1 + skipped, fields)]
  top := r.top + 1 + skipped
  sorted := by
    refine List.pairwise_append.mpr ⟨r.sorted, List.pairwise_singleton .., fun a ha b hb => ?_⟩
    cases List.mem_singleton.mp hb
    have h := r.le_top a ha
    dsimp only
    omega
  le_top := by
    intro x hx
    rcases List.mem_append.mp hx with hx | hx
    · have h := r.le_top x hx
      omega
    · cases List.mem_singleton.mp hx
      exact Int.le_refl _

/-- The oldest record is overwritten. -/
def overwrite (r : LogRing) : LogRing where
  boot := r.boot
  records := r.records.tail
  top := r.top
  sorted := r.sorted.sublist (List.tail_sublist _)
  le_top := fun x hx => r.le_top x (List.mem_of_mem_tail hx)

end LogRing

/-- A record on the wire. -/
def recordFields (x : Record) : Dict :=
  (py "s", .int x.1) :: x.2.filter fun kv => kv.1 ≠ py "s"

def recordJson (x : Record) : Json := .obj (recordFields x)

/-- A reply to `log_read`: records of the ring behind `since_seq`, without the omitted ones. -/
structure LogReply where
  ring : LogRing
  fields : Dict
  omitted : List Int := []
  other : Dict := []

namespace LogReply

def since (r : LogReply) : Int :=
  match (r.fields.get (py "since_seq")).toIntOr 0 with
  | .ok i => i
  | .error _ => 0

def rows (r : LogReply) : List Record :=
  (Numbered.behind r.since r.ring.records).filter fun x => x.1 ∉ r.omitted

def message (r : LogReply) : Dict :=
  Dict.update r.other
    [(py "boot_id", .int r.ring.boot), (py "records", .arr (r.rows.map recordJson))]

/-- The number of the last row. -/
def lastSeq (r : LogReply) (c : Int) : Int := Numbered.last c r.rows

end LogReply

/-- The log of the boot before, as it is kept in flash. -/
structure Slot where
  boot : Int
  records : List Record
  sorted : Numbered.Sorted records

/-- A reply to `log_read_prev`. -/
structure PrevReply where
  slot : Option Slot
  other : Dict := []

def PrevReply.fields (r : PrevReply) : Dict :=
  match r.slot with
  | some slot => [(py "available", .bool true), (py "boot_id", .int slot.boot),
      (py "records", .arr (slot.records.map recordJson))]
  | none => [(py "available", .bool false), (py "boot_id", .int 0), (py "records", .arr [])]

def PrevReply.message (r : PrevReply) : Dict := Dict.update r.other r.fields

/-- The line of a record. -/
def logLine (now : Clock) (boot : Int) (x : Record) : LogLine :=
  ⟨boot, Dict.update [(py "rx", .float (PyFloat.ofRat ((now : ℚ) / 1000000000)).round3)]
    (recordFields x)⟩

/-- What a line is about. -/
def LogLine.key (l : LogLine) : Int × Json := (l.bootId, l.record.get (py "s"))

/-! ## Records -/

theorem logLine_key (now : Clock) (boot : Int) (x : Record) :
    (logLine now boot x).key = (boot, .int x.1) := by
  have hs : py "s" ∉ (x.2.filter fun kv => kv.1 ≠ py "s").map Prod.fst := by
    intro h
    obtain ⟨kv, hkv, he⟩ := List.mem_map.mp h
    simpa [he] using (List.mem_filter.mp hkv).2
  refine Prod.ext rfl ?_
  exact (Dict.get_update hs).trans (Dict.get_set_self ..)

theorem mem_lines_keys {now : Clock} {boot b : Int} {xs : List Record} {v : Json}
    (h : (b, v) ∈ (xs.map (logLine now boot)).map LogLine.key) :
    b = boot ∧ ∃ x ∈ xs, v = .int x.1 := by
  rw [List.map_map] at h
  obtain ⟨x, hx, he⟩ := List.mem_map.mp h
  obtain ⟨hb, hv⟩ := Prod.mk.inj ((logLine_key now boot x).symm.trans he)
  exact ⟨hb.symm, x, hx, hv.symm⟩

theorem lines_nodup (now : Clock) (boot : Int) {xs : List Record} (h : Numbered.Sorted xs) :
    ((xs.map (logLine now boot)).map LogLine.key).Nodup := by
  rw [List.map_map]
  refine List.pairwise_map.mpr (h.imp fun hlt he => ?_)
  simp only [Function.comp, logLine_key] at he
  exact Int.ne_of_lt hlt (Json.int.inj (Prod.mk.inj he).2)

theorem recordSeq_recordJson (x : Record) : maxSeq.recordSeq (recordJson x) = .ok x.1 := by
  simp [maxSeq.recordSeq, recordJson, recordFields, Json.asDict, Dict.getOr, bind, Except.bind, Json.toInt]

theorem maxSeq_cons (x y : Record) (xs : List Record) :
    maxSeq ((x :: y :: xs).map recordJson) = (maxSeq ((y :: xs).map recordJson)).map (max x.1) := by
  simp only [List.map_cons, maxSeq, recordSeq_recordJson]
  cases maxSeq (recordJson y :: List.map recordJson xs) <;> rfl

theorem maxSeq_sorted {xs : List Record} (h : Numbered.Sorted xs) (hne : xs ≠ []) (c : Int) :
    maxSeq (xs.map recordJson) = .ok (Numbered.last c xs) := by
  induction xs generalizing c with
  | nil => exact absurd rfl hne
  | cons x xs ih =>
      cases xs with
      | nil => exact recordSeq_recordJson x
      | cons y ys =>
          obtain ⟨hx, hs⟩ := List.pairwise_cons.mp h
          have hle : x.1 ≤ Numbered.last x.1 (y :: ys) :=
            Int.le_trans (Int.le_of_lt (hx y List.mem_cons_self)) (Numbered.Sorted.le_last hs List.mem_cons_self _)
          rw [maxSeq_cons, ih hs (by simp) x.1, Numbered.last_cons]
          exact congrArg Except.ok (max_eq_right hle)

theorem takeWhile_isObj (xs : List Record) :
    (xs.map recordJson).takeWhile logStore.isObj = xs.map recordJson := by
  induction xs with
  | nil => rfl
  | cons x xs ih => simp [List.takeWhile_cons, recordJson, logStore.isObj] at ih ⊢; exact ih

theorem logStore_records (st : Shadow) (now : Clock) (boot : Int) (xs : List Record) :
    ∃ st', logStore st now boot (.arr (xs.map recordJson)) = (st', xs.map (logLine now boot), none) := by
  cases xs with
  | nil => exact ⟨st, rfl⟩
  | cons x xs =>
      have hgood := takeWhile_isObj (x :: xs)
      refine ⟨(logStore st now boot (.arr ((x :: xs).map recordJson))).1, Prod.ext rfl ?_⟩
      have htruthy : (Json.arr ((x :: xs).map recordJson)).truthy = true := rfl
      simp only [logStore, htruthy, Json.iter, hgood, Nat.lt_irrefl, if_false, Bool.not_true,
        Bool.false_eq_true, List.map_map]
      rfl

namespace LogReply

variable (r : LogReply)

theorem rows_sorted : Numbered.Sorted r.rows := (r.ring.sorted.filter_behind _).filter _

theorem mem_rows {x : Record} (h : x ∈ r.rows) : x ∈ r.ring.records ∧ r.since < x.1 :=
  Numbered.mem_behind.mp (List.mem_of_mem_filter h)

theorem le_lastSeq : r.since ≤ r.lastSeq r.since := by
  rcases Numbered.last_cases r.since r.rows with ⟨-, he⟩ | ⟨x, hx, he⟩
  · exact Int.le_of_eq he.symm
  · rw [lastSeq, ← he]
    exact Int.le_of_lt (r.mem_rows hx).2

theorem since_of_logRead {r : LogReply} {c : Int} (h : r.fields = (logReadCall c).body) :
    r.since = c := by
  have hget : r.fields.get (py "since_seq") = .int c := by rw [h]; rfl
  simp only [since, hget, toIntOr_int (.inr rfl)]

theorem message_get :
    r.message.get (py "boot_id") = .int r.ring.boot ∧
    r.message.get (py "records") = .arr (r.rows.map recordJson) := by
  refine ⟨?_, ?_⟩ <;> exact Dict.get_update_of_mem (by simp; decide) (by simp)

end LogReply

/-! ## `_poll_logs` on a reply -/

def LogStage.sleeps : LogStage → Bool
  | .asleep | .paused => true
  | _ => false

/-- Where a poller with the local variables `p` suspends after the lines `lines`. -/
structure LogPoll.Goes (p : LogPoll) (lines : List LogLine) (o : TaskOut LogPoll) : Prop where
  written : o.written = lines
  bootId : o.task.bootId = p.bootId
  lastSeq : o.task.lastSeq = p.lastSeq
  next : (o.task.stage.sleeps = true ∧ ∃ ns, o.next = .sleep ns) ∨ o.next = .finish ∨
    (o.task.stage = .batch ∧ o.next = .call (logReadCall p.lastSeq))

theorem LogPoll.head_goes (p : LogPoll) (st : Shadow) (lines : List LogLine) :
    p.Goes lines (p.head st lines) := by
  unfold head
  split
  · exact ⟨rfl, rfl, rfl, .inr (.inl rfl)⟩
  · split
    · exact ⟨rfl, rfl, rfl, .inl ⟨rfl, _, rfl⟩⟩
    · exact ⟨rfl, rfl, rfl, .inr (.inr ⟨rfl, rfl⟩)⟩

theorem LogPoll.rest_goes (p : LogPoll) (st : Shadow) (lines : List LogLine) (now : Clock) :
    p.Goes lines (p.rest st lines now) :=
  ⟨rfl, rfl, rfl, .inl ⟨rfl, _, rfl⟩⟩

/-- After a sleep the poller is at the head of its loop. -/
theorem LogPoll.resume_sleeps {p : LogPoll} (hs : p.stage.sleeps = true) (st : Shadow) (now : Clock)
    (res : Except PyErr Dict) : p.resume st now res = p.head st := by
  unfold resume
  cases hp : p.stage with
  | asleep => rfl
  | paused => rfl
  | _ => simp [hp, LogStage.sleeps] at hs

theorem LogPoll.error_goes (p : LogPoll) (st : Shadow) (now : Clock) (e : PyErr) :
    p.Goes [] (p.resume st now (.error e)) := by
  unfold resume
  cases p.stage with
  | asleep => exact p.head_goes st []
  | paused => exact p.head_goes st []
  | batch => exact ⟨rfl, rfl, rfl, .inr (.inl rfl)⟩
  | prev => exact p.head_goes st []
  | ack => exact p.head_goes st []

/-- The first reply of another boot: nothing is stored, the previous-boot log comes first. -/
theorem LogPoll.onBatch_switches (p : LogPoll) (st : Shadow) (now : Clock) {res : Dict} {boot : Int}
    (hboot : res.get (py "boot_id") = .int boot) (hnew : boot ≠ 0 ∧ p.bootId ≠ some boot) :
    ∃ st', p.onBatch st now res =
      { shadow := st', next := .call logReadPrevCall
        task := { p with bootId := some boot, lastSeq := 0, stage := .prev } } := by
  simp only [onBatch, hboot, toIntOr_int (.inr rfl), if_pos hnew]
  exact ⟨_, rfl⟩

theorem LogPoll.onBatch_starts (p : LogPoll) (st : Shadow) (now : Clock) {r : LogReply}
    (h0 : r.ring.boot ≠ 0) (hb : p.bootId ≠ some r.ring.boot) :
    ∃ st', p.onBatch st now r.message =
      { shadow := st', next := .call logReadPrevCall
        task := { p with bootId := some r.ring.boot, lastSeq := 0, stage := .prev } } :=
  p.onBatch_switches st now r.message_get.1 ⟨h0, hb⟩

theorem LogPoll.head_shadow (p : LogPoll) (st : Shadow) (lines : List LogLine) :
    (p.head st lines).shadow = st := by
  unfold LogPoll.head
  split
  · rfl
  · split <;> rfl

theorem logStore_events (st : Shadow) (now : Clock) (boot : Int) (records : Json) :
    (logStore st now boot records).1.events = st.events := by
  unfold logStore
  split
  · rfl
  · split
    · rfl
    · dsimp only
      split <;> rfl

/-- The event of a batch that reports an overflow. -/
def overflowEvent (now : Clock) (res : Dict) : Event :=
  ⟨now, py "log: ring overflow, gap before seq " ++ (res.get (py "first_seq_available")).toStr, .warn⟩

theorem Shadow.event_getLast? (st : Shadow) (now : Clock) (text : Str) (level : Level) :
    (st.event now text level).events.getLast? = some ⟨now, text, level⟩ := by
  have hlast (e : Event) : ¬(st.events ++ [e]).length ≤ (st.events ++ [e]).length - 40 := by
    rw [List.length_append, List.length_singleton]
    omega
  simp only [Shadow.event, keepLast]
  rw [if_neg (by decide), List.getLast?_drop, if_neg (hlast _), List.getLast?_concat]

/-- Records of the boot that is being read are written, an overflow is reported, and the cursor moves to
the last record. -/
theorem LogPoll.onBatch_rows (p : LogPoll) (st : Shadow) (now : Clock) {res : Dict} {boot : Int}
    {rows : List Record} (hboot : res.get (py "boot_id") = .int boot)
    (hrecords : res.get (py "records") = .arr (rows.map recordJson)) (hsorted : Numbered.Sorted rows)
    (hold : ¬(boot ≠ 0 ∧ p.bootId ≠ some boot)) (hb : p.bootId.getD 0 = boot) :
    (∃ p' : LogPoll, p'.bootId = p.bootId ∧ p'.lastSeq = Numbered.last p.lastSeq rows ∧
      p'.Goes (rows.map (logLine now boot)) (p.onBatch st now res)) ∧
    ((res.get (py "overflow")).truthy = true →
      overflowEvent now res ∈ (p.onBatch st now res).shadow.events.getLast?) := by
  simp only [onBatch, hboot, toIntOr_int (.inr rfl)]
  rw [if_neg hold]
  simp only [onRecords, hrecords, or_arr]
  generalize hp : (if (res.get (py "overflow")).truthy = true then
    { p with fastUntil := now + seconds 120 } else p) = p₀
  generalize hst₀ : (if (res.get (py "overflow")).truthy = true then _ else st) = st₀
  have hlast : (res.get (py "overflow")).truthy = true →
      overflowEvent now res ∈ st₀.events.getLast? := by
    intro h
    rw [← hst₀, if_pos h]
    exact st.event_getLast? ..
  have hp₀ : p₀.bootId = p.bootId ∧ p₀.lastSeq = p.lastSeq := by
    rw [← hp]
    split <;> exact ⟨rfl, rfl⟩
  obtain ⟨st', hst⟩ := logStore_records st₀ now boot rows
  have hevents : st'.events = st₀.events := by
    rw [← logStore_events st₀ now boot, hst]
  rw [hp₀.1, hb, hst, ← hp₀.1]
  dsimp only
  rw [← hevents] at hlast
  cases rows with
  | nil => exact ⟨⟨p₀, rfl, hp₀.2, p₀.rest_goes ..⟩, hlast⟩
  | cons x xs =>
      have hmax := maxSeq_sorted hsorted (List.cons_ne_nil x xs) p.lastSeq
      rw [List.map_cons] at hmax
      simp only [List.map_cons, hmax]
      constructor
      · refine ⟨{ p₀ with lastSeq := Numbered.last p.lastSeq (x :: xs) }, rfl, rfl, ?_⟩
        split
        · exact LogPoll.head_goes ..
        · exact LogPoll.rest_goes ..
      · split
        · rw [LogPoll.head_shadow]
          exact hlast
        · exact hlast

/-- A reply of the boot that is being read: its records are written and the cursor moves to the last. -/
theorem LogPoll.onBatch_stores (p : LogPoll) (st : Shadow) (now : Clock) {r : LogReply}
    (hb : p.bootId = some r.ring.boot) :
    ∃ p' : LogPoll, p'.bootId = p.bootId ∧ p'.lastSeq = r.lastSeq p.lastSeq ∧
      p'.Goes (r.rows.map (logLine now r.ring.boot)) (p.onBatch st now r.message) :=
  (p.onBatch_rows st now r.message_get.1 r.message_get.2 r.rows_sorted (fun h => h.2 hb) (by rw [hb]; rfl)).1

theorem PrevReply.get (r : PrevReply) {k : Str} {v : Json} (h : (k, v) ∈ r.fields) :
    r.message.get k = v := by
  refine Dict.get_update_of_mem ?_ h
  unfold fields
  cases r.slot with
  | none => simp; decide
  | some slot => simp; decide

/-- A reply to `log_read_prev`: its slot is written and acknowledged. -/
theorem LogPoll.onPrev_goes (p : LogPoll) (st : Shadow) (now : Clock) (r : PrevReply) :
    (r.slot = none ∧ p.Goes [] (p.onPrev st now r.message)) ∨
    ∃ slot st', r.slot = some slot ∧ p.onPrev st now r.message =
      { shadow := st', written := slot.records.map (logLine now slot.boot)
        task := { p with stage := .ack }, next := .call (logAckPrevCall slot.boot) } := by
  unfold onPrev
  cases hs : r.slot with
  | none =>
      have havail : r.message.get (py "available") = .bool false := r.get (by simp [PrevReply.fields, hs])
      rw [havail]
      exact .inl ⟨rfl, p.head_goes st []⟩
  | some slot =>
      have havail : r.message.get (py "available") = .bool true := r.get (by simp [PrevReply.fields, hs])
      have hboot : r.message.get (py "boot_id") = .int slot.boot := r.get (by simp [PrevReply.fields, hs])
      have hrecords : r.message.get (py "records") = .arr (slot.records.map recordJson) :=
        r.get (by simp [PrevReply.fields, hs])
      obtain ⟨st', hst⟩ := logStore_records st now slot.boot slot.records
      simp only [havail, hboot, hrecords, toIntOr_int (.inr rfl), or_arr, hst, Json.truthy, Bool.not_true,
        Bool.false_eq_true, if_false]
      exact .inr ⟨slot, st', rfl, rfl⟩

end Fountainer
