import Fountainer.App.Writes
import Fountainer.System.Conditions
import Fountainer.System.Micro

/-!
# What callbacks and background tasks can do

The messages they send name no envelope field, they leave `online` alone unless they are the connect
and disconnect hooks, and every new receive stamp is the present.
-/

namespace Fountainer

/-! ## Bodies -/

theorem cleanBody_of_decide {call : Call}
    (h : (call.body.map Prod.fst).all (fun k => decide (k ∉ envelopeFields)) = true) :
    call.CleanBody := by
  intro k hk
  simpa using List.all_eq_true.mp h k hk

theorem Call.CleanBody.type {call : Call} (h : call.CleanBody) :
    py "type" ∉ call.body.map Prod.fst := fun hmem => h _ hmem (by decide)

/-! ## Tasks -/

theorem TaskBody.resume_polls (b : TaskBody) (lim : Limits) (st : Shadow) (now : Clock)
    (res : Except PyErr Dict) : (b.resume lim st now res).task.polls = b.polls ∧
      (b.resume lim st now res).task.reads = b.reads := by
  cases b with
  | dpRead => cases res <;> exact ⟨rfl, rfl⟩
  | fetchConfig asked => cases asked <;> cases res <;> exact ⟨rfl, rfl⟩
  | pollLogs p => exact ⟨rfl, rfl⟩
  | pollHistory p => exact ⟨rfl, rfl⟩

/-- A call of a background task: a request whose body names no envelope field. -/
def TaskCall (call : Call) : Prop := ∃ name body, call = .request name body ∧ call.CleanBody

theorem TaskCall.of {name : Str} {body : Dict}
    (h : (body.map Prod.fst).all (fun k => decide (k ∉ envelopeFields)) = true) :
    TaskCall (.request name body) := ⟨name, body, rfl, cleanBody_of_decide h⟩

theorem LogPoll.head_call {p : LogPoll} {st : Shadow} {lines : List LogLine} {call : Call}
    (h : (p.head st lines).next = .call call) : TaskCall call := by
  unfold LogPoll.head at h
  split at h
  · cases h
  · split at h
    · cases h
    · cases h
      exact .of rfl

theorem LogPoll.onRecords_call {p : LogPoll} {st : Shadow} {now : Clock} {res : Dict} {call : Call}
    (h : (p.onRecords st now res).next = .call call) : TaskCall call := by
  unfold LogPoll.onRecords at h
  dsimp only at h
  split at h
  · cases h
  · split at h
    · cases h
    · split at h
      · cases h
      · split at h
        · exact LogPoll.head_call h
        · cases h
    · cases h

theorem LogPoll.onPrev_call {p : LogPoll} {st : Shadow} {now : Clock} {res : Dict} {call : Call}
    (h : (p.onPrev st now res).next = .call call) : TaskCall call := by
  unfold LogPoll.onPrev at h
  split at h
  · exact LogPoll.head_call h
  · split at h
    · exact LogPoll.head_call h
    · split at h
      · exact LogPoll.head_call h
      · cases h
        exact .of rfl

theorem LogPoll.onBatch_call {p : LogPoll} {st : Shadow} {now : Clock} {res : Dict} {call : Call}
    (h : (p.onBatch st now res).next = .call call) : TaskCall call := by
  unfold LogPoll.onBatch at h
  split at h
  · cases h
  · split at h
    · cases h
      exact .of rfl
    · exact LogPoll.onRecords_call h

theorem LogPoll.resume_call {p : LogPoll} {st : Shadow} {now : Clock} {res : Except PyErr Dict}
    {call : Call} (h : (p.resume st now res).next = .call call) : TaskCall call := by
  unfold LogPoll.resume at h
  split at h
  · exact LogPoll.head_call h
  · exact LogPoll.head_call h
  · cases h
  · exact LogPoll.onBatch_call h
  · exact LogPoll.head_call h
  · exact LogPoll.onPrev_call h
  · exact LogPoll.head_call h

theorem HistoryStage.resume_call {p : HistoryStage} {lim : Limits} {st : Shadow} {now : Clock}
    {res : Except PyErr Dict} {call : Call} (h : (p.resume lim st now res).next = .call call) :
    TaskCall call := by
  have hhead : (historyHead st).next = .call call → TaskCall call := by
    intro h
    unfold historyHead at h
    split at h
    · cases h
    · split at h
      · cases h
      · cases h
        exact .of rfl
  unfold HistoryStage.resume at h
  split at h
  · exact hhead h
  · exact hhead h
  · cases h
  · split at h <;> cases h

/-- A task that calls is a task of a connected session, and its body is clean. -/
theorem TaskBody.resume_call {b : TaskBody} {lim : Limits} {st : Shadow} {now : Clock}
    {res : Except PyErr Dict} {call : Call} (h : (b.resume lim st now res).next = .call call) :
    b.polls = true ∧ TaskCall call := by
  cases b with
  | dpRead => cases res <;> cases h
  | fetchConfig asked =>
      cases asked with
      | false =>
          cases h
          exact ⟨rfl, .of rfl⟩
      | true => cases res <;> cases h
  | pollLogs p => exact ⟨rfl, LogPoll.resume_call h⟩
  | pollHistory p => exact ⟨rfl, HistoryStage.resume_call h⟩

/-! ## Pauses -/

/-- The turn ends with a sleep while the device downloads. -/
def TaskOut.Pauses {α : Type} (o : TaskOut α) : Prop :=
  (∃ ns, o.next = .sleep ns) ∧ o.shadow.downloading = true

/-- A turn of the poller leaves it paused when it was paused, or because of a download. -/
def LogPoll.PausesFor (p : LogPoll) (o : TaskOut LogPoll) : Prop :=
  o.task.stage = .paused → p.stage = .paused ∨ o.Pauses

theorem LogPoll.head_pausesFor (p : LogPoll) (st : Shadow) (lines : List LogLine) :
    p.PausesFor (p.head st lines) := by
  unfold LogPoll.head
  split
  · exact .inl
  · split
    · rename_i hd
      exact fun _ => .inr ⟨⟨_, rfl⟩, hd⟩
    · exact fun h => LogStage.noConfusion h

theorem LogPoll.onRecords_pausesFor (p : LogPoll) (st : Shadow) (now : Clock) (res : Dict) :
    p.PausesFor (p.onRecords st now res) := by
  unfold LogPoll.onRecords
  dsimp only
  generalize hp : (if (res.get (py "overflow")).truthy then
    { p with fastUntil := now + seconds 120 } else p) = p₁
  have hstage : p₁.stage = p.stage := by
    rw [← hp]
    split <;> rfl
  have hp₁ : ∀ o, p₁.PausesFor o → p.PausesFor o := fun o h hs => hstage ▸ h hs
  refine hp₁ _ ?_
  split
  · exact .inl
  · split
    · exact fun h => LogStage.noConfusion h
    · split
      · exact .inl
      · split
        · exact LogPoll.head_pausesFor _ _ _
        · exact fun h => LogStage.noConfusion h
    · exact .inl

theorem LogPoll.onPrev_pausesFor (p : LogPoll) (st : Shadow) (now : Clock) (res : Dict) :
    p.PausesFor (p.onPrev st now res) := by
  unfold LogPoll.onPrev
  split
  · exact p.head_pausesFor _ _
  · split
    · exact p.head_pausesFor _ _
    · split
      · exact p.head_pausesFor _ _
      · exact fun h => LogStage.noConfusion h

theorem LogPoll.resume_pausesFor (p : LogPoll) (st : Shadow) (now : Clock) (res : Except PyErr Dict) :
    p.PausesFor (p.resume st now res) := by
  unfold LogPoll.resume
  split
  · exact p.head_pausesFor _ _
  · exact p.head_pausesFor _ _
  · exact .inl
  · unfold LogPoll.onBatch
    split
    · exact .inl
    · split
      · exact fun h => LogStage.noConfusion h
      · exact p.onRecords_pausesFor _ _ _
  · exact p.head_pausesFor _ _
  · exact p.onPrev_pausesFor _ _ _
  · exact p.head_pausesFor _ _

theorem historyHead_paused {st : Shadow} (h : (historyHead st).task = .paused) : (historyHead st).Pauses := by
  unfold historyHead at h ⊢
  split
  · rename_i hoff
    rw [if_pos hoff] at h
    cases h
  · rename_i hon
    rw [if_neg hon] at h
    split
    · rename_i hd
      exact ⟨⟨_, rfl⟩, hd⟩
    · rename_i hd
      rw [if_neg hd] at h
      cases h

theorem HistoryStage.resume_paused {p : HistoryStage} {lim : Limits} {st : Shadow} {now : Clock}
    {res : Except PyErr Dict} (h : (p.resume lim st now res).task = .paused) :
    (p.resume lim st now res).Pauses := by
  unfold HistoryStage.resume at h ⊢
  split
  · exact historyHead_paused h
  · exact historyHead_paused h
  · cases h
  · dsimp only at h
    split at h <;> cases h

/-- A poller is paused when it was paused before its turn, or when its turn has found a download. -/
theorem TaskBody.resume_paused {b : TaskBody} {lim : Limits} {st : Shadow} {now : Clock}
    {res : Except PyErr Dict} (h : (b.resume lim st now res).task.paused = true) :
    b.paused = true ∨ (b.resume lim st now res).Pauses := by
  cases b with
  | dpRead => cases res <;> cases h
  | fetchConfig asked => cases asked <;> cases res <;> cases h
  | pollLogs p =>
      rcases p.resume_pausesFor st now res (of_decide_eq_true h) with hp | hp
      · exact .inl (decide_eq_true hp)
      · exact .inr hp
  | pollHistory p => exact .inr (HistoryStage.resume_paused (of_decide_eq_true h))

/-! ## Callbacks -/

/-- The key under which a callback is registered. -/
def Hook.key : Hook → Str
  | .onOtaCheck => py "__ota_check__"
  | .onDpReport => py "dp_report"
  | .onHeartbeat => py "heartbeat"
  | .onAlert => py "device_alert"
  | .onOtaStatus => py "ota_status"
  | .onConnect => py "__connect__"
  | .onDisconnect => py "__disconnect__"

theorem callbackFor_key {key : Str} {h : Hook} (hk : callbackFor key = some h) : key = h.key := by
  have hmem := mem_of_lookup hk
  cases h <;> simpa [callbacks, Hook.key] using hmem

theorem FirmwareImage.otaAvailableBody_clean (im : FirmwareImage) (url : Str) (mandatory : Bool)
    (irt : Json) :
    (Call.send (py "ota_available") (im.otaAvailableBody url mandatory) irt).CleanBody :=
  cleanBody_of_decide rfl

/-- Only the OTA hook sends, and it answers the message it was called with. -/
theorem runHook_reply {cfg : Config} {h : Hook} {st : Shadow} {s : DeviceSession} {now : Clock}
    {msg : Dict} {call : Call} (hr : (runHook cfg h st s now msg).reply = some call) :
    h = .onOtaCheck ∧ ∃ name body, call = .send name body (msg.get (py "msg_id")) ∧
      call.CleanBody := by
  cases h with
  | onOtaCheck =>
      refine ⟨rfl, ?_⟩
      simp only [runHook, onOtaCheck] at hr
      split at hr
      · cases hr
        exact ⟨_, _, rfl, cleanBody_of_decide rfl⟩
      · split at hr
        · cases hr
        · cases hr
          exact ⟨_, _, rfl, cleanBody_of_decide rfl⟩
        · cases hr
          exact ⟨_, _, rfl, FirmwareImage.otaAvailableBody_clean _ _ _ _⟩
  | onDpReport =>
      simp only [runHook, onDpReport] at hr
      split at hr
      · cases hr
      · split at hr
        · cases hr
        · split at hr
          · cases hr
          · split at hr <;> cases hr
  | onHeartbeat => cases hr
  | onAlert => cases hr
  | onOtaStatus => cases hr
  | onConnect => cases hr
  | onDisconnect => cases hr

/-! ## The online flag and the receive stamps -/

/-- The flag and the stamps are the same. -/
structure Shadow.Same (st st' : Shadow) : Prop where
  online : st'.online = st.online
  dpTs : st'.dpTs = st.dpTs

/-- The flag is the same, and every stamp that is new is `now`. -/
structure Shadow.Stamped (st st' : Shadow) (now : Clock) : Prop where
  online : st'.online = st.online
  dpTs : ∀ e ∈ st'.dpTs, e ∈ st.dpTs ∨ e.2 = now

namespace Shadow

theorem Same.refl (st : Shadow) : Same st st := ⟨rfl, rfl⟩

/-- Everything but the log lines and the events is the same. -/
def Logged (st st' : Shadow) : Prop := ∃ logs events, st' = { st with logs, events }

/-- Everything but the chart, its cursor and the events is the same, and what is new in the chart comes
from calls of `_hist_add`. -/
def Charted (lim : Limits) (st st' : Shadow) : Prop :=
  ∃ calls boot seq events, st' = { st.addAll lim calls with histBoot := boot, histSeq := seq, events }

theorem Logged.refl (st : Shadow) : Logged st st := ⟨_, _, rfl⟩

theorem Logged.trans {a b c : Shadow} (h : Logged a b) (h' : Logged b c) : Logged a c := by
  obtain ⟨logs, events, rfl⟩ := h
  obtain ⟨logs', events', rfl⟩ := h'
  exact ⟨logs', events', rfl⟩

theorem Logged.event (st : Shadow) (now : Clock) (text : Str) (level : Level) :
    Logged st (st.event now text level) := ⟨_, _, rfl⟩

theorem Logged.same {st st' : Shadow} (h : Logged st st') : Same st st' := by
  obtain ⟨logs, events, rfl⟩ := h
  exact ⟨rfl, rfl⟩

variable {lim : Limits}

theorem Charted.refl (st : Shadow) : Charted lim st st := ⟨[], _, _, _, rfl⟩

theorem Charted.trans {a b c : Shadow} (h : Charted lim a b) (h' : Charted lim b c) :
    Charted lim a c := by
  obtain ⟨calls, boot, seq, events, rfl⟩ := h
  obtain ⟨calls', boot', seq', events', rfl⟩ := h'
  refine ⟨calls ++ calls', boot', seq', events', ?_⟩
  rw [addAll_with, addAll_append]

theorem Charted.event (st : Shadow) (now : Clock) (text : Str) (level : Level) :
    Charted lim st (st.event now text level) := ⟨[], _, _, _, rfl⟩

theorem Charted.cursor (st : Shadow) (boot : Option Int) (seq : Int) :
    Charted lim st { st with histBoot := boot, histSeq := seq } := ⟨[], boot, seq, _, rfl⟩

theorem Charted.add (st : Shadow) (t : Int) (p r : Json) (seq : Option Int) :
    Charted lim st (st.histAdd lim t p r seq) := ⟨[⟨t, p, r, seq⟩], _, _, _, rfl⟩

theorem Charted.same {st st' : Shadow} (h : Charted lim st st') : Same st st' := by
  obtain ⟨calls, boot, seq, events, rfl⟩ := h
  rw [addAll_eq]
  exact ⟨rfl, rfl⟩

theorem Same.stamped {st st' : Shadow} (h : Same st st') (now : Clock) : Stamped st st' now :=
  ⟨h.online, fun _ he => .inl (h.dpTs ▸ he)⟩

theorem Stamped.of_same {a b c : Shadow} {now : Clock} (h : Same a b) (h' : Stamped b c now) :
    Stamped a c now := by
  constructor
  · rw [h'.online, h.online]
  · rw [← h.dpTs]
    exact h'.dpTs

theorem Stamped.same {a b c : Shadow} {now : Clock} (h : Stamped a b now) (h' : Same b c) :
    Stamped a c now := by
  constructor
  · rw [h'.online, h.online]
  · rw [h'.dpTs]
    exact h.dpTs

theorem stampAll_mem {ts : List (Str × Clock)} {now : Clock} {keys : List Json}
    {e : Str × Clock} (he : e ∈ (stampAll ts now keys).1) : e ∈ ts ∨ e.2 = now := by
  induction keys generalizing ts with
  | nil => exact .inl he
  | cons k keys ih =>
      cases k with
      | str k =>
          rcases ih he with he | he
          · rcases mem_setKey he with he | rfl
            · exact .inl he
            · exact .inr rfl
          · exact .inr he
      | null => exact ih he
      | bool b => exact ih he
      | int i => exact ih he
      | float f => exact ih he
      | arr xs => exact .inl he
      | obj kvs => exact .inl he

theorem dpMerge_stamped (st : Shadow) (now : Clock) (dp : Json) :
    Stamped st (st.dpMerge now dp).1 now := by
  unfold dpMerge
  split
  · exact ⟨rfl, fun e he => .inl he⟩
  · split
    · exact ⟨rfl, fun e he => .inl he⟩
    · exact ⟨rfl, fun e he => stampAll_mem he⟩

theorem histAdd_same (st : Shadow) (lim : Limits) (t : Int) (p r : Json) (seq : Option Int) :
    Same st (st.histAdd lim t p r seq) := ⟨rfl, rfl⟩

end Shadow

theorem runHook_stamped {cfg : Config} {h : Hook} {st : Shadow} {s : DeviceSession} {now : Clock}
    {msg : Dict} (hc : h ≠ .onConnect) (hd : h ≠ .onDisconnect) :
    st.Stamped (runHook cfg h st s now msg).shadow now := by
  cases h with
  | onOtaCheck =>
      simp only [runHook, onOtaCheck]
      split
      · exact ⟨rfl, fun e he => .inl he⟩
      · split <;> exact ⟨rfl, fun e he => .inl he⟩
  | onDpReport =>
      simp only [runHook, onDpReport]
      have hm := st.dpMerge_stamped now ((Dict.getOr msg (py "dp") (.obj [])).or (.obj []))
      split
      · rename_i st' e he
        rw [he] at hm
        exact hm
      · rename_i st' he
        rw [he] at hm
        split
        · exact hm
        · split
          · exact hm
          · split
            · exact hm.same (Shadow.histAdd_same ..)
            · exact hm
  | onHeartbeat => exact ⟨rfl, fun e he => .inl he⟩
  | onAlert => exact ⟨rfl, fun e he => .inl he⟩
  | onOtaStatus => exact ⟨rfl, fun e he => .inl he⟩
  | onConnect => exact absurd rfl hc
  | onDisconnect => exact absurd rfl hd

theorem onOtaCheck_same (cfg : Config) (st : Shadow) (s : DeviceSession) (now : Clock) (msg : Dict) :
    st.Same (onOtaCheck cfg st s now msg).shadow := by
  unfold onOtaCheck
  dsimp only
  split
  · exact ⟨rfl, rfl⟩
  · split <;> exact ⟨rfl, rfl⟩

/-! ## What task results change -/

theorem Shadow.Writes.logged {lim : Limits} {st st' : Shadow} (h : st.Writes lim logWrites st') : st.Logged st' := by
  refine h.keeps (P := st.Logged) (fun a k b hk hw ha => ha.trans ?_) (.refl st)
  cases hw with
  | event => exact .event ..
  | records entries => exact ⟨_, _, rfl⟩
  | values | sample | cursor => exact absurd hk (by decide)

theorem Shadow.Writes.charted {lim : Limits} {st st' : Shadow} (h : st.Writes lim historyWrites st') :
    st.Charted lim st' := by
  refine h.keeps (P := st.Charted lim) (fun a k b hk hw ha => ha.trans ?_) (.refl st)
  cases hw with
  | event => exact .event ..
  | sample => exact .add ..
  | cursor => exact .cursor ..
  | values | records => exact absurd hk (by decide)

theorem LogPoll.resume_logged (p : LogPoll) (st : Shadow) (now : Clock) (res : Except PyErr Dict) :
    st.Logged (p.resume st now res).shadow :=
  Shadow.Writes.logged (p.resume_writes st now res : st.Writes {} logWrites _)

theorem HistoryStage.resume_charted (p : HistoryStage) (lim : Limits) (st : Shadow) (now : Clock)
    (res : Except PyErr Dict) : st.Charted lim (p.resume lim st now res).shadow :=
  (p.resume_writes lim st now res).charted

theorem mergeDpRead_stamped (st : Shadow) (now : Clock) (res : Dict) :
    st.Stamped (mergeDpRead st now res).1 now := by
  unfold mergeDpRead
  dsimp only
  split
  · exact (Shadow.Same.refl st).stamped now
  · split
    · split
      · exact ⟨rfl, fun e he => .inl he⟩
      · rename_i config _
        exact Shadow.Stamped.of_same (b := { st with config := .obj config }) ⟨rfl, rfl⟩
          (Shadow.dpMerge_stamped ..)
    · exact (Shadow.Same.refl st).stamped now

theorem fetchConfigReply_stamped (st : Shadow) (now : Clock) (res : Dict) :
    st.Stamped (fetchConfigReply st now res) now := by
  unfold fetchConfigReply
  dsimp only
  split
  · exact Shadow.Stamped.of_same (b := { st with config := (res.get (py "dp")).or (.obj []) })
      ⟨rfl, rfl⟩ (Shadow.dpMerge_stamped ..)
  · exact (Shadow.Same.refl st).stamped now

/-- A task stamps only when it merges a reply with datapoints. -/
theorem TaskBody.resume_stamped (b : TaskBody) (lim : Limits) (st : Shadow) (now : Clock)
    (res : Except PyErr Dict) :
    st.Same (b.resume lim st now res).shadow ∨
      (b.reads = true ∧ (∃ d, res = .ok d ∧ d ≠ []) ∧
        st.Stamped (b.resume lim st now res).shadow now) := by
  cases b with
  | dpRead =>
      cases res with
      | error e => exact .inl (.refl st)
      | ok d =>
          cases d with
          | nil => exact .inl (.refl st)
          | cons e d => exact .inr ⟨rfl, ⟨_, rfl, by simp⟩, mergeDpRead_stamped ..⟩
  | fetchConfig asked =>
      cases asked with
      | false => exact .inl (.refl st)
      | true =>
          cases res with
          | error e => exact .inl (.refl st)
          | ok d =>
              cases d with
              | nil => exact .inl (.refl st)
              | cons e d => exact .inr ⟨rfl, ⟨_, rfl, by simp⟩, fetchConfigReply_stamped ..⟩
  | pollLogs p => exact .inl (p.resume_logged st now res).same
  | pollHistory p => exact .inl (p.resume_charted lim st now res).same

theorem TaskBody.resume_online (b : TaskBody) (lim : Limits) (st : Shadow) (now : Clock)
    (res : Except PyErr Dict) : (b.resume lim st now res).shadow.online = st.online := by
  rcases b.resume_stamped lim st now res with h | ⟨-, -, h⟩
  · exact h.online
  · exact h.online

/-! ## The reported download -/

theorem Shadow.downloading_congr {st st' : Shadow} (h : st'.otaStatus = st.otaStatus) :
    st'.downloading = st.downloading := by
  unfold Shadow.downloading
  rw [h]

theorem Shadow.dpMerge_otaStatus (st : Shadow) (now : Clock) (dp : Json) :
    (st.dpMerge now dp).1.otaStatus = st.otaStatus := by
  unfold Shadow.dpMerge
  split
  · rfl
  · split <;> rfl

theorem TaskBody.resume_otaStatus (b : TaskBody) (lim : Limits) (st : Shadow) (now : Clock)
    (res : Except PyErr Dict) : (b.resume lim st now res).shadow.otaStatus = st.otaStatus := by
  cases b with
  | dpRead =>
      cases res with
      | error e => rfl
      | ok res =>
          simp only [TaskBody.resume, mergeDpRead]
          split
          · rfl
          · split
            · split
              · rfl
              · exact Shadow.dpMerge_otaStatus ..
            · rfl
  | fetchConfig asked =>
      cases asked with
      | false => rfl
      | true =>
          cases res with
          | error e => rfl
          | ok res =>
              simp only [TaskBody.resume, fetchConfigReply]
              split
              · exact Shadow.dpMerge_otaStatus ..
              · rfl
  | pollLogs p =>
      obtain ⟨logs, events, h⟩ := p.resume_logged st now res
      simp only [TaskBody.resume, h]
  | pollHistory p =>
      obtain ⟨calls, boot, seq, events, h⟩ := p.resume_charted lim st now res
      simp only [TaskBody.resume, h]
      rw [addAll_eq]

theorem onDpReport_otaStatus (cfg : Config) (st : Shadow) (now : Clock) (msg : Dict) :
    (onDpReport cfg st now msg).shadow.otaStatus = st.otaStatus := by
  unfold onDpReport
  dsimp only
  have hm := st.dpMerge_otaStatus now ((Dict.getOr msg (py "dp") (.obj [])).or (.obj []))
  split
  · rename_i he
    rw [he] at hm
    exact hm
  · rename_i he
    rw [he] at hm
    split
    · exact hm
    · split
      · exact hm
      · split <;> exact hm

theorem onOtaCheck_otaStatus (cfg : Config) (st : Shadow) (s : DeviceSession) (now : Clock) (msg : Dict) :
    (onOtaCheck cfg st s now msg).shadow.otaStatus = st.otaStatus ∨
      (onOtaCheck cfg st s now msg).shadow.otaStatus = none := by
  unfold onOtaCheck
  dsimp only
  split
  · exact .inl rfl
  · split
    · exact .inl rfl
    · exact .inr rfl
    · exact .inl rfl

/-- A device is shown as downloading after its report. -/
theorem runHook_downloading {cfg : Config} {h : Hook} {st : Shadow} {s : DeviceSession} {now : Clock} {msg : Dict}
    (hd : (runHook cfg h st s now msg).shadow.downloading = true) :
    st.downloading = true ∨ (h = .onOtaStatus ∧ msg.get (py "state") = .str (py "downloading")) := by
  have hsame : (runHook cfg h st s now msg).shadow.otaStatus = st.otaStatus →
      st.downloading = true := fun he => Shadow.downloading_congr he ▸ hd
  cases h with
  | onOtaCheck =>
      rcases onOtaCheck_otaStatus cfg st s now msg with he | he
      · exact .inl (hsame he)
      · unfold Shadow.downloading at hd
        rw [runHook, he] at hd
        cases hd
  | onDpReport => exact .inl (hsame (onDpReport_otaStatus cfg st now msg))
  | onHeartbeat => exact .inl (hsame rfl)
  | onAlert => exact .inl (hsame rfl)
  | onOtaStatus => exact .inr ⟨rfl, by simpa [Shadow.downloading, runHook, onOtaStatus, Shadow.event] using hd⟩
  | onConnect => exact .inl (hsame rfl)
  | onDisconnect => exact .inl (hsame rfl)

/-! ## The chart -/

theorem Shadow.Writes.grows {lim : Limits} {ks : List WriteKind} {st st' : Shadow} (h : st.Writes lim ks st') :
    st.ChartGrows lim st' := by
  refine h.keeps (P := st.ChartGrows lim) (fun a k b _ hw ha => ha.trans ?_) (.refl st)
  cases hw with
  | sample t p r seq => exact ⟨[⟨t, p, r, seq⟩], rfl, rfl⟩
  | values | event | records | cursor => exact .of_eq rfl rfl

theorem runHook_chart (cfg : Config) (h : Hook) (st : Shadow) (s : DeviceSession) (now : Clock) (msg : Dict) :
    st.ChartGrows cfg.limits (runHook cfg h st s now msg).shadow := by
  by_cases hh : h = .onAlert
  · subst hh
    exact .of_eq rfl rfl
  · exact (runHook_writes hh st s now msg).grows

theorem TaskBody.resume_writes (b : TaskBody) (lim : Limits) (st : Shadow) (now : Clock)
    (res : Except PyErr Dict) : st.Writes lim allWrites (b.resume lim st now res).shadow := by
  cases b with
  | dpRead =>
      cases res with
      | error e => exact .refl st
      | ok d => exact (mergeDpRead_writes st now d).mono (by decide)
  | fetchConfig asked =>
      cases asked with
      | false => exact .refl st
      | true =>
          cases res with
          | error e => exact .refl st
          | ok d => exact (fetchConfigReply_writes st now d).mono (by decide)
  | pollLogs p => exact (p.resume_writes st now res).mono (by decide)
  | pollHistory p => exact (p.resume_writes lim st now res).mono (by decide)

theorem TaskBody.resume_chart (b : TaskBody) (lim : Limits) (st : Shadow) (now : Clock)
    (res : Except PyErr Dict) : st.ChartGrows lim (b.resume lim st now res).shadow :=
  (b.resume_writes lim st now res).grows

end Fountainer
