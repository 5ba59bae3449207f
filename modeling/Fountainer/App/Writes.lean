import Mathlib.Logic.Relation
import Fountainer.App.Chart
import Fountainer.App.Log

/-!
# Writes to a shadow

What the callbacks and the tasks do to a shadow is a chain of writes. A property of the buffers is shown
for each kind of write and then holds of every callback and task.
-/

namespace Fountainer

inductive WriteKind
  | values | event | records | sample | cursor
  deriving DecidableEq

/-- One write; only `_on_alert` does something else. -/
inductive Shadow.Write (lim : Limits) (st : Shadow) : WriteKind → Shadow → Prop
  /-- The fields besides the buffers and the cursor. -/
  | values (online : Bool) (dp : Dict) (dpTs : List (Str × Clock)) (config fwVersion uptimeS faultActive : Json)
      (otaStatus : Option Json) :
      Write lim st .values { st with online, dp, dpTs, config, fwVersion, uptimeS, faultActive, otaStatus }
  | event (now : Clock) (text : Str) (level : Level) : Write lim st .event (st.event now text level)
  | records (entries : List Dict) : Write lim st .records { st with logs := keepLast 200 (st.logs ++ entries) }
  | sample (t : Int) (p r : Json) (seq : Option Int) : Write lim st .sample (st.histAdd lim t p r seq)
  | cursor (boot : Option Int) (seq : Int) : Write lim st .cursor { st with histBoot := boot, histSeq := seq }

/-- A chain of writes of the given kinds. -/
def Shadow.Writes (lim : Limits) (ks : List WriteKind) : Shadow → Shadow → Prop :=
  Relation.ReflTransGen fun a b => ∃ k ∈ ks, a.Write lim k b

/-- What `_poll_logs` writes. -/
def logWrites : List WriteKind := [.event, .records]

/-- What `_poll_history` writes. -/
def historyWrites : List WriteKind := [.event, .sample, .cursor]

def allWrites : List WriteKind := [.values, .event, .records, .sample, .cursor]

namespace Shadow.Writes

variable {lim : Limits} {ks ks' : List WriteKind} {a b c : Shadow}

theorem refl (a : Shadow) : Writes lim ks a a := Relation.ReflTransGen.refl

theorem trans (h : Writes lim ks a b) (h' : Writes lim ks b c) : Writes lim ks a c :=
  Relation.ReflTransGen.trans h h'

theorem one {k : WriteKind} (h : a.Write lim k b) (hk : k ∈ ks) : Writes lim ks a b := .single ⟨k, hk, h⟩

theorem mono (h : Writes lim ks a b) (hks : ks ⊆ ks') : Writes lim ks' a b :=
  Relation.ReflTransGen.mono (fun _ _ ⟨k, hk, hw⟩ => ⟨k, hks hk, hw⟩) _ _ h

/-- The invariant rule: what every write of these kinds keeps, a chain of them keeps. -/
theorem keeps {P : Shadow → Prop} (hP : ∀ a k b, k ∈ ks → a.Write lim k b → P a → P b) (h : Writes lim ks a b)
    (ha : P a) : P b := by
  induction h with
  | refl => exact ha
  | tail _ hw ih =>
      obtain ⟨k, hk, hw⟩ := hw
      exact hP _ k _ hk hw ih

end Shadow.Writes

/-! ## The log poller -/

variable {lim : Limits}

theorem event_writes (st : Shadow) (now : Clock) (text : Str) (level : Level) {ks : List WriteKind}
    (hk : .event ∈ ks) : st.Writes lim ks (st.event now text level) := .one (.event ..) hk

theorem logStore_writes (st : Shadow) (now : Clock) (boot : Int) (records : Json) :
    st.Writes lim logWrites (logStore st now boot records).1 := by
  unfold logStore
  split
  · exact .refl st
  · split
    · exact .refl st
    · dsimp only
      split
      · exact .refl st
      · exact .one (.records _) (by decide)

theorem LogPoll.onRecords_writes (p : LogPoll) (st : Shadow) (now : Clock) (res : Dict) :
    st.Writes lim logWrites (p.onRecords st now res).shadow := by
  unfold LogPoll.onRecords
  dsimp only
  generalize hst : (if (res.get (py "overflow")).truthy then _ else st) = st₁
  generalize (if (res.get (py "overflow")).truthy then { p with fastUntil := now + seconds 120 } else p) = p₁
  have h₁ : st.Writes lim logWrites st₁ := by
    rw [← hst]
    split
    · exact event_writes st _ _ _ (by decide)
    · exact .refl st
  have h₂ : st.Writes lim logWrites _ :=
    h₁.trans (logStore_writes st₁ now (p₁.bootId.getD 0) ((res.get (py "records")).or (.arr [])))
  generalize logStore st₁ now (p₁.bootId.getD 0) ((res.get (py "records")).or (.arr [])) = out at h₂
  obtain ⟨st₂, lines, err⟩ := out
  cases err with
  | some e => exact h₂
  | none =>
      dsimp only
      split
      · exact h₂
      · split
        · exact h₂
        · split
          · rw [LogPoll.head_shadow]
            exact h₂
          · exact h₂
      · exact h₂

theorem LogPoll.onPrev_writes (p : LogPoll) (st : Shadow) (now : Clock) (res : Dict) :
    st.Writes lim logWrites (p.onPrev st now res).shadow := by
  unfold LogPoll.onPrev
  split
  · rw [LogPoll.head_shadow]
    exact .refl st
  · split
    · rw [LogPoll.head_shadow]
      exact .refl st
    · rename_i boot _
      have h : st.Writes lim logWrites _ := logStore_writes st now boot ((res.get (py "records")).or (.arr []))
      split
      · rename_i he
        rw [he] at h
        rw [LogPoll.head_shadow]
        exact h
      · rename_i he
        rw [he] at h
        exact h

theorem LogPoll.resume_writes (p : LogPoll) (st : Shadow) (now : Clock) (res : Except PyErr Dict) :
    st.Writes lim logWrites (p.resume st now res).shadow := by
  unfold LogPoll.resume
  split
  · rw [LogPoll.head_shadow]
    exact .refl st
  · rw [LogPoll.head_shadow]
    exact .refl st
  · exact .refl st
  · unfold LogPoll.onBatch
    split
    · exact .refl st
    · split
      · dsimp only
        split
        · exact event_writes st _ _ _ (by decide)
        · exact .refl st
      · exact LogPoll.onRecords_writes ..
  · rw [LogPoll.head_shadow]
    exact .refl st
  · exact LogPoll.onPrev_writes ..
  · rw [LogPoll.head_shadow]
    exact .refl st

/-! ## The history poller -/

theorem ingest_writes {wallNow devNow : Int} {relay : Json} {st st' : Shadow} {cursor cursor' : Int}
    {rows : List Json} {err : Option PyErr}
    (h : ingest lim wallNow devNow relay st cursor rows = (st', cursor', err)) :
    st.Writes lim historyWrites st' := by
  induction rows generalizing st cursor with
  | nil =>
      cases h
      exact .refl _
  | cons row rows ih =>
      unfold ingest at h
      split at h
      · split at h
        · exact ih h
        · cases h
          exact .refl _
      · split at h
        · exact ih h
        · split at h
          · cases h
            exact .refl _
          · exact Shadow.Writes.trans (.one (.sample ..) (by decide)) (ih h)

theorem historyBatch_writes (lim : Limits) (st : Shadow) (now : Clock) (res : Dict) :
    st.Writes lim historyWrites (historyBatch lim st now res).1 := by
  have hreset : ∀ b n, st.Writes lim historyWrites (st.resetCursor b n) := by
    intro b n
    unfold Shadow.resetCursor
    split
    · exact .one (.cursor ..) (by decide)
    · exact .refl st
  have hgap : ∀ (st : Shadow) f, st.Writes lim historyWrites (st.reportGap now f) := by
    intro st f
    unfold Shadow.reportGap
    split
    · exact event_writes st _ _ _ (by decide)
    · exact .refl st
  unfold historyBatch
  split
  · exact .refl st
  · exact .refl st
  · rename_i boot next _ _
    dsimp only
    split
    · exact hreset ..
    · rename_i first _
      have h := (hreset boot next).trans (hgap (st.resetCursor boot next) first)
      split
      · exact h
      · exact h
      · split
        · rename_i hin
          exact h.trans (ingest_writes hin)
        · rename_i hin
          exact (h.trans (ingest_writes hin)).trans (.one (.cursor ..) (by decide))

theorem HistoryStage.resume_writes (p : HistoryStage) (lim : Limits) (st : Shadow) (now : Clock)
    (res : Except PyErr Dict) : st.Writes lim historyWrites (p.resume lim st now res).shadow := by
  have hhead : st.Writes lim historyWrites (historyHead st).shadow := by
    unfold historyHead
    split
    · exact .refl st
    · split <;> exact .refl st
  unfold HistoryStage.resume
  split
  · exact hhead
  · exact hhead
  · exact .refl st
  · rename_i res
    have h := historyBatch_writes lim st now res
    split
    · rename_i he
      rw [he] at h
      exact h
    · rename_i he
      rw [he] at h
      exact h

/-! ## Datapoints -/

theorem dpMerge_writes (st : Shadow) (now : Clock) (dp : Json) :
    st.Writes lim [.values] (st.dpMerge now dp).1 := by
  unfold Shadow.dpMerge
  split
  · exact .one (.values ..) (by decide)
  · split <;> exact .one (.values ..) (by decide)

theorem mergeDpRead_writes (st : Shadow) (now : Clock) (res : Dict) :
    st.Writes lim [.values] (mergeDpRead st now res).1 := by
  unfold mergeDpRead
  dsimp only
  split
  · exact .refl st
  · split
    · split
      · exact .one (.values ..) (by decide)
      · exact Shadow.Writes.trans (.one (.values ..) (by decide)) (dpMerge_writes ..)
    · exact .refl st

theorem fetchConfigReply_writes (st : Shadow) (now : Clock) (res : Dict) :
    st.Writes lim [.values] (fetchConfigReply st now res) := by
  unfold fetchConfigReply
  dsimp only
  split
  · exact Shadow.Writes.trans (.one (.values ..) (by decide)) (dpMerge_writes ..)
  · exact .refl st

/-! ## Callbacks -/

theorem onOtaCheck_writes (cfg : Config) (st : Shadow) (s : DeviceSession) (now : Clock) (msg : Dict) :
    st.Writes lim allWrites (onOtaCheck cfg st s now msg).shadow := by
  have hvalues : ∀ (st : Shadow) v o, st.Writes lim allWrites { st with fwVersion := v, otaStatus := o } :=
    fun st v o => .one (.values ..) (by decide)
  unfold onOtaCheck
  dsimp only
  split
  · exact (hvalues ..).trans (event_writes _ _ _ _ (by decide))
  · split
    · exact hvalues ..
    · exact ((hvalues ..).trans (event_writes _ _ _ _ (by decide))).trans (.one (.values ..) (by decide))
    · exact (hvalues ..).trans (event_writes _ _ _ _ (by decide))

theorem onDpReport_writes (cfg : Config) (st : Shadow) (now : Clock) (msg : Dict) :
    st.Writes cfg.limits allWrites (onDpReport cfg st now msg).shadow := by
  have hm : st.Writes cfg.limits allWrites _ :=
    (dpMerge_writes st now ((Dict.getOr msg (py "dp") (.obj [])).or (.obj []))).mono (by decide)
  unfold onDpReport
  dsimp only
  split
  · rename_i he
    rw [he] at hm
    exact hm
  · rename_i he
    rw [he] at hm
    split
    · exact hm
    · split
      · exact hm
      · split
        · exact hm.trans (.one (.sample ..) (by decide))
        · exact hm

theorem runHook_writes {cfg : Config} {h : Hook} (hh : h ≠ .onAlert) (st : Shadow) (s : DeviceSession) (now : Clock)
    (msg : Dict) : st.Writes cfg.limits allWrites (runHook cfg h st s now msg).shadow := by
  have hevent : ∀ (st' : Shadow) text level, st.Writes cfg.limits allWrites st' →
      st.Writes cfg.limits allWrites (st'.event now text level) :=
    fun st' _ _ hw => hw.trans (event_writes st' _ _ _ (by decide))
  cases h with
  | onOtaCheck => exact onOtaCheck_writes cfg st s now msg
  | onDpReport => exact onDpReport_writes cfg st now msg
  | onHeartbeat => exact .one (.values ..) (by decide)
  | onAlert => exact absurd rfl hh
  | onOtaStatus => exact hevent _ _ _ (.one (.values ..) (by decide))
  | onConnect => exact hevent _ _ _ (.one (.values ..) (by decide))
  | onDisconnect => exact hevent _ _ _ (.one (.values ..) (by decide))

end Fountainer
