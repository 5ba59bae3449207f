import Fountainer.App.History
import Fountainer.Library.Run

/-!
# No silent loss in the pressure history

The pollers of the sessions of one device, the device with its ring, and everything else that changes
the shadow, in any interleaving. A poller takes a sample as read when the stored cursor passes it.
-/

namespace Fountainer

/-- `_poll_history` of one session. -/
inductive HistoryPoller
  | asleep
  /-- The fields of its `history_read` are with the device. -/
  | asked (fields : Dict)
  | answered (r : HistoryReply)
  | finished

/-- One device and its pollers. -/
structure HistoryPull where
  now : Clock := 0
  shadow : Shadow := {}
  ring : Ring
  /-- The earlier boots. -/
  boots : List Int := []
  pollers : List HistoryPoller := []
  /-- The ring at every reply that has been built. -/
  built : List Ring := []
  /-- Everything that has been put into the chart history, with the boot of the reply that it is from. -/
  samples : List (Option Int × Sample) := []
  /-- Everything that has been put into the event buffer, likewise. -/
  written : List (Option Int × Event) := []

inductive PullStep
  | tick (ns : Nat)
  /-- The rest of the application leaves the shadow `st`, up to the cursor, the chart and the events. -/
  | app (st : Shadow)
  /-- A live sample. -/
  | live (t : Int) (p r : Json)
  /-- An event of the rest of the application. -/
  | event (text : Str) (level : Level)
  /-- A session is connected. -/
  | connect
  | produce (x : Reading)
  | overwrite
  | reboot (boot : Int)
  | wake (k : Nat)
  | answer (k : Nat) (nowMs : Int) (other : Dict)
  | deliver (k : Nat)
  /-- The request of poller `k` raises. -/
  | fail (k : Nat)

def HistoryPoller.after : Next → HistoryPoller
  | .sleep _ => .asleep
  | .call call => .asked call.body
  | .finish => .finished

namespace HistoryPull

/-- The program does `f` with the shadow. What this puts into the chart and the events is what it leaves
there when both are empty and the chart is not cut. -/
def change (s : HistoryPull) (lim : Limits) (boot : Option Int) (f : Limits → Shadow → Shadow) :
    HistoryPull :=
  let new := f { lim with histMaxSamples := 0 } { s.shadow with hist := [], events := [] }
  { s with shadow := f lim s.shadow
           samples := s.samples ++ new.hist.map fun x => (boot, x)
           written := s.written ++ new.events.map fun e => (boot, e) }

/-- Poller `k` goes on until it suspends, with a reply of `boot`. -/
def resume (s : HistoryPull) (lim : Limits) (k : Nat) (stage : HistoryStage)
    (res : Except PyErr Dict) (boot : Option Int := none) : HistoryPull :=
  { s.change lim boot fun lim st => (stage.resume lim st s.now res).shadow with
    pollers := s.pollers.set k (.after (stage.resume lim s.shadow s.now res).next) }

/-- The cursor with which a reply is read. -/
def cursor (s : HistoryPull) (r : HistoryReply) : Int := s.shadow.cursorFor r.ring.boot r.ring.next

def deliver (s : HistoryPull) (lim : Limits) (k : Nat) (r : HistoryReply) : HistoryPull :=
  s.resume lim k .batch (.ok r.message) (some r.ring.boot)

def step (lim : Limits) (s : HistoryPull) : PullStep → HistoryPull
  | .tick ns => { s with now := s.now + ns }
  | .app st =>
      { s with shadow := { st with histBoot := s.shadow.histBoot, histSeq := s.shadow.histSeq
                                   hist := s.shadow.hist, histI := s.shadow.histI
                                   events := s.shadow.events } }
  | .live t p r => s.change lim none fun lim st => st.histAdd lim t p r
  | .event text level => s.change lim none fun _ st => st.event s.now text level
  | .connect => { s with pollers := s.pollers ++ [.asleep] }
  | .produce x => { s with ring := s.ring.produce x }
  | .overwrite => { s with ring := s.ring.overwrite }
  | .reboot boot =>
      if boot = s.ring.boot ∨ boot ∈ s.boots then s
      else { s with ring := { boot }, boots := s.ring.boot :: s.boots }
  | .wake k => match s.pollers[k]? with
      | some .asleep => s.resume lim k .asleep (.ok [])
      | _ => s
  | .answer k nowMs other => match s.pollers[k]? with
      | some (.asked fields) =>
          { s with pollers := s.pollers.set k (.answered { ring := s.ring, fields, nowMs, other })
                   built := s.built ++ [s.ring] }
      | _ => s
  | .deliver k => match s.pollers[k]? with
      | some (.answered r) => s.deliver lim k r
      | _ => s
  | .fail k => match s.pollers[k]? with
      | some (.asked _) | some (.answered _) => s.resume lim k .batch (.error .timeoutError)
      | _ => s

/-- A new device and a server that has not seen it. -/
def init (boot : Int) : HistoryPull := { ring := { boot } }

abbrev after (lim : Limits) (boot : Int) (es : List PullStep) : HistoryPull :=
  Run.run (step lim) (init boot) es

/-- The sample has been put into the chart history, or an event reports a gap that it lies in. -/
def Accounted (s : HistoryPull) (boot q : Int) : Prop :=
  (some boot, some q) ∈ s.samples.map (fun x => (x.1, x.2.seq)) ∨
    ∃ e, (some boot, e) ∈ s.written ∧ ∃ lo hi, e.text = gapText lo hi ∧ lo ≤ q ∧ q ≤ hi

/-- The chart and the event buffer end with what has been put into them, the chart in its order, and what
the cursor has passed and some reply could have carried is among it. -/
structure NoSilentLoss (lim : Limits) (s : HistoryPull) : Prop where
  chart : ∃ xs, xs.Perm (s.samples.map Prod.snd) ∧ xs.Pairwise Sample.Older ∧
    s.shadow.hist = keepLast lim.histMaxSamples xs
  events : s.shadow.events = keepLast 40 (s.written.map Prod.snd)
  accounted : ∀ w ∈ s.built, s.shadow.histBoot = some w.boot →
    ∀ q, w.first ≤ q → q < w.next → q ≤ s.shadow.histSeq → s.Accounted w.boot q

/-- The reply has no samples, or its request asked for everything behind the cursor and, where the
cursor starts over, the ring still holds the samples of all earlier replies of its boot. -/
abbrev Complete (s : HistoryPull) (r : HistoryReply) : Prop :=
  r.ring.next ≤ max r.ring.first (r.since + 1) ∨
    (r.since < max r.ring.first (s.cursor r + 1) ∧
      (s.cursor r = 0 → ∀ w ∈ s.built, w.boot = r.ring.boot → w.first = w.next ∨ r.ring.first ≤ w.first))

/-- Only complete replies are read. -/
def ok (s : HistoryPull) : PullStep → Bool
  | .deliver k => match s.pollers[k]? with
      | some (.answered r) => s.Complete r
      | _ => true
  | _ => true

abbrev Along (lim : Limits) (boot : Int) (es : List PullStep) : Prop :=
  Run.Along (step lim) (fun s e => s.ok e = true) (init boot) es

/-! ## Steps -/

variable {lim : Limits} {s : HistoryPull}

theorem after_ne_answered (n : Next) (r : HistoryReply) : HistoryPoller.after n ≠ .answered r := by
  cases n <;> exact HistoryPoller.noConfusion

theorem change_of_adds_none (s : HistoryPull) (lim : Limits) (boot : Option Int) :
    (s.change lim boot fun _ st => st) = s := by
  simp [change]

theorem resume_asleep (s : HistoryPull) (lim : Limits) (k : Nat) :
    ∃ p, (∀ r, p ≠ .answered r) ∧
      s.resume lim k .asleep (.ok []) = { s with pollers := s.pollers.set k p } := by
  have hhead : (fun (_ : Limits) st => (historyHead st).shadow) = fun _ st => st := by
    funext _ st
    unfold historyHead
    split
    · rfl
    · split <;> rfl
  refine ⟨_, after_ne_answered (historyHead s.shadow).next, ?_⟩
  simp only [resume, HistoryStage.resume, hhead, change_of_adds_none]

theorem resume_error (s : HistoryPull) (lim : Limits) (k : Nat) (e : PyErr) :
    s.resume lim k .batch (.error e) = { s with pollers := s.pollers.set k .finished } := by
  simp only [resume, HistoryStage.resume, change_of_adds_none, HistoryPoller.after]

section

variable (lim) (boot : Option Int) {f : Limits → Shadow → Shadow} {calls : List HistCall} {e : Option Event}

theorem change_samples (h : Shadow.Adds f s.shadow calls e) :
    ∃ xs : List Sample, (s.change lim boot f).samples = s.samples ++ xs.map (fun x => (boot, x)) ∧
      xs.Perm ((calls.zipIdx (s.shadow.histI + 1)).map fun c => c.1.sample c.2) := by
  refine ⟨_, rfl, ?_⟩
  rw [h.hist]
  exact addAll_uncut rfl _ _

theorem change_seqs (h : Shadow.Adds f s.shadow calls e) :
    ((s.change lim boot f).samples.map fun x => (x.1, x.2.seq)).Perm
      ((s.samples.map fun x => (x.1, x.2.seq)) ++ calls.map fun c => (boot, c.seq)) := by
  obtain ⟨xs, hxs, hperm⟩ := change_samples lim boot h
  have hseq := hperm.map fun x => (boot, x.seq)
  rw [List.map_map] at hseq
  have hcalls : (calls.zipIdx (s.shadow.histI + 1)).map ((fun x => (boot, x.seq)) ∘ fun c => c.1.sample c.2) =
      calls.map fun c => (boot, c.seq) := by
    conv_rhs => rw [← List.zipIdx_map_fst (s.shadow.histI + 1) calls, List.map_map]
    rfl
  rw [hxs, List.map_append, List.map_map]
  exact (hcalls ▸ hseq).append_left _

theorem change_written (h : Shadow.Adds f s.shadow calls e) :
    (s.change lim boot f).written = s.written ++ e.toList.map fun e => (boot, e) := by
  rw [change, h.events]
  cases e <;> rfl

end

/-- What the chart and the events are made of. -/
structure Kept (lim : Limits) (s : HistoryPull) : Prop where
  chart : ∃ calls, s.shadow.hist = (Shadow.addAll lim {} calls).hist ∧ s.shadow.histI = calls.length ∧
    (s.samples.map Prod.snd).Perm (inserted calls)
  events : s.shadow.events = keepLast 40 (s.written.map Prod.snd)

theorem Kept.change (h : Kept lim s) {boot : Option Int} {f : Limits → Shadow → Shadow}
    {calls : List HistCall} {e : Option Event} (hf : Shadow.Adds f s.shadow calls e) :
    Kept lim (s.change lim boot f) := by
  constructor
  · obtain ⟨before, hhist, hi, hperm⟩ := h.chart
    obtain ⟨xs, hxs, hnew⟩ := change_samples lim boot hf
    refine ⟨before ++ calls, ?_, ?_, ?_⟩
    · have hempty : s.shadow.histI = (Shadow.addAll lim {} before).histI := by
        rw [hi, addAll_histI]
        exact (Nat.zero_add _).symm
      rw [addAll_append, ← addAll_congr lim hhist hempty]
      exact hf.hist lim s.shadow.hist s.shadow.events
    · rw [List.length_append, ← hi]
      exact hf.histI lim s.shadow.hist s.shadow.events
    · rw [hxs, List.map_append, List.map_map, inserted, List.zipIdx_append, List.map_append, Nat.add_comm 1,
        ← hi]
      exact hperm.append ((List.map_id _).symm ▸ hnew)
  · have hevents : (s.change lim boot f).shadow.events =
        e.elim s.shadow.events fun e => keepLast 40 (s.shadow.events ++ [e]) :=
      hf.events lim s.shadow.hist s.shadow.events
    rw [hevents, change_written lim boot hf, List.map_append, h.events]
    cases e with
    | none => simp
    | some e =>
        rw [Option.elim_some, keepLast_concat]
        rfl

theorem Kept.noSilentLoss (h : Kept lim s) (ha : ∀ w ∈ s.built, s.shadow.histBoot = some w.boot →
    ∀ q, w.first ≤ q → q < w.next → q ≤ s.shadow.histSeq → s.Accounted w.boot q) :
    s.NoSilentLoss lim := by
  obtain ⟨calls, hhist, -, hperm⟩ := h.chart
  refine ⟨⟨Stable.sort Sample.t (inserted calls), ?_, sort_inserted_older calls, ?_⟩, h.events, ha⟩
  · exact (Stable.sort_perm _ _).trans hperm.symm
  · rw [hhist, addAll_hist]

/-! ## The invariant -/

/-- Everything of boot `b` from `lo` to `c` is accounted for, and no reply of this boot has had or will
have an older sample. -/
structure From (s : HistoryPull) (b c lo : Int) : Prop where
  accounted : ∀ q, lo ≤ q → q ≤ c → s.Accounted b q
  built : ∀ w ∈ s.built, w.boot = b → w.first = w.next ∨ lo ≤ w.first
  ring : s.ring.boot = b → lo ≤ s.ring.first

/-- The boot is the present one or an earlier one. -/
def Known (s : HistoryPull) (b : Int) : Prop := b = s.ring.boot ∨ b ∈ s.boots

structure Sound (s : HistoryPull) : Prop where
  fresh : s.ring.boot ∉ s.boots
  known : ∀ w ∈ s.built, s.Known w.boot
  older : ∀ w ∈ s.built, w.boot = s.ring.boot → w.first ≤ s.ring.first
  replies : ∀ (k : Nat) r, s.pollers[k]? = some (HistoryPoller.answered r) → r.ring ∈ s.built
  seq : 0 ≤ s.shadow.histSeq
  cursor : ∀ b, s.shadow.histBoot = some b → s.Known b ∧ ∃ lo, s.From b s.shadow.histSeq lo

theorem Sound.init (boot : Int) : Sound (init boot) where
  fresh := List.not_mem_nil
  known := by simp [HistoryPull.init]
  older := by simp [HistoryPull.init]
  replies := by simp [HistoryPull.init]
  seq := Int.le_refl 0
  cursor := by simp [HistoryPull.init]

theorem Sound.accounted (h : Sound s) : ∀ w ∈ s.built, s.shadow.histBoot = some w.boot →
    ∀ q, w.first ≤ q → q < w.next → q ≤ s.shadow.histSeq → s.Accounted w.boot q := by
  intro w hw hb q hf hn hq
  obtain ⟨-, lo, hlo⟩ := h.cursor _ hb
  refine hlo.accounted q ?_ hq
  rcases hlo.built w hw rfl with he | hle
  · omega
  · exact Int.le_trans hle hf

theorem Accounted.mono {s' : HistoryPull} {b q : Int} (h : s.Accounted b q)
    (hsamples : s.samples ⊆ s'.samples) (hwritten : s.written ⊆ s'.written) : s'.Accounted b q := by
  rcases h with h | ⟨e, he, h⟩
  · exact .inl (List.map_subset _ hsamples h)
  · exact .inr ⟨e, hwritten he, h⟩

theorem Sound.idle (h : Sound s) {now : Clock} {st : Shadow} {ps : List HistoryPoller}
    {samples : List (Option Int × Sample)} {written : List (Option Int × Event)}
    (hsamples : s.samples ⊆ samples) (hwritten : s.written ⊆ written)
    (hboot : st.histBoot = s.shadow.histBoot) (hseq : st.histSeq = s.shadow.histSeq)
    (hps : ∀ (k : Nat) r, ps[k]? = some (HistoryPoller.answered r) → r.ring ∈ s.built) :
    Sound { s with now, shadow := st, pollers := ps, samples, written } where
  fresh := h.fresh
  known := h.known
  older := h.older
  replies := hps
  seq := by
    rw [hseq]
    exact h.seq
  cursor := by
    intro b hb
    rw [hboot] at hb
    obtain ⟨hk, lo, hlo⟩ := h.cursor b hb
    refine ⟨hk, lo, ?_, hlo.built, hlo.ring⟩
    rw [hseq]
    exact fun q hq hc => (hlo.accounted q hq hc).mono hsamples hwritten

theorem Sound.replies_set (h : Sound s) (k : Nat) {p : HistoryPoller}
    (hp : ∀ r, p = .answered r → r.ring ∈ s.built) :
    ∀ (k' : Nat) r, (s.pollers.set k p)[k']? = some (.answered r) → r.ring ∈ s.built := by
  intro k' r hr
  rw [List.getElem?_set] at hr
  split at hr
  · split at hr
    · exact hp r (Option.some.inj hr)
    · cases hr
  · exact h.replies k' r hr

theorem Sound.setPoller (h : Sound s) (k : Nat) {p : HistoryPoller} (hp : ∀ r, p ≠ .answered r) :
    Sound { s with pollers := s.pollers.set k p } :=
  h.idle (fun _ hx => hx) (fun _ he => he) rfl rfl (h.replies_set k fun r he => absurd he (hp r))

theorem Sound.change (h : Sound s) (lim : Limits) (boot : Option Int) (f : Limits → Shadow → Shadow)
    (hboot : (f lim s.shadow).histBoot = s.shadow.histBoot)
    (hseq : (f lim s.shadow).histSeq = s.shadow.histSeq) : Sound (s.change lim boot f) :=
  h.idle (List.subset_append_left _ _) (List.subset_append_left _ _) hboot hseq h.replies

theorem Sound.connect (h : Sound s) : Sound { s with pollers := s.pollers ++ [.asleep] } := by
  refine h.idle (fun _ hx => hx) (fun _ he => he) rfl rfl fun k r hr => ?_
  rw [List.getElem?_append] at hr
  split at hr
  · exact h.replies k r hr
  · rw [List.getElem?_singleton] at hr
    split at hr <;> cases hr

theorem Sound.setRing (h : Sound s) {r : Ring} (hb : r.boot = s.ring.boot) (hf : s.ring.first ≤ r.first) :
    Sound { s with ring := r } where
  fresh := by
    rw [hb]
    exact h.fresh
  known := fun w hw => (h.known w hw).imp (fun he => he.trans hb.symm) id
  older := fun w hw he => Int.le_trans (h.older w hw (he.trans hb)) hf
  replies := h.replies
  seq := h.seq
  cursor := by
    intro b hbs
    obtain ⟨hk, lo, hlo⟩ := h.cursor b hbs
    exact ⟨hk.imp (fun he => he.trans hb.symm) id, lo, hlo.accounted, hlo.built,
      fun he => Int.le_trans (hlo.ring (hb.symm.trans he)) hf⟩

/-- No reply and no cursor is of the boot that begins. -/
theorem Sound.reboot (h : Sound s) {boot : Int} (hne : boot ≠ s.ring.boot) (hnew : boot ∉ s.boots) :
    Sound { s with ring := { boot }, boots := s.ring.boot :: s.boots } := by
  have hknown : ∀ b, s.Known b → b ∈ s.ring.boot :: s.boots ∧ boot ≠ b := by
    intro b hb
    rcases hb with rfl | hb
    · exact ⟨List.mem_cons_self, hne⟩
    · exact ⟨List.mem_cons_of_mem _ hb, fun he => hnew (he ▸ hb)⟩
  refine ⟨?_, fun w hw => .inr (hknown _ (h.known w hw)).1, ?_, h.replies, h.seq, ?_⟩
  · intro hmem
    rcases List.mem_cons.mp hmem with he | hmem
    · exact hne he
    · exact hnew hmem
  · exact fun w hw he => absurd he.symm (hknown _ (h.known w hw)).2
  · intro b hb
    obtain ⟨hk, lo, hlo⟩ := h.cursor b hb
    exact ⟨.inr (hknown b hk).1, lo, hlo.accounted, hlo.built, fun he => absurd he (hknown b hk).2⟩

theorem Sound.answer (h : Sound s) (k : Nat) (r : HistoryReply) (hr : r.ring = s.ring) :
    Sound { s with pollers := s.pollers.set k (.answered r), built := s.built ++ [s.ring] } where
  fresh := h.fresh
  known := by
    intro w hw
    rcases List.mem_append.mp hw with hw | hw
    · exact h.known w hw
    · cases List.mem_singleton.mp hw
      exact .inl rfl
  older := by
    intro w hw hb
    rcases List.mem_append.mp hw with hw | hw
    · exact h.older w hw hb
    · cases List.mem_singleton.mp hw
      exact Int.le_refl _
  replies := by
    intro k' r' hr'
    rw [List.getElem?_set] at hr'
    split at hr'
    · split at hr'
      · cases hr'
        exact List.mem_append_right _ (List.mem_singleton.mpr hr)
      · cases hr'
    · exact List.mem_append_left _ (h.replies k' r' hr')
  seq := h.seq
  cursor := by
    intro b hb
    obtain ⟨hk, lo, hlo⟩ := h.cursor b hb
    refine ⟨hk, lo, hlo.accounted, ?_, hlo.ring⟩
    intro w hw he
    rcases List.mem_append.mp hw with hw | hw
    · exact hlo.built w hw he
    · cases List.mem_singleton.mp hw
      exact .inr (hlo.ring he)

/-! ## A reply is read -/

theorem cursor_cases (s : HistoryPull) (r : HistoryReply) :
    s.cursor r = 0 ∨ s.shadow.histBoot = some r.ring.boot ∧ s.cursor r = s.shadow.histSeq := by
  unfold cursor Shadow.cursorFor
  split
  · rename_i h
    exact .inr ⟨h.1, rfl⟩
  · exact .inl rfl

theorem deliver_eq (s : HistoryPull) (lim : Limits) (k : Nat) (r : HistoryReply) :
    ∃ p, (∀ r, p ≠ .answered r) ∧ s.deliver lim k r =
      { s.change lim (some r.ring.boot) fun lim st => (historyBatch lim st s.now r.message).1 with
        pollers := s.pollers.set k p } := by
  have hbatch : (fun lim st => (HistoryStage.batch.resume lim st s.now (.ok r.message)).shadow) =
      fun lim st => (historyBatch lim st s.now r.message).1 := by
    funext lim st
    simp only [HistoryStage.resume]
    split <;> simp [*]
  refine ⟨_, after_ne_answered (HistoryStage.batch.resume lim s.shadow s.now (.ok r.message)).next, ?_⟩
  rw [deliver, resume, hbatch]

/-- The cursor after a reply: the last new sample, or as before when the loop ends early. -/
theorem deliver_cursor (s : HistoryPull) (lim : Limits) (k : Nat) (r : HistoryReply) :
    (s.deliver lim k r).shadow.histBoot = some r.ring.boot ∧
      (r.kept (s.cursor r) = r.news (s.cursor r) ∧
          (s.deliver lim k r).shadow.histSeq = r.cursorAfter (s.cursor r) ∨
        r.kept (s.cursor r) ≠ r.news (s.cursor r) ∧
          (s.deliver lim k r).shadow.histSeq = s.cursor r) := by
  obtain ⟨p, -, hdeliver⟩ := s.deliver_eq lim k r
  have hshadow : (s.deliver lim k r).shadow = (historyBatch lim s.shadow s.now r.message).1 := by
    rw [hdeliver]
    rfl
  rw [hshadow]
  rcases historyBatch_message lim s.shadow s.now r with ⟨hk, h⟩ | ⟨hk, e, h⟩
  · rw [h]
    exact ⟨Shadow.ingested_histBoot .., .inl ⟨hk, rfl⟩⟩
  · rw [h]
    exact ⟨Shadow.ingested_histBoot .., .inr ⟨hk, Shadow.ingested_histSeq ..⟩⟩

/-- What is accounted for after a reply was so before, is new in the reply, or lies in its gap. -/
theorem accounted_deliver (s : HistoryPull) (lim : Limits) (k : Nat) (r : HistoryReply) (b q : Int) :
    (s.deliver lim k r).Accounted b q ↔ s.Accounted b q ∨ b = r.ring.boot ∧
      (q ∈ (r.kept (s.cursor r)).map Prod.fst ∨ s.cursor r ≠ 0 ∧ s.cursor r < q ∧ q < r.ring.first) := by
  obtain ⟨p, -, hdeliver⟩ := s.deliver_eq lim k r
  have hadds := s.shadow.adds_historyBatch s.now r
  have hseqs := change_seqs lim (some r.ring.boot) hadds
  have hevents := change_written lim (some r.ring.boot) hadds
  have hsamples : (some b, some q) ∈ (s.deliver lim k r).samples.map (fun x => (x.1, x.2.seq)) ↔
      (some b, some q) ∈ s.samples.map (fun x => (x.1, x.2.seq)) ∨
        b = r.ring.boot ∧ q ∈ (r.kept (s.cursor r)).map Prod.fst := by
    rw [hdeliver, hseqs.mem_iff, List.mem_append]
    refine or_congr_right ?_
    simp only [HistoryReply.calls, List.map_map, List.mem_map, Function.comp_apply, Prod.mk.injEq,
      rowCall, Option.some.injEq, cursor]
    constructor
    · rintro ⟨row, hrow, rfl, rfl⟩
      exact ⟨rfl, row, hrow, rfl⟩
    · rintro ⟨rfl, row, hrow, rfl⟩
      exact ⟨row, hrow, rfl, rfl⟩
  have hgap : ∀ e, e ∈ r.gapEvent s.shadow s.now ↔ s.cursor r ≠ 0 ∧ s.cursor r + 1 < r.ring.first ∧
      e = ⟨s.now, gapText (s.cursor r + 1) (r.ring.first - 1), .warn⟩ := by
    intro e
    unfold HistoryReply.gapEvent gapAfter
    split
    · simp_all [cursor, eq_comm]
    · rename_i hc
      simp only [Option.map_none, Option.mem_def, reduceCtorEq, false_iff]
      exact fun h => hc ⟨h.1, h.2.1⟩
  have hwritten : ∀ e, (some b, e) ∈ (s.deliver lim k r).written ↔
      (some b, e) ∈ s.written ∨ b = r.ring.boot ∧ e ∈ r.gapEvent s.shadow s.now := by
    intro e
    rw [hdeliver, hevents, List.mem_append]
    simp [eq_comm, and_comm]
  constructor
  · rintro (h | ⟨e, he, lo, hi, htext, hlo, hhi⟩)
    · exact (hsamples.mp h).imp .inl fun h => ⟨h.1, .inl h.2⟩
    · rcases (hwritten e).mp he with he | ⟨hb, he⟩
      · exact .inl (.inr ⟨e, he, lo, hi, htext, hlo, hhi⟩)
      · obtain ⟨hc, -, rfl⟩ := (hgap e).mp he
        obtain ⟨rfl, rfl⟩ := gapText_inj htext
        exact .inr ⟨hb, .inr ⟨hc, hlo, Int.lt_of_le_sub_one hhi⟩⟩
  · rintro ((h | ⟨e, he, h⟩) | ⟨hb, hq | ⟨hc, hlo, hhi⟩⟩)
    · exact .inl (hsamples.mpr (.inl h))
    · exact .inr ⟨e, (hwritten e).mpr (.inl he), h⟩
    · exact .inl (hsamples.mpr (.inr ⟨hb, hq⟩))
    · refine .inr ⟨_, (hwritten _).mpr (.inr ⟨hb, (hgap _).mpr ⟨hc, ?_, rfl⟩⟩), _, _, rfl, hlo, ?_⟩
      · exact Int.lt_of_le_of_lt hlo hhi
      · exact Int.le_sub_one_of_lt hhi

/-- The cursor with which the reply is read is right before the reply. -/
theorem Sound.from_cursor (h : Sound s) (r : HistoryReply) :
    ∃ lo, s.From r.ring.boot (s.cursor r) lo := by
  rcases s.cursor_cases r with hc | ⟨hb, hc⟩
  · refine ⟨1, ?_, fun w _ _ => .inr w.pos, fun _ => s.ring.pos⟩
    intro q hlo hq
    omega
  · rw [hc]
    exact (h.cursor _ hb).2

theorem From.deliver {b c lo : Int} (h : s.From b c lo) (k : Nat) (r : HistoryReply) :
    (s.deliver lim k r).From b c lo :=
  ⟨fun q hlo hq => (s.accounted_deliver lim k r b q).mpr (.inl (h.accounted q hlo hq)), h.built, h.ring⟩

/-- It is right at the last sample of a complete reply as well. -/
theorem Sound.from_cursorAfter (h : Sound s) {r : HistoryReply} (hr : r.ring ∈ s.built)
    (hcomp : s.Complete r) (hk : r.kept (s.cursor r) = r.news (s.cursor r)) (k : Nat) :
    ∃ lo, (s.deliver lim k r).From r.ring.boot (r.cursorAfter (s.cursor r)) lo := by
  have hacc := s.accounted_deliver lim k r r.ring.boot
  have hnews : ∀ q, r.ring.first ≤ q → s.cursor r < q → q ≤ r.cursorAfter (s.cursor r) →
      (s.deliver lim k r).Accounted r.ring.boot q := by
    intro q hf hc hle
    obtain ⟨p, hp, rfl⟩ := List.mem_map.mp (r.news_consecutive _ (hcomp.imp id And.left) hf hc hle)
    exact (hacc p.1).mpr (.inr ⟨rfl, .inl (List.mem_map_of_mem (hk ▸ hp))⟩)
  obtain ⟨lo, hlo⟩ := h.from_cursor r
  rcases hcomp with hnone | ⟨-, hover⟩
  · rw [r.cursorAfter_of_none _ hnone]
    exact ⟨lo, hlo.deliver k r⟩
  · by_cases hc : s.cursor r = 0
    · refine ⟨r.ring.first, ?_, hover hc, fun he => h.older _ hr he.symm⟩
      intro q hf hle
      have hpos := r.ring.pos
      exact hnews q hf (by omega) hle
    · refine ⟨lo, ?_, hlo.built, hlo.ring⟩
      intro q hlo' hle
      by_cases hq : q ≤ s.cursor r
      · exact (hacc q).mpr (.inl (hlo.accounted q hlo' hq))
      · by_cases hf : q < r.ring.first
        · exact (hacc q).mpr (.inr ⟨rfl, .inr ⟨hc, Int.not_le.mp hq, hf⟩⟩)
        · exact hnews q (Int.not_lt.mp hf) (Int.not_le.mp hq) hle

theorem Sound.deliver (h : Sound s) {k : Nat} {r : HistoryReply}
    (hr : s.pollers[k]? = some (.answered r)) (hcomp : s.Complete r) :
    Sound (s.deliver lim k r) := by
  have hmem := h.replies k r hr
  have hc : 0 ≤ s.cursor r := by
    rcases s.cursor_cases r with hc | ⟨-, hc⟩
    · exact Int.le_of_eq hc.symm
    · exact hc ▸ h.seq
  have hcursor : 0 ≤ (s.deliver lim k r).shadow.histSeq ∧
      ∃ lo, (s.deliver lim k r).From r.ring.boot (s.deliver lim k r).shadow.histSeq lo := by
    rcases (s.deliver_cursor lim k r).2 with ⟨hk, hseq⟩ | ⟨-, hseq⟩
    · rw [hseq]
      exact ⟨Int.le_trans hc (r.le_cursorAfter _), h.from_cursorAfter hmem hcomp hk k⟩
    · rw [hseq]
      obtain ⟨lo, hlo⟩ := h.from_cursor r
      exact ⟨hc, lo, hlo.deliver k r⟩
  have hboot := (s.deliver_cursor lim k r).1
  obtain ⟨p, hp, hdeliver⟩ := s.deliver_eq lim k r
  have hreplies : ∀ (k' : Nat) r', (s.deliver lim k r).pollers[k']? = some (.answered r') →
      r'.ring ∈ s.built := by
    rw [hdeliver]
    exact (h.setPoller k hp).replies
  refine ⟨h.fresh, h.known, h.older, hreplies, hcursor.1, fun b hb => ?_⟩
  cases hboot.symm.trans hb
  exact ⟨h.known _ hmem, hcursor.2⟩

/-- The condition is needed: where nothing behind the cursor is accounted for yet, an incomplete reply
that is read to its end loses a sample. -/
theorem loss_of_incomplete {k : Nat} {r : HistoryReply} (hr : r.ring ∈ s.built)
    (hseq : 0 ≤ s.cursor r) (hnew : ∀ q, s.cursor r < q → ¬ s.Accounted r.ring.boot q)
    (hk : r.kept (s.cursor r) = r.news (s.cursor r)) (hlim : 0 < r.limit)
    (hcomp : ¬ s.Complete r) : ¬ (s.deliver lim k r).NoSilentLoss lim := by
  intro hloss
  obtain ⟨hboot, ⟨-, hcursor⟩ | ⟨hne, -⟩⟩ := s.deliver_cursor lim k r
  swap
  · exact hne hk
  obtain ⟨hsome, hrest⟩ := not_or.mp hcomp
  have hsome := Int.not_le.mp hsome
  obtain ⟨p, hp, hpm⟩ := List.mem_map.mp (r.first_row hsome hlim)
  have hpos := r.ring.pos
  have hlast : s.cursor r < p.1 → p.1 ≤ r.cursorAfter (s.cursor r) := fun hc =>
    r.le_cursorAfter_of_mem _ ((r.news_mem _).mpr ⟨hp, hc⟩)
  have hold : ∀ w ∈ s.built, w.boot = r.ring.boot → ∀ q, w.first ≤ q → q < w.next → s.cursor r < q →
      q ≤ r.cursorAfter (s.cursor r) → max r.ring.first (r.since + 1) ≤ q ∨
        (s.cursor r ≠ 0 ∧ q < r.ring.first) := by
    intro w hw hb q hf hn hc hle
    have hacc := hloss.accounted w hw (hb ▸ hboot) q hf hn (hcursor ▸ hle)
    rw [hb, accounted_deliver] at hacc
    rcases hacc with hq | ⟨-, hq | ⟨hc, -, hq⟩⟩
    · exact absurd hq (hnew q hc)
    · obtain ⟨row, hrow, rfl⟩ := List.mem_map.mp hq
      exact .inl (r.rows_bounds ((r.news_mem _).mp (hk ▸ hrow)).1).1
    · exact .inr ⟨hc, hq⟩
  by_cases hsince : r.since < max r.ring.first (s.cursor r + 1)
  · obtain ⟨hc, hw⟩ := Classical.not_imp.mp (fun h => hrest ⟨hsince, h⟩)
    obtain ⟨w, hw⟩ := not_forall.mp hw
    obtain ⟨hw, hw'⟩ := Classical.not_imp.mp hw
    obtain ⟨hb, hw'⟩ := Classical.not_imp.mp hw'
    obtain ⟨hne, hlt⟩ := not_or.mp hw'
    have hwpos := w.pos
    have hwlen : w.first ≤ w.next := Int.le_add_of_nonneg_right (Int.natCast_nonneg _)
    have hq := hold w hw hb w.first (Int.le_refl _) (by omega) (by omega) (by omega)
    omega
  · have hq := hold r.ring hr rfl (max r.ring.first (s.cursor r + 1)) (le_max_left ..) (by omega)
      (by omega) (by omega)
    omega

/-! ## Runs -/

theorem Sound.step (h : Sound s) {e : PullStep} (hok : s.ok e = true) : Sound (s.step lim e) := by
  cases e with
  | tick ns => exact h.idle (fun _ hx => hx) (fun _ he => he) rfl rfl h.replies
  | app st => exact h.idle (fun _ hx => hx) (fun _ he => he) rfl rfl h.replies
  | live t p r => exact h.change lim none (fun lim st => st.histAdd lim t p r) rfl rfl
  | event text level => exact h.change lim none (fun _ st => st.event s.now text level) rfl rfl
  | connect => exact h.connect
  | produce x => exact h.setRing rfl (Int.le_refl _)
  | overwrite => exact h.setRing s.ring.overwrite_ring.1 s.ring.overwrite_ring.2
  | reboot boot =>
      simp only [HistoryPull.step]
      split
      · exact h
      · rename_i hb
        exact h.reboot (fun he => hb (.inl he)) (fun hm => hb (.inr hm))
  | wake k =>
      simp only [HistoryPull.step]
      split
      · obtain ⟨p, hp, he⟩ := s.resume_asleep lim k
        rw [he]
        exact h.setPoller k hp
      · exact h
  | answer k nowMs other =>
      simp only [HistoryPull.step]
      split
      · exact h.answer k _ rfl
      · exact h
  | deliver k =>
      simp only [HistoryPull.step]
      split
      · rename_i r hr
        simp only [ok, hr, decide_eq_true_eq] at hok
        exact h.deliver hr hok
      · exact h
  | fail k =>
      simp only [HistoryPull.step]
      split
      · rw [resume_error]
        exact h.setPoller k (fun _ => HistoryPoller.noConfusion)
      · rw [resume_error]
        exact h.setPoller k (fun _ => HistoryPoller.noConfusion)
      · exact h

theorem Kept.idle (h : Kept lim s) {s' : HistoryPull} (hhist : s'.shadow.hist = s.shadow.hist)
    (hi : s'.shadow.histI = s.shadow.histI) (hevents : s'.shadow.events = s.shadow.events)
    (hsamples : s'.samples = s.samples) (hwritten : s'.written = s.written) : Kept lim s' := by
  constructor
  · rw [hhist, hi, hsamples]
    exact h.chart
  · rw [hevents, hwritten]
    exact h.events

theorem Kept.step (h : Kept lim s) (e : PullStep) : Kept lim (s.step lim e) := by
  have hpoller : ∀ k p, Kept lim { s with pollers := s.pollers.set k p } := fun _ _ =>
    h.idle rfl rfl rfl rfl rfl
  cases e with
  | tick ns => exact h.idle rfl rfl rfl rfl rfl
  | app st => exact h.idle rfl rfl rfl rfl rfl
  | live t p r => exact h.change (s.shadow.adds_histAdd ⟨t, p, r, none⟩)
  | event text level => exact h.change (s.shadow.adds_event ⟨s.now, text, level⟩)
  | connect => exact h.idle rfl rfl rfl rfl rfl
  | produce x => exact h.idle rfl rfl rfl rfl rfl
  | overwrite => exact h.idle rfl rfl rfl rfl rfl
  | reboot boot =>
      simp only [HistoryPull.step]
      split
      · exact h
      · exact h.idle rfl rfl rfl rfl rfl
  | wake k =>
      simp only [HistoryPull.step]
      split
      · obtain ⟨p, -, he⟩ := s.resume_asleep lim k
        rw [he]
        exact hpoller k p
      · exact h
  | answer k nowMs other =>
      simp only [HistoryPull.step]
      split
      · exact h.idle rfl rfl rfl rfl rfl
      · exact h
  | deliver k =>
      simp only [HistoryPull.step]
      split
      · rename_i r hr
        obtain ⟨p, -, he⟩ := s.deliver_eq lim k r
        rw [he]
        exact (h.change (s.shadow.adds_historyBatch s.now r)).idle rfl rfl rfl rfl rfl
      · exact h
  | fail k =>
      simp only [HistoryPull.step]
      split
      · rw [resume_error]
        exact hpoller k .finished
      · rw [resume_error]
        exact hpoller k .finished
      · exact h

theorem Kept.init (lim : Limits) (boot : Int) : Kept lim (init boot) :=
  ⟨⟨[], rfl, rfl, .refl _⟩, rfl⟩

/-- No silent loss in every run whose replies are complete when they are read. -/
theorem no_silent_loss {boot : Int} {es : List PullStep} (h : Along lim boot es) :
    (after lim boot es).NoSilentLoss lim := by
  have hinv := Run.invariant (P := fun s => Sound s ∧ Kept lim s)
    (fun _ e hs hok => ⟨hs.1.step hok, hs.2.step e⟩) h ⟨Sound.init boot, Kept.init lim boot⟩
  exact hinv.2.noSilentLoss hinv.1.accounted

def sampleReading : Reading := ⟨1000, 2401, 1⟩

/-- Poller `k` asks, and its reply is read. -/
def samplePoll (k : Nat) : List PullStep := [.wake k, .answer k 5000 [], .deliver k]

/-- A first batch of three samples, a gap, a reboot and a reconnect. -/
def sampleHistory : List PullStep :=
  [.connect, .app { online := true }] ++ List.replicate 3 (.produce sampleReading) ++ samplePoll 0
    ++ List.replicate 4 (.produce sampleReading) ++ List.replicate 5 .overwrite ++ samplePoll 0
    ++ [.reboot 2, .produce sampleReading] ++ samplePoll 0
    ++ [.connect, .produce sampleReading] ++ samplePoll 1

theorem no_silent_loss_sample :
    (after {} 1 sampleHistory).samples.map (fun x => (x.1, x.2.seq)) =
      [(some 1, some 1), (some 1, some 2), (some 1, some 3), (some 1, some 6), (some 1, some 7),
        (some 2, some 1), (some 2, some 2)] ∧
    (after {} 1 sampleHistory).written.map (fun e => (e.1, e.2.text)) = [(some 1, gapText 4 5)] ∧
    (after {} 1 sampleHistory).NoSilentLoss {} :=
  ⟨by decide +kernel, by decide +kernel, no_silent_loss (by decide +kernel)⟩

/-- Boot 2 begins after sample 5 of boot 1 and has eight samples when the poller asks again. -/
def sampleReboot : List PullStep :=
  [.connect, .app { online := true }] ++ List.replicate 5 (.produce sampleReading) ++ samplePoll 0
    ++ [.reboot 2] ++ List.replicate 8 (.produce sampleReading) ++ samplePoll 0

/-- The request names the cursor of boot 1, so samples 1 to 5 of boot 2 are never sent, and the cursor
passes them. -/
theorem reboot_loses_samples : ¬ ∀ lim boot es, (after lim boot es).NoSilentLoss lim := by
  intro h
  have hw : { boot := 2, readings := List.replicate 8 sampleReading } ∈ (after {} 1 sampleReboot).built := by
    decide +kernel
  have hboot : (after {} 1 sampleReboot).shadow.histBoot = some 2 := by decide +kernel
  have hseq : (after {} 1 sampleReboot).shadow.histSeq = 8 := by decide +kernel
  have hsamples : (some 2, some 5) ∉ (after {} 1 sampleReboot).samples.map fun x => (x.1, x.2.seq) := by
    decide +kernel
  have hwritten : (after {} 1 sampleReboot).written = [] := by decide +kernel
  rcases (h {} 1 sampleReboot).accounted _ hw hboot 5 (by decide) (by decide) (by rw [hseq]; decide) with
    hin | ⟨e, he, -⟩
  · exact hsamples hin
  · rw [hwritten] at he
    cases he

end HistoryPull

end Fountainer
