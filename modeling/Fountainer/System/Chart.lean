import Fountainer.App.Web
import Fountainer.Library.Numbered
import Fountainer.System.Invariant
import Fountainer.System.Lemmas.Tasks

/-!
# The chart ring and its delivery

The list behind `/api/history` is the end of the stable sort of everything inserted, and a client that
polls with the greatest number it has received gets every retained sample once.
-/

namespace Fountainer

/-! ## The ring -/

/-- After any calls of `_hist_add` the ring holds the last samples of the stable sort by time. -/
theorem hist_is_sorted_end (lim : Limits) (hn : 1 ≤ lim.histMaxSamples) (calls : List HistCall) :
    let hist := (Shadow.addAll lim {} calls).hist
    hist = (Stable.sort Sample.t (inserted calls)).rtake lim.histMaxSamples ∧
    (inserted calls).map Sample.i = List.range' 1 calls.length ∧
    hist.Pairwise Sample.Older ∧ (hist.map Sample.i).Nodup ∧
    ∀ x ∈ inserted calls, x ∉ hist → ∀ y ∈ hist, x.Older y := by
  intro hist
  have heq : hist = (Stable.sort Sample.t (inserted calls)).rtake lim.histMaxSamples := by
    rw [← keepLast_eq_rtake hn]
    exact addAll_hist lim calls
  have hsort := sort_inserted_older calls
  have hsub : hist.Sublist (Stable.sort Sample.t (inserted calls)) := heq ▸ List.drop_sublist _ _
  refine ⟨heq, inserted_numbers calls, hsort.sublist hsub, ?_, fun x hx hout y hy => ?_⟩
  · have hperm := (Stable.sort_perm Sample.t (inserted calls)).map Sample.i
    rw [inserted_numbers] at hperm
    exact (hsub.map Sample.i).nodup (hperm.nodup_iff.mpr List.nodup_range')
  · -- what is not among the last samples stands before them
    have hx := (Stable.sort_perm Sample.t (inserted calls)).mem_iff.mpr hx
    rw [heq] at hout hy
    rw [← List.take_append_drop ((Stable.sort Sample.t (inserted calls)).length - lim.histMaxSamples)
      (Stable.sort Sample.t (inserted calls))] at hsort hx
    rcases List.mem_append.mp hx with hx | hx
    · exact (List.pairwise_append.mp hsort).2.2 x hx y hy
    · exact absurd hx hout

theorem hist_is_sorted_end_sample :
    let calls : List HistCall := [⟨5, .int 1, .int 0, none⟩, ⟨2, .int 2, .int 0, some 1⟩,
      ⟨5, .int 3, .int 1, none⟩, ⟨3, .int 4, .int 0, some 2⟩]
    let hist := (Shadow.addAll { histMaxSamples := 2 } {} calls).hist
    hist = (Stable.sort Sample.t (inserted calls)).rtake 2 ∧ hist.map Sample.i = [1, 3] := by
  intro calls hist
  exact ⟨(hist_is_sorted_end { histMaxSamples := 2 } (by decide) calls).1, by decide⟩

/-! ## The charts of a running server -/

theorem ShadowStep.chart {cfg : Config} {s₀ s : State} {e : Step} {d : Str} {st : Shadow}
    (h : ShadowStep cfg s₀ e s d st) : (s.deviceState d).ChartGrows cfg.limits st := by
  cases h with
  | same => exact .refl _
  | connected hx hd hpc he => exact .of_eq rfl rfl
  | disconnected hx hd hcur => exact .of_eq rfl rfl
  | hook hx hd hcall => exact runHook_chart ..
  | task ht hx hd hb hres => exact TaskBody.resume_chart ..

theorem State.step_chart (cfg : Config) (s : State) (e : Step) (d : Str) :
    (s.deviceState d).ChartGrows cfg.limits ((s.step cfg e).deviceState d) := by
  have hchain := step_chain cfg s e
  generalize s.step cfg e = s' at hchain
  induction hchain with
  | refl => exact .refl _
  | tail _ hm ih => exact ih.trans (hm.shadow d).chart

def State.Charted (cfg : Config) (s : State) : Prop :=
  ∀ d, Shadow.ChartGrows cfg.limits {} (s.deviceState d)

theorem State.charted (cfg : Config) (t : Nat) (es : List Step) : (after cfg t es).Charted cfg :=
  always_of_micro (fun _ => .refl _) fun _ _ _ _ _ hm hs d => (hs d).trans (hm.shadow d).chart

/-- Nothing but `_hist_add` makes the chart of a device, in every run of the server. -/
theorem chart_of_run (cfg : Config) (t : Nat) (es : List Step) (d : Str) :
    ∃ calls, ((State.after cfg t es).deviceState d).hist =
      keepLast cfg.limits.histMaxSamples (Stable.sort Sample.t (inserted calls)) := by
  obtain ⟨calls, hhist, -⟩ := State.charted cfg t es d
  exact ⟨calls, hhist.trans (addAll_hist cfg.limits calls)⟩

/-! ## Delivery -/

/-- The shadows and one sequential client of `/api/history`. -/
structure Feed where
  deviceState : Str → Shadow := fun _ => {}
  /-- The replies so far, oldest first. -/
  replies : List (List Sample) := []

inductive FeedStep
  /-- A call of `_hist_add`. -/
  | add (d : Str) (c : HistCall)
  /-- The rest of the application leaves the shadow `st`, up to the chart. -/
  | app (d : Str) (st : Shadow)
  | poll

namespace Feed

/-- What the client has received. -/
def received (s : Feed) : List Sample := s.replies.flatten

/-- The greatest number received, 0 at first. -/
def lastI (s : Feed) : Nat := (s.received.map Sample.i).foldl max 0

variable (cfg : Config) (d : Str)

def retained (s : Feed) : List Sample := (s.deviceState d).hist

/-- One step; the client polls for device `d`. -/
def step (s : Feed) : FeedStep → Feed
  | .add d' c =>
      { s with deviceState :=
          Function.update s.deviceState d' ((s.deviceState d').add cfg.limits c) }
  | .app d' st =>
      let old := s.deviceState d'
      { s with deviceState :=
          Function.update s.deviceState d' { st with hist := old.hist, histI := old.histI } }
  | .poll => match apiHistory cfg s.deviceState (historyQuery d s.lastI) with
      | .ok (some reply) => { s with replies := s.replies ++ [reply] }
      | _ => s

abbrev after (es : List FeedStep) : Feed := Run.run (step cfg d) {} es

/-! ## The invariant -/

variable {cfg d} {s : Feed}

theorem le_lastI {x : Sample} (h : x ∈ s.received) : x.i ≤ s.lastI :=
  (Numbered.le_foldl_max _ 0).2 _ (List.mem_map_of_mem h)

/-- Numbers are given out in order, and a retained sample with a number that has been received was
received itself. -/
structure Delivered (d : Str) (s : Feed) : Prop where
  numbered : (s.deviceState d).Numbered
  last : s.lastI ≤ (s.deviceState d).histI
  pos : ∀ x ∈ s.received, 0 < x.i
  known : ∀ x ∈ s.retained d, x.i ≤ s.lastI → x ∈ s.received
  once : s.received.Nodup

/-- The reply consists of the retained samples that the client does not have. -/
theorem Delivered.reply (h : Delivered d s) :
    historySince (s.retained d) s.lastI 0 = (s.retained d).filter fun x => !s.received.contains x := by
  have hsplit : historySince (s.retained d) s.lastI 0 =
      (s.retained d).filter fun x => decide (s.lastI < x.i) :=
    historySince_behind (fun x hx => (h.numbered.range x hx).1) s.lastI
  rw [hsplit]
  refine List.filter_congr fun x hx => ?_
  by_cases hl : s.lastI < x.i
  · have hnot : x ∉ s.received := fun hr => absurd (le_lastI hr) (Nat.not_le.mpr hl)
    simp [hl, hnot]
  · simp [hl, h.known x hx (Nat.not_lt.mp hl)]

theorem Delivered.init (d : Str) : Delivered d {} where
  numbered := .empty
  last := Nat.le_refl 0
  pos := by simp [received]
  known := by simp [retained]
  once := List.nodup_nil

theorem Delivered.frame (h : Delivered d s) {s' : Feed} (hr : s'.replies = s.replies)
    (hhist : s'.retained d = s.retained d)
    (hi : (s'.deviceState d).histI = (s.deviceState d).histI) : Delivered d s' := by
  have hrec : s'.received = s.received := by rw [received, hr, received]
  have hlast : s'.lastI = s.lastI := by rw [lastI, hrec, lastI]
  constructor
  · exact h.numbered.congr hhist hi
  · rw [hlast, hi]
    exact h.last
  · rw [hrec]
    exact h.pos
  · rw [hhist, hlast, hrec]
    exact h.known
  · rw [hrec]
    exact h.once

theorem Delivered.add (h : Delivered d s) (c : HistCall) : Delivered d (s.step cfg d (.add d c)) := by
  have hstate : (s.step cfg d (.add d c)).deviceState d = (s.deviceState d).add cfg.limits c := by
    simp [step]
  constructor
  · rw [hstate]
    exact h.numbered.add cfg.limits c
  · rw [hstate, Shadow.add_histI]
    exact Nat.le_succ_of_le h.last
  · exact h.pos
  · intro x hx hle
    rw [retained, hstate] at hx
    rcases Shadow.mem_add hx with rfl | hx
    · exact absurd (Nat.le_trans hle h.last) (Nat.not_succ_le_self _)
    · exact h.known x hx hle
  · exact h.once

/-- The retained samples that the client does not have. -/
def news (d : Str) (s : Feed) : List Sample := (s.retained d).filter fun x => !s.received.contains x

theorem mem_append_news (x : Sample) :
    x ∈ s.received ++ s.news d ↔ x ∈ s.received ∨ x ∈ s.retained d := by
  simp only [news, List.mem_append, List.mem_filter, Bool.not_eq_true', List.contains_eq_mem,
    decide_eq_false_iff_not]
  tauto

theorem Delivered.poll_eq (h : Delivered d s) (hd : cfg.serves d = true) :
    s.step cfg d .poll = { s with replies := s.replies ++ [s.news d] } := by
  unfold step
  rw [apiHistory_historyQuery hd]
  dsimp only
  rw [news, ← h.reply]
  rfl

theorem Delivered.received_poll (h : Delivered d s) (hd : cfg.serves d = true) :
    (s.step cfg d .poll).received = s.received ++ s.news d := by
  rw [h.poll_eq hd]
  simp [received]

theorem Delivered.poll (h : Delivered d s) (hd : cfg.serves d = true) :
    Delivered d (s.step cfg d .poll) := by
  have hrec := h.received_poll hd
  have hretained : (s.step cfg d .poll).retained d = s.retained d := by rw [h.poll_eq hd]; rfl
  have hi : ((s.step cfg d .poll).deviceState d).histI = (s.deviceState d).histI := by
    rw [h.poll_eq hd]
  constructor
  · exact h.numbered.congr hretained hi
  · rw [lastI, hrec, hi]
    refine Numbered.foldl_max_le (Nat.zero_le _) fun n hn => ?_
    obtain ⟨x, hx, rfl⟩ := List.mem_map.mp hn
    rcases (mem_append_news x).mp hx with hx | hx
    · exact Nat.le_trans (le_lastI hx) h.last
    · exact (h.numbered.range x hx).2
  · intro x hx
    rw [hrec] at hx
    exact ((mem_append_news x).mp hx).elim (h.pos x) fun hx => (h.numbered.range x hx).1
  · intro x hx _
    rw [hretained] at hx
    rw [hrec]
    exact (mem_append_news x).mpr (.inr hx)
  · rw [hrec]
    refine List.nodup_append.mpr ⟨h.once, h.numbered.nodup.of_map.filter _, fun x hx y hy => ?_⟩
    rintro rfl
    simp [news, hx] at hy

theorem Delivered.step (h : Delivered d s) (hd : cfg.serves d = true) (e : FeedStep) :
    Delivered d (s.step cfg d e) := by
  cases e with
  | add d' c =>
      by_cases hdd : d = d'
      · subst hdd
        exact h.add c
      · exact h.frame rfl (by simp [Feed.step, retained, hdd]) (by simp [Feed.step, hdd])
  | app d' st =>
      by_cases hdd : d = d'
      · subst hdd
        exact h.frame rfl (by simp [Feed.step, retained]) (by simp [Feed.step])
      · exact h.frame rfl (by simp [Feed.step, retained, hdd]) (by simp [Feed.step, hdd])
  | poll => exact h.poll hd

theorem delivered (cfg : Config) {d : Str} (hd : cfg.serves d = true) (es : List FeedStep) :
    Delivered d (after cfg d es) := by
  have halong : Run.Along (Feed.step cfg d) (fun _ _ => True) {} es :=
    Run.along_of_forall (fun _ _ => trivial) _ _
  exact Run.invariant (fun _ e h _ => h.step hd e) halong (.init d)

theorem after_concat (cfg : Config) (d : Str) (es : List FeedStep) (e : FeedStep) :
    after cfg d (es ++ [e]) = (after cfg d es).step cfg d e := Run.run_append ..

theorem append_poll_isPrefix_iff (before es : List FeedStep) (e : FeedStep) :
    before ++ [.poll] <+: es ++ [e] ↔ (before = es ∧ e = .poll) ∨ before ++ [.poll] <+: es := by
  rw [List.prefix_concat_iff]
  refine or_congr_left ⟨fun h => ?_, ?_⟩
  · obtain ⟨hb, he⟩ := List.append_inj' h rfl
    exact ⟨hb, (List.singleton_inj.mp he).symm⟩
  · rintro ⟨rfl, rfl⟩
    rfl

theorem received_iff (hd : cfg.serves d = true) (es : List FeedStep) (x : Sample) :
    x ∈ (after cfg d es).received ↔
      ∃ before, before ++ [.poll] <+: es ∧ x ∈ (after cfg d before).retained d := by
  induction es using List.reverseRecOn with
  | nil => simp [after, received]
  | append_singleton es e ih =>
      rw [after_concat]
      cases e with
      | poll =>
          have hrec : x ∈ ((after cfg d es).step cfg d .poll).received ↔
              x ∈ (after cfg d es).received ∨ x ∈ (after cfg d es).retained d := by
            rw [(delivered cfg hd es).received_poll hd]
            exact mem_append_news x
          rw [hrec, ih]
          constructor
          · rintro (⟨before, hb, hx⟩ | hx)
            · exact ⟨before, (append_poll_isPrefix_iff ..).mpr (.inr hb), hx⟩
            · exact ⟨es, (append_poll_isPrefix_iff ..).mpr (.inl ⟨rfl, rfl⟩), hx⟩
          · rintro ⟨before, hb, hx⟩
            rcases (append_poll_isPrefix_iff ..).mp hb with ⟨rfl, -⟩ | hb
            · exact .inr hx
            · exact .inl ⟨before, hb, hx⟩
      | add d' c | app d' st =>
          refine ih.trans (exists_congr fun before => and_congr_left' ?_)
          simp [append_poll_isPrefix_iff]

/-- Every poll returns the retained samples that no earlier poll has returned, so the replies together
are the samples retained at some poll, each once. -/
theorem incremental_history (cfg : Config) (d : Str) (hd : cfg.serves d = true) (es : List FeedStep) :
    (after cfg d (es ++ [.poll])).replies = (after cfg d es).replies ++
      [((after cfg d es).retained d).filter
        fun x => !(after cfg d es).replies.flatten.contains x] ∧
    (after cfg d es).replies.flatten.Nodup ∧
    ∀ x, x ∈ (after cfg d es).replies.flatten ↔
      ∃ before, before ++ [.poll] <+: es ∧ x ∈ (after cfg d before).retained d := by
  refine ⟨?_, (delivered cfg hd es).once, received_iff hd es⟩
  rw [after_concat, (delivered cfg hd es).poll_eq hd]
  rfl

theorem incremental_history_sample :
    let es : List FeedStep := [.add (py "fon-1") ⟨5, .int 1, .int 0, none⟩, .poll,
      .add (py "fon-1") ⟨2, .int 2, .int 0, some 1⟩]
    ((after sampleConfig (py "fon-1") (es ++ [.poll])).replies.map (·.map Sample.i)) = [[1], [2]] ∧
    (after sampleConfig (py "fon-1") es).replies.flatten.Nodup :=
  ⟨by decide +kernel, (incremental_history sampleConfig (py "fon-1") (by decide +kernel) _).2.1⟩

end Feed

end Fountainer
