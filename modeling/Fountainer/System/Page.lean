import Fountainer.System.Tab

/-!
# The chart of a page with overlapping polls

`pollHistory` suspends between reading `CUR` and merging the reply; meanwhile other polls run and the
selection changes.
-/

namespace Fountainer

/-- A `pollHistory` between its start and its end. -/
inductive PollCall
  | asked (d : Str) (since : Nat)
  /-- The server has answered. -/
  | answered (d : Str) (reply : Except PyErr (Option (List Sample)))
  | done

structure Page where
  server : State := {}
  tab : Tab := {}
  polls : List PollCall := []
  /-- The samples of the replies that have been read, with their device. -/
  delivered : List (Str × Sample) := []

inductive PageStep
  | server (e : ServerStep)
  /-- `pickDevice`. -/
  | pick (d : Str)
  /-- `refresh` has the devices; `saved` is in the local storage. -/
  | refresh (devices : List Str) (saved : Option Str)
  /-- The timer starts `pollHistory`. -/
  | start
  /-- The server answers poll `k`. -/
  | serve (k : Nat)
  /-- The reply of poll `k` is read and merged. -/
  | receive (k : Nat)

/-- The samples that `r.json()` yields. -/
def readable : Except PyErr (Option (List Sample)) → List Sample
  | .ok (some samples) => if samples.all Sample.isStrict then samples else []
  | _ => []

namespace Page

/-- `pollHistory` up to its first `await`. -/
def start (s : Page) : Page :=
  match s.tab.asks with
  | some d => { s with polls := s.polls ++ [.asked d s.tab.lastI] }
  | none => s

def step (cfg : Config) (s : Page) : PageStep → Page
  | .server e => { s with server := s.server.serve cfg e }
  | .pick d => if s.tab.cur = some d then s else start { s with tab := s.tab.pickDevice d }
  | .refresh devices saved => { s with tab := s.tab.refresh devices saved }
  | .start => s.start
  | .serve k => match s.polls[k]? with
      | some (.asked d since) =>
          let reply := apiHistory cfg s.server.deviceState (historyQuery d since)
          { s with polls := s.polls.set k (.answered d reply) }
      | _ => s
  | .receive k => match s.polls[k]? with
      | some (.answered d reply) =>
          { s with tab := s.tab.receive reply
                   polls := s.polls.set k .done
                   delivered := s.delivered ++ (readable reply).map fun x => (d, x) }
      | _ => s

def init (t : Nat) : Page := { server := .init t }

abbrev after (cfg : Config) (t : Nat) (es : List PageStep) : Page := Run.run (step cfg) (init t) es

/-- The samples that have been delivered for the selected device. -/
def selected (s : Page) : List Sample :=
  (s.delivered.filter fun e => some e.1 = s.tab.cur).map Prod.snd

/-- `HIST` has only samples of the selected device, with different insertion ids, and `histLastI` is at
most the greatest id delivered for the device. -/
structure Isolated (s : Page) : Prop where
  shown : ∀ x ∈ s.tab.hist, x ∈ s.selected
  once : (s.tab.hist.map Sample.i).Nodup
  last : s.tab.lastI ≤ (s.selected.map Sample.i).foldl max 0

/-- A reply is merged only while its device is selected and with ids that `HIST` does not have, up to
samples that the tab knows and that do not raise `histLastI`. The selected device is among the listed
ones, or the chart is empty. -/
def ok (s : Page) : PageStep → Bool
  | .receive k => match s.polls[k]? with
      | some (.answered d reply) => (readable reply).all fun x =>
          if s.tab.knows x then s.tab.cur = some d ∨ x.i ≤ s.tab.lastI
          else s.tab.cur = some d ∧ x.i ∉ s.tab.hist.map Sample.i
      | _ => true
  | .refresh devices _ => s.tab.asks.any (· ∈ devices) ∨ (s.tab.hist = [] ∧ s.tab.lastI = 0)
  | _ => true

abbrev Along (cfg : Config) (t : Nat) (es : List PageStep) : Prop :=
  Run.Along (step cfg) (fun s e => s.ok e = true) (init t) es

/-! ## The invariant -/

variable {cfg : Config} {s : Page}

/-- The ids of a reply are different. -/
structure Separate (s : Page) : Prop where
  isolated : s.Isolated
  numbered : ∀ d, (s.server.deviceState d).Numbered
  replies : ∀ d reply, .answered d reply ∈ s.polls → ((readable reply).map Sample.i).Nodup

theorem Isolated.of_empty (hhist : s.tab.hist = []) (hlast : s.tab.lastI = 0) : s.Isolated where
  shown := by simp [hhist]
  once := by simp [hhist]
  last := by simp [hlast]

theorem Isolated.congr {s' : Page} (h : s.Isolated) (htab : s'.tab = s.tab)
    (hdelivered : s'.delivered = s.delivered) : s'.Isolated := by
  have hselected : s'.selected = s.selected := by rw [selected, selected, htab, hdelivered]
  constructor
  · rw [htab, hselected]
    exact h.shown
  · rw [htab]
    exact h.once
  · rw [htab, hselected]
    exact h.last

theorem Separate.init (t : Nat) : Separate (init t) where
  isolated := .of_empty rfl rfl
  numbered := fun _ => .empty
  replies := by simp [Page.init]

theorem readable_nodup {d : Str} (h : (s.server.deviceState d).Numbered) (since : Nat) :
    ((readable (apiHistory cfg s.server.deviceState (historyQuery d since))).map Sample.i).Nodup := by
  cases hr : apiHistory cfg s.server.deviceState (historyQuery d since) with
  | error e => exact List.nodup_nil
  | ok samples =>
      cases samples with
      | none => exact List.nodup_nil
      | some samples =>
          have hsub := apiHistory_sublist rfl hr
          simp only [readable]
          split
          · exact (hsub.map Sample.i).nodup h.nodup
          · exact List.nodup_nil

theorem Separate.start (h : s.Separate) : s.start.Separate := by
  unfold Page.start
  split
  · refine ⟨h.isolated.congr rfl rfl, h.numbered, fun d reply hmem => ?_⟩
    rcases List.mem_append.mp hmem with hmem | hmem
    · exact h.replies d reply hmem
    · simp at hmem
  · exact h

theorem receive_cases (tab : Tab) (reply : Except PyErr (Option (List Sample))) :
    tab.receive reply = tab.merge (readable reply) ∨ (readable reply = [] ∧ tab.receive reply = tab) := by
  rcases reply with e | _ | samples
  · exact .inr ⟨rfl, rfl⟩
  · exact .inr ⟨rfl, rfl⟩
  · simp only [Tab.receive, readable]
    split
    · exact .inl rfl
    · exact .inr ⟨rfl, rfl⟩

/-- A reply whose samples are of the selected device, up to those that change nothing. -/
theorem Isolated.merge {d : Str} {samples : List Sample} (h : s.Isolated) (hnodup : (samples.map Sample.i).Nodup)
    (hok : ∀ x ∈ samples, if s.tab.knows x then s.tab.cur = some d ∨ x.i ≤ s.tab.lastI
      else s.tab.cur = some d ∧ x.i ∉ s.tab.hist.map Sample.i) (polls : List PollCall) :
    Isolated { s with tab := s.tab.merge samples, polls,
                      delivered := s.delivered ++ samples.map fun x => (d, x) } := by
  set s' : Page := { s with tab := s.tab.merge samples, polls,
                            delivered := s.delivered ++ samples.map fun x => (d, x) }
  have hcur : s'.tab.cur = s.tab.cur := s.tab.merge_cur samples
  have hold : s.selected.Sublist s'.selected := by
    unfold selected
    rw [hcur, List.filter_append, List.map_append]
    exact List.sublist_append_left ..
  have hnew : s.tab.cur = some d → ∀ x ∈ samples, x ∈ s'.selected := by
    intro hd x hx
    refine List.mem_map.mpr ⟨(d, x), List.mem_filter.mpr ⟨?_, by simp [hcur, hd]⟩, rfl⟩
    exact List.mem_append_right _ (List.mem_map_of_mem hx)
  have hsub := s.tab.merge_subperm samples
  have hunknown : ∀ x ∈ samples.filter (!s.tab.knows ·),
      s.tab.cur = some d ∧ x.i ∉ s.tab.hist.map Sample.i := by
    intro x hx
    obtain ⟨hx, hk⟩ := List.mem_filter.mp hx
    simpa [Bool.not_eq_true' _ ▸ hk] using hok x hx
  constructor
  · intro x hx
    rcases List.mem_append.mp (hsub.subset hx) with hx | hx
    · exact hnew (hunknown x hx).1 x (List.mem_filter.mp hx).1
    · exact hold.subset (h.shown x hx)
  · obtain ⟨l, hperm, hl⟩ := hsub
    have hids : ((samples.filter (!s.tab.knows ·) ++ s.tab.hist).map Sample.i).Nodup := by
      rw [List.map_append]
      refine List.nodup_append.mpr ⟨(List.filter_sublist.map _).nodup hnodup, h.once, fun i hi j hj => ?_⟩
      obtain ⟨x, hx, rfl⟩ := List.mem_map.mp hi
      rintro rfl
      exact (hunknown x hx).2 hj
    exact (hperm.map Sample.i).nodup_iff.mp ((hl.map _).nodup hids)
  · have hlast : s'.tab.lastI = (samples.map Sample.i).foldl max s.tab.lastI := s.tab.merge_lastI samples
    have hmax := (Numbered.le_foldl_max (s'.selected.map Sample.i) 0).2
    have hle : s.tab.lastI ≤ (s'.selected.map Sample.i).foldl max 0 := by
      refine h.last.trans (Numbered.foldl_max_le (Nat.zero_le _) fun i hi => ?_)
      exact hmax i ((hold.map _).subset hi)
    rw [hlast]
    refine Numbered.foldl_max_le hle fun i hi => ?_
    obtain ⟨x, hx, rfl⟩ := List.mem_map.mp hi
    have hdec : s.tab.cur = some d ∨ x.i ≤ s.tab.lastI := by
      have hx := hok x hx
      split at hx
      · exact hx
      · exact .inl hx.1
    rcases hdec with hd | hx
    · exact hmax _ (List.mem_map_of_mem (hnew hd x hx))
    · exact hx.trans hle

theorem Separate.pick (h : s.Separate) (d : Str) : (s.step cfg (.pick d)).Separate := by
  simp only [step]
  split
  · exact h
  · rename_i hd
    have htab : s.tab.pickDevice d = { cur := some d } := if_neg hd
    have hcleared : Separate { s with tab := s.tab.pickDevice d } := by
      rw [htab]
      exact ⟨.of_empty rfl rfl, h.numbered, h.replies⟩
    exact hcleared.start

theorem Separate.refresh (h : s.Separate) {devices : List Str} {saved : Option Str}
    (hok : s.ok (.refresh devices saved) = true) : (s.step cfg (.refresh devices saved)).Separate := by
  refine ⟨?_, h.numbered, h.replies⟩
  simp only [ok, Bool.decide_or, Bool.or_eq_true, decide_eq_true_eq] at hok
  rcases hok with hlisted | ⟨hhist, hlast⟩
  · exact h.isolated.congr (Tab.refresh_listed hlisted saved) rfl
  · obtain ⟨hhist', hlast'⟩ := s.tab.refresh_chart devices saved
    exact .of_empty (hhist'.trans hhist) (hlast'.trans hlast)

theorem Separate.step (h : s.Separate) {e : PageStep} (hok : s.ok e = true) : (s.step cfg e).Separate := by
  cases e with
  | server e => exact ⟨h.isolated.congr rfl rfl, fun d => State.serve_numbered (h.numbered d) e, h.replies⟩
  | pick d => exact h.pick d
  | refresh devices saved => exact h.refresh hok
  | start => exact h.start
  | serve k =>
      simp only [Page.step]
      split
      · rename_i d since hk
        refine ⟨h.isolated.congr rfl rfl, h.numbered, fun d' reply hmem => ?_⟩
        rcases List.mem_or_eq_of_mem_set hmem with hmem | he
        · exact h.replies d' reply hmem
        · cases he
          exact readable_nodup (h.numbered d) since
      · exact h
  | receive k =>
      simp only [Page.step]
      split
      · rename_i d reply hk
        refine ⟨?_, h.numbered, fun d' reply' hmem => ?_⟩
        · rcases receive_cases s.tab reply with he | ⟨hnone, he⟩
          · simp only [ok, hk, List.all_eq_true] at hok
            rw [he]
            exact h.isolated.merge (h.replies d reply (List.mem_of_getElem? hk))
              (fun x hx => by simpa using hok x hx) _
          · rw [he, hnone]
            exact h.isolated.congr rfl (List.append_nil _)
        · rcases List.mem_or_eq_of_mem_set hmem with hmem | he
          · exact h.replies d' reply' hmem
          · cases he
      · exact h

/-- Every state of a run that meets the conditions. -/
theorem chart_isolated (cfg : Config) (t : Nat) (es : List PageStep) (h : Along cfg t es) :
    (after cfg t es).Isolated :=
  (Run.invariant (fun _ _ (hs : Separate _) hok => hs.step hok) h (.init t)).isolated

/-! ## Runs -/

/-- A server with a second device. -/
def samplePair : Config :=
  { sampleConfig with
    registry := ⟨[(py "fon-1", sampleDevice), (py "fon-2", { sampleDevice with deviceId := py "fon-2" })],
      by simp [sampleDevice]⟩ }

/-- The first device is connected and has sent one report with a pressure. -/
def sampleReport : List PageStep :=
  let report : Step := .recv 0 (.json (.obj [(py "type", .str (py "dp_report")),
    (py "dp", .obj [(py "Fon_Current_Pressure", .int 2)])]))
  (sampleHandshake 0 [7] "n" ++ [report]).map fun e => .server (.step e)

theorem chart_isolated_sample :
    let run := sampleReport ++ [.refresh [py "fon-1", py "fon-2"] none, .start, .serve 0, .receive 0,
      .pick (py "fon-2"), .start, .serve 1, .receive 1, .pick (py "fon-1"), .serve 3, .receive 3]
    (after samplePair 0 run).Isolated ∧ (after samplePair 0 run).tab.hist.length = 1 := by
  intro run
  have hrun : Along samplePair 0 run ∧ (after samplePair 0 run).tab.hist.length = 1 := by decide +kernel
  exact ⟨chart_isolated samplePair 0 run hrun.1, hrun.2⟩

/-- The reply of a poll is merged after another device has been picked. -/
theorem late_reply_mixes_charts :
    let run := sampleReport ++ [.refresh [py "fon-1", py "fon-2"] none, .start, .serve 0,
      .pick (py "fon-2"), .receive 0]
    ¬ (after samplePair 0 run).Isolated := by
  intro run h
  have hcharts : (after samplePair 0 run).tab.hist.map Sample.i = [1] ∧
      (after samplePair 0 run).selected.map Sample.i = [] := by
    decide +kernel
  obtain ⟨x, hx, -⟩ : ∃ x ∈ (after samplePair 0 run).tab.hist, x.i = 1 := by
    simpa using (hcharts.1 ▸ List.mem_singleton_self 1 : 1 ∈ (after samplePair 0 run).tab.hist.map Sample.i)
  have hmem := h.shown x hx
  rw [List.map_eq_nil_iff.mp hcharts.2] at hmem
  exact List.not_mem_nil hmem

/-- Two polls of one device overlap. -/
example :
    let run := sampleReport ++ [.refresh [py "fon-1"] none, .start, .start, .serve 0, .serve 1,
      .receive 0, .receive 1]
    (after samplePair 0 run).tab.hist.map Sample.i = [1, 1] := by
  decide +kernel

end Page

end Fountainer
