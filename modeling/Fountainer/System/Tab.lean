import Fountainer.App.History
import Fountainer.App.Tab
import Fountainer.Library.Numbered
import Fountainer.System.Chart
import Fountainer.System.Conditions

/-!
# The chart of a tab that keeps one device selected

A server whose process may be restarted, and a tab that polls sequentially.
-/

namespace Fountainer

/-- What can happen on the side of the server. -/
inductive ServerStep
  | step (e : Step)
  /-- The process ends and is started anew `ns` later. -/
  | restart (ns : Nat)

namespace State

/-- The files and the devices outlive the process. -/
def restarted (s : State) (ns : Nat) : State :=
  { now := s.now + ns, files := s.files, deviceSigned := s.deviceSigned }

def serve (cfg : Config) (s : State) : ServerStep → State
  | .step e => s.step cfg e
  | .restart ns => s.restarted ns

theorem serve_numbered {cfg : Config} {s : State} {d : Str} (h : (s.deviceState d).Numbered)
    (e : ServerStep) : ((s.serve cfg e).deviceState d).Numbered := by
  cases e with
  | step e => exact (s.step_chart cfg e d).numbered h
  | restart ns => exact .empty

end State

structure Viewer where
  server : State := {}
  tab : Tab
  /-- The process has been restarted since `histLastI` was received. -/
  outdated : Bool := false

inductive ViewerStep
  | server (e : ServerStep)
  | poll

namespace Viewer

variable (cfg : Config) (d : Str)

/-- What the server retains. -/
def retained (s : Viewer) : List Sample := (s.server.deviceState d).hist

/-- The retained samples behind `histLastI`. -/
def news (s : Viewer) : List Sample := (s.retained d).filter fun x => s.tab.lastI < x.i

def step (s : Viewer) : ViewerStep → Viewer
  | .server e =>
      { s with server := s.server.serve cfg e
               outdated := match e with
                 | .step _ => s.outdated
                 | .restart _ => true }
  -- one whole `pollHistory`
  | .poll => match s.tab.asks with
      | some d =>
          { s with tab := s.tab.receive (apiHistory cfg s.server.deviceState (historyQuery d s.tab.lastI))
                   outdated := s.outdated && (s.news d).isEmpty }
      | none => s

/-- A tab on which device `d` has just been selected, before a server that starts. -/
def init (t : Nat) : Viewer := { server := .init t, tab := { cur := some d } }

abbrev after (t : Nat) (es : List ViewerStep) : Viewer := Run.run (step cfg) (init d t) es

/-- `HIST` has every retained sample exactly once, in the order of time. -/
def Complete (s : Viewer) : Prop :=
  (∀ x ∈ s.retained d, s.tab.hist.count x = 1) ∧ s.tab.hist.Pairwise fun a b => a.time ≤ b.time

instance (s : Viewer) : Decidable (s.Complete d) := inferInstanceAs (Decidable (_ ∧ _))

/-- A poll finds samples that `r.json()` reads and whose device numbers are new to the tab and among
themselves, and it stays below the cap. After a restart no retained sample has a number up to `histLastI`. -/
def ok (s : Viewer) : ViewerStep → Bool
  | .server _ => true
  | .poll => (s.news d).all Sample.isStrict ∧ s.tab.Fresh (s.news d) ∧
      s.tab.hist.length + (s.news d).length ≤ Tab.histMax ∧
      (s.outdated → ∀ x ∈ s.retained d, s.tab.lastI < x.i)

abbrev Along (t : Nat) (es : List ViewerStep) : Prop :=
  Run.Along (step cfg) (fun s e => s.ok d e = true) (init d t) es

/-! ## The invariant -/

variable {cfg d} {s : Viewer}

/-- A retained sample with a number up to `histLastI` is in `HIST`, and `HIST` has no others. -/
structure Shown (d : Str) (s : Viewer) : Prop where
  cur : s.tab.cur = some d
  numbered : (s.server.deviceState d).Numbered
  ids : ∀ x ∈ s.tab.hist, x.i ≤ s.tab.lastI
  sorted : s.tab.hist.Pairwise fun a b => a.time ≤ b.time
  last : s.outdated = false → s.tab.lastI ≤ (s.server.deviceState d).histI
  shown : s.outdated = false → ∀ x ∈ s.retained d, x.i ≤ s.tab.lastI → s.tab.hist.count x = 1

theorem Shown.init (d : Str) (t : Nat) : Shown d (init d t) where
  cur := rfl
  numbered := .empty
  ids := by simp [Viewer.init]
  sorted := List.Pairwise.nil
  last := fun _ => Nat.le_refl 0
  shown := fun _ => by simp [Viewer.init, retained, State.init]

theorem Shown.server (h : Shown d s) (e : ServerStep) : Shown d (s.step cfg (.server e)) := by
  cases e with
  | restart ns =>
      constructor
      · exact h.cur
      · exact .empty
      · exact h.ids
      · exact h.sorted
      · exact nofun
      · exact nofun
  | step e =>
      have hgrows := s.server.step_chart cfg e d
      constructor
      · exact h.cur
      · exact hgrows.numbered h.numbered
      · exact h.ids
      · exact h.sorted
      · exact fun ho => Nat.le_trans (h.last ho) hgrows.histI_le
      · intro ho x hx hle
        rcases hgrows.mem hx with hx | hlt
        · exact h.shown ho x hx hle
        · exact absurd (Nat.le_trans hle (h.last ho)) (Nat.not_le.mpr hlt)

theorem Shown.historySince (h : Shown d s) : historySince (s.retained d) s.tab.lastI 0 = s.news d :=
  historySince_behind (fun x hx => (h.numbered.range x hx).1) s.tab.lastI

theorem Shown.poll_eq (h : Shown d s) (hd : cfg.serves d = true)
    (hstrict : (s.news d).all Sample.isStrict = true) :
    s.step cfg .poll =
      { s with tab := s.tab.merge (s.news d), outdated := s.outdated && (s.news d).isEmpty } := by
  have hasks : s.tab.asks = some d := by
    simp only [Config.serves, Bool.decide_and, Bool.and_eq_true, decide_eq_true_eq] at hd
    simp [Tab.asks, h.cur, hd.1]
  have hsince : Fountainer.historySince (s.server.deviceState d).hist s.tab.lastI 0 = s.news d :=
    h.historySince
  rw [step, hasks]
  dsimp only
  rw [apiHistory_historyQuery hd, hsince, Tab.receive, if_pos hstrict]

theorem Shown.merged (h : Shown d s) (hfresh : s.tab.Fresh (s.news d))
    (hcap : s.tab.hist.length + (s.news d).length ≤ Tab.histMax)
    (hnew : s.outdated = true → ∀ x ∈ s.retained d, s.tab.lastI < x.i) {x : Sample} (hx : x ∈ s.retained d) :
    (s.tab.merge (s.news d)).hist.count x = 1 := by
  rw [(Tab.merge_fresh hfresh hcap).count_eq, List.count_append]
  by_cases hlt : s.tab.lastI < x.i
  · have hin : x ∈ s.news d := List.mem_filter.mpr ⟨hx, by simpa using hlt⟩
    have hold : x ∉ s.tab.hist := fun hmem => absurd (h.ids x hmem) (Nat.not_le.mpr hlt)
    have hnodup : (s.news d).Nodup := h.numbered.nodup.of_map.filter _
    rw [List.count_eq_one_of_mem hnodup hin, List.count_eq_zero.mpr hold]
  · have hout : x ∉ s.news d := fun hmem => hlt (by simpa using (List.mem_filter.mp hmem).2)
    have ho : s.outdated = false := Bool.eq_false_iff.mpr fun ho => hlt (hnew ho x hx)
    rw [List.count_eq_zero.mpr hout, h.shown ho x hx (Nat.not_lt.mp hlt)]

theorem Shown.poll (h : Shown d s) (hd : cfg.serves d = true) (hok : s.ok d .poll = true) :
    Shown d (s.step cfg .poll) ∧ (s.step cfg .poll).Complete d := by
  simp only [ok, Bool.decide_and, Bool.decide_eq_true, Bool.and_eq_true, decide_eq_true_eq] at hok
  obtain ⟨hstrict, hfresh, hcap, hnew⟩ := hok
  rw [h.poll_eq hd hstrict]
  have hshown := fun x (hx : x ∈ s.retained d) => h.merged hfresh hcap hnew hx
  have hsorted := Tab.merge_sorted h.sorted (s.news d)
  have hlast := s.tab.merge_lastI (s.news d)
  obtain ⟨hge, hmax⟩ := Numbered.le_foldl_max ((s.news d).map Sample.i) s.tab.lastI
  refine ⟨⟨(s.tab.merge_cur _).trans h.cur, h.numbered, ?_, hsorted, ?_, fun _ x hx _ => hshown x hx⟩,
    hshown, hsorted⟩
  · intro x hx
    rw [hlast]
    rcases List.mem_append.mp ((Tab.merge_fresh hfresh hcap).mem_iff.mp hx) with hx | hx
    · exact hmax _ (List.mem_map_of_mem hx)
    · exact Nat.le_trans (h.ids x hx) hge
  · intro ho
    have hrange : ∀ x ∈ s.news d, s.tab.lastI < x.i ∧ x.i ≤ (s.server.deviceState d).histI := fun x hx =>
      ⟨by simpa using (List.mem_filter.mp hx).2, (h.numbered.range x (List.mem_filter.mp hx).1).2⟩
    have hle : s.tab.lastI ≤ (s.server.deviceState d).histI := by
      rcases Bool.and_eq_false_iff.mp ho with ho | ho
      · exact h.last ho
      · obtain ⟨x, hx⟩ := List.exists_mem_of_ne_nil _ (by simpa using ho)
        exact Nat.le_trans (Nat.le_of_lt (hrange x hx).1) (hrange x hx).2
    rw [hlast]
    refine Numbered.foldl_max_le hle fun i hi => ?_
    obtain ⟨x, hx, rfl⟩ := List.mem_map.mp hi
    exact (hrange x hx).2

theorem Shown.step (h : Shown d s) (hd : cfg.serves d = true) {e : ViewerStep} (hok : s.ok d e = true) :
    Shown d (s.step cfg e) := by
  cases e with
  | server e => exact h.server e
  | poll => exact (h.poll hd hok).1

/-- After every poll of a run that meets the conditions the chart of the tab is complete. -/
theorem chart_complete (cfg : Config) (d : Str) (hd : cfg.serves d = true) (t : Nat) (es : List ViewerStep)
    (h : Along cfg d t (es ++ [.poll])) : (after cfg d t (es ++ [.poll])).Complete d := by
  obtain ⟨hes, hpoll⟩ := Run.along_append.mp h
  have hshown : Shown d (after cfg d t es) := Run.invariant (fun _ _ hs hok => hs.step hd hok) hes (.init d t)
  rw [after, Run.run_append]
  exact (hshown.poll hd hpoll.1).2

/-! ## Runs on a server with one device -/

/-- The poll of task `t` on connection `c`, answered from a ring. -/
def samplePoll (c t : Nat) (ring : Ring) : List ViewerStep :=
  let reply : HistoryReply := { ring, fields := [], nowMs := 5000, other := [(py "in_reply_to", .str (py "s-1"))] }
  [.server (.step (.tick 4000000000)), .server (.step (.wake t)),
   .server (.step (.recv c (.json (.obj reply.message)))), .server (.step (.sendDone c 0 true))]

def sampleConnect (c : Nat) (rand : Bytes) (clientNonce : String) : List ViewerStep :=
  (sampleHandshake c rand clientNonce).map fun e => .server (.step e)

/-- The first boot of the device, seen by the tab. -/
def sampleView : List ViewerStep :=
  sampleConnect 0 [7] "n" ++ samplePoll 0 2 { boot := 1, readings := [⟨1000, 2400, 0⟩] } ++ [.poll]

theorem chart_complete_sample :
    (after sampleConfig (py "fon-1") 0 (sampleView ++ [.server (.step (.tick 1))] ++ [.poll])).Complete (py "fon-1") ∧
    (after sampleConfig (py "fon-1") 0 (sampleView ++ [.server (.step (.tick 1))] ++ [.poll])).tab.hist.length = 1 := by
  have hrun : Along sampleConfig (py "fon-1") 0 (sampleView ++ [.server (.step (.tick 1))] ++ [.poll]) ∧
      (after sampleConfig (py "fon-1") 0
        (sampleView ++ [.server (.step (.tick 1))] ++ [.poll])).tab.hist.length = 1 := by decide +kernel
  exact ⟨chart_complete sampleConfig (py "fon-1") (by decide) 0 _ hrun.1, hrun.2⟩

/-- After a reboot the first sample has the number 1 again. -/
theorem reboot_hides_samples :
    let run := sampleView ++ [.server (.step (.lost 0)), .server (.step (.stop 0)), .server (.step (.finish 0))] ++
      sampleConnect 1 [8] "m" ++ samplePoll 1 5 { boot := 2, readings := [⟨500, 2500, 0⟩] } ++ [.poll]
    sampleConfig.serves (py "fon-1") = true ∧ (after sampleConfig (py "fon-1") 0 run).tab.hist.length < Tab.histMax ∧
    ¬ (after sampleConfig (py "fon-1") 0 run).Complete (py "fon-1") := by
  decide +kernel

/-- After a restart of the server its first sample has the number 1 again. -/
example :
    let run := sampleView ++ [.server (.restart 0)] ++
      sampleConnect 0 [8] "m" ++ samplePoll 0 2 { boot := 1, first := 2, readings := [⟨500, 2500, 0⟩] } ++ [.poll]
    ¬ (after sampleConfig (py "fon-1") 0 run).Complete (py "fon-1") := by
  decide +kernel

end Viewer

end Fountainer
