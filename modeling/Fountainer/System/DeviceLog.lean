import Fountainer.App.Log
import Fountainer.Library.Run

/-!
# At most one line for a record of the device log

The log pollers of the sessions of one device, the device with its log ring and its previous-boot slot,
and everything else that changes the shadow, in any interleaving. A session reads a boot from the start;
the lines of a boot outlive the session.
-/

namespace Fountainer

/-- `_poll_logs` of one session. -/
inductive LogPoller
  | asleep (p : LogPoll)
  /-- The fields of its request are with the device. -/
  | asked (p : LogPoll) (fields : Dict)
  | answered (p : LogPoll) (r : LogReply)
  | recovered (p : LogPoll) (r : PrevReply)
  | acked (p : LogPoll) (res : Dict)
  | finished

namespace LogPoller

def poll : LogPoller → Option LogPoll
  | .asleep p | .asked p _ | .answered p _ | .recovered p _ | .acked p _ => some p
  | .finished => none

/-- A reply of boot `b` is unread. -/
def holds (b : Int) : LogPoller → Bool
  | .answered _ r => r.ring.boot = b
  | _ => false

def after (o : TaskOut LogPoll) : LogPoller :=
  match o.next with
  | .sleep _ => .asleep o.task
  | .call call => .asked o.task call.body
  | .finish => .finished

end LogPoller

/-- One device and its log pollers. -/
structure LogPull where
  now : Clock := 0
  shadow : Shadow := {}
  ring : LogRing
  /-- The earlier boots. -/
  boots : List Int := []
  pollers : List LogPoller := []
  /-- The lines of all files of the device. -/
  written : List LogLine := []
  /-- Which poller has begun to read which boot, the latest first. -/
  starters : List (Int × Nat) := []

inductive LogStep
  | tick (ns : Nat)
  /-- The rest of the application leaves the shadow `st`. -/
  | app (st : Shadow)
  /-- A session is connected. -/
  | connect
  | record (skipped : Nat) (fields : Dict)
  | overwrite
  | reboot (boot : Int)
  | wake (k : Nat)
  | answer (k : Nat) (omitted : List Int) (other : Dict)
  | answerPrev (k : Nat) (r : PrevReply)
  | answerAck (k : Nat) (res : Dict)
  | deliver (k : Nat)
  /-- The request of poller `k` raises. -/
  | fail (k : Nat)

namespace LogPull

/-- Poller `k` goes on until it suspends. -/
def resume (s : LogPull) (k : Nat) (p : LogPoll) (res : Except PyErr Dict) : LogPull :=
  let o := p.resume s.shadow s.now res
  { s with shadow := o.shadow, written := s.written ++ o.written, pollers := s.pollers.set k (.after o) }

/-- A reply to `log_read` is read. -/
def deliver (s : LogPull) (k : Nat) (p : LogPoll) (r : LogReply) : LogPull :=
  { s.resume k p (.ok r.message) with
    starters := if p.bootId = some r.ring.boot then s.starters else (r.ring.boot, k) :: s.starters }

def step (s : LogPull) : LogStep → LogPull
  | .tick ns => { s with now := s.now + ns }
  | .app st => { s with shadow := st }
  | .connect => { s with pollers := s.pollers ++ [.asleep { started := s.now }] }
  | .record skipped fields => { s with ring := s.ring.record skipped fields }
  | .overwrite => { s with ring := s.ring.overwrite }
  | .reboot boot =>
      if boot = s.ring.boot ∨ boot ∈ s.boots then s
      else { s with ring := { boot }, boots := s.ring.boot :: s.boots }
  | .wake k => match s.pollers[k]? with
      | some (.asleep p) => s.resume k p (.ok [])
      | _ => s
  | .answer k omitted other => match s.pollers[k]? with
      | some (.asked p fields) =>
          if p.stage = .batch then
            { s with pollers := s.pollers.set k (.answered p { ring := s.ring, fields, omitted, other }) }
          else s
      | _ => s
  | .answerPrev k r => match s.pollers[k]? with
      | some (.asked p _) =>
          if p.stage = .prev ∧ ∀ slot ∈ r.slot, slot.boot ∈ s.boots then
            { s with pollers := s.pollers.set k (.recovered p r) }
          else s
      | _ => s
  | .answerAck k res => match s.pollers[k]? with
      | some (.asked p _) =>
          if p.stage = .ack then { s with pollers := s.pollers.set k (.acked p res) } else s
      | _ => s
  | .deliver k => match s.pollers[k]? with
      | some (.answered p r) => s.deliver k p r
      | some (.recovered p r) => s.resume k p (.ok r.message)
      | some (.acked p res) => s.resume k p (.ok res)
      | _ => s
  | .fail k => match s.pollers[k]? with
      | some (.asked p _) | some (.answered p _) | some (.recovered p _) | some (.acked p _) =>
          s.resume k p (.error .timeoutError)
      | _ => s

/-- A device with earlier boots and a server that has not seen it. -/
def init (boot : Int) (boots : List Int) : LogPull := { ring := { boot }, boots }

abbrev after (boot : Int) (boots : List Int) (es : List LogStep) : LogPull :=
  Run.run step (init boot boots) es

/-- `<boot_id>.jsonl`. -/
def file (s : LogPull) (boot : Int) : List LogLine := s.written.filter fun l => l.bootId = boot

/-- Every record is in the file of its boot at most once. -/
def AtMostOnce (s : LogPull) : Prop :=
  ∀ boot q : Int, (s.file boot).countP (fun l => l.record.get (py "s") = .int q) ≤ 1

/-- There is a line for record `q` of the boot. -/
def Has (s : LogPull) (boot q : Int) : Prop := (boot, Json.int q) ∈ s.written.map LogLine.key

instance (s : LogPull) (boot q : Int) : Decidable (s.Has boot q) :=
  inferInstanceAs (Decidable ((boot, Json.int q) ∈ s.written.map LogLine.key))

/-- A poller begins to read a boot only while the ring holds no record of it that the file has. Records
are stored only by the poller that has begun last. The previous-boot log is stored only where the file
has none of its records and no poller holds a reply of that boot. A boot id is not 0. -/
def ok (s : LogPull) : LogStep → Bool
  | .deliver k => match s.pollers[k]? with
      | some (.answered p r) =>
          r.ring.boot ≠ 0 ∧
            if p.bootId = some r.ring.boot then
              r.rows = [] ∨ s.starters.lookup r.ring.boot = some k
            else
              s.ring.boot = r.ring.boot → ∀ x ∈ s.ring.records, ¬ s.Has r.ring.boot x.1
      | some (.recovered _ r) => ∀ slot ∈ r.slot, slot.records = [] ∨
          ((∀ x ∈ slot.records, ¬ s.Has slot.boot x.1) ∧ ∀ e ∈ s.pollers, e.holds slot.boot = false)
      | _ => true
  | _ => true

abbrev Along (boot : Int) (boots : List Int) (es : List LogStep) : Prop :=
  Run.Along step (fun s e => s.ok e = true) (init boot boots) es

/-! ## The invariant -/

/-- The boot is the present one or an earlier one. -/
def Known (s : LogPull) (b : Int) : Prop := b = s.ring.boot ∨ b ∈ s.boots

/-- What a poller waits for fits its stage. -/
def Fits (s : LogPull) : LogPoller → Prop
  | .asleep p => p.stage.sleeps = true
  | .asked p fields => p.stage = .batch → fields = (logReadCall p.lastSeq).body
  | .answered p r => p.stage = .batch ∧ r.since = p.lastSeq ∧ s.Known r.ring.boot ∧
      (r.ring.boot = s.ring.boot → r.ring.top ≤ s.ring.top)
  | .recovered p r => p.stage = .prev ∧ ∀ slot ∈ r.slot, slot.boot ∈ s.boots
  | .acked p _ => p.stage = .ack
  | .finished => True

/-- The poller can still store record `q` of boot `b`: it reads this boot, and the record is behind its
cursor in the ring or in its unread reply. -/
def Can (s : LogPull) (e : LogPoller) (b q : Int) : Prop :=
  ∃ p, e.poll = some p ∧ p.bootId = some b ∧ p.lastSeq < q ∧
    ((s.ring.boot = b ∧ q ∈ s.ring.records.map Prod.fst) ∨
      ∃ r, e = .answered p r ∧ r.ring.boot = b ∧ q ∈ r.rows.map Prod.fst)

structure Kept (s : LogPull) : Prop where
  fresh : s.ring.boot ∉ s.boots
  known : ∀ b q, (b, q) ∈ s.written.map LogLine.key → s.Known b
  below : ∀ q, s.Has s.ring.boot q → q ≤ s.ring.top
  nodup : (s.written.map LogLine.key).Nodup
  fits : ∀ (k : Nat) e, s.pollers[k]? = some e → s.Fits e
  owner : ∀ b (k : Nat) e q, s.starters.lookup b = some k → s.pollers[k]? = some e → s.Can e b q →
    ¬ s.Has b q

variable {s : LogPull}

theorem Kept.init {boot : Int} {boots : List Int} (h : boot ∉ boots) : Kept (init boot boots) where
  fresh := h
  known := by simp [LogPull.init]
  below := by simp [LogPull.init, Has]
  nodup := .nil
  fits := by simp [LogPull.init]
  owner := by simp [LogPull.init]

theorem Kept.atMostOnce (h : Kept s) : s.AtMostOnce := by
  intro boot q
  have hle : (s.written.map LogLine.key).count (boot, .int q) ≤ 1 := List.nodup_iff_count_le_one.mp h.nodup _
  rw [List.count_eq_countP, List.countP_map] at hle
  refine Nat.le_trans ?_ hle
  rw [file, List.countP_filter]
  refine List.countP_mono_left fun l _ hl => ?_
  simpa [LogLine.key, and_comm] using hl

/-- The pollers and what they store change. -/
theorem Kept.store (h : Kept s) {st : Shadow} {lines : List LogLine} {ps : List LogPoller}
    {starters : List (Int × Nat)} (hknown : ∀ b q, (b, q) ∈ lines.map LogLine.key → s.Known b)
    (hbelow : ∀ q, (s.ring.boot, Json.int q) ∈ lines.map LogLine.key → q ≤ s.ring.top)
    (hnodup : (lines.map LogLine.key).Nodup)
    (hnew : ∀ x ∈ lines.map LogLine.key, x ∉ s.written.map LogLine.key)
    (hfits : ∀ (k : Nat) e, ps[k]? = some e → s.Fits e)
    (howner : ∀ b (k : Nat) e q, starters.lookup b = some k → ps[k]? = some e → s.Can e b q →
      ¬ s.Has b q ∧ (b, Json.int q) ∉ lines.map LogLine.key) :
    Kept { s with shadow := st, written := s.written ++ lines, pollers := ps, starters } where
  fresh := h.fresh
  known := by
    intro b q hq
    rw [List.map_append] at hq
    rcases List.mem_append.mp hq with hq | hq
    · exact h.known b q hq
    · exact hknown b q hq
  below := by
    intro q hq
    rw [Has, List.map_append] at hq
    rcases List.mem_append.mp hq with hq | hq
    · exact h.below q hq
    · exact hbelow q hq
  nodup := by
    rw [List.map_append]
    exact List.nodup_append.mpr ⟨h.nodup, hnodup, fun x hx y hy he => hnew y hy (he ▸ hx)⟩
  fits := hfits
  owner := by
    intro b k e q hk he hcan hq
    obtain ⟨hold, hline⟩ := howner b k e q hk he hcan
    rw [Has, List.map_append] at hq
    rcases List.mem_append.mp hq with hq | hq
    · exact hold hq
    · exact hline hq

/-! ## Steps of the device -/

theorem Fits.mono {s' : LogPull} {e : LogPoller} (h : s.Fits e) (hk : ∀ b, s.Known b → s'.Known b)
    (hb : ∀ b ∈ s.boots, b ∈ s'.boots)
    (ht : ∀ b, s.Known b → b = s'.ring.boot → b = s.ring.boot ∧ s.ring.top ≤ s'.ring.top) : s'.Fits e := by
  cases e with
  | answered p r =>
      obtain ⟨hstage, hsince, hknown, htop⟩ := h
      refine ⟨hstage, hsince, hk _ hknown, fun he => ?_⟩
      obtain ⟨he, hle⟩ := ht _ hknown he
      exact Int.le_trans (htop he) hle
  | recovered p r => exact ⟨h.1, fun slot hslot => hb _ (h.2 slot hslot)⟩
  | _ => exact h

/-- The ring of the same boot moves on: what is new in it has a new number. -/
theorem Kept.setRing (h : Kept s) {r : LogRing} (hb : r.boot = s.ring.boot) (ht : s.ring.top ≤ r.top)
    (hr : ∀ x ∈ r.records, x ∈ s.ring.records ∨ s.ring.top < x.1) : Kept { s with ring := r } where
  fresh := by
    rw [hb]
    exact h.fresh
  known := fun b q hq => (h.known b q hq).imp (fun he => he.trans hb.symm) id
  below := by
    intro q hq
    rw [hb] at hq
    exact Int.le_trans (h.below q hq) ht
  nodup := h.nodup
  fits := by
    intro k e he
    refine Fits.mono (h.fits k e he) (fun b hk => hk.imp (fun he => he.trans hb.symm) id) (fun _ => id) ?_
    exact fun b _ he => ⟨he.trans hb, ht⟩
  owner := by
    rintro b k e q hk he ⟨p, hp, hpb, hlt, hq⟩ hhas
    rcases hq with ⟨hrb, hq⟩ | hq
    · obtain ⟨x, hx, rfl⟩ := List.mem_map.mp hq
      have hsb : s.ring.boot = b := hb.symm.trans hrb
      rcases hr x hx with hx | hx
      · exact h.owner b k e _ hk he ⟨p, hp, hpb, hlt, .inl ⟨hsb, List.mem_map_of_mem hx⟩⟩ hhas
      · subst hsb
        exact absurd (h.below _ hhas) (Int.not_le.mpr hx)
    · exact h.owner b k e q hk he ⟨p, hp, hpb, hlt, .inr hq⟩ hhas

theorem Kept.record (h : Kept s) (skipped : Nat) (fields : Dict) :
    Kept { s with ring := s.ring.record skipped fields } := by
  refine h.setRing rfl ?_ fun x hx => ?_
  · change s.ring.top ≤ s.ring.top + 1 + skipped
    omega
  · rcases List.mem_append.mp hx with hx | hx
    · exact .inl hx
    · cases List.mem_singleton.mp hx
      right
      dsimp only
      omega

/-- No line and no reply is of the boot that begins. -/
theorem Kept.reboot (h : Kept s) {boot : Int} (hne : boot ≠ s.ring.boot) (hnew : boot ∉ s.boots) :
    Kept { s with ring := { boot }, boots := s.ring.boot :: s.boots } := by
  have hknown : ∀ b, s.Known b → b ∈ s.ring.boot :: s.boots ∧ b ≠ boot := by
    intro b hb
    rcases hb with rfl | hb
    · exact ⟨List.mem_cons_self, fun he => hne he.symm⟩
    · exact ⟨List.mem_cons_of_mem _ hb, fun he => hnew (he ▸ hb)⟩
  constructor
  · intro hmem
    rcases List.mem_cons.mp hmem with he | hmem
    · exact hne he
    · exact hnew hmem
  · exact fun b q hq => .inr (hknown b (h.known b q hq)).1
  · exact fun q hq => absurd rfl (hknown _ (h.known _ _ hq)).2
  · exact h.nodup
  · intro k e he
    refine Fits.mono (h.fits k e he) (fun b hb => .inr (hknown b hb).1)
      (fun b hb => List.mem_cons_of_mem _ hb) ?_
    exact fun b hb he => absurd he (hknown b hb).2
  · rintro b k e q hk he ⟨p, hp, hpb, hlt, ⟨-, hq⟩ | hq⟩ hhas
    · cases hq
    · exact h.owner b k e q hk he ⟨p, hp, hpb, hlt, .inr hq⟩ hhas

/-! ## Steps of a poller -/

theorem Kept.setPollers (h : Kept s) {st : Shadow} {now : Clock} {ps : List LogPoller}
    (hfits : ∀ (k : Nat) e, ps[k]? = some e → s.Fits e)
    (hcan : ∀ b (k : Nat) e q, ps[k]? = some e → s.Can e b q →
      ∃ e₀, s.pollers[k]? = some e₀ ∧ s.Can e₀ b q) :
    Kept { s with shadow := st, now, pollers := ps } where
  fresh := h.fresh
  known := h.known
  below := h.below
  nodup := h.nodup
  fits := hfits
  owner := by
    intro b k e q hk he hc
    obtain ⟨e₀, he₀, hc₀⟩ := hcan b k e q he hc
    exact h.owner b k e₀ q hk he₀ hc₀

theorem Kept.fits_set (h : Kept s) {k : Nat} {e : LogPoller} (he : s.Fits e) :
    ∀ (k' : Nat) e', (s.pollers.set k e)[k']? = some e' → s.Fits e' := by
  intro k' e' he'
  rcases Numbered.set_cases he' with ⟨-, rfl⟩ | ⟨-, he'⟩
  · exact he
  · exact h.fits k' e' he'

theorem Kept.setPoller (h : Kept s) {st : Shadow} {k : Nat} {e e' : LogPoller}
    (he : s.pollers[k]? = some e) (hfits : s.Fits e') (hcan : ∀ b q, s.Can e' b q → s.Can e b q) :
    Kept { s with shadow := st, pollers := s.pollers.set k e' } := by
  refine h.setPollers (h.fits_set hfits) ?_
  intro b k' e'' q he'' hc
  rcases Numbered.set_cases he'' with ⟨rfl, rfl⟩ | ⟨-, he''⟩
  · exact ⟨e, he, hcan b q hc⟩
  · exact ⟨e'', he'', hc⟩

theorem after_fits {p : LogPoll} {lines : List LogLine} {o : TaskOut LogPoll} (hg : p.Goes lines o) :
    s.Fits (.after o) := by
  unfold LogPoller.after
  rcases hg.next with ⟨hs, ns, hn⟩ | hn | ⟨hs, hn⟩ <;> rw [hn]
  · exact hs
  · trivial
  · intro _
    rw [hg.lastSeq]

theorem after_can {p : LogPoll} {lines : List LogLine} {o : TaskOut LogPoll} (hg : p.Goes lines o)
    {b q : Int} (h : s.Can (.after o) b q) :
    p.bootId = some b ∧ p.lastSeq < q ∧ s.ring.boot = b ∧ q ∈ s.ring.records.map Prod.fst := by
  obtain ⟨p', hp, hb, hlt, hq⟩ := h
  unfold LogPoller.after at hp hq
  rcases hg.next with ⟨hs, ns, hn⟩ | hn | ⟨hs, hn⟩ <;> rw [hn] at hp hq
  · cases hp
    rw [hg.bootId] at hb
    rw [hg.lastSeq] at hlt
    rcases hq with hq | ⟨r, he, -⟩
    · exact ⟨hb, hlt, hq⟩
    · cases he
  · cases hp
  · cases hp
    rw [hg.bootId] at hb
    rw [hg.lastSeq] at hlt
    rcases hq with hq | ⟨r, he, -⟩
    · exact ⟨hb, hlt, hq⟩
    · cases he

theorem Kept.goes (h : Kept s) {k : Nat} {e : LogPoller} {p : LogPoll} {res : Except PyErr Dict}
    (he : s.pollers[k]? = some e) (hp : e.poll = some p)
    (hg : p.Goes [] (p.resume s.shadow s.now res)) : Kept (s.resume k p res) := by
  unfold LogPull.resume
  simp only [hg.written, List.append_nil]
  refine h.setPoller he (after_fits hg) fun b q hc => ?_
  obtain ⟨hb, hlt, hq⟩ := after_can hg hc
  exact ⟨p, hp, hb, hlt, .inl hq⟩

theorem Kept.answer (h : Kept s) {k : Nat} {p : LogPoll} {fields : Dict}
    (he : s.pollers[k]? = some (.asked p fields)) (hs : p.stage = .batch) {r : LogReply}
    (hr : r.ring = s.ring) (hf : r.fields = fields) :
    Kept { s with pollers := s.pollers.set k (.answered p r) } := by
  have hsince : r.since = p.lastSeq := LogReply.since_of_logRead (hf.trans (h.fits k _ he hs))
  refine h.setPoller he ⟨hs, hsince, .inl (by rw [hr]), fun _ => by rw [hr]⟩ ?_
  rintro b q ⟨p', hp, hb, hlt, hq | ⟨r', her, hrb, hq⟩⟩
  · cases hp
    exact ⟨p, rfl, hb, hlt, .inl hq⟩
  · cases hp
    cases her
    obtain ⟨x, hx, rfl⟩ := List.mem_map.mp hq
    have hmem := (r.mem_rows hx).1
    rw [hr] at hrb hmem
    exact ⟨p, rfl, hb, hlt, .inl ⟨hrb, List.mem_map_of_mem hmem⟩⟩

theorem Kept.hold (h : Kept s) {k : Nat} {p : LogPoll} {fields : Dict} {e : LogPoller}
    (he : s.pollers[k]? = some (.asked p fields)) (hp : e.poll = some p) (hfits : s.Fits e)
    (hne : ∀ r, e ≠ .answered p r) : Kept { s with pollers := s.pollers.set k e } := by
  refine h.setPoller he hfits ?_
  rintro b q ⟨p', hp', hb, hlt, hq | ⟨r, her, -⟩⟩
  · cases hp.symm.trans hp'
    exact ⟨p, rfl, hb, hlt, .inl hq⟩
  · cases hp.symm.trans hp'
    exact absurd her (hne r)

theorem Kept.connect (h : Kept s) {p : LogPoll} (hs : p.stage.sleeps = true) (hb : p.bootId = none) :
    Kept { s with pollers := s.pollers ++ [.asleep p] } := by
  have hcases : ∀ (k : Nat) e, (s.pollers ++ [.asleep p])[k]? = some e →
      s.pollers[k]? = some e ∨ e = .asleep p := by
    intro k e he
    rw [List.getElem?_append] at he
    split at he
    · exact .inl he
    · rw [List.getElem?_singleton] at he
      split at he
      · exact .inr (Option.some.inj he).symm
      · cases he
  refine h.setPollers ?_ ?_
  · intro k e he
    rcases hcases k e he with he | rfl
    · exact h.fits k e he
    · exact hs
  · intro b k e q he hc
    rcases hcases k e he with he | rfl
    · exact ⟨e, he, hc⟩
    · obtain ⟨p', hp, hb', -⟩ := hc
      cases hp
      cases hb.symm.trans hb'

/-! ## Replies are read -/

/-- A poller begins to read a boot of which the ring holds nothing that the file has. -/
theorem Kept.starts (h : Kept s) {k : Nat} {p : LogPoll} {r : LogReply}
    (he : s.pollers[k]? = some (.answered p r)) (h0 : r.ring.boot ≠ 0)
    (hb : p.bootId ≠ some r.ring.boot)
    (hring : s.ring.boot = r.ring.boot → ∀ x ∈ s.ring.records, ¬ s.Has r.ring.boot x.1) :
    Kept (s.deliver k p r) := by
  obtain ⟨hstage, -⟩ := h.fits k _ he
  obtain ⟨st, ho⟩ := p.onBatch_starts s.shadow s.now h0 hb
  have hres : p.resume s.shadow s.now (.ok r.message) = p.onBatch s.shadow s.now r.message := by
    simp only [LogPoll.resume, hstage]
  unfold LogPull.deliver LogPull.resume
  simp only [hres, ho, if_neg hb]
  refine h.store (by simp) (by simp) .nil (by simp) (h.fits_set ?_) ?_
  · exact fun hs => LogStage.noConfusion hs
  · intro b k' e' q hk' he' hc
    refine ⟨fun hhas => ?_, List.not_mem_nil⟩
    rcases Numbered.set_cases he' with ⟨rfl, rfl⟩ | ⟨hne, he'⟩
    · obtain ⟨p', hp', hpb, -, ⟨hsb, hq⟩ | ⟨_, ha, -⟩⟩ := hc
      · cases hp'
        cases hpb
        obtain ⟨x, hx, rfl⟩ := List.mem_map.mp hq
        exact hring hsb x hx hhas
      · cases ha
    · rw [List.lookup_cons] at hk'
      split at hk'
      · exact hne (Option.some.inj hk').symm
      · exact h.owner b k' e' q hk' he' hc hhas

/-- The poller that has begun last stores the records of its reply. -/
theorem Kept.stores (h : Kept s) {k : Nat} {p : LogPoll} {r : LogReply}
    (he : s.pollers[k]? = some (.answered p r)) (hb : p.bootId = some r.ring.boot)
    (howner : r.rows = [] ∨ s.starters.lookup r.ring.boot = some k) : Kept (s.deliver k p r) := by
  obtain ⟨hstage, hsince, hknown, htop⟩ := h.fits k _ he
  obtain ⟨p', hpb, hps, hg⟩ := p.onBatch_stores s.shadow s.now hb
  have hres : p.resume s.shadow s.now (.ok r.message) = p.onBatch s.shadow s.now r.message := by
    simp only [LogPoll.resume, hstage]
  have hnew : ∀ x ∈ r.rows, ¬ s.Has r.ring.boot x.1 := by
    intro x hx
    have hk := howner.resolve_left (List.ne_nil_of_mem hx)
    refine h.owner _ k _ x.1 hk he ⟨p, rfl, hb, ?_, .inr ⟨r, rfl, rfl, List.mem_map_of_mem hx⟩⟩
    exact hsince ▸ (r.mem_rows hx).2
  unfold LogPull.deliver LogPull.resume
  simp only [hres, if_pos hb, hg.written]
  refine h.store ?_ ?_ (lines_nodup _ _ r.rows_sorted) ?_ (h.fits_set (after_fits hg)) ?_
  · intro b v hv
    exact (mem_lines_keys hv).1 ▸ hknown
  · intro q hq
    obtain ⟨hrb, x, hx, hxq⟩ := mem_lines_keys hq
    cases hxq
    exact Int.le_trans (r.ring.le_top x (r.mem_rows hx).1) (htop hrb.symm)
  · intro y hy hmem
    obtain ⟨hyb, x, hx, hyx⟩ := mem_lines_keys hy
    exact hnew x hx (by rwa [Has, ← hyb, ← hyx])
  · intro b k' e' q hk' he' hc
    rcases Numbered.set_cases he' with ⟨rfl, rfl⟩ | ⟨hne, he'⟩
    · obtain ⟨hb', hlt, hring⟩ := after_can hg hc
      have hle : p.lastSeq ≤ p'.lastSeq := by
        rw [hps, ← hsince]
        exact r.le_lastSeq
      refine ⟨h.owner b _ _ q hk' he
        ⟨p, rfl, hpb.symm.trans hb', Int.lt_of_le_of_lt hle hlt, .inl hring⟩, fun hmem => ?_⟩
      obtain ⟨-, x, hx, hxq⟩ := mem_lines_keys hmem
      cases hxq
      rw [hps] at hlt
      exact Int.not_le.mpr hlt (r.rows_sorted.le_last hx _)
    · refine ⟨h.owner b k' e' q hk' he' hc, fun hmem => ?_⟩
      obtain ⟨hrb, x, hx, -⟩ := mem_lines_keys hmem
      rw [hrb, howner.resolve_left (List.ne_nil_of_mem hx)] at hk'
      exact hne (Option.some.inj hk').symm

/-- The previous-boot log is stored where the file has none of it. -/
theorem Kept.recovers (h : Kept s) {k : Nat} {p : LogPoll} {r : PrevReply}
    (he : s.pollers[k]? = some (.recovered p r))
    (hslot : ∀ slot ∈ r.slot, slot.records = [] ∨
      ((∀ x ∈ slot.records, ¬ s.Has slot.boot x.1) ∧ ∀ e ∈ s.pollers, e.holds slot.boot = false)) :
    Kept (s.resume k p (.ok r.message)) := by
  obtain ⟨hstage, hboots⟩ := h.fits k _ he
  have hres : p.resume s.shadow s.now (.ok r.message) = p.onPrev s.shadow s.now r.message := by
    simp only [LogPoll.resume, hstage]
  rcases p.onPrev_goes s.shadow s.now r with ⟨-, hg⟩ | ⟨slot, st, hs, ho⟩
  · exact h.goes he rfl (hres ▸ hg)
  · have hold := hboots slot hs
    have hpast : slot.boot ≠ s.ring.boot := fun he => h.fresh (he ▸ hold)
    unfold LogPull.resume
    simp only [hres, ho]
    refine h.store ?_ ?_ (lines_nodup _ _ slot.sorted) ?_ (h.fits_set ?_) ?_
    · intro b v hv
      exact .inr ((mem_lines_keys hv).1 ▸ hold)
    · exact fun q hq => absurd (mem_lines_keys hq).1.symm hpast
    · intro y hy hmem
      obtain ⟨hyb, x, hx, hyx⟩ := mem_lines_keys hy
      have hnew := ((hslot slot hs).resolve_left (List.ne_nil_of_mem hx)).1 x hx
      exact hnew (by rwa [Has, ← hyb, ← hyx])
    · exact fun hs => LogStage.noConfusion hs
    · intro b k' e' q hk' he' hc
      rcases Numbered.set_cases he' with ⟨rfl, rfl⟩ | ⟨-, he'⟩
      · obtain ⟨p', hp', hb, hlt, hring | ⟨_, ha, -⟩⟩ := hc
        · cases hp'
          refine ⟨h.owner b _ _ q hk' he ⟨p, rfl, hb, hlt, .inl hring⟩, fun hmem => ?_⟩
          exact hpast ((mem_lines_keys hmem).1.symm.trans hring.1.symm)
        · cases ha
      · refine ⟨h.owner b k' e' q hk' he' hc, fun hmem => ?_⟩
        obtain ⟨rfl, x, hx, -⟩ := mem_lines_keys hmem
        obtain ⟨p', -, -, -, hring | ⟨r', rfl, hrb, -⟩⟩ := hc
        · exact hpast hring.1.symm
        · have hnone := ((hslot slot hs).resolve_left (List.ne_nil_of_mem hx)).2 _
            (List.mem_of_getElem? he')
          simp [LogPoller.holds, hrb] at hnone

/-! ## Runs -/

theorem Kept.step (h : Kept s) {e : LogStep} (hok : s.ok e = true) : Kept (s.step e) := by
  cases e with
  | tick ns => exact h.setPollers h.fits fun b k e q he hc => ⟨e, he, hc⟩
  | app st => exact h.setPollers h.fits fun b k e q he hc => ⟨e, he, hc⟩
  | connect => exact h.connect rfl rfl
  | record skipped fields => exact h.record skipped fields
  | overwrite => exact h.setRing rfl (Int.le_refl _) fun x hx => .inl (List.mem_of_mem_tail hx)
  | reboot boot =>
      simp only [LogPull.step]
      split
      · exact h
      · rename_i hb
        exact h.reboot (fun he => hb (.inl he)) (fun hm => hb (.inr hm))
  | wake k =>
      simp only [LogPull.step]
      split
      · rename_i p he
        have hs : p.stage.sleeps = true := h.fits k _ he
        refine h.goes he rfl ?_
        rw [LogPoll.resume_sleeps hs]
        exact p.head_goes s.shadow []
      · exact h
  | answer k omitted other =>
      simp only [LogPull.step]
      split
      · rename_i p fields he
        split
        · rename_i hs
          exact h.answer he hs rfl rfl
        · exact h
      · exact h
  | answerPrev k r =>
      simp only [LogPull.step]
      split
      · rename_i p fields he
        split
        · rename_i hs
          exact h.hold he rfl hs (fun _ => LogPoller.noConfusion)
        · exact h
      · exact h
  | answerAck k res =>
      simp only [LogPull.step]
      split
      · rename_i p fields he
        split
        · rename_i hs
          exact h.hold he rfl hs (fun _ => LogPoller.noConfusion)
        · exact h
      · exact h
  | deliver k =>
      simp only [LogPull.step]
      simp only [ok] at hok
      split
      · rename_i p r he
        simp only [he, decide_eq_true_eq] at hok
        by_cases hb : p.bootId = some r.ring.boot
        · rw [if_pos hb] at hok
          exact h.stores he hb hok.2
        · rw [if_neg hb] at hok
          exact h.starts he hok.1 hb hok.2
      · rename_i p r he
        simp only [he, decide_eq_true_eq] at hok
        exact h.recovers he hok
      · rename_i p res he
        have hs : p.stage = .ack := h.fits k _ he
        refine h.goes he rfl ?_
        simp only [LogPoll.resume, hs]
        exact p.head_goes s.shadow []
      · exact h
  | fail k =>
      simp only [LogPull.step]
      split
      · exact h.goes ‹_› rfl (LogPoll.error_goes ..)
      · exact h.goes ‹_› rfl (LogPoll.error_goes ..)
      · exact h.goes ‹_› rfl (LogPoll.error_goes ..)
      · exact h.goes ‹_› rfl (LogPoll.error_goes ..)
      · exact h

/-- At most one line for every record in a run whose steps meet the condition. -/
theorem logged_at_most_once {boot : Int} {boots : List Int} {es : List LogStep} (hboot : boot ∉ boots)
    (h : Along boot boots es) : (after boot boots es).AtMostOnce :=
  (Run.invariant (fun _ _ hs hok => Kept.step hs hok) h (Kept.init hboot)).atMostOnce

/-- Poller `k` reads a boot from the start. -/
def sampleStart (k : Nat) (r : PrevReply) : List LogStep :=
  [.wake k, .answer k [] [], .deliver k, .answerPrev k r, .deliver k]

def sampleRead (k : Nat) : List LogStep := [.answer k [] [], .deliver k]

def sampleSlot : Slot :=
  { boot := 3, records := [(90, [(py "t", .str (py "wd timeout"))]), (91, [])], sorted := by decide }

/-- The log of the boot before, two batches, a reboot, and a reconnect after the ring has moved on. -/
def sampleLog : List LogStep :=
  [.app { online := true }, .connect, .record 0 [(py "t", .str (py "boot"))], .record 0 []]
    ++ sampleStart 0 { slot := some sampleSlot } ++ [.answerAck 0 [], .deliver 0] ++ sampleRead 0
    ++ [.record 4 [], .wake 0] ++ sampleRead 0
    ++ [.reboot 8, .record 0 []] ++ sampleStart 0 { slot := none } ++ sampleRead 0
    ++ [.overwrite, .connect, .record 0 []] ++ sampleStart 1 { slot := none } ++ sampleRead 1

theorem logged_at_most_once_sample :
    (after 7 [3] sampleLog).written.map LogLine.key =
      [(3, .int 90), (3, .int 91), (7, .int 1), (7, .int 2), (7, .int 7), (8, .int 1), (8, .int 2)] ∧
    (after 7 [3] sampleLog).AtMostOnce :=
  ⟨by decide +kernel, logged_at_most_once (by decide) (by decide +kernel)⟩

/-- A second session within one boot, while the ring still holds what the first one has read. -/
def sampleReconnect : List LogStep :=
  [.app { online := true }, .connect, .record 0 []] ++ sampleStart 0 { slot := none } ++ sampleRead 0
    ++ [.connect] ++ sampleStart 1 { slot := none } ++ sampleRead 1

/-- `last_seq` and `boot_id` start over with the session, so the record is appended again. -/
theorem reconnect_logs_twice :
    ¬ ∀ boot boots es, boot ∉ boots → (after boot boots es).AtMostOnce := by
  intro h
  have hle := h 7 [] sampleReconnect List.not_mem_nil 7 1
  have htwice : ((after 7 [] sampleReconnect).file 7).countP
      (fun l => l.record.get (py "s") = .int 1) = 2 := by decide +kernel
  omega

end LogPull

end Fountainer
