import Fountainer.System.Mirror

/-!
# Steps in lockstep

A step of one device does the same to a server and to its mirror.
-/

namespace Fountainer

variable {cfg : Config} {d : Str} {r : Renaming} {s v : State} {i j : Nat} {x : Conn}

/-- A server and its mirror after the same operation on a connection, with the same result. -/
structure Lockstep (d : Str) (r : Renaming) (i : Nat) {α : Type} (p q : State × α) : Prop where
  mirrors : Mirrors d r p.1 q.1
  present : i < q.1.nextConn
  result : p.2 = q.2

theorem State.modLink_nextConn (s : State) (c : Nat) (f : Link → Link) : (s.modLink c f).nextConn = s.nextConn := by
  unfold modLink
  split <;> rfl

namespace Mirrors

theorem setPc (h : Mirrors d r s v) (hi : i < v.nextConn) (pc : Pc) :
    Mirrors d r (s.setPc (r.conn i) pc) (v.setPc i pc) := by
  obtain ⟨x, hx, hsx, -⟩ := h.conn hi
  simp only [State.setPc, hx, hsx]
  exact h.setConn hx _ rfl

theorem modLink (h : Mirrors d r s v) (hi : i < v.nextConn) (f : Link → Link) :
    Mirrors d r (s.modLink (r.conn i) f) (v.modLink i f) := by
  obtain ⟨x, hx, hsx, -⟩ := h.conn hi
  simp only [State.modLink, hx, hsx]
  exact h.setConn hx _ rfl

theorem startOn (h : Mirrors d r s v) (hi : i < v.nextConn) (call : Call) :
    Lockstep d r i (s.startOn (r.conn i) call) (v.startOn i call) := by
  obtain ⟨x, hx, hsx, -⟩ := h.conn hi
  simp only [State.startOn, hx, hsx, h.now]
  exact ⟨h.setConn hx _ rfl, hi, rfl⟩

/-! ## Background tasks -/

theorem spawnTasks (h : Mirrors d r s v) (hi : i < v.nextConn) :
    Mirrors d r (s.spawnTasks (r.conn i)) (v.spawnTasks i) := by
  have h₁ := h.addTask ⟨i, .fetchConfig false, .asleep (v.now + seconds 2)⟩ hi
  have h₂ := h₁.addTask ⟨i, .pollLogs { started := v.now }, .asleep (v.now + seconds 3)⟩ hi
  have h₃ := h₂.addTask ⟨i, .pollHistory .asleep, .asleep (v.now + seconds 4)⟩ hi
  unfold State.spawnTasks
  rw [h.now]
  exact h₃

theorem runTask (h : Mirrors d r s v) {y y₀ : Task} (hy₀ : v.tasks j = some y₀) (hc : y₀.conn = y.conn)
    (res : Except PyErr Dict) (fuel : Nat) :
    Mirrors d r (s.runTask cfg (r.task j) (r.apply y) res fuel) (v.runTask cfg j y res fuel) := by
  have hi : y.conn < v.nextConn := by
    obtain ⟨y', hy', -, hlt⟩ := h.task (h.taskNumbered j y₀ hy₀)
    rw [hy₀] at hy'
    cases hy'
    rwa [← hc]
  induction fuel generalizing s v y res with
  | zero => exact h.setTask hy₀ { y with state := .finished } hc.symm
  | succ fuel ih =>
      obtain ⟨x, hx, hsx, hd⟩ := h.conn hi
      have hconn : (r.apply y).conn = r.conn y.conn := rfl
      have hbody : (r.apply y).body = y.body := rfl
      simp only [State.runTask, hconn, hbody, hx, hsx, hd, h.now, h.shadow]
      have hstore := h.store (y.body.resume cfg.limits (v.deviceState d) v.now res)
      generalize y.body.resume cfg.limits (v.deviceState d) v.now res = o at hstore ⊢
      have hset : ∀ st, Mirrors d r
          ((s.store d o).setTask (r.task j) (r.apply { y with body := o.task, state := st }))
          ((v.store d o).setTask j { y with body := o.task, state := st }) :=
        fun st => hstore.setTask hy₀ _ hc.symm
      cases o.next with
      | finish => exact hset .finished
      | sleep ns =>
          have hnow : (s.store d o).now = (v.store d o).now := hstore.now
          dsimp only
          rw [hnow]
          exact hset (.asleep ((v.store d o).now + ns))
      | call call =>
          obtain ⟨hstart, hpresent, hres⟩ := hstore.startOn hi call
          have hx' : (v.store d o).conns y.conn = some x := hx
          have hy₁ : ((v.store d o).startOn y.conn call).1.tasks j = some y₀ := by
            rw [State.startOn_eq hx']
            exact hy₀
          dsimp only
          generalize (s.store d o).startOn (r.conn y.conn) call = p at hstart hres ⊢
          generalize (v.store d o).startOn y.conn call = q at hstart hpresent hres hy₁ ⊢
          obtain ⟨s', res'⟩ := p
          obtain ⟨v', res''⟩ := q
          cases hres
          cases res' with
          | error e => exact ih (y := { y with body := o.task }) hstart hy₁ hc (.error e) hpresent
          | ok k =>
              cases k with
              | none => exact hstart.setTask hy₁ ⟨y.conn, o.task, .finished⟩ hc.symm
              | some k => exact hstart.setTask hy₁ ⟨y.conn, o.task, .awaiting k⟩ hc.symm

/-- The task that awaits a request is found under the same number. -/
theorem waiter (h : Mirrors d r s v) (hi : i < v.nextConn) (k : Nat) :
    s.waiter (r.conn i) k = (v.waiter i k).map r.task := by
  have hawaits : ∀ {j y}, v.tasks j = some y → s.tasks (r.task j) = some (r.apply y) := by
    intro j y hy
    rw [h.tasks j (h.taskNumbered j y hy), hy]
    rfl
  refine List.find?_range_of_strictMono h.taskMono h.nextTask_eq fun t => ?_
  constructor
  · intro ht
    cases hst : s.tasks t with
    | none => simp [hst] at ht
    | some z =>
        simp only [hst, decide_eq_true_eq] at ht
        obtain ⟨hc, hstate⟩ := ht
        have hown : s.taskBelongs d t = true := by
          refine State.taskBelongs_iff.mpr ⟨z, hst, ?_⟩
          rw [hc]
          exact h.belongs_conn.mpr hi
        obtain ⟨j, hj, rfl⟩ := (h.taskBelongs t).mp hown
        obtain ⟨y, hy, hsy, -⟩ := h.task hj
        rw [hst] at hsy
        cases hsy
        refine ⟨j, ?_, rfl⟩
        simp only [hy, decide_eq_true_eq]
        exact ⟨h.connMono.injective hc, hstate⟩
  · rintro ⟨j, hj, rfl⟩
    cases hvt : v.tasks j with
    | none => simp [hvt] at hj
    | some y =>
        simp only [hvt, decide_eq_true_eq] at hj
        simp only [hawaits hvt, decide_eq_true_eq]
        exact ⟨congrArg r.conn hj.1, hj.2⟩

theorem settle (h : Mirrors d r s v) (hi : i < v.nextConn) (k : Nat) :
    Mirrors d r (s.settle cfg (r.conn i) k) (v.settle cfg i k) := by
  obtain ⟨x, hx, hsx, -⟩ := h.conn hi
  simp only [State.settle, hx, hsx, h.waiter hi k]
  cases hw : v.waiter i k with
  | none => exact h
  | some j =>
      obtain ⟨y, hy, -⟩ := State.waiter_some hw
      obtain ⟨y', hy', hsy, -⟩ := h.task (h.taskNumbered j y hy)
      simp only [Option.map_some, hy', hsy]
      cases x.link.requests[k]? with
      | none => exact h
      | some q =>
          dsimp only
          cases q.phase with
          | returned m => exact h.runTask hy' rfl _ 4
          | raised => exact h.runTask hy' rfl _ 4
          | sending => exact h
          | waiting => exact h

/-! ## Callbacks -/

theorem called (h : Mirrors d r s v) (hi : i < v.nextConn) (key : Str) (k : Hook) (cause : Cause) (msg : Dict)
    (st : Shadow) : Mirrors d r (s.called (r.conn i) d key k cause msg st) (v.called i d key k cause msg st) := by
  have hlogged := (h.setShadow st).logged (s.hooks ++ [{ conn := r.conn i, key, cause, msg }])
    (v.hooks ++ [{ conn := i, key, cause, msg }])
  unfold State.called
  dsimp only
  split
  · exact hlogged.spawnTasks hi
  · exact hlogged

theorem callback (h : Mirrors d r s v) (hi : i < v.nextConn) (key : Str) (k : Hook) (cause : Cause) (msg : Dict) :
    Lockstep d r i (s.callback cfg (r.conn i) key k cause msg) (v.callback cfg i key k cause msg) := by
  obtain ⟨x, hx, hsx, hd⟩ := h.conn hi
  simp only [State.callback, hx, hsx, hd, h.now, h.shadow]
  generalize runHook cfg k (v.deviceState d) x.link.session v.now msg = out
  have hcalled := h.called hi key k cause msg out.shadow
  have hi' : i < (v.called i d key k cause msg out.shadow).nextConn := by
    rw [State.called_nextConn]
    exact hi
  cases out.err with
  | some e => exact ⟨hcalled, hi', rfl⟩
  | none =>
      cases out.reply with
      | none => exact ⟨hcalled, hi', rfl⟩
      | some call =>
          obtain ⟨hstart, hpresent, hres⟩ := hcalled.startOn hi' call
          dsimp only
          generalize (s.called (r.conn i) d key k cause msg out.shadow).startOn (r.conn i) call = p
            at hstart hres ⊢
          generalize (v.called i d key k cause msg out.shadow).startOn i call = q at hstart hpresent hres ⊢
          obtain ⟨s', res⟩ := p
          obtain ⟨v', res'⟩ := q
          cases hres
          cases res with
          | ok o => exact ⟨hstart, hpresent, rfl⟩
          | error e => exact ⟨hstart, hpresent, rfl⟩

theorem dispatchOn (h : Mirrors d r s v) (hi : i < v.nextConn) (msg : Json) :
    Lockstep d r i (s.dispatchOn cfg (r.conn i) msg) (v.dispatchOn cfg i msg) := by
  obtain ⟨x, hx, hsx, -⟩ := h.conn hi
  simp only [State.dispatchOn, hx, hsx, h.now]
  have hset := h.setConn hx
    { x with link := (x.link.dispatch v.now (fun k => (callbackFor k).isSome) msg).1 } rfl
  cases (x.link.dispatch v.now (fun k => (callbackFor k).isSome) msg).2 with
  | error e => exact ⟨hset, hi, rfl⟩
  | ok o =>
      cases o with
      | callback key =>
          dsimp only
          cases callbackFor key with
          | none => exact ⟨hset, hi, rfl⟩
          | some k =>
              cases msg.asDict with
              | error e => exact ⟨hset, hi, rfl⟩
              | ok body => exact hset.callback hi key k .dispatched body
      | _ => exact ⟨hset, hi, rfl⟩

/-! ## The handler -/

theorem finish (h : Mirrors d r s v) (hi : i < v.nextConn) :
    Mirrors d r (s.finish cfg (r.conn i)) (v.finish cfg i) := by
  obtain ⟨x, hx, hsx, rfl⟩ := h.conn hi
  have hset := h.setConn hx { x with pc := .ended } rfl
  have hcurrent : s.sessions x.deviceId = some (r.conn i) ↔ v.sessions x.deviceId = some i := by
    rw [h.session, Option.map_eq_some_iff]
    constructor
    · rintro ⟨i', hi', heq⟩
      rw [hi', h.connMono.injective heq]
    · exact fun hi => ⟨i, hi, rfl⟩
  by_cases hcur : v.sessions x.deviceId = some i
  · rw [State.finish_current _ _ hsx (hcurrent.mpr hcur), State.finish_current _ _ hx hcur, h.shadow, h.now]
    have hsession := hset.setSession none fun i' hi' => by cases hi'
    rw [Option.map_none] at hsession
    exact hsession.called hi (py "__disconnect__") .onDisconnect .lifecycle []
      (onDisconnect (v.deviceState x.deviceId) v.now).shadow
  · rw [State.finish_replaced _ _ hsx (hcurrent.not.mpr hcur), State.finish_replaced _ _ hx hcur]
    exact hset

theorem handshakeDone (h : Mirrors d r s v) (hi : i < v.nextConn) :
    Mirrors d r (s.handshakeDone cfg (r.conn i)) (v.handshakeDone cfg i) := by
  obtain ⟨x, hx, hsx, rfl⟩ := h.conn hi
  have hshake := h.setConn hx (x.shake v.now) rfl
  rw [State.handshakeDone_eq cfg hx, State.handshakeDone_eq cfg hsx, State.shake_eq, State.shake_eq, h.shadow, h.now]
  exact hshake.called hi (py "__connect__") .onConnect .lifecycle []
    (onConnect (v.deviceState x.deviceId) x.link.session v.now).shadow

theorem recvHello (h : Mirrors d r s v) (hx : v.conns i = some x) (frame : Frame) :
    Mirrors d r (s.recvHello cfg (r.conn i) x frame) (v.recvHello cfg i x frame) := by
  have hi := h.numbered i x hx
  unfold State.recvHello
  split
  · rename_i body
    rw [h.now]
    split
    · rename_i session e _
      exact (h.setConn hx { x with link := { x.link with session }, pc := .closing } rfl).finish hi
    · exact h.setConn hx _ rfl
    · exact h.setConn hx _ rfl
    · exact h.setConn hx _ rfl
  · exact h.finish hi

theorem answerProof (h : Mirrors d r s v) (hi : i < v.nextConn) (msg : Dict) :
    Lockstep d r i (s.answerProof cfg (r.conn i) msg) (v.answerProof cfg i msg) := by
  unfold State.answerProof
  split
  · split
    · rename_i k _
      exact h.callback hi (py "__ota_check__") k .lifecycle msg
    · obtain ⟨hstart, hpresent, hres⟩ := h.startOn hi (.send (py "ota_none") [] (msg.get (py "msg_id")))
      generalize s.startOn (r.conn i) (.send (py "ota_none") [] (msg.get (py "msg_id"))) = p at hstart hres ⊢
      generalize v.startOn i (.send (py "ota_none") [] (msg.get (py "msg_id"))) = q at hstart hpresent hres ⊢
      obtain ⟨s', res⟩ := p
      obtain ⟨v', res'⟩ := q
      cases hres
      cases res with
      | ok o => exact ⟨hstart, hpresent, rfl⟩
      | error e => exact ⟨hstart, hpresent, rfl⟩
  · exact h.dispatchOn hi (.obj msg)

theorem recvProof (h : Mirrors d r s v) (hx : v.conns i = some x) (frame : Frame) :
    Mirrors d r (s.recvProof cfg (r.conn i) x frame) (v.recvProof cfg i x frame) := by
  have hi := h.numbered i x hx
  unfold State.recvProof
  split
  · rename_i body
    split
    · exact h.finish hi
    · exact h.setConn hx _ rfl
    · rename_i session _
      have hset := h.setConn hx
        { x with
          link := { x.link with session := { session with negotiated := true } }
          pc := .proofReply, proof := some body } rfl
      have hboth : Lockstep d r i (State.answerProof cfg _ (r.conn i) body) (State.answerProof cfg _ i body) :=
        hset.answerProof hi body
      obtain ⟨hanswer, hpresent, hres⟩ := hboth
      dsimp only
      generalize State.answerProof cfg _ (r.conn i) body = p at hanswer hres ⊢
      generalize State.answerProof cfg _ i body = q at hanswer hpresent hres ⊢
      obtain ⟨s', res⟩ := p
      obtain ⟨v', res'⟩ := q
      cases hres
      cases res with
      | done => exact hanswer.handshakeDone hpresent
      | suspended => exact hanswer
      | raised => exact hanswer.finish hpresent
  · exact h.finish hi

theorem recvMessage (h : Mirrors d r s v) (hi : i < v.nextConn) (fired : Bool) (frame : Frame) :
    Mirrors d r (s.recvMessage cfg (r.conn i) fired frame) (v.recvMessage cfg i fired frame) := by
  unfold State.recvMessage
  split
  · exact h
  · exact h.setPc hi _
  · rename_i msg
    have hboth : Lockstep d r i (s.dispatchOn cfg (r.conn i) msg) (v.dispatchOn cfg i msg) := h.dispatchOn hi msg
    obtain ⟨hdispatch, hpresent, hres⟩ := hboth
    generalize State.dispatchOn cfg s (r.conn i) msg = p at hdispatch hres ⊢
    generalize State.dispatchOn cfg v i msg = q at hdispatch hpresent hres ⊢
    obtain ⟨s', res⟩ := p
    obtain ⟨v', res'⟩ := q
    cases hres
    cases res with
    | done => exact hdispatch
    | suspended => exact hdispatch.setPc hpresent _
    | raised => exact hdispatch.setPc hpresent _

theorem accept (h : Mirrors d r s v) (hs : s.Attached) (rand : Bytes) :
    Mirrors d r (s.accept cfg d rand) (v.accept cfg d rand) := by
  unfold State.accept
  cases cfg.registry.get d with
  | none => exact h
  | some device =>
      cases hold : v.sessions d with
      | none =>
          simp only [h.session, hold, h.now, Option.map_none]
          exact h.addConn hs rfl
      | some old =>
          obtain ⟨x, hx, hsx, -⟩ := h.conn (h.entry old hold)
          have hset := h.setConn hx { x with closeRequested := true } rfl
          have hnow := hset.now
          simp only [h.session, hold, Option.map_some, hx, hsx, hnow]
          exact hset.addConn hs rfl

end Mirrors

/-! ## Events -/

/-- The step under other numbers of connections and tasks. -/
def Step.rename (f g : Nat → Nat) : Step → Step
  | .recv c frame => .recv (f c) frame
  | .lost c => .lost (f c)
  | .resume c ok => .resume (f c) ok
  | .timeout c => .timeout (f c)
  | .check c lag => .check (f c) lag
  | .stop c => .stop (f c)
  | .finish c => .finish (f c)
  | .sendDone c k ok => .sendDone (f c) k ok
  | .expire c k => .expire (f c) k
  | .reqDone c k raises => .reqDone (f c) k raises
  | .wake t => .wake (g t)
  | .tick ns => .tick ns
  | .accept d rand => .accept d rand
  | .api d call => .api d call
  | .dpRead d names => .dpRead d names
  | .deviceSign y => .deviceSign y

/-- The step is one of device `d`, or time passes. -/
def State.concerns (s : State) (d : Str) : Step → Bool
  | .recv c _ | .lost c | .resume c _ | .timeout c | .check c _ | .stop c | .finish c
  | .sendDone c _ _ | .expire c _ | .reqDone c _ _ => s.belongs d c
  | .wake t => s.taskBelongs d t
  | .accept d' _ | .api d' _ | .dpRead d' _ => d' = d
  | .tick _ => true
  | .deviceSign _ => false

namespace Mirrors

theorem belongs_mirror (h : Mirrors d r s v) : v.belongs d i = true ↔ i < v.nextConn := by
  rw [State.belongs_iff]
  constructor
  · rintro ⟨x, hx, -⟩
    exact h.numbered i x hx
  · intro hi
    obtain ⟨x, hx, -, hd⟩ := h.conn hi
    exact ⟨x, hx, hd⟩

theorem recv (h : Mirrors d r s v) (hi : i < v.nextConn) (frame : Frame) :
    Mirrors d r (s.recv cfg (r.conn i) frame) (v.recv cfg i frame) := by
  obtain ⟨x, hx, hsx, -⟩ := h.conn hi
  simp only [State.recv, hx, hsx]
  split
  · exact h.recvHello hx frame
  · exact h.recvProof hx frame
  · exact h.recvMessage hi _ frame
  · exact h

theorem lost (h : Mirrors d r s v) (hi : i < v.nextConn) :
    Mirrors d r (s.lost cfg (r.conn i)) (v.lost cfg i) := by
  obtain ⟨x, hx, hsx, -⟩ := h.conn hi
  simp only [State.lost, hx, hsx]
  split
  · exact h.finish hi
  · exact h.finish hi
  · exact h.setPc hi _
  · exact h

theorem resume (h : Mirrors d r s v) (hi : i < v.nextConn) (ok : Bool) :
    Mirrors d r (s.resume cfg (r.conn i) ok) (v.resume cfg i ok) := by
  obtain ⟨x, hx, hsx, -⟩ := h.conn hi
  simp only [State.resume, hx, hsx]
  split
  · split
    · exact h.setPc hi _
    · exact h.finish hi
  · split
    · exact h.setConn hx _ rfl
    · exact h.finish hi
  · split
    · exact h.handshakeDone hi
    · exact h.finish hi
  · exact h.finish hi
  · exact h.setPc hi _
  · exact h

theorem timeout (h : Mirrors d r s v) (hi : i < v.nextConn) :
    Mirrors d r (s.timeout (r.conn i)) (v.timeout i) := by
  obtain ⟨x, hx, hsx, -⟩ := h.conn hi
  simp only [State.timeout, hx, hsx]
  split
  · exact h.setConn hx _ rfl
  · exact h.setConn hx _ rfl
  · exact h

theorem check (h : Mirrors d r s v) (hi : i < v.nextConn) (lag : Nat) :
    Mirrors d r (s.check cfg (r.conn i) lag) (v.check cfg i lag) := by
  obtain ⟨x, hx, hsx, hd⟩ := h.conn hi
  have hidle : s.idleTooLong cfg x lag = v.idleTooLong cfg x lag := by
    simp only [State.idleTooLong, hd, h.shadow, h.now]
  simp only [State.check, hx, hsx, hidle]
  split
  · split
    · exact h.setPc hi _
    · exact h
  · exact h

theorem stop (h : Mirrors d r s v) (hi : i < v.nextConn) :
    Mirrors d r (s.stop (r.conn i)) (v.stop i) := by
  obtain ⟨x, hx, hsx, -⟩ := h.conn hi
  simp only [State.stop, hx, hsx]
  split
  · split
    · exact h.setConn hx _ rfl
    · exact h
  · exact h

/-- A step of the device does the same to the server and to its mirror. -/
theorem step (h : Mirrors d r s v) (hs : s.Attached) {e : Step} (he : v.concerns d e = true) :
    Mirrors d r (s.step cfg (e.rename r.conn r.task)) (v.step cfg e) := by
  cases e with
  | tick ns =>
      have hnow : s.now + ns = v.now + ns := by rw [h.now]
      exact { h with now := hnow, belongs := h.belongs, taskBelongs := h.taskBelongs }
  | accept d' rand =>
      obtain rfl : d' = d := of_decide_eq_true he
      exact h.accept hs rand
  | recv i frame => exact h.recv (h.belongs_mirror.mp he) frame
  | lost i => exact h.lost (h.belongs_mirror.mp he)
  | resume i ok => exact h.resume (h.belongs_mirror.mp he) ok
  | timeout i => exact h.timeout (h.belongs_mirror.mp he)
  | check i lag => exact h.check (h.belongs_mirror.mp he) lag
  | stop i => exact h.stop (h.belongs_mirror.mp he)
  | finish i =>
      have hi := h.belongs_mirror.mp he
      obtain ⟨x, hx, hsx, -⟩ := h.conn hi
      simp only [State.step, Step.rename, hx, hsx]
      split
      · exact h.finish hi
      · exact h
  | api d' call =>
      obtain rfl : d' = d := of_decide_eq_true he
      simp only [State.step, Step.rename, h.session]
      cases hc : v.sessions d' with
      | none => exact h
      | some i => exact (h.startOn (h.entry i hc) call).mirrors
  | dpRead d' names =>
      obtain rfl : d' = d := of_decide_eq_true he
      simp only [State.step, Step.rename, h.session]
      cases hc : v.sessions d' with
      | none => exact h
      | some i =>
          obtain ⟨hstart, hpresent, hres⟩ := h.startOn (h.entry i hc) (dpReadCall names)
          dsimp only [Option.map_some]
          generalize s.startOn (r.conn i) (dpReadCall names) = p at hstart hres ⊢
          generalize v.startOn i (dpReadCall names) = q at hstart hpresent hres ⊢
          obtain ⟨s', res⟩ := p
          obtain ⟨v', res'⟩ := q
          cases hres
          cases res with
          | error e => exact hstart
          | ok o =>
              cases o with
              | none => exact hstart
              | some k => exact hstart.addTask ⟨i, .dpRead, .awaiting k⟩ hpresent
  | sendDone i k ok =>
      have hi := h.belongs_mirror.mp he
      have hi' : i < (v.modLink i (·.sendDone k ok)).nextConn := by
        rw [State.modLink_nextConn]
        exact hi
      exact (h.modLink hi (·.sendDone k ok)).settle hi' k
  | expire i k => exact h.modLink (h.belongs_mirror.mp he) (·.expire k)
  | reqDone i k raises =>
      have hi := h.belongs_mirror.mp he
      have hi' : i < (v.modLink i (·.wake k raises)).nextConn := by
        rw [State.modLink_nextConn]
        exact hi
      exact (h.modLink hi (·.wake k raises)).settle hi' k
  | wake j =>
      obtain ⟨y, hy, -⟩ := State.taskBelongs_iff.mp he
      obtain ⟨y', hy', hsy, -⟩ := h.task (h.taskNumbered j y hy)
      simp only [State.step, Step.rename, hy', hsy, h.now]
      have hstate : (r.apply y').state = y'.state := rfl
      rw [hstate]
      cases y'.state with
      | asleep u =>
          dsimp only
          split
          · exact h.runTask hy' rfl (.ok []) 4
          · exact h
      | awaiting k => exact h
      | finished => exact h
  | deviceSign y => cases he

end Mirrors

end Fountainer
