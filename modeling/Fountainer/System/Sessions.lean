import Fountainer.App.Sessions
import Fountainer.Library.Run

/-!
# Which admin sessions are valid

The sessions in memory and in the file against a ledger of the logins that were not followed by a
logout. The ledger knows neither expiry nor restarts.
-/

namespace Fountainer

open AdminWeb

variable {T : Type}

/-! ## The ledger -/

/-- The clock, and the expiry of every token that was issued and not logged out. -/
structure Ledger (T : Type) where
  now : T
  expiry : Str → Option T

/-- The login opens a session. -/
def Account.opens (a : Account T) (user pw : Str) : Bool := credentials a user pw = .ok true

/-- The token that a step logs out. -/
def WebStep.loggedOut : WebStep T → Option Str
  | .request isGet path cookie => if isGet ∧ path = py "/logout" then some (tokenOf cookie) else none
  | _ => none

/-- The token that a step issues. -/
def WebStep.issued (a : Account T) : WebStep T → Option Str
  | .login user pw token => if a.opens user pw then some token else none
  | _ => none

def Ledger.put (l : Ledger T) (token : Str) (exp : Option T) : Ledger T :=
  { l with expiry := Function.update l.expiry token exp }

@[simp] theorem Ledger.put_expiry (l : Ledger T) (token : Str) (exp : Option T) (t : Str) :
    (l.put token exp).expiry t = if t = token then exp else l.expiry t := Function.update_apply ..

theorem not_issued_again {a : Account T} {es before rest : List (WebStep T)} {e : WebStep T} {token : Str}
    (hfresh : (es.filterMap (WebStep.issued a)).Nodup) (hes : es = before ++ e :: rest)
    (he : e.issued a = some token) : ∀ x ∈ rest, x.issued a ≠ some token := by
  intro x hx hissued
  rw [hes, List.filterMap_append, List.filterMap_cons_some he, List.nodup_append, List.nodup_cons] at hfresh
  exact hfresh.2.1.1 (List.mem_filterMap.mpr ⟨x, hx, hissued⟩)

section

variable [LinearOrder T] [Add T] {a : Account T}

def Ledger.step (a : Account T) (l : Ledger T) (e : WebStep T) : Ledger T :=
  match e with
  | .tick t => { l with now := max l.now t }
  | e => match e.issued a, e.loggedOut with
      | some token, _ => l.put token (some (l.now + a.sessionTtl))
      | none, some token => l.put token none
      | none, none => l

def Ledger.start (t : T) : Ledger T := { now := t, expiry := fun _ => none }

theorem Ledger.step_expiry (l : Ledger T) (e : WebStep T) (token : Str) :
    (l.step a e).expiry token =
      if e.issued a = some token then some (l.now + a.sessionTtl)
      else if e.loggedOut = some token then none else l.expiry token := by
  cases e with
  | tick t => rfl
  | login user pw t =>
      cases hopens : a.opens user pw with
      | true => simp [Ledger.step, WebStep.issued, WebStep.loggedOut, hopens, eq_comm]
      | false => simp [Ledger.step, WebStep.issued, WebStep.loggedOut, hopens]
  | request isGet path cookie =>
      by_cases hout : isGet = true ∧ path = py "/logout"
      · simp [Ledger.step, WebStep.issued, WebStep.loggedOut, hout, eq_comm]
      · simp [Ledger.step, WebStep.issued, WebStep.loggedOut, hout]
  | restart => rfl

def Ledger.after (a : Account T) (t₀ : T) (es : List (WebStep T)) : Ledger T :=
  Run.run (Ledger.step a) (Ledger.start t₀) es

/-- The ledger holds the last login with a token, unless a logout followed. -/
theorem Ledger.after_expiry {t₀ exp : T} {es : List (WebStep T)} {token : Str} :
    (Ledger.after a t₀ es).expiry token = some exp ↔
      ∃ before e rest, es = before ++ e :: rest ∧ e.issued a = some token ∧
        exp = (Ledger.after a t₀ before).now + a.sessionTtl ∧
        ∀ e ∈ rest, e.issued a ≠ some token ∧ e.loggedOut ≠ some token := by
  induction es using List.reverseRecOn with
  | nil =>
      refine iff_of_false (by simp [Ledger.after, Ledger.start]) ?_
      rintro ⟨before, e, rest, hes, -⟩
      simp at hes
  | append_singleton es e ih =>
      have hafter : Ledger.after a t₀ (es ++ [e]) = (Ledger.after a t₀ es).step a e := by
        simp [Ledger.after, Run.run_append]
      rw [hafter, Ledger.step_expiry]
      constructor
      · intro h
        split at h
        · rename_i hissued
          exact ⟨es, e, [], rfl, hissued, (Option.some.inj h).symm, by simp⟩
        · rename_i hissued
          split at h
          · cases h
          · rename_i hout
            obtain ⟨before, e', rest, rfl, hissued', hexp, hrest⟩ := ih.mp h
            refine ⟨before, e', rest ++ [e], by simp, hissued', hexp, ?_⟩
            intro x hx
            rcases List.mem_append.mp hx with hx | hx
            · exact hrest x hx
            · rw [List.mem_singleton.mp hx]
              exact ⟨hissued, hout⟩
      · rintro ⟨before, e', rest, hes, hissued', hexp, hrest⟩
        rcases List.eq_nil_or_concat rest with rfl | ⟨rest, last, rfl⟩
        · obtain ⟨rfl, hlast⟩ := List.append_inj' hes rfl
          cases hlast
          rw [if_pos hissued', hexp]
        · have hes' : es ++ [e] = (before ++ e' :: rest) ++ [last] := by simpa using hes
          obtain ⟨rfl, hlast⟩ := List.append_inj' hes' rfl
          cases hlast
          have he := hrest e (by simp)
          rw [if_neg he.1, if_neg he.2]
          exact ih.mpr ⟨before, e', rest, rfl, hissued', hexp, fun x hx => hrest x (by simp [hx])⟩

end

/-! ## The copies against the ledger -/

variable [LinearOrder T] [Zero T]

/-- The copies in memory and in the file against the ledger. Above the ledger they hold expired
entries only, and below it they miss expired ones only. -/
structure AdminWeb.Agrees (w : AdminWeb T) (l : Ledger T) : Prop where
  now : l.now = w.now
  memory : ∀ token exp, w.sessions.get token = some exp → exp ≠ 0 → w.now ≤ exp →
    l.expiry token = some exp
  file : ∀ token exp, w.loadSessions.get token = some exp → l.expiry token = some exp
  kept : ∀ token exp, l.expiry token = some exp → w.now < exp →
    w.sessions.get token = some exp ∧ w.loadSessions.get token = some exp

namespace AdminWeb

theorem loadSessions_get (w : AdminWeb T) (token : Str) :
    w.loadSessions.get token =
      (w.file.bind fun raw => raw.get token).filter fun exp => w.now < exp := by
  unfold loadSessions
  cases w.file with
  | none => rfl
  | some raw => exact Sessions.get_live raw w.now token

theorem loadSessions_eq_some {w : AdminWeb T} {token : Str} {exp : T} :
    w.loadSessions.get token = some exp ↔
      (w.file.bind fun raw => raw.get token) = some exp ∧ w.now < exp := by
  rw [loadSessions_get, Option.filter_eq_some_iff, decide_eq_true_eq]

theorem ne_zero {w : AdminWeb T} {exp : T} (h : w.now < exp) : exp ≠ 0 :=
  (lt_of_le_of_lt w.epoch h).ne'

/-! ## One request -/

theorem authed_iff {w : AdminWeb T} {cookie : Option Str} :
    (w.authed cookie).1 = true ↔
      ∃ exp, w.sessions.get (tokenOf cookie) = some exp ∧ exp ≠ 0 ∧ w.now ≤ exp := by
  unfold authed
  cases w.sessions.get (tokenOf cookie) with
  | none => simp
  | some exp =>
      dsimp only
      split
      · rename_i hzero
        simp [hzero]
      · rename_i hzero
        split
        · rename_i hlt
          simp [hzero, hlt]
        · rename_i hlt
          simp [hzero, not_lt.mp hlt]

theorem authed_cases (w : AdminWeb T) (cookie : Option Str) :
    (w.authed cookie).2 = w ∨
      ∃ exp, w.sessions.get (tokenOf cookie) = some exp ∧ exp < w.now ∧
        (w.authed cookie).2 = { w with sessions := w.sessions.pop (tokenOf cookie) } := by
  unfold authed
  cases hget : w.sessions.get (tokenOf cookie) with
  | none => exact .inl rfl
  | some exp =>
      dsimp only
      split
      · exact .inl rfl
      · split
        · rename_i hlt
          exact .inr ⟨exp, rfl, hlt, rfl⟩
        · exact .inl rfl

variable {w : AdminWeb T} {l : Ledger T}

theorem Agrees.start (t : {t : T // 0 ≤ t}) : (AdminWeb.start t).Agrees (Ledger.start t.1) := by
  refine ⟨rfl, ?_, ?_, ?_⟩
  · intro token exp h
    cases h
  · intro token exp h
    cases h
  · intro token exp h
    cases h

theorem Agrees.tick (h : w.Agrees l) (t : T) :
    ({ w with now := max w.now t, epoch := w.epoch_max t } : AdminWeb T).Agrees
      { l with now := max l.now t } := by
  have hle : w.now ≤ max w.now t := le_max_left _ _
  refine ⟨congrArg (max · t) h.now, ?_, ?_, ?_⟩
  · intro token exp hget hzero hexp
    exact h.memory token exp hget hzero (hle.trans hexp)
  · intro token exp hget
    obtain ⟨hfile, hexp⟩ := loadSessions_eq_some.mp hget
    exact h.file token exp (loadSessions_eq_some.mpr ⟨hfile, lt_of_le_of_lt hle hexp⟩)
  · intro token exp hget hexp
    obtain ⟨hmem, hload⟩ := h.kept token exp hget (lt_of_le_of_lt hle hexp)
    exact ⟨hmem, loadSessions_eq_some.mpr ⟨(loadSessions_eq_some.mp hload).1, hexp⟩⟩

theorem Agrees.write (h : w.Agrees l) {d : Sessions T} {token : Str} {exp : Option T}
    (hd : ∀ t, d.get t = if t = token then exp else w.sessions.get t) :
    ({ w with sessions := d }.saveSessions).Agrees (l.put token exp) := by
  have hmem : ∀ t x, d.get t = some x → x ≠ 0 → w.now ≤ x → (l.put token exp).expiry t = some x := by
    intro t x hget hzero hx
    rw [hd] at hget
    rw [Ledger.put_expiry]
    split at hget
    · rename_i ht
      rw [if_pos ht, hget]
    · rename_i ht
      rw [if_neg ht]
      exact h.memory t x hget hzero hx
  refine ⟨h.now, hmem, ?_, ?_⟩
  · intro t x hget
    obtain ⟨hfile, hx⟩ := loadSessions_eq_some.mp hget
    exact hmem t x hfile (ne_zero hx) hx.le
  · intro t x hget hx
    have hget : d.get t = some x := by
      rw [Ledger.put_expiry] at hget
      rw [hd]
      split at hget
      · rename_i ht
        rw [if_pos ht, hget]
      · rename_i ht
        rw [if_neg ht]
        exact (h.kept t x hget hx).1
    exact ⟨hget, loadSessions_eq_some.mpr ⟨hget, hx⟩⟩

theorem Agrees.login [Add T] (h : w.Agrees l) (a : Account T) (token : Str) :
    (newSession a w token).Agrees (l.put token (some (l.now + a.sessionTtl))) := by
  rw [h.now]
  exact h.write fun _ => Sessions.get_set ..

theorem Agrees.logout (h : w.Agrees l) (cookie : Option Str) :
    (w.getLogout cookie).Agrees (l.put (tokenOf cookie) none) :=
  h.write fun _ => Sessions.get_pop ..

theorem Agrees.authed (h : w.Agrees l) (cookie : Option Str) : ((w.authed cookie).2).Agrees l := by
  rcases authed_cases w cookie with heq | ⟨exp, hget, hlt, heq⟩
  · rw [heq]
    exact h
  · rw [heq]
    refine ⟨h.now, ?_, h.file, ?_⟩
    · intro t x ht
      rw [Sessions.get_pop] at ht
      split at ht
      · cases ht
      · exact h.memory t x ht
    · intro t x ht hx
      obtain ⟨hmem, hload⟩ := h.kept t x ht hx
      refine ⟨?_, hload⟩
      rw [Sessions.get_pop, if_neg]
      · exact hmem
      · -- the dropped token has expired
        rintro rfl
        rw [hget] at hmem
        cases hmem
        exact lt_asymm hlt hx

theorem Agrees.forget (h : w.Agrees l) {token : Str}
    (hno : ∀ exp, w.sessions.get token = some exp → exp ≠ 0 → ¬w.now ≤ exp) :
    w.Agrees (l.put token none) := by
  refine ⟨h.now, ?_, ?_, ?_⟩
  · intro t exp hget hzero hexp
    rw [Ledger.put_expiry, if_neg]
    · exact h.memory t exp hget hzero hexp
    · rintro rfl
      exact hno exp hget hzero hexp
  · intro t exp hget
    have hexpiry := h.file t exp hget
    have hexp := (loadSessions_eq_some.mp hget).2
    rw [Ledger.put_expiry, if_neg]
    · exact hexpiry
    · rintro rfl
      exact hno exp (h.kept t exp hexpiry hexp).1 (ne_zero hexp) hexp.le
  · intro t exp hget hexp
    rw [Ledger.put_expiry] at hget
    split at hget
    · cases hget
    · exact h.kept t exp hget hexp

theorem not_authed (cookie : Option Str) (h : (w.authed cookie).1 = false) (exp : T)
    (hget : (w.authed cookie).2.sessions.get (tokenOf cookie) = some exp) (hzero : exp ≠ 0) :
    ¬(w.authed cookie).2.now ≤ exp := by
  intro hexp
  rcases authed_cases w cookie with heq | ⟨x, hx, hlt, heq⟩
  · rw [heq] at hget hexp
    rw [authed_iff.mpr ⟨exp, hget, hzero, hexp⟩] at h
    cases h
  · rw [heq, Sessions.get_pop, if_pos rfl] at hget
    cases hget

theorem Agrees.restart (h : w.Agrees l) :
    ({ w with sessions := w.loadSessions } : AdminWeb T).Agrees l := by
  refine ⟨h.now, ?_, h.file, ?_⟩
  · intro token exp hget _ _
    exact h.file token exp hget
  · intro token exp hget hexp
    exact ⟨(h.kept token exp hget hexp).2, (h.kept token exp hget hexp).2⟩

theorem Agrees.serve [Add T] (h : w.Agrees l) (a : Account T) (isGet : Bool) (path : Str)
    (cookie : Option Str) :
    (w.serve isGet path cookie).Agrees (l.step a (.request isGet path cookie)) := by
  have hlogout : isOpen (py "/logout") = false := by decide
  unfold AdminWeb.serve
  by_cases hout : isGet = true ∧ path = py "/logout"
  · obtain ⟨rfl, rfl⟩ := hout
    have hstep : l.step a (.request true (py "/logout") cookie) =
        l.put (tokenOf cookie) none := rfl
    rw [hlogout, hstep]
    cases hauthed : w.authed cookie with
    | mk ok w' =>
        have hagrees := h.authed cookie
        cases ok with
        | false =>
            have hno := not_authed (w := w) cookie (by rw [hauthed])
            rw [hauthed] at hagrees hno
            exact hagrees.forget hno
        | true =>
            rw [hauthed] at hagrees
            exact hagrees.logout cookie
  · have hstep : l.step a (.request isGet path cookie) = l := by
      simp [Ledger.step, WebStep.issued, WebStep.loggedOut, hout]
    rw [hstep]
    have hagrees := h.authed cookie
    split
    · split
      · exact hagrees
      · exact h
    · cases hauthed : w.authed cookie with
      | mk ok w' =>
          rw [hauthed] at hagrees
          cases ok with
          | false => exact hagrees
          | true => exact hagrees

theorem Agrees.step [Add T] (h : w.Agrees l) (a : Account T) (e : WebStep T) :
    (w.step a e).Agrees (l.step a e) := by
  cases e with
  | tick t => exact h.tick t
  | login user pw token =>
      have hissued : (WebStep.login user pw token : WebStep T).issued a =
          if a.opens user pw then some token else none := rfl
      unfold AdminWeb.step AdminWeb.postLogin Ledger.step
      dsimp only
      rw [hissued]
      cases hopens : a.opens user pw with
      | true =>
          have hok : credentials a user pw = .ok true := of_decide_eq_true hopens
          rw [hok]
          exact h.login a token
      | false =>
          have hok : credentials a user pw ≠ .ok true := of_decide_eq_false hopens
          split
          · rename_i heq
            exact absurd heq hok
          · exact h
  | request isGet path cookie => exact h.serve a isGet path cookie
  | restart => exact h.restart

end AdminWeb

variable [Add T] {a : Account T}

/-! ## Runs -/

/-- The process, or what has replaced it, after a run. -/
def AdminWeb.after (a : Account T) (t₀ : {t : T // 0 ≤ t}) (es : List (WebStep T)) : AdminWeb T :=
  Run.run (AdminWeb.step a) (AdminWeb.start t₀) es

theorem AdminWeb.after_agrees (a : Account T) (t₀ : {t : T // 0 ≤ t}) (es : List (WebStep T)) :
    (AdminWeb.after a t₀ es).Agrees (Ledger.after a t₀.1 es) := by
  induction es using List.reverseRecOn with
  | nil => exact Agrees.start t₀
  | append_singleton es e ih =>
      simp only [AdminWeb.after, Ledger.after, Run.run_append] at ih ⊢
      exact ih.step a e

/-! ## The law of the sessions -/

/-- A successful login at time `t` issued the token, and it was not logged out since. -/
def IssuedAt (a : Account T) (t₀ : {t : T // 0 ≤ t}) (es : List (WebStep T)) (token : Str) (t : T) : Prop :=
  ∃ before e rest, es = before ++ e :: rest ∧ e.issued a = some token ∧
    t = (AdminWeb.after a t₀ before).now ∧ ∀ e ∈ rest, e.loggedOut ≠ some token

/-- In every run with fresh tokens: an authorised request has a token that was issued, was not logged
out and has not passed its expiry; and such a token is authorised until its expiry. -/
theorem sessions_valid (a : Account T) (t₀ : {t : T // 0 ≤ t}) (es : List (WebStep T))
    (hfresh : (es.filterMap (WebStep.issued a)).Nodup) (cookie : Option Str) :
    (((AdminWeb.after a t₀ es).authed cookie).1 = true →
      ∃ t, IssuedAt a t₀ es (tokenOf cookie) t ∧
        (AdminWeb.after a t₀ es).now ≤ t + a.sessionTtl) ∧
    ∀ t, IssuedAt a t₀ es (tokenOf cookie) t → (AdminWeb.after a t₀ es).now < t + a.sessionTtl →
      ((AdminWeb.after a t₀ es).authed cookie).1 = true := by
  have hagrees := AdminWeb.after_agrees a t₀ es
  constructor
  · intro hauthed
    obtain ⟨exp, hget, hzero, hexp⟩ := authed_iff.mp hauthed
    obtain ⟨before, e, rest, hes, hissued, rfl, hrest⟩ :=
      Ledger.after_expiry.mp (hagrees.memory _ exp hget hzero hexp)
    have hnow := (AdminWeb.after_agrees a t₀ before).now
    rw [hnow] at hexp
    exact ⟨_, ⟨before, e, rest, hes, hissued, rfl, fun x hx => (hrest x hx).2⟩, hexp⟩
  · rintro t ⟨before, e, rest, hes, hissued, rfl, hrest⟩ hlt
    have hnow := (AdminWeb.after_agrees a t₀ before).now
    have hagain := not_issued_again hfresh hes hissued
    have hexpiry : (Ledger.after a t₀.1 es).expiry (tokenOf cookie) =
        some ((AdminWeb.after a t₀ before).now + a.sessionTtl) :=
      Ledger.after_expiry.mpr ⟨before, e, rest, hes, hissued, by rw [hnow],
        fun x hx => ⟨hagain x hx, hrest x hx⟩⟩
    exact authed_iff.mpr ⟨_, (hagrees.kept _ _ hexpiry hlt).1, ne_zero hlt, hlt.le⟩

def sampleAccount : Account Int :=
  { username := py "admin", password := py "secret", sessionTtl := 100 }

/-- A login, a restart at time 60 and a logout of another token. -/
def sampleVisits : List (WebStep Int) :=
  [.login (py "admin") (py "secret") (py "tok"), .tick 60, .restart,
   .login (py "admin") (py "secret") (py "kot"), .request true (py "/logout") (some (py "kot"))]

theorem sessions_valid_sample :
    (((AdminWeb.after sampleAccount ⟨0, Int.le_refl 0⟩ sampleVisits).authed (some (py "tok"))).1 = true →
      ∃ t, IssuedAt sampleAccount ⟨0, Int.le_refl 0⟩ sampleVisits (py "tok") t ∧
        (AdminWeb.after sampleAccount ⟨0, Int.le_refl 0⟩ sampleVisits).now ≤ t + 100) ∧
    ∀ t, IssuedAt sampleAccount ⟨0, Int.le_refl 0⟩ sampleVisits (py "tok") t →
      (AdminWeb.after sampleAccount ⟨0, Int.le_refl 0⟩ sampleVisits).now < t + 100 →
        ((AdminWeb.after sampleAccount ⟨0, Int.le_refl 0⟩ sampleVisits).authed (some (py "tok"))).1 = true :=
  sessions_valid sampleAccount ⟨0, Int.le_refl 0⟩ sampleVisits (by decide +kernel) (some (py "tok"))

example : ((AdminWeb.after sampleAccount ⟨0, Int.le_refl 0⟩ sampleVisits).authed (some (py "tok"))).1 = true ∧
    ((AdminWeb.after sampleAccount ⟨0, Int.le_refl 0⟩ sampleVisits).authed (some (py "kot"))).1 = false := by
  decide +kernel

end Fountainer
