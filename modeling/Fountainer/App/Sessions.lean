import Mathlib.Order.Lattice
import Fountainer.Proto.Auth
import Fountainer.Python.Lemmas.Dict

/-!
# The sessions of the admin interface (`server/web.py`)

Times are readings of `time.time()` under any linear order and any addition, so that nothing depends
on how the sum with `session_ttl` is rounded.
-/

namespace Fountainer

/-- A dictionary from tokens to expiry times. -/
structure Sessions (T : Type) where
  entries : List (Str × T)
  distinct : (entries.map Prod.fst).Nodup

namespace Sessions

variable {T : Type}

theorem distinct_nil : (([] : List (Str × T)).map Prod.fst).Nodup := List.nodup_nil

def empty : Sessions T := ⟨[], distinct_nil⟩

def get (d : Sessions T) (token : Str) : Option T := d.entries.lookup token

theorem distinct_set (d : Sessions T) (token : Str) (exp : T) :
    ((setKey d.entries token exp).map Prod.fst).Nodup := nodup_setKey d.distinct token exp

def set (d : Sessions T) (token : Str) (exp : T) : Sessions T :=
  ⟨setKey d.entries token exp, d.distinct_set token exp⟩

theorem distinct_filter (d : Sessions T) (p : Str × T → Bool) :
    ((d.entries.filter p).map Prod.fst).Nodup := (List.filter_sublist.map _).nodup d.distinct

/-- `pop(token, None)`. -/
def pop (d : Sessions T) (token : Str) : Sessions T :=
  ⟨d.entries.filter fun e => e.1 ≠ token, d.distinct_filter _⟩

/-- The entries that expire later than `now`. -/
def live [LinearOrder T] (d : Sessions T) (now : T) : Sessions T :=
  ⟨d.entries.filter fun e => now < e.2, d.distinct_filter _⟩

@[simp] theorem get_set (d : Sessions T) (token : Str) (exp : T) (t : Str) :
    (d.set token exp).get t = if t = token then some exp else d.get t := lookup_setKey ..

@[simp] theorem get_pop (d : Sessions T) (token t : Str) :
    (d.pop token).get t = if t = token then none else d.get t := by
  rw [get, pop, lookup_filter d.distinct, get]
  by_cases h : t = token
  · cases d.entries.lookup t <;> simp [h, Option.filter]
  · cases d.entries.lookup t <;> simp [h, Option.filter]

@[simp] theorem get_live [LinearOrder T] (d : Sessions T) (now : T) (t : Str) :
    (d.live now).get t = (d.get t).filter fun exp => now < exp := lookup_filter d.distinct _ t

end Sessions

/-- The parameters of `AdminWeb`. -/
structure Account (T : Type) where
  username : Str
  password : Str
  sessionTtl : T

/-- The clock, the sessions in memory and the session file as `json.loads` gives it back. -/
structure AdminWeb (T : Type) [LE T] [Zero T] where
  now : T
  /-- `time.time()` counts from the epoch on. -/
  epoch : 0 ≤ now
  sessions : Sessions T
  file : Option (Sessions T)

namespace AdminWeb

theorem epoch_max {T : Type} [LinearOrder T] [Zero T] (w : AdminWeb T) (t : T) : 0 ≤ max w.now t :=
  le_max_of_le_left w.epoch

variable {T : Type} [LinearOrder T] [Zero T] [Add T]

/-- `_load_sessions`. -/
def loadSessions (w : AdminWeb T) : Sessions T :=
  match w.file with
  | none => .empty
  | some raw => raw.live w.now

/-- `_save_sessions`. -/
def saveSessions (w : AdminWeb T) : AdminWeb T := { w with file := some w.sessions }

/-- `_new_session`, with the token that `secrets` gives. -/
def newSession (a : Account T) (w : AdminWeb T) (token : Str) : AdminWeb T :=
  { w with sessions := w.sessions.set token (w.now + a.sessionTtl) }.saveSessions

/-- The session cookie of a request, or the empty text. -/
def tokenOf (cookie : Option Str) : Str := cookie.getD []

/-- `_authed`. -/
def authed (w : AdminWeb T) (cookie : Option Str) : Bool × AdminWeb T :=
  match w.sessions.get (tokenOf cookie) with
  | none => (false, w)
  | some exp =>
      if exp = 0 then (false, w)
      else if exp < w.now then (false, { w with sessions := w.sessions.pop (tokenOf cookie) })
      else (true, w)

/-- The check of user and password in `post_login`. -/
def credentials (a : Account T) (user pw : Str) : Except PyErr Bool := do
  if ← compareDigest user a.username then compareDigest pw a.password else return false

/-- `post_login`. -/
def postLogin (a : Account T) (w : AdminWeb T) (user pw token : Str) : AdminWeb T :=
  match credentials a user pw with
  | .ok true => newSession a w token
  | _ => w

/-- `get_logout`. -/
def getLogout (w : AdminWeb T) (cookie : Option Str) : AdminWeb T :=
  { w with sessions := w.sessions.pop (tokenOf cookie) }.saveSessions

/-- The paths that `_auth_mw` lets through. -/
def isOpen (path : Str) : Bool :=
  path = py "/login" || path = py "/health" || (py "/static/").isPrefixOf path

/-- Any request but `POST /login`; `isGet` tells the routes of `GET` apart. -/
def serve (w : AdminWeb T) (isGet : Bool) (path : Str) (cookie : Option Str) : AdminWeb T :=
  if isOpen path then
    -- `get_login` asks whether the visitor is logged in
    if isGet ∧ path = py "/login" then (w.authed cookie).2 else w
  else match w.authed cookie with
    | (false, w) => w
    | (true, w) => if isGet ∧ path = py "/logout" then w.getLogout cookie else w

end AdminWeb

inductive WebStep (T : Type)
  /-- The clock reads `t`, or what it read before if that is later. -/
  | tick (t : T)
  /-- `POST /login`; a session that it opens gets `token`. -/
  | login (user pw token : Str)
  | request (isGet : Bool) (path : Str) (cookie : Option Str)
  | restart

namespace AdminWeb

variable {T : Type} [LinearOrder T] [Zero T] [Add T]

def step (a : Account T) (w : AdminWeb T) : WebStep T → AdminWeb T
  | .tick t => { w with now := max w.now t, epoch := w.epoch_max t }
  | .login user pw token => w.postLogin a user pw token
  | .request isGet path cookie => w.serve isGet path cookie
  | .restart => { w with sessions := w.loadSessions }

/-- The first start, without a session file. -/
def start (t : {t : T // 0 ≤ t}) : AdminWeb T :=
  { now := t.1, epoch := t.2, sessions := .empty, file := none }

end AdminWeb

end Fountainer
