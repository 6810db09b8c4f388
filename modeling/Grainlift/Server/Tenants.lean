/-
  Grainlift.Server.Tenants — the whole server: requests of any principals against the
  registry and the sessions in it (service.rs over session.rs).

  A request is routed, takes its session with `get` and performs its program's operations
  one at a time; or it closes a session; or it opens one in the steps of
  Grainlift.Server.Admission and answers with its id. Between any two steps of a request
  come those of others, the background reaper, a shutdown, and jobs whose callers gave up
  on them (`late`). What the client sends is arbitrary: any method with any request, any
  turn with any cursor.

  A session is an object that lives while the registry or a handler holds a reference.
  When the last one goes it is dropped: its uploads are cancelled and a thread cancels its
  connection and statements and drops them (`Deed.cleanup`). `made` is everything done on
  the backend, with the request whose step it was.

  Proved (`tenant_isolation`): every backend call on a session, and every operation on
  what it holds, is a step of a request of its owner; a request leaves a stranger's
  sessions as they are, except that the reaping before its open's admission may drop one
  that is idle and expired; every registered session was opened by its owner for a
  configured target it may use. `reaping_cancels_a_stranger`: so a cancellation on a
  session can come from another principal's open.
-/

import Grainlift.Server.Lease
import Grainlift.Server.Solo

namespace Grainlift.Server.Tenants

open Grainlift.Lib Grainlift.Protocol Function
open SessionRegistry (getLocked closeLocked reapLocked)

/-- A session as its references see it; its lease is in the registry. -/
structure Object where
  principal : String
  target : String
  inner : Inner
  /-- The request that opened it. -/
  opener : Nat

inductive Deed where
  | call (c : BackendCall)
  /-- What the thread of a dropped session does: the statements it cancels. -/
  | cleanup (statements : Finset String)

structure Made where
  session : String
  request : Option Nat
  deed : Deed

/-- How far a request has come. -/
inductive Stage where
  | taking (principal session : String) (body : SessionView → Do RpcError Reply)
  | running (session : String) (prog : Do RpcError Reply)
  | closing (principal session : String)
  /-- In `open`, the number of which it is. -/
  | opening (i : Nat) (databaseOptions connectionOptions : List (String × OptionValue))
  | finished (r : Except RpcError Reply)

structure Served where
  ctx : CallContext
  invocation : Invocation
  stage : Stage

/-- A job its caller gave up on, which runs all the same. -/
structure Late where
  request : Nat
  session : String
  job : Job

structure St where
  front : Admission.St Unit
  objects : String → Option Object
  requests : List Served
  late : List Late
  made : List Made

def init : St := ⟨Admission.init, fun _ => none, [], [], []⟩

/-- What the server does without a request. -/
inductive Chore where
  | tick (n : Nat)
  | reapExpired
  | closeAllStore
  | closeAllTake

def Chore.ev : Chore → Admission.Ev Unit
  | .tick n => .tick n
  | .reapExpired => .reapExpired
  | .closeAllStore => .closeAllStore
  | .closeAllTake => .closeAllTake

inductive Ev where
  | arrive (ctx : CallContext) (invocation : Invocation)
  | proceed (n : Nat) (m : Moment)
  | move (n : Nat) (m : Admission.Move Unit)
  | late (k : Nat) (w : World)
  | chore (c : Chore)

/-! ## Steps -/

/-- Somebody holds a reference to the session. -/
def alive (a : Admission.St Unit) (id : String) : Bool :=
  (a.registry.sessions.lookup id).isSome || a.references.contains id

def gone (a a' : Admission.St Unit) : List String :=
  (a.registry.sessions.keys ++ a.references).dedup.filter fun id => !alive a' id

/-- The uploads of a dropped session are cancelled. -/
def Object.drained (o : Object) : Object := { o with inner := { o.inner with bindUploads := ∅ } }

/-- The registry moves, and what nobody holds any more is dropped. -/
def St.moves (s : St) (request : Option Nat) (front : Admission.St Unit) : St :=
  { s with
    front := front
    objects := fun id => (s.objects id).map fun o => if id ∈ gone s.front front then o.drained else o
    made := s.made ++ (gone s.front front).filterMap fun id =>
      (s.objects id).map fun o => ⟨id, request, .cleanup o.inner.statements⟩ }

/-- The session's data after an operation for the request `n`, and the calls that made. -/
def St.performed (s : St) (n : Nat) (id : String) (o : Object) (inner : Inner) : St :=
  { s with
    objects := update s.objects id (some { o with inner := inner })
    made := s.made ++ (inner.calls.drop o.inner.calls.length).map fun c => ⟨id, some n, .call c⟩ }

def St.goes (s : St) (n : Nat) (r : Served) (stage : Stage) : St :=
  { s with requests := s.requests.set n { r with stage := stage } }

/-- A job that will run late has not run yet. -/
def atOnce (m : Moment) : Moment := { m with fate := if m.fate = .late then .abandoned else m.fate }

def leftOver (n : Nat) (id : String) (m : Moment) : Op → List Late
  | .job j => if m.fate = .late then [⟨n, id, j⟩] else []
  | .hold _ => []

def viewOf (id : String) (o : Object) : SessionView := ⟨id, o.principal, o.target, o.inner.connectionOptionPolicy⟩

section Machine

variable (host : Host) (srv : Service)

def policyOf (target : String) : ClientOptionPolicy :=
  ((srv.config.targets.lookup target).map TargetConfig.connectionOptionPolicy).getD (.new false [] [])

/-- The session an open builds with its last move, under its id. -/
def built (s : St) (n i : Nat) : Admission.Move Unit → Option (String × Object)
  | .insert id => do
    let o ← s.front.opens[i]?
    match o.stage with
    | .ready session =>
      if id ∈ s.front.issued then none
      else some (id, ⟨session.principal, session.target, .opened (policyOf srv session.target), n⟩)
    | _ => none
  | _ => none

/-- A built session is registered, or dropped again when the server is closing. -/
def St.builds (s : St) (n : Nat) (id : String) (o : Object) : St :=
  { s with
    objects := update s.objects id (some o)
    made := s.made ++ if alive s.front id then [] else [⟨id, some n, .cleanup o.inner.statements⟩] }

def arrives (s : St) (ctx : CallContext) (invocation : Invocation) : St :=
  match route srv ctx invocation with
  | .fail e => { s with requests := s.requests ++ [⟨ctx, invocation, .finished (.error e)⟩] }
  | .nothing => { s with requests := s.requests ++ [⟨ctx, invocation, .finished (.ok .cancelled)⟩] }
  | .onSession p id body => { s with requests := s.requests ++ [⟨ctx, invocation, .taking p id body⟩] }
  | .closeSession p id => { s with requests := s.requests ++ [⟨ctx, invocation, .closing p id⟩] }
  | .openSession p target database connection =>
    { s with
      front := Admission.step srv.config s.front (.open p target)
      requests := s.requests ++ [⟨ctx, invocation, .opening s.front.opens.length database connection⟩] }

def openReply (ctx : CallContext) (answer : Except AdbcError String) : Except RpcError Reply := do
  let sessionId ← orAdbc answer
  (orProtocol (boundedResponse srv (.session sessionId) (responseLimit ctx))).map .unary

def closeReply (answer : Except AdbcError Unit) : Except RpcError Reply := do
  orAdbc answer
  okBatch srv

def proceeds (s : St) (n : Nat) (r : Served) (m : Moment) : Option St :=
  match r.stage with
  | .taking p id body =>
    let s' := s.moves (some n) (Admission.step srv.config s.front (.get p id))
    match (s.front.registry.getLocked s.front.now srv.config.ttl (Admission.inFlight s.front) id p).1,
      s.objects id with
    | .ok _, some o => some (s'.goes n r (.running id (body (viewOf id o))))
    | .ok _, none => none
    | .error e, _ => some (s'.goes n r (.finished (.error (.adbc e))))
  | .running id (.call op k) => do
    let o ← s.objects id
    let a := respond host (atOnce m) op o.inner
    some { (s.performed n id o a.2).goes n r (.running id (k a.1)) with late := s.late ++ leftOver n id m op }
  | .running id (.done reply) =>
    some ((s.moves (some n) (Admission.step srv.config s.front (.dropReference id))).goes n r (.finished reply))
  | .closing p id =>
    some ((s.moves (some n) (Admission.step srv.config s.front (.close p id))).goes n r
      (.finished (closeReply srv (s.front.registry.closeLocked id p).1)))
  | .opening i _ _ => do
    let o ← s.front.opens[i]?
    match o.stage with
    | .returned answer =>
      let reply := openReply srv r.ctx answer
      match answer, reply with
      -- the response does not fit: the session is closed again
      | .ok id, .error _ =>
        some ((s.moves (some n) (Admission.step srv.config s.front (.close o.principal id))).goes n r (.finished reply))
      | _, _ => some (s.goes n r (.finished reply))
    | _ => none
  | .finished _ => none

def next (s : St) : Ev → Option St
  | .arrive ctx invocation => some (arrives srv s ctx invocation)
  | .proceed n m => do
    let r ← s.requests[n]?
    proceeds host srv s n r m
  | .move n m => do
    let r ← s.requests[n]?
    match r.stage with
    | .opening i _ _ =>
      let s' := s.moves (some n) (Admission.step srv.config s.front (.move i m))
      match built srv s n i m with
      | some (id, o) => some (s'.builds n id o)
      | none => some s'
    | _ => none
  | .late k w => do
    let l ← s.late[k]?
    let o ← s.objects l.session
    some { s.performed l.request l.session o (l.job.perform host.limits w o.inner).2 with late := s.late.eraseIdx k }
  | .chore c => some (s.moves none (Admission.step srv.config s.front c.ev))

def step (s : St) (e : Ev) : St := (next host srv s e).getD s

def machine : Machine St Ev where
  init := (· = init)
  step := step host srv

/-- The request whose step an event is. -/
def Ev.request (s : St) : Ev → Option Nat
  | .arrive _ _ => some s.requests.length
  | .proceed n _ | .move n _ => some n
  | .late k _ => (s.late[k]?).map Late.request
  | .chore _ => none

/-- The principal key of a request. -/
def St.key (s : St) (n : Nat) : Option String := (s.requests[n]?).bind fun r => (principal srv r.ctx).toOption

def St.owner (s : St) (id : String) : Option String := (s.objects id).map Object.principal

end Machine

/-! ## Whose request it is -/

section Route

variable {srv : Service} {ctx : CallContext} {request : Protocol.Request} {p : String}

/-- The principal a plan goes on with. -/
def keyOf : Plan → Option String
  | .openSession p _ _ _ | .closeSession p _ | .onSession p _ _ => some p
  | .fail _ | .nothing => none

theorem ofExcept_key {r : Except RpcError Plan} (h : keyOf (.ofExcept r) = some p) :
    ∃ plan, r = .ok plan ∧ keyOf plan = some p := by
  cases r with
  | error e => cases h
  | ok plan => exact ⟨plan, rfl, h⟩

theorem getSession_key {f : SessionView → Do RpcError Reply} (h : keyOf (getSession srv ctx request f) = some p) :
    principal srv ctx = .ok p := by
  obtain ⟨plan, hr, hk⟩ := ofExcept_key h
  obtain ⟨_, -, hr⟩ := bind_eq_ok hr
  obtain ⟨p', hp, hr⟩ := bind_eq_ok hr
  obtain ⟨_, -, hr⟩ := bind_eq_ok hr
  cases hr
  cases hk
  exact hp

theorem sessionById_key {id : String} {f : SessionView → Do RpcError Reply} {plan : Plan}
    (h : sessionById srv ctx id f = .ok plan) (hk : keyOf plan = some p) : principal srv ctx = .ok p := by
  obtain ⟨p', hp, h⟩ := bind_eq_ok h
  cases h
  cases hk
  exact hp

theorem typed_key {t : RequestKind} {id : t.Record → String} {f : t.Record → SessionView → Do RpcError Reply}
    (h : keyOf (.ofExcept (typedRequest srv t request >>= fun args => sessionById srv ctx (id args) (f args))) = some p) :
    principal srv ctx = .ok p := by
  obtain ⟨plan, hr, hk⟩ := ofExcept_key h
  obtain ⟨args, -, hr⟩ := bind_eq_ok hr
  exact sessionById_key hr hk

theorem request_key (method : Method) (h : keyOf (routeRequest srv ctx request method) = some p) :
    principal srv ctx = .ok p := by
  cases method with
  | openConnection =>
    obtain ⟨plan, hr, hk⟩ := ofExcept_key h
    obtain ⟨_, -, hr⟩ := bind_eq_ok hr
    obtain ⟨p', hp, hr⟩ := bind_eq_ok hr
    obtain ⟨_, -, hr⟩ := bind_eq_ok hr
    obtain ⟨_, -, hr⟩ := bind_eq_ok hr
    cases hr
    cases hk
    exact hp
  | closeConnection =>
    obtain ⟨plan, hr, hk⟩ := ofExcept_key h
    obtain ⟨_, -, hr⟩ := bind_eq_ok hr
    obtain ⟨p', hp, hr⟩ := bind_eq_ok hr
    obtain ⟨_, -, hr⟩ := bind_eq_ok hr
    cases hr
    cases hk
    exact hp
  | setConnectionOption | getInfo | getObjects | getTableSchema | getStatistics | setStatementOption =>
    exact typed_key h
  | _ => exact getSession_key h

/-- The principal of a plan is the caller's. -/
theorem route_key {invocation : Invocation} (h : keyOf (route srv ctx invocation) = some p) :
    principal srv ctx = .ok p := by
  cases invocation with
  | request method request => exact request_key method h
  | exchange cursor input =>
    obtain ⟨plan, hr, hk⟩ := ofExcept_key h
    exact sessionById_key hr hk
  | produce cursor =>
    obtain ⟨plan, hr, hk⟩ := ofExcept_key h
    exact sessionById_key hr hk
  | exchangeCancel cursor | produceCancel cursor =>
    simp only [route] at h
    split at h
    · rename_i p' hp
      cases h
      exact hp
    · cases h

end Route

/-! ## The opens -/

section Opens

variable {cfg : Config} {a : Admission.St Unit} {closing : Bool} {now : Nat} {o o' : Admission.Open Unit}
  {m : Admission.Move Unit}

theorem advance_keeps (h : Admission.Advance closing now o m o') :
    o'.principal = o.principal ∧ o'.target = o.target := by
  cases h <;> exact ⟨rfl, rfl⟩

/-- Authorized, unless it ended with an error; its session is its own. -/
def Cleared (cfg : Config) (o : Admission.Open Unit) : Prop :=
  (∃ e, o.stage = .returned (.error e)) ∨
  ((∃ c, Admission.authorize cfg o.principal o.target = .ok c) ∧
    ∀ session, o.stage = .ready session → session.principal = o.principal ∧ session.target = o.target)

theorem advance_cleared (h : Admission.Advance closing now o m o') (ho : Cleared cfg o) : Cleared cfg o' := by
  have hkeep : ∀ {stage : Admission.Stage Unit}, o.stage = stage → (∀ e, stage ≠ .returned (.error e)) →
      ∃ c, Admission.authorize cfg o.principal o.target = .ok c := by
    intro stage hs hne
    rcases ho with ⟨e, he⟩ | ⟨hc, -⟩
    · exact absurd (hs.symm.trans he) (hne e)
    · exact hc
  cases h with
  | stay => exact ho
  | backendReturned _ _ => exact ho
  | backendPanicked _ => exact ho
  | refused e _ => exact .inl ⟨e, rfl⟩
  | denied e _ => exact .inl ⟨e, rfl⟩
  | released e _ => exact .inl ⟨e, rfl⟩
  | insertRefused id session e _ _ => exact .inl ⟨e, rfl⟩
  | started connection hs =>
    refine .inr ⟨hkeep hs (by simp), ?_⟩
    intro session hr
    cases hr
    exact ⟨rfl, rfl⟩
  | checked hs _ => exact .inr ⟨hkeep hs (by simp), fun _ hr => by cases hr⟩
  | reaped hs => exact .inr ⟨hkeep hs (by simp), fun _ hr => by cases hr⟩
  | reserved hs _ => exact .inr ⟨hkeep hs (by simp), fun _ hr => by cases hr⟩
  | spawned hs => exact .inr ⟨hkeep hs (by simp), fun _ hr => by cases hr⟩
  | spawnFailed text e hs => exact .inr ⟨hkeep hs (by simp), fun _ hr => by cases hr⟩
  | received connection hs _ => exact .inr ⟨hkeep hs (by simp), fun _ hr => by cases hr⟩
  | receivedError e hs _ => exact .inr ⟨hkeep hs (by simp), fun _ hr => by cases hr⟩
  | expired e hs _ => exact .inr ⟨hkeep hs (by simp), fun _ hr => by cases hr⟩
  | startFailed text e connection hs => exact .inr ⟨hkeep hs (by simp), fun _ hr => by cases hr⟩
  | inserted id session hs _ => exact .inr ⟨hkeep hs (by simp), fun _ hr => by cases hr⟩

theorem step_cleared (h : ∀ o ∈ a.opens, Cleared cfg o) (e : Admission.Ev Unit) :
    ∀ o ∈ (Admission.step cfg a e).opens, Cleared cfg o := by
  intro o ho
  rcases Admission.step_opens cfg a e with he | ⟨p, target, stage, rfl, -, he⟩ | ⟨i, m, o1, o2, -, hi, he, hadv⟩
  · rw [he] at ho
    exact h o ho
  · simp only [Admission.step] at ho
    rcases List.mem_append.mp ho with ho | ho
    · exact h o ho
    · obtain rfl := List.mem_singleton.mp ho
      unfold Cleared
      cases ha : Admission.authorize cfg p target with
      | ok c => exact .inr ⟨⟨c, rfl⟩, fun _ hr => by cases hr⟩
      | error e => exact .inl ⟨e, rfl⟩
  · rw [he] at ho
    rcases List.mem_or_eq_of_mem_set ho with ho | rfl
    · exact h o ho
    · exact advance_cleared hadv (h o1 (List.mem_of_getElem? hi))

/-- An open keeps its number, its principal and its target. -/
theorem opens_later {i : Nat} (h : a.opens[i]? = some o) (e : Admission.Ev Unit) :
    ∃ o', (Admission.step cfg a e).opens[i]? = some o' ∧ o'.principal = o.principal ∧ o'.target = o.target := by
  rcases Admission.step_opens cfg a e with he | ⟨p, target, stage, -, -, he⟩ | ⟨j, m, o1, o2, -, hj, he, hadv⟩
  · rw [he]
    exact ⟨o, h, rfl, rfl⟩
  · rw [he]
    exact ⟨o, getElem?_snoc_of_some h, rfl, rfl⟩
  · rw [he]
    by_cases hij : i = j
    · subst hij
      rw [h] at hj
      cases hj
      exact ⟨o2, getElem?_set_of_some h, advance_keeps hadv⟩
    · exact ⟨o, by rwa [List.getElem?_set_ne (Ne.symm hij)], rfl, rfl⟩

/-- Ids are issued by the last move of an open only. -/
theorem stepOpen_issued (cfg : Config) (a : Admission.St Unit) (i : Nat) (o : Admission.Open Unit)
    (m : Admission.Move Unit) :
    (Admission.stepOpen cfg a i o m).issued = a.issued ∨
    ∃ id session, m = .insert id ∧ o.stage = .ready session ∧ id ∉ a.issued ∧
      (Admission.stepOpen cfg a i o m).issued = id :: a.issued := by
  cases m with
  | insert id =>
    simp only [Admission.stepOpen]
    cases hs : o.stage with
    | ready session =>
      by_cases hid : id ∈ a.issued
      · exact .inl (by simp [hid])
      · exact .inr ⟨id, session, rfl, rfl, hid, by simp [hid]⟩
    | _ => exact .inl rfl
  | receive | expire =>
    simp only [Admission.stepOpen]
    split <;> exact .inl rfl
  | backendReturns r | backendPanics =>
    simp only [Admission.stepOpen]
    cases o.backend <;> exact .inl rfl
  | spawn error | workerStart error =>
    simp only [Admission.stepOpen]
    cases o.stage <;> cases error <;> exact .inl rfl
  | checkClosing =>
    simp only [Admission.stepOpen]
    cases o.stage with
    | asked => cases a.closing <;> exact .inl rfl
    | _ => exact .inl rfl
  | reserve =>
    simp only [Admission.stepOpen]
    cases o.stage <;> cases a.registry.reserveLocked a.closing cfg.limits o.principal <;> exact .inl rfl
  | reap | release =>
    simp only [Admission.stepOpen]
    cases o.stage <;> exact .inl rfl

theorem issued_later {id : String} (h : id ∈ a.issued) (e : Admission.Ev Unit) :
    id ∈ (Admission.step cfg a e).issued := by
  cases e with
  | move i m =>
    simp only [Admission.step]
    cases a.opens[i]? with
    | none => exact h
    | some o =>
      rcases stepOpen_issued cfg a i o m with he | ⟨id', session, -, -, -, he⟩
      · exact he ▸ h
      · exact he ▸ List.mem_cons_of_mem _ h
  | get p id' =>
    simp only [Admission.step]
    split <;> exact h
  | closeAllTake =>
    simp only [Admission.step]
    split <;> exact h
  | «open» _ _ | dropReference _ | close _ _ | reapExpired | closeAllStore | tick _ => exact h

end Opens

/-! ## What a step can do -/

section Steps

variable {host : Host} {srv : Service} {s : St} {id : String} {o : Object}

theorem mem_gone {a a' : Admission.St Unit} : id ∈ gone a a' ↔ alive a id = true ∧ alive a' id = false := by
  simp only [gone, List.mem_filter, List.mem_dedup, List.mem_append, alive, Bool.not_eq_true', Bool.or_eq_true,
    List.contains_iff_mem]
  refine and_congr_left fun _ => or_congr_left ?_
  rw [← AList.mem_keys, AList.lookup_isSome]

theorem moves_objects (request : Option Nat) (front : Admission.St Unit) (h : s.objects id = some o) :
    (s.moves request front).objects id = some (if id ∈ gone s.front front then o.drained else o) := by
  simp [St.moves, h]

/-- What a registry move makes is the cleanup of sessions that went with it. -/
theorem moves_made {request : Option Nat} {front : Admission.St Unit} {d : Made}
    (h : d ∈ (s.moves request front).made) :
    d ∈ s.made ∨ (d.request = request ∧ d.session ∈ gone s.front front ∧ (s.owner d.session).isSome ∧
      ∃ statements, d.deed = .cleanup statements) := by
  rcases List.mem_append.mp h with h | h
  · exact .inl h
  · obtain ⟨id, hid, hd⟩ := List.mem_filterMap.mp h
    obtain ⟨o, ho, rfl⟩ := Option.map_eq_some_iff.mp hd
    exact .inr ⟨rfl, hid, by simp [St.owner, ho], _, rfl⟩

/-- What an event that is a step does. -/
inductive Does (host : Host) (srv : Service) (s : St) : Ev → St → Prop
  | arrived {ctx : CallContext} {invocation : Invocation} :
      Does host srv s (.arrive ctx invocation) (arrives srv s ctx invocation)
  | took {n : Nat} {r : Served} {p id : String} {body : SessionView → Do RpcError Reply}
      {session : Session Unit} {o : Object} {m : Moment} : s.requests[n]? = some r → r.stage = .taking p id body →
      (s.front.registry.getLocked s.front.now srv.config.ttl (Admission.inFlight s.front) id p).1 = .ok session →
      s.objects id = some o →
      Does host srv s (.proceed n m)
        ((s.moves (some n) (Admission.step srv.config s.front (.get p id))).goes n r (.running id (body (viewOf id o))))
  | missed {n : Nat} {r : Served} {p id : String} {body : SessionView → Do RpcError Reply} {e : AdbcError}
      {m : Moment} :
      s.requests[n]? = some r → r.stage = .taking p id body →
      (s.front.registry.getLocked s.front.now srv.config.ttl (Admission.inFlight s.front) id p).1 = .error e →
      Does host srv s (.proceed n m)
        ((s.moves (some n) (Admission.step srv.config s.front (.get p id))).goes n r (.finished (.error (.adbc e))))
  | operated {n : Nat} {r : Served} {id : String} {op : Op} {k : Ans op → Do RpcError Reply} {o : Object}
      {m : Moment} :
      s.requests[n]? = some r → r.stage = .running id (.call op k) → s.objects id = some o →
      Does host srv s (.proceed n m)
        { (s.performed n id o (respond host (atOnce m) op o.inner).2).goes n r
            (.running id (k (respond host (atOnce m) op o.inner).1)) with late := s.late ++ leftOver n id m op }
  | ended {n : Nat} {r : Served} {id : String} {reply : Except RpcError Reply} {m : Moment} :
      s.requests[n]? = some r → r.stage = .running id (.done reply) →
      Does host srv s (.proceed n m)
        ((s.moves (some n) (Admission.step srv.config s.front (.dropReference id))).goes n r (.finished reply))
  | closed {n : Nat} {r : Served} {p id : String} {m : Moment} : s.requests[n]? = some r → r.stage = .closing p id →
      Does host srv s (.proceed n m)
        ((s.moves (some n) (Admission.step srv.config s.front (.close p id))).goes n r
          (.finished (closeReply srv (s.front.registry.closeLocked id p).1)))
  | answered {n i : Nat} {r : Served} {database connection : List (String × OptionValue)} {o : Admission.Open Unit}
      {answer : Except AdbcError String} {m : Moment} :
        s.requests[n]? = some r → r.stage = .opening i database connection →
      s.front.opens[i]? = some o → o.stage = .returned answer →
      Does host srv s (.proceed n m) (s.goes n r (.finished (openReply srv r.ctx answer)))
  | withdrew {n i : Nat} {r : Served} {database connection : List (String × OptionValue)} {o : Admission.Open Unit}
      {id : String} {m : Moment} : s.requests[n]? = some r → r.stage = .opening i database connection →
      s.front.opens[i]? = some o → o.stage = .returned (.ok id) →
      Does host srv s (.proceed n m)
        ((s.moves (some n) (Admission.step srv.config s.front (.close o.principal id))).goes n r
          (.finished (openReply srv r.ctx (.ok id))))
  | moved {n i : Nat} {r : Served} {database connection : List (String × OptionValue)} {m : Admission.Move Unit} :
      s.requests[n]? = some r → r.stage = .opening i database connection → built srv s n i m = none →
      Does host srv s (.move n m) (s.moves (some n) (Admission.step srv.config s.front (.move i m)))
  | opened {n i : Nat} {r : Served} {database connection : List (String × OptionValue)} {m : Admission.Move Unit}
      {id : String} {o : Object} : s.requests[n]? = some r → r.stage = .opening i database connection →
      built srv s n i m = some (id, o) →
      Does host srv s (.move n m) ((s.moves (some n) (Admission.step srv.config s.front (.move i m))).builds n id o)
  | ranLate {k : Nat} {w : World} {l : Late} {o : Object} : s.late[k]? = some l → s.objects l.session = some o →
      Does host srv s (.late k w)
        { s.performed l.request l.session o (l.job.perform host.limits w o.inner).2 with late := s.late.eraseIdx k }
  | chore {c : Chore} : Does host srv s (.chore c) (s.moves none (Admission.step srv.config s.front c.ev))

theorem proceeds_does {n : Nat} {r : Served} {m : Moment} {s' : St} (hr : s.requests[n]? = some r)
    (h : proceeds host srv s n r m = some s') : Does host srv s (.proceed n m) s' := by
  unfold proceeds at h
  split at h
  · rename_i p id body hst
    simp only at h
    split at h
    · rename_i session o hget ho
      cases h
      exact .took hr hst hget ho
    · cases h
    · rename_i e hget
      cases h
      exact .missed hr hst hget
  · rename_i id op k hst
    obtain ⟨o, ho, h⟩ := Option.bind_eq_some_iff.mp h
    cases h
    exact .operated hr hst ho
  · rename_i id reply hst
    cases h
    exact .ended hr hst
  · rename_i p id hst
    cases h
    exact .closed hr hst
  · rename_i i database connection hst
    obtain ⟨o, ho, h⟩ := Option.bind_eq_some_iff.mp h
    split at h
    · rename_i answer hans
      simp only at h
      split at h
      · cases h
        exact .withdrew hr hst ho hans
      · cases h
        exact .answered hr hst ho hans
    · cases h
  · cases h

/-- A step is one of these, or nothing. -/
theorem step_does (e : Ev) : step host srv s e = s ∨ Does host srv s e (step host srv s e) := by
  unfold step
  cases hn : next host srv s e with
  | none => exact .inl rfl
  | some s' =>
    right
    simp only [Option.getD_some]
    cases e with
    | arrive ctx invocation =>
      cases hn
      exact .arrived
    | proceed n m =>
      obtain ⟨r, hr, hn⟩ := Option.bind_eq_some_iff.mp hn
      exact proceeds_does hr hn
    | move n m =>
      obtain ⟨r, hr, hn⟩ := Option.bind_eq_some_iff.mp hn
      split at hn
      · rename_i i database connection hst
        simp only at hn
        split at hn
        · rename_i id o hb
          cases hn
          exact .opened hr hst hb
        · rename_i hb
          cases hn
          exact .moved hr hst hb
      · cases hn
    | late k w =>
      obtain ⟨l, hl, hn⟩ := Option.bind_eq_some_iff.mp hn
      obtain ⟨o, ho, hn⟩ := Option.bind_eq_some_iff.mp hn
      cases hn
      exact .ranLate hl ho
    | chore c =>
      cases hn
      exact .chore

end Steps

/-! ## What lasts -/

section Later

variable {host : Host} {srv : Service} {s s' : St} {e : Ev} {n : Nat} {id p : String}

theorem arrives_requests (srv : Service) (s : St) (ctx : CallContext) (invocation : Invocation) :
    ∃ stage, (arrives srv s ctx invocation).requests = s.requests ++ [⟨ctx, invocation, stage⟩] := by
  unfold arrives
  split <;> exact ⟨_, rfl⟩

theorem arrives_objects (srv : Service) (s : St) (ctx : CallContext) (invocation : Invocation) :
    (arrives srv s ctx invocation).objects = s.objects ∧ (arrives srv s ctx invocation).made = s.made ∧
    (arrives srv s ctx invocation).late = s.late ∧
    ((arrives srv s ctx invocation).front = s.front ∨
      ∃ p target, (arrives srv s ctx invocation).front = Admission.step srv.config s.front (.open p target)) := by
  unfold arrives
  split
  case h_5 p target _ _ _ => exact ⟨rfl, rfl, rfl, .inr ⟨p, target, rfl⟩⟩
  all_goals exact ⟨rfl, rfl, rfl, .inl rfl⟩

/-- The registry is left alone or takes a step of its own. -/
theorem does_front (h : Does host srv s e s') :
    s'.front = s.front ∨ ∃ ae, s'.front = Admission.step srv.config s.front ae := by
  cases h with
  | arrived =>
    rcases (arrives_objects srv s _ _).2.2.2 with h | ⟨p, target, h⟩
    · exact .inl h
    · exact .inr ⟨_, h⟩
  | operated _ _ _ => exact .inl rfl
  | ranLate _ _ => exact .inl rfl
  | took _ _ _ _ | missed _ _ _ => exact .inr ⟨.get _ _, rfl⟩
  | ended _ _ => exact .inr ⟨.dropReference _, rfl⟩
  | closed _ _ => exact .inr ⟨.close _ _, rfl⟩
  | answered _ _ _ _ => exact .inl rfl
  | withdrew _ _ _ _ => exact .inr ⟨.close _ _, rfl⟩
  | moved _ _ _ | opened _ _ _ => exact .inr ⟨.move _ _, rfl⟩
  | @chore c => exact .inr ⟨c.ev, rfl⟩

theorem request_set {r : Served} {stage : Stage} (hr : s.requests[n]? = some r) {i : Nat} {x : Served}
    (h : s.requests[i]? = some x) :
    ∃ x', (s.requests.set n { r with stage := stage })[i]? = some x' ∧ x'.ctx = x.ctx ∧
      x'.invocation = x.invocation := by
  by_cases hi : i = n
  · subst hi
    rw [hr] at h
    cases h
    exact ⟨_, getElem?_set_of_some hr, rfl, rfl⟩
  · exact ⟨x, by rwa [List.getElem?_set_ne (Ne.symm hi)], rfl, rfl⟩

theorem request_later (h : Does host srv s e s') {r : Served} (hr : s.requests[n]? = some r) :
    ∃ r', s'.requests[n]? = some r' ∧ r'.ctx = r.ctx ∧ r'.invocation = r.invocation := by
  cases h with
  | arrived =>
    obtain ⟨stage, h⟩ := arrives_requests srv s _ _
    exact ⟨r, by rw [h]; exact getElem?_snoc_of_some hr, rfl, rfl⟩
  | took hn _ _ _ => exact request_set hn hr
  | missed hn _ _ => exact request_set hn hr
  | operated hn _ _ => exact request_set hn hr
  | ended hn _ => exact request_set hn hr
  | closed hn _ => exact request_set hn hr
  | answered hn _ _ _ => exact request_set hn hr
  | withdrew hn _ _ _ => exact request_set hn hr
  | moved _ _ _ | opened _ _ _ | ranLate _ _ | chore => exact ⟨r, hr, rfl, rfl⟩

theorem key_later (h : Does host srv s e s') (hk : s.key srv n = some p) : s'.key srv n = some p := by
  obtain ⟨r, hr, hp⟩ := Option.bind_eq_some_iff.mp hk
  obtain ⟨r', hr', hctx, -⟩ := request_later h hr
  exact Option.bind_eq_some_iff.mpr ⟨r', hr', by rw [hctx]; exact hp⟩

theorem key_eq {r : Served} (hr : s.requests[n]? = some r) (hp : principal srv r.ctx = .ok p) : s.key srv n = some p :=
  Option.bind_eq_some_iff.mpr ⟨r, hr, by rw [hp]; rfl⟩

/-- The same session, perhaps with other contents. -/
structure Same (o o' : Object) : Prop where
  principal : o'.principal = o.principal
  target : o'.target = o.target
  opener : o'.opener = o.opener

theorem Same.refl (o : Object) : Same o o := ⟨rfl, rfl, rfl⟩

theorem moves_later (request : Option Nat) {front : Admission.St Unit} {o : Object} (h : s.objects id = some o) :
    ∃ o', (s.moves request front).objects id = some o' ∧ Same o o' := by
  refine ⟨_, moves_objects request front h, ?_⟩
  split <;> exact ⟨rfl, rfl, rfl⟩

theorem performed_later (n : Nat) {o1 : Object} (inner : Inner) {id1 : String} (h1 : s.objects id1 = some o1)
    {o : Object}
    (h : s.objects id = some o) : ∃ o', (s.performed n id1 o1 inner).objects id = some o' ∧ Same o o' := by
  by_cases hid : id = id1
  · subst hid
    rw [h1] at h
    cases h
    exact ⟨_, update_self _ _ _, ⟨rfl, rfl, rfl⟩⟩
  · exact ⟨o, by simpa [St.performed, hid] using h, .refl o⟩

theorem built_some {srv : Service} {i : Nat} {m : Admission.Move Unit} {o : Object}
    (h : built srv s n i m = some (id, o)) :
    ∃ x session, m = .insert id ∧ s.front.opens[i]? = some x ∧ x.stage = .ready session ∧ id ∉ s.front.issued ∧
      o = ⟨session.principal, session.target, .opened (policyOf srv session.target), n⟩ := by
  cases m with
  | insert id' =>
    obtain ⟨x, hx, h⟩ := Option.bind_eq_some_iff.mp h
    split at h
    · rename_i session hs
      split at h
      · cases h
      · rename_i hid
        cases h
        exact ⟨x, session, rfl, hx, hs, hid, rfl⟩
    · cases h
  | _ => cases h

/-- Session ids are issued once. -/
def Known (s : St) : Prop := ∀ id, (s.objects id).isSome → id ∈ s.front.issued

theorem object_later (hk : Known s) (h : Does host srv s e s') {o : Object} (ho : s.objects id = some o) :
    ∃ o', s'.objects id = some o' ∧ Same o o' := by
  cases h with
  | arrived => exact ⟨o, by rw [(arrives_objects srv s _ _).1]; exact ho, .refl o⟩
  | took _ _ _ _ | missed _ _ _ | ended _ _ | closed _ _ | withdrew _ _ _ _ | moved _ _ _ | chore =>
    exact moves_later none ho
  | answered _ _ _ _ => exact ⟨o, ho, .refl o⟩
  | operated _ _ ho1 => exact performed_later 0 _ ho1 ho
  | ranLate _ ho1 => exact performed_later 0 _ ho1 ho
  | opened _ _ hb =>
    obtain ⟨x, session, -, -, -, hid, -⟩ := built_some hb
    obtain ⟨o', ho', hsame⟩ := moves_later none ho
    refine ⟨o', (update_of_ne ?_ _ _).trans ho', hsame⟩
    intro heq
    subst heq
    exact hid (hk id (by simp [ho]))

theorem owner_later (hk : Known s) (h : Does host srv s e s') (ho : s.owner id = some p) : s'.owner id = some p := by
  obtain ⟨o, hobj, rfl⟩ := Option.map_eq_some_iff.mp ho
  obtain ⟨o', ho', hsame⟩ := object_later hk h hobj
  rw [St.owner, ho', Option.map_some, hsame.principal]

/-- The request is one of the session's owner. -/
def Serves (srv : Service) (s : St) (n : Nat) (id : String) : Prop := ∃ p, s.key srv n = some p ∧ s.owner id = some p

theorem serves_later (hk : Known s) (h : Does host srv s e s') (hs : Serves srv s n id) : Serves srv s' n id := by
  obtain ⟨p, h1, h2⟩ := hs
  exact ⟨p, key_later h h1, owner_later hk h h2⟩

/-- How the registry came to hold a session. -/
theorem sessions_later {cfg : Config} {a : Admission.St Unit} {ae : Admission.Ev Unit} {session : Session Unit}
    (h : (Admission.step cfg a ae).registry.sessions.lookup id = some session) :
    (∃ before, a.registry.sessions.lookup id = some before ∧ session.principal = before.principal ∧
      session.target = before.target) ∨
    ∃ i o, ae = .move i (.insert id) ∧ a.opens[i]? = some o ∧ o.stage = .ready session ∧ id ∉ a.issued := by
  rcases Admission.step_sessions cfg a ae with h' | ⟨-, h'⟩ | ⟨i, o, id', later, rfl, ho, hst, -, hid, h'⟩ |
    ⟨p, id', -, h'⟩ | ⟨p, id', -, h'⟩ | ⟨-, h'⟩
  · rw [h'] at h
    exact .inl ⟨session, h, rfl, rfl⟩
  · rw [h', SessionRegistry.reapLocked, Table.lookup_retain, Option.filter_eq_some_iff] at h
    exact .inl ⟨session, h.1, rfl, rfl⟩
  · rw [h'] at h
    by_cases hne : id = id'
    · subst hne
      rw [AList.lookup_insert] at h
      cases h
      exact .inr ⟨i, o, rfl, ho, hst, hid⟩
    · rw [AList.lookup_insert_ne hne] at h
      exact .inl ⟨session, h, rfl, rfl⟩
  · rw [h'] at h
    by_cases hne : id = id'
    · subst hne
      unfold SessionRegistry.getLocked at h
      cases hl : a.registry.sessions.lookup id with
      | none => simp [hl] at h
      | some before =>
        simp only [hl] at h
        split at h
        · rw [hl] at h
          cases h
          exact .inl ⟨_, rfl, rfl, rfl⟩
        split at h
        · simp at h
        · simp only [AList.lookup_insert, Option.some.injEq] at h
          subst h
          exact .inl ⟨before, rfl, rfl, rfl⟩
    · rw [Lease.get_other hne] at h
      exact .inl ⟨session, h, rfl, rfl⟩
  · rw [h'] at h
    by_cases hne : id = id'
    · subst hne
      unfold SessionRegistry.closeLocked at h
      cases hl : a.registry.sessions.lookup id with
      | none => simp [hl] at h
      | some before =>
        simp only [hl] at h
        split at h
        · rw [hl] at h
          cases h
          exact .inl ⟨_, rfl, rfl, rfl⟩
        · simp at h
    · rw [Lease.close_other hne] at h
      exact .inl ⟨session, h, rfl, rfl⟩
  · rw [h'] at h
    cases h

end Later

/-! ## The invariant -/

section Invariant

variable {host : Host} {srv : Service} {s s' : St} {e : Ev}

/-- What the stage of a request says of it. -/
def StageOk (srv : Service) (s : St) (n : Nat) (r : Served) : Prop :=
  match r.stage with
  | .taking p _ _ | .closing p _ => principal srv r.ctx = .ok p
  | .running id _ => Serves srv s n id
  | .opening i database connection =>
    ∃ o, s.front.opens[i]? = some o ∧ route srv r.ctx r.invocation =
      .openSession o.principal o.target database connection
  | .finished _ => True

/-- A step of a request of the session's owner, or the end of a session. -/
def Justified (srv : Service) (s : St) (d : Made) : Prop :=
  (∃ n, d.request = some n ∧ Serves srv s n d.session) ∨
  ((s.owner d.session).isSome ∧ ∃ statements, d.deed = .cleanup statements)

/-- Opened by a request of its owner, for a target that is configured and allowed. -/
def Opened (srv : Service) (s : St) (o : Object) : Prop :=
  (∃ c, Admission.authorize srv.config o.principal o.target = .ok c) ∧
  ∃ r database connection, s.requests[o.opener]? = some r ∧
    route srv r.ctx r.invocation = .openSession o.principal o.target database connection

structure Inv (srv : Service) (s : St) : Prop where
  front : Admission.Inv srv.config s.front
  cleared : ∀ o ∈ s.front.opens, Cleared srv.config o
  known : Known s
  registered : ∀ id session, s.front.registry.sessions.lookup id = some session →
    ∃ o, s.objects id = some o ∧ o.principal = session.principal ∧ o.target = session.target
  opened : ∀ id o, s.objects id = some o → Opened srv s o
  stages : ∀ (n : Nat) (r : Served), s.requests[n]? = some r → StageOk srv s n r
  late : ∀ l ∈ s.late, Serves srv s l.request l.session
  made : ∀ d ∈ s.made, Justified srv s d

theorem init_inv : Inv srv init where
  front := Admission.init_inv
  cleared := by simp [init, Admission.init]
  known := by
    intro id h
    cases h
  registered := by
    intro id session h
    cases h
  opened := by
    intro id o h
    cases h
  stages := by
    intro n r h
    cases h
  late := by
    intro l h
    cases h
  made := by
    intro d h
    cases h

theorem step_front (hi : Inv srv s) (h : Does host srv s e s') :
    Admission.Inv srv.config s'.front ∧ ∀ o ∈ s'.front.opens, Cleared srv.config o := by
  rcases does_front h with hf | ⟨ae, hf⟩
  · rw [hf]
    exact ⟨hi.front, hi.cleared⟩
  · rw [hf]
    exact ⟨Admission.step_inv hi.front ae, step_cleared hi.cleared ae⟩

theorem front_later (h : Does host srv s e s') {id : String} (hid : id ∈ s.front.issued) : id ∈ s'.front.issued := by
  rcases does_front h with hf | ⟨ae, hf⟩
  · rwa [hf]
  · rw [hf]
    exact issued_later hid ae

/-- A session there was not there before only if an open built it. -/
theorem object_before (h : Does host srv s e s') {id : String} {o : Object} (ho : s'.objects id = some o) :
    (s.objects id).isSome ∨ ∃ n r i database connection m, e = .move n m ∧ s.requests[n]? = some r ∧
      r.stage = .opening i database connection ∧ built srv s n i m = some (id, o) := by
  have hmoves : ∀ {front : Admission.St Unit}, (s.moves none front).objects id = some o → (s.objects id).isSome := by
    intro front hm
    obtain ⟨o1, ho1, -⟩ := Option.map_eq_some_iff.mp hm
    simp [ho1]
  have hperformed : ∀ {id1 : String} {o1 : Object} {inner : Inner}, s.objects id1 = some o1 →
      (s.performed 0 id1 o1 inner).objects id = some o → (s.objects id).isSome := by
    intro id1 o1 inner ho1 hp
    by_cases hid : id = id1
    · subst hid
      simp [ho1]
    · have : s.objects id = some o := by simpa [St.performed, hid] using hp
      simp [this]
  cases h with
  | arrived =>
    rw [(arrives_objects srv s _ _).1] at ho
    exact .inl (by simp [ho])
  | took _ _ _ _ | missed _ _ _ | ended _ _ | closed _ _ | withdrew _ _ _ _ | moved _ _ _ | chore =>
    exact .inl (hmoves ho)
  | answered _ _ _ _ =>
    have ho : s.objects id = some o := ho
    exact .inl (by simp [ho])
  | operated _ _ ho1 => exact .inl (hperformed ho1 ho)
  | ranLate _ ho1 => exact .inl (hperformed ho1 ho)
  | @opened n i r database connection m id1 o1 hr hst hb =>
    by_cases hid : id = id1
    · subst hid
      have : o1 = o := by simpa [St.builds] using ho
      subst this
      exact .inr ⟨n, r, i, database, connection, m, rfl, hr, hst, hb⟩
    · exact .inl (hmoves ((update_of_ne hid _ _).symm.trans ho))

theorem built_issued {n i : Nat} {m : Admission.Move Unit} {id : String} {o : Object}
    (hb : built srv s n i m = some (id, o)) :
    id ∈ (Admission.step srv.config s.front (.move i m)).issued := by
  obtain ⟨x, session, rfl, hx, hst, hid, -⟩ := built_some hb
  simp [Admission.step, hx, Admission.stepOpen, hst, hid]

/-- The event that builds a session is its open's last move. -/
theorem does_build {n i : Nat} {r : Served} {database connection : List (String × OptionValue)}
    {m : Admission.Move Unit}
    {id : String} {o : Object} (h : Does host srv s (.move n m) s') (hr : s.requests[n]? = some r)
    (hst : r.stage = .opening i database connection) (hb : built srv s n i m = some (id, o)) :
    s' = (s.moves (some n) (Admission.step srv.config s.front (.move i m))).builds n id o := by
  cases h with
  | moved hr' hst' hb' =>
    rw [hr] at hr'
    cases hr'
    rw [hst] at hst'
    cases hst'
    rw [hb] at hb'
    cases hb'
  | opened hr' hst' hb' =>
    rw [hr] at hr'
    cases hr'
    rw [hst] at hst'
    cases hst'
    rw [hb] at hb'
    cases hb'
    rfl

theorem step_known (hi : Inv srv s) (h : Does host srv s e s') : Known s' := by
  intro id hsome
  obtain ⟨o, ho⟩ := Option.isSome_iff_exists.mp hsome
  rcases object_before h ho with hb | ⟨n, r, i, database, connection, m, rfl, hr, hst, hb⟩
  · exact front_later h (hi.known id hb)
  · rw [does_build h hr hst hb]
    exact built_issued hb

theorem step_opened (hi : Inv srv s) (h : Does host srv s e s') (id : String) (o : Object)
    (ho : s'.objects id = some o) :
    Opened srv s' o := by
  have hlater : ∀ {o1 : Object}, Opened srv s o1 → Opened srv s' o1 := by
    intro o1 h'
    obtain ⟨hc, r, database, connection, hr, hroute⟩ := h'
    obtain ⟨r', hr', hctx, hinv⟩ := request_later h hr
    exact ⟨hc, r', database, connection, hr', by rw [hctx, hinv]; exact hroute⟩
  rcases object_before h ho with hb | ⟨n, r, i, database, connection, m, rfl, hr, hst, hb⟩
  · obtain ⟨o1, ho1⟩ := Option.isSome_iff_exists.mp hb
    obtain ⟨o2, ho2, hsame⟩ := object_later hi.known h ho1
    rw [ho] at ho2
    cases ho2
    have := hlater (hi.opened id o1 ho1)
    unfold Opened at this ⊢
    rw [hsame.principal, hsame.target, hsame.opener]
    exact this
  · obtain ⟨x, session, rfl, hx, hready, -, rfl⟩ := built_some hb
    have hstage := hi.stages n r hr
    simp only [StageOk, hst] at hstage
    obtain ⟨x', hx', hroute⟩ := hstage
    rw [hx] at hx'
    cases hx'
    rcases hi.cleared x (List.mem_of_getElem? hx) with ⟨err, herr⟩ | ⟨hc, hown⟩
    · rw [hready] at herr
      cases herr
    · obtain ⟨hp, ht⟩ := hown session hready
      refine hlater ⟨?_, r, database, connection, hr, ?_⟩
      · simp only [hp, ht]
        exact hc
      · simp only [hp, ht]
        exact hroute

theorem step_registered (hi : Inv srv s) (h : Does host srv s e s') (id : String) (session : Session Unit)
    (hl : s'.front.registry.sessions.lookup id = some session) :
    ∃ o, s'.objects id = some o ∧ o.principal = session.principal ∧ o.target = session.target := by
  have hkept : ∀ before, s.front.registry.sessions.lookup id = some before → session.principal = before.principal →
      session.target = before.target →
      ∃ o, s'.objects id = some o ∧ o.principal = session.principal ∧ o.target = session.target := by
    intro before hb hp ht
    obtain ⟨o, ho, ho1, ho2⟩ := hi.registered id before hb
    obtain ⟨o', ho', hsame⟩ := object_later hi.known h ho
    exact ⟨o', ho', by rw [hsame.principal, ho1, hp], by rw [hsame.target, ho2, ht]⟩
  have hstep : ∀ ae, s'.front = Admission.step srv.config s.front ae → (∀ i, ae ≠ .move i (.insert id)) →
      ∃ o, s'.objects id = some o ∧ o.principal = session.principal ∧ o.target = session.target := by
    intro ae hf hne
    rw [hf] at hl
    rcases sessions_later hl with ⟨before, hb, hp, ht⟩ | ⟨i, x, hae, -⟩
    · exact hkept before hb hp ht
    · exact absurd hae (hne i)
  cases h with
  | arrived =>
    rcases (arrives_objects srv s _ _).2.2.2 with hf | ⟨p, target, hf⟩
    · rw [hf] at hl
      exact hkept session hl rfl rfl
    · exact hstep _ hf (by simp)
  | operated _ _ _ => exact hkept session hl rfl rfl
  | ranLate _ _ => exact hkept session hl rfl rfl
  | took _ _ _ _ => exact hstep (.get _ _) rfl (by simp)
  | missed _ _ _ => exact hstep (.get _ _) rfl (by simp)
  | ended _ _ => exact hstep (.dropReference _) rfl (by simp)
  | closed _ _ => exact hstep (.close _ _) rfl (by simp)
  | answered _ _ _ _ => exact hkept session hl rfl rfl
  | withdrew _ _ _ _ => exact hstep (.close _ _) rfl (by simp)
  | @chore c => exact hstep c.ev rfl (by cases c <;> simp [Chore.ev])
  | @moved n i r _ _ m hr hst hb =>
    rcases sessions_later hl with ⟨before, hlb, hp, ht⟩ | ⟨i', x, hae, hx, hready, hid⟩
    · exact hkept before hlb hp ht
    · cases hae
      simp [built, hx, hready, hid] at hb
  | @opened n i r _ _ m id' o hr hst hb =>
    rcases sessions_later hl with ⟨before, hlb, hp, ht⟩ | ⟨i', x, hae, hx, hready, hid⟩
    · exact hkept before hlb hp ht
    · cases hae
      obtain ⟨x', session', hm, hx', hready', -, rfl⟩ := built_some hb
      cases hm
      rw [hx] at hx'
      cases hx'
      rw [hready] at hready'
      cases hready'
      exact ⟨_, update_self _ _ _, rfl, rfl⟩

theorem stageOk_later (hk : Known s) (h : Does host srv s e s') {n : Nat} {r : Served} (hs : StageOk srv s n r) :
    StageOk srv s' n r := by
  unfold StageOk at hs ⊢
  cases hst : r.stage with
  | taking p id body =>
    simp only [hst] at hs
    exact hs
  | closing p id =>
    simp only [hst] at hs
    exact hs
  | running id prog =>
    simp only [hst] at hs
    exact serves_later hk h hs
  | opening i database connection =>
    simp only [hst] at hs
    obtain ⟨o, ho, hroute⟩ := hs
    rcases does_front h with hf | ⟨ae, hf⟩
    · exact ⟨o, by rw [hf]; exact ho, hroute⟩
    · obtain ⟨o', ho', hp, ht⟩ := @opens_later srv.config s.front o i ho ae
      exact ⟨o', by rw [hf]; exact ho', by rw [hp, ht]; exact hroute⟩
  | finished _ => trivial

/-- A request that arrives is at the stage its route says. -/
theorem arrives_stageOk (srv : Service) (s : St) (ctx : CallContext) (invocation : Invocation) :
    ∃ stage, (arrives srv s ctx invocation).requests = s.requests ++ [⟨ctx, invocation, stage⟩] ∧
      StageOk srv (arrives srv s ctx invocation) s.requests.length ⟨ctx, invocation, stage⟩ := by
  unfold arrives
  cases hroute : route srv ctx invocation with
  | fail e => exact ⟨_, rfl, trivial⟩
  | nothing => exact ⟨_, rfl, trivial⟩
  | onSession p id body => exact ⟨_, rfl, route_key (by rw [hroute]; rfl)⟩
  | closeSession p id => exact ⟨_, rfl, route_key (by rw [hroute]; rfl)⟩
  | openSession p target database connection =>
    refine ⟨_, rfl, ?_⟩
    simp only [StageOk, Admission.step, List.getElem?_concat_length, Option.some.injEq, exists_eq_left']
    exact hroute

/-- A request replaced by its next stage. -/
theorem goes_stages (hi : Inv srv s) (h : Does host srv s e s') {n : Nat} {r : Served} {stage : Stage}
    (hreq : s'.requests = s.requests.set n { r with stage := stage })
    (hn : StageOk srv s' n { r with stage := stage }) :
    ∀ (i : Nat) (x : Served), s'.requests[i]? = some x → StageOk srv s' i x := by
  intro i x hx
  rw [hreq] at hx
  rcases getElem?_set_cases hx with ⟨rfl, rfl⟩ | ⟨-, hx⟩
  · exact hn
  · exact stageOk_later hi.known h (hi.stages i x hx)

theorem taking_key (hi : Inv srv s) {n : Nat} {r : Served} {p id : String} {body : SessionView → Do RpcError Reply}
    (hr : s.requests[n]? = some r) (hst : r.stage = .taking p id body) : principal srv r.ctx = .ok p := by
  have hkey := hi.stages n r hr
  simpa only [StageOk, hst] using hkey

theorem closing_key (hi : Inv srv s) {n : Nat} {r : Served} {p id : String} (hr : s.requests[n]? = some r)
    (hst : r.stage = .closing p id) : principal srv r.ctx = .ok p := by
  have hkey := hi.stages n r hr
  simpa only [StageOk, hst] using hkey

theorem opening_key (hi : Inv srv s) {n i : Nat} {r : Served} {database connection : List (String × OptionValue)}
    {o : Admission.Open Unit} (hr : s.requests[n]? = some r) (hst : r.stage = .opening i database connection)
    (ho : s.front.opens[i]? = some o) : principal srv r.ctx = .ok o.principal := by
  have hstage := hi.stages n r hr
  simp only [StageOk, hst] at hstage
  obtain ⟨o', ho', hroute⟩ := hstage
  rw [ho] at ho'
  cases ho'
  exact route_key (by rw [hroute]; rfl)

/-- Only the owner gets a session. -/
theorem got_serves (hi : Inv srv s) {n : Nat} {r : Served} {p id : String} {body : SessionView → Do RpcError Reply}
    {session : Session Unit} (hr : s.requests[n]? = some r) (hst : r.stage = .taking p id body)
    (hget : (s.front.registry.getLocked s.front.now srv.config.ttl (Admission.inFlight s.front) id p).1 = .ok session) :
    Serves srv s n id := by
  refine ⟨p, key_eq hr (taking_key hi hr hst), ?_⟩
  unfold SessionRegistry.getLocked at hget
  cases hl : s.front.registry.sessions.lookup id with
  | none => simp [hl] at hget
  | some before =>
    obtain ⟨o, ho, hp, -⟩ := hi.registered id before hl
    simp only [hl] at hget
    split at hget
    · cases hget
    · rename_i hown
      rw [St.owner, ho, Option.map_some, hp]
      simpa using hown

theorem running_serves (hi : Inv srv s) {n : Nat} {r : Served} {id : String} {prog : Do RpcError Reply}
    (hr : s.requests[n]? = some r) (hst : r.stage = .running id prog) : Serves srv s n id := by
  have := hi.stages n r hr
  simpa only [StageOk, hst] using this

theorem step_stages (hi : Inv srv s) (h : Does host srv s e s') :
    ∀ (n : Nat) (r : Served), s'.requests[n]? = some r → StageOk srv s' n r := by
  have hall := h
  cases h with
  | @arrived ctx invocation =>
    obtain ⟨stage, hreq, hok⟩ := arrives_stageOk srv s ctx invocation
    intro n r hr
    rw [hreq] at hr
    rcases getElem?_snoc_cases hr with hr | ⟨rfl, rfl⟩
    · exact stageOk_later hi.known hall (hi.stages n r hr)
    · exact hok
  | took hr hst hget ho => exact goes_stages hi hall rfl (serves_later hi.known hall (got_serves hi hr hst hget))
  | missed hr hst hget => exact goes_stages hi hall rfl trivial
  | operated hr hst ho => exact goes_stages hi hall rfl (serves_later hi.known hall (running_serves hi hr hst))
  | ended hr hst => exact goes_stages hi hall rfl trivial
  | closed hr hst => exact goes_stages hi hall rfl trivial
  | answered hr hst _ _ => exact goes_stages hi hall rfl trivial
  | withdrew hr hst _ _ => exact goes_stages hi hall rfl trivial
  | moved _ _ _ | opened _ _ _ | ranLate _ _ | chore =>
    intro n r hr
    exact stageOk_later hi.known hall (hi.stages n r hr)

theorem leftOver_mem {n : Nat} {id : String} {m : Moment} {op : Op} {l : Late} (h : l ∈ leftOver n id m op) :
    l.request = n ∧ l.session = id := by
  cases op with
  | job j =>
    simp only [leftOver] at h
    split at h
    · obtain rfl := List.mem_singleton.mp h
      exact ⟨rfl, rfl⟩
    · cases h
  | hold o => cases h

theorem step_late (hi : Inv srv s) (h : Does host srv s e s') : ∀ l ∈ s'.late, Serves srv s' l.request l.session := by
  have hall := h
  have hold : ∀ l ∈ s.late, Serves srv s' l.request l.session := fun l hl => serves_later hi.known hall (hi.late l hl)
  cases h with
  | arrived =>
    rw [(arrives_objects srv s _ _).2.2.1]
    exact hold
  | operated hr hst ho =>
    intro l hl
    rcases List.mem_append.mp hl with hl | hl
    · exact hold l hl
    · obtain ⟨h1, h2⟩ := leftOver_mem hl
      rw [h1, h2]
      exact serves_later hi.known hall (running_serves hi hr hst)
  | ranLate _ _ =>
    intro l hl
    exact hold l (List.mem_of_mem_eraseIdx hl)
  | took _ _ _ _ | missed _ _ _ | ended _ _ | closed _ _ | answered _ _ _ _ | withdrew _ _ _ _ | moved _ _ _
  | opened _ _ _ | chore => exact hold

theorem justified_later (hk : Known s) (h : Does host srv s e s') {d : Made} (hd : Justified srv s d) :
    Justified srv s' d := by
  rcases hd with ⟨n, hn, hs⟩ | ⟨ho, hc⟩
  · exact .inl ⟨n, hn, serves_later hk h hs⟩
  · obtain ⟨p, hp⟩ := Option.isSome_iff_exists.mp ho
    exact .inr ⟨by rw [owner_later hk h hp]; rfl, hc⟩

/-- What an operation made, its request made. -/
theorem performed_made {n : Nat} {id : String} {o : Object} {inner : Inner} {d : Made}
    (h : d ∈ (s.performed n id o inner).made) : d ∈ s.made ∨ (d.request = some n ∧ d.session = id) := by
  rcases List.mem_append.mp h with h | h
  · exact .inl h
  · obtain ⟨c, -, rfl⟩ := List.mem_map.mp h
    exact .inr ⟨rfl, rfl⟩

theorem step_made (hi : Inv srv s) (h : Does host srv s e s') : ∀ d ∈ s'.made, Justified srv s' d := by
  have hall := h
  have hold : ∀ d ∈ s.made, Justified srv s' d := fun d hd => justified_later hi.known hall (hi.made d hd)
  have hmoves : ∀ {request : Option Nat} {front : Admission.St Unit}, ∀ d ∈ (s.moves request front).made,
      Justified srv s' d := by
    intro request front d hd
    rcases moves_made hd with hd | ⟨-, -, ho, hc⟩
    · exact hold d hd
    · obtain ⟨p, hp⟩ := Option.isSome_iff_exists.mp ho
      exact .inr ⟨by rw [owner_later hi.known hall hp]; rfl, hc⟩
  cases h with
  | arrived =>
    rw [(arrives_objects srv s _ _).2.1]
    exact hold
  | operated hr hst ho =>
    intro d hd
    rcases performed_made hd with hd | ⟨hn, hid⟩
    · exact hold d hd
    · refine .inl ⟨_, hn, ?_⟩
      rw [hid]
      exact serves_later hi.known hall (running_serves hi hr hst)
  | ranLate hl ho =>
    intro d hd
    rcases performed_made hd with hd | ⟨hn, hid⟩
    · exact hold d hd
    · refine .inl ⟨_, hn, ?_⟩
      rw [hid]
      exact serves_later hi.known hall (hi.late _ (List.mem_of_getElem? hl))
  | answered _ _ _ _ => exact hold
  | took _ _ _ _ | missed _ _ _ | ended _ _ | closed _ _ | withdrew _ _ _ _ | moved _ _ _ | chore => exact hmoves
  | opened _ _ hb =>
    intro d hd
    rcases List.mem_append.mp hd with hd | hd
    · exact hmoves d hd
    · split at hd
      · cases hd
      · obtain rfl := List.mem_singleton.mp hd
        refine .inr ⟨?_, _, rfl⟩
        simp [St.owner, St.builds]

theorem step_inv (hi : Inv srv s) (h : Does host srv s e s') : Inv srv s' where
  front := (step_front hi h).1
  cleared := (step_front hi h).2
  known := step_known hi h
  registered := step_registered hi h
  opened := step_opened hi h
  stages := step_stages hi h
  late := step_late hi h
  made := step_made hi h

theorem inv_later (hi : Inv srv s) (e : Ev) : Inv srv (step host srv s e) := by
  rcases @step_does host srv s e with heq | hd
  · rw [heq]
    exact hi
  · exact step_inv hi hd

theorem reach_inv (h : (machine host srv).Reach s) : Inv srv s := by
  refine h.invariant ?_ ?_
  · intro s h0
    have h0 : s = init := h0
    rw [h0]
    exact init_inv
  · intro s e _ hi
    exact inv_later hi e

end Invariant

/-! ## Strangers -/

section Strangers

variable {host : Host} {srv : Service} {s s' : St} {e : Ev} {n : Nat} {id p : String} {o : Object}

/-- The session is as it was, its lease too, and nothing was done on it. -/
structure Untouched (s s' : St) (id : String) : Prop where
  object : s'.objects id = s.objects id
  lease : s'.front.registry.sessions.lookup id = s.front.registry.sessions.lookup id
  made : ∀ d ∈ s'.made.drop s.made.length, d.session ≠ id

/-- An idle session past its lease went with the reaping before an open's admission. -/
structure Reaped (cfg : Config) (s : St) (e : Ev) (s' : St) (id : String) (o : Object) : Prop where
  event : ∃ n, e = .move n .reap
  idle : id ∉ s.front.references
  expired : ∃ session, s.front.registry.sessions.lookup id = some session ∧ cfg.ttl < s.front.now - session.lastUsed
  removed : s'.front.registry.sessions.lookup id = none
  object : s'.objects id = some o.drained
  made : ∀ d ∈ s'.made.drop s.made.length, d.session = id → d.deed = .cleanup o.inner.statements

/-- A registry move after which the session is still held. -/
theorem moves_untouched {request : Option Nat} {front : Admission.St Unit}
    (hl : front.registry.sessions.lookup id = s.front.registry.sessions.lookup id)
    (hr : id ∈ s.front.references → id ∈ front.references) : Untouched s (s.moves request front) id := by
  have hgone : id ∉ gone s.front front := by
    rw [mem_gone]
    intro hg
    have h1 := hg.1
    have h2 := hg.2
    simp only [alive, Bool.or_eq_true, List.contains_iff_mem, Bool.or_eq_false_iff] at h1 h2
    rw [hl] at h2
    rcases h1 with h1 | h1
    · rw [h1] at h2
      cases h2.1
    · have := List.contains_iff_mem.mpr (hr h1)
      rw [this] at h2
      cases h2.2
  refine ⟨?_, hl, ?_⟩
  · simp only [St.moves, if_neg hgone]
    exact Option.map_id'
  · intro d hd
    simp only [St.moves, List.drop_left] at hd
    obtain ⟨id', hid', hd⟩ := List.mem_filterMap.mp hd
    obtain ⟨o', -, rfl⟩ := Option.map_eq_some_iff.mp hd
    intro heq
    subst heq
    exact hgone hid'

theorem performed_untouched {id' : String} {o' : Object} (inner : Inner) (hne : id ≠ id') :
    Untouched s (s.performed n id' o' inner) id := by
  refine ⟨update_of_ne hne _ _, rfl, ?_⟩
  intro d hd
  simp only [St.performed, List.drop_left] at hd
  obtain ⟨c, -, rfl⟩ := List.mem_map.mp hd
  exact Ne.symm hne

theorem Untouched.goes (h : Untouched s s' id) (r : Served) (stage : Stage) : Untouched s (s'.goes n r stage) id :=
  ⟨h.object, h.lease, h.made⟩

/-- Whoever serves one session is a stranger to another owner's. -/
theorem serves_ne {id' : String} (hs : Serves srv s n id') (ho : s.objects id = some o)
    (hne : s.key srv n ≠ some o.principal) : id ≠ id' := by
  intro heq
  subst heq
  obtain ⟨p, hk, hown⟩ := hs
  rw [St.owner, ho, Option.map_some] at hown
  exact hne (by rw [hk, ← hown])

/-- A stranger's `get` leaves the session and its references as they are. -/
theorem get_untouched (hi : Inv srv s) (ho : s.objects id = some o) (hp : p ≠ o.principal) (id' : String) :
    (Admission.step srv.config s.front (.get p id')).registry.sessions.lookup id =
      s.front.registry.sessions.lookup id ∧
    (id ∈ s.front.references → id ∈ (Admission.step srv.config s.front (.get p id')).references) := by
  have hrefs : id ∈ s.front.references → id ∈ (Admission.step srv.config s.front (.get p id')).references := by
    intro hm
    simp only [Admission.step]
    split
    · exact List.mem_cons_of_mem _ hm
    · exact hm
  refine ⟨?_, hrefs⟩
  rw [Lease.get_registry]
  by_cases hid : id = id'
  · subst hid
    cases hl : s.front.registry.sessions.lookup id with
    | none =>
      unfold SessionRegistry.getLocked
      simp only [hl]
    | some session =>
      obtain ⟨o', ho', hown, -⟩ := hi.registered id session hl
      rw [ho] at ho'
      cases ho'
      rw [Lease.get_stranger hl (by rw [← hown]; exact hp)]
      exact hl
  · exact Lease.get_other hid p

theorem close_untouched (hi : Inv srv s) (ho : s.objects id = some o) (hp : p ≠ o.principal) (id' : String) :
    (Admission.step srv.config s.front (.close p id')).registry.sessions.lookup id =
      s.front.registry.sessions.lookup id := by
  simp only [Admission.step]
  by_cases hid : id = id'
  · subst hid
    cases hl : s.front.registry.sessions.lookup id with
    | none =>
      unfold SessionRegistry.closeLocked
      simp only [hl]
    | some session =>
      obtain ⟨o', ho', hown, -⟩ := hi.registered id session hl
      rw [ho] at ho'
      cases ho'
      rw [Lease.close_stranger hl (by rw [← hown]; exact hp)]
      exact hl
  · exact Lease.close_other hid p

/-- A move of an open leaves a session that is there, or reaps it. -/
theorem move_untouched (hi : Inv srv s) (ho : s.objects id = some o) (i : Nat) (m : Admission.Move Unit) :
    (Admission.step srv.config s.front (.move i m)).references = s.front.references ∧
    ((Admission.step srv.config s.front (.move i m)).registry.sessions.lookup id = s.front.registry.sessions.lookup id ∨
     (m = .reap ∧ (Admission.step srv.config s.front (.move i m)).registry.sessions.lookup id = none ∧
      ∃ session, s.front.registry.sessions.lookup id = some session ∧
        Lease.Expirable srv.config s.front id session.lastUsed)) := by
  simp only [Admission.step]
  cases hx : s.front.opens[i]? with
  | none => exact ⟨rfl, .inl rfl⟩
  | some x =>
    simp only
    refine ⟨(Admission.stepOpen_frame srv.config s.front i x m).2.2.1, ?_⟩
    rcases Admission.stepOpen_sessions srv.config s.front i x m with h | ⟨rfl, h⟩ | ⟨id', session, rfl, -, -, hid, h⟩
    · exact .inl (by rw [h])
    · cases hl : s.front.registry.sessions.lookup id with
      | none =>
        left
        rw [h]
        simp [SessionRegistry.reapLocked, hl]
      | some session =>
        rcases @Lease.reap_lookup _ srv.config s.front id session hl with hr | ⟨hr, hexp⟩
        · exact .inl (by rw [h]; exact hr)
        · exact .inr ⟨rfl, by rw [h]; exact hr, session, rfl, hexp⟩
    · left
      rw [h, AList.lookup_insert_ne]
      intro heq
      subst heq
      exact hid (hi.known id (by simp [ho]))

/-- A reaping that takes the session. -/
theorem moves_reaped {i : Nat} {session : Session Unit} (ho : s.objects id = some o)
    (hl : s.front.registry.sessions.lookup id = some session)
    (hexp : Lease.Expirable srv.config s.front id session.lastUsed)
    (hrefs : (Admission.step srv.config s.front (.move i .reap)).references = s.front.references)
    (hnone : (Admission.step srv.config s.front (.move i .reap)).registry.sessions.lookup id = none) :
    Reaped srv.config s (.move n .reap) (s.moves (some n) (Admission.step srv.config s.front (.move i .reap))) id o := by
  have hgone : id ∈ gone s.front (Admission.step srv.config s.front (.move i .reap)) := by
    rw [mem_gone]
    refine ⟨by simp [alive, hl], ?_⟩
    simp only [alive, hnone, hrefs, Option.isSome_none, Bool.false_or]
    simpa using hexp.2
  refine ⟨⟨n, rfl⟩, hexp.2, ⟨session, hl, hexp.1⟩, hnone, ?_, ?_⟩
  · rw [moves_objects _ _ ho, if_pos hgone]
  · intro d hd hid
    simp only [St.moves, List.drop_left] at hd
    obtain ⟨id', -, hd⟩ := List.mem_filterMap.mp hd
    obtain ⟨o', ho', rfl⟩ := Option.map_eq_some_iff.mp hd
    simp only at hid
    subst hid
    rw [ho] at ho'
    cases ho'
    rfl

/-- A session built beside it. -/
theorem builds_untouched {id' : String} {o' : Object} {s1 : St} (h : Untouched s s1 id)
    (hlen : s.made.length ≤ s1.made.length) (hne : id ≠ id') : Untouched s (s1.builds n id' o') id := by
  refine ⟨(update_of_ne hne _ _).trans h.object, h.lease, ?_⟩
  intro d hd
  simp only [St.builds, List.drop_append_of_le_length hlen] at hd
  rcases List.mem_append.mp hd with hd | hd
  · exact h.made d hd
  · split at hd
    · cases hd
    · obtain rfl := List.mem_singleton.mp hd
      exact Ne.symm hne

theorem moves_length (request : Option Nat) (front : Admission.St Unit) :
    s.made.length ≤ (s.moves request front).made.length := by
  simp [St.moves]

/-- What a request does to the session of somebody else. -/
theorem stranger_step (hi : Inv srv s) (h : Does host srv s e s') (hn : e.request s = some n)
    (ho : s.objects id = some o)
    (hne' : s'.key srv n ≠ some o.principal) : Untouched s s' id ∨ Reaped srv.config s e s' id o := by
  have hne : s.key srv n ≠ some o.principal := fun hk => hne' (key_later h hk)
  clear hne'
  have hother : ∀ {r : Served} {p : String}, s.requests[n]? = some r → principal srv r.ctx = .ok p →
      p ≠ o.principal := by
    intro r p hr hp heq
    exact hne (by rw [← heq]; exact key_eq hr hp)
  cases h with
  | @arrived ctx invocation =>
    obtain ⟨h1, h2, h3, h4⟩ := arrives_objects srv s ctx invocation
    refine .inl ⟨by rw [h1], ?_, by simp [h2]⟩
    rcases h4 with h4 | ⟨p, target, h4⟩
    · rw [h4]
    · rw [h4]
      rfl
  | @took _ r p id' body _ _ _ hr hst _ _ =>
    cases hn
    obtain ⟨hl, hrefs⟩ := get_untouched hi ho (hother hr (taking_key hi hr hst)) id'
    exact .inl ((moves_untouched hl hrefs).goes r _)
  | @missed _ r p id' body _ _ hr hst _ =>
    cases hn
    obtain ⟨hl, hrefs⟩ := get_untouched hi ho (hother hr (taking_key hi hr hst)) id'
    exact .inl ((moves_untouched hl hrefs).goes r _)
  | @closed _ r p id' _ hr hst =>
    cases hn
    have hl := close_untouched hi ho (hother hr (closing_key hi hr hst)) id'
    exact .inl ((moves_untouched hl fun hm => hm).goes r _)
  | answered _ _ _ _ => exact .inl ⟨rfl, rfl, by simp [St.goes]⟩
  | @withdrew _ i r database connection o' id' _ hr hst ho' _ =>
    cases hn
    have hl := close_untouched hi ho (hother hr (opening_key hi hr hst ho')) id'
    exact .inl ((moves_untouched hl fun hm => hm).goes r _)
  | @ended _ r id' _ _ hr hst =>
    cases hn
    have hid := serves_ne (running_serves hi hr hst) ho hne
    have hu := @moves_untouched s id (some n) (Admission.step srv.config s.front (.dropReference id')) rfl
      fun hm => (List.mem_erase_of_ne hid).mpr hm
    exact .inl (hu.goes r _)
  | @operated _ r id' op k o' m hr hst ho' =>
    cases hn
    have hid := serves_ne (running_serves hi hr hst) ho hne
    have hu := @performed_untouched s n id id' o' (respond host (atOnce m) op o'.inner).2 hid
    exact .inl ⟨hu.object, hu.lease, hu.made⟩
  | @ranLate k w l o' hl ho' =>
    simp only [Ev.request, hl, Option.map_some, Option.some.injEq] at hn
    subst hn
    have hid := serves_ne (hi.late l (List.mem_of_getElem? hl)) ho hne
    have hu := @performed_untouched s l.request id l.session o' (l.job.perform host.limits w o'.inner).2 hid
    exact .inl ⟨hu.object, hu.lease, hu.made⟩
  | @moved _ i r _ _ m hr hst hb =>
    cases hn
    obtain ⟨hrefs, hl | ⟨rfl, hnone, session, hl, hexp⟩⟩ := move_untouched hi ho i m
    · exact .inl (moves_untouched hl (by rw [hrefs]; exact fun hm => hm))
    · exact .inr (moves_reaped ho hl hexp hrefs hnone)
  | @opened _ i r _ _ m id' o' hr hst hb =>
    cases hn
    obtain ⟨x, session, rfl, -, -, hid, -⟩ := built_some hb
    have hne' : id ≠ id' := by
      intro heq'
      subst heq'
      exact hid (hi.known id (by simp [ho]))
    obtain ⟨hrefs, hl | ⟨hm, -⟩⟩ := move_untouched hi ho i (.insert id')
    · exact .inl (builds_untouched (moves_untouched hl (by rw [hrefs]; exact fun hm => hm)) (moves_length _ _) hne')
    · cases hm
  | chore => cases hn

end Strangers

/-! ## Isolation -/

theorem authorize_ok {cfg : Config} {p target : String} {c : TargetConfig}
    (h : Admission.authorize cfg p target = .ok c) :
    cfg.authorizer.allows p target = true ∧ cfg.targets.lookup target = some c := by
  unfold Admission.authorize at h
  split at h
  · rename_i ha
    split at h
    · rename_i config hl
      cases h
      exact ⟨ha, hl⟩
    · cases h
  · cases h

/-- Whatever requests arrive and however their steps interleave: what is done on a session's
    backend is done for a request of its owner, but for the cleanup of its statements. A
    request of another principal leaves the session as it was, unless it is one whose reap
    finds the session expired. A registered session is of a target its principal may use. -/
theorem tenant_isolation (host : Host) (srv : Service) (s : St) (h : (machine host srv).Reach s) :
    -- what was done on the backend, and for whom
    (∀ d ∈ s.made, ∃ o, s.objects d.session = some o ∧
      ((∃ n, d.request = some n ∧ s.key srv n = some o.principal) ∨ ∃ statements, d.deed = .cleanup statements)) ∧
    -- who operates on a session, its uploads too: a request of its owner, at once or late
    (∀ (n : Nat) (r : Served) id prog, s.requests[n]? = some r → r.stage = .running id prog → Serves srv s n id) ∧
    (∀ l ∈ s.late, Serves srv s l.request l.session) ∧
    -- a request and the session of another principal
    (∀ e n, e.request s = some n → ∀ id o, s.objects id = some o → (step host srv s e).key srv n ≠ some o.principal →
      Untouched s (step host srv s e) id ∨ Reaped srv.config s e (step host srv s e) id o) ∧
    -- the sessions that are registered
    (∀ id session, s.front.registry.sessions.lookup id = some session →
      srv.config.authorizer.allows session.principal session.target = true ∧
      (∃ c, srv.config.targets.lookup session.target = some c) ∧
      ∃ o r database connection, s.objects id = some o ∧ o.principal = session.principal ∧ o.target = session.target ∧
        s.requests[o.opener]? = some r ∧ principal srv r.ctx = .ok session.principal ∧
        route srv r.ctx r.invocation = .openSession session.principal session.target database connection) := by
  have hi := reach_inv h
  refine ⟨?_, fun n r id prog hr hst => running_serves hi hr hst, hi.late, ?_, ?_⟩
  · intro d hd
    rcases hi.made d hd with ⟨n, hn, p, hk, ho⟩ | ⟨ho, hc⟩
    · obtain ⟨o, hobj, rfl⟩ := Option.map_eq_some_iff.mp ho
      exact ⟨o, hobj, .inl ⟨n, hn, hk⟩⟩
    · obtain ⟨p, hp⟩ := Option.isSome_iff_exists.mp ho
      obtain ⟨o, hobj, -⟩ := Option.map_eq_some_iff.mp hp
      exact ⟨o, hobj, .inr hc⟩
  · intro e n hn id o ho hne
    rcases @step_does host srv s e with heq | hd
    · exact .inl ⟨by rw [heq], by rw [heq], by simp [heq]⟩
    · exact stranger_step hi hd hn ho hne
  · intro id session hl
    obtain ⟨o, ho, hp, ht⟩ := hi.registered id session hl
    obtain ⟨⟨c, hc⟩, r, database, connection, hr, hroute⟩ := hi.opened id o ho
    rw [hp, ht] at hc hroute
    obtain ⟨hallows, htarget⟩ := authorize_ok hc
    exact ⟨hallows, ⟨c, htarget⟩, o, r, database, connection, ho, hp, ht, hr, route_key (by rw [hroute]; rfl), hroute⟩

/-- A service that reads an OPEN of `main` in every open request. -/
def openService : Service :=
  let decode (t : RequestKind) (_ : Bytes) (_ : Nat) : Except ProtocolError t.Record :=
    match t with
    | .openConnection => .ok ⟨"main", [], []⟩
    | _ => .error (invalid "no record")
  { smallService with codec := { smallCodec with decodeRecordIpc := decode } }

def openRequest : Protocol.Request where
  metadata := AList.insert "vgi_rpc.protocol_version" "0.4.0" ∅
  batch := ⟨⟨envelopeFields "request", []⟩, [.binary [some []]], 1, by decide⟩

def alice : CallContext := { anonymous with auth := ⟨true, "corp", "alice"⟩ }

/-- The request opens a session that gets the id `c`. -/
def opens (n : Nat) : List Ev :=
  [.move n .checkClosing, .move n .reap, .move n .reserve, .move n (.spawn none), .move n (.backendReturns (.ok ())),
    .move n .receive, .move n (.workerStart none), .move n (.insert "c")]

/-- Alice has a session, and somebody asks for a statement on it. -/
def aliceOpened : St := (machine Solo.smallHost openService).run init
  (.arrive alice (.request .openConnection openRequest) :: opens 0 ++
    [.arrive anonymous (.request .newStatement (flatRequest [("session_id", "c")]))])

def soon : Moment := ⟨.answered, ⟨willing, .fine, "s1"⟩⟩

theorem tenant_isolation_alice :
    aliceOpened.front.registry.sessions.lookup "c" = some ⟨"corp\x00alice", "main", 0, ()⟩ ∧
    openService.config.authorizer.allows "corp\x00alice" "main" = true ∧
    Untouched aliceOpened (step Solo.smallHost openService aliceOpened (.proceed 1 soon)) "c" := by
  have hl : aliceOpened.front.registry.sessions.lookup "c" = some ⟨"corp\x00alice", "main", 0, ()⟩ := rfl
  obtain ⟨-, -, -, hb, hc⟩ := tenant_isolation Solo.smallHost openService aliceOpened (.run rfl _)
  refine ⟨hl, (hc "c" _ hl).1, ?_⟩
  rcases hb (.proceed 1 soon) 1 rfl "c" _ rfl (by decide) with hu | hr
  · exact hu
  · obtain ⟨n, hn⟩ := hr.event
    cases hn

/-- Alice's session is past its lease when somebody else opens one: that request's reaping
    cancels on her connection. -/
theorem reaping_cancels_a_stranger : ∃ s, (machine Solo.smallHost openService).Reach s ∧
    ∃ d ∈ s.made, d.request = some 1 ∧ s.key openService 1 = some "\x00anonymous" ∧
      s.owner d.session = some "corp\x00alice" := by
  have hreach := Machine.Reach.run (M := machine Solo.smallHost openService) rfl
    (.arrive alice (.request .openConnection openRequest) :: opens 0 ++
      [.chore (.tick 11), .arrive anonymous (.request .openConnection openRequest), .move 1 .checkClosing,
        .move 1 .reap])
  exact ⟨_, hreach, ⟨"c", some 1, .cleanup ∅⟩, List.mem_singleton.mpr rfl, rfl, rfl, rfl⟩

end Grainlift.Server.Tenants
