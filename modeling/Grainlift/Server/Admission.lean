/-
  Grainlift.Server.Admission — opening sessions under a quota (`SessionManager::open`,
  session.rs), interleaved with everything else that takes the registry lock.

  `open` is not one step. It checks the target, loads `closing`, reaps, takes the lock to
  reserve (`reserve_open`), starts the thread that runs `backend.open`, waits for it or
  gives up on it, starts the session's worker, and takes the lock again to release the
  reservation and insert. Each of these is an event of its own here, for any number of
  opens, and between any two of them other opens, `get`, the release of a reference that
  `get` returned, `close`, `reap_expired` and `close_all` may run. A `backend.open` goes on
  after its caller gave up, and `close_all` stores `closing` before it takes the lock.

  History kept beside the code's state: how often an open took and released a
  reservation, and whether a release ever found nothing to subtract (`saturated`).

  Proved (`accounts`): in every reachable state the opening counters count the opens
  between reservation and release, in total and by principal, the quotas hold of sessions
  and reservations together, no release ever saturated, and an open that returned has
  released what it reserved, once.
-/

import Grainlift.Lib.Machine
import Grainlift.Server.Registry

namespace Grainlift.Server.Admission

open Grainlift.Lib Grainlift.Protocol SessionRegistry

variable {ρ : Type}

/-- The `backend.open` of one open and its reply channel. -/
inductive BackendOpen (ρ : Type) where
  | notStarted
  | running
  | returned (r : Except AdbcError ρ)
  | panicked

/-- How far an open has come. -/
inductive Stage (ρ : Type) where
  | asked
  | reaping
  | locking
  | reserved
  | waiting
  | opened (connection : ρ)
  | ready (session : Session ρ)
  /-- An error is on its way out; the reservation is not released yet. -/
  | failed (e : AdbcError)
  | returned (r : Except AdbcError String)

structure Open (ρ : Type) where
  principal : String
  target : String
  stage : Stage ρ
  backend : BackendOpen ρ
  reservations : Nat
  releases : Nat

/-- Between its reservation and its release. -/
def Open.holds (o : Open ρ) : Bool := o.releases < o.reservations

def Open.holdsFor (p : String) (o : Open ρ) : Bool := o.principal == p && o.holds

structure St (ρ : Type) where
  registry : SessionRegistry ρ
  closing : Bool
  now : Nat
  /-- One entry per reference `get` returned and its handler still holds. -/
  references : List String
  /-- `close_all` calls between their store of `closing` and their critical section. -/
  closers : Nat
  issued : List String
  opens : List (Open ρ)
  saturated : Bool

def init : St ρ := ⟨.empty, false, 0, [], 0, [], [], false⟩

/-- What one open, or the `backend.open` it started, does next. -/
inductive Move (ρ : Type) where
  | checkClosing
  | reap
  | reserve
  | spawn (error : Option String)
  | backendReturns (r : Except AdbcError ρ)
  | backendPanics
  | receive
  | expire
  | workerStart (error : Option String)
  | release
  | insert (id : String)

inductive Ev (ρ : Type) where
  | open (principal target : String)
  | move (i : Nat) (m : Move ρ)
  | get (principal id : String)
  | dropReference (id : String)
  | close (principal id : String)
  | reapExpired
  | closeAllStore
  | closeAllTake
  | tick (n : Nat)

def inFlight (s : St ρ) (id : String) : Bool := s.references.contains id

def St.set (s : St ρ) (i : Nat) (o : Open ρ) : St ρ := { s with opens := s.opens.set i o }

/-- A release finds nothing to subtract. -/
def saturates (r : SessionRegistry ρ) (principal : String) : Bool :=
  r.openingTotal == 0 || (r.openingByPrincipal.lookup principal).getD 0 == 0

/-- What `open` does before it asks for a reservation. -/
def authorize (cfg : Config) (principal target : String) : Except AdbcError TargetConfig :=
  if cfg.authorizer.allows principal target then
    match cfg.targets.lookup target with
    | some config => .ok config
    | none => .error (.withMessageAndStatus "target is not configured" .notFound)
  else .error (.withMessageAndStatus "principal is not authorized for the requested target" .unauthorized)

/-- A move of the open `o`, number `i`; nothing when it is not at that stage. -/
def stepOpen (cfg : Config) (s : St ρ) (i : Nat) (o : Open ρ) : Move ρ → St ρ
  | .checkClosing =>
    match o.stage with
    | .asked =>
      if s.closing then s.set i { o with stage := .returned (.error (busy "proxy is shutting down")) }
      else s.set i { o with stage := .reaping }
    | _ => s
  | .reap =>
    match o.stage with
    | .reaping =>
      { s.set i { o with stage := .locking } with registry := s.registry.reapLocked s.now cfg.ttl (inFlight s) }
    | _ => s
  | .reserve =>
    match o.stage with
    | .locking =>
      match s.registry.reserveLocked s.closing cfg.limits o.principal with
      | .error e => s.set i { o with stage := .returned (.error e) }
      | .ok r => { s.set i { o with stage := .reserved, reservations := o.reservations + 1 } with registry := r }
    | _ => s
  | .spawn error =>
    match o.stage with
    | .reserved =>
      match error with
      | none => s.set i { o with stage := .waiting, backend := .running }
      | some e => s.set i { o with stage := .failed (internal ("start connection open worker: " ++ e)) }
    | _ => s
  | .backendReturns r =>
    match o.backend with
    | .running => s.set i { o with backend := .returned r }
    | _ => s
  | .backendPanics =>
    match o.backend with
    | .running => s.set i { o with backend := .panicked }
    | _ => s
  | .receive =>
    match o.stage, o.backend with
    | .waiting, .returned (.ok connection) => s.set i { o with stage := .opened connection }
    | .waiting, .returned (.error e) => s.set i { o with stage := .failed e }
    | .waiting, .panicked => s.set i { o with stage := .failed (internal "connection open worker stopped") }
    | _, _ => s
  | .expire =>
    match o.stage, o.backend with
    | .waiting, .running =>
      s.set i { o with stage := .failed (timeout ("downstream connection open exceeded " ++ cfg.operationTimeout)) }
    | _, _ => s
  | .workerStart error =>
    match o.stage with
    | .opened connection =>
      match error with
      | none => s.set i { o with stage := .ready ⟨o.principal, o.target, s.now, connection⟩ }
      | some e => s.set i { o with stage := .failed (internal ("start session worker: " ++ e)) }
    | _ => s
  | .release =>
    match o.stage with
    | .failed e =>
      { s.set i { o with stage := .returned (.error e), releases := o.releases + 1 } with
        registry := s.registry.releaseOpenReservationLocked o.principal
        saturated := s.saturated || saturates s.registry o.principal }
    | _ => s
  | .insert id =>
    match o.stage with
    | .ready session =>
      if id ∈ s.issued then s
      else
        let (r, registry) := s.registry.insertLocked s.closing id session
        { s.set i { o with stage := .returned r, releases := o.releases + 1 } with
          registry := registry
          issued := id :: s.issued
          saturated := s.saturated || saturates s.registry session.principal }
    | _ => s

def step (cfg : Config) (s : St ρ) : Ev ρ → St ρ
  | .open principal target =>
    let stage : Stage ρ := match authorize cfg principal target with
      | .ok _ => .asked
      | .error e => .returned (.error e)
    { s with opens := s.opens ++ [⟨principal, target, stage, .notStarted, 0, 0⟩] }
  | .move i m =>
    match s.opens[i]? with
    | some o => stepOpen cfg s i o m
    | none => s
  | .get principal id =>
    match s.registry.getLocked s.now cfg.ttl (inFlight s) id principal with
    | (.ok _, r) => { s with registry := r, references := id :: s.references }
    | (.error _, r) => { s with registry := r }
  | .dropReference id => { s with references := s.references.erase id }
  | .close principal id => { s with registry := (s.registry.closeLocked id principal).2 }
  | .reapExpired => { s with registry := s.registry.reapLocked s.now cfg.ttl (inFlight s) }
  | .closeAllStore => { s with closing := true, closers := s.closers + 1 }
  | .closeAllTake =>
    if s.closers = 0 then s else { s with registry := s.registry.closeAllLocked, closers := s.closers - 1 }
  | .tick n => { s with now := s.now + n }

def machine (cfg : Config) (ρ : Type) : Machine (St ρ) (Ev ρ) where
  init := (· = init)
  step := step cfg

/-! ## What the critical sections do to the books -/

/-- The accounts of a registry whose opens are `opens`. -/
structure Books (limits : SessionLimits) (r : SessionRegistry ρ) (opens : List (Open ρ)) : Prop where
  total : r.openingTotal = opens.countP Open.holds
  byPrincipal : ∀ p, (r.openingByPrincipal.lookup p).getD 0 = opens.countP (Open.holdsFor p)
  noZero : ∀ p, r.openingByPrincipal.lookup p ≠ some 0
  sum : r.openingByPrincipal.total id = r.openingTotal
  bound : r.sessions.size + r.openingTotal ≤ limits.maxSessions
  boundFor : ∀ p, r.sessions.count (ownedBy p) +
    (r.openingByPrincipal.lookup p).getD 0 ≤ limits.maxSessionsPerPrincipal

variable {limits : SessionLimits} {r : SessionRegistry ρ} {opens : List (Open ρ)} {i : Nat} {o o' : Open ρ}

/-- Sessions may leave and opens move as long as no reservation does. -/
theorem Books.quiet (h : Books limits r opens) (hi : opens[i]? = some o) (hp : o'.principal = o.principal)
    (hh : o'.holds = o.holds) : Books limits r (opens.set i o') where
  total := by
    have := countP_set_of_some Open.holds hi o'
    rw [hh] at this
    rw [h.total]; omega
  byPrincipal p := by
    have := countP_set_of_some (Open.holdsFor p) hi o'
    rw [show o'.holdsFor p = o.holdsFor p by simp [Open.holdsFor, hp, hh]] at this
    rw [h.byPrincipal]; omega
  noZero := h.noZero
  sum := h.sum
  bound := h.bound
  boundFor := h.boundFor

theorem Books.sessions (h : Books limits r opens) {sessions : Table String (Session ρ)}
    (hs : sessions.size ≤ r.sessions.size) (hc : ∀ p, sessions.count (ownedBy p) ≤ r.sessions.count (ownedBy p)) :
    Books limits { r with sessions := sessions } opens where
  total := h.total
  byPrincipal := h.byPrincipal
  noZero := h.noZero
  sum := h.sum
  bound := by have := h.bound; simp only; omega
  boundFor p := by have := h.boundFor p; have := hc p; simp only; omega

theorem reserveLocked_ok {closing : Bool} {p : String} {r' : SessionRegistry ρ}
    (h : r.reserveLocked closing limits p = .ok r') :
    closing = false ∧ r.sessions.size + r.openingTotal < limits.maxSessions ∧
      r.sessions.count (ownedBy p) + (r.openingByPrincipal.lookup p).getD 0 < limits.maxSessionsPerPrincipal ∧
      r' = { r with
        openingTotal := r.openingTotal + 1
        openingByPrincipal := r.openingByPrincipal.insert p ((r.openingByPrincipal.lookup p).getD 0 + 1) } := by
  unfold reserveLocked at h
  split at h
  · cases h
  split at h
  · cases h
  split at h
  · cases h
  rename_i hc ht hp
  cases h
  exact ⟨by simpa using hc, by omega, by omega, rfl⟩

/-- The entry of `p` is the whole of what `p` adds to the sum, there or not. -/
theorem total_erase_getD (t : Table String Nat) (p : String) :
    Table.total id (t.erase p) + (t.lookup p).getD 0 = t.total id := by
  cases h : t.lookup p with
  | none => simp [Table.erase_of_lookup_none h]
  | some n => simpa using Table.total_erase id h

theorem Books.reserve {closing : Bool} {r' : SessionRegistry ρ} (h : Books limits r opens) (hi : opens[i]? = some o)
    (hr : r.reserveLocked closing limits o.principal = .ok r') (hp : o'.principal = o.principal)
    (hn : o.holds = false) (hh : o'.holds = true) : Books limits r' (opens.set i o') := by
  obtain ⟨-, ht, hb, rfl⟩ := reserveLocked_ok hr
  have hcount := fun q => countP_set_of_some q hi o'
  constructor
  case total =>
    have := hcount Open.holds
    simp only [hn, hh, Bool.toNat_true, Bool.toNat_false, ← h.total] at this
    simp only; omega
  case byPrincipal =>
    intro p
    have := hcount (Open.holdsFor p)
    have hb := h.byPrincipal p
    simp only [Open.holdsFor, hn, hh, hp, Bool.and_true, Bool.and_false, Bool.toNat_false] at this
    by_cases e : o.principal = p
    · subst e
      simp [AList.lookup_insert] at this ⊢
      omega
    · rw [AList.lookup_insert_ne (Ne.symm e)]
      rw [beq_false_of_ne e] at this
      simp only [Bool.toNat_false] at this
      omega
  case noZero =>
    intro p
    by_cases e : p = o.principal
    · subst e; simp [AList.lookup_insert]
    · rw [AList.lookup_insert_ne e]; exact h.noZero p
  case sum =>
    have := total_erase_getD r.openingByPrincipal o.principal
    rw [h.sum] at this
    rw [Table.total_insert]
    simp only [id_eq]; omega
  case bound => simp only; omega
  case boundFor =>
    intro p
    by_cases e : p = o.principal
    · subst e; simp only [AList.lookup_insert, Option.getD_some]; omega
    · simp only [AList.lookup_insert_ne e]; exact h.boundFor p

/-- What a release leaves in the entries, when the released one has a count. -/
theorem release_lookup {p : String} (hp : (r.openingByPrincipal.lookup p).getD 0 ≠ 0) (q : String) :
    ((r.releaseOpenReservationLocked p).openingByPrincipal.lookup q).getD 0 =
      (r.openingByPrincipal.lookup q).getD 0 - (if p = q then 1 else 0) ∧
    ((r.openingByPrincipal.lookup q ≠ some 0) →
      (r.releaseOpenReservationLocked p).openingByPrincipal.lookup q ≠ some 0) := by
  cases hl : r.openingByPrincipal.lookup p with
  | none => simp [hl] at hp
  | some n =>
    simp only [releaseOpenReservationLocked, hl]
    by_cases e : p = q
    · subst e
      split
      · simp only [AList.lookup_erase, hl, if_true]
        exact ⟨by simp; omega, by simp⟩
      · simp only [AList.lookup_insert, hl, if_true]
        exact ⟨by simp, fun _ hz => by injection hz; omega⟩
    · split
      · rw [AList.lookup_erase_ne (Ne.symm e)]; exact ⟨rfl, fun h => h⟩
      · rw [AList.lookup_insert_ne (Ne.symm e)]; exact ⟨rfl, fun h => h⟩

theorem release_total {p : String} (hp : (r.openingByPrincipal.lookup p).getD 0 ≠ 0) :
    (r.releaseOpenReservationLocked p).openingByPrincipal.total id = r.openingByPrincipal.total id - 1 := by
  cases hl : r.openingByPrincipal.lookup p with
  | none => simp [hl] at hp
  | some n =>
    have hn : n ≠ 0 := by simpa [hl] using hp
    have := Table.total_erase id hl
    simp only [releaseOpenReservationLocked, hl]
    simp only [id_eq] at this
    split
    · omega
    · rw [Table.total_insert]; simp only [id_eq]; omega

/-- An open that holds a reservation is counted, in total and by its principal. -/
theorem Books.counted (h : Books limits r opens) (hi : opens[i]? = some o) (ho : o.holds = true) :
    0 < r.openingTotal ∧ 0 < (r.openingByPrincipal.lookup o.principal).getD 0 := by
  have hm : o ∈ opens := List.mem_of_getElem? hi
  rw [h.total, h.byPrincipal]
  exact ⟨List.countP_pos_iff.mpr ⟨o, hm, ho⟩, List.countP_pos_iff.mpr ⟨o, hm, by simp [Open.holdsFor, ho]⟩⟩

theorem Books.unsaturated (h : Books limits r opens) (hi : opens[i]? = some o) (ho : o.holds = true) :
    saturates r o.principal = false := by
  obtain ⟨ht, hp⟩ := h.counted hi ho
  simp only [saturates, Bool.or_eq_false_iff, beq_eq_false_iff_ne]
  omega

theorem Books.release (h : Books limits r opens) (hi : opens[i]? = some o) (hp : o'.principal = o.principal)
    (ho : o.holds = true) (hn : o'.holds = false) :
    Books limits (r.releaseOpenReservationLocked o.principal) (opens.set i o') := by
  obtain ⟨ht, hpos⟩ := h.counted hi ho
  have hcount := fun q => countP_set_of_some q hi o'
  have hlook := release_lookup (r := r) (p := o.principal) (by omega)
  constructor
  case total =>
    have := hcount Open.holds
    simp only [hn, ho, Bool.toNat_true, Bool.toNat_false, ← h.total] at this
    simp only [releaseOpenReservationLocked]; omega
  case byPrincipal =>
    intro p
    have := hcount (Open.holdsFor p)
    have hb := h.byPrincipal p
    simp only [Open.holdsFor, hn, ho, hp, Bool.and_true, Bool.and_false, Bool.toNat_false] at this
    rw [(hlook p).1]
    by_cases e : o.principal = p
    · subst e
      simp at this ⊢
      omega
    · rw [if_neg e]
      rw [beq_false_of_ne e] at this
      simp only [Bool.toNat_false] at this
      omega
  case noZero => exact fun p => (hlook p).2 (h.noZero p)
  case sum =>
    rw [release_total (by omega), h.sum]
    rfl
  case bound =>
    have := h.bound
    simp only [releaseOpenReservationLocked]; omega
  case boundFor =>
    intro p
    have := h.boundFor p
    rw [(hlook p).1]
    simp only [releaseOpenReservationLocked]; omega

/-- The release makes room for the session the open inserts. -/
theorem Books.releaseInsert (h : Books limits r opens) (hi : opens[i]? = some o) (hp : o'.principal = o.principal)
    (ho : o.holds = true) (hn : o'.holds = false) {id : String} (hid : r.sessions.lookup id = none)
    {session : Session ρ} (hs : session.principal = o.principal) :
    Books limits { r.releaseOpenReservationLocked o.principal with sessions := r.sessions.insert id session }
      (opens.set i o') := by
  have hb := h.release hi hp ho hn
  obtain ⟨ht, hpos⟩ := h.counted hi ho
  have hlook := release_lookup (r := r) (p := o.principal) (by omega)
  constructor
  case total => exact hb.total
  case byPrincipal => exact hb.byPrincipal
  case noZero => exact hb.noZero
  case sum => exact hb.sum
  case bound =>
    have := h.bound
    rw [Table.size_insert session hid]
    simp only [releaseOpenReservationLocked]; omega
  case boundFor =>
    intro p
    have := h.boundFor p
    rw [Table.count_insert _ session hid, (hlook p).1]
    by_cases e : o.principal = p
    · subst e; simp only [ownedBy, hs, beq_self_eq_true, if_true]; omega
    · simp only [ownedBy, hs, beq_false_of_ne e, if_neg e]; simp only [Bool.false_eq_true, if_false]; omega

/-! ## The invariant -/

/-- What the stage of an open says of its history. -/
def Open.Sound (o : Open ρ) : Prop :=
  match o.stage with
  | .asked | .reaping | .locking => o.reservations = 0 ∧ o.releases = 0
  | .reserved | .waiting | .opened _ | .failed _ => o.reservations = 1 ∧ o.releases = 0
  | .ready session => o.reservations = 1 ∧ o.releases = 0 ∧ session.principal = o.principal
  | .returned _ => o.releases = o.reservations ∧ o.reservations ≤ 1

structure Inv (cfg : Config) (s : St ρ) : Prop where
  books : Books cfg.limits s.registry s.opens
  sound : ∀ o ∈ s.opens, o.Sound
  unsaturated : s.saturated = false
  known : ∀ id, s.registry.sessions.lookup id ≠ none → id ∈ s.issued

variable {cfg : Config} {s : St ρ}

theorem init_inv : Inv cfg (init : St ρ) where
  books :=
    { total := rfl
      byPrincipal := fun _ => rfl
      noZero := fun _ h => by cases h
      sum := rfl
      bound := Nat.zero_le _
      boundFor := fun _ => Nat.zero_le _ }
  sound := by simp [init]
  unsaturated := rfl
  known := fun _ h => absurd rfl h

theorem sound_set (h : ∀ o ∈ opens, o.Sound) (ho : o'.Sound) : ∀ x ∈ opens.set i o', x.Sound := fun x hx => by
  rcases List.mem_or_eq_of_mem_set hx with hm | rfl
  · exact h x hm
  · exact ho

/-- A move of one open that touches neither the registry nor its reservation. -/
theorem Inv.quiet (h : Inv cfg s) (hi : s.opens[i]? = some o) (hp : o'.principal = o.principal)
    (hr : o'.reservations = o.reservations ∧ o'.releases = o.releases) (ho : o'.Sound) : Inv cfg (s.set i o') :=
  ⟨h.books.quiet hi hp (by simp [Open.holds, hr.1, hr.2]), sound_set h.sound ho, h.unsaturated, h.known⟩

/-- Sessions leave the registry, or one is replaced by another of its owner's. -/
theorem Inv.sessions (h : Inv cfg s) {sessions : Table String (Session ρ)}
    (hs : sessions.size ≤ s.registry.sessions.size)
    (hc : ∀ p, sessions.count (ownedBy p) ≤ s.registry.sessions.count (ownedBy p))
    (hl : ∀ id, sessions.lookup id ≠ none → s.registry.sessions.lookup id ≠ none) :
    Inv cfg { s with registry := { s.registry with sessions := sessions } } :=
  ⟨h.books.sessions hs hc, h.sound, h.unsaturated, fun id hid => h.known id (hl id hid)⟩

theorem Inv.erase (h : Inv cfg s) (id : String) :
    Inv cfg { s with registry := { s.registry with sessions := s.registry.sessions.erase id } } := by
  apply h.sessions (Table.size_erase_le id _) (fun p => Table.count_erase_le _ id _)
  intro id' hid
  by_cases e : id' = id
  · subst e; simp at hid
  · rwa [AList.lookup_erase_ne e] at hid

theorem Inv.reap (h : Inv cfg s) :
    Inv cfg { s with registry := s.registry.reapLocked s.now cfg.ttl (inFlight s) } := by
  apply h.sessions (Table.size_retain_le _ _) (fun p => Table.retain_count _ _ _)
  intro id hid
  rw [Table.lookup_retain] at hid
  intro hn
  simp [hn] at hid

theorem Inv.get (h : Inv cfg s) (principal id : String) :
    Inv cfg { s with registry := (s.registry.getLocked s.now cfg.ttl (inFlight s) id principal).2 } := by
  unfold getLocked
  cases hl : s.registry.sessions.lookup id with
  | none => exact h
  | some session =>
    simp only
    split
    · exact h
    split
    · exact h.erase id
    · refine h.sessions (Nat.le_of_eq (Table.size_insert_some _ hl))
        (fun p => Nat.le_of_eq (Table.count_insert_some _ _ hl rfl)) ?_
      intro id' hid
      by_cases e : id' = id
      · subst e; simp [hl]
      · rwa [AList.lookup_insert_ne e] at hid

theorem Inv.close (h : Inv cfg s) (principal id : String) :
    Inv cfg { s with registry := (s.registry.closeLocked id principal).2 } := by
  unfold closeLocked
  cases s.registry.sessions.lookup id with
  | none => exact h
  | some session =>
    simp only
    split
    · exact h
    · exact h.erase id

theorem Inv.soundAt (h : Inv cfg s) (hi : s.opens[i]? = some o) : o.Sound := h.sound o (List.mem_of_getElem? hi)

/-! ## Each move of an open -/

theorem reserve_inv (h : Inv cfg s) (hi : s.opens[i]? = some o) : Inv cfg (stepOpen cfg s i o .reserve) := by
  have hso := h.soundAt hi
  simp only [stepOpen]
  cases hst : o.stage with
  | locking =>
    simp only [Open.Sound, hst] at hso
    cases hr : s.registry.reserveLocked s.closing cfg.limits o.principal with
    | error e => exact h.quiet hi rfl ⟨rfl, rfl⟩ ⟨by simp only; omega, by simp only; omega⟩
    | ok r =>
      obtain ⟨-, -, -, hreg⟩ := reserveLocked_ok hr
      refine ⟨h.books.reserve hi hr rfl (by simp [Open.holds, hso]) (by simp [Open.holds, hso]),
        sound_set h.sound ⟨by simp only; omega, hso.2⟩, h.unsaturated, ?_⟩
      rw [hreg]
      exact h.known
  | _ => exact h

theorem release_inv (h : Inv cfg s) (hi : s.opens[i]? = some o) : Inv cfg (stepOpen cfg s i o .release) := by
  have hso := h.soundAt hi
  simp only [stepOpen]
  cases hst : o.stage with
  | failed e =>
    simp only [Open.Sound, hst] at hso
    have ho : o.holds = true := by simp [Open.holds, hso]
    refine ⟨h.books.release hi rfl ho (by simp [Open.holds, hso]),
      sound_set h.sound ⟨by simp only; omega, by simp only; omega⟩,
      ?_, h.known⟩
    simp only [h.unsaturated, h.books.unsaturated hi ho, Bool.or_self]
  | _ => exact h

theorem insert_inv (h : Inv cfg s) (hi : s.opens[i]? = some o) (id : String) :
    Inv cfg (stepOpen cfg s i o (.insert id)) := by
  have hso := h.soundAt hi
  simp only [stepOpen]
  cases hst : o.stage with
  | ready session =>
    simp only [Open.Sound, hst] at hso
    obtain ⟨h1, h0, hsp⟩ := hso
    have ho : o.holds = true := by simp [Open.holds, h1, h0]
    simp only
    split
    · exact h
    rename_i hid
    have hfree : s.registry.sessions.lookup id = none := by
      by_contra hne
      exact hid (h.known id hne)
    have hsat : saturates s.registry session.principal = false := by rw [hsp]; exact h.books.unsaturated hi ho
    have hsound : ∀ r, ({ o with stage := .returned r, releases := o.releases + 1 } : Open ρ).Sound := fun r =>
      ⟨by simp only; omega, by simp only; omega⟩
    have hn : ∀ r, ({ o with stage := .returned r, releases := o.releases + 1 } : Open ρ).holds = false := fun r => by
      simp [Open.holds, h1, h0]
    simp only [insertLocked]
    cases s.closing with
    | true =>
      simp only [if_true]
      refine ⟨?_, sound_set h.sound (hsound _), by simp [h.unsaturated, hsat], ?_⟩
      · rw [hsp]; exact h.books.release hi rfl ho (hn _)
      · intro id' hid'
        exact List.mem_cons_of_mem _ (h.known id' hid')
    | false =>
      simp only [Bool.false_eq_true, if_false]
      refine ⟨?_, sound_set h.sound (hsound _), by simp [h.unsaturated, hsat], ?_⟩
      · rw [hsp]; exact h.books.releaseInsert hi (by rfl) ho (hn _) hfree hsp
      · intro id' hid'
        by_cases e : id' = id
        · subst e; exact List.mem_cons_self
        · simp only [AList.lookup_insert_ne e] at hid'
          exact List.mem_cons_of_mem _ (h.known id' hid')
  | _ => exact h

theorem stepOpen_inv (h : Inv cfg s) (hi : s.opens[i]? = some o) (m : Move ρ) : Inv cfg (stepOpen cfg s i o m) := by
  have hso := h.soundAt hi
  have hq : ∀ {stage : Stage ρ} {backend : BackendOpen ρ},
      ({ o with stage := stage, backend := backend } : Open ρ).Sound →
      Inv cfg (s.set i { o with stage := stage, backend := backend }) := fun hs => h.quiet hi rfl ⟨rfl, rfl⟩ hs
  cases m with
  | reserve => exact reserve_inv h hi
  | release => exact release_inv h hi
  | insert id => exact insert_inv h hi id
  | checkClosing =>
    simp only [stepOpen]
    cases hst : o.stage with
    | asked =>
      simp only [Open.Sound, hst] at hso
      simp only
      split
      · exact hq ⟨by simp only; omega, by simp only; omega⟩
      · exact hq hso
    | _ => exact h
  | reap =>
    simp only [stepOpen]
    cases hst : o.stage with
    | reaping =>
      simp only [Open.Sound, hst] at hso
      exact Inv.reap (s := s.set i { o with stage := .locking }) (hq hso)
    | _ => exact h
  | spawn error =>
    simp only [stepOpen]
    cases hst : o.stage with
    | reserved =>
      simp only [Open.Sound, hst] at hso
      cases error with
      | none => exact hq hso
      | some e => exact hq hso
    | _ => exact h
  | backendReturns r =>
    simp only [stepOpen]
    cases hb : o.backend with
    | running => exact hq hso
    | _ => exact h
  | backendPanics =>
    simp only [stepOpen]
    cases hb : o.backend with
    | running => exact hq hso
    | _ => exact h
  | receive =>
    simp only [stepOpen]
    split
    all_goals first | exact h | skip
    all_goals
      rename_i hst _
      simp only [Open.Sound, hst] at hso
      exact hq hso
  | expire =>
    simp only [stepOpen]
    split
    · rename_i hst _
      simp only [Open.Sound, hst] at hso
      exact hq hso
    · exact h
  | workerStart error =>
    simp only [stepOpen]
    cases hst : o.stage with
    | opened connection =>
      simp only [Open.Sound, hst] at hso
      cases error with
      | none => exact hq ⟨hso.1, hso.2, rfl⟩
      | some e => exact hq hso
    | _ => exact h

theorem open_inv (h : Inv cfg s) (principal target : String) : Inv cfg (step cfg s (.open principal target)) := by
  have hnew : ∀ stage : Stage ρ, (stage = .asked ∨ ∃ e, stage = .returned (.error e)) →
      Inv cfg { s with opens := s.opens ++ [⟨principal, target, stage, .notStarted, 0, 0⟩] } := by
    intro stage hst
    refine ⟨?_, ?_, h.unsaturated, h.known⟩
    · have hb := h.books
      constructor
      case total => simpa [List.countP_append, Open.holds] using hb.total
      case byPrincipal => intro p; simpa [List.countP_append, Open.holds, Open.holdsFor] using hb.byPrincipal p
      case noZero => exact hb.noZero
      case sum => exact hb.sum
      case bound => exact hb.bound
      case boundFor => exact hb.boundFor
    · intro o ho
      rcases List.mem_append.mp ho with hm | hm
      · exact h.sound o hm
      · obtain rfl := List.mem_singleton.mp hm
        rcases hst with rfl | ⟨e, rfl⟩
        · exact ⟨rfl, rfl⟩
        · exact ⟨rfl, Nat.zero_le _⟩
  simp only [step]
  cases authorize cfg principal target with
  | ok config => exact hnew _ (Or.inl rfl)
  | error e => exact hnew _ (Or.inr ⟨e, rfl⟩)

theorem step_inv (h : Inv cfg s) (e : Ev ρ) : Inv cfg (step cfg s e) := by
  cases e with
  | «open» principal target => exact open_inv h principal target
  | move i m =>
    simp only [step]
    cases hi : s.opens[i]? with
    | none => exact h
    | some o => exact stepOpen_inv h hi m
  | get principal id =>
    have hg := h.get principal id
    simp only [step]
    split
    all_goals
      rename_i hr
      rw [hr] at hg
      exact ⟨hg.books, hg.sound, hg.unsaturated, hg.known⟩
  | dropReference id => exact ⟨h.books, h.sound, h.unsaturated, h.known⟩
  | close principal id => exact h.close principal id
  | reapExpired => exact h.reap
  | closeAllStore => exact ⟨h.books, h.sound, h.unsaturated, h.known⟩
  | closeAllTake =>
    simp only [step]
    split
    · exact h
    · have ht : Inv cfg { s with registry := { s.registry with sessions := ∅ } } :=
        h.sessions (Nat.zero_le _) (fun _ => Nat.zero_le _) fun id hid => absurd rfl hid
      exact ⟨ht.books, ht.sound, ht.unsaturated, ht.known⟩
  | tick n => exact ⟨h.books, h.sound, h.unsaturated, h.known⟩

theorem inv {s : St ρ} (h : (machine cfg ρ).Reach s) : Inv cfg s :=
  h.invariant (P := Inv cfg) (fun _ h0 => h0 ▸ init_inv) fun _ e _ hi => step_inv hi e

/-! ## What a move makes of its open -/

/-- Every way a move takes an open `o` on, with what it needed. -/
inductive Advance (closing : Bool) (now : Nat) (o : Open ρ) : Move ρ → Open ρ → Prop
  | stay (m : Move ρ) : Advance closing now o m o
  | refused (e : AdbcError) : o.stage = .asked →
      Advance closing now o .checkClosing { o with stage := .returned (.error e) }
  | checked : o.stage = .asked → closing = false → Advance closing now o .checkClosing { o with stage := .reaping }
  | reaped : o.stage = .reaping → Advance closing now o .reap { o with stage := .locking }
  | denied (e : AdbcError) : o.stage = .locking →
      Advance closing now o .reserve { o with stage := .returned (.error e) }
  | reserved : o.stage = .locking → closing = false →
      Advance closing now o .reserve { o with stage := .reserved, reservations := o.reservations + 1 }
  | spawned : o.stage = .reserved → Advance closing now o (.spawn none)
      { o with stage := .waiting, backend := .running }
  | spawnFailed (text : String) (e : AdbcError) : o.stage = .reserved →
      Advance closing now o (.spawn (some text)) { o with stage := .failed e }
  | backendReturned (r : Except AdbcError ρ) : o.backend = .running →
      Advance closing now o (.backendReturns r) { o with backend := .returned r }
  | backendPanicked : o.backend = .running → Advance closing now o .backendPanics { o with backend := .panicked }
  | received (connection : ρ) : o.stage = .waiting → o.backend = .returned (.ok connection) →
      Advance closing now o .receive { o with stage := .opened connection }
  | receivedError (e : AdbcError) : o.stage = .waiting → o.backend ≠ .running →
      Advance closing now o .receive { o with stage := .failed e }
  | expired (e : AdbcError) : o.stage = .waiting → o.backend = .running →
      Advance closing now o .expire { o with stage := .failed e }
  | started (connection : ρ) : o.stage = .opened connection →
      Advance closing now o (.workerStart none) { o with stage := .ready ⟨o.principal, o.target, now, connection⟩ }
  | startFailed (text : String) (e : AdbcError) (connection : ρ) : o.stage = .opened connection →
      Advance closing now o (.workerStart (some text)) { o with stage := .failed e }
  | released (e : AdbcError) : o.stage = .failed e →
      Advance closing now o .release { o with stage := .returned (.error e), releases := o.releases + 1 }
  | inserted (id : String) (session : Session ρ) : o.stage = .ready session → closing = false →
      Advance closing now o (.insert id) { o with stage := .returned (.ok id), releases := o.releases + 1 }
  | insertRefused (id : String) (session : Session ρ) (e : AdbcError) : o.stage = .ready session → closing = true →
      Advance closing now o (.insert id) { o with stage := .returned (.error e), releases := o.releases + 1 }

theorem stepOpen_advance (cfg : Config) (hi : s.opens[i]? = some o) (m : Move ρ) :
    ∃ o', (stepOpen cfg s i o m).opens = s.opens.set i o' ∧ Advance s.closing s.now o m o' := by
  have hstay : ∃ o', s.opens = s.opens.set i o' ∧ Advance s.closing s.now o m o' :=
    ⟨o, (set_getElem?_self hi).symm, .stay m⟩
  cases m with
  | checkClosing =>
    simp only [stepOpen]
    cases hst : o.stage with
    | asked =>
      simp only
      split
      · exact ⟨_, rfl, .refused _ hst⟩
      · rename_i hc
        exact ⟨_, rfl, .checked hst (by simpa using hc)⟩
    | _ => exact hstay
  | reap =>
    simp only [stepOpen]
    cases hst : o.stage with
    | reaping => exact ⟨_, rfl, .reaped hst⟩
    | _ => exact hstay
  | reserve =>
    simp only [stepOpen]
    cases hst : o.stage with
    | locking =>
      cases hr : s.registry.reserveLocked s.closing cfg.limits o.principal with
      | error e => exact ⟨_, rfl, .denied e hst⟩
      | ok r => exact ⟨_, rfl, .reserved hst (reserveLocked_ok hr).1⟩
    | _ => exact hstay
  | spawn error =>
    simp only [stepOpen]
    cases hst : o.stage with
    | reserved =>
      cases error with
      | none => exact ⟨_, rfl, .spawned hst⟩
      | some text => exact ⟨_, rfl, .spawnFailed text _ hst⟩
    | _ => exact hstay
  | backendReturns r =>
    simp only [stepOpen]
    cases hb : o.backend with
    | running => exact ⟨_, rfl, .backendReturned r hb⟩
    | _ => exact hstay
  | backendPanics =>
    simp only [stepOpen]
    cases hb : o.backend with
    | running => exact ⟨_, rfl, .backendPanicked hb⟩
    | _ => exact hstay
  | receive =>
    simp only [stepOpen]
    split
    · rename_i hst hb
      exact ⟨_, rfl, .received _ hst hb⟩
    · rename_i hst hb
      exact ⟨_, rfl, .receivedError _ hst (by simp [hb])⟩
    · rename_i hst hb
      exact ⟨_, rfl, .receivedError _ hst (by simp [hb])⟩
    · exact hstay
  | expire =>
    simp only [stepOpen]
    split
    · rename_i hst hb
      exact ⟨_, rfl, .expired _ hst hb⟩
    · exact hstay
  | workerStart error =>
    simp only [stepOpen]
    cases hst : o.stage with
    | opened connection =>
      cases error with
      | none => exact ⟨_, rfl, .started connection hst⟩
      | some text => exact ⟨_, rfl, .startFailed text _ connection hst⟩
    | _ => exact hstay
  | release =>
    simp only [stepOpen]
    cases hst : o.stage with
    | failed e => exact ⟨_, rfl, .released e hst⟩
    | _ => exact hstay
  | insert id =>
    simp only [stepOpen]
    cases hst : o.stage with
    | ready session =>
      simp only
      split
      · exact hstay
      simp only [insertLocked]
      cases hc : s.closing with
      | true => exact ⟨_, rfl, .insertRefused id session _ hst rfl⟩
      | false => exact ⟨_, rfl, .inserted id session hst rfl⟩
    | _ => exact hstay

/-- What an event makes of the list of opens: it adds one, or takes one on. -/
theorem step_opens (cfg : Config) (s : St ρ) (e : Ev ρ) :
    (step cfg s e).opens = s.opens ∨
    (∃ principal target stage, e = .open principal target ∧ (stage = .asked ∨ ∃ x, stage = .returned (.error x)) ∧
      (step cfg s e).opens = s.opens ++ [⟨principal, target, stage, .notStarted, 0, 0⟩]) ∨
    (∃ i m o o', e = .move i m ∧ s.opens[i]? = some o ∧ (step cfg s e).opens = s.opens.set i o' ∧
      Advance s.closing s.now o m o') := by
  cases e with
  | «open» principal target =>
    refine .inr (.inl ⟨principal, target, _, rfl, ?_, rfl⟩)
    cases authorize cfg principal target with
    | ok config => exact .inl rfl
    | error x => exact .inr ⟨x, rfl⟩
  | move i m =>
    simp only [step]
    cases hi : s.opens[i]? with
    | none => exact .inl rfl
    | some o =>
      obtain ⟨o', ho', ha⟩ := stepOpen_advance cfg hi m
      exact .inr (.inr ⟨i, m, o, o', rfl, hi, ho', ha⟩)
  | get principal id =>
    simp only [step]
    split <;> exact .inl rfl
  | closeAllTake =>
    simp only [step]
    split <;> exact .inl rfl
  | _ => exact .inl rfl

/-! ## What an event makes of the rest -/

/-- A move of an open leaves `closing`, the clock, the references and the closers alone. -/
theorem stepOpen_frame (cfg : Config) (s : St ρ) (i : Nat) (o : Open ρ) (m : Move ρ) :
    (stepOpen cfg s i o m).closing = s.closing ∧ (stepOpen cfg s i o m).now = s.now ∧
    (stepOpen cfg s i o m).references = s.references ∧ (stepOpen cfg s i o m).closers = s.closers := by
  cases m with
  | receive | expire =>
    simp only [stepOpen]
    split <;> exact ⟨rfl, rfl, rfl, rfl⟩
  | backendReturns r | backendPanics =>
    simp only [stepOpen]
    cases o.backend <;> exact ⟨rfl, rfl, rfl, rfl⟩
  | spawn error | workerStart error =>
    simp only [stepOpen]
    cases o.stage <;> cases error <;> exact ⟨rfl, rfl, rfl, rfl⟩
  | checkClosing =>
    simp only [stepOpen]
    cases o.stage with
    | asked => by_cases hc : s.closing = true <;> simp [hc, St.set]
    | _ => exact ⟨rfl, rfl, rfl, rfl⟩
  | insert id =>
    simp only [stepOpen]
    cases o.stage with
    | ready session => by_cases hid : id ∈ s.issued <;> simp [hid, St.set]
    | _ => exact ⟨rfl, rfl, rfl, rfl⟩
  | reserve =>
    simp only [stepOpen]
    cases o.stage <;> cases s.registry.reserveLocked s.closing cfg.limits o.principal <;> exact ⟨rfl, rfl, rfl, rfl⟩
  | reap | release =>
    simp only [stepOpen]
    cases o.stage <;> exact ⟨rfl, rfl, rfl, rfl⟩

/-- A move of an open touches the sessions only to reap and to insert. -/
theorem stepOpen_sessions (cfg : Config) (s : St ρ) (i : Nat) (o : Open ρ) (m : Move ρ) :
    (stepOpen cfg s i o m).registry.sessions = s.registry.sessions ∨
    (m = .reap ∧ (stepOpen cfg s i o m).registry.sessions = (s.registry.reapLocked s.now cfg.ttl (inFlight s)).sessions) ∨
    (∃ id session, m = .insert id ∧ o.stage = .ready session ∧ s.closing = false ∧ id ∉ s.issued ∧
      (stepOpen cfg s i o m).registry.sessions = s.registry.sessions.insert id session) := by
  cases m with
  | receive | expire =>
    simp only [stepOpen]
    split <;> exact .inl rfl
  | backendReturns r | backendPanics =>
    simp only [stepOpen]
    cases o.backend <;> exact .inl rfl
  | spawn error | workerStart error =>
    simp only [stepOpen]
    cases o.stage <;> cases error <;> exact .inl rfl
  | checkClosing =>
    simp only [stepOpen]
    cases o.stage with
    | asked => cases s.closing <;> exact .inl rfl
    | _ => exact .inl rfl
  | release =>
    simp only [stepOpen]
    cases o.stage <;> exact .inl rfl
  | reserve =>
    simp only [stepOpen]
    cases o.stage with
    | locking =>
      cases hr : s.registry.reserveLocked s.closing cfg.limits o.principal with
      | error e => exact .inl rfl
      | ok r =>
        obtain ⟨-, -, -, rfl⟩ := reserveLocked_ok hr
        exact .inl rfl
    | _ => exact .inl rfl
  | reap =>
    simp only [stepOpen]
    cases o.stage with
    | reaping => exact .inr (.inl ⟨trivial, rfl⟩)
    | _ => exact .inl rfl
  | insert id =>
    simp only [stepOpen]
    cases hst : o.stage with
    | ready session =>
      simp only
      split
      · exact .inl rfl
      rename_i hid
      simp only [insertLocked]
      cases hc : s.closing with
      | true => exact .inl rfl
      | false => exact .inr (.inr ⟨id, session, rfl, rfl, rfl, hid, rfl⟩)
    | _ => exact .inl rfl

/-- Every way an event can change the sessions. -/
theorem step_sessions (cfg : Config) (s : St ρ) (e : Ev ρ) :
    (step cfg s e).registry.sessions = s.registry.sessions ∨
    ((e = .reapExpired ∨ ∃ i, e = .move i .reap) ∧
      (step cfg s e).registry.sessions = (s.registry.reapLocked s.now cfg.ttl (inFlight s)).sessions) ∨
    (∃ i o id session, e = .move i (.insert id) ∧ s.opens[i]? = some o ∧ o.stage = .ready session ∧ s.closing = false ∧
      id ∉ s.issued ∧ (step cfg s e).registry.sessions = s.registry.sessions.insert id session) ∨
    (∃ principal id, e = .get principal id ∧ (step cfg s e).registry.sessions =
      (s.registry.getLocked s.now cfg.ttl (inFlight s) id principal).2.sessions) ∨
    (∃ principal id, e = .close principal id ∧ (step cfg s e).registry.sessions =
      (s.registry.closeLocked id principal).2.sessions) ∨
    (e = .closeAllTake ∧ (step cfg s e).registry.sessions = ∅) := by
  cases e with
  | move i m =>
    simp only [step]
    cases hi : s.opens[i]? with
    | none => exact .inl rfl
    | some o =>
      rcases stepOpen_sessions cfg s i o m with h | ⟨rfl, h⟩ | ⟨id, session, rfl, hst, hc, hid, h⟩
      · exact .inl h
      · exact .inr (.inl ⟨.inr ⟨i, rfl⟩, h⟩)
      · exact .inr (.inr (.inl ⟨i, o, id, session, rfl, hi, hst, hc, hid, h⟩))
  | get principal id =>
    refine .inr (.inr (.inr (.inl ⟨principal, id, rfl, ?_⟩)))
    simp only [step]
    split
    all_goals
      rename_i hr
      rw [hr]
  | close principal id => exact .inr (.inr (.inr (.inr (.inl ⟨principal, id, rfl, rfl⟩))))
  | reapExpired => exact .inr (.inl ⟨.inl rfl, rfl⟩)
  | closeAllTake =>
    simp only [step]
    split
    · exact .inl rfl
    · exact .inr (.inr (.inr (.inr (.inr ⟨trivial, rfl⟩))))
  | _ => exact .inl rfl

/-- `closing` is set by `close_all` and by nothing unset. -/
theorem step_closing (cfg : Config) (s : St ρ) (e : Ev ρ) :
    (step cfg s e).closing = true ↔ s.closing = true ∨ e = .closeAllStore := by
  cases e with
  | move i m =>
    simp only [step]
    cases s.opens[i]? with
    | none => simp
    | some o => simp [(stepOpen_frame cfg s i o m).1]
  | get principal id =>
    simp only [step]
    split <;> simp
  | closeAllTake =>
    simp only [step]
    split <;> simp
  | _ => simp [step]

theorem step_now (cfg : Config) (s : St ρ) (e : Ev ρ) :
    (step cfg s e).now = s.now ∨ ∃ n, e = .tick n ∧ (step cfg s e).now = s.now + n := by
  cases e with
  | tick n => exact .inr ⟨n, rfl, rfl⟩
  | move i m =>
    left
    simp only [step]
    cases s.opens[i]? with
    | none => rfl
    | some o => exact (stepOpen_frame cfg s i o m).2.1
  | get p id =>
    left
    simp only [step]
    split <;> rfl
  | closeAllTake =>
    left
    simp only [step]
    split <;> rfl
  | _ => exact .inl rfl

theorem step_closers (cfg : Config) (s : St ρ) (e : Ev ρ) :
    (step cfg s e).closers ≤ s.closers ∨ e = .closeAllStore := by
  cases e with
  | move i m =>
    simp only [step]
    cases s.opens[i]? with
    | none => exact .inl (Nat.le_refl _)
    | some o => exact .inl (Nat.le_of_eq (stepOpen_frame cfg s i o m).2.2.2)
  | get principal id =>
    simp only [step]
    split <;> exact .inl (Nat.le_refl _)
  | closeAllTake =>
    simp only [step]
    split
    · exact .inl (Nat.le_refl _)
    · exact .inl (Nat.sub_le _ _)
  | closeAllStore => exact .inr rfl
  | _ => exact .inl (Nat.le_refl _)

/-! ## The accounts of every reachable state -/

/-- The books balance in every reachable state: the counters are the reservations that are
    held, in all and by principal, sessions and reservations stay within the limits together,
    no subtraction saturated, and an open that has returned released what it reserved. -/
theorem accounts (cfg : Config) (s : St ρ) (h : (machine cfg ρ).Reach s) :
    s.registry.openingTotal = s.opens.countP Open.holds ∧
    s.registry.openingTotal = s.registry.openingByPrincipal.total id ∧
    (∀ p, s.registry.openingByPrincipal.lookup p ≠ some 0) ∧
    s.registry.sessions.size + s.registry.openingTotal ≤ cfg.limits.maxSessions ∧
    (∀ p, s.registry.sessions.count (ownedBy p) + (s.registry.openingByPrincipal.lookup p).getD 0 ≤
      cfg.limits.maxSessionsPerPrincipal) ∧
    s.saturated = false ∧
    (∀ o ∈ s.opens, ∀ r, o.stage = .returned r → o.releases = o.reservations ∧ o.reservations ≤ 1) := by
  have hi := inv h
  refine ⟨hi.books.total, hi.books.sum.symm, hi.books.noZero, hi.books.bound, hi.books.boundFor, hi.unsaturated, ?_⟩
  intro o ho r hst
  have := hi.sound o ho
  simpa [Open.Sound, hst] using this

def twoSessions : Config where
  targets := AList.insert "main" ⟨"driver", none, [], [], false, false, [], []⟩ ∅
  ttl := 10
  requireAuthentication := false
  limits := ⟨2, 2, 1, 1⟩
  authorizer := .new ∅
  operationTimeout := "300s"

/-- One open went through, one gave up on a slow `backend.open` and released, a third
    still waits. -/
def threeOpens : St Unit := (machine twoSessions Unit).run init
  [.open "alice" "main", .move 0 .checkClosing, .move 0 .reap, .move 0 .reserve, .move 0 (.spawn none),
    .open "alice" "main", .move 1 .checkClosing, .move 0 (.backendReturns (.ok ())), .move 0 .receive, .move 1 .reap,
    .move 0 (.workerStart none), .move 1 .reserve, .move 1 (.spawn none), .move 1 .expire, .move 0 (.insert "s0"),
    .move 1 .release, .open "bob" "main", .move 2 .checkClosing, .move 2 .reap, .move 2 .reserve,
    .move 2 (.spawn none)]

theorem accounts_three_opens : (machine twoSessions Unit).Reach threeOpens ∧ threeOpens.registry.openingTotal = 1 ∧
    threeOpens.registry.openingTotal = threeOpens.opens.countP Open.holds ∧ threeOpens.saturated = false :=
  ⟨.run rfl _, by decide, (accounts twoSessions threeOpens (.run rfl _)).1,
    (accounts twoSessions threeOpens (.run rfl _)).2.2.2.2.2.1⟩

end Grainlift.Server.Admission
