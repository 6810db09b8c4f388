/-
  Grainlift.Server.Registry — the session registry behind its mutex (`SessionRegistry`
  and the critical sections of `SessionManager`, session.rs).

  Each function here is what one holder of the registry lock does to it: admission,
  the release of a reservation, the final insert of `open`, `get`, `close`,
  `reap_expired` and the taking of every session by `close_all`. `inFlight id` says
  whether anyone but the registry holds a reference to the session
  (`Arc::strong_count(session) > 1`). `ρ` is what a session holds besides its owner,
  its target and its lease; none of these sections looks into it.
-/

import Grainlift.Server.Access

namespace Grainlift.Server

open Grainlift.Lib Grainlift.Protocol

structure Session (ρ : Type) where
  principal : String
  target : String
  lastUsed : Nat
  inner : ρ

structure SessionRegistry (ρ : Type) where
  sessions : Table String (Session ρ)
  openingTotal : Nat
  openingByPrincipal : Table String Nat

namespace SessionRegistry

variable {ρ : Type}

def empty : SessionRegistry ρ := ⟨∅, 0, ∅⟩

def ownedBy (principal : String) (_ : String) (session : Session ρ) : Bool := session.principal == principal

/-- `last_used.elapsed() > ttl`. -/
def expired (now ttl : Nat) (session : Session ρ) : Bool := ttl < now - session.lastUsed

def releaseOpenReservationLocked (r : SessionRegistry ρ) (principal : String) : SessionRegistry ρ :=
  { r with
    openingTotal := r.openingTotal - 1
    openingByPrincipal :=
      match r.openingByPrincipal.lookup principal with
      | some opening =>
        if opening - 1 = 0 then r.openingByPrincipal.erase principal
        else r.openingByPrincipal.insert principal (opening - 1)
      | none => r.openingByPrincipal }

/-- `reserve_open` once it holds the lock. -/
def reserveLocked (closing : Bool) (limits : SessionLimits) (r : SessionRegistry ρ) (principal : String) :
    Except AdbcError (SessionRegistry ρ) :=
  if closing then .error (busy "proxy is shutting down")
  else if limits.maxSessions ≤ r.sessions.size + r.openingTotal then .error (quota "global session")
  else if limits.maxSessionsPerPrincipal ≤
      r.sessions.count (ownedBy principal) + (r.openingByPrincipal.lookup principal).getD 0 then
    .error (quota "per-principal session")
  else .ok { r with
    openingTotal := r.openingTotal + 1
    openingByPrincipal :=
      r.openingByPrincipal.insert principal ((r.openingByPrincipal.lookup principal).getD 0 + 1) }

/-- The end of `open`: release the reservation and, unless the proxy is closing, insert. -/
def insertLocked (closing : Bool) (r : SessionRegistry ρ) (id : String) (session : Session ρ) :
    Except AdbcError String × SessionRegistry ρ :=
  let r := r.releaseOpenReservationLocked session.principal
  if closing then (.error (busy "proxy is shutting down"), r)
  else (.ok id, { r with sessions := r.sessions.insert id session })

/-- `get`: the caller's own live session, its lease refreshed; an expired idle one is
    removed instead. -/
def getLocked (now ttl : Nat) (inFlight : String → Bool) (r : SessionRegistry ρ) (id principal : String) :
    Except AdbcError (Session ρ) × SessionRegistry ρ :=
  match r.sessions.lookup id with
  | none => (.error (notFound "session"), r)
  | some session =>
    if session.principal ≠ principal then (.error notTheOwner, r)
    else if expired now ttl session && !inFlight id then
      (.error (notFound "expired session"), { r with sessions := r.sessions.erase id })
    else
      let session := { session with lastUsed := now }
      (.ok session, { r with sessions := r.sessions.insert id session })

def closeLocked (r : SessionRegistry ρ) (id principal : String) : Except AdbcError Unit × SessionRegistry ρ :=
  match r.sessions.lookup id with
  | none => (.error (notFound "session"), r)
  | some session =>
    if session.principal ≠ principal then (.error notTheOwner, r)
    else (.ok (), { r with sessions := r.sessions.erase id })

def reapLocked (now ttl : Nat) (inFlight : String → Bool) (r : SessionRegistry ρ) : SessionRegistry ρ :=
  { r with sessions := r.sessions.retain fun id session => inFlight id || !expired now ttl session }

def closeAllLocked (r : SessionRegistry ρ) : SessionRegistry ρ := { r with sessions := ∅ }

end SessionRegistry

end Grainlift.Server
