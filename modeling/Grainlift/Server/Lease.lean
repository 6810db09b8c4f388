/-
  Grainlift.Server.Lease — a session's lease (`last_used` and the three places that decide
  expiry: `get`, `reap_expired` and the reaping before admission, session.rs), over the
  runs of Grainlift.Server.Admission.

  Beside the code's state a run keeps when each open built its session and, for each
  session, the instant of its creation or of its latest successful `get` (`used`): what
  the lease should be counted from, whatever the `last_used` fields say.

  Proved (`lease_safety`): `last_used` is that instant; a session leaves the registry only
  by its owner's `close`, by `close_all`, or expired by it with no reference out; the
  owner's `get` removes an expired idle session and returns none; a session whose
  successful gets are never more than the ttl apart stays; and a stranger's `get` or
  `close` changes nothing.
-/

import Mathlib.Logic.Function.Basic
import Grainlift.Server.Admission

namespace Grainlift.Server.Lease

open Grainlift.Lib Grainlift.Protocol SessionRegistry Admission

variable {ρ : Type} {cfg : Config} {s : St ρ} {id : String} {session : Session ρ}

/-! ## What an event does to one registered session -/

/-- At this instant the session may be taken for expired: idle for longer than the ttl,
    no handler holding a reference. -/
def Expirable (cfg : Config) (s : St ρ) (id : String) (since : Nat) : Prop :=
  cfg.ttl < s.now - since ∧ id ∉ s.references

theorem expirable_iff (cfg : Config) (s : St ρ) (id : String) (session : Session ρ) :
    (expired s.now cfg.ttl session && !inFlight s id) = true ↔ Expirable cfg s id session.lastUsed := by
  simp [Expirable, expired, inFlight]

theorem get_owner (hl : s.registry.sessions.lookup id = some session) (hx : ¬ Expirable cfg s id session.lastUsed) :
    s.registry.getLocked s.now cfg.ttl (inFlight s) id session.principal =
      (.ok { session with lastUsed := s.now },
        { s.registry with sessions := s.registry.sessions.insert id { session with lastUsed := s.now } }) := by
  rw [← expirable_iff] at hx
  simp only [getLocked, hl, ne_eq, not_true_eq_false, if_false, if_neg hx]

theorem get_expired (hl : s.registry.sessions.lookup id = some session) (hx : Expirable cfg s id session.lastUsed) :
    s.registry.getLocked s.now cfg.ttl (inFlight s) id session.principal =
      (.error (notFound "expired session"), { s.registry with sessions := s.registry.sessions.erase id }) := by
  rw [← expirable_iff] at hx
  simp only [getLocked, hl, ne_eq, not_true_eq_false, if_false, if_pos hx]

theorem get_stranger (hl : s.registry.sessions.lookup id = some session) {p : String} (hp : p ≠ session.principal) :
    s.registry.getLocked s.now cfg.ttl (inFlight s) id p = (.error notTheOwner, s.registry) := by
  simp only [getLocked, hl, ne_eq, Ne.symm hp, not_false_eq_true, if_true]

theorem close_stranger (hl : s.registry.sessions.lookup id = some session) {p : String} (hp : p ≠ session.principal) :
    s.registry.closeLocked id p = (.error notTheOwner, s.registry) := by
  simp only [closeLocked, hl, ne_eq, Ne.symm hp, not_false_eq_true, if_true]

/-- `get` of one session leaves every other as it is. -/
theorem get_other {id' : String} (hne : id ≠ id') (p : String) :
    (s.registry.getLocked s.now cfg.ttl (inFlight s) id' p).2.sessions.lookup id = s.registry.sessions.lookup id := by
  unfold getLocked
  cases s.registry.sessions.lookup id' with
  | none => rfl
  | some other =>
    simp only
    split
    · rfl
    split
    · exact AList.lookup_erase_ne hne
    · exact AList.lookup_insert_ne hne

theorem close_other {id' : String} (hne : id ≠ id') (p : String) :
    (s.registry.closeLocked id' p).2.sessions.lookup id = s.registry.sessions.lookup id := by
  unfold closeLocked
  cases s.registry.sessions.lookup id' with
  | none => rfl
  | some other =>
    simp only
    split
    · rfl
    · exact AList.lookup_erase_ne hne

/-- The events that take the session `id` of `owner` out of the registry. -/
def Removes (cfg : Config) (s : St ρ) (owner id : String) (since : Nat) (e : Ev ρ) : Prop :=
  e = .close owner id ∨ (e = .closeAllTake ∧ s.closers ≠ 0) ∨
  (Expirable cfg s id since ∧ (e = .reapExpired ∨ (∃ i, e = .move i .reap) ∨ e = .get owner id))

/-- How a registered session comes out of an event: still there with its owner, its lease
    as it was or refreshed by its owner's `get`, or removed. -/
def Outcome (cfg : Config) (s : St ρ) (id : String) (session : Session ρ) (e : Ev ρ) : Prop :=
  (∃ later, (step cfg s e).registry.sessions.lookup id = some later ∧ later.principal = session.principal ∧
    ((e ≠ .get session.principal id ∧ later.lastUsed = session.lastUsed) ∨
     (e = .get session.principal id ∧ ¬ Expirable cfg s id session.lastUsed ∧ later.lastUsed = s.now))) ∨
  ((step cfg s e).registry.sessions.lookup id = none ∧ Removes cfg s session.principal id session.lastUsed e)

theorem Outcome.same {e : Ev ρ} (he : e ≠ .get session.principal id)
    (h : (step cfg s e).registry.sessions.lookup id = some session) : Outcome cfg s id session e :=
  .inl ⟨session, h, rfl, .inl ⟨he, rfl⟩⟩

theorem reap_lookup (hl : s.registry.sessions.lookup id = some session) :
    ((s.registry.reapLocked s.now cfg.ttl (inFlight s)).sessions.lookup id = some session) ∨
    ((s.registry.reapLocked s.now cfg.ttl (inFlight s)).sessions.lookup id = none ∧
      Expirable cfg s id session.lastUsed) := by
  simp only [reapLocked, Table.lookup_retain, hl]
  by_cases hx : Expirable cfg s id session.lastUsed
  · have hx' := (expirable_iff cfg s id session).mpr hx
    refine .inr ⟨?_, hx⟩
    simp only [Bool.and_eq_true, Bool.not_eq_true'] at hx'
    simp [hx'.1, hx'.2]
  · left
    rw [← expirable_iff] at hx
    simp only [Bool.and_eq_true, Bool.not_eq_true', not_and, Bool.not_eq_false] at hx
    cases hexp : expired s.now cfg.ttl session with
    | false => simp [hexp]
    | true => simp [hx hexp]

theorem get_registry (cfg : Config) (s : St ρ) (p id' : String) :
    (step cfg s (.get p id')).registry = (s.registry.getLocked s.now cfg.ttl (inFlight s) id' p).2 := by
  simp only [step]
  split
  all_goals
    rename_i hr
    rw [hr]

theorem get_outcome (hl : s.registry.sessions.lookup id = some session) (p id' : String) :
    Outcome cfg s id session (.get p id') := by
  unfold Outcome
  rw [get_registry]
  by_cases hid : id = id'
  · subst hid
    by_cases hp : p = session.principal
    · subst hp
      by_cases hx : Expirable cfg s id session.lastUsed
      · rw [get_expired hl hx]
        exact .inr ⟨AList.lookup_erase _ _, .inr (.inr ⟨hx, .inr (.inr rfl)⟩)⟩
      · rw [get_owner hl hx]
        exact .inl ⟨_, AList.lookup_insert _, rfl, .inr ⟨rfl, hx, rfl⟩⟩
    · rw [get_stranger hl hp]
      exact .inl ⟨session, hl, rfl, .inl ⟨fun e => hp (by injection e), rfl⟩⟩
  · rw [get_other hid]
    exact .inl ⟨session, hl, rfl, .inl ⟨fun e => hid (by injection e with _ e; exact e.symm), rfl⟩⟩

theorem close_outcome (hl : s.registry.sessions.lookup id = some session) (p id' : String) :
    Outcome cfg s id session (.close p id') := by
  by_cases hid : id = id'
  · subst hid
    by_cases hp : p = session.principal
    · subst hp
      refine .inr ⟨?_, .inl rfl⟩
      simp only [step, closeLocked, hl, ne_eq, not_true_eq_false, if_false]
      exact AList.lookup_erase _ _
    · exact .same (by simp) (by simp only [step, close_stranger hl hp]; exact hl)
  · exact .same (by simp) (by simp only [step, close_other hid]; exact hl)

theorem session_step (hi : Admission.Inv cfg s) (hl : s.registry.sessions.lookup id = some session) (e : Ev ρ) :
    Outcome cfg s id session e := by
  cases e with
  | get p id' => exact get_outcome hl p id'
  | close p id' => exact close_outcome hl p id'
  | reapExpired =>
    rcases reap_lookup hl with h | ⟨h, hx⟩
    · exact .same (by simp) h
    · exact .inr ⟨h, .inr (.inr ⟨hx, .inl rfl⟩)⟩
  | closeAllTake =>
    by_cases hc : s.closers = 0
    · exact .same (by simp) (by simp only [step, hc, if_true]; exact hl)
    · exact .inr ⟨by simp only [step, if_neg hc]; rfl, .inr (.inl ⟨rfl, hc⟩)⟩
  | move i m =>
    cases ho : s.opens[i]? with
    | none => exact .same (by simp) (by simp only [step, ho]; exact hl)
    | some o =>
      have hstep : step cfg s (.move i m) = stepOpen cfg s i o m := by simp only [step, ho]
      rcases stepOpen_sessions cfg s i o m with h | ⟨rfl, h⟩ | ⟨id', later, rfl, -, -, hid', h⟩
      · exact .same (by simp) (by rw [hstep, h]; exact hl)
      · rcases reap_lookup hl with hr | ⟨hr, hx⟩
        · exact .same (by simp) (by rw [hstep, h]; exact hr)
        · exact .inr ⟨by rw [hstep, h]; exact hr, .inr (.inr ⟨hx, .inr (.inl ⟨i, rfl⟩)⟩)⟩
      · -- an id is issued once, so a session never replaces another
        have hne : id ≠ id' := by
          intro heq
          subst heq
          exact hid' (hi.known id (by simp [hl]))
        exact .same (by simp) (by rw [hstep, h, AList.lookup_insert_ne hne]; exact hl)
  | «open» p target => exact .same (by simp) hl
  | dropReference id' => exact .same (by simp) hl
  | closeAllStore => exact .same (by simp) hl
  | tick n => exact .same (by simp) hl

/-- A session that appears was inserted by an open that had built it. -/
theorem session_appears {e : Ev ρ} (hl : s.registry.sessions.lookup id = none)
    (h : (step cfg s e).registry.sessions.lookup id = some session) :
    ∃ i o, e = .move i (.insert id) ∧ s.opens[i]? = some o ∧ o.stage = .ready session := by
  rcases step_sessions cfg s e with h' | ⟨-, h'⟩ | ⟨i, o, id', later, rfl, ho, hst, -, -, h'⟩ | ⟨p, id', -, h'⟩ |
      ⟨p, id', -, h'⟩ | ⟨-, h'⟩
  · rw [h', hl] at h
    cases h
  · rw [h', reapLocked, Table.lookup_retain, hl] at h
    cases h
  · rw [h'] at h
    by_cases hid : id = id'
    · subst hid
      rw [AList.lookup_insert] at h
      cases h
      exact ⟨i, o, rfl, ho, hst⟩
    · rw [AList.lookup_insert_ne hid, hl] at h
      cases h
  · rw [h'] at h
    by_cases hid : id = id'
    · subst hid
      simp only [getLocked, hl] at h
      cases h
    · rw [get_other hid, hl] at h
      cases h
  · rw [h'] at h
    by_cases hid : id = id'
    · subst hid
      simp only [closeLocked, hl] at h
      cases h
    · rw [close_other hid, hl] at h
      cases h
  · rw [h'] at h
    cases h

/-! ## The run with its history -/

/-- The state and what a lease should be counted from. -/
structure Watched (ρ : Type) where
  s : St ρ
  /-- When each open built its session. -/
  built : Nat → Nat
  /-- When each session was created or last returned by a successful `get`. -/
  used : String → Nat

def builds (s : St ρ) (i : Nat) : Bool :=
  match s.opens[i]? with
  | some o => match o.stage with
    | .opened _ => true
    | _ => false
  | none => false

def Watched.step (cfg : Config) (w : Watched ρ) (e : Ev ρ) : Watched ρ where
  s := Admission.step cfg w.s e
  built := match e with
    | .move i (.workerStart none) => if builds w.s i then Function.update w.built i w.s.now else w.built
    | _ => w.built
  used := match e with
    | .get principal id =>
      match (w.s.registry.getLocked w.s.now cfg.ttl (inFlight w.s) id principal).1 with
      | .ok _ => Function.update w.used id w.s.now
      | .error _ => w.used
    | .move i (.insert id) =>
      if (w.s.registry.sessions.lookup id).isNone &&
        ((Admission.step cfg w.s e).registry.sessions.lookup id).isSome then
        Function.update w.used id (w.built i)
      else w.used
    | _ => w.used

def watched (cfg : Config) (ρ : Type) : Machine (Watched ρ) (Ev ρ) where
  init w := w.s = Admission.init
  step := Watched.step cfg

variable {w v : Watched ρ}

theorem watched_reach (h : (watched cfg ρ).Reach w) : (machine cfg ρ).Reach w.s := by
  obtain ⟨w0, h0, p⟩ := h
  exact ⟨w0.s, h0, p.simulate Watched.s fun w e _ => .step e (.refl w.s) trivial⟩

structure Inv (w : Watched ρ) : Prop where
  ready : ∀ (i : Nat) (o : Open ρ) (session : Session ρ),
    w.s.opens[i]? = some o → o.stage = .ready session → session.lastUsed = w.built i
  registered : ∀ id session, w.s.registry.sessions.lookup id = some session → session.lastUsed = w.used id

/-- An open's session is the one it built at the instant the history notes. -/
theorem advance_ready {closing : Bool} {now : Nat} {o o' : Open ρ} {m : Move ρ} (h : Advance closing now o m o')
    (hst : o'.stage = .ready session) :
    o.stage = .ready session ∨ (m = .workerStart none ∧ (∃ c, o.stage = .opened c) ∧ session.lastUsed = now) := by
  cases h with
  | stay => exact .inl hst
  | backendReturned _ _ => exact .inl hst
  | backendPanicked _ => exact .inl hst
  | started c ho =>
    cases hst
    exact .inr ⟨rfl, ⟨c, ho⟩, rfl⟩
  | _ => cases hst

theorem built_other {e : Ev ρ} {i : Nat} (h : ∀ j, e = .move j (.workerStart none) → builds w.s j = true → i ≠ j) :
    (w.step cfg e).built i = w.built i := by
  simp only [Watched.step]
  split
  · rename_i j
    split
    · rename_i hb
      exact Function.update_of_ne (h j rfl hb) _ _
    · rfl
  · rfl

theorem step_ready (h : Inv w) (e : Ev ρ) (i : Nat) (o : Open ρ) (hi : (w.step cfg e).s.opens[i]? = some o)
    (hst : o.stage = .ready session) : session.lastUsed = (w.step cfg e).built i := by
  -- an open that is ready already is not at the stage that builds
  have hkeep : w.s.opens[i]? = some o → session.lastUsed = (w.step cfg e).built i := by
    intro ho
    rw [built_other, h.ready i o session ho hst]
    intro j _ hb hij
    subst hij
    simp [builds, ho, hst] at hb
  change (Admission.step cfg w.s e).opens[i]? = some o at hi
  rcases step_opens cfg w.s e with he | ⟨_, _, stage, -, hs, he⟩ | ⟨j, m, o1, o2, hm, hj, he, ha⟩
  · rw [he] at hi
    exact hkeep hi
  · rw [he] at hi
    rcases getElem?_snoc_cases hi with hi | ⟨-, rfl⟩
    · exact hkeep hi
    · rcases hs with rfl | ⟨x, rfl⟩ <;> cases hst
  · rw [he] at hi
    rcases getElem?_set_cases hi with ⟨rfl, rfl⟩ | ⟨-, hi⟩
    · rcases advance_ready ha hst with hst1 | ⟨rfl, ⟨c, hc⟩, hnow⟩
      · rw [built_other, h.ready i o1 session hj hst1]
        intro k hk hb hik
        subst hik
        simp [builds, hj, hst1] at hb
      · subst hm
        have hb : builds w.s i = true := by simp [builds, hj, hc]
        simp only [Watched.step, hb, if_true, Function.update_self]
        exact hnow
    · exact hkeep hi

/-- The instant a lease counts from moves only with a success of the owner's `get`, or
    when the session is inserted. -/
theorem used_other {e : Ev ρ} (hl : w.s.registry.sessions.lookup id = some session)
    (he : e ≠ .get session.principal id) : (w.step cfg e).used id = w.used id := by
  simp only [Watched.step]
  split
  · rename_i p id'
    cases hr : (w.s.registry.getLocked w.s.now cfg.ttl (inFlight w.s) id' p).1 with
    | ok _ =>
      by_cases hid : id = id'
      · subst hid
        have hp : p ≠ session.principal := fun hp => he (by rw [hp])
        rw [get_stranger hl hp] at hr
        cases hr
      · exact Function.update_of_ne hid _ _
    | error _ => rfl
  · rename_i i id'
    split
    · rename_i hnew
      have hid : id ≠ id' := by
        intro heq
        subst heq
        simp [hl] at hnew
      exact Function.update_of_ne hid _ _
    · rfl
  · rfl

theorem step_registered (hi : Admission.Inv cfg w.s) (h : Inv w) (e : Ev ρ)
    (hl : (w.step cfg e).s.registry.sessions.lookup id = some session) :
    session.lastUsed = (w.step cfg e).used id := by
  change (Admission.step cfg w.s e).registry.sessions.lookup id = some session at hl
  cases hl0 : w.s.registry.sessions.lookup id with
  | none =>
    obtain ⟨i, o, rfl, ho, hst⟩ := session_appears hl0 hl
    have hnew : ((w.s.registry.sessions.lookup id).isNone &&
        ((Admission.step cfg w.s (.move i (.insert id))).registry.sessions.lookup id).isSome) = true := by
      simp [hl0, hl]
    simp only [Watched.step, if_pos hnew, Function.update_self]
    exact h.ready i o session ho hst
  | some before =>
    rcases session_step hi hl0 e with ⟨later, hlater, -, hused⟩ | ⟨hnone, -⟩
    · rw [hl] at hlater
      cases hlater
      rcases hused with ⟨he, hsame⟩ | ⟨rfl, hx, hnow⟩
      · rw [hsame, used_other hl0 he, h.registered id before hl0]
      · simp only [Watched.step, get_owner hl0 hx, Function.update_self]
        exact hnow
    · rw [hl] at hnone
      cases hnone

theorem watched_inv (h : (watched cfg ρ).Reach w) : Inv w :=
  h.invariant_under (I := fun w => Admission.Inv cfg w.s) (P := Inv) (fun _ hw => inv (watched_reach hw))
    (fun w h0 => by
      have h0 : w.s = Admission.init := h0
      exact ⟨fun i o session hi _ => by simp [h0, Admission.init] at hi, fun id session hl => by
        rw [h0] at hl
        cases hl⟩)
    fun w e _ hi _ hw => ⟨fun i o _ ho hst => step_ready hw e i o ho hst, fun _ _ hl => step_registered hi hw e hl⟩

/-! ## Lease safety -/

/-- The events of a run in which the session's successive successful gets are at most the
    ttl apart (time does not pass beyond it before the next one) and neither its owner's
    `close` nor a `close_all` takes it. -/
def Attended (cfg : Config) (id : String) (w : Watched ρ) : Ev ρ → Prop
  | .tick n => w.s.now + n - w.used id ≤ cfg.ttl
  | .close p id' => id' = id → ∀ session, w.s.registry.sessions.lookup id = some session → p ≠ session.principal
  | .closeAllTake => w.s.closers = 0
  | _ => True

/-- A registered session of `owner`, its latest use no longer ago than the ttl. -/
structure Live (cfg : Config) (owner id : String) (w : Watched ρ) : Prop where
  registered : ∃ session, w.s.registry.sessions.lookup id = some session ∧ session.principal = owner
  fresh : w.s.now - w.used id ≤ cfg.ttl

theorem attended_step {owner : String} (hi : Admission.Inv cfg w.s) (hw : Inv w) (h : Live cfg owner id w) (e : Ev ρ)
    (ha : Attended cfg id w e) : Live cfg owner id (w.step cfg e) := by
  obtain ⟨⟨session, hl, rfl⟩, hfresh⟩ := h
  have hlast := hw.registered id session hl
  have hx : ¬ Expirable cfg w.s id session.lastUsed := by
    intro hx
    have := hx.1
    omega
  rcases session_step hi hl e with ⟨later, hlater, hp, hused⟩ | ⟨-, hrm⟩
  · refine ⟨⟨later, hlater, hp⟩, ?_⟩
    rcases hused with ⟨he, -⟩ | ⟨rfl, -, -⟩
    · rw [used_other hl he]
      rcases step_now cfg w.s e with hn | ⟨n, rfl, hn⟩
      · change (Admission.step cfg w.s e).now - _ ≤ _
        rw [hn]
        exact hfresh
      · change (Admission.step cfg w.s (.tick n)).now - _ ≤ _
        rw [hn]
        exact ha
    · rcases step_now cfg w.s (.get session.principal id) with hn | ⟨n, hn, -⟩
      · change (Admission.step cfg w.s _).now - _ ≤ _
        rw [hn]
        simp only [Watched.step, get_owner hl hx, Function.update_self]
        omega
      · cases hn
  · rcases hrm with rfl | ⟨rfl, hc⟩ | ⟨hx', -⟩
    · exact absurd rfl (ha rfl session hl)
    · exact absurd ha hc
    · exact absurd hx' hx

theorem attended_path {owner : String} (h : (watched cfg ρ).Reach w) (hl : Live cfg owner id w)
    (p : (watched cfg ρ).Path (Attended cfg id) w v) : Live cfg owner id v := by
  induction p with
  | refl => exact hl
  | step e p g ih =>
    have hr := h.extend (p.weaken fun _ _ _ => trivial)
    exact attended_step (inv (watched_reach hr)) (watched_inv hr) ih e g

/-- The lease of a registered session, from its last successful `get`: what can end it, who
    keeps it alive, and that strangers neither end nor refresh it. -/
theorem lease_safety (cfg : Config) (w : Watched ρ) (h : (watched cfg ρ).Reach w) (id : String) (session : Session ρ)
    (hl : w.s.registry.sessions.lookup id = some session) :
    -- `last_used` is the creation or the latest successful `get`
    session.lastUsed = w.used id ∧
    -- (a) what can remove the session, and when for expiry
    (∀ e, (w.step cfg e).s.registry.sessions.lookup id = none →
      e = .close session.principal id ∨ e = .closeAllTake ∨
      (cfg.ttl < w.s.now - w.used id ∧ id ∉ w.s.references ∧
        (e = .reapExpired ∨ (∃ i, e = .move i .reap) ∨ e = .get session.principal id))) ∧
    -- (b) a session a handler holds
    (id ∈ w.s.references → ∀ e, (w.step cfg e).s.registry.sessions.lookup id = none →
      e = .close session.principal id ∨ e = .closeAllTake) ∧
    -- (c) the owner's `get` of an expired idle session
    (cfg.ttl < w.s.now - w.used id → id ∉ w.s.references →
      (w.s.registry.getLocked w.s.now cfg.ttl (inFlight w.s) id session.principal).1 =
        .error (notFound "expired session") ∧
      (w.step cfg (.get session.principal id)).s.registry.sessions.lookup id = none) ∧
    -- (d) gets at most the ttl apart
    (w.s.now - w.used id ≤ cfg.ttl → ∀ v, (watched cfg ρ).Path (Attended cfg id) w v →
      Live cfg session.principal id v) ∧
    -- (e) somebody else's `get` or `close`
    (∀ p, p ≠ session.principal →
      (w.s.registry.getLocked w.s.now cfg.ttl (inFlight w.s) id p).1 = .error notTheOwner ∧
      (w.s.registry.closeLocked id p).1 = .error notTheOwner ∧
      w.step cfg (.get p id) = w ∧ w.step cfg (.close p id) = w) := by
  have hi := inv (watched_reach h)
  have hw := watched_inv h
  have hlast := hw.registered id session hl
  have hgone : ∀ e, (w.step cfg e).s.registry.sessions.lookup id = none →
      Removes cfg w.s session.principal id (w.used id) e := by
    intro e he
    rcases session_step hi hl e with ⟨later, hlater, -⟩ | ⟨-, hrm⟩
    · change (Admission.step cfg w.s e).registry.sessions.lookup id = none at he
      rw [hlater] at he
      cases he
    · rwa [hlast] at hrm
  refine ⟨hlast, ?_, ?_, ?_, ?_, ?_⟩
  · intro e he
    rcases hgone e he with hc | ⟨hc, -⟩ | ⟨hx, hc⟩
    · exact .inl hc
    · exact .inr (.inl hc)
    · exact .inr (.inr ⟨hx.1, hx.2, hc⟩)
  · intro hheld e he
    rcases hgone e he with hc | ⟨hc, -⟩ | ⟨hx, -⟩
    · exact .inl hc
    · exact .inr hc
    · exact absurd hheld hx.2
  · intro ht hheld
    have hx : Expirable cfg w.s id session.lastUsed := by
      rw [hlast]
      exact ⟨ht, hheld⟩
    refine ⟨by rw [get_expired hl hx], ?_⟩
    simp only [Watched.step, Admission.step, get_expired hl hx]
    exact AList.lookup_erase _ _
  · intro ht v p
    exact attended_path h ⟨⟨session, hl, rfl⟩, ht⟩ p
  · intro p hp
    refine ⟨by rw [get_stranger hl hp], by rw [close_stranger hl hp], ?_, ?_⟩
    · simp only [Watched.step, Admission.step, get_stranger hl hp]
    · simp only [Watched.step, Admission.step, close_stranger hl hp]

/-- Alice's session was opened at instant 1 and used at instant 9; it is 21 now, its
    handler is done. -/
def idleSession : Watched Unit := (watched twoSessions Unit).run ⟨Admission.init, fun _ => 0, fun _ => 0⟩
  [.tick 1, .open "alice" "main", .move 0 .checkClosing, .move 0 .reap, .move 0 .reserve, .move 0 (.spawn none),
    .move 0 (.backendReturns (.ok ())), .move 0 .receive, .move 0 (.workerStart none), .tick 1, .move 0 (.insert "s0"),
    .tick 7, .get "alice" "s0", .tick 12, .get "bob" "s0", .dropReference "s0"]

theorem lease_safety_idle : idleSession.s.registry.sessions.lookup "s0" = some ⟨"alice", "main", 9, ()⟩ ∧
    idleSession.used "s0" = 9 ∧
    (idleSession.step twoSessions (.get "alice" "s0")).s.registry.sessions.lookup "s0" = none ∧
    idleSession.step twoSessions (.close "bob" "s0") = idleSession := by
  have hl : idleSession.s.registry.sessions.lookup "s0" = some ⟨"alice", "main", 9, ()⟩ := rfl
  have h := lease_safety twoSessions idleSession (.run rfl _) "s0" _ hl
  exact ⟨hl, h.1.symm, (h.2.2.2.1 (by decide) (by decide)).2, (h.2.2.2.2.2 "bob" (by decide)).2.2.2⟩

end Grainlift.Server.Lease
