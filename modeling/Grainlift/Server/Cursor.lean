/-
  Grainlift.Server.Cursor — the replayable result cursor (`ResultEntry::next`,
  session.rs).

  A result entry wraps a driver's reader. Clients name the batch they want by its
  sequence number, an `i64`; the entry polls the reader for the next one, replays the
  last one, latches the reader's error or its end, and refuses every other number.

  `shape` is every entry a run of calls can reach, by the number `n` of batches pulled
  and what the reader said after them (`more`, or the error or the end that finished
  it): `run_shape`. The four fields `next` checks one after the other are functions of
  that position. From it:
  - `replays`: as long as fewer than 2^63 batches were delivered, a call at `n` polls
    once and answers the reader's item `n`, or repeats the latched error or end; a call
    at `n - 1` answers batch `n - 1` again until the end was reported; every other
    number is refused and changes nothing; a batch answered at `s` is the reader's
    `s`-th.
  - `wraps_past_the_last_sequence`: `next_sequence` is an `i64` too. Once 2^63 batches
    were delivered it wraps, and a call at the most negative number is answered with a
    batch.
-/

import Grainlift.Protocol.Values
import Mathlib.Algebra.Order.Ring.Int

namespace Grainlift.Server

open Grainlift.Protocol

structure ResultEntry where
  ownerStatementId : Option String
  reader : Reader
  schema : Schema
  nextSequence : Int64
  last : Option (Int64 × RecordBatch)
  terminalError : Option (Int64 × AdbcError)
  finished : Bool

namespace ResultEntry

def invalidSequence (expected got : Int64) : AdbcError :=
  .withMessageAndStatus s!"invalid result sequence: expected {expected}, got {got}" .invalidState

/-- The entry `insert_owned_result` builds. -/
def fresh (owner : Option String) (reader : Reader) : ResultEntry :=
  ⟨owner, reader, reader.schema, 0, none, none, false⟩

/-- What `next` does once the number is the expected one and the reader is not finished. -/
def poll (e : ResultEntry) (sequence : Int64) : Except AdbcError (Option RecordBatch) × ResultEntry :=
  match e.reader.next with
  | (some (.ok batch), r) =>
    (.ok (some batch), { e with reader := r, last := some (sequence, batch), nextSequence := e.nextSequence + 1 })
  | (some (.error err), r) =>
    (.error err, { e with reader := r, terminalError := some (sequence, err), finished := true })
  | (none, r) => (.ok none, { e with reader := r, finished := true, last := none })

/-- The batch kept for replay, if it is the one asked for. -/
def replayed (e : ResultEntry) (sequence : Int64) : Option RecordBatch :=
  match e.last with
  | some (lastSequence, batch) => if sequence = lastSequence then some batch else none
  | none => none

/-- The reader's error, if it came at the number asked for. -/
def latched (e : ResultEntry) (sequence : Int64) : Option AdbcError :=
  match e.terminalError with
  | some (errorSequence, err) => if sequence = errorSequence then some err else none
  | none => none

def next (e : ResultEntry) (sequence : Int64) : Except AdbcError (Option RecordBatch) × ResultEntry :=
  match e.replayed sequence, e.latched sequence with
  | some batch, _ => (.ok (some batch), e)
  | none, some err => (.error err, e)
  | none, none =>
    if sequence ≠ e.nextSequence then (.error (invalidSequence e.nextSequence sequence), e)
    else if e.finished then (.ok none, e)
    else e.poll sequence

/-- The entry after a run of calls. -/
def nexts (e : ResultEntry) (calls : List Int64) : ResultEntry := calls.foldl (fun e s => (e.next s).2) e

end ResultEntry

namespace Cursor

open ResultEntry

variable (owner : Option String) (schema : Schema) (items : Nat → Option (Except AdbcError RecordBatch))

/-! ## The entries a run can reach -/

/-- What the reader said after the batches pulled so far. -/
inductive End where
  | more
  | failed (e : AdbcError)
  | ended

def End.finished : End → Bool
  | .more => false
  | _ => true

/-- The batch of the last pull, under its number. -/
def lastOf : Nat → Option (Int64 × RecordBatch)
  | 0 => none
  | k + 1 =>
    match items k with
    | some (.ok batch) => some (Int64.ofNat k, batch)
    | _ => none

def shape (n : Nat) (fin : End) : ResultEntry where
  ownerStatementId := owner
  reader := ⟨schema, items, if fin.finished then n + 1 else n⟩
  schema := schema
  nextSequence := Int64.ofNat n
  last := match fin with
    | .ended => none
    | _ => lastOf items n
  terminalError := match fin with
    | .failed e => some (Int64.ofNat n, e)
    | _ => none
  finished := fin.finished

/-- The position is one the reader's own items lead to. -/
structure Leads (n : Nat) (fin : End) : Prop where
  batches : ∀ i < n, ∃ b, items i = some (.ok b)
  failed : ∀ e, fin = .failed e → items n = some (.error e)
  ended : fin = .ended → items n = none

theorem lastOf_some {n : Nat} {k : Int64} {b : RecordBatch} (h : lastOf items n = some (k, b)) :
    ∃ m, n = m + 1 ∧ k = Int64.ofNat m ∧ items m = some (.ok b) := by
  cases n with
  | zero => cases h
  | succ m =>
    simp only [lastOf] at h
    split at h
    · rename_i batch hb
      cases h
      exact ⟨m, rfl, rfl, hb⟩
    · cases h

theorem ofNat_succ (n : Nat) : Int64.ofNat n + 1 = Int64.ofNat (n + 1) := (Int64.ofNat_add n 1).symm

/-- Neighbouring numbers differ, also across the wrap. -/
theorem ofNat_ne_succ (n : Nat) : Int64.ofNat (n + 1) ≠ Int64.ofNat n := by
  intro h
  rw [← ofNat_succ] at h
  exact absurd (Int64.add_eq_left.mp h) (by decide)

/-- The kept batch is never the next one's. -/
theorem lastOf_ne_next (n : Nat) (b : RecordBatch) : lastOf items n ≠ some (Int64.ofNat n, b) := by
  intro h
  obtain ⟨m, rfl, hk, -⟩ := lastOf_some items h
  exact ofNat_ne_succ m hk

/-! ## One call -/

/-- A reader's item as `next` answers it. -/
def asResult : Option (Except AdbcError RecordBatch) → Except AdbcError (Option RecordBatch)
  | some (.ok batch) => .ok (some batch)
  | some (.error e) => .error e
  | none => .ok none

/-- Where the entry stands after polling item `n`. -/
def pulled (n : Nat) : Nat × End :=
  match items n with
  | some (.ok _) => (n + 1, .more)
  | some (.error e) => (n, .failed e)
  | none => (n, .ended)

theorem replayed_shape {n : Nat} {fin : End} {k : Int64} {b : RecordBatch} :
    (shape owner schema items n fin).replayed k = some b ↔ fin ≠ .ended ∧ lastOf items n = some (k, b) := by
  cases fin with
  | ended => simp [replayed, shape]
  | more | failed e =>
    simp only [replayed, shape]
    cases h : lastOf items n with
    | none => simp
    | some kb =>
      obtain ⟨k', b'⟩ := kb
      by_cases hk : k = k'
      · subst hk; simp
      · simp [hk, Ne.symm hk]

theorem replayed_next (n : Nat) (fin : End) : (shape owner schema items n fin).replayed (Int64.ofNat n) = none := by
  apply Option.eq_none_iff_forall_ne_some.mpr
  intro b hb
  exact lastOf_ne_next items n b (replayed_shape owner schema items |>.mp hb).2

theorem next_replay {n : Nat} {fin : End} {k : Int64} {b : RecordBatch} (hf : fin ≠ .ended)
    (h : lastOf items n = some (k, b)) :
    (shape owner schema items n fin).next k = (.ok (some b), shape owner schema items n fin) := by
  simp only [next, (replayed_shape owner schema items).mpr ⟨hf, h⟩]

theorem next_failed (n : Nat) (e : AdbcError) :
    (shape owner schema items n (.failed e)).next (Int64.ofNat n) =
      (.error e, shape owner schema items n (.failed e)) := by
  have hl : (shape owner schema items n (.failed e)).latched (Int64.ofNat n) = some e := by simp [latched, shape]
  simp only [next, replayed_next, hl]

theorem next_ended (n : Nat) :
    (shape owner schema items n .ended).next (Int64.ofNat n) = (.ok none, shape owner schema items n .ended) := by
  simp [next, replayed, latched, shape, End.finished]

theorem poll_shape (n : Nat) :
    (shape owner schema items n .more).poll (Int64.ofNat n) =
      (asResult (items n), shape owner schema items (pulled items n).1 (pulled items n).2) := by
  have hr : Reader.next ⟨schema, items, n⟩ = (items n, ⟨schema, items, n + 1⟩) := rfl
  cases h : items n with
  | none => simp [poll, pulled, hr, h, asResult, shape, End.finished]
  | some r =>
    cases r with
    | ok b => simp [poll, pulled, hr, h, asResult, shape, End.finished, lastOf]
    | error e => simp [poll, pulled, hr, h, asResult, shape, End.finished]

theorem next_poll (n : Nat) :
    (shape owner schema items n .more).next (Int64.ofNat n) =
      (asResult (items n), shape owner schema items (pulled items n).1 (pulled items n).2) := by
  rw [← poll_shape owner schema]
  have hl : (shape owner schema items n .more).latched (Int64.ofNat n) = none := rfl
  have hs : (shape owner schema items n .more).nextSequence = Int64.ofNat n := rfl
  have hf : (shape owner schema items n .more).finished = false := rfl
  simp only [next, replayed_next, hl, hs, hf, ne_eq, not_true_eq_false, if_false, Bool.false_eq_true]

theorem next_refused {n : Nat} {fin : End} {k : Int64} (hn : k ≠ Int64.ofNat n)
    (hl : ∀ b, ¬ (fin ≠ .ended ∧ lastOf items n = some (k, b))) :
    (shape owner schema items n fin).next k =
      (.error (invalidSequence (Int64.ofNat n) k), shape owner schema items n fin) := by
  have hr : (shape owner schema items n fin).replayed k = none :=
    Option.eq_none_iff_forall_ne_some.mpr fun b hb => hl b ((replayed_shape owner schema items).mp hb)
  have ht : (shape owner schema items n fin).latched k = none := by
    cases fin <;> simp [latched, shape, hn]
  have hs : (shape owner schema items n fin).nextSequence = Int64.ofNat n := rfl
  simp only [next, hr, ht, hs, ne_eq, hn, not_false_eq_true, if_true]

/-! ## Every run -/

theorem pulled_leads {n : Nat} (h : Leads items n .more) : Leads items (pulled items n).1 (pulled items n).2 := by
  unfold pulled
  cases hi : items n with
  | none => exact ⟨h.batches, fun e he => (nomatch he), fun _ => hi⟩
  | some r =>
    cases r with
    | ok b =>
      refine ⟨?_, fun e he => (nomatch he), fun he => (nomatch he)⟩
      intro i hlt
      rcases Nat.lt_succ_iff_lt_or_eq.mp hlt with hlt | rfl
      · exact h.batches i hlt
      · exact ⟨b, hi⟩
    | error err => exact ⟨h.batches, fun e he => by cases he; exact hi, fun he => (nomatch he)⟩

/-- What one call can do to an entry: nothing, or the poll of item `n`. -/
theorem next_shape (n : Nat) (fin : End) (k : Int64) :
    ((shape owner schema items n fin).next k).2 = shape owner schema items n fin ∨
      (fin = .more ∧ k = Int64.ofNat n) := by
  by_cases hk : k = Int64.ofNat n
  · subst hk
    cases fin with
    | more => exact .inr ⟨rfl, rfl⟩
    | failed e => rw [next_failed]; exact .inl rfl
    | ended => rw [next_ended]; exact .inl rfl
  · by_cases hr : ∃ b, fin ≠ .ended ∧ lastOf items n = some (k, b)
    · obtain ⟨b, hf, hl⟩ := hr
      rw [next_replay owner schema items hf hl]; exact .inl rfl
    · rw [next_refused owner schema items hk fun b hb => hr ⟨b, hb⟩]; exact .inl rfl

theorem run_shape (calls : List Int64) :
    ∃ n fin, nexts (fresh owner ⟨schema, items, 0⟩) calls = shape owner schema items n fin ∧ Leads items n fin := by
  suffices ∀ n fin, Leads items n fin →
      ∃ m fin', nexts (shape owner schema items n fin) calls = shape owner schema items m fin' ∧
        Leads items m fin' from
    this 0 .more ⟨fun i hi => absurd hi (Nat.not_lt_zero i), fun _ he => (nomatch he), fun he => (nomatch he)⟩
  induction calls with
  | nil => intro n fin h; exact ⟨n, fin, rfl, h⟩
  | cons k calls ih =>
    intro n fin h
    simp only [nexts, List.foldl_cons]
    rcases next_shape owner schema items n fin k with hs | ⟨rfl, rfl⟩
    · rw [hs]; exact ih n fin h
    · rw [next_poll]; exact ih _ _ (pulled_leads items h)

/-! ## The claim about a run, and where it stops -/

/-- How many of the first `polled` items were batches. -/
def delivered (polled : Nat) : Nat :=
  (List.range polled).countP fun i => match items i with | some (.ok _) => true | _ => false

theorem delivered_all {n : Nat} (h : ∀ i < n, ∃ b, items i = some (.ok b)) : delivered items n = n := by
  unfold delivered
  rw [List.countP_eq_length.mpr, List.length_range]
  intro i hi
  obtain ⟨b, hb⟩ := h i (List.mem_range.mp hi)
  simp [hb]

theorem delivered_shape {n : Nat} {fin : End} (h : Leads items n fin) :
    delivered items (shape owner schema items n fin).reader.polled = n := by
  have hskip : (∀ b, items n ≠ some (.ok b)) → delivered items (n + 1) = n := by
    intro hne
    have hz : (match items n with | some (.ok _) => true | _ => false) = false := by
      split
      · rename_i b hb; exact absurd hb (hne b)
      · rfl
    have := delivered_all items h.batches
    unfold delivered at this ⊢
    rw [List.range_succ, List.countP_append, this, List.countP_singleton, hz]
    rfl
  cases fin with
  | more => exact delivered_all items h.batches
  | failed e => exact hskip fun b hb => by rw [h.failed e rfl] at hb; cases hb
  | ended => exact hskip fun b hb => by rw [h.ended rfl] at hb; cases hb

/-- What a call at `s` must do on the entry `e` over the reader's `items`, once `n`
    batches were delivered; `e.reader.polled` says whether item `n` was asked for. -/
structure Replays (e : ResultEntry) (n : Nat) (s : Int64) : Prop where
  /-- Items are pulled in order, each once, and none after an error or the end. -/
  inOrder : (∀ i < n, ∃ b, items i = some (.ok b)) ∧
    (e.reader.polled = n ∨ e.reader.polled = n + 1 ∧ ∀ b, items n ≠ some (.ok b))
  pollsNext : s.toInt = n → e.reader.polled = n →
    (e.next s).1 = asResult (items n) ∧ (e.next s).2.reader.polled = n + 1
  /-- The error or the end, reported once, is reported again and the reader left alone. -/
  latches : s.toInt = n → e.reader.polled = n + 1 → e.next s = (asResult (items n), e)
  replaysLast : s.toInt = n - 1 → 0 < n → ¬ (e.reader.polled = n + 1 ∧ items n = none) →
    ∃ b, items (n - 1) = some (.ok b) ∧ e.next s = (.ok (some b), e)
  refusesOther : s.toInt ≠ n → (s.toInt ≠ n - 1 ∨ n = 0 ∨ (e.reader.polled = n + 1 ∧ items n = none)) →
    e.next s = (.error (invalidSequence e.nextSequence s), e)
  sequenceIsIndex : ∀ b, (e.next s).1 = .ok (some b) → 0 ≤ s.toInt ∧ items s.toInt.toNat = some (.ok b)

/-- The entry after `calls`, from a fresh one over `items`. -/
def after (calls : List Int64) : ResultEntry := nexts (fresh owner ⟨schema, items, 0⟩) calls

/-- The batches delivered by then. -/
def deliveredBy (calls : List Int64) : Nat := delivered items (after owner schema items calls).reader.polled

theorem eq_ofNat_iff {n : Nat} (h : n < 2 ^ 63) (s : Int64) : s.toInt = n ↔ s = Int64.ofNat n := by
  rw [← Int64.toInt_inj, Int64.toInt_ofNat_of_lt h]

theorem lastOf_eq {n : Nat} (hb : ∀ i < n, ∃ b, items i = some (.ok b)) (hn : 0 < n) (hlt : n < 2 ^ 63) {s : Int64}
    (hs : s.toInt = n - 1) : ∃ b, items (n - 1) = some (.ok b) ∧ lastOf items n = some (s, b) := by
  obtain ⟨m, rfl⟩ := Nat.exists_eq_add_of_lt hn
  simp only [Nat.zero_add] at *
  obtain ⟨b, hi⟩ := hb m (by omega)
  have hm : s = Int64.ofNat m := (eq_ofNat_iff (by omega) s).mp (by omega)
  exact ⟨b, by simpa using hi, by simp [lastOf, hi, hm]⟩

/-- The kept batch is at `n - 1` in the `i64`s, while `n` is one of them. -/
theorem lastOf_index {n : Nat} (hlt : n < 2 ^ 63) {s : Int64} {b : RecordBatch} (h : lastOf items n = some (s, b)) :
    0 < n ∧ s.toInt = n - 1 ∧ items (n - 1) = some (.ok b) := by
  obtain ⟨m, rfl, rfl, hb⟩ := lastOf_some items h
  refine ⟨by omega, ?_, by simpa using hb⟩
  rw [Int64.toInt_ofNat_of_lt (by omega)]
  omega

/-- After any calls of `next`, whatever their sequence numbers, the next call polls the
    driver's reader, repeats what was delivered last, or is refused, as `Replays` says; short
    of 2^63 batches, where the sequence wraps. -/
theorem replays (calls : List Int64) (s : Int64) (h : deliveredBy owner schema items calls < 2 ^ 63) :
    Replays items (after owner schema items calls) (deliveredBy owner schema items calls) s := by
  obtain ⟨n, fin, he, hl⟩ := run_shape owner schema items calls
  have hn : deliveredBy owner schema items calls = n := by
    unfold deliveredBy after; rw [he]; exact delivered_shape owner schema items hl
  rw [hn] at h ⊢
  have hat : after owner schema items calls = shape owner schema items n fin := he
  rw [hat]
  -- the end was reported exactly when the reader was polled past `n` and item `n` is none
  have hend : (shape owner schema items n fin).reader.polled = n + 1 ∧ items n = none ↔ fin = .ended := by
    constructor
    · intro h'
      obtain ⟨hp, hi⟩ := h'
      cases fin with
      | more => simp [shape, End.finished] at hp
      | failed e => rw [hl.failed e rfl] at hi; cases hi
      | ended => rfl
    · intro heq
      subst heq
      exact ⟨rfl, hl.ended rfl⟩
  constructor
  case inOrder =>
    refine ⟨hl.batches, ?_⟩
    cases fin with
    | more => exact .inl rfl
    | failed e => exact .inr ⟨rfl, fun b hb => by rw [hl.failed e rfl] at hb; cases hb⟩
    | ended => exact .inr ⟨rfl, fun b hb => by rw [hl.ended rfl] at hb; cases hb⟩
  case pollsNext =>
    intro hs hp
    obtain rfl := (eq_ofNat_iff h s).mp hs
    cases fin with
    | more =>
      rw [next_poll]
      refine ⟨rfl, ?_⟩
      unfold pulled
      split <;> rfl
    | failed e => simp [shape, End.finished] at hp
    | ended => simp [shape, End.finished] at hp
  case latches =>
    intro hs hp
    obtain rfl := (eq_ofNat_iff h s).mp hs
    cases fin with
    | more => simp [shape, End.finished] at hp
    | failed e => rw [next_failed, hl.failed e rfl]; rfl
    | ended => rw [next_ended, hl.ended rfl]; rfl
  case replaysLast =>
    intro hs h0 hne
    obtain ⟨b, hb, hlast⟩ := lastOf_eq items hl.batches h0 h hs
    exact ⟨b, hb, next_replay owner schema items (fun hf => hne (hend.mpr hf)) hlast⟩
  case refusesOther =>
    intro hs hor
    refine next_refused owner schema items (fun hk => hs ((eq_ofNat_iff h s).mpr hk)) ?_
    intro b hb
    obtain ⟨h0, hidx, -⟩ := lastOf_index items h hb.2
    rcases hor with hne | hz | hf
    · exact hne hidx
    · omega
    · exact hb.1 (hend.mp hf)
  case sequenceIsIndex =>
    intro b hb
    by_cases hk : s = Int64.ofNat n
    · subst hk
      rw [Int64.toInt_ofNat_of_lt h]
      refine ⟨by omega, ?_⟩
      cases fin with
      | more =>
        rw [next_poll] at hb
        cases hi : items n with
        | none => simp [asResult, hi] at hb
        | some r =>
          cases r with
          | ok b' => simpa [asResult, hi] using hb
          | error e => simp [asResult, hi] at hb
      | failed e => rw [next_failed] at hb; cases hb
      | ended => rw [next_ended] at hb; cases hb
    · by_cases hr : ∃ b', fin ≠ .ended ∧ lastOf items n = some (s, b')
      · obtain ⟨b', hf, hlast⟩ := hr
        rw [next_replay owner schema items hf hlast] at hb
        cases hb
        obtain ⟨h0, hidx, hib⟩ := lastOf_index items h hlast
        refine ⟨by omega, ?_⟩
        rw [hidx, show ((n : Int) - 1).toNat = n - 1 by omega]
        exact hib
      · rw [next_refused owner schema items hk fun b' hb' => hr ⟨b', hb'⟩] at hb
        cases hb

/-- One `int64` column `value` of one row. -/
def oneRow (v : Int64) : RecordBatch :=
  ⟨⟨[⟨"value", .int64, false, []⟩], []⟩, [.int64 [some v]], 1, rfl, by simp [Column.length]⟩

def twoBatches (i : Nat) : Option (Except AdbcError RecordBatch) :=
  [Except.ok (oneRow 7), Except.ok (oneRow 8)][i]?

/-- A reader of the batches 7 and 8: read, replayed, skipped past, read to the end. -/
theorem replays_two_batches :
    deliveredBy none (oneRow 7).schema twoBatches [0, 0, 5, 1, 2] < 2 ^ 63 ∧
      Replays twoBatches (after none (oneRow 7).schema twoBatches [0, 0, 5, 1, 2])
        (deliveredBy none (oneRow 7).schema twoBatches [0, 0, 5, 1, 2]) 1 := by
  have h : deliveredBy none (oneRow 7).schema twoBatches [0, 0, 5, 1, 2] < 2 ^ 63 := by decide
  exact ⟨h, replays none (oneRow 7).schema twoBatches [0, 0, 5, 1, 2] 1 h⟩

/-- Reading an endless reader in order: after `k` calls the entry stands at `k`. -/
theorem after_in_order (b : RecordBatch) (k : Nat) :
    after owner schema (fun _ => some (.ok b)) ((List.range k).map Int64.ofNat) =
      shape owner schema (fun _ => some (.ok b)) k .more := by
  induction k with
  | zero => rfl
  | succ k ih =>
    unfold after nexts at ih ⊢
    rw [List.range_succ, List.map_append, List.foldl_append, ih]
    simp only [List.map_cons, List.map_nil, List.foldl_cons, List.foldl_nil, next_poll]
    rfl

/-- `next_sequence` wraps: after 2^63 batches, the call at the least `i64` is neither at
    the next batch nor at the last one, and is answered with a batch. -/
theorem wraps_past_the_last_sequence :
    ¬ ∀ (owner : Option String) (schema : Schema) (items : Nat → Option (Except AdbcError RecordBatch))
      (calls : List Int64) (s : Int64),
      Replays items (after owner schema items calls) (deliveredBy owner schema items calls) s := by
  intro hall
  obtain ⟨k, hk⟩ : ∃ k : Nat, k = 2 ^ 63 := ⟨_, rfl⟩
  let b := oneRow 0
  have hrun := after_in_order none b.schema b k
  have hn : deliveredBy none b.schema (fun _ => some (.ok b)) ((List.range k).map Int64.ofNat) = k := by
    unfold deliveredBy
    rw [hrun]
    exact delivered_shape none b.schema _ ⟨fun _ _ => ⟨b, rfl⟩, fun _ he => (nomatch he), fun he => (nomatch he)⟩
  have h := (hall none b.schema (fun _ => some (.ok b)) ((List.range k).map Int64.ofNat) Int64.minValue).refusesOther
  rw [hn, hrun] at h
  have hmin : Int64.minValue = Int64.ofNat k := by subst hk; decide
  have hrefused := h (by rw [Int64.toInt_minValue]; omega) (.inl (by rw [Int64.toInt_minValue]; omega))
  rw [hmin, next_poll] at hrefused
  cases hrefused

end Cursor

end Grainlift.Server
