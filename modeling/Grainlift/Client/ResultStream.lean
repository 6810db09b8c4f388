/-
  Grainlift.Client.ResultStream — a result on its way from the driver to the application
  (`reader_from_response`, `RemoteReader`, `ByteReader`, adbc-driver-grainlift/src/lib.rs,
  against `ResultProducer`, service.rs).

  A method that returns a reader makes one unary call, whose reply names a result of the
  session. The reader opens a producer on it and takes a turn of that producer for each
  batch (`readResult`). The producer's cursor travels with the stream: the server keeps it
  between the ticks of a byte stream, the continuation token holds it between HTTP replies.
  What a transport makes of the turns is left open, up to `Carries`.

  Both run against the session's machine, among the handlers of everyone else: others may
  read the same result, close it or invalidate it, and calls and answers can be lost.

  Proved (`result_stream`): what the application sees is what the driver answered that very
  call, batch by batch from where the driver's reader was, none left out and none twice, up
  to an error or to the end of the driver's reader; unless the first HTTP reply is a batch
  already flagged finished, which the reader loses. What `get_info` adds and leaves out
  is in Grainlift.Client.Info.
-/

import Grainlift.Client.CallRuns
import Grainlift.Client.Reader
import Grainlift.Server.ResultRuns

namespace Grainlift.Client.ResultStream

open Grainlift.Lib Grainlift.Protocol Grainlift.Server Concurrent ResultRuns
open Grainlift.Client.Calls (ApiCall Wire Shared Mine versioned Accounted Fate unaryDesk)
open Grainlift.Client.Reader (Remote Tick Item FinishedFirst itemsFrom received visible)

/-! ## The reader's calls -/

inductive ReadCall where
  /-- `open_producer` of READ_RESULT. -/
  | openProducer (init : RecordBatch)
  /-- A turn of the producer: a tick, or a stream resumed. -/
  | tick (cursor : ResultCursor)

@[reducible] def ReadAns : ReadCall → Type
  | .openProducer _ => Except AdbcError ResultCursor
  | .tick _ => Except AdbcError (Option (RecordBatch × ResultCursor))

/-- At most `n` turns, and none after an end or an error. -/
def turns : Nat → ResultCursor → Prog ReadAns (List Tick)
  | 0, _ => .done []
  | n + 1, cursor => .call (.tick cursor) fun
    | .ok (some (batch, cursor)) => (turns n cursor).bind fun rest => .done (.batch batch :: rest)
    | .ok none => .done [.ended]
    | .error e => .done [.error e]

def readResult (sessionId resultId : String) (n : Nat) : Prog ReadAns (Except AdbcError (List Tick)) :=
  .call (.openProducer (readResultRequest sessionId resultId 0)) fun
    | .ok cursor => (turns n cursor).bind fun ticks => .done (.ok ticks)
    | .error e => .done (.error e)

/-! ## The session's side of a call -/

def ReadCall.invocation : ReadCall → Invocation
  | .openProducer init => .request .readResult (versioned init)
  | .tick cursor => .produce cursor

/-- What the client is given of a handler's result. -/
def ReadCall.received (wire : Wire) : (c : ReadCall) → Except RpcError Reply → ReadAns c
  | .openProducer _, .ok (.producer _ cursor) => .ok cursor
  | .tick _, .ok (.produced batch cursor) => .ok (some (batch, cursor))
  | .tick _, .ok .drained => .ok none
  | .openProducer _, .ok reply | .tick _, .ok reply => .error (wire.stream reply)
  | .openProducer _, .error e | .tick _, .error e => .error (wire.failed e)

/-- A call that was lost is an error to the client. -/
def ReadCall.Lost : (c : ReadCall) → ReadAns c → Prop
  | .openProducer _, r | .tick _, r => ∃ e, r = .error e

/-- The reader's calls, in whatever context each comes; any of them can be lost. -/
def readDesk (srv : Service) (v : SessionView) (wire : Wire) : Desk St Ev Nat ReadAns :=
  sessionDesk srv v (fun _ => True) ReadCall.invocation (ReadCall.received wire) ReadCall.Lost

/-! ## What a handler of such a call did -/

section Handlers

variable {host : Host} {srv : Service} {v : SessionView} {s : St} {h : Nat} {hd : Handler} {ctx : CallContext}

theorem produce_recorded (cursor : ResultCursor) :
    Discipline.recorder.Follows [] (produceTurn ctx cursor) fun trail r =>
      (∀ batch next, r = .ok (.produced batch next) → next = { cursor with sequence := cursor.sequence + 1 } ∧
        ⟨.job (.nextResult cursor.resultId cursor.sequence), .ok (some batch)⟩ ∈ trail) ∧
      (r = .ok .drained → ⟨.job (.nextResult cursor.resultId cursor.sequence), .ok none⟩ ∈ trail) := by
  unfold produceTurn
  refine Discipline.follows_seq.mpr (Discipline.follows_mapErr.mpr (follows_job.mpr ⟨trivial, ?_, ?_⟩))
  · intro a
    cases a with
    | none =>
      refine ⟨?_, fun _ => List.mem_singleton.mpr rfl⟩
      intro batch next hr
      cases hr
    | some batch =>
      refine Discipline.follows_seq.mpr (Discipline.follows_lift.mpr ?_)
      cases ctx.emit batch with
      | error e => exact ⟨fun _ _ hr => (nomatch hr), fun hr => (nomatch hr)⟩
      | ok u =>
        refine ⟨?_, fun hr => (nomatch hr)⟩
        intro batch' next hr
        cases hr
        exact ⟨rfl, List.mem_singleton.mpr rfl⟩
  · intro e
    exact ⟨fun _ _ hr => (nomatch hr), fun hr => (nomatch hr)⟩

/-- What a turn gave is what `next_result` was answered. -/
theorem tick_polled (hr : (machine host srv v).Reach s) {cursor : ResultCursor}
    (hst : s.started[h]? = some (ctx, .produce cursor)) (hh : s.handlers[h]? = some hd) {reply : Reply}
    (hp : hd.prog = .done (.ok reply)) :
    (∀ batch next, reply = .produced batch next → next = { cursor with sequence := cursor.sequence + 1 } ∧
      Noted s h ⟨.job (.nextResult cursor.resultId cursor.sequence), .ok (some batch)⟩) ∧
    (reply = .drained → Noted s h ⟨.job (.nextResult cursor.resultId cursor.sequence), .ok none⟩) := by
  have hnoted : ∀ a, ⟨.job (.nextResult cursor.resultId cursor.sequence), .ok a⟩ ∈ hd.trail →
      Noted s h ⟨.job (.nextResult cursor.resultId cursor.sequence), .ok a⟩ := by
    intro a ha
    rcases (reach_noting hr).trails h hd _ hh ha with hn | ⟨e, he⟩
    · exact hn
    · cases he
  obtain ⟨c, p, hc, hpr, hran⟩ := (reach_serves hr).2 h hd hh
  cases hst.symm.trans hc
  rw [hp] at hran
  obtain ⟨_, _, body, hroute, rfl⟩ := routed hpr
  obtain ⟨-, -, rfl⟩ := sessionById_onSession (f := fun _ => produceTurn ctx cursor) (ofExcept_onSession hroute)
  obtain ⟨hbatch, hdrained⟩ := Discipline.ran_recorded (produce_recorded cursor) hran
  refine ⟨?_, fun h => hnoted _ (hdrained (congrArg Except.ok h))⟩
  intro batch next h
  obtain ⟨hnext, hmem⟩ := hbatch batch next (congrArg Except.ok h)
  exact ⟨hnext, hnoted _ hmem⟩

theorem readResult_recorded (sessionId resultId : String) (sequence : Int64) :
    Discipline.recorder.Follows []
      (readResultHandler (versioned (readResultRequest sessionId resultId sequence)) v) fun _ r =>
        ∀ schema cursor, r = .ok (.producer schema cursor) → cursor = ⟨v.sessionId, resultId, sequence⟩ := by
  have hname : argument [("session_id", .text sessionId), ("result_id", .text resultId), ("sequence", .int64 sequence)]
    "result_id" = some (.text resultId) := rfl
  have hsequence : orProtocol (int64Value (versioned (readResultRequest sessionId resultId sequence)).batch "sequence") =
      .ok sequence := congrArg orProtocol (int64Value_oneRow rfl)
  unfold readResultHandler
  rw [hsequence]
  by_cases hid : ApiCall.IsHandle resultId
  · unfold readResultRequest
    rw [(Calls.string_handle hname rfl).1 hid]
    refine Discipline.follows_seq.mpr (Discipline.follows_lift.mpr ?_)
    refine Discipline.follows_seq.mpr (Discipline.follows_lift.mpr ?_)
    refine Discipline.follows_seq.mpr (Discipline.follows_mapErr.mpr (follows_job.mpr ⟨trivial, ?_, ?_⟩))
    · intro schema schema' cursor hr
      cases hr
      rfl
    · intro e schema cursor hr
      cases hr
  · obtain ⟨e, he⟩ := (Calls.string_handle hname rfl).2 hid
    unfold readResultRequest
    rw [he]
    intro schema cursor hr
    cases hr

/-- A producer starts at the number it was asked for. -/
theorem opened_at (hr : (machine host srv v).Reach s) {resultId : String} {sequence : Int64}
    (hst : s.started[h]? = some (ctx, .request .readResult (versioned (readResultRequest v.sessionId resultId sequence))))
    (hh : s.handlers[h]? = some hd) {schema : Schema} {cursor : ResultCursor}
    (hp : hd.prog = .done (.ok (.producer schema cursor))) : cursor = ⟨v.sessionId, resultId, sequence⟩ := by
  obtain ⟨c, p, hc, hpr, hran⟩ := (reach_serves hr).2 h hd hh
  cases hst.symm.trans hc
  rw [hp] at hran
  obtain ⟨_, _, body, hroute, rfl⟩ := routed hpr
  obtain ⟨-, rfl⟩ := getSession_onSession (f := readResultHandler _) hroute
  exact Discipline.ran_recorded (readResult_recorded v.sessionId resultId sequence) hran schema cursor rfl

end Handlers

/-! ## The turns of a reader -/

section Turns

variable {host : Host} {srv : Service} {v : SessionView} {wire : Wire} {u w : St} {ks : List (Option Nat)}
  {resultId : String} {owner : Option String} {reader : Protocol.Reader} {n k : Nat}

/-- What at most `n` turns gave: the items from the `k`th on in their order, up to an end
    of theirs or an error. -/
inductive Told (items : Nat → Option Item) : Nat → Nat → List Tick → Prop
  | enough (k : Nat) : Told items k 0 []
  | batch {k n : Nat} {b : RecordBatch} {rest : List Tick} : items k = some (.ok b) → Told items (k + 1) n rest →
      Told items k (n + 1) (.batch b :: rest)
  | ended {k n : Nat} : items k = none → Told items k (n + 1) [.ended]
  | error {k n : Nat} (e : AdbcError) : Told items k (n + 1) [.error e]

theorem tick_run (hr : (machine host srv v).Reach u) {cursor : ResultCursor} {a : ReadAns (.tick cursor)}
    (hc : Calls (machine host srv v) (readDesk srv v wire) u (.call (.tick cursor) .done) ks a w) :
    (∃ e, a = .error e) ∨ ∃ h item, u.handlers.length ≤ h ∧
      Noted w h ⟨.job (.nextResult cursor.resultId cursor.sequence), .ok item⟩ ∧
      a = .ok (item.map fun batch => (batch, { cursor with sequence := cursor.sequence + 1 })) := by
  cases served hr hc with
  | lost _ hl => exact .inl hl
  | handled ctx _ _ hp hn _ hst _ hq hw ha =>
    rcases ha with ⟨hd, r, hh, hpr, rfl⟩ | hl
    case inr => exact .inl hl
    cases r with
    | error e => exact .inl ⟨_, rfl⟩
    | ok reply =>
      have ht := (hr.extend hp).extend hq
      obtain ⟨hbatch, hdrained⟩ := tick_polled (ht.extend hw) (serving_path ht hw hst) hh hpr
      have hle := hn ▸ length_path hr hp
      cases reply with
      | produced batch next =>
        obtain ⟨rfl, hnoted⟩ := hbatch batch next rfl
        exact .inr ⟨_, some batch, hle, hnoted, rfl⟩
      | drained => exact .inr ⟨_, none, hle, hdrained rfl, rfl⟩
      | unary _ | exchange _ | producer _ _ | acknowledged _ | cancelled => exact .inl ⟨_, rfl⟩

theorem ofNat_inj {m : Nat} (hm : m < 2 ^ 63) (hk : k < 2 ^ 63) (h : Int64.ofNat k = Int64.ofNat m) : k = m := by
  have hi := congrArg Int64.toInt h
  rw [Int64.toInt_ofNat_of_lt hk, Int64.toInt_ofNat_of_lt hm] at hi
  exact Int.ofNat.inj hi

theorem asResult_ok {x : Option Item} {item : Option RecordBatch} (h : Cursor.asResult x = .ok item) :
    x = item.map .ok := by
  cases x with
  | none =>
    cases h
    rfl
  | some r =>
    cases r with
    | error e => cases h
    | ok batch =>
      cases h
      rfl

/-- Each turn is given the item of its number, whoever else asks for it. -/
theorem turns_run (hr : (machine host srv v).Reach u) (hreg : Registered u resultId owner reader)
    (hk : k ≤ u.log.length) (hlog : w.log.length < 2 ^ 63) {ticks : List Tick} {sessionId : String}
    (hc : Calls (machine host srv v) (readDesk srv v wire) u (turns n ⟨sessionId, resultId, Int64.ofNat k⟩) ks ticks w) :
    Told (ahead reader) k n ticks := by
  induction n generalizing u k ks ticks with
  | zero =>
    cases hc with
    | done _ => exact .enough k
  | succ n ih =>
    have hbind : Calls (machine host srv v) (readDesk srv v wire) u
      (Prog.bind (.call (.tick ⟨sessionId, resultId, Int64.ofNat k⟩) .done) fun a => _) ks ticks w := hc
    obtain ⟨a, t, ks₁, ks₂, rfl, h₁, h₂⟩ := hbind.of_bind
    have ht := hr.extend h₁.path
    have hle := (log_path hr h₁.path).length_le
    have hle' := (log_path ht h₂.path).length_le
    rcases tick_run hr h₁ with ⟨e, rfl⟩ | ⟨h, item, hnew, hnoted, rfl⟩
    case inl =>
      cases h₂ with
      | done _ => exact .error e
    have hgrows := hnoted.grows hr h₁.path hnew
    obtain ⟨ev, hev, -, hn⟩ := hnoted
    have hresults := reach_results ht resultId
    obtain ⟨owner', reader', m, hreg', hm, hkm, hitem⟩ := hresults.answers _ _ ⟨ev, hev, hn⟩
    cases ofNat_inj (by omega) (by omega) hkm
    cases hresults.single _ _ _ _ (hreg.path hr h₁.path) hreg'
    have hitem := asResult_ok hitem
    cases item with
    | none =>
      cases h₂ with
      | done _ => exact .ended hitem
    | some batch =>
      obtain ⟨rest, x, ks₃, ks₄, rfl, h₃, h₄⟩ := Calls.of_bind h₂
      cases h₄ with
      | done hlast =>
        have h₃ := h₃.idle hlast
        rw [Cursor.ofNat_succ] at h₃
        exact .batch hitem (ih ht (hreg.path hr h₁.path) (by omega) h₃)

theorem open_run (hr : (machine host srv v).Reach u)
    {a : ReadAns (.openProducer (readResultRequest v.sessionId resultId 0))}
    (hc : Calls (machine host srv v) (readDesk srv v wire) u
      (.call (.openProducer (readResultRequest v.sessionId resultId 0)) .done) ks a w) :
    (∃ e, a = .error e) ∨ a = .ok ⟨v.sessionId, resultId, Int64.ofNat 0⟩ := by
  cases served hr hc with
  | lost _ hl => exact .inl hl
  | handled ctx _ _ hp _ _ hst _ hq hw ha =>
    rcases ha with ⟨hd, x, hh, hpr, rfl⟩ | hl
    case inr => exact .inl hl
    have ht := (hr.extend hp).extend hq
    cases x with
    | error e => exact .inl ⟨_, rfl⟩
    | ok reply =>
      cases reply with
      | producer schema cursor =>
        have hcursor := opened_at (ht.extend hw) (serving_path ht hw hst) hh hpr
        exact .inr (congrArg Except.ok hcursor)
      | unary _ | exchange _ | acknowledged _ | produced _ _ | drained | cancelled => exact .inl ⟨_, rfl⟩

theorem readResult_run (hr : (machine host srv v).Reach u) (hreg : Registered u resultId owner reader)
    (hlog : w.log.length < 2 ^ 63) {r : Except AdbcError (List Tick)}
    (hc : Calls (machine host srv v) (readDesk srv v wire) u (readResult v.sessionId resultId n) ks r w) :
    (∃ e, r = .error e) ∨ ∃ ticks, r = .ok ticks ∧ Told (ahead reader) 0 n ticks := by
  have hbind : Calls (machine host srv v) (readDesk srv v wire) u
    (Prog.bind (.call (.openProducer (readResultRequest v.sessionId resultId 0)) .done) fun a => _) ks r w := hc
  obtain ⟨a, t, ks₁, ks₂, rfl, h₁, h₂⟩ := hbind.of_bind
  rcases open_run hr h₁ with ⟨e, rfl⟩ | rfl
  · cases h₂ with
    | done _ => exact .inl ⟨e, rfl⟩
  · obtain ⟨ticks, x, ks₃, ks₄, rfl, h₃, h₄⟩ := Calls.of_bind h₂
    cases h₄ with
    | done hlast =>
      exact .inr ⟨ticks, rfl, turns_run (hr.extend h₁.path) (hreg.path hr h₁.path) (Nat.zero_le _) hlog (h₃.idle hlast)⟩

end Turns

/-! ## What the application sees of the turns -/

section Sees

variable {remote : Remote} {items : Nat → Option Item} {see : Nat → Option Item} {ticks : List Tick} {n k : Nat}

/-- The reader is given the turns in their order; a reply that says no other follows it is
    followed by the end. -/
structure Carries (remote : Remote) (k : Nat) (ticks : List Tick) : Prop where
  item : ∀ j tick, ticks[j]? = some tick → remote.item (k + j) = tick.item
  last : ∀ j b, ticks[j]? = some (.batch b) → remote.more (k + j) = false → ticks[j + 1]? = some .ended

/-- From the `k`th on, the items in their order, up to an end of theirs or an error. -/
def Shows (items : Nat → Option Item) (n : Nat) (see : Nat → Option Item) : Prop :=
  ∃ m ≤ n, (∀ i < m, ∃ b, items i = some (.ok b) ∧ see i = some (.ok b)) ∧
    (m < n → (∀ i, m < i → see i = none) ∧ ((items m = none ∧ see m = none) ∨ ∃ e, see m = some (.error e)))

theorem shows_succ {b : RecordBatch} (hi : items 0 = some (.ok b)) (hs : see 0 = some (.ok b))
    (h : Shows (fun i => items (i + 1)) n fun i => see (i + 1)) : Shows items (n + 1) see := by
  obtain ⟨m, hm, hbatches, hend⟩ := h
  refine ⟨m + 1, by omega, ?_, fun hlt => ⟨?_, (hend (by omega)).2⟩⟩
  · intro i hi'
    cases i with
    | zero => exact ⟨b, hi, hs⟩
    | succ i => exact hbatches i (by omega)
  · intro i hi'
    cases i with
    | zero => omega
    | succ i => exact (hend (by omega)).1 i (by omega)

/-- Nothing comes after an item that is no batch. -/
theorem itemsFrom_stop (h : ∀ b, remote.item k ≠ some (.ok b)) (i : Nat) : itemsFrom remote k (i + 1) = none := by
  have hmore : remote.more k = false := by
    unfold Remote.item at h
    unfold Remote.more
    split at h
    · rename_i hh
      simp only [hh, if_true]
      cases hr : remote.replies k with
      | batch b token finished => exact absurd (by simp [hr, Reader.Reply.item]) (h b)
      | ended => rfl
      | error e => rfl
    · rename_i hh
      simp only [hh]
      cases ht : remote.ticks k with
      | batch b => exact absurd (by simp [ht, Tick.item]) (h b)
      | ended => rfl
      | error e => rfl
  unfold itemsFrom
  rw [hmore]
  rfl

theorem shows_stop (hne : ∀ b, remote.item k ≠ some (.ok b))
    (h : (items k = none ∧ remote.item k = none) ∨ ∃ e, remote.item k = some (.error e)) :
    Shows (fun i => items (k + i)) (n + 1) (itemsFrom remote k) := by
  refine ⟨0, Nat.zero_le _, fun i hi => absurd hi (Nat.not_lt_zero i), fun _ => ⟨?_, h⟩⟩
  intro i hi
  obtain ⟨i, rfl⟩ := Nat.exists_eq_succ_of_ne_zero (Nat.pos_iff_ne_zero.mp hi)
  exact itemsFrom_stop hne i

theorem shows_itemsFrom (ht : Told items k n ticks) (hc : Carries remote k ticks) :
    Shows (fun i => items (k + i)) n (itemsFrom remote k) := by
  induction ht with
  | enough k => exact ⟨0, Nat.le_refl 0, fun i hi => absurd hi (Nat.not_lt_zero i), fun h => absurd h (Nat.not_lt_zero 0)⟩
  | @batch k n b rest hitem hrest ih =>
    have hsee : remote.item k = some (.ok b) := hc.item 0 _ rfl
    have hshift : (fun i => items (k + (i + 1))) = fun i => items (k + 1 + i) := by
      funext i
      congr 1
      omega
    refine shows_succ hitem hsee ?_
    rw [hshift]
    by_cases hm : remote.more k = true
    · have hfrom : (fun i => itemsFrom remote k (i + 1)) = itemsFrom remote (k + 1) := by
        funext i
        exact if_pos hm
      rw [hfrom]
      refine ih ⟨?_, ?_⟩
      · intro j tick hj
        rw [Nat.add_right_comm, Nat.add_assoc]
        exact hc.item (j + 1) tick hj
      · intro j b hj
        rw [Nat.add_right_comm, Nat.add_assoc]
        exact hc.last (j + 1) b hj
    · -- no reply follows, and the next turn was the end
      have hended := hc.last 0 b rfl (Bool.eq_false_iff.mpr hm)
      have hnone : ∀ i, itemsFrom remote k (i + 1) = none := fun i => if_neg hm
      cases hrest with
      | enough _ => cases hended
      | batch _ _ => cases hended
      | error e => cases hended
      | @ended _ n hi =>
        exact ⟨0, Nat.zero_le _, fun i hi => absurd hi (Nat.not_lt_zero i), fun _ => ⟨fun i _ => hnone i, .inl ⟨hi, hnone 0⟩⟩⟩
  | @ended k n hitem =>
    have hsee : remote.item k = none := hc.item 0 _ rfl
    exact shows_stop (by simp [hsee]) (.inl ⟨hitem, hsee⟩)
  | @error k n e =>
    have hsee : remote.item k = some (.error e) := hc.item 0 _ rfl
    exact shows_stop (by simp [hsee]) (.inr ⟨e, hsee⟩)

/-- The transport of a reader gives it what its calls gave. -/
structure Serves (remote : Remote) (r : Except AdbcError (List Tick)) : Prop where
  opened : remote.opened = r.map fun _ => ()
  carries : ∀ ticks, r = .ok ticks → Carries remote 0 ticks

theorem shows_visible {r : Except AdbcError (List Tick)} (hs : Serves remote r) (hfirst : ¬ FinishedFirst remote)
    (hr : (∃ e, r = .error e) ∨ ∃ ticks, r = .ok ticks ∧ Told items 0 n ticks) (resultId : String) (schema : Schema) :
    Shows items n (visible remote resultId schema) := by
  have hvisible : visible remote resultId schema = received remote := by
    funext i
    cases hh : remote.isHttp with
    | false => exact Reader.visible_byte hh resultId schema i
    | true => exact Reader.visible_http hh hfirst resultId schema i
  rw [hvisible]
  rcases hr with ⟨e, rfl⟩ | ⟨ticks, rfl, ht⟩
  · have ho : remote.opened = .error e := hs.opened
    have hreceived : received remote = fun i => if i = 0 then some (.error e) else none := by
      funext i
      unfold received
      rw [ho]
    rw [hreceived]
    refine ⟨0, Nat.zero_le _, fun i hi => absurd hi (Nat.not_lt_zero i), fun _ => ⟨?_, .inr ⟨e, rfl⟩⟩⟩
    intro i hi
    exact if_neg (by omega)
  · have ho : remote.opened = .ok () := hs.opened
    have hreceived : received remote = itemsFrom remote 0 := by
      funext i
      unfold received
      rw [ho]
    have hshows := shows_itemsFrom ht (hs.carries ticks rfl)
    simp only [Nat.zero_add] at hshows
    rw [hreceived]
    exact hshows

end Sees

/-! ## Where the result came from -/

section Source

variable {srv : Service} {ctx : CallContext} {v : SessionView} {wire : Wire}

/-- The result a call returned, up to its reader. -/
def resultOf : (c : ApiCall) → c.Ret → Option (String × Schema)
  | .getInfo _, r | .getObjects _ _ _ _ _ _, r | .getTableTypes, r | .getStatisticNames, r | .getStatistics _ _ _ _, r |
    .readPartition _, r | .execute _, r => some r
  | _, _ => none

/-- The driver's answer to such a call, when it gave `reader`. -/
def driverAnswer (ctx : CallContext) (v : SessionView) (reader : Protocol.Reader) : ApiCall → Option ((op : Op) × Ans op)
  | .getInfo codes => some ⟨.job (.connection (.getInfo (codes.map List.toFinset))), .ok reader⟩
  | .getObjects depth catalog dbSchema tableName tableType columnName =>
    some ⟨.job (.connection (.getObjects (depth.val : Int) catalog dbSchema tableName tableType columnName)), .ok reader⟩
  | .getTableTypes => some ⟨.job (.connection .getTableTypes), .ok reader⟩
  | .getStatisticNames => some ⟨.job (.connection .getStatisticNames), .ok reader⟩
  | .getStatistics catalog dbSchema tableName approximate =>
    some ⟨.job (.connection (.getStatistics catalog dbSchema tableName approximate)), .ok reader⟩
  | .readPartition partition =>
    match ctx.signer.openToken v.target v.principal partition maxControlBytes with
    | .ok descriptor => some ⟨.job (.connection (.readPartition descriptor)), .ok reader⟩
    | .error _ => none
  | .execute id => some ⟨.job (.statement id .execute), .ok reader⟩
  | _ => none

theorem driverAnswer_ok {reader : Protocol.Reader} {c : ApiCall} {note : (op : Op) × Ans op}
    (h : driverAnswer ctx v reader c = some note) (e : AdbcError) : note.2 ≠ .error e := by
  cases c with
  | getInfo _ | getObjects _ _ _ _ _ _ | getTableTypes | getStatisticNames | getStatistics _ _ _ _ | execute _ =>
    cases h
    intro he
    cases he
  | readPartition partition =>
    simp only [driverAnswer] at h
    split at h
    · cases h
      intro he
      cases he
    · cases h
  | _ => cases h

/-- The driver gave the reader, which was then kept as the result. -/
def Kept (ctx : CallContext) (v : SessionView) (c : ApiCall) (trail : List ((op : Op) × Ans op)) (id : String)
    (schema : Schema) : Prop :=
  ∃ owner reader note, driverAnswer ctx v reader c = some note ∧ note ∈ trail ∧
    ⟨.job (.insertResult owner reader), .ok (id, schema)⟩ ∈ trail

theorem delivered_recorded {α β : Type} {x : Do AdbcError α} {outgoing : α → Except RpcError α}
    {reply : α → Except ProtocolError RecordBatch} {undo : α → Do RpcError Unit} {value : α → Except AdbcError β}
    {P : List ((op : Op) × Ans op) → α → Prop}
    (hx : Discipline.recorder.Follows [] x fun trail r => ∀ a, r = .ok a → P trail a) :
    Discipline.recorder.Follows [] (Calls.delivered wire x outgoing reply undo value) fun trail r =>
      ∀ b, r = .ok b → ∃ a sent, P trail a ∧ outgoing a = .ok sent ∧ value sent = .ok b := by
  refine Discipline.follows_bind.mpr (hx.mono fun trail r h => ?_)
  cases r with
  | error e =>
    intro b hb
    cases hb
  | ok a =>
    simp only
    cases ho : outgoing a with
    | error e =>
      intro b hb
      cases hb
    | ok sent =>
      simp only
      cases reply sent with
      | ok _ => exact fun b hb => ⟨a, sent, h a rfl, ho, hb⟩
      | error e =>
        refine Discipline.follows_bind.mpr (Discipline.recorder_follows (fun _ _ b hb => ?_) trail)
        cases hb

theorem job_recorded (j : Job) (trail : List ((op : Op) × Ans op)) :
    Discipline.recorder.Follows trail (Server.call j) fun trail r => ∀ a, r = .ok a → ⟨.job j, .ok a⟩ ∈ trail := by
  refine follows_job.mpr ⟨trivial, ?_, ?_⟩
  · intro a b h
    cases h
    exact List.mem_append_right _ (List.mem_singleton.mpr rfl)
  · intro e a h
    cases h

theorem kept_recorded {x : Do AdbcError Protocol.Reader} {note : Protocol.Reader → (op : Op) × Ans op}
    (hx : Discipline.recorder.Follows [] x fun trail r => ∀ reader, r = .ok reader → note reader ∈ trail) :
    Discipline.recorder.Follows [] (ApiCall.kept x) fun trail r => ∀ a, r = .ok a → ∃ owner reader,
      note reader ∈ trail ∧ ⟨.job (.insertResult owner reader), .ok a⟩ ∈ trail := by
  refine Discipline.follows_seq.mpr (hx.mono fun trail r h => ?_)
  cases r with
  | error e =>
    intro a ha
    cases ha
  | ok reader =>
    refine follows_job.mpr ⟨trivial, fun result a ha => ?_, fun e a ha => by cases ha⟩
    cases ha
    exact ⟨none, reader, List.mem_append_left _ (h reader rfl), List.mem_append_right _ (List.mem_singleton.mpr rfl)⟩

theorem execute_recorded (id : String) :
    Discipline.recorder.Follows [] (ApiCall.session srv.unicode ctx v (.execute id)) fun trail r =>
      ∀ a : String × Schema, r = .ok a → Kept ctx v (.execute id) trail a.1 a.2 := by
  refine Discipline.follows_seq.mpr (follows_job.mpr ⟨trivial, fun _ => ?_, fun e a ha => by cases ha⟩)
  refine Discipline.follows_seq.mpr (follows_job.mpr ⟨trivial, fun reader => ?_, fun e a ha => by cases ha⟩)
  refine Discipline.follows_seq.mpr (follows_job.mpr ⟨trivial, fun _ => ?_, fun e a ha => by cases ha⟩)
  refine follows_job.mpr ⟨trivial, fun result a ha => ?_, fun e a ha => by cases ha⟩
  cases ha
  exact ⟨some id, reader, _, rfl, by simp, by simp⟩

theorem session_recorded (c : ApiCall) :
    Discipline.recorder.Follows [] (c.session srv.unicode ctx v) fun trail r => ∀ a, r = .ok a →
      ∀ sent, c.outgoing srv ctx v a = .ok sent → ∀ x, c.value sent = .ok x →
      ∀ id schema, resultOf c x = some (id, schema) → Kept ctx v c trail id schema := by
  cases c with
  | getInfo _ | getObjects _ _ _ _ _ _ | getTableTypes | getStatisticNames | getStatistics _ _ _ _ =>
    refine (kept_recorded (job_recorded _ [])).mono fun trail r h a ha sent hsent x hx id schema hs => ?_
    cases hsent
    cases hx
    cases hs
    obtain ⟨owner, reader, hr, hi⟩ := h _ ha
    exact ⟨owner, reader, _, rfl, hr, hi⟩
  | readPartition partition =>
    refine Discipline.follows_seq.mpr (Discipline.follows_lift.mpr ?_)
    cases hd : ctx.signer.openToken v.target v.principal partition maxControlBytes with
    | error e =>
      intro a ha
      cases ha
    | ok descriptor =>
      refine (kept_recorded (job_recorded _ [])).mono fun trail r h a ha sent hsent x hx id schema hs => ?_
      cases hsent
      cases hx
      cases hs
      obtain ⟨owner, reader, hr, hi⟩ := h _ ha
      exact ⟨owner, reader, _, by simp only [driverAnswer, hd], hr, hi⟩
  | execute id =>
    refine (execute_recorded id).mono fun trail r h a ha sent hsent x hx id schema hs => ?_
    cases hsent
    cases hx
    cases hs
    exact h _ ha
  | _ => exact Discipline.recorder_follows (fun _ _ _ _ _ _ _ _ _ _ hs => by cases hs) []

/-- What the caller of a result was given is what was kept for it. -/
theorem onSession_recorded (c : ApiCall) :
    Discipline.recorder.Follows [] (c.onSession srv ctx v wire) fun trail r => ∀ x, r = .ok x →
      ∀ id schema, resultOf c x = some (id, schema) → Kept ctx v c trail id schema := by
  refine (delivered_recorded (@session_recorded srv ctx v c)).mono fun trail r h x hx id schema hs => ?_
  obtain ⟨a, sent, ha, hsent, hv⟩ := h x hx
  exact ha sent hsent x hv id schema hs

theorem noted_registered {host : Host} {s : St} (hr : (machine host srv v).Reach s) {h : Nat} {owner : Option String}
    {reader : Protocol.Reader} {id : String} {schema : Schema}
    (hn : Noted s h ⟨.job (.insertResult owner reader), .ok (id, schema)⟩) :
    reader.schema = schema ∧ Registered s id owner reader := by
  obtain ⟨ev, hev, -, hn⟩ := hn
  obtain ⟨w, i, hans, -⟩ := reach_performed hr ev hev
  have hschema : reader.schema = schema := by
    obtain ⟨_, _, op, answer, _⟩ := ev
    cases hn
    exact (insertResult_ok hans.symm).2
  exact ⟨hschema, ev, hev, by rw [hschema, hn]⟩

/-- A call that returned a result got it of the driver, and it is registered. -/
theorem called_result {host : Host} {arrow : Arrow} {derived : Derived} (hw : Shared arrow derived srv) {lossy : Prop}
    {c : ApiCall} {s t : St} {ks : List (Option Nat)} {x : c.Ret} {id : String} {schema : Schema}
    (hs : (machine host srv v).Reach s)
    (hcall : Calls (machine host srv v) (unaryDesk srv v wire lossy) s (c.client arrow derived v.sessionId) ks (.ok x) t)
    (hx : resultOf c x = some (id, schema)) :
    ∃ ctx h owner reader note, Mine srv ctx v ∧ ks = [some h] ∧ (∃ i, t.started[h]? = some (ctx, i)) ∧
      driverAnswer ctx v reader c = some note ∧ Noted t h note ∧ reader.schema = schema ∧
      Registered t id owner reader := by
  cases Calls.call_fate hw hs hcall with
  | refused _ he _ | unsent _ _ he | unanswered _ _ _ he _ _ _ _ =>
    obtain ⟨e, he⟩ := he
    cases he
  | @answered ctx h _ _ hm hst hh hran _ haccounted =>
    obtain ⟨owner, reader, note, hnote, hmem, hkept⟩ := Discipline.ran_recorded (onSession_recorded c) hran x rfl id schema hx
    have hdriver : Noted t h note := by
      rcases haccounted note hmem with hn | ⟨e, he⟩
      · exact hn
      · exact absurd he (driverAnswer_ok hnote e)
    have hinsert : Noted t h ⟨.job (.insertResult owner reader), .ok (id, schema)⟩ := by
      rcases haccounted _ hkept with hn | ⟨e, he⟩
      · exact hn
      · cases he
    obtain ⟨hschema, hreg⟩ := noted_registered (hs.extend hcall.path) hinsert
    exact ⟨ctx, h, owner, reader, note, hm, rfl, hst, hnote, hdriver, hschema, hreg⟩

end Source

/-- The driver answered the call, in its own handler, with a reader of that schema, and that
    reader's items are what is seen. -/
def Delivered (srv : Service) (v : SessionView) (t : St) (c : ApiCall) (ks : List (Option Nat)) (schema : Schema) (n : Nat)
    (see : Nat → Option Item) : Prop :=
  ∃ ctx h reader note, Mine srv ctx v ∧ ks = [some h] ∧ driverAnswer ctx v reader c = some note ∧ Noted t h note ∧
    reader.schema = schema ∧ Shows (ahead reader) n see

/-- What the application sees of a result is what the driver's reader had for it, in order, from
    the batch the reader stood at, whoever else uses the session. The exceptions are those of
    the ends: a first HTTP reply that is a batch already flagged finished, and 2^63 steps. For
    `get_info` it is the stream below its own reader. -/
theorem result_stream (host : Host) (arrow : Arrow) (derived : Derived) (srv : Service) (v : SessionView)
    (hw : Shared arrow derived srv) (wire : Wire) (lossy : Prop) (c : ApiCall) (s t w : St) (ks ks' : List (Option Nat))
    (x : c.Ret) (id : String) (schema : Schema) (n : Nat) (r : Except AdbcError (List Tick)) (remote : Remote)
    (hs : (machine host srv v).Reach s)
    (hcall : Calls (machine host srv v) (unaryDesk srv v wire lossy) s (c.client arrow derived v.sessionId) ks (.ok x) t)
    (hx : resultOf c x = some (id, schema))
    (hread : Calls (machine host srv v) (readDesk srv v wire) t (readResult v.sessionId id n) ks' r w)
    (hlog : w.log.length < 2 ^ 63) (hserves : Serves remote r) (hfirst : ¬ FinishedFirst remote) :
    Delivered srv v t c ks schema n (visible remote id schema) := by
  obtain ⟨ctx, h, owner, reader, note, hm, hks, -, hnote, hdriver, hschema, hreg⟩ := called_result hw hs hcall hx
  have hread := readResult_run (hs.extend hcall.path) hreg hlog hread
  exact ⟨ctx, h, reader, note, hm, hks, hnote, hdriver, hschema, shows_visible hserves hfirst hread id schema⟩

/-! The table types, one batch of them, while another caller reads the batch again. -/

def executeVgi : VgiArrow ResponseKind.execute.Record where
  arrowDataType :=
    .struct (.cons "result_id" false [] .utf8 (.cons "rows_affected" true [] .int64
      (.cons "schema_ipc" false [] .binary .nil)))
  buildSingleton
    | ⟨.execute resultId rowsAffected schemaIpc, _⟩ =>
      .ok (.struct [true] (.cons "result_id" false [] (.utf8 [some resultId])
        (.cons "rows_affected" true [] (.int64 [rowsAffected])
          (.cons "schema_ipc" false [] (.binary [some schemaIpc]) .nil))))
  read a _ :=
    match a with
    | .struct _ (.cons _ _ _ (.utf8 [some resultId]) (.cons _ _ _ (.int64 [rowsAffected])
        (.cons _ _ _ (.binary [some schemaIpc]) .nil))) => .ok ⟨.execute resultId rowsAffected schemaIpc, rfl⟩
    | _ => .error "unsupported"

theorem executeVgi_lawful : executeVgi.Lawful := by
  refine ⟨?_, ?_⟩
  · intro r a h
    obtain ⟨r, hr⟩ := r
    cases r with
    | execute resultId rowsAffected schemaIpc =>
      cases h
      exact ⟨rfl, rfl⟩
    | ok | session | statement | schema | update | partitions | value => cases hr
  · intro r a h
    obtain ⟨r, hr⟩ := r
    cases r with
    | execute resultId rowsAffected schemaIpc =>
      cases h
      rfl
    | ok | session | statement | schema | update | partitions | value => cases hr

def typesDerived : Derived where
  request _ := .none
  response
    | .execute => executeVgi
    | .ok | .session | .statement | .schema | .update | .partitions | .value => .none

def typesReply : RecordBatch := envelope "result" (stream [schemaFrame, Calls.okFrame] true)

def typesArrow : Arrow :=
  { Calls.okArrow with
    batches := .one typesReply [schemaFrame.bytes, Calls.okFrame.bytes, terminator true]
    records := .one ⟨1, .cons "result_id" false [] (.utf8 [some "r"])
      (.cons "rows_affected" true [] (.int64 [none]) (.cons "schema_ipc" false [] (.binary [some [1]]) .nil))⟩
      [schemaFrame.bytes, Calls.okFrame.bytes, terminator true]
    encodeSchema := fun schema => if schema = Reader.noColumns then .ok [1] else .error .invalidSchemaMessage
    decodeSchema := fun bytes => if bytes = [1] then .ok Reader.noColumns else .error .invalidSchemaMessage }

def typesService : Service := { smallService with codec := typesArrow.codec typesDerived }

def typesMachine : Machine St Ev := machine Solo.smallHost typesService Calls.committer

def typesReader : Protocol.Reader := ⟨Reader.noColumns, fun i => if i = 0 then some (.ok (Reader.rows 1)) else none, 0⟩

def typesAnswered : St :=
  typesMachine.run (typesMachine.step openedS (.start anonymous (.request .getTableTypes (versioned (sessionRequest "c")))))
    ([.submit 0, .dequeue, .load, .finish ⟨{ willing with reader := .ok typesReader }, .fine, "a"⟩, .reply, .recv 0] ++
      called 0 "r")

def producerOpened : St :=
  typesMachine.run (typesMachine.step typesAnswered
    (.start anonymous (.request .readResult (versioned (readResultRequest "c" "r" 0))))) (called 1 "b")

def batchRead : St :=
  typesMachine.run (typesMachine.step producerOpened (.start anonymous (.produce ⟨"c", "r", 0⟩))) (called 2 "d")

def readAgain : St := typesMachine.run batchRead (.start anonymous (.produce ⟨"c", "r", 0⟩) :: called 3 "e")

def typesRead : St :=
  typesMachine.run (typesMachine.step readAgain (.start anonymous (.produce ⟨"c", "r", 1⟩))) (called 4 "f")

def typesRemote : Remote where
  isHttp := true
  opened := .ok ()
  replies n := if n = 0 then .batch (Reader.rows 1) (some "t") false else .ended
  ticks _ := .ended

theorem typesArrow_shared : Shared typesArrow typesDerived typesService := by
  refine ⟨⟨IpcStream.one_lawful ⟨[schemaFrame, Calls.okFrame], true, rfl⟩,
    IpcStream.one_lawful ⟨[schemaFrame, Calls.okFrame], true, rfl⟩⟩, ⟨fun _ => VgiArrow.none_lawful, ?_⟩, rfl, ?_,
    fun _ => rfl⟩
  · intro k
    cases k with
    | execute => exact executeVgi_lawful
    | ok | session | statement | schema | update | partitions | value => exact VgiArrow.none_lawful
  · intro schema bytes h
    simp only [typesArrow] at h ⊢
    split at h
    · cases h
      rename_i hs
      rw [if_pos rfl, hs]
    · cases h

set_option maxRecDepth 8000 in
theorem types_called : Calls typesMachine (unaryDesk typesService Calls.committer Calls.okWire False) openedS
    (Calls.getTableTypes typesArrow typesDerived "c") [some 0] (.ok ("r", Reader.noColumns)) typesAnswered := by
  have hbegins : (unaryDesk typesService Calls.committer Calls.okWire False).begins openedS
      ⟨.getTableTypes, sessionRequest "c"⟩ (.start anonymous (.request .getTableTypes (versioned (sessionRequest "c")))) 0 :=
    ⟨anonymous, _, ⟨rfl, Calls.committer_mine.handle⟩, rfl, rfl, rfl⟩
  have hanswers : (unaryDesk typesService Calls.committer Calls.okWire False).answers typesAnswered 0
      ⟨.getTableTypes, sessionRequest "c"⟩ (.ok typesReply) := ⟨_, _, rfl, rfl, rfl⟩
  exact .call (.refl _) hbegins (.run _ _) (.inl hanswers) (.done (.refl _))

def typesDesk : Desk St Ev Nat ReadAns := readDesk typesService Calls.committer Calls.okWire

set_option maxRecDepth 8000 in
theorem types_opened :
    typesDesk.begins typesAnswered (.openProducer (readResultRequest "c" "r" 0))
      (.start anonymous (.request .readResult (versioned (readResultRequest "c" "r" 0)))) 1 ∧
    typesDesk.answers producerOpened 1 (.openProducer (readResultRequest "c" "r" 0)) (.ok ⟨"c", "r", 0⟩) :=
  ⟨⟨anonymous, _, trivial, rfl, rfl, rfl⟩, ⟨_, _, rfl, rfl, rfl⟩⟩

set_option maxRecDepth 8000 in
theorem types_batch :
    typesDesk.begins producerOpened (.tick ⟨"c", "r", 0⟩) (.start anonymous (.produce ⟨"c", "r", 0⟩)) 2 ∧
    typesDesk.answers batchRead 2 (.tick ⟨"c", "r", 0⟩) (.ok (some (Reader.rows 1, ⟨"c", "r", 1⟩))) :=
  ⟨⟨anonymous, _, trivial, rfl, rfl, rfl⟩, ⟨_, _, rfl, rfl, rfl⟩⟩

set_option maxRecDepth 8000 in
theorem types_end :
    typesDesk.begins readAgain (.tick ⟨"c", "r", 1⟩) (.start anonymous (.produce ⟨"c", "r", 1⟩)) 4 ∧
    typesDesk.answers typesRead 4 (.tick ⟨"c", "r", 1⟩) (.ok none) :=
  ⟨⟨anonymous, _, trivial, rfl, rfl, rfl⟩, ⟨_, _, rfl, rfl, rfl⟩⟩

theorem types_read : Calls typesMachine typesDesk typesAnswered (readResult "c" "r" 2) [some 1, some 2, some 4]
    (.ok [.batch (Reader.rows 1), .ended]) typesRead := by
  refine .call (.refl _) types_opened.1 (.run _ _) (.inl types_opened.2) ?_
  refine .call (.refl _) types_batch.1 (.run _ _) (.inl types_batch.2) ?_
  exact .call (.run _ _) types_end.1 (.run _ _) (.inl types_end.2) (.done (.refl _))

theorem typesRemote_serves : Serves typesRemote (.ok [.batch (Reader.rows 1), .ended]) := by
  refine ⟨rfl, fun ticks h => ?_⟩
  cases h
  refine ⟨?_, ?_⟩
  · intro j tick hj
    match j with
    | 0 | 1 =>
      cases hj
      rfl
    | j + 2 => cases hj
  · intro j b hj hm
    match j with
    | 0 => cases hm
    | 1 | j + 2 => cases hj

set_option maxRecDepth 8000 in
theorem result_stream_types :
    Delivered typesService Calls.committer typesAnswered .getTableTypes [some 0] Reader.noColumns 2
      (visible typesRemote "r" Reader.noColumns) ∧
    visible typesRemote "r" Reader.noColumns 0 = some (.ok (Reader.rows 1)) := by
  have hfirst : ¬ FinishedFirst typesRemote := by
    intro h
    obtain ⟨-, -, b, token, h⟩ := h
    cases h
  refine ⟨?_, rfl⟩
  exact result_stream Solo.smallHost typesArrow typesDerived typesService Calls.committer typesArrow_shared Calls.okWire
    False .getTableTypes openedS typesAnswered typesRead [some 0] _ ("r", Reader.noColumns) "r" Reader.noColumns 2 _
    typesRemote ⟨openedS, ⟨_, rfl⟩, .refl _⟩ types_called rfl types_read (by decide) typesRemote_serves hfirst

end Grainlift.Client.ResultStream
