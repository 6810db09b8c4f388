/-
  Grainlift.Server.BindDelivery — what a bind upload delivers, whatever the order of its
  turns (`BindExchange`, `start_bind_upload` to `cancel_bind_upload`, bind_upload.rs).

  The runs are those of `Concurrent`: turns of one upload interleave with each other, with
  every other handler and with the session's worker, and a finish turn's bind job may be
  performed after the turn gave up on it.

  The finish turn that takes the upload out of the registry is the only one that gets past
  there, since an id that left the registry does not come back; what it took is what the
  pushes of the history staged (`Inv`), so what it binds is that, once.

  Proved (`bind_delivery`) for runs in which no data turn gets an off-schema batch through
  the writer of the upload (`OnSchema`): the file is only promised to give back batches of
  its own schema. `delivered_otherwise` is a run with such a turn.
-/

import Grainlift.Server.BindTurns

namespace Grainlift.Server.BindDelivery

open Grainlift.Lib Grainlift.Protocol Concurrent

/-! ## The property -/

/-- The handler `h` serves a turn of the upload. -/
def TurnOf (s : St) (id : String) (h : Nat) (cursor : BindCursor) (input : RecordBatch) : Prop :=
  (∃ ctx, s.started[h]? = some (ctx, .exchange cursor input)) ∧ cursor.uploadId = id

/-- The statement received a `bind` or a `bind_stream` for the upload. -/
structure Delivery (s : St) (id : String) (i : Nat) (ev : Event) : Prop where
  logged : s.log[i]? = some ev
  turn : ∃ cursor input, TurnOf s id ev.handler cursor input
  binds : ∃ sid op, ev.op = .job (.statement sid op) ∧ Binds op
  called : ev.calls ≠ []

/-- The call carries exactly these batches, one of them in batch mode. -/
def Carries (entry : BindUploadEntry) (batches : List RecordBatch) : StatementOp → Prop
  | .bind b => entry.mode = .batch ∧ batches = [b]
  | .bindStream r => entry.mode = .stream ∧ r.schema = entry.upload.schema ∧ r.polled = 0 ∧
    ∀ i, r.items i = (batches[i]?).map .ok
  | _ => False

def Returned (s : St) (h : Nat) : Prop := ∃ hd r, s.handlers[h]? = some hd ∧ hd.prog = .done r

/-- The turn was rejected: it did not decode and has returned, or its push failed (the
    batch could not be staged or the upload is over its limit). -/
inductive Rejected (srv : Service) (s : St) (id : String) (h : Nat) : Prop
  | malformed {cursor : BindCursor} {input : RecordBatch} {e : ProtocolError} :
      TurnOf s id h cursor input → decoded srv cursor input = .error e → Returned s h → Rejected srv s id h
  | refused {cursor : BindCursor} {input : RecordBatch} {hd : Handler} {b : RecordBatch} {e : AdbcError} :
      TurnOf s id h cursor input → s.handlers[h]? = some hd →
      (⟨.hold (.pushUpload id b), .error e⟩ : (op : Op) × Ans op) ∈ hd.trail → Rejected srv s id h

def Finishing (srv : Service) (s : St) (id : String) (h : Nat) : Prop :=
  ∃ cursor input, TurnOf s id h cursor input ∧ decoded srv cursor input = .ok none

/-- The protocol of the upload `id`, started as `entry` before `s0`, in a run from `s0`
    over `s1` to `s2`. A turn is one of the upload if it came after the upload was
    started; those that came later than `s1` have numbers from `s1.handlers.length` on. -/
structure Contract (srv : Service) (id : String) (entry : BindUploadEntry) (s0 s1 s2 : St) : Prop where
  /-- Every `bind` and `bind_stream` call is in the log, in some upload's turn. -/
  accounted : s2.inner.calls = s2.log.flatMap Event.calls ∧
    ∀ ev ∈ s2.log, ∀ sid op, ev.op = .job (.statement sid op) → Binds op →
      ∃ cursor input, TurnOf s2 cursor.uploadId ev.handler cursor input
  once : ∀ i j ev ev', Delivery s2 id i ev → Delivery s2 id j ev' → i = j
  carried : ∀ i ev, Delivery s2 id i ev →
    ∃ op, ev.op = .job (.statement entry.statementId op) ∧ Carries entry (pushed s2.log id) op
  /-- A finish turn that came after a rejection delivers nothing. -/
  unspoiled : ∀ r, s0.handlers.length ≤ r → Rejected srv s1 id r →
    ∀ i ev, Delivery s2 id i ev → ev.handler < s1.handlers.length
  gone : ∀ r, s0.handlers.length ≤ r → (Rejected srv s1 id r ∨ Finishing srv s1 id r) → Returned s1 r →
    s1.inner.bindUploads.lookup id = none

/-! ## The condition -/

/-- No data turn gets a batch of another schema than the declared one through the writer
    of the open upload and within its limit. -/
def OnSchema (host : Host) (id : String) (s : St) : Ev → Prop
  | .hold h w => ∀ (hd : Handler) (b : RecordBatch) (k : Ans (.hold (.pushUpload id b)) → Do RpcError Reply)
      (entry : BindUploadEntry) (n : Nat), s.handlers[h]? = some hd → hd.prog = .call (.hold (.pushUpload id b)) k →
    s.inner.bindUploads.lookup id = some entry → entry.upload.terminal = none → w.disk.write = none →
    host.ipc.batch entry.upload.schema entry.upload.staged b = .ok n →
    entry.upload.written + n ≤ entry.upload.maxBytes → b.schema = entry.upload.schema
  | _ => True

/-! ## The upload and its history -/

section History

variable {host : Host} {srv : Service} {v : SessionView} {s s' : St} {e : Ev} {id : String}

/-- The upload a turn has past `took`. -/
def Stage.holds (id : String) : Stage → Option BindUploadEntry
  | .took id' entry | .read id' entry _ | .bound id' entry _ => if id' = id then some entry else none
  | _ => none

/-- The entry is the upload as it was started, with what was pushed since. -/
structure Kept (s : St) (id : String) (entry : BindUploadEntry) : Prop where
  origin : ∃ entry0, Started s.log id entry0 ∧ entry.statementId = entry0.statementId ∧ entry.mode = entry0.mode ∧
    entry.upload.schema = entry0.upload.schema
  staged : entry.upload.staged = pushed s.log id
  onSchema : ∀ b ∈ entry.upload.staged, b.schema = entry.upload.schema

structure Inv (srv : Service) (id : String) (s : St) : Prop where
  issued : ∀ entry, Started s.log id entry → id ∈ s.issued
  started : ∀ entry entry', Started s.log id entry → Started s.log id entry' → entry = entry'
  unpushed : id ∉ s.issued → pushed s.log id = []
  registered : ∀ entry, s.inner.bindUploads.lookup id = some entry → Kept s id entry
  held : ∀ h g entry, stage srv s h = some g → g.holds id = some entry →
    Kept s id entry ∧ s.inner.bindUploads.lookup id = none
  holder : ∀ h h' g g' entry entry', stage srv s h = some g → stage srv s h' = some g' → g.holds id = some entry →
    g'.holds id = some entry' → h = h'

/-- The upload was started and is not registered any more. -/
def Closed (s : St) (id : String) : Prop := id ∈ s.issued ∧ s.inner.bindUploads.lookup id = none

theorem Kept.mono {entry : BindUploadEntry} (hk : Kept s id entry) (hm : Move host srv v s e s')
    (hp : pushed s'.log id = pushed s.log id) : Kept s' id entry := by
  obtain ⟨⟨entry0, h0, hrest⟩, hst, hon⟩ := hk
  exact ⟨⟨entry0, started_mono hm h0, hrest⟩, hst.trans hp.symm, hon⟩

theorem Inv.kept_issued (hi : Inv srv id s) {entry : BindUploadEntry} (hk : Kept s id entry) : id ∈ s.issued := by
  obtain ⟨entry0, h0, -⟩ := hk.origin
  exact hi.issued entry0 h0

/-- What left the registry stays out of it, and nothing is pushed to it. -/
theorem closed_keep (hm : Move host srv v s e s') (hc : Closed s id) :
    Closed s' id ∧ pushed s'.log id = pushed s.log id := by
  obtain ⟨hi, hl⟩ := hc
  cases uploaded id hm with
  | same h hp => exact ⟨⟨hm.issued_keep hi, h.trans hl⟩, hp⟩
  | removed h hp => exact ⟨⟨hm.issued_keep hi, h⟩, hp⟩
  | inserted hf _ _ _ _ _ _ => exact absurd hi hf
  | pushed w _ _ _ h _ _ => cases hl.symm.trans h

/-- A turn that has the upload had it before, or just took it. -/
theorem holds_next {g : Stage} {op : Op} {a : Ans op} {entry : BindUploadEntry} (hp : permits g op)
    (hh : (g.next op a).holds id = some entry) : g.holds id = some entry ∨
      (⟨op, a⟩ : (op : Op) × Ans op) = ⟨.hold (.takeUpload id), .ok entry⟩ := by
  cases g with
  | other =>
    apply absurd hh
    unfold Stage.next
    split <;> simp_all [Stage.holds]
  | opened _ | cancels _ | refused _ => cases hh
  | sent id' turn =>
    match turn, a with
    | .error _, _ | .ok (some _), .ok _ | .ok (some _), .error _ => cases hh
    | .ok none, a =>
      cases hp
      cases a with
      | error e => cases hh
      | ok entry' =>
        simp only [Stage.next, Stage.holds] at hh
        split at hh
        · rename_i hid
          subst hid
          cases hh
          exact .inr rfl
        · cases hh
  | took id' entry' =>
    cases hp
    cases a with
    | error e => cases hh
    | ok reader => exact .inl hh
  | read id' entry' reader => exact .inl hh
  | accepted _ | bound _ _ _ | done _ => cases hp

/-- The turn that takes the upload found it registered. -/
theorem took_registered {h : Nat} {entry : BindUploadEntry}
    (ha : Answer host s e s' h (.hold (.takeUpload id)) (.ok entry)) :
    s.inner.bindUploads.lookup id = some entry ∧ s'.inner.bindUploads.lookup id = none ∧ ∃ w, e = .hold h w := by
  generalize hans : (Except.ok entry : Ans (.hold (.takeUpload id))) = a at ha
  cases ha with
  | hold w he _ hi =>
    simp only [Hold.perform] at hi hans
    cases hl : s.inner.bindUploads.lookup id with
    | none =>
      rw [hl] at hans
      cases hans
    | some entry' =>
      rw [hl] at hans hi
      cases hans
      refine ⟨rfl, ?_, w, he⟩
      rw [hi]
      exact AList.lookup_erase _ _

theorem held_of (ht : Turning srv s) (hm : Move host srv v s e s') {h : Nat} {g : Stage} {entry : BindUploadEntry}
    (hg : stage srv s' h = some g) (hh : g.holds id = some entry) :
    (∃ g0, stage srv s h = some g0 ∧ g0.holds id = some entry) ∨
    (s.inner.bindUploads.lookup id = some entry ∧ s'.inner.bindUploads.lookup id = none ∧ ∃ w, e = .hold h w) := by
  cases staged ht hm hg with
  | same hg0 => exact .inl ⟨g, hg0, hh⟩
  | started t _ hg _ =>
    subst hg
    cases t with
    | none => cases hh
    | some t => cases t <;> cases hh
  | @answered g0 op a hg0 hp hn ha =>
    subst hn
    rcases holds_next hp hh with h0 | htake
    · exact .inl ⟨g0, hg0, h0⟩
    · cases htake
      exact .inr (took_registered ha)

theorem registered_step (hi : Inv srv id s) (ht : Turning srv s)
    (hsound : ∀ h g, stage srv s h = some g → g.Sound host)
    (hg : OnSchema host id s e) (hm : Move host srv v s e s') {entry : BindUploadEntry}
    (hl : s'.inner.bindUploads.lookup id = some entry) : Kept s' id entry := by
  cases uploaded id hm with
  | same h hp => exact (hi.registered entry (h.symm.trans hl)).mono hm hp
  | removed h _ => cases h.symm.trans hl
  | @inserted h hd entry' k hf _ hh hprog h' hp hst =>
    cases h'.symm.trans hl
    obtain ⟨g, hgs, htakes⟩ := ht.stage hh
    rw [hprog] at htakes
    -- only a handler that just started an upload registers one
    have hempty : entry.upload.staged = [] := by
      have hperm := htakes.1
      have hso := hsound h g hgs
      cases g with
      | opened upload =>
        obtain ⟨sid, mode, heq⟩ := hperm
        cases heq
        exact hso
      | other => exact absurd rfl (hperm.2 entry)
      | sent id turn =>
        match turn with
        | .error _ | .ok none | .ok (some _) => cases hperm
      | read _ _ _ =>
        obtain ⟨_, heq, -⟩ := hperm
        cases heq
      | cancels _ | accepted _ | refused _ | took _ _ | bound _ _ _ | done _ => cases hperm
    refine ⟨⟨entry, hst, rfl, rfl, rfl⟩, ?_, ?_⟩
    · rw [hempty, hp, hi.unpushed hf]
    · rw [hempty]
      intro b hb
      cases hb
  | @pushed h hd entry0 b k w he hh hprog h0 h' hp =>
    cases h'.symm.trans hl
    obtain ⟨⟨origin, hor, hsid, hmode, hsch⟩, hst, hon⟩ := hi.registered entry0 h0
    subst he
    have hkeeps : ∃ entry1, Started s'.log id entry1 ∧ entry0.statementId = entry1.statementId ∧
      entry0.mode = entry1.mode ∧ (entry0.upload.push host.ipc w.disk b).2.schema = entry1.upload.schema :=
      ⟨origin, started_mono hm hor, hsid, hmode, BindUpload.push_schema.trans hsch⟩
    rcases @BindUpload.push_cases host.ipc w.disk entry0.upload b with ⟨hok, hterm, -, hs⟩ | ⟨e, her, -, hs⟩
    · -- the batch went through the writer, so the guard speaks of it
      have hb : b.schema = entry0.upload.schema := by
        rcases BindSchema.push_accepts host.ipc w.disk b hterm with ⟨n, hw, hn, hle, -⟩ | ⟨⟨e, her⟩, -⟩
        · exact hg hd b k entry0 n hh hprog h0 hterm hw hn hle
        · cases hok.symm.trans her
      refine ⟨hkeeps, ?_, ?_⟩
      · simp only
        rw [hs, hst, hp, hok, stagedBy, if_pos rfl]
        rfl
      · simp only
        rw [hs, BindUpload.push_schema]
        intro b' hb'
        rcases List.mem_append.mp hb' with hb' | hb'
        · exact hon b' hb'
        · rw [List.mem_singleton.mp hb', hb]
    · refine ⟨hkeeps, ?_, ?_⟩
      · simp only
        rw [hs, hst, hp, her]
        exact (List.append_nil _).symm
      · simp only
        rw [hs, BindUpload.push_schema]
        exact hon

theorem held_step (hi : Inv srv id s) (ht : Turning srv s) (hm : Move host srv v s e s') {h : Nat} {g : Stage}
    {entry : BindUploadEntry} (hg : stage srv s' h = some g) (hh : g.holds id = some entry) :
    Kept s' id entry ∧ s'.inner.bindUploads.lookup id = none := by
  rcases held_of ht hm hg hh with ⟨g0, hg0, h0⟩ | ⟨hl, hl', -⟩
  · obtain ⟨hk, hl⟩ := hi.held h g0 entry hg0 h0
    obtain ⟨hc, hp⟩ := closed_keep hm ⟨hi.kept_issued hk, hl⟩
    exact ⟨hk.mono hm hp, hc.2⟩
  · have hk := hi.registered entry hl
    refine ⟨?_, hl'⟩
    cases uploaded id hm with
    | same _ hp | removed _ hp => exact hk.mono hm hp
    | inserted hf _ _ _ _ _ _ => exact absurd (hi.kept_issued hk) hf
    | pushed w _ _ _ _ h _ => cases hl'.symm.trans h

theorem holder_step (hi : Inv srv id s) (ht : Turning srv s) (hm : Move host srv v s e s') {h h' : Nat} {g g' : Stage}
    {entry entry' : BindUploadEntry} (hg : stage srv s' h = some g) (hg' : stage srv s' h' = some g')
    (hh : g.holds id = some entry) (hh' : g'.holds id = some entry') : h = h' := by
  rcases held_of ht hm hg hh with ⟨g0, hg0, h0⟩ | ⟨hl, -, w, he⟩
  · rcases held_of ht hm hg' hh' with ⟨g0', hg0', h0'⟩ | ⟨hl', -, -⟩
    · exact hi.holder h h' g0 g0' entry entry' hg0 hg0' h0 h0'
    · cases (hi.held h g0 entry hg0 h0).2.symm.trans hl'
  · rcases held_of ht hm hg' hh' with ⟨g0', hg0', h0'⟩ | ⟨-, -, w', he'⟩
    · cases (hi.held h' g0' entry' hg0' h0').2.symm.trans hl
    · cases he.symm.trans he'
      rfl

theorem started_step (hi : Inv srv id s) (hm : Move host srv v s e s') {entry entry' : BindUploadEntry}
    (hs : Started s'.log id entry) (hs' : Started s'.log id entry') : entry = entry' := by
  rcases started_of hm hs with h | ⟨hf, -, hl⟩
  · rcases started_of hm hs' with h' | ⟨hf', -, -⟩
    · exact hi.started entry entry' h h'
    · exact absurd (hi.issued entry h) hf'
  · rcases started_of hm hs' with h' | ⟨-, -, hl'⟩
    · exact absurd (hi.issued entry' h') hf
    · cases hl.symm.trans hl'
      rfl

theorem unpushed_step (hi : Inv srv id s) (hm : Move host srv v s e s') (hf : id ∉ s'.issued) :
    pushed s'.log id = [] := by
  have hf0 : id ∉ s.issued := fun h => hf (hm.issued_keep h)
  cases uploaded id hm with
  | same _ hp | removed _ hp => exact hp.trans (hi.unpushed hf0)
  | inserted _ h _ _ _ _ _ => exact absurd h hf
  | pushed w _ _ _ h _ _ => exact absurd (hi.kept_issued (hi.registered _ h)) hf0

theorem move_inv (ht : Turning srv s) (hsound : ∀ h g, stage srv s h = some g → g.Sound host)
    (hg : OnSchema host id s e) (hi : Inv srv id s) (hm : Move host srv v s e s') : Inv srv id s' where
  issued entry hs := by
    rcases started_of hm hs with h | ⟨-, h, -⟩
    · exact hm.issued_keep (hi.issued entry h)
    · exact h
  started _ _ hs hs' := started_step hi hm hs hs'
  unpushed hf := unpushed_step hi hm hf
  registered _ hl := registered_step hi ht hsound hg hm hl
  held _ _ _ hst hh := held_step hi ht hm hst hh
  holder _ _ _ _ _ _ hst hst' hh hh' := holder_step hi ht hm hst hst' hh hh'

theorem reach_inv (hr : (machine host srv v).ReachIn (OnSchema host id) s) : Inv srv id s := by
  refine invariant_of_moves (P := Inv srv id)
    (Q := fun s => Turning srv s ∧ ∀ h g, stage srv s h = some g → g.Sound host)
    (fun hr => ⟨reach_turning hr, reach_sound hr⟩) ?_
      (fun _ hq hg hi hm => move_inv hq.1 hq.2 hg hi hm) hr
  intro policy
  refine ⟨?_, ?_, fun _ => rfl, fun entry hl => (nomatch hl),
    fun h g entry hg => (nomatch hg), fun h h' g g' entry entry' hg => (nomatch hg)⟩
  · intro entry hs
    obtain ⟨ev, hev, -⟩ := hs
    cases hev
  · intro entry entry' hs
    obtain ⟨ev, hev, -⟩ := hs
    cases hev

end History

/-! ## Rejected turns -/

section Rejection

variable {host : Host} {srv : Service} {v : SessionView} {s s' : St} {e : Ev} {id : String} {h : Nat} {g : Stage}

/-- The upload of an exchange's turn. -/
def Stage.exchange : Stage → Option String
  | .sent id _ | .accepted id | .refused id | .took id _ | .read id _ _ | .bound id _ _ | .done id => some id
  | .other | .opened _ | .cancels _ => none

theorem exchange_next (g : Stage) (op : Op) (a : Ans op) : (g.next op a).exchange = g.exchange := by
  unfold Stage.next
  split <;> rfl

theorem exchange_after (g : Stage) (trail : List ((op : Op) × Ans op)) :
    (turner.after g trail).exchange = g.exchange := by
  induction trail generalizing g with
  | nil => rfl
  | cons n trail ih => exact (ih (g.next n.1 n.2)).trans (exchange_next g n.1 n.2)

theorem turn_of_exchange (hg : stage srv s h = some g) (hx : g.exchange = some id) :
    ∃ cursor input, TurnOf s id h cursor input := by
  obtain ⟨⟨ctx, invocation⟩, hd, hc, -, rfl⟩ := stage_eq_some.mp hg
  rw [exchange_after] at hx
  cases invocation with
  | exchange cursor input => exact ⟨cursor, input, ⟨ctx, hc⟩, Option.some.inj hx⟩
  | request _ _ | exchangeCancel _ | produce _ | produceCancel _ => cases hx

theorem exchange_of_turn (hg : stage srv s h = some g) {cursor : BindCursor} {input : RecordBatch}
    (ht : TurnOf s id h cursor input) : g.exchange = some id := by
  obtain ⟨c, hd, hc, -, rfl⟩ := stage_eq_some.mp hg
  obtain ⟨⟨ctx, hc'⟩, rfl⟩ := ht
  cases hc.symm.trans hc'
  exact exchange_after _ _

/-- Nothing can be delivered of it any more: it is gone, or its actor has an error. -/
def Spoiled (s : St) (id : String) : Prop :=
  id ∈ s.issued ∧ ∀ entry, s.inner.bindUploads.lookup id = some entry → entry.upload.terminal ≠ none

theorem Closed.spoiled (h : Closed s id) : Spoiled s id := by
  refine ⟨h.1, ?_⟩
  intro entry hl
  cases h.2.symm.trans hl

/-- An actor that has an error keeps it. -/
theorem push_terminal {ipc : Ipc} {disk : Disk} {u : BindUpload} {b : RecordBatch} (h : u.terminal ≠ none) :
    (u.push ipc disk b).2.terminal ≠ none := by
  rcases @BindUpload.push_cases ipc disk u b with ⟨-, hn, -⟩ | ⟨e, -, ht, -⟩
  · exact absurd hn h
  · rw [ht]
    exact Option.some_ne_none e

theorem spoiled_keep (hm : Move host srv v s e s') (hs : Spoiled s id) : Spoiled s' id := by
  refine ⟨hm.issued_keep hs.1, ?_⟩
  intro entry hl
  cases uploaded id hm with
  | same h _ => exact hs.2 entry (h.symm.trans hl)
  | removed h _ => cases h.symm.trans hl
  | inserted hf _ _ _ _ _ _ => exact absurd hs.1 hf
  | pushed w _ _ _ h0 h' _ =>
    cases h'.symm.trans hl
    exact push_terminal (hs.2 _ h0)

theorem take_closes {a : Ans (.hold (.takeUpload id))} (ha : Answer host s e s' h (.hold (.takeUpload id)) a) :
    s'.inner.bindUploads.lookup id = none := by
  cases ha with
  | hold w _ _ hi =>
    rw [hi]
    simp only [Hold.perform]
    cases hl : s.inner.bindUploads.lookup id with
    | none => exact hl
    | some entry => exact AList.lookup_erase _ _

theorem push_spoils {b : RecordBatch} {er : AdbcError}
    (ha : Answer host s e s' h (.hold (.pushUpload id b)) (.error er)) {entry : BindUploadEntry}
    (hl : s'.inner.bindUploads.lookup id = some entry) : entry.upload.terminal ≠ none := by
  generalize hans : (Except.error er : Ans (.hold (.pushUpload id b))) = a at ha
  cases ha with
  | hold w _ _ hi =>
    rw [hi] at hl
    simp only [Hold.perform] at hl hans
    cases h0 : s.inner.bindUploads.lookup id with
    | none =>
      rw [BindSchema.pushUploadHold_none _ _ _ _ _ h0] at hl
      cases h0.symm.trans hl
    | some entry0 =>
      rw [BindSchema.pushUploadHold_some _ _ _ _ _ h0] at hl hans
      cases (AList.lookup_insert _).symm.trans hl
      rcases @BindUpload.push_cases host.ipc w.disk entry0.upload b with ⟨hok, -⟩ | ⟨e, -, ht, -⟩
      · cases hans.trans hok
      · rw [ht]
        exact Option.some_ne_none e

/-- What a turn of the upload leaves behind. -/
def Stage.Settled (s : St) (id : String) : Stage → Prop
  | .refused _ => Spoiled s id
  | .took _ _ | .read _ _ _ | .bound _ _ _ | .done _ => Closed s id
  | _ => True

theorem settled_keep (hm : Move host srv v s e s') (hs : g.Settled s id) : g.Settled s' id := by
  cases g with
  | refused _ => exact spoiled_keep hm hs
  | took _ _ | read _ _ _ | bound _ _ _ | done _ => exact (closed_keep hm hs).1
  | other | opened _ | sent _ _ | cancels _ | accepted _ => trivial

theorem settled_next (hm : Move host srv v s e s') (hi : id ∈ s.issued) {op : Op} {a : Ans op}
    (hx : g.exchange = some id)
    (hs : g.Settled s id) (hp : permits g op) (ha : Answer host s e s' h op a) : (g.next op a).Settled s' id := by
  have hi' := hm.issued_keep hi
  cases g with
  | sent id' turn =>
    cases hx
    match turn with
    | .error _ =>
      cases hp
      exact ⟨hi', take_closes ha⟩
    | .ok none =>
      cases hp
      cases a <;> exact ⟨hi', take_closes ha⟩
    | .ok (some b) =>
      cases hp
      cases a with
      | ok _ => trivial
      | error er => exact ⟨hi', fun entry hl => push_spoils ha hl⟩
  | refused id' =>
    cases hx
    cases hp
    exact ⟨hi', take_closes ha⟩
  | took id' entry =>
    cases hp
    cases a <;> exact (closed_keep hm hs).1
  | read id' entry reader => exact (closed_keep hm hs).1
  | other | opened _ | cancels _ => cases hx
  | accepted _ | bound _ _ _ | done _ => cases hp

/-- The turns of the upload since it was started. -/
def SettledFrom (srv : Service) (id : String) (n : Nat) (s : St) : Prop :=
  id ∈ s.issued ∧ ∀ h g, n ≤ h → stage srv s h = some g → g.exchange = some id → g.Settled s id

theorem settled_move {n : Nat} (ht : Turning srv s) (hm : Move host srv v s e s') (hs : SettledFrom srv id n s) :
    SettledFrom srv id n s' := by
  refine ⟨hm.issued_keep hs.1, ?_⟩
  intro h g hn hg hx
  cases staged ht hm hg with
  | same hg0 => exact settled_keep hm (hs.2 h g hn hg0 hx)
  | started t _ hg _ =>
    subst hg
    cases t with
    | none => trivial
    | some t => cases t <;> trivial
  | @answered g0 op a hg0 hp hnx ha =>
    subst hnx
    rw [exchange_next] at hx
    exact settled_next hm hs.1 hx (hs.2 h g0 hn hg0 hx) hp ha

/-! ### What a turn went through -/

/-- A turn that is past its push or its take. -/
def Stage.Past : Stage → Prop
  | .refused _ | .took _ _ | .read _ _ _ | .bound _ _ _ | .done _ => True
  | _ => False

inductive Went (id : String) (turn : Except ProtocolError (Option RecordBatch)) :
    List ((op : Op) × Ans op) → Stage → Prop
  | sent : Went id turn [] (.sent id turn)
  | accepted {b : RecordBatch} {x : Unit} : turn = .ok (some b) →
      Went id turn [⟨.hold (.pushUpload id b), .ok x⟩] (.accepted id)
  | past {trail : List ((op : Op) × Ans op)} {g : Stage} : g.Past → Went id turn trail g

theorem went_next {turn : Except ProtocolError (Option RecordBatch)} {trail : List ((op : Op) × Ans op)}
    {op : Op} (a : Ans op)
    (hw : Went id turn trail g) (hp : permits g op) : Went id turn (trail ++ [⟨op, a⟩]) (g.next op a) := by
  cases hw with
  | sent =>
    match turn with
    | .error _ => exact .past trivial
    | .ok none =>
      cases hp
      cases a <;> exact .past trivial
    | .ok (some b) =>
      cases hp
      cases a with
      | ok x => exact .accepted rfl
      | error er => exact .past trivial
  | accepted _ => cases hp
  | past hpast =>
    refine .past ?_
    cases g with
    | refused _ | read _ _ _ => trivial
    | took _ _ =>
      cases hp
      cases a <;> trivial
    | bound _ _ _ | done _ => cases hp
    | other | opened _ | sent _ _ | cancels _ | accepted _ => cases hpast

theorem went {ctx : CallContext} {cursor : BindCursor} {input : RecordBatch} {trail : List ((op : Op) × Ans op)}
    {q : Do RpcError Reply} (hr : Discipline.Ran (exchangeTurn srv ctx cursor input) trail q) :
    Went cursor.uploadId (decoded srv cursor input) trail
      (turner.after (.sent cursor.uploadId (decoded srv cursor input)) trail) := by
  induction hr with
  | start => exact .sent
  | answer a hr ih =>
    rw [Discipline.after_snoc]
    exact went_next a ih ((exchange_takes cursor input).ran hr).1

/-- Where a turn of the upload is, and what it went through. -/
theorem turn_went {G : St → Ev → Prop} (hr : (machine host srv v).ReachIn G s) {cursor : BindCursor}
    {input : RecordBatch} (ht : TurnOf s id h cursor input) {hd : Handler} (hh : s.handlers[h]? = some hd) :
    ∃ g, stage srv s h = some g ∧ Went id (decoded srv cursor input) hd.trail g ∧ Takes g hd.prog := by
  obtain ⟨⟨ctx, hc⟩, rfl⟩ := ht
  obtain ⟨c, p, hc', hp, hran⟩ := (reach_serves hr).2 h hd hh
  cases hc.symm.trans hc'
  have hshape := shape hp
  cases hshape with
  | exchange _ _ =>
    exact ⟨_, stage_eq_some.mpr ⟨_, hd, hc, hh, rfl⟩, went hran, (exchange_takes cursor input).ran hran⟩

theorem past_settled (hp : g.Past) (hs : g.Settled s id) : Spoiled s id := by
  cases g with
  | refused _ => exact hs
  | took _ _ | read _ _ _ | bound _ _ _ | done _ => exact Closed.spoiled hs
  | other | opened _ | sent _ _ | cancels _ | accepted _ => cases hp

theorem ended_settled (hp : g.Past) (he : g.Ended) (hs : g.Settled s id) : Closed s id := by
  cases g with
  | read _ _ _ | bound _ _ _ | done _ => exact hs
  | refused _ | took _ _ => cases he
  | other | opened _ | sent _ _ | cancels _ | accepted _ => cases hp

/-- A turn without a batch that returned is past. -/
theorem Went.ended {turn : Except ProtocolError (Option RecordBatch)} {trail : List ((op : Op) × Ans op)}
    (hw : Went id turn trail g) (hn : ∀ b, turn ≠ .ok (some b)) (he : g.Ended) : g.Past := by
  cases hw with
  | sent => cases he
  | accepted h => exact absurd h (hn _)
  | past hpast => exact hpast

theorem Went.refused {turn : Except ProtocolError (Option RecordBatch)} {trail : List ((op : Op) × Ans op)}
    {b : RecordBatch}
    {er : AdbcError} (hw : Went id turn trail g) (hmem : ⟨.hold (.pushUpload id b), .error er⟩ ∈ trail) : g.Past := by
  cases hw with
  | sent => cases hmem
  | accepted _ =>
    have := List.mem_singleton.mp hmem
    cases this
  | past hpast => exact hpast

/-- A turn without a batch that has returned is past. -/
theorem returned_past {G : St → Ev → Prop} (hr : (machine host srv v).ReachIn G s) {cursor : BindCursor}
    {input : RecordBatch} (ht : TurnOf s id h cursor input) (hn : ∀ b, decoded srv cursor input ≠ .ok (some b))
    (hret : Returned s h) :
    ∃ g hd, s.handlers[h]? = some hd ∧ stage srv s h = some g ∧ g.exchange = some id ∧ g.Past ∧ Takes g hd.prog := by
  obtain ⟨hd, r, hh, hp⟩ := hret
  obtain ⟨g, hg, hwent, htakes⟩ := turn_went hr ht hh
  refine ⟨g, hd, hh, hg, exchange_of_turn hg ht, hwent.ended hn ?_, htakes⟩
  rw [hp] at htakes
  exact htakes

theorem rejected_past {G : St → Ev → Prop} (hr : (machine host srv v).ReachIn G s) (hrej : Rejected srv s id h) :
    ∃ g hd, s.handlers[h]? = some hd ∧ stage srv s h = some g ∧ g.exchange = some id ∧ g.Past ∧ Takes g hd.prog := by
  cases hrej with
  | malformed ht hdec hret => exact returned_past hr ht (by simp [hdec]) hret
  | @refused cursor input hd b er ht hh hmem =>
    obtain ⟨g, hg, hwent, htakes⟩ := turn_went hr ht hh
    exact ⟨g, hd, hh, hg, exchange_of_turn hg ht, hwent.refused hmem, htakes⟩

theorem finished_past {G : St → Ev → Prop} (hr : (machine host srv v).ReachIn G s) (hf : Finishing srv s id h)
    (hret : Returned s h) :
    ∃ g hd, s.handlers[h]? = some hd ∧ stage srv s h = some g ∧ g.exchange = some id ∧ g.Past ∧ Takes g hd.prog := by
  obtain ⟨cursor, input, ht, hdec⟩ := hf
  exact returned_past hr ht (by simp [hdec]) hret

/-! ### Finish turns that came too late -/

/-- A finish turn of a spoiled upload: it took an actor with an error, or nothing. -/
def Stage.Barren : Stage → Prop
  | .took _ entry => entry.upload.terminal ≠ none
  | .read _ _ _ | .bound _ _ _ => False
  | _ => True

theorem barren_next {op : Op} {a : Ans op} (hx : g.exchange = some id) (hs : Spoiled s id) (hb : g.Barren)
    (hp : permits g op) (ha : Answer host s e s' h op a) : (g.next op a).Barren := by
  cases g with
  | sent id' turn =>
    cases hx
    match turn with
    | .error _ => trivial
    | .ok none =>
      cases hp
      cases a with
      | error er => trivial
      | ok entry => exact hs.2 entry (took_registered ha).1
    | .ok (some b) => cases a <;> trivial
  | took id' entry =>
    cases hp
    cases ha with
    | hold w _ _ _ =>
      simp only [Hold.perform]
      cases hf : entry.upload.finish host.ipc w.disk with
      | error er => trivial
      | ok reader => exact absurd (BindUpload.finish_ok hf).1 hb
  | refused _ => trivial
  | read _ _ _ => cases hb
  | other | opened _ | cancels _ => cases hx
  | accepted _ | bound _ _ _ | done _ => cases hp

def BarrenFrom (srv : Service) (id : String) (n : Nat) (s : St) : Prop :=
  Spoiled s id ∧ ∀ h g, n ≤ h → stage srv s h = some g → g.exchange = some id → g.Barren

theorem barren_move {n : Nat} (ht : Turning srv s) (hm : Move host srv v s e s') (hs : BarrenFrom srv id n s) :
    BarrenFrom srv id n s' := by
  refine ⟨spoiled_keep hm hs.1, ?_⟩
  intro h g hn hg hx
  cases staged ht hm hg with
  | same hg0 => exact hs.2 h g hn hg0 hx
  | started t _ hg _ =>
    subst hg
    cases t with
    | none => trivial
    | some t => cases t <;> trivial
  | @answered g0 op a hg0 hp hnx ha =>
    subst hnx
    rw [exchange_next] at hx
    exact barren_next hx hs.1 (hs.2 h g0 hn hg0 hx) hp ha

end Rejection

/-! ## Delivery -/

section Delivered

variable {host : Host} {srv : Service} {v : SessionView} {s : St} {id : String}

/-- A delivery is the bind job of the one turn that took the upload. -/
theorem delivered {G : St → Ev → Prop} (hr : (machine host srv v).ReachIn G s) {i : Nat} {ev : Event}
    (hd : Delivery s id i ev) :
    ∃ c t entry reader op, ev.call = some c ∧ s.worker.op c = some t ∧ t.handler = ev.handler ∧
      t.job = .statement entry.statementId op ∧ Binds op ∧ ev.op = .job (.statement entry.statementId op) ∧
        Rereads entry reader op ∧
      (stage srv s ev.handler = some (.bound id entry reader) ∨ stage srv s ev.handler = some (.read id entry reader)) := by
  obtain ⟨sid, op, hop, hb⟩ := hd.binds
  obtain ⟨c, t, hc, ho, hth, hj⟩ := reach_jobsCalled hr ev (List.mem_of_getElem? hd.logged) _ hop
  obtain ⟨id', entry, reader, hsid, hre, hst⟩ := (reach_tasked hr).tasks c t sid op ho hj hb
  subst hsid
  rw [hth] at hst
  obtain ⟨cursor, input, hturn⟩ := hd.turn
  refine ⟨c, t, entry, reader, op, hc, ho, hth, hj, hb, hop, hre, ?_⟩
  rcases hst with hst | ⟨hst, -⟩
  · have hx := exchange_of_turn hst hturn
    cases hx
    exact .inl hst
  · have hx := exchange_of_turn hst hturn
    cases hx
    exact .inr hst

theorem delivered_holds {G : St → Ev → Prop} (hr : (machine host srv v).ReachIn G s) {i : Nat} {ev : Event}
    (hd : Delivery s id i ev) :
    ∃ g entry, stage srv s ev.handler = some g ∧ g.holds id = some entry := by
  obtain ⟨_, _, entry, reader, _, -, -, -, -, -, -, -, hst⟩ := delivered hr hd
  rcases hst with hst | hst
  · exact ⟨_, entry, hst, if_pos rfl⟩
  · exact ⟨_, entry, hst, if_pos rfl⟩

theorem delivered_once (hr : (machine host srv v).ReachIn (OnSchema host id) s) {i j : Nat} {ev ev' : Event}
    (hd : Delivery s id i ev) (hd' : Delivery s id j ev') : i = j := by
  obtain ⟨g, entry, hg, hh⟩ := delivered_holds hr hd
  obtain ⟨g', entry', hg', hh'⟩ := delivered_holds hr hd'
  have hsame := (reach_inv hr).holder _ _ g g' entry entry' hg hg' hh hh'
  obtain ⟨c, t, _, _, op, hc, ho, hth, hj, hb, -⟩ := delivered hr hd
  obtain ⟨c', t', _, _, op', hc', ho', hth', hj', hb', -⟩ := delivered hr hd'
  have hcalls : c = c' := (reach_tasked hr).single c c' t t' _ _ op op' ho ho' hj hj' hb hb' (by rw [hth, hth', hsame])
  subst hcalls
  exact log_call_unique hr hd.logged hd'.logged hc hc'

/-- The one batch of a stream of these batches. -/
theorem exactlyOne_of_items {reader : Reader} {batches : List RecordBatch} {b : RecordBatch} (hp : reader.polled = 0)
    (hi : ∀ i, reader.items i = (batches[i]?).map .ok) (h : exactlyOne reader = .ok b) : batches = [b] := by
  have hnext : ∀ n, reader.items n = (batches[n]?).map .ok := hi
  match batches with
  | [] =>
    simp [exactlyOne, Reader.next, hp, hnext] at h
  | [b'] =>
    simp [exactlyOne, Reader.next, hp, hnext] at h
    rw [h]
  | b' :: b'' :: rest => simp [exactlyOne, Reader.next, hp, hnext] at h

theorem delivered_carries (hlaw : host.ipc.Lawful) (hr : (machine host srv v).ReachIn (OnSchema host id) s)
    {entry : BindUploadEntry} (hst : Started s.log id entry) {i : Nat} {ev : Event} (hd : Delivery s id i ev) :
    ∃ op, ev.op = .job (.statement entry.statementId op) ∧ Carries entry (pushed s.log id) op := by
  have hinv := reach_inv hr
  obtain ⟨_, _, entry1, reader, op, -, -, -, -, hb, hop, hre, hstage⟩ := delivered hr hd
  obtain ⟨g, hg, hh, hso⟩ : ∃ g, stage srv s ev.handler = some g ∧ g.holds id = some entry1 ∧
      ∃ disk, entry1.upload.finish host.ipc disk = .ok reader := by
    rcases hstage with h | h
    · exact ⟨_, h, if_pos rfl, reach_sound hr _ _ h⟩
    · exact ⟨_, h, if_pos rfl, reach_sound hr _ _ h⟩
  obtain ⟨⟨⟨entry0, h0, hsid, hmode, hsch⟩, hstaged, hon⟩, -⟩ := hinv.held ev.handler g entry1 hg hh
  cases hinv.started entry entry0 hst h0
  obtain ⟨disk, hfin⟩ := hso
  obtain ⟨-, hreader⟩ := BindUpload.finish_ok hfin
  have hitems : ∀ n, reader.items n = ((pushed s.log id)[n]?).map .ok := by
    intro n
    rw [hreader, ← hstaged]
    exact hlaw _ _ hon n
  have hpolled : reader.polled = 0 := by rw [hreader]
  refine ⟨op, hsid ▸ hop, ?_⟩
  cases op with
  | bind b => exact ⟨hmode ▸ hre.1, exactlyOne_of_items hpolled hitems hre.2⟩
  | bindStream r =>
    obtain ⟨hm, rfl⟩ := hre
    refine ⟨hmode ▸ hm, ?_, hpolled, hitems⟩
    rw [hreader]
    exact hsch
  | _ => cases hb

theorem binds_turn {G : St → Ev → Prop} (hr : (machine host srv v).ReachIn G s) {ev : Event} (hev : ev ∈ s.log)
    {sid : String} {op : StatementOp} (hop : ev.op = .job (.statement sid op)) (hb : Binds op) :
    ∃ cursor input, TurnOf s cursor.uploadId ev.handler cursor input := by
  obtain ⟨c, t, -, ho, hth, hj⟩ := reach_jobsCalled hr ev hev _ hop
  obtain ⟨id', entry, reader, -, -, hst⟩ := (reach_tasked hr).tasks c t sid op ho hj hb
  rw [hth] at hst
  have hturn : ∃ cursor input, TurnOf s id' ev.handler cursor input := by
    rcases hst with hst | ⟨hst, -⟩
    · exact turn_of_exchange hst rfl
    · exact turn_of_exchange hst rfl
  obtain ⟨cursor, input, ht⟩ := hturn
  exact ⟨cursor, input, ht.1, rfl⟩

theorem started_path {G : St → Ev → Prop} {s' : St} {entry : BindUploadEntry} (hr : (machine host srv v).ReachIn G s)
    (p : (machine host srv v).Path G s s') (hs : Started s.log id entry) : Started s'.log id entry :=
  path_of_moves (P := fun s => Started s.log id entry) (Q := fun _ => True) (fun _ => trivial) hr p hs
    fun _ _ _ h hm => started_mono hm h

end Delivered

/-- However the turns of an upload come and interleave, its statement gets at most one bind,
    with the batches whose push succeeded, in order; none if a turn was rejected before the
    finish; and a returned finish or rejection leaves no upload. The condition is that no
    batch off the declared schema passes the writer. -/
theorem bind_delivery (host : Host) (srv : Service) (v : SessionView) (hlaw : host.ipc.Lawful) (id : String)
    (entry : BindUploadEntry) (s0 s1 s2 : St) (h0 : (machine host srv v).ReachIn (OnSchema host id) s0)
    (hst : Started s0.log id entry) (p1 : (machine host srv v).Path (OnSchema host id) s0 s1)
    (p2 : (machine host srv v).Path (OnSchema host id) s1 s2) : Contract srv id entry s0 s1 s2 := by
  have h1 := h0.extend p1
  have h2 := h1.extend p2
  have hst1 := started_path h0 p1 hst
  have hst2 := started_path h1 p2 hst1
  -- every turn since the upload was started is settled in `s1`
  have hsettled : SettledFrom srv id s0.handlers.length s1 := by
    refine path_of_moves (P := SettledFrom srv id s0.handlers.length) reach_turning h0 p1 ?_
      fun _ ht _ hs hm => settled_move ht hm hs
    refine ⟨(reach_inv h0).issued entry hst, ?_⟩
    intro h g hn hg _
    have := stage_lt hg
    omega
  constructor
  · exact ⟨reach_calls h2, fun ev hev sid op hop hb => binds_turn h2 hev hop hb⟩
  · intro i j ev ev' hd hd'
    exact delivered_once h2 hd hd'
  · intro i ev hd
    exact delivered_carries hlaw h2 hst2 hd
  · intro r hn hrej i ev hd
    obtain ⟨g, _, -, hg, hx, hpast, -⟩ := rejected_past h1 hrej
    have hspoiled := past_settled hpast (hsettled.2 r g hn hg hx)
    have hbarren : BarrenFrom srv id s1.handlers.length s2 := by
      refine path_of_moves (P := BarrenFrom srv id s1.handlers.length) reach_turning h1 p2 ?_
        fun _ ht _ hs hm => barren_move ht hm hs
      refine ⟨hspoiled, ?_⟩
      intro h g hn hg _
      have := stage_lt hg
      omega
    obtain ⟨_, _, _, _, _, -, -, -, -, -, -, -, hstage⟩ := delivered h2 hd
    rcases Nat.lt_or_ge ev.handler s1.handlers.length with hlt | hge
    · exact hlt
    · rcases hstage with hb | hb
      · exact (hbarren.2 _ _ hge hb rfl).elim
      · exact (hbarren.2 _ _ hge hb rfl).elim
  · intro r hn hrf hret
    obtain ⟨hd, x, hh, hp⟩ := hret
    have hpast : ∃ g hd, s1.handlers[r]? = some hd ∧ stage srv s1 r = some g ∧ g.exchange = some id ∧ g.Past ∧
        Takes g hd.prog := by
      rcases hrf with hrej | hfin
      · exact rejected_past h1 hrej
      · exact finished_past h1 hfin ⟨hd, x, hh, hp⟩
    obtain ⟨g, hd', hh', hg, hx, hpast, htakes⟩ := hpast
    cases hh.symm.trans hh'
    rw [hp] at htakes
    exact (ended_settled hpast htakes (hsettled.2 r g hn hg hx)).2

/-! ## Batches of the declared schema and others -/

def batchService (b : RecordBatch) : Service :=
  let codec := { BindSchema.textService.codec with decodeBatchIpc := fun _ _ => .ok b }
  { BindSchema.textService with codec := codec }

/-- The machine of a session whose clients send the batch `b`. -/
def batchMachine (b : RecordBatch) : Machine St Ev := machine BindSchema.spoolHost (batchService b) Solo.smallView

/-- A statement, and the upload `u` for it. -/
def startsUpload : List Ev :=
  asked .newStatement [] :: (called 0 "s1" ++
    [.start anonymous (.request .bind BindSchema.bindRequest), .hold 1 (answers "a"), .hold 1 (answers "b"),
      .hold 1 (answers "u")])

def turns (payload : Bytes) (finish : Bool) : Ev :=
  .start anonymous (.exchange ⟨"c", "u", maxBindStreamBytes⟩ (BindSchema.turnOf payload finish).input)

def sendsBatch : List Ev := [turns [1] false, .hold 2 (answers "x")]

def finishes : List Ev := turns [] true :: ([.hold 3 (answers "y"), .hold 3 (answers "z")] ++ called 3 "w")

def openedEntry : BindUploadEntry := ⟨"s1", .batch, ⟨BindSchema.declared, maxBindStreamBytes, [], 8, none⟩⟩

def uploading (b : RecordBatch) : St := (batchMachine b).run openedS startsUpload

def sent (b : RecordBatch) : St := (batchMachine b).run (uploading b) sendsBatch

def finished (b : RecordBatch) : St := (batchMachine b).run (sent b) finishes


set_option maxRecDepth 4000 in
theorem bind_delivery_numbers :
    Contract (batchService BindSchema.numbers) "u" openedEntry (uploading BindSchema.numbers) (sent BindSchema.numbers)
      (finished BindSchema.numbers) ∧
    pushed (finished BindSchema.numbers).log "u" = [BindSchema.numbers] ∧
    (finished BindSchema.numbers).inner.calls =
      [.newStatement (.ok ()), .statement "s1" (.bind BindSchema.numbers) (.ok ())] := by
  have hinit : (batchMachine BindSchema.numbers).ReachIn (OnSchema BindSchema.spoolHost "u") openedS := .init ⟨_, rfl⟩
  have h0 : (batchMachine BindSchema.numbers).Admits (OnSchema BindSchema.spoolHost "u") openedS startsUpload := by
    refine ⟨trivial, trivial, trivial, trivial, trivial, trivial, trivial, trivial, ?_, ?_, ?_, trivial⟩
    · intro hd b k entry n hh hp
      cases hh
      cases hp
    · intro hd b k entry n hh hp
      cases hh
      cases hp
    · intro hd b k entry n hh hp
      cases hh
      cases hp
  have h1 : (batchMachine BindSchema.numbers).Admits (OnSchema BindSchema.spoolHost "u")
      (uploading BindSchema.numbers) sendsBatch := by
    refine ⟨trivial, ?_, trivial⟩
    intro hd b k entry n hh hp hl _ _ _ _
    cases hh
    cases hp
    cases hl
    rfl
  have h2 : (batchMachine BindSchema.numbers).Admits (OnSchema BindSchema.spoolHost "u")
      (sent BindSchema.numbers) finishes := by
    refine ⟨trivial, ?_, ?_, trivial, trivial, trivial, trivial, trivial, trivial, trivial⟩
    · intro hd b k entry n hh hp
      cases hh
      cases hp
    · intro hd b k entry n hh hp
      cases hh
      cases hp
  refine ⟨?_, rfl, rfl⟩
  exact bind_delivery BindSchema.spoolHost
    (batchService BindSchema.numbers) Solo.smallView BindSchema.spool_lawful "u" openedEntry
    _ _ _ (hinit.run h0) ⟨_, List.mem_of_getElem? (i := 3) rfl, rfl⟩ h1.path h2.path

set_option maxRecDepth 4000 in
theorem delivered_otherwise :
    BindSchema.spool.Lawful ∧
    (batchMachine BindSchema.text).Reach (finished BindSchema.text) ∧
    (∃ i ev, Delivery (finished BindSchema.text) "u" i ev ∧ ev.op = .job (.statement "s1" (.bind BindSchema.numbers))) ∧
    pushed (finished BindSchema.text).log "u" = [BindSchema.text] ∧
    ¬ Contract (batchService BindSchema.text) "u" openedEntry (uploading BindSchema.text) (sent BindSchema.text)
      (finished BindSchema.text) := by
  have hd : Delivery (finished BindSchema.text) "u" 7
    ⟨3, some 1, .job (.statement "s1" (.bind BindSchema.numbers)), .ok (),
      [.statement "s1" (.bind BindSchema.numbers) (.ok ())]⟩ := by
    refine ⟨rfl, ⟨_, _, ⟨anonymous, rfl⟩, rfl⟩, ⟨_, _, rfl, trivial⟩, by simp⟩
  have hp : pushed (finished BindSchema.text).log "u" = [BindSchema.text] := rfl
  refine ⟨BindSchema.spool_lawful, ?_, ⟨7, _, hd, rfl⟩, hp, ?_⟩
  · exact (((Machine.Reach.run (M := batchMachine BindSchema.text) ⟨_, rfl⟩ startsUpload).extend (.run _ sendsBatch)).extend
      (.run _ finishes))
  · intro hc
    obtain ⟨op, hop, hcar⟩ := hc.carried 7 _ hd
    cases hop
    rw [hp] at hcar
    have hschema : BindSchema.text.schema = BindSchema.numbers.schema :=
      congrArg RecordBatch.schema (List.cons.inj hcar.2).1
    exact absurd hschema (by decide)

end Grainlift.Server.BindDelivery
