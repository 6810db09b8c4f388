/-
  Grainlift.Server.LiveResults — which results a statement owns while handlers interleave.

  Any number of handlers run on one session; a step performs the next operation of one of
  them, a worker call together with its answer (or with the timeout or refusal it met).
  EXECUTE is four such steps: it drops the statement's results, executes, drops them again
  and registers the reader.

  The two drops keep one result per statement as long as executions of one statement do
  not overlap (`one_live_result`): when the driver executes a statement, none of its
  results is registered and no other handler is on its way to register one. A handler on
  its way is told by its trail: `carrier` is the discipline every handler follows between
  the execution and the registration. Where two EXECUTEs overlap, both readers are
  registered (`two_live_results`).
-/

import Grainlift.Lib.Machine
import Grainlift.Server.Effects
import Grainlift.Server.Handlers

namespace Grainlift.Server.LiveResults

open Grainlift.Lib Grainlift.Protocol

structure Handler where
  /-- The operations it performed, with their answers. -/
  trail : List ((op : Op) × Ans op)
  prog : Do RpcError Reply

structure St where
  inner : Inner
  handlers : List Handler

inductive Ev where
  | start (ctx : CallContext) (invocation : Invocation)
  | step (h : Nat) (m : Moment)

section Machine

variable (host : Host) (srv : Service) (v : SessionView)

/-- The handler's next operation, performed. -/
def Handler.step (m : Moment) (hd : Handler) (s : Inner) : Handler × Inner :=
  match hd.prog with
  | .done _ => (hd, s)
  | .call op k => (⟨hd.trail ++ [⟨op, (respond host m op s).1⟩], k (respond host m op s).1⟩, (respond host m op s).2)

def step (s : St) : Ev → St
  | .start ctx invocation =>
    match programOn srv v ctx invocation with
    | some p => { s with handlers := s.handlers ++ [⟨[], p⟩] }
    | none => s
  | .step h m =>
    match s.handlers[h]? with
    | none => s
    | some hd => ⟨(hd.step host m s.inner).2, s.handlers.set h (hd.step host m s.inner).1⟩

def machine : Machine St Ev where
  init s := ∃ policy, s = ⟨Inner.opened policy, []⟩
  step := step host srv v

end Machine

/-! ## The reader a handler carries -/

def permits (g : Option (String × Reader)) : Op → Prop
  | .job (.insertResult (some sid) reader) => g = some (sid, reader)
  | .job (.statement _ .execute) => g = none
  | _ => True

def carry (g : Option (String × Reader)) : (op : Op) → Ans op → Option (String × Reader)
  | .job (.statement sid .execute), .ok reader => some (sid, reader)
  | .job (.insertResult _ _), _ => none
  | _, _ => g

/-- Between the execution and the registration a handler carries a statement's reader. -/
def carrier : Discipline Ans (Option (String × Reader)) := ⟨permits, carry⟩

@[simp] theorem carrier_allows : carrier.allows = permits := rfl
@[simp] theorem carrier_next : carrier.next = carry := rfl

/-- The handler will try to register this reader for the statement. -/
def Handler.Carries (hd : Handler) (sid : String) (reader : Reader) : Prop :=
  (∃ op k, hd.prog = .call op k) ∧ carrier.after none hd.trail = some (sid, reader)

/-- No result of the statement is registered. -/
def Unregistered (s : Inner) (sid : String) : Prop :=
  ∀ id e, s.results.lookup id = some e → e.ownerStatementId ≠ some sid

/-- The step runs the statement's execute downstream. -/
def Executes (s : St) (sid : String) : Ev → Prop
  | .start _ _ => False
  | .step h m => ∃ hd k, s.handlers[h]? = some hd ∧ hd.prog = .call (.job (.statement sid .execute)) k ∧
      (m.fate = .answered ∨ m.fate = .late) ∧ sid ∈ s.inner.statements

/-- A statement is executed only when none of its results is registered and no handler
    carries a reader of it. -/
def Apart (s : St) (e : Ev) : Prop :=
  ∀ sid, Executes s sid e → Unregistered s.inner sid ∧ ∀ (h : Nat) (hd : Handler) (reader : Reader),
    s.handlers[h]? = some hd → ¬ hd.Carries sid reader

/-- At most one result of each statement, and it is the reader of its last execution. -/
structure OneLive (s : Inner) : Prop where
  one : ∀ sid id id' e e', s.results.lookup id = some e → s.results.lookup id' = some e' →
    e.ownerStatementId = some sid → e'.ownerStatementId = some sid → id = id'
  last : ∀ sid id e, s.results.lookup id = some e → e.ownerStatementId = some sid →
    ∃ reader, lastExecute s.calls sid = some (.ok reader) ∧ SameResult (.fresh (some sid) reader) e

/-! ## Every handler follows the discipline -/

section Follows

variable {srv : Service} {ctx : CallContext} {g : Option (String × Reader)}

abbrev Keeps (g : Option (String × Reader)) (p : Do RpcError Reply) : Prop := carrier.Follows g p fun _ _ => True

/-- What a handler carries is of no concern to a plain operation, or to a bind exchange. -/
theorem passes {sets : Prop} {op : Op} (h : Plain sets op ∨ Binding op) : permits g op ∧ ∀ a, carry g op a = g := by
  match op with
  | .job (.connection _) | .job (.resultSchema _) | .job (.nextResult _ _) => exact ⟨trivial, fun _ => rfl⟩
  | .hold _ => exact ⟨trivial, fun _ => rfl⟩
  | .job (.statement _ op') => cases op' <;> first | exact h.elim False.elim False.elim | exact ⟨trivial, fun _ => rfl⟩
  | .job .newStatement | .job (.removeStatement _) | .job (.invalidate _) | .job (.insertResult _ _) |
    .job (.closeResult _) => exact h.elim False.elim False.elim

theorem resultResponse_keeps (resultId : String) (schema : Schema) (limit : Nat) :
    Keeps g (resultResponse srv resultId schema limit) := by
  unfold resultResponse
  split <;> simp [closeResult, permits]

theorem handleResponse_keeps (value : Response) (limit : Nat) (id : String) :
    Keeps g (handleResponse srv value limit (closeStatement id).ignore) := by
  unfold handleResponse
  split <;> simp [closeStatement, invalidateStatementResults, permits, carry]

theorem shape_keeps {sets : Prop} {t : Option BindTurn} {p : Do RpcError Reply} (h : Shape srv ctx sets t p) :
    Keeps none p := by
  cases h with
  | plain hp => exact .of_uses hp (fun _ h => passes (.inl h)) fun _ => trivial
  | newStatement v => simp [newStatementHandler, newStatement, handleResponse_keeps, permits, carry]
  | insert hx =>
    simp only [thenInsert, Discipline.follows_seq, Discipline.follows_mapErr]
    refine .of_uses hx (fun _ h => passes (.inl h)) ?_
    intro r
    cases r with
    | error e => trivial
    | ok reader =>
      simp [insertReaderResponse, insertResult, insertOwnedResult, resultResponse_keeps, permits, carry]
  | execute sid =>
    simp [executeOn, invalidateStatementResults, withStatement, insertStatementResult, insertOwnedResult,
      resultResponse_keeps, permits, carry]
  | executeOther sid op respond hop =>
    have hrest : Keeps none ((withStatement sid op).mapErr .adbc >>= fun x => liftM (respond x) : Do RpcError Reply) :=
      .of_uses (thenStatement_plain hop fun x => lift_plain (respond x)) (fun _ h => passes (.inl h)) fun _ => trivial
    simpa [executeOther, invalidateStatementResults, permits, carry] using hrest
  | closeStatement sid => simp [thenOk, closeStatement, invalidateStatementResults, permits, carry]
  | closeResult id => simp [thenOk, closeResult, permits, carry]
  | bind v sid mode schema => simp [bindOn, startBindUpload, permits, carry]
  | exchange cursor input =>
    exact .of_uses (exchange_binding cursor input) (fun op h => @passes _ sets op (.inr h)) fun _ => trivial
  | exchangeCancel cursor =>
    exact .of_uses (exchangeCancel_binding cursor) (fun op h => @passes _ sets op (.inr h)) fun _ => trivial
  | produceCancel cursor => simp [produceCancelTurn, closeResult, permits]

end Follows

/-! ## The invariant -/

structure Inv (s : St) : Prop where
  follows : ∀ (h : Nat) (hd : Handler), s.handlers[h]? = some hd → Keeps (carrier.after none hd.trail) hd.prog
  live : OneLive s.inner
  carried : ∀ (h : Nat) (hd : Handler) sid reader, s.handlers[h]? = some hd → hd.Carries sid reader →
    lastExecute s.inner.calls sid = some (.ok reader) ∧ Unregistered s.inner sid
  alone : ∀ (h h' : Nat) (hd hd' : Handler) sid reader reader', s.handlers[h]? = some hd → s.handlers[h']? = some hd' →
    hd.Carries sid reader → hd'.Carries sid reader' → h = h'

theorem init_inv (policy : ClientOptionPolicy) : Inv ⟨Inner.opened policy, []⟩ := by
  refine ⟨by simp, ⟨?_, ?_⟩, by simp, by simp⟩ <;> simp [Inner.opened]

theorem start_inv {s : St} (hi : Inv s) {p : Do RpcError Reply} (hp : Keeps none p) :
    Inv { s with handlers := s.handlers ++ [⟨[], p⟩] } := by
  have hnew : ∀ {sid reader}, ¬ (⟨[], p⟩ : Handler).Carries sid reader := fun h => Option.some_ne_none _ h.2.symm
  refine ⟨?_, hi.live, ?_, ?_⟩
  · intro h hd hh
    rcases getElem?_snoc_cases hh with hh | ⟨-, rfl⟩
    · exact hi.follows h hd hh
    · exact hp
  · intro h hd sid reader hh hc
    rcases getElem?_snoc_cases hh with hh | ⟨-, rfl⟩
    · exact hi.carried h hd sid reader hh hc
    · exact absurd hc hnew
  · intro h h' hd hd' sid r r' hh hh' hc hc'
    rcases getElem?_snoc_cases hh with hh | ⟨-, rfl⟩
    · rcases getElem?_snoc_cases hh' with hh' | ⟨-, rfl⟩
      · exact hi.alone h h' hd hd' sid r r' hh hh' hc hc'
      · exact absurd hc' hnew
    · exact absurd hc hnew

/-- One handler moved: what must be seen of it, and that the others' readers still stand. -/
theorem moved_inv {s : St} (hi : Inv s) {h : Nat} {hd : Handler} {inner : Inner}
    (hfollows : Keeps (carrier.after none hd.trail) hd.prog) (hlive : OneLive inner)
    (hothers : ∀ (h' : Nat) (hd' : Handler) sid reader, h' ≠ h → s.handlers[h']? = some hd' → hd'.Carries sid reader →
      lastExecute inner.calls sid = some (.ok reader) ∧ Unregistered inner sid)
    (hown : ∀ sid reader, hd.Carries sid reader →
      (lastExecute inner.calls sid = some (.ok reader) ∧ Unregistered inner sid) ∧
      ∀ (h' : Nat) (hd' : Handler) reader', h' ≠ h → s.handlers[h']? = some hd' → ¬ hd'.Carries sid reader') :
    Inv ⟨inner, s.handlers.set h hd⟩ := by
  refine ⟨?_, hlive, ?_, ?_⟩
  · intro i x hx
    rcases getElem?_set_cases hx with ⟨rfl, rfl⟩ | ⟨-, hx⟩
    · exact hfollows
    · exact hi.follows i x hx
  · intro i x sid reader hx hc
    rcases getElem?_set_cases hx with ⟨rfl, rfl⟩ | ⟨hne, hx⟩
    · exact (hown sid reader hc).1
    · exact hothers i x sid reader hne hx hc
  · intro i j x y sid r r' hx hy hc hc'
    rcases getElem?_set_cases hx with ⟨rfl, rfl⟩ | ⟨hne, hx'⟩
    · rcases getElem?_set_cases hy with ⟨rfl, rfl⟩ | ⟨hne', hy'⟩
      · rfl
      · exact absurd hc' ((hown sid r hc).2 j y r' hne' hy')
    · rcases getElem?_set_cases hy with ⟨rfl, rfl⟩ | ⟨-, hy'⟩
      · exact absurd hc ((hown sid r' hc').2 i x r hne hx')
      · exact hi.alone i j x y sid r r' hx' hy' hc hc'

/-! ## One operation -/

/-- Operations other than an execute and a registration. -/
def Still : Op → Prop
  | .job (.statement _ .execute) | .job (.insertResult _ _) => False
  | _ => True

theorem op_cases (op : Op) : (∃ sid, op = .job (.statement sid .execute)) ∨
    (∃ owner reader, op = .job (.insertResult owner reader)) ∨ Still op := by
  match op with
  | .hold _ => exact .inr (.inr trivial)
  | .job (.statement sid op') => cases op' <;> first | exact .inl ⟨sid, rfl⟩ | exact .inr (.inr trivial)
  | .job (.insertResult owner reader) => exact .inr (.inl ⟨owner, reader, rfl⟩)
  | .job (.connection _) | .job .newStatement | .job (.removeStatement _) | .job (.invalidate _) |
    .job (.resultSchema _) | .job (.nextResult _ _) | .job (.closeResult _) => exact .inr (.inr trivial)

theorem carry_still {g : Option (String × Reader)} {op : Op} (h : Still op) (a : Ans op) : carry g op a = g := by
  match op with
  | .hold _ => rfl
  | .job (.statement sid op') => cases op' <;> first | exact h.elim | rfl
  | .job (.connection _) | .job .newStatement | .job (.removeStatement _) | .job (.invalidate _) |
    .job (.resultSchema _) | .job (.nextResult _ _) | .job (.closeResult _) => rfl

/-- Results only vanish or move on in place, and nothing was executed. -/
structure Kept (s s' : Inner) : Prop where
  results : ∀ id e', s'.results.lookup id = some e' → ∃ e, s.results.lookup id = some e ∧ SameResult e e'
  executes : ∀ sid, lastExecute s'.calls sid = lastExecute s.calls sid

theorem respond_still (host : Host) (m : Moment) {op : Op} (h : Still op) (s : Inner) :
    Kept s (respond host m op s).2 := by
  have he := respond_effect host m op s
  generalize (respond host m op s).2 = s' at he
  cases he with
  | quiet hq => exact ⟨hq.results, hq.executes⟩
  | statement => exact ⟨fun _ e h => ⟨e, h, .refl e⟩, fun sid => by simp [Inner.called, executeAnswer]⟩
  | upload entry => exact ⟨fun _ e h => ⟨e, h, .refl e⟩, fun _ => rfl⟩
  | result owner reader _ => exact h.elim
  | executed sid hm => exact h.elim

theorem respond_execute (host : Host) (m : Moment) (sid : String) (s : Inner) :
    (((m.fate = .answered ∨ m.fate = .late) ∧ sid ∈ s.statements) ∧
      (respond host m (.job (.statement sid .execute)) s).2 =
        s.called (.statement sid .execute m.world.driver.reader) ∧
      ∀ reader, (respond host m (.job (.statement sid .execute)) s).1 = .ok reader →
        m.world.driver.reader = .ok reader) ∨
    ((respond host m (.job (.statement sid .execute)) s).2 = s ∧
      ∃ e, (respond host m (.job (.statement sid .execute)) s).1 = .error e) := by
  simp only [respond]
  by_cases hm : sid ∈ s.statements
  · cases m.fate with
    | answered => exact .inl ⟨⟨.inl rfl, hm⟩, by simp [Job.perform, hm, StatementOp.reaches, StatementOp.answer],
        fun reader h => by simpa [Job.perform, hm, StatementOp.answer] using h⟩
    | late => exact .inl ⟨⟨.inr rfl, hm⟩, by simp [Job.perform, hm, StatementOp.reaches, StatementOp.answer],
        fun reader h => by simp at h⟩
    | full | stopped | abandoned => exact .inr ⟨rfl, _, rfl⟩
  · right
    cases m.fate <;> simp [Job.perform, hm]

theorem respond_insert (host : Host) (m : Moment) (owner : Option String) (reader : Reader) (s : Inner) :
    (respond host m (.job (.insertResult owner reader)) s).2 = s ∨
    (respond host m (.job (.insertResult owner reader)) s).2 =
      { s with results := s.results.insert m.world.fresh (.fresh owner reader) } := by
  simp only [respond, Job.perform, insertResultJob]
  by_cases hq : host.limits.maxResultsPerSession ≤ s.results.size
  · cases m.fate <;> simp [hq]
  · cases m.fate <;> simp [hq]

theorem Kept.unregistered {s s' : Inner} (h : Kept s s') {sid : String} (hu : Unregistered s sid) :
    Unregistered s' sid := by
  intro id e' he'
  obtain ⟨e, he, hs⟩ := h.results id e' he'
  rw [hs.owner]
  exact hu id e he

theorem Kept.oneLive {s s' : Inner} (h : Kept s s') (hl : OneLive s) : OneLive s' := by
  refine ⟨?_, ?_⟩
  · intro sid id id' e e' he he' ho ho'
    obtain ⟨x, hx, hsx⟩ := h.results id e he
    obtain ⟨y, hy, hsy⟩ := h.results id' e' he'
    exact hl.one sid id id' x y hx hy (hsx.owner ▸ ho) (hsy.owner ▸ ho')
  · intro sid id e' he' ho
    obtain ⟨e, he, hs⟩ := h.results id e' he'
    obtain ⟨reader, hr, hsame⟩ := hl.last sid id e he (hs.owner ▸ ho)
    exact ⟨reader, (h.executes sid).trans hr, hs.owner.trans hsame.owner, hs.items.trans hsame.items,
      hs.schema.trans hsame.schema⟩

section Step

variable (host : Host) {srv : Service} {v : SessionView} {s : St} {h : Nat} {hd : Handler} (m : Moment)

/-- The handler after its next operation. -/
theorem advance_follows (hi : Inv s) (hh : s.handlers[h]? = some hd) {op : Op} {k : Ans op → Do RpcError Reply}
    (hp : hd.prog = .call op k) : permits (carrier.after none hd.trail) op ∧
      Keeps (carrier.after none (hd.step host m s.inner).1.trail) (hd.step host m s.inner).1.prog := by
  have hf := hi.follows h hd hh
  rw [hp] at hf
  refine ⟨hf.1, ?_⟩
  have := hf.2 (respond host m op s.inner).1
  simpa [Handler.step, hp] using this

/-- What the handler carries after its next operation, by what it carried before. -/
theorem advance_carries {op : Op} {k : Ans op → Do RpcError Reply} (hp : hd.prog = .call op k) {sid : String}
    {reader : Reader} (hc : (hd.step host m s.inner).1.Carries sid reader) :
    carry (carrier.after none hd.trail) op (respond host m op s.inner).1 = some (sid, reader) := by
  have := hc.2
  simpa [Handler.step, hp] using this

theorem carries_of_after {op : Op} {k : Ans op → Do RpcError Reply} (hp : hd.prog = .call op k) {sid : String}
    {reader : Reader}
    (ha : carrier.after none hd.trail = some (sid, reader)) : hd.Carries sid reader := ⟨⟨op, k, hp⟩, ha⟩

theorem advance_inner {op : Op} {k : Ans op → Do RpcError Reply} (hp : hd.prog = .call op k) :
    (hd.step host m s.inner).2 = (respond host m op s.inner).2 := by
  simp [Handler.step, hp]

theorem still_inv (hi : Inv s) (hh : s.handlers[h]? = some hd) {op : Op} {k : Ans op → Do RpcError Reply}
    (hp : hd.prog = .call op k) (hs : Still op) :
    Inv ⟨(hd.step host m s.inner).2, s.handlers.set h (hd.step host m s.inner).1⟩ := by
  have hk := respond_still host m hs s.inner
  rw [advance_inner host m hp]
  have hstands : ∀ (i : Nat) (x : Handler) sid reader, s.handlers[i]? = some x → x.Carries sid reader →
      lastExecute (respond host m op s.inner).2.calls sid = some (.ok reader) ∧
      Unregistered (respond host m op s.inner).2 sid := by
    intro i x sid reader hx hc
    obtain ⟨hl, hu⟩ := hi.carried i x sid reader hx hc
    exact ⟨(hk.executes sid).trans hl, hk.unregistered hu⟩
  refine moved_inv hi (advance_follows host m hi hh hp).2 (hk.oneLive hi.live)
    (fun i x sid r _ hx hc => hstands i x sid r hx hc) ?_
  intro sid reader hc
  have hc' := advance_carries host m hp hc
  rw [carry_still hs] at hc'
  have hc0 := carries_of_after hp hc'
  exact ⟨hstands h hd sid reader hh hc0, fun i x r hne hx hcx => hne (hi.alone i h x hd sid r reader hx hh hcx hc0)⟩

/-- Running a statement's execute when nothing of it is registered or on its way. -/
theorem execute_inv (hi : Inv s) (hh : s.handlers[h]? = some hd) {sid : String}
    {k : Ans (.job (.statement sid .execute)) → Do RpcError Reply}
    (hp : hd.prog = .call (.job (.statement sid .execute)) k) (hg : Apart s (.step h m)) :
    Inv ⟨(hd.step host m s.inner).2, s.handlers.set h (hd.step host m s.inner).1⟩ := by
  obtain ⟨hperm, hfollows⟩ := advance_follows host m hi hh hp
  have hcarry : ∀ sid' reader, (hd.step host m s.inner).1.Carries sid' reader →
      sid' = sid ∧ (respond host m (.job (.statement sid .execute)) s.inner).1 = .ok reader := by
    intro sid' reader hc
    have hc := advance_carries host m hp hc
    rw [show carrier.after none hd.trail = none from hperm] at hc
    generalize (respond host m (.job (.statement sid .execute)) s.inner).1 = a at hc ⊢
    cases a with
    | error e => cases hc
    | ok x => cases hc; exact ⟨rfl, rfl⟩
  rw [advance_inner host m hp]
  rcases respond_execute host m sid s.inner with ⟨hrun, hs', hok⟩ | ⟨hs', e, he⟩
  · obtain ⟨hun, hnone⟩ := hg sid ⟨hd, k, hh, hp, hrun⟩
    rw [hs']
    have hlast : ∀ sid', sid' ≠ sid →
        lastExecute (s.inner.called (.statement sid .execute m.world.driver.reader)).calls sid' =
          lastExecute s.inner.calls sid' := by
      intro sid' hne
      simp [Inner.called, executeAnswer, Ne.symm hne]
    refine moved_inv hi hfollows ⟨hi.live.one, ?_⟩ ?_ ?_
    · intro sid' id e he ho
      have hne : sid' ≠ sid := fun hEq => hun id e he (hEq ▸ ho)
      rw [hlast sid' hne]
      exact hi.live.last sid' id e he ho
    · intro i x sid' r hne hx hc
      have hne' : sid' ≠ sid := fun hEq => hnone i x r hx (hEq ▸ hc)
      rw [hlast sid' hne']
      exact hi.carried i x sid' r hx hc
    · intro sid' r hc
      obtain ⟨rfl, ha⟩ := hcarry sid' r hc
      refine ⟨⟨by simp [Inner.called, executeAnswer, hok r ha], hun⟩, fun i x r' _ hx => hnone i x r' hx⟩
  · rw [hs']
    apply moved_inv hi hfollows hi.live (fun i x sid' r _ hx hc => hi.carried i x sid' r hx hc)
    intro sid' r hc
    obtain ⟨-, ha⟩ := hcarry sid' r hc
    rw [he] at ha
    cases ha

theorem Unregistered.insert {i : Inner} {sid id : String} {owner : Option String} {reader : Reader}
    (hu : Unregistered i sid)
    (hne : owner ≠ some sid) : Unregistered { i with results := i.results.insert id (.fresh owner reader) } sid := by
  intro id' e he
  by_cases hid : id' = id
  · subst hid
    rw [AList.lookup_insert] at he
    cases he
    exact hne
  · rw [AList.lookup_insert_ne hid] at he
    exact hu id' e he

/-- Registering the reader the handler carries, as the statement has no other result. -/
theorem OneLive.insert {i : Inner} (hl : OneLive i) {id : String} {owner : Option String} {reader : Reader}
    (ho : ∀ sid, owner = some sid → lastExecute i.calls sid = some (.ok reader) ∧ Unregistered i sid) :
    OneLive { i with results := i.results.insert id (.fresh owner reader) } := by
  have hsplit : ∀ {id' e}, (i.results.insert id (.fresh owner reader)).lookup id' = some e →
      (id' = id ∧ e = .fresh owner reader) ∨ i.results.lookup id' = some e := by
    intro id' e he
    by_cases hid : id' = id
    · subst hid
      rw [AList.lookup_insert] at he
      cases he
      exact .inl ⟨rfl, rfl⟩
    · rw [AList.lookup_insert_ne hid] at he
      exact .inr he
  refine ⟨?_, ?_⟩
  · intro sid a b e e' he he' hs hs'
    rcases hsplit he with ⟨rfl, rfl⟩ | hx
    · rcases hsplit he' with ⟨rfl, -⟩ | hx'
      · rfl
      · exact absurd hs' ((ho sid hs).2 b e' hx')
    · rcases hsplit he' with ⟨rfl, rfl⟩ | hx'
      · exact absurd hs ((ho sid hs').2 a e hx)
      · exact hl.one sid a b e e' hx hx' hs hs'
  · intro sid a e he hs
    rcases hsplit he with ⟨rfl, rfl⟩ | he
    · cases (show owner = some sid from hs)
      exact ⟨reader, (ho sid rfl).1, .refl _⟩
    · exact hl.last sid a e he hs

theorem insert_inv (hi : Inv s) (hh : s.handlers[h]? = some hd) {owner : Option String} {reader : Reader}
    {k : Ans (.job (.insertResult owner reader)) → Do RpcError Reply}
    (hp : hd.prog = .call (.job (.insertResult owner reader)) k) :
    Inv ⟨(hd.step host m s.inner).2, s.handlers.set h (hd.step host m s.inner).1⟩ := by
  obtain ⟨hperm, hfollows⟩ := advance_follows host m hi hh hp
  have hnone : ∀ sid r, ¬ (hd.step host m s.inner).1.Carries sid r :=
    fun sid r hc => by cases advance_carries host m hp hc
  have hown : ∀ sid, owner = some sid → hd.Carries sid reader := by
    intro sid heq
    subst heq
    exact carries_of_after hp hperm
  rw [advance_inner host m hp]
  rcases respond_insert host m owner reader s.inner with hs' | hs'
  · rw [hs']
    exact moved_inv hi hfollows hi.live (fun i x sid r _ hx hc => hi.carried i x sid r hx hc)
      fun sid r hc => absurd hc (hnone sid r)
  · rw [hs']
    refine moved_inv hi hfollows (hi.live.insert fun sid ho => hi.carried h hd sid reader hh (hown sid ho))
      ?_ fun sid r hc => absurd hc (hnone sid r)
    intro i x sid r hne hx hc
    obtain ⟨hl, hu⟩ := hi.carried i x sid r hx hc
    exact ⟨hl, hu.insert fun ho => hne (hi.alone i h x hd sid r reader hx hh hc (hown sid ho))⟩

theorem step_inv {e : Ev} (hi : Inv s) (hg : Apart s e) : Inv (step host srv v s e) := by
  cases e with
  | start ctx invocation =>
    simp only [step]
    split
    · rename_i p hp
      exact start_inv hi (shape_keeps (shape hp))
    · exact hi
  | step h m =>
    simp only [step]
    split
    · exact hi
    rename_i hd hh
    cases hp : hd.prog with
    | done r =>
      have hset : s.handlers.set h hd = s.handlers := by
        obtain ⟨hlt, rfl⟩ := List.getElem?_eq_some_iff.mp hh
        exact List.set_getElem_self hlt
      simpa [Handler.step, hp, hset] using hi
    | call op k =>
      rcases op_cases op with ⟨sid, rfl⟩ | ⟨owner, reader, rfl⟩ | hs
      · exact execute_inv host m hi hh hp hg
      · exact insert_inv host m hi hh hp
      · exact still_inv host m hi hh hp hs

end Step

/-- In every run a statement has at most one live result, and it is of its last execution, so
    long as it is executed only when none of its results is registered or on its way. -/
theorem one_live_result (host : Host) (srv : Service) (v : SessionView) (s : St)
    (h : (machine host srv v).ReachIn Apart s) : OneLive s.inner := by
  have hinv : Inv s := by
    refine h.invariant ?_ fun s e hg hi => step_inv host hi hg
    intro s h'
    obtain ⟨policy, rfl⟩ := h'
    exact init_inv policy
  exact hinv.live

/-! ## Two executions of one statement -/

/-- Room for two results. -/
def roomyHost : Host := { Solo.smallHost with limits := ⟨2, 2, 1, 2⟩ }

def answers (fresh : String) : Moment := ⟨.answered, willing, .fine, fresh⟩

def asked (method : Method) (columns : List (String × String)) : Ev :=
  .start anonymous (.request method (flatRequest (("session_id", "c") :: columns)))

def executeS : Ev := asked .execute [("statement_id", "s")]

def openedS : St := ⟨Inner.opened (.new false [] []), []⟩

/-- NEW_STATEMENT, and the four steps of an EXECUTE. -/
def oneExecute : List Ev :=
  [asked .newStatement [], .step 0 (answers "s"), executeS, .step 1 (answers "a"), .step 1 (answers "b"),
    .step 1 (answers "c"), .step 1 (answers "r")]

/-- Two EXECUTEs that both executed before either registered its reader. -/
def overlapping : List Ev :=
  [asked .newStatement [], .step 0 (answers "s"), executeS, executeS,
    .step 1 (answers "a"), .step 1 (answers "b"), .step 2 (answers "c"), .step 2 (answers "d"),
    .step 1 (answers "e"), .step 2 (answers "f"), .step 1 (answers "r1"), .step 2 (answers "r2")]

def smallMachine : Machine St Ev := machine roomyHost smallService Solo.smallView

/-- While nothing is registered and no reader is on its way, anything may happen. -/
theorem apart_calm {s : St} {e : Ev} (hr : s.inner.results.entries = [])
    (hc : (s.handlers.all fun hd => (carrier.after none hd.trail).isNone) = true) : Apart s e := by
  refine fun sid _ => ⟨?_, ?_⟩
  · intro id x hx
    have hm := Table.mem_entries.mpr hx
    rw [hr] at hm
    cases hm
  · intro h hd reader hh hcar
    have hn := List.all_eq_true.mp hc hd (List.mem_of_getElem? hh)
    rw [hcar.2] at hn
    cases hn

theorem apart_other {s : St} {h : Nat} {m : Moment} {hd : Handler} {op : Op} {k : Ans op → Do RpcError Reply}
    (hh : s.handlers[h]? = some hd) (hp : hd.prog = .call op k) (hne : ∀ sid, op ≠ .job (.statement sid .execute)) :
    Apart s (.step h m) := by
  intro sid h'
  obtain ⟨hd', k', hh', hp', -⟩ := h'
  rw [hh] at hh'
  cases hh'
  rw [hp] at hp'
  cases hp'
  exact absurd rfl (hne sid)

theorem one_live_result_executed :
    smallMachine.ReachIn Apart (smallMachine.run openedS oneExecute) ∧
    (smallMachine.run openedS oneExecute).inner.results.lookup "r" = some (.fresh (some "s") emptyReader) ∧
    OneLive (smallMachine.run openedS oneExecute).inner := by
  have h0 : smallMachine.ReachIn Apart openedS := .init ⟨_, rfl⟩
  have h5 := ((((h0.next (asked .newStatement []) (apart_calm rfl rfl)).next (.step 0 (answers "s")) (apart_calm rfl rfl)).next
    executeS (apart_calm rfl rfl)).next (.step 1 (answers "a")) (apart_calm rfl rfl)).next
      (.step 1 (answers "b")) (apart_calm rfl rfl)
  have h6 := h5.next (.step 1 (answers "c")) (apart_other rfl rfl (by nofun))
  have h7 : smallMachine.ReachIn Apart (smallMachine.run openedS oneExecute) :=
    h6.next (.step 1 (answers "r")) (apart_other rfl rfl (by nofun))
  exact ⟨h7, rfl, one_live_result roomyHost smallService Solo.smallView _ h7⟩

theorem two_live_results :
    smallMachine.Reach (smallMachine.run openedS overlapping) ∧
    (smallMachine.run openedS overlapping).inner.results.lookup "r1" = some (.fresh (some "s") emptyReader) ∧
    (smallMachine.run openedS overlapping).inner.results.lookup "r2" = some (.fresh (some "s") emptyReader) ∧
    ¬ OneLive (smallMachine.run openedS overlapping).inner := by
  have h1 : (smallMachine.run openedS overlapping).inner.results.lookup "r1" =
      some (.fresh (some "s") emptyReader) := rfl
  have h2 : (smallMachine.run openedS overlapping).inner.results.lookup "r2" =
      some (.fresh (some "s") emptyReader) := rfl
  have h0 : smallMachine.init openedS := ⟨_, rfl⟩
  refine ⟨Machine.Reach.run h0 _, h1, h2, ?_⟩
  intro h
  exact absurd (h.one "s" "r1" "r2" _ _ h1 h2 rfl rfl) (by decide)

end Grainlift.Server.LiveResults
