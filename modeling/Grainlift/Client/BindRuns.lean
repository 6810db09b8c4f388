/-
  Grainlift.Client.BindRuns — a bind stream sent over a concurrent run of the session.

  The client of `Bind` is a caller of the machine of `Concurrent`: each of its calls is a
  handler started there, which interleaves with the handlers of everyone else, with the
  session's worker and with what is left of its own earlier calls. Calls can be lost, and
  their answers too.

  Proved (`bind_stream_delivery`): what the statement is given of the upload is all of the
  caller's batches in their order, or nothing, and it is given them once; a bind that
  succeeded was given to it; and one that failed leaves no upload behind.
-/

import Grainlift.Client.Bind
import Grainlift.Client.Calls
import Grainlift.Client.Desk
import Grainlift.Server.BindDelivery

namespace Grainlift.Client.Bind

open Grainlift.Lib Grainlift.Protocol Grainlift.Server Concurrent BindDelivery
open Grainlift.Client.Calls (Wire versioned Shared okArrow okDerived okFrame okVgi_lawful okWire)

/-! ## The session's side of a call -/

def StreamCall.invocation : StreamCall → Invocation
  | .openExchange method init => .request method (versioned init)
  | .exchange cursor turn => .exchange cursor turn
  | .cancel cursor => .exchangeCancel cursor

/-- What the client is given of a handler's result. -/
def StreamCall.received (wire : Wire) : (c : StreamCall) → Except RpcError Reply → StreamAns c
  | .openExchange _ _, .ok (.exchange cursor) => .ok cursor
  | .exchange _ _, .ok (.acknowledged _) => .ok (some bindAck)
  | .openExchange _ _, .ok reply | .exchange _ _, .ok reply => .error (wire.stream reply)
  | .openExchange _ _, .error e | .exchange _ _, .error e => .error (wire.failed e)
  | .cancel _, _ => ()

/-- A call that was lost is an error to the client, if it looks. -/
def StreamCall.Lost : (c : StreamCall) → StreamAns c → Prop
  | .openExchange _ _, r | .exchange _ _, r => ∃ e, r = .error e
  | .cancel _, _ => True

/-- The client's calls, in whatever context each comes. Where the transport is lossy, calls
    and answers can be lost. -/
def desk (srv : Service) (v : SessionView) (wire : Wire) (lossy : Prop) : Desk St Ev Nat StreamAns :=
  sessionDesk srv v (fun _ => True) StreamCall.invocation (StreamCall.received wire) fun c a => lossy ∧ c.Lost a

/-! ## Pushes in a run -/

section Pushes

variable {host : Host} {srv : Service} {v : SessionView} {s s' u w : St} {e : Ev} {id : String}

/-- A hold moves its handler's turn and is logged. -/
theorem hold_stage (ht : Turning srv s) {h : Nat} {w : World} (hm : Move host srv v s (.hold h w) s') :
    ∃ o g calls, stage srv s h = some g ∧ permits g (.hold o) ∧
      stage srv s' h = some (g.next (.hold o) (o.perform host.ipc w s.inner).1) ∧
      s'.log = s.log ++ [⟨h, none, .hold o, (o.perform host.ipc w s.inner).1, calls⟩] := by
  cases hm with
  | @hold _ hd o k _ hh hc hp hf =>
    obtain ⟨g, hg, htakes⟩ := ht.stage hh
    rw [hp] at htakes
    obtain ⟨c, hd', hst, hh', hafter⟩ := stage_eq_some.mp hg
    cases hh.symm.trans hh'
    refine ⟨o, g, _, hg, htakes.1, stage_eq_some.mpr ⟨c, _, hst, getElem?_set_of_some hh, ?_⟩, rfl⟩
    rw [Discipline.after_snoc, hafter]
    rfl

/-- The push of a turn is what makes it accepted. -/
theorem accepted_next {g : Stage} {op : Op} {a : Ans op} (hp : permits g op) (hn : g.next op a = .accepted id) :
    ∃ b, g = .sent id (.ok (some b)) ∧ stagedBy id op a = some b := by
  cases g with
  | sent id' turn =>
    match turn with
    | .error _ => cases hn
    | .ok none =>
      cases hp
      cases a <;> cases hn
    | .ok (some b) =>
      cases hp
      cases a with
      | error e => cases hn
      | ok u =>
        cases hn
        exact ⟨b, rfl, if_pos rfl⟩
  | other =>
    unfold Stage.next at hn
    split at hn <;> simp_all
  | took id' entry =>
    cases hp
    cases a <;> cases hn
  | opened _ | cancels _ | refused _ | read _ _ _ => cases hn
  | accepted _ | bound _ _ _ | done _ => cases hp

theorem staged_next {g : Stage} {op : Op} {a : Ans op} {b : RecordBatch} (hp : permits g op)
    (hs : stagedBy id op a = some b) : g = .sent id (.ok (some b)) ∧ g.next op a = .accepted id := by
  unfold stagedBy at hs
  split at hs
  case h_2 => cases hs
  split at hs
  case isFalse => cases hs
  rename_i hid
  subst hid
  cases hs
  cases g with
  | sent id' turn =>
    match turn with
    | .error _ | .ok none => cases hp
    | .ok (some b) =>
      cases hp
      exact ⟨rfl, rfl⟩
  | other => exact absurd trivial hp.1
  | opened _ =>
    obtain ⟨_, _, h⟩ := hp
    cases h
  | read _ _ _ =>
    obtain ⟨_, h, -⟩ := hp
    cases h
  | cancels _ | refused _ | took _ _ => cases hp
  | accepted _ | bound _ _ _ | done _ => cases hp

/-- A turn is past its push because of a step that staged its batch. -/
theorem accepted_of (ht : Turning srv s) (hm : Move host srv v s e s') {h : Nat}
    (hg : stage srv s' h = some (.accepted id)) : stage srv s h = some (.accepted id) ∨
      ∃ b, stage srv s h = some (.sent id (.ok (some b))) ∧ pushed s'.log id = pushed s.log id ++ [b] := by
  cases staged ht hm hg with
  | same h => exact .inl h
  | started t _ ht _ =>
    match t with
    | none | some (.exchange _ _) | some (.cancel _) => cases ht
  | @answered g0 op a hg0 hp hn ha =>
    obtain ⟨b, rfl, hs⟩ := accepted_next hp hn.symm
    cases ha with
    | job _ => cases hs
    | @hold o w he _ _ =>
      subst he
      obtain ⟨o', g, calls, hg', hp', -, hl⟩ := hold_stage ht hm
      cases hg0.symm.trans hg'
      cases hp
      cases hp'
      refine .inr ⟨b, hg0, ?_⟩
      rw [hl, pushed_snoc, hs]
      rfl

/-- A step pushes nothing, or it is the push of one turn. -/
theorem pushed_of (ht : Turning srv s) (hm : Move host srv v s e s') : pushed s'.log id = pushed s.log id ∨
    ∃ h b, stage srv s h = some (.sent id (.ok (some b))) ∧ stage srv s' h = some (.accepted id) := by
  cases hm.logged with
  | nothing _ hl _ => exact .inl (by rw [hl])
  | finish w _ _ _ _ _ _ hl =>
    rw [hl, pushed_snoc]
    exact .inl (List.append_nil _)
  | @hold h hd o k w he hh hp _ _ _ _ =>
    subst he
    obtain ⟨o', g, calls, hg, hpg, hg', hl⟩ := hold_stage ht hm
    cases hs : stagedBy id (.hold o') (o'.perform host.ipc w s.inner).1 with
    | none =>
      rw [hl, pushed_snoc, hs]
      exact .inl (List.append_nil _)
    | some b =>
      obtain ⟨rfl, hn⟩ := staged_next hpg hs
      exact .inr ⟨h, b, hg, hg'.trans (congrArg some hn)⟩

end Pushes

/-! ## Runs in which a turn is served -/

section Segments

variable {host : Host} {srv : Service} {v : SessionView} {s u w : St} {id : String} {h : Nat}

theorem turnOf_path (hr : (machine host srv v).Reach u) (p : (machine host srv v).Path (fun _ _ => True) u w)
    {cursor : BindCursor} {input : RecordBatch} (ht : TurnOf u id h cursor input) : TurnOf w id h cursor input := by
  obtain ⟨⟨ctx, hc⟩, hid⟩ := ht
  exact ⟨⟨ctx, serving_path hr p hc⟩, hid⟩

/-- A turn that has yet to push is one with a batch, and has not returned. -/
theorem sent_turn (hr : (machine host srv v).Reach s) {b : RecordBatch}
    (hg : stage srv s h = some (.sent id (.ok (some b)))) :
    ¬ Returned s h ∧ ∃ cursor input, TurnOf s id h cursor input ∧ decoded srv cursor input = .ok (some b) := by
  obtain ⟨cursor, input, hturn⟩ := turn_of_exchange hg rfl
  obtain ⟨c, hd, -, hh, -⟩ := stage_eq_some.mp hg
  obtain ⟨g, hg', hwent, htakes⟩ := turn_went hr hturn hh
  cases hg.symm.trans hg'
  refine ⟨?_, cursor, input, hturn, ?_⟩
  · intro hret
    obtain ⟨hd', r, hh', hp⟩ := hret
    cases hh.symm.trans hh'
    rw [hp] at htakes
    exact htakes
  · generalize hd.trail = trail at hwent
    generalize decoded srv cursor input = turn at hwent
    cases hwent with
    | sent => rfl
    | past hpast => cases hpast

/-- What holds of turns from then on, where it was kept by every step. -/
theorem segment {P : St → Prop} {Q : Nat → BindCursor → RecordBatch → Prop} (hr : (machine host srv v).Reach u)
    (p : (machine host srv v).Path (fun _ _ => True) u w)
    (hq : ∀ h cursor input, TurnOf w id h cursor input → Q h cursor input) (h0 : P u)
    (hmove : ∀ {s s' : St} {e : Ev}, (machine host srv v).Reach s → (machine host srv v).Path (fun _ _ => True) u s →
      (∀ h cursor input, TurnOf s id h cursor input → Q h cursor input) → P s → Move host srv v s e s' → P s') : P w := by
  induction p with
  | refl => exact h0
  | @step t e p _ ih =>
    have ht := hr.extend p
    have hq' : ∀ h cursor input, TurnOf t id h cursor input → Q h cursor input :=
      fun h cursor input hturn => hq h cursor input (turnOf_path ht (.step e (.refl t) trivial) hturn)
    show P (step host srv v t e)
    rcases step_move (reach_wf ht) e with hs | hm
    · rw [hs]
      exact ih hq'
    · exact hmove ht p hq' (ih hq') hm

theorem returned_later (hr : (machine host srv v).Reach u) (p : (machine host srv v).Path (fun _ _ => True) u w)
    (hret : Returned u h) : Returned w h := by
  obtain ⟨hd, r, hh, hp⟩ := hret
  exact ⟨hd, r, returned_path hr p hh hp, hp⟩

/-- Where every turn of the upload returned or has no batch, nothing is pushed to it. -/
theorem quiet_path (hr : (machine host srv v).Reach u) (p : (machine host srv v).Path (fun _ _ => True) u w)
    (hq : ∀ h cursor input, TurnOf w id h cursor input →
      Returned u h ∨ ∀ b, decoded srv cursor input ≠ .ok (some b)) : pushed w.log id = pushed u.log id := by
  refine segment (P := fun s => pushed s.log id = pushed u.log id) hr p hq rfl ?_
  intro s s' e hs hp hq hpushed hm
  rcases @pushed_of host srv v s s' e id (reach_turning hs) hm with h | ⟨h, b, hg, -⟩
  · exact h.trans hpushed
  · obtain ⟨hnot, cursor, input, hturn, hdec⟩ := sent_turn hs hg
    rcases hq h cursor input hturn with hret | hnone
    · exact absurd (returned_later hr hp hret) hnot
    · exact absurd hdec (hnone b)

theorem accepted_keep (ht : Turning srv s) {s' : St} {e : Ev} (hm : Move host srv v s e s')
    (hg : stage srv s h = some (.accepted id)) : stage srv s' h = some (.accepted id) := by
  obtain ⟨g', hg'⟩ := stage_some hm hg
  cases staged ht hm hg' with
  | same h0 => exact hg'.trans (h0.symm.trans hg)
  | started _ hl _ _ =>
    have := stage_lt hg
    omega
  | answered h0 hp _ _ =>
    cases hg.symm.trans h0
    cases hp

/-- The one turn that runs pushes its batch, if it is accepted. -/
theorem push_path (hr : (machine host srv v).Reach u) (p : (machine host srv v).Path (fun _ _ => True) u w)
    {cursor : BindCursor} {input batch : RecordBatch} (hturn : TurnOf w id h cursor input)
    (hdec : decoded srv cursor input = .ok (some batch)) (hnot : stage srv u h ≠ some (.accepted id))
    (hq : ∀ i cursor input, TurnOf w id i cursor input → i = h ∨ Returned u i)
    (hacc : stage srv w h = some (.accepted id)) : pushed w.log id = pushed u.log id ++ [batch] := by
  let P (s : St) : Prop := (stage srv s h ≠ some (.accepted id) ∧ pushed s.log id = pushed u.log id) ∨
    (stage srv s h = some (.accepted id) ∧ pushed s.log id = pushed u.log id ++ [batch])
  have hw : P w := by
    refine segment (P := P) hr p (fun i c x ht => And.intro (hq i c x ht) ht) (.inl ⟨hnot, rfl⟩) ?_
    intro s s' e hs hp hq hP hm
    have hturning := reach_turning hs
    -- a turn that is about to push is this one
    have only : ∀ i b, stage srv s i = some (.sent id (.ok (some b))) → i = h ∧ b = batch := by
      intro i b hg
      obtain ⟨hni, c, x, ht, hd⟩ := sent_turn hs hg
      obtain ⟨hi, htw⟩ := hq i c x ht
      rcases hi with rfl | hret
      · obtain ⟨⟨_, h1⟩, -⟩ := hturn
        obtain ⟨⟨_, h2⟩, -⟩ := htw
        cases h1.symm.trans h2
        cases hdec.symm.trans hd
        exact ⟨rfl, rfl⟩
      · exact absurd (returned_later hr hp hret) hni
    rcases hP with ⟨hn, hpushed⟩ | ⟨hg, hpushed⟩
    · by_cases hg' : stage srv s' h = some (.accepted id)
      · rcases accepted_of hturning hm hg' with hg | ⟨b, hg, hl⟩
        · exact absurd hg hn
        · obtain ⟨-, rfl⟩ := only h b hg
          exact .inr ⟨hg', by rw [hl, hpushed]⟩
      · refine .inl ⟨hg', ?_⟩
        rcases @pushed_of host srv v s s' e id hturning hm with hl | ⟨i, b, hg, hi⟩
        · exact hl.trans hpushed
        · obtain ⟨rfl, -⟩ := only i b hg
          exact absurd hi hg'
    · refine .inr ⟨accepted_keep hturning hm hg, ?_⟩
      rcases @pushed_of host srv v s s' e id hturning hm with hl | ⟨i, b, hs, -⟩
      · exact hl.trans hpushed
      · obtain ⟨rfl, -⟩ := only i b hs
        cases hg.symm.trans hs
  rcases hw with ⟨hn, -⟩ | ⟨-, hp⟩
  · exact absurd hacc hn
  · exact hp

end Segments

/-! ## What a handler that succeeded did -/

section Results

variable {host : Host} {srv : Service} {v : SessionView} {ctx : CallContext} {s : St} {id : String} {h : Nat}

/-- A turn that was acknowledged pushed its batch, or bound its upload. -/
def Acknowledged (srv : Service) (cursor : BindCursor) (input : RecordBatch) (trail : List ((op : Op) × Ans op)) :
    Prop :=
  match decoded srv cursor input with
  | .error _ => False
  | .ok (some b) => trail = [⟨.hold (.pushUpload cursor.uploadId b), .ok ()⟩]
  | .ok none => ∃ entry reader op x, Binds op ∧ trail = [⟨.hold (.takeUpload cursor.uploadId), .ok entry⟩,
      ⟨.hold (.finishUpload entry.upload), .ok reader⟩, ⟨.job (.statement entry.statementId op), .ok x⟩]

theorem acknowledge_recorded {finished : Bool} {trail : List ((op : Op) × Ans op)}
    {post : List ((op : Op) × Ans op) → Except RpcError Reply → Prop} (h : ∀ r, post trail r) :
    Discipline.recorder.Follows trail (acknowledge ctx finished) post := by
  refine Discipline.follows_seq.mpr (Discipline.follows_lift.mpr ?_)
  cases ctx.emit bindAck with
  | ok u => exact h _
  | error e => exact h _

theorem exchange_recorded (cursor : BindCursor) (input : RecordBatch) :
    Discipline.recorder.Follows [] (exchangeTurn srv ctx cursor input) fun trail r =>
      ∀ reply, r = .ok reply → Acknowledged srv cursor input trail := by
  unfold exchangeTurn Acknowledged decoded
  cases hd : srv.codec.decodeBindTurn input (min cursor.maxBytes maxControlBytes) with
  | error e => simp [cancelBindUpload]
  | ok turn =>
    cases turn with
    | some b =>
      refine Discipline.follows_seq.mpr (Discipline.follows_recover.mpr (follows_hold.mpr ⟨trivial, ?_, ?_⟩))
      · intro u
        exact acknowledge_recorded fun r reply _ => rfl
      · intro e
        simp [cancelBindUpload]
    | none =>
      refine Discipline.follows_seq.mpr (Discipline.follows_mapErr.mpr (Discipline.follows_seq.mpr
        (follows_hold.mpr ⟨trivial, ?_, fun e reply hr => by cases hr⟩)))
      intro entry
      refine Discipline.follows_seq.mpr (follows_hold.mpr ⟨trivial, ?_, fun e reply hr => by cases hr⟩)
      intro reader
      simp only
      cases entry.mode with
      | batch =>
        refine Discipline.follows_seq.mpr (Discipline.follows_lift.mpr ?_)
        cases exactlyOne reader with
        | error e =>
          intro reply hr
          cases hr
        | ok b =>
          refine follows_job.mpr ⟨trivial, ?_, fun e reply hr => by cases hr⟩
          intro x
          exact acknowledge_recorded fun r reply _ => ⟨entry, reader, _, x, trivial, rfl⟩
      | stream =>
        refine follows_job.mpr ⟨trivial, ?_, fun e reply hr => by cases hr⟩
        intro x
        exact acknowledge_recorded fun r reply _ => ⟨entry, reader, _, x, trivial, rfl⟩

/-- What the handler of an acknowledged turn was answered. -/
theorem turn_acknowledged (hr : (machine host srv v).Reach s) {cursor : BindCursor} {input : RecordBatch}
    (ht : TurnOf s id h cursor input) {hd : Handler} {reply : Reply} (hh : s.handlers[h]? = some hd)
    (hp : hd.prog = .done (.ok reply)) : Acknowledged srv cursor input hd.trail := by
  obtain ⟨⟨ctx, hc⟩, -⟩ := ht
  obtain ⟨c, p, hc', hpr, hran⟩ := (reach_serves hr).2 h hd hh
  cases hc.symm.trans hc'
  rw [hp] at hran
  cases shape hpr with
  | exchange _ _ => exact Discipline.ran_recorded (exchange_recorded cursor input) hran reply rfl

/-- An acknowledged turn with a batch was accepted. -/
theorem acknowledged_accepted (hr : (machine host srv v).Reach s) {cursor : BindCursor} {input batch : RecordBatch}
    (ht : TurnOf s id h cursor input) {hd : Handler} {reply : Reply} (hh : s.handlers[h]? = some hd)
    (hp : hd.prog = .done (.ok reply)) (hdec : decoded srv cursor input = .ok (some batch)) :
    stage srv s h = some (.accepted id) := by
  have hack := turn_acknowledged hr ht hh hp
  obtain ⟨⟨ctx, hc⟩, rfl⟩ := ht
  unfold Acknowledged at hack
  rw [hdec] at hack
  refine stage_eq_some.mpr ⟨_, hd, hc, hh, ?_⟩
  rw [hack]
  show Stage.next (.sent cursor.uploadId (decoded srv cursor input)) _ _ = _
  rw [hdec]
  rfl

end Results

/-! ## A call of the client -/

section Call

variable {host : Host} {srv : Service} {v : SessionView} {wire : Wire} {lossy : Prop} {s u w : St}
  {c : StreamCall} {ks : List (Option Nat)}

theorem call_served (hr : (machine host srv v).Reach u) {a : StreamAns c}
    (h : Calls (machine host srv v) (desk srv v wire lossy) u (.call c .done) ks a w) :
    Served host srv v (fun _ => True) StreamCall.invocation (StreamCall.received wire) (fun c a => lossy ∧ c.Lost a) u w c
      ks a := served hr h

theorem turnOf_lt (hr : (machine host srv v).Reach s) {id : String} {h : Nat} {cursor : BindCursor}
    {input : RecordBatch} (ht : TurnOf s id h cursor input) : h < s.handlers.length := by
  obtain ⟨⟨_, hc⟩, -⟩ := ht
  have hlt := (List.getElem?_eq_some_iff.mp hc).1
  rwa [(reach_serves hr).1] at hlt

/-- One turn: it never came to the session, or a handler serves it from `t'` on. -/
theorem turn_run (hr : (machine host srv v).Reach u) {cursor : BindCursor} {turn : RecordBatch} {r : Except AdbcError Unit}
    (hc : Calls (machine host srv v) (desk srv v wire lossy) u (exchange cursor turn) ks r w) :
    ((machine host srv v).Path (fun _ _ => True) u w ∧ ks = [none] ∧ r ≠ .ok ()) ∨
    ∃ t t' h, (machine host srv v).Path (fun _ _ => True) u t ∧ (machine host srv v).Path (fun _ _ => True) t t' ∧
      (machine host srv v).Path (fun _ _ => True) t' w ∧ ks = [some h] ∧ h = t.handlers.length ∧ t'.log = t.log ∧
      TurnOf t' cursor.uploadId h cursor turn ∧
      stage srv t' h = some (.sent cursor.uploadId (decoded srv cursor turn)) ∧
      (r = .ok () → ∃ hd reply, w.handlers[h]? = some hd ∧ hd.prog = .done (.ok reply)) := by
  -- the turn succeeded only if its call was answered with an acknowledgement
  obtain ⟨a, hserved, hack⟩ : ∃ a : StreamAns (.exchange cursor turn),
      Served host srv v (fun _ => True) StreamCall.invocation (StreamCall.received wire) (fun c a => lossy ∧ c.Lost a) u w
        (.exchange cursor turn) ks a ∧ (r = .ok () → ∃ ack, a = .ok ack) := by
    rcases hc.of_seq with ⟨a, t, ks₁, ks₂, rfl, h₁, h₂⟩ | ⟨e, rfl, h₁⟩
    · have hdone : ks₂ = [] ∧ (machine host srv v).Path (fun _ _ => True) t w := by
        cases a with
        | none =>
          cases h₂ with
          | done hp => exact ⟨rfl, hp⟩
        | some ack =>
          cases h₂ with
          | done hp => exact ⟨rfl, hp⟩
      obtain ⟨rfl, hp⟩ := hdone
      rw [List.append_nil]
      exact ⟨_, call_served hr (h₁.idle hp), fun _ => ⟨a, rfl⟩⟩
    · refine ⟨_, call_served hr h₁, ?_⟩
      intro hr
      cases hr
  cases hserved with
  | lost hp hl =>
    refine .inl ⟨hp, rfl, ?_⟩
    intro hok
    obtain ⟨-, e, rfl⟩ := hl
    obtain ⟨ack, hack⟩ := hack hok
    cases hack
  | @handled t t' ctx _ h _ _ _ hp hh hl hst hhd hq hw ha =>
    obtain ⟨hd, hh', htrail⟩ := hhd
    refine .inr ⟨t, t', h, hp, hq, hw, rfl, hh, hl, ⟨⟨ctx, hst⟩, rfl⟩, ?_, ?_⟩
    · refine stage_eq_some.mpr ⟨_, hd, hst, hh', ?_⟩
      rw [htrail]
      rfl
    · intro hok
      obtain ⟨ack, hack⟩ := hack hok
      rcases ha with ⟨hd', r', hh'', hpr, ha⟩ | ⟨-, e, ha⟩
      · cases r' with
        | ok reply => exact ⟨hd', reply, hh'', hpr⟩
        | error e =>
          cases hack.symm.trans ha
      · cases hack.symm.trans ha

end Call

/-! ## The loop -/

section Loop

variable {host : Host} {arrow : Arrow} {derived : Derived} {srv : Service} {v : SessionView} {wire : Wire} {lossy : Prop}
  {u w : St} {cursor : BindCursor} {maxBindBytes : Nat} {items : List (Except AdbcError RecordBatch)} {ks : List (Option Nat)}
  {r : Except AdbcError Unit}

/-- The turns of the upload since `u` are those of `ks`. -/
def Only (u w : St) (id : String) (ks : List (Option Nat)) : Prop :=
  ∀ h cursor input, TurnOf w id h cursor input → some h ∈ ks ∨ Returned u h

/-- A finish turn of the upload among `ks`. -/
def Finishes (srv : Service) (w : St) (id : String) (ks : List (Option Nat)) (h : Nat) : Prop :=
  some h ∈ ks ∧ ∃ cursor input, TurnOf w id h cursor input ∧ decoded srv cursor input = .ok none

/-- What the loop did from `u` to `w`, with what was left of the iterator. -/
structure Looped (srv : Service) (cursor : BindCursor) (items : List (Except AdbcError RecordBatch)) (u w : St)
    (ks : List (Option Nat)) (r : Except AdbcError Unit) : Prop where
  later : ∀ h, some h ∈ ks → u.handlers.length ≤ h
  turns : ∀ h, some h ∈ ks → ∃ turn, TurnOf w cursor.uploadId h cursor turn ∧
    ∀ b, decoded srv cursor turn = .ok (some b) → .ok b ∈ items
  /-- The finish turn is sent when all batches were pushed. -/
  whole : Only u w cursor.uploadId ks → ∀ h, Finishes srv w cursor.uploadId ks h → ∃ batches, items = batches.map .ok ∧
    pushed w.log cursor.uploadId = pushed u.log cursor.uploadId ++ batches ∧
    ∀ i, some i ∈ ks → i = h ∨ Returned w i
  success : r = .ok () → ∃ h hd reply, Finishes srv w cursor.uploadId ks h ∧ w.handlers[h]? = some hd ∧
    hd.prog = .done (.ok reply)

/-- A step that makes no call stopped the loop. -/
theorem looped_stop {e : AdbcError} : Looped srv cursor items u w [] (.error e) where
  later _ h := by cases h
  turns _ h := by cases h
  whole _ _ h := by cases h.1
  success h := by cases h

/-- The turns before `t` are those of the calls before `t`. -/
theorem only_before {t : St} (hr : (machine host srv v).Reach t) {id : String} {ks₁ ks₂ : List (Option Nat)}
    (p : (machine host srv v).Path (fun _ _ => True) t w) (hk : Only u w id (ks₁ ++ ks₂))
    (hl : ∀ h, some h ∈ ks₂ → t.handlers.length ≤ h) : Only u t id ks₁ := by
  intro h c x ht
  rcases hk h c x (turnOf_path hr p ht) with hmem | hret
  · rcases List.mem_append.mp hmem with hmem | hmem
    · exact .inl hmem
    · have hlt := turnOf_lt hr ht
      have := hl h hmem
      omega
  · exact .inr hret

/-- A turn with a batch that was acknowledged pushed it. -/
theorem data_run (hr : (machine host srv v).Reach u) {turn batch : RecordBatch}
    (hc : Calls (machine host srv v) (desk srv v wire lossy) u (exchange cursor turn) ks (.ok ()) w)
    (hdec : ∀ x, decoded srv cursor turn = .ok x → x = some batch) (hk : Only u w cursor.uploadId ks) :
    pushed w.log cursor.uploadId = pushed u.log cursor.uploadId ++ [batch] := by
  rcases turn_run hr hc with ⟨-, -, hne⟩ | ⟨t, t', h, hp, hq, hw, rfl, rfl, hl, hturn, hst, hdone⟩
  · exact absurd rfl hne
  have ht := hr.extend hp
  have ht' := ht.extend hq
  have hturnw := turnOf_path ht' hw hturn
  obtain ⟨hd, reply, hh, hpr⟩ := hdone rfl
  have hdata : decoded srv cursor turn = .ok (some batch) := by
    have hack := turn_acknowledged (ht'.extend hw) hturnw hh hpr
    unfold Acknowledged at hack
    cases hx : decoded srv cursor turn with
    | error e =>
      rw [hx] at hack
      cases hack
    | ok x => rw [hdec x hx]
  have hquiet : pushed t.log cursor.uploadId = pushed u.log cursor.uploadId := by
    refine quiet_path hr hp fun i c x hi => .inl ?_
    rcases hk i c x (turnOf_path ht (hq.trans hw) hi) with hmem | hret
    · have hlt := turnOf_lt ht hi
      cases List.mem_singleton.mp hmem
      omega
    · exact hret
  rw [← hquiet, ← hl]
  refine push_path ht' hw hturnw hdata ?_ ?_ (acknowledged_accepted (ht'.extend hw) hturnw hh hpr hdata)
  · rw [hst]
    intro heq
    cases heq
  · intro i c x hi
    rcases hk i c x hi with hmem | hret
    · exact .inl (Option.some.inj (List.mem_singleton.mp hmem))
    · exact .inr (returned_later hr (hp.trans hq) hret)

/-- The finish turn pushes nothing. -/
theorem finish_run (hr : (machine host srv v).Reach u) {turn : RecordBatch}
    (hc : Calls (machine host srv v) (desk srv v wire lossy) u (exchange cursor turn) ks r w)
    (hdec : decoded srv cursor turn = .ok none) : Looped srv cursor [] u w ks r := by
  rcases turn_run hr hc with ⟨hp, rfl, hne⟩ | ⟨t, t', h, hp, hq, hw, rfl, rfl, hl, hturn, hst, hdone⟩
  · refine ⟨?_, ?_, ?_, fun hok => absurd hok hne⟩
    · intro h hmem
      cases List.mem_singleton.mp hmem
    · intro h hmem
      cases List.mem_singleton.mp hmem
    · intro _ h hfin
      cases List.mem_singleton.mp hfin.1
  have hturnw := turnOf_path ((hr.extend hp).extend hq) hw hturn
  have hpath := (hp.trans hq).trans hw
  have same : ∀ {i}, some i ∈ [some t.handlers.length] → i = t.handlers.length :=
    fun hmem => Option.some.inj (List.mem_singleton.mp hmem)
  refine ⟨?_, ?_, ?_, ?_⟩
  · intro i hmem
    rw [same hmem]
    exact length_path hr hp
  · intro i hmem
    rw [same hmem]
    refine ⟨turn, hturnw, ?_⟩
    intro b hb
    cases hdec.symm.trans hb
  · intro hk i hfin
    refine ⟨[], rfl, ?_, fun j hj => .inl ((same hj).trans (same hfin.1).symm)⟩
    rw [List.append_nil]
    refine quiet_path hr hpath fun j c x hj => ?_
    rcases hk j c x hj with hmem | hret
    · right
      intro b hb
      obtain rfl := same hmem
      obtain ⟨⟨_, h1⟩, -⟩ := hturnw
      obtain ⟨⟨_, h2⟩, -⟩ := hj
      cases h1.symm.trans h2
      cases hdec.symm.trans hb
    · exact .inl hret
  · intro hok
    obtain ⟨hd, reply, hh, hpr⟩ := hdone hok
    exact ⟨_, hd, reply, ⟨List.mem_singleton.mpr rfl, cursor, turn, hturnw, hdec⟩, hh, hpr⟩

/-- The one ticket of a turn. -/
theorem turn_ticket (hr : (machine host srv v).Reach u) {turn : RecordBatch}
    (hc : Calls (machine host srv v) (desk srv v wire lossy) u (exchange cursor turn) ks r w) {i : Nat} (hi : some i ∈ ks) :
    u.handlers.length ≤ i ∧ TurnOf w cursor.uploadId i cursor turn ∧ (r = .ok () → Returned w i) := by
  rcases turn_run hr hc with ⟨-, rfl, -⟩ | ⟨t, t', h, hp, hq, hw, rfl, rfl, -, hturn, -, hdone⟩
  · cases List.mem_singleton.mp hi
  · cases List.mem_singleton.mp hi
    refine ⟨length_path hr hp, turnOf_path ((hr.extend hp).extend hq) hw hturn, ?_⟩
    intro hok
    obtain ⟨hd, reply, hh, hpr⟩ := hdone hok
    exact ⟨hd, _, hh, hpr⟩

/-- A turn of the upload is what its handler was started with. -/
theorem turnOf_unique {id : String} {h : Nat} {c c' : BindCursor} {x x' : RecordBatch} (ht : TurnOf w id h c x)
    (ht' : TurnOf w id h c' x') : c = c' ∧ x = x' := by
  obtain ⟨⟨_, h1⟩, -⟩ := ht
  obtain ⟨⟨_, h2⟩, -⟩ := ht'
  cases h1.symm.trans h2
  exact ⟨rfl, rfl⟩

/-- A turn with a batch, and the loop after it. -/
theorem looped_cons (hr : (machine host srv v).Reach u) {t : St} {turn batch : RecordBatch} {ks₁ ks₂ : List (Option Nat)}
    (h₁ : Calls (machine host srv v) (desk srv v wire lossy) u (exchange cursor turn) ks₁ (.ok ()) t)
    (p : (machine host srv v).Path (fun _ _ => True) t w)
    (hdec : ∀ x, decoded srv cursor turn = .ok x → x = some batch) (h₂ : Looped srv cursor items t w ks₂ r) :
    Looped srv cursor (.ok batch :: items) u w (ks₁ ++ ks₂) r := by
  have ht := hr.extend h₁.path
  have hlen := length_path hr h₁.path
  refine ⟨?_, ?_, ?_, ?_⟩
  · intro i hi
    rcases List.mem_append.mp hi with hi | hi
    · exact (turn_ticket hr h₁ hi).1
    · have := h₂.later i hi
      omega
  · intro i hi
    rcases List.mem_append.mp hi with hi | hi
    · refine ⟨turn, turnOf_path ht p (turn_ticket hr h₁ hi).2.1, ?_⟩
      intro b hb
      cases hdec _ hb
      exact List.mem_cons_self
    · obtain ⟨turn', hturn, hb⟩ := h₂.turns i hi
      exact ⟨turn', hturn, fun b hd => List.mem_cons_of_mem _ (hb b hd)⟩
  · intro hk i hfin
    obtain ⟨hi, c, x, hturn, hnone⟩ := hfin
    have hpushed := data_run hr h₁ hdec (only_before ht p hk h₂.later)
    have hk₂ : Only t w cursor.uploadId ks₂ := by
      intro i c x hi
      rcases hk i c x hi with hmem | hret
      · rcases List.mem_append.mp hmem with hmem | hmem
        · exact .inr ((turn_ticket hr h₁ hmem).2.2 rfl)
        · exact .inl hmem
      · exact .inr (returned_later hr h₁.path hret)
    rcases List.mem_append.mp hi with hi | hi
    · obtain ⟨rfl, rfl⟩ := turnOf_unique hturn (turnOf_path ht p (turn_ticket hr h₁ hi).2.1)
      cases hdec _ hnone
    · obtain ⟨batches, rfl, hl, hrest⟩ := h₂.whole hk₂ i ⟨hi, c, x, hturn, hnone⟩
      refine ⟨batch :: batches, rfl, ?_, ?_⟩
      · rw [hl, hpushed]
        simp
      · intro j hj
        rcases List.mem_append.mp hj with hj | hj
        · exact .inr (returned_later ht p ((turn_ticket hr h₁ hj).2.2 rfl))
        · exact hrest j hj
  · intro hok
    obtain ⟨i, hd, reply, ⟨hi, hfin⟩, hdone⟩ := h₂.success hok
    exact ⟨i, hd, reply, ⟨List.mem_append_right _ hi, hfin⟩, hdone⟩

/-- A turn with a batch that was the last call. -/
theorem looped_last (hr : (machine host srv v).Reach u) {turn batch : RecordBatch} {e : AdbcError}
    (h₁ : Calls (machine host srv v) (desk srv v wire lossy) u (exchange cursor turn) ks (.error e) w)
    (hdec : ∀ x, decoded srv cursor turn = .ok x → x = some batch) :
    Looped srv cursor (.ok batch :: items) u w ks (.error e) := by
  refine ⟨fun i hi => (turn_ticket hr h₁ hi).1, ?_, ?_, fun hok => by cases hok⟩
  · intro i hi
    refine ⟨turn, (turn_ticket hr h₁ hi).2.1, ?_⟩
    intro b hb
    cases hdec _ hb
    exact List.mem_cons_self
  · intro _ i hfin
    obtain ⟨hi, c, x, hturn, hnone⟩ := hfin
    obtain ⟨rfl, rfl⟩ := turnOf_unique hturn (turn_ticket hr h₁ hi).2.1
    cases hdec _ hnone

theorem send_run (hsh : Shared arrow derived srv) (hr : (machine host srv v).Reach u) {logicalBytes encodedBytes : Nat}
    (hc : Calls (machine host srv v) (desk srv v wire lossy) u
      (send arrow derived maxBindBytes cursor items logicalBytes encodedBytes) ks r w) :
    Looped srv cursor items u w ks r := by
  induction items generalizing u logicalBytes encodedBytes ks with
  | nil =>
    have hlast : Calls (machine host srv v) (desk srv v wire lossy) u (exchange cursor (bindTurn [] true)) ks r w := hc
    refine finish_run hr hlast ?_
    unfold decoded
    rw [hsh.codec]
    exact decodeBindTurn_bindTurn [] true
  | cons item items ih =>
    unfold send at hc
    rcases hc.of_lift with ⟨batch, rfl, hb⟩ | ⟨e, -, rfl, rfl, -⟩
    case inr => exact looped_stop
    rcases hb.of_lift with ⟨logical, -, hc⟩ | ⟨e, -, rfl, rfl, -⟩
    case inr => exact looped_stop
    rcases hc.of_lift with ⟨turn, hturn, hc⟩ | ⟨e, -, rfl, rfl, -⟩
    case inr => exact looped_stop
    rcases hc.of_lift with ⟨payload, -, hc⟩ | ⟨e, -, rfl, rfl, -⟩
    case inr => exact looped_stop
    rcases hc.of_lift with ⟨encoded, -, hc⟩ | ⟨e, -, rfl, rfl, -⟩
    case inr => exact looped_stop
    have hdec : ∀ x, decoded srv cursor turn = .ok x → x = some batch := by
      intro x hx
      unfold decoded at hx
      rw [hsh.codec] at hx
      exact decoded_data hsh.lawful (mapError_eq_ok.mp hturn) hx
    rcases hc.of_seq with ⟨⟨⟩, t, ks₁, ks₂, rfl, h₁, h₂⟩ | ⟨e, rfl, h₁⟩
    · exact looped_cons hr h₁ h₂.path hdec (ih (hr.extend h₁.path) h₂)
    · exact looped_last hr h₁ hdec

end Loop

/-! ## The call that opens the exchange -/

section Open

variable {host : Host} {arrow : Arrow} {derived : Derived} {srv : Service} {v : SessionView} {wire : Wire} {lossy : Prop}
  {s u w : St} {id : String} {method : Method} {mode : BindMode} {init : RecordBatch} {ks : List (Option Nat)}

/-- The call of `ks` that started the upload. -/
structure Opens (s : St) (ks : List (Option Nat)) (id : String) (h : Nat) : Prop where
  ticket : some h ∈ ks
  serves : ∃ ctx method request, s.started[h]? = some (ctx, .request method request)
  opened : ∃ hd cursor, s.handlers[h]? = some hd ∧ hd.prog = .done (.ok (.exchange cursor)) ∧ cursor.uploadId = id

/-- The one ticket of the opening call; its handler is not lost where nothing is. -/
theorem open_ticket (hr : (machine host srv v).Reach u) {r : StreamAns (.openExchange method init)}
    (hc : Calls (machine host srv v) (desk srv v wire lossy) u (openExchange method init) ks r w) {h : Nat}
    (hh : some h ∈ ks) :
    ks = [some h] ∧ (∃ ctx, w.started[h]? = some (ctx, .request method (versioned init))) ∧
      ((∃ hd x, w.handlers[h]? = some hd ∧ hd.prog = .done x ∧
        r = StreamCall.received wire (.openExchange method init) x) ∨ (lossy ∧ ∃ e, r = .error e)) := by
  cases call_served (c := .openExchange method init) hr hc with
  | lost _ _ => cases List.mem_singleton.mp hh
  | handled ctx _ _ hp hn _ hst _ hq hw ha =>
    cases List.mem_singleton.mp hh
    exact ⟨rfl, ⟨ctx, serving_path ((hr.extend hp).extend hq) hw hst⟩, ha⟩

theorem open_made (hr : (machine host srv v).Reach u) {r : StreamAns (.openExchange method init)} {cursor : BindCursor}
    (hc : Calls (machine host srv v) (desk srv v wire lossy) u (openExchange method init) ks r w) (hok : r = .ok cursor) :
    ∃ h, some h ∈ ks := by
  cases call_served (c := .openExchange method init) hr hc with
  | lost _ hl =>
    obtain ⟨-, e, rfl⟩ := hl
    cases hok
  | handled _ _ _ _ _ _ _ _ _ _ _ => exact ⟨_, List.mem_singleton.mpr rfl⟩

/-- A client that was given a cursor was given that of its handler. -/
theorem opened_cursor {cursor : BindCursor} {x : Except RpcError Reply}
    (h : (.ok cursor : Except AdbcError BindCursor) = StreamCall.received wire (.openExchange method init) x) :
    x = .ok (.exchange cursor) := by
  cases x with
  | error e => cases h
  | ok reply =>
    cases reply with
    | exchange cursor' =>
      cases h
      rfl
    | unary _ | producer _ _ | acknowledged _ | produced _ _ | drained | cancelled => cases h

/-- `bind` and `bind_stream`. -/
inductive Opening : Method → BindMode → Prop
  | bind : Opening .bind .batch
  | bindStream : Opening .bindStream .stream

theorem bind_program {ctx : CallContext} {request : Request} {p : Do RpcError Reply} (hm : Opening method mode)
    (h : programOn srv v ctx (.request method request) = some p) : p = bindHandler srv mode request v := by
  obtain ⟨_, _, body, hroute, rfl⟩ := routed h
  cases hm with
  | bind =>
    obtain ⟨-, rfl⟩ := getSession_onSession (f := bindHandler srv .batch request) hroute
    rfl
  | bindStream =>
    obtain ⟨-, rfl⟩ := getSession_onSession (f := bindHandler srv .stream request) hroute
    rfl

theorem bind_recorded (hsh : Shared arrow derived srv) {sessionId statementId : String} {schema : Schema}
    {schemaIpc : Bytes} (hs : arrow.encodeSchema schema = .ok schemaIpc) :
    Discipline.recorder.Follows []
      (bindHandler srv mode (versioned (bindInitRequest sessionId statementId schemaIpc)) v) fun trail r =>
        ∀ cursor, r = .ok (.exchange cursor) → ∃ upload,
          ⟨.hold (.startUpload schema srv.maxBindBytes), .ok upload⟩ ∈ trail ∧
          ⟨.hold (.insertUpload ⟨statementId, mode, upload⟩), .ok cursor.uploadId⟩ ∈ trail := by
  have hname : argument [("session_id", .text sessionId), ("statement_id", .text statementId),
    ("schema_ipc", .bytes schemaIpc)] "statement_id" = some (.text statementId) := rfl
  have hbytes : binary (versioned (bindInitRequest sessionId statementId schemaIpc)) "schema_ipc" = .ok schemaIpc :=
    congrArg orProtocol (binaryValue_oneRow rfl)
  have hschema : srv.codec.decodeSchema schemaIpc = .ok schema := by
    rw [hsh.codec]
    exact hsh.schemas schema schemaIpc hs
  unfold bindHandler
  rw [hbytes]
  by_cases hid : Calls.ApiCall.IsHandle statementId
  · unfold bindInitRequest
    rw [(Calls.string_handle hname rfl).1 hid]
    show Discipline.recorder.Follows [] (liftM (orProtocol (srv.codec.decodeSchema schemaIpc)) >>= fun schema =>
      bindOn srv v statementId mode schema : Do RpcError Reply) _
    rw [hschema]
    show Discipline.recorder.Follows [] (bindOn srv v statementId mode schema) _
    simp [bindOn, startBindUpload]
  · obtain ⟨e, he⟩ := (Calls.string_handle hname rfl).2 hid
    unfold bindInitRequest
    rw [he]
    intro cursor hr
    cases hr

theorem start_schema {ipc : Ipc} {disk : Disk} {schema : Schema} {maxBytes : Nat} {upload : BindUpload}
    (h : BindUpload.start ipc disk schema maxBytes = .ok upload) : upload.schema = schema := by
  unfold BindUpload.start at h
  split at h
  · cases h
  split at h
  · cases h
    rfl
  split at h
  · cases h
    rfl
  · cases h
    rfl

/-- The upload that was started is the one that was asked for. -/
theorem open_started (hsh : Shared arrow derived srv) (hr : (machine host srv v).Reach s) (hm : Opening method mode)
    {sessionId statementId : String} {schema : Schema} {schemaIpc : Bytes} (hs : arrow.encodeSchema schema = .ok schemaIpc)
    {h : Nat} {ctx : CallContext} {hd : Handler} {cursor : BindCursor}
    (hst : s.started[h]? = some (ctx, .request method (versioned (bindInitRequest sessionId statementId schemaIpc))))
    (hh : s.handlers[h]? = some hd) (hp : hd.prog = .done (.ok (.exchange cursor))) :
    ∃ entry, Started s.log cursor.uploadId entry ∧ entry.statementId = statementId ∧ entry.mode = mode ∧
      entry.upload.schema = schema := by
  obtain ⟨c, p, hc, hpr, hran⟩ := (reach_serves hr).2 h hd hh
  cases hst.symm.trans hc
  cases bind_program hm hpr
  rw [hp] at hran
  obtain ⟨upload, hstart, hinsert⟩ := Discipline.ran_recorded (bind_recorded hsh hs) hran cursor rfl
  have hnoting := reach_noting hr
  refine ⟨⟨statementId, mode, upload⟩, ?_, rfl, rfl, ?_⟩
  · rcases hnoting.trails h hd _ hh hinsert with ⟨ev, hev, -, hn⟩ | ⟨e, he⟩
    · refine ⟨ev, hev, ?_⟩
      obtain ⟨handler, call, op, answer, calls⟩ := ev
      cases hn
      exact if_pos rfl
    · cases he
  · rcases hnoting.trails h hd _ hh hstart with ⟨ev, hev, -, hn⟩ | ⟨e, he⟩
    · obtain ⟨w, i, ha, -⟩ := reach_performed hr ev hev
      obtain ⟨handler, call, op, answer, calls⟩ := ev
      cases hn
      exact start_schema (ha.symm.trans rfl)
    · cases he

/-- An upload is started once. -/
theorem reach_started (hr : (machine host srv v).Reach s) : (∀ entry, Started s.log id entry → id ∈ s.issued) ∧
    ∀ entry entry', Started s.log id entry → Started s.log id entry' → entry = entry' := by
  refine invariant_of_moves (P := fun s => (∀ entry, Started s.log id entry → id ∈ s.issued) ∧
    ∀ entry entry', Started s.log id entry → Started s.log id entry' → entry = entry') (Q := fun _ => True)
    (fun _ => trivial) ?_ ?_ hr
  · intro policy
    refine ⟨?_, ?_⟩
    · intro entry hs
      obtain ⟨ev, hev, -⟩ := hs
      cases hev
    · intro entry entry' hs
      obtain ⟨ev, hev, -⟩ := hs
      cases hev
  · intro s s' e _ _ _ hi hm
    refine ⟨?_, ?_⟩
    · intro entry hs
      rcases started_of hm hs with h | ⟨-, h, -⟩
      · exact hm.issued_keep (hi.1 entry h)
      · exact h
    · intro entry entry' hs hs'
      rcases started_of hm hs with h | ⟨hf, -, hl⟩
      · rcases started_of hm hs' with h' | ⟨hf', -, -⟩
        · exact hi.2 entry entry' h h'
        · exact absurd (hi.1 entry h) hf'
      · rcases started_of hm hs' with h' | ⟨-, -, hl'⟩
        · exact absurd (hi.1 entry' h') hf
        · cases hl.symm.trans hl'
          rfl

/-- A run in which the upload's turns carry batches of its schema is one on schema. -/
theorem reach_onSchema (hr : (machine host srv v).Reach s) {schema : Schema}
    (hst : ∀ entry, Started s.log id entry → entry.upload.schema = schema)
    (hq : ∀ h cursor input b, TurnOf s id h cursor input → decoded srv cursor input = .ok (some b) → b.schema = schema) :
    (machine host srv v).ReachIn (OnSchema host id) s := by
  obtain ⟨s0, h0, p⟩ := hr
  induction p with
  | refl => exact .init h0
  | @step t e p _ ih =>
    have ht : (machine host srv v).Reach t := ⟨s0, h0, p⟩
    have hone : (machine host srv v).Path (fun _ _ => True) t ((machine host srv v).step t e) :=
      .step e (.refl t) trivial
    have hst' : ∀ entry, Started t.log id entry → entry.upload.schema = schema :=
      fun entry hs => hst entry (BindDelivery.started_path ht hone hs)
    have hq' : ∀ h cursor input b, TurnOf t id h cursor input → decoded srv cursor input = .ok (some b) →
        b.schema = schema := fun h c x b hturn hd => hq h c x b (turnOf_path ht hone hturn) hd
    have hreach := ih hst' hq'
    refine hreach.next e ?_
    cases e with
    | hold h w =>
      intro hd b k entry n hh hp hl _ _ _ _
      obtain ⟨g, hg, htakes⟩ := (reach_turning ht).stage hh
      rw [hp] at htakes
      obtain ⟨rfl, -⟩ := staged_next (a := .ok ()) htakes.1 (if_pos rfl)
      obtain ⟨-, c, x, hturn, hd⟩ := sent_turn ht hg
      obtain ⟨⟨entry0, h0, -, -, hschema⟩, -⟩ := (reach_inv hreach).registered entry hl
      rw [hq' _ c x b hturn hd, hschema, hst' entry0 h0]
    | _ => trivial

end Open

/-! ## The call that cancels the exchange -/

section Cancel

variable {host : Host} {srv : Service} {v : SessionView} {wire : Wire} {lossy : Prop} {s s' u w : St} {e : Ev} {id : String}
  {h : Nat} {ks : List (Option Nat)} {cursor : BindCursor}

/-- The handler `h` serves the cancellation of the exchange. -/
def Cancels (s : St) (cursor : BindCursor) (h : Nat) : Prop := ∃ ctx, s.started[h]? = some (ctx, .exchangeCancel cursor)

/-- The cancellation has done nothing yet, or the upload is gone. -/
def Cancelling (id : String) (h : Nat) (s : St) : Prop :=
  (∃ hd, s.handlers[h]? = some hd ∧ hd.trail = []) ∨ Closed s id

theorem cancelling_move (ht : Turning srv s) (hi : id ∈ s.issued)
    (hst : ∃ cursor, Cancels s cursor h ∧ cursor.uploadId = id) (hm : Move host srv v s e s') (hc : Cancelling id h s) :
    Cancelling id h s' := by
  rcases hc with ⟨hd, hh, htrail⟩ | hc
  case inr => exact .inr (closed_keep hm hc).1
  obtain ⟨x, hx⟩ := hm.handler_some hh
  cases hm.moved hx with
  | same hy =>
    cases hh.symm.trans hy
    exact .inl ⟨hd, hx, htrail⟩
  | started hl _ _ _ =>
    have := (List.getElem?_eq_some_iff.mp hh).1
    omega
  | submitted hy _ _ hx' =>
    cases hh.symm.trans hy
    subst hx'
    exact .inl ⟨_, hx, htrail⟩
  | answered hy hp hx' ha =>
    cases hh.symm.trans hy
    obtain ⟨cursor, ⟨ctx, hc⟩, rfl⟩ := hst
    have htakes := ht.takes h hd _ hh hc
    rw [htrail, hp] at htakes
    cases htakes.1
    exact .inr ⟨hm.issued_keep hi, take_closes ha⟩

/-- A cancellation that returned leaves no upload. -/
theorem cancelled (hr : (machine host srv v).Reach u) (hi : cursor.uploadId ∈ u.issued)
    (hc : Calls (machine host srv v) (desk srv v wire lossy) u (streamCancel cursor) ks (.ok ()) w) :
    (∀ h, some h ∈ ks → Cancels w cursor h) ∧ (¬ lossy → Closed w cursor.uploadId) := by
  have hbind : Calls (machine host srv v) (desk srv v wire lossy) u
      (Prog.bind (.call (.cancel cursor) .done) fun _ => .done (Except.ok () : Except AdbcError Unit)) ks (.ok ()) w := hc
  obtain ⟨x, t, ks₁, ks₂, rfl, h₁, h₂⟩ := hbind.of_bind
  cases h₂ with
  | done hlast =>
  rw [List.append_nil]
  cases call_served (c := .cancel cursor) hr (h₁.idle hlast) with
  | lost _ hl =>
    refine ⟨?_, fun hn => absurd hl.1 hn⟩
    intro h hh
    cases List.mem_singleton.mp hh
  | @handled t t' ctx _ h _ _ _ hp _ _ hst hhd hq hw ha =>
    have ht' := (hr.extend hp).extend hq
    have hstw := serving_path ht' hw hst
    refine ⟨?_, ?_⟩
    · intro i hi
      cases List.mem_singleton.mp hi
      exact ⟨ctx, hstw⟩
    · intro hn
      obtain ⟨hd, r, hh, hpr, -⟩ := ha.resolve_right fun hl => hn hl.1
      have hend : Cancelling cursor.uploadId h w := by
        have hkept : (cursor.uploadId ∈ w.issued ∧ Cancels w cursor h) ∧ Cancelling cursor.uploadId h w := by
          refine path_of_moves (P := fun s => (cursor.uploadId ∈ s.issued ∧ Cancels s cursor h) ∧
            Cancelling cursor.uploadId h s) reach_turning ht' hw ?_ ?_
          · refine ⟨⟨?_, ctx, hst⟩, .inl hhd⟩
            exact path_of_moves (P := fun s => cursor.uploadId ∈ s.issued) (Q := fun _ => True) (fun _ => trivial) hr
              (hp.trans hq) hi fun _ _ _ hi hm => hm.issued_keep hi
          · intro s s' e _ hturn _ hP hm
            obtain ⟨⟨hi, ctx', hc⟩, hcan⟩ := hP
            exact ⟨⟨hm.issued_keep hi, ctx', hm.started_keep hc⟩,
              cancelling_move hturn hi ⟨cursor, ⟨ctx', hc⟩, rfl⟩ hm hcan⟩
        exact hkept.2
      rcases hend with ⟨hd', hh', htrail⟩ | hclosed
      · cases hh.symm.trans hh'
        obtain ⟨c, p, hc', hprog, hran⟩ := (reach_serves (ht'.extend hw)).2 h hd hh
        cases hstw.symm.trans hc'
        rw [htrail, hpr] at hran
        cases shape hprog with
        | exchangeCancel _ =>
          have hcalls : Discipline.recorder.Follows [] (exchangeCancelTurn cursor) fun trail _ => trail ≠ [] := by
            simp [exchangeCancelTurn, cancelBindUpload]
          exact absurd rfl (Discipline.ran_recorded hcalls hran)
      · exact hclosed

end Cancel

/-! ## What was delivered -/

section Delivered

variable {host : Host} {srv : Service} {v : SessionView} {ctx : CallContext} {s u w : St} {id : String} {h : Nat}
  {cursor : BindCursor} {input : RecordBatch}

/-- Only a finish turn takes and reads its upload. -/
def Stage.Reads (turn : Except ProtocolError (Option RecordBatch)) : Stage → Prop
  | .sent _ t => t = turn
  | .took _ _ | .read _ _ _ | .bound _ _ _ => turn = .ok none
  | _ => True

theorem reads_next {turn : Except ProtocolError (Option RecordBatch)} {g : Stage} {op : Op} {a : Ans op}
    (hg : Stage.Reads turn g) (hp : permits g op) : Stage.Reads turn (g.next op a) := by
  cases g with
  | sent id t =>
    cases hg
    match turn, a with
    | .error _, _ | .ok (some _), .ok _ | .ok (some _), .error _ => trivial
    | .ok none, a =>
      cases hp
      cases a <;> trivial
  | took id entry =>
    cases hp
    cases a with
    | ok reader => exact hg
    | error e => trivial
  | read id entry reader => exact hg
  | other =>
    unfold Stage.next
    split <;> trivial
  | opened _ | cancels _ | refused _ => trivial
  | accepted _ | bound _ _ _ | done _ => cases hp

theorem reads {trail : List ((op : Op) × Ans op)} {q : Do RpcError Reply}
    (hr : Discipline.Ran (exchangeTurn srv ctx cursor input) trail q) :
    Stage.Reads (decoded srv cursor input)
      (turner.after (.sent cursor.uploadId (decoded srv cursor input)) trail) := by
  induction hr with
  | start => rfl
  | answer a hr ih =>
    rw [Discipline.after_snoc]
    exact reads_next ih ((exchange_takes cursor input).ran hr).1

theorem delivered_finishes (hr : (machine host srv v).Reach s) {i : Nat} {ev : Event} (hd : Delivery s id i ev) :
    ∃ cursor input, TurnOf s id ev.handler cursor input ∧ decoded srv cursor input = .ok none := by
  obtain ⟨cursor, input, hturn⟩ := hd.turn
  obtain ⟨⟨ctx, hc⟩, rfl⟩ := hturn
  obtain ⟨_, _, entry, reader, _, -, -, -, -, -, -, -, hstage⟩ := delivered hr hd
  refine ⟨cursor, input, ⟨⟨ctx, hc⟩, rfl⟩, ?_⟩
  have hread : ∀ g, stage srv s ev.handler = some g → Stage.Reads (decoded srv cursor input) g := by
    intro g hg
    obtain ⟨c, hd', hc', hh, rfl⟩ := stage_eq_some.mp hg
    cases hc.symm.trans hc'
    obtain ⟨c, p, hc', hpr, hran⟩ := (reach_serves hr).2 _ hd' hh
    cases hc.symm.trans hc'
    cases shape hpr with
    | exchange _ _ => exact reads hran
  rcases hstage with hg | hg
  · exact hread _ hg
  · exact hread _ hg

/-- The driver's call in a bind event. -/
theorem bind_called {ev : Event} (hp : Performed host ev) {sid : String} {op : StatementOp} {a : Ans (.job (.statement sid op))}
    (hn : (⟨ev.op, ev.answer⟩ : (op : Op) × Ans op) = ⟨.job (.statement sid op), a⟩) (hb : Binds op) :
    ev.calls = [.statement sid op a] ∨ (ev.calls = [] ∧ ∃ e, a = .error e) := by
  obtain ⟨w, i, ha, hc⟩ := hp
  obtain ⟨handler, call, op', answer, calls⟩ := ev
  cases hn
  simp only [Op.perform, Job.perform] at ha hc
  have hreach : op.reaches = true := by
    cases op with
    | getOption _ _ => cases hb
    | _ => rfl
  by_cases hmem : sid ∈ i.statements
  · rw [if_pos hmem] at ha hc
    simp only [hreach, if_true] at hc
    left
    simp only [hc, ha, Inner.called, List.drop_left]
  · rw [if_neg hmem] at ha hc
    right
    refine ⟨?_, _, ha⟩
    simpa using hc

end Delivered

/-! ## The whole call -/

section Whole

variable {host : Host} {arrow : Arrow} {derived : Derived} {srv : Service} {v : SessionView} {wire : Wire} {lossy : Prop}
  {maxBindBytes : Nat} {method : Method} {mode : BindMode} {statementId : String} {schema : Schema}
  {items : List (Except AdbcError RecordBatch)} {s t : St} {ks : List (Option Nat)} {r : Except AdbcError Unit}

/-- Nobody else sends turns of the upload. -/
def Private (t : St) (ks : List (Option Nat)) (id : String) : Prop :=
  ∀ h cursor input, TurnOf t id h cursor input → some h ∈ ks

/-- The call carries exactly these batches, one of them in batch mode. -/
def Carrying (mode : BindMode) (schema : Schema) (batches : List RecordBatch) : StatementOp → Prop
  | .bind b => mode = .batch ∧ batches = [b]
  | .bindStream reader => mode = .stream ∧ reader.schema = schema ∧ reader.polled = 0 ∧
    ∀ i, reader.items i = (batches[i]?).map .ok
  | _ => False

/-- The calls of a client whose exchange was opened: the opening one, those of the loop from
    `u` to `w`, and, if the loop failed, the cancellation. -/
structure Exchanged (host : Host) (srv : Service) (v : SessionView) (mode : BindMode) (statementId : String)
    (schema : Schema) (items : List (Except AdbcError RecordBatch)) (u w t : St) (opening : Nat)
    (loop cancels : List (Option Nat)) (cursor : BindCursor) (result : Except AdbcError Unit) : Prop where
  reach : (machine host srv v).Reach u
  serves : ∃ ctx method request, u.started[opening]? = some (ctx, .request method request)
  answered : ∃ hd, u.handlers[opening]? = some hd ∧ hd.prog = .done (.ok (.exchange cursor))
  started : ∃ entry, Started u.log cursor.uploadId entry ∧ entry.statementId = statementId ∧ entry.mode = mode ∧
    entry.upload.schema = schema
  path : (machine host srv v).Path (fun _ _ => True) u w
  looped : Looped srv cursor items u w loop result
  rest : (machine host srv v).Path (fun _ _ => True) w t
  cancelling : ∀ h, some h ∈ cancels → Cancels t cursor h

/-- The upload is in the registry's history. -/
theorem started_issued (hr : (machine host srv v).Reach s) {id : String} (hst : ∃ entry, Started s.log id entry) :
    id ∈ s.issued := by
  obtain ⟨entry, hst⟩ := hst
  exact (reach_started hr).1 entry hst

/-- An exchange that was opened, from the answer to its end. -/
theorem exchanged (hsh : Shared arrow derived srv) (hm : Opening method mode) (hs : (machine host srv v).Reach s)
    {schemaIpc : Bytes} (hschema : arrow.encodeSchema schema = .ok schemaIpc) {u : St} {cursor : BindCursor}
    {ks₁ ks₂ : List (Option Nat)}
    (h₁ : Calls (machine host srv v) (desk srv v wire lossy) s
      (openExchange method (bindInitRequest v.sessionId statementId schemaIpc)) ks₁ (.ok cursor) u)
    (h₂ : Calls (machine host srv v) (desk srv v wire lossy) u
      ((send arrow derived maxBindBytes cursor items 0 0).recover fun e => do
        streamCancel cursor
        .fail e) ks₂ r t) :
    ∃ w opening loop cancels result, ks₁ ++ ks₂ = some opening :: (loop ++ cancels) ∧
      Exchanged host srv v mode statementId schema items u w t opening loop cancels cursor result ∧
      (r = .ok () → result = .ok ()) ∧ (r ≠ .ok () → ¬ lossy → Closed t cursor.uploadId) := by
  have hu := hs.extend h₁.path
  obtain ⟨h, rfl, hserves, hanswered⟩ : ∃ h, ks₁ = [some h] ∧
      (∃ ctx, u.started[h]? =
        some (ctx, .request method (versioned (bindInitRequest v.sessionId statementId schemaIpc)))) ∧
      ∃ hd, u.handlers[h]? = some hd ∧ hd.prog = .done (.ok (.exchange cursor)) := by
    obtain ⟨h, hmem⟩ := open_made hs h₁ rfl
    obtain ⟨hks, hserves, hx⟩ := open_ticket hs h₁ hmem
    rcases hx with ⟨hd, x, hh, hp, hx⟩ | ⟨-, e, he⟩
    · exact ⟨h, hks, hserves, hd, hh, hp.trans (congrArg _ (opened_cursor hx))⟩
    · cases he
  obtain ⟨ctx, hst⟩ := hserves
  obtain ⟨hd, hh, hp⟩ := hanswered
  have hstarted := open_started hsh hu hm hschema hst hh hp
  have made : ∀ {w : St} {loop cancels : List (Option Nat)} {result : Except AdbcError Unit},
      Calls (machine host srv v) (desk srv v wire lossy) u (send arrow derived maxBindBytes cursor items 0 0) loop result w →
      (machine host srv v).Path (fun _ _ => True) w t → (∀ h, some h ∈ cancels → Cancels t cursor h) →
      Exchanged host srv v mode statementId schema items u w t h loop cancels cursor result :=
    fun hl hrest hcan => ⟨hu, ⟨ctx, _, _, hst⟩, ⟨hd, hh, hp⟩, hstarted, hl.path, send_run hsh hu hl, hrest, hcan⟩
  rcases h₂.of_recover with ⟨⟨⟩, rfl, hl⟩ | ⟨e, w, loop, cancels, rfl, hl, hcan⟩
  · refine ⟨t, h, ks₂, [], .ok (), by simp, made hl (.refl t) (fun _ h => by cases h), fun _ => rfl, ?_⟩
    intro hne
    exact absurd rfl hne
  · have hw := hu.extend hl.path
    have hissued : cursor.uploadId ∈ w.issued := by
      obtain ⟨entry, hst, -⟩ := hstarted
      exact started_issued hw ⟨entry, BindDelivery.started_path hu hl.path hst⟩
    rcases hcan.of_seq with ⟨⟨⟩, x, ks₁, ks₂, rfl, hc, hf⟩ | ⟨e', -, hc⟩
    · cases hf with
      | done hlast =>
        rw [List.append_nil]
        obtain ⟨hcancels, hclosed⟩ := cancelled hw hissued (hc.idle hlast)
        refine ⟨w, h, loop, ks₁, .error e, rfl, made hl (hc.path.trans hlast) hcancels, ?_, fun _ => hclosed⟩
        intro hok
        cases hok
    · -- a cancellation is not looked at
      cases hc with
      | call _ _ _ _ hf => cases hf
      | lost _ _ hf => cases hf

section Exchange

variable {opening : Nat} {loop cancels : List (Option Nat)} {cursor : BindCursor} {result : Except AdbcError Unit}
  {u w : St} {id : String} {h i : Nat} {ev : Event}

/-- The opening call is the one that started the upload. -/
theorem Exchanged.opens
    (hx : Exchanged host srv v mode statementId schema items u w t opening loop cancels cursor result)
    (ho : Opens t (some opening :: (loop ++ cancels)) id h) : id = cursor.uploadId := by
  have hw := hx.reach.extend hx.path
  obtain ⟨ctx, method, request, hst⟩ := ho.serves
  obtain ⟨hd, c, hh, hp, rfl⟩ := ho.opened
  rcases List.mem_cons.mp ho.ticket with heq | hmem
  · cases heq
    obtain ⟨hd', hh', hp'⟩ := hx.answered
    have hsame := returned_path hx.reach (hx.path.trans hx.rest) hh' hp'
    cases hh.symm.trans hsame
    cases hp.symm.trans hp'
    rfl
  · rcases List.mem_append.mp hmem with hmem | hmem
    · obtain ⟨turn, hturn, -⟩ := hx.looped.turns h hmem
      obtain ⟨⟨_, hc⟩, -⟩ := turnOf_path hw hx.rest hturn
      cases hst.symm.trans hc
    · obtain ⟨_, hc⟩ := hx.cancelling h hmem
      cases hst.symm.trans hc

/-- The turns of an upload that nobody else knows are those of the loop. -/
theorem Exchanged.turn
    (hx : Exchanged host srv v mode statementId schema items u w t opening loop cancels cursor result)
    (hp : Private t (some opening :: (loop ++ cancels)) cursor.uploadId) {c : BindCursor} {input : RecordBatch}
    (ht : TurnOf t cursor.uploadId h c input) : some h ∈ loop := by
  have hmem := hp h c input ht
  obtain ⟨⟨_, hst⟩, -⟩ := ht
  rcases List.mem_cons.mp hmem with heq | hmem
  · cases heq
    obtain ⟨_, _, _, hc⟩ := hx.serves
    have hc' := serving_path hx.reach (hx.path.trans hx.rest) hc
    cases hst.symm.trans hc'
  · rcases List.mem_append.mp hmem with hmem | hmem
    · exact hmem
    · obtain ⟨_, hc⟩ := hx.cancelling h hmem
      cases hst.symm.trans hc

theorem Exchanged.only
    (hx : Exchanged host srv v mode statementId schema items u w t opening loop cancels cursor result)
    (hp : Private t (some opening :: (loop ++ cancels)) cursor.uploadId) : Only u w cursor.uploadId loop :=
  fun _ _ _ hi => .inl (hx.turn hp (turnOf_path (hx.reach.extend hx.path) hx.rest hi))

/-- Nothing was pushed before the loop. -/
theorem Exchanged.fresh
    (hx : Exchanged host srv v mode statementId schema items u w t opening loop cancels cursor result)
    (hp : Private t (some opening :: (loop ++ cancels)) cursor.uploadId) : pushed u.log cursor.uploadId = [] := by
  obtain ⟨s0, h0, p⟩ := hx.reach
  have hquiet : pushed u.log cursor.uploadId = pushed s0.log cursor.uploadId := by
    refine quiet_path ⟨s0, h0, .refl s0⟩ p fun i c x hi => ?_
    have hlt := turnOf_lt hx.reach hi
    have := hx.looped.later i (hx.turn hp (turnOf_path hx.reach (hx.path.trans hx.rest) hi))
    omega
  obtain ⟨policy, rfl⟩ := h0
  exact hquiet

/-- After its finish turn nothing more is pushed. -/
theorem Exchanged.whole
    (hx : Exchanged host srv v mode statementId schema items u w t opening loop cancels cursor result)
    (hp : Private t (some opening :: (loop ++ cancels)) cursor.uploadId)
    (hf : Finishes srv w cursor.uploadId loop h) :
    ∃ batches, items = batches.map .ok ∧ pushed t.log cursor.uploadId = batches := by
  have hw := hx.reach.extend hx.path
  obtain ⟨batches, rfl, hl, hrest⟩ := hx.looped.whole (hx.only hp) h hf
  refine ⟨batches, rfl, ?_⟩
  rw [hx.fresh hp, List.nil_append] at hl
  rw [← hl]
  refine quiet_path hw hx.rest fun i c x hi => ?_
  rcases hrest i (hx.turn hp hi) with rfl | hret
  · right
    obtain ⟨-, c', x', hturn, hnone⟩ := hf
    obtain ⟨rfl, rfl⟩ := turnOf_unique hi (turnOf_path hw hx.rest hturn)
    intro b hb
    cases hnone.symm.trans hb
  · exact .inl hret

/-- The whole run is one on schema. -/
theorem Exchanged.onSchema
    (hx : Exchanged host srv v mode statementId schema items u w t opening loop cancels cursor result)
    (hp : Private t (some opening :: (loop ++ cancels)) cursor.uploadId) (hsc : ∀ b, .ok b ∈ items → b.schema = schema) :
    (machine host srv v).ReachIn (OnSchema host cursor.uploadId) t := by
  have hw := hx.reach.extend hx.path
  have ht := hw.extend hx.rest
  obtain ⟨entry, hst, -, -, hschema⟩ := hx.started
  have hst' := BindDelivery.started_path hx.reach (hx.path.trans hx.rest) hst
  have hone : ∀ entry', Started t.log cursor.uploadId entry' → entry'.upload.schema = schema := by
    intro entry' h'
    rw [(reach_started ht).2 entry' entry h' hst', hschema]
  refine reach_onSchema ht hone ?_
  intro i c x b hi hd
  obtain ⟨turn, hturn, hb⟩ := hx.looped.turns i (hx.turn hp hi)
  obtain ⟨rfl, rfl⟩ := turnOf_unique hi (turnOf_path hw hx.rest hturn)
  exact hsc b (hb b hd)

/-- What is delivered of the upload is the caller's. -/
theorem Exchanged.delivered (hlaw : host.ipc.Lawful)
    (hx : Exchanged host srv v mode statementId schema items u w t opening loop cancels cursor result)
    (hp : Private t (some opening :: (loop ++ cancels)) cursor.uploadId) (hsc : ∀ b, .ok b ∈ items → b.schema = schema)
    (hd : Delivery t cursor.uploadId i ev) :
    ∃ batches op answer, items = batches.map .ok ∧ Carrying mode schema batches op ∧
      (⟨ev.op, ev.answer⟩ : (op : Op) × Ans op) = ⟨.job (.statement statementId op), answer⟩ ∧
      ev.calls = [.statement statementId op answer] := by
  have hw := hx.reach.extend hx.path
  have ht := hw.extend hx.rest
  have hon := hx.onSchema hp hsc
  obtain ⟨c, input, hturn, hnone⟩ := delivered_finishes ht hd
  have hmem := hx.turn hp hturn
  obtain ⟨turn, hturnw, -⟩ := hx.looped.turns _ hmem
  obtain ⟨rfl, rfl⟩ := turnOf_unique hturn (turnOf_path hw hx.rest hturnw)
  obtain ⟨batches, rfl, hl⟩ := hx.whole hp ⟨hmem, _, _, hturnw, hnone⟩
  obtain ⟨entry, hst, rfl, rfl, rfl⟩ := hx.started
  obtain ⟨op, hop, hcar⟩ :=
    delivered_carries hlaw hon (BindDelivery.started_path hx.reach (hx.path.trans hx.rest) hst) hd
  rw [hl] at hcar
  have hperformed := reach_performed ht ev (List.mem_of_getElem? hd.logged)
  have hcalled := hd.called
  obtain ⟨handler, call, op', answer, calls⟩ := ev
  cases hop
  have hb : Binds op := by
    cases op with
    | bind _ | bindStream _ => trivial
    | _ => cases hcar
  refine ⟨batches, op, answer, rfl, ?_, rfl, ?_⟩
  · cases op with
    | bind _ | bindStream _ => exact hcar
    | _ => cases hcar
  · rcases bind_called hperformed rfl hb with h | ⟨h, -⟩
    · exact h
    · exact absurd h hcalled

/-- A finish turn that was acknowledged delivered the upload. -/
theorem Exchanged.delivery
    (hx : Exchanged host srv v mode statementId schema items u w t opening loop cancels cursor result)
    (hok : result = .ok ()) :
    ∃ i ev sid op x, Delivery t cursor.uploadId i ev ∧
      (⟨ev.op, ev.answer⟩ : (op : Op) × Ans op) = ⟨.job (.statement sid op), .ok x⟩ := by
  have hw := hx.reach.extend hx.path
  have ht := hw.extend hx.rest
  obtain ⟨h, hd, reply, ⟨-, c, input, hturn, hnone⟩, hh, hp⟩ := hx.looped.success hok
  have hturn' := turnOf_path hw hx.rest hturn
  have hh' := returned_path hw hx.rest hh hp
  have hack := turn_acknowledged ht hturn' hh' hp
  unfold Acknowledged at hack
  rw [hnone] at hack
  obtain ⟨entry, reader, op, x, hb, htrail⟩ := hack
  have hmem : (⟨.job (.statement entry.statementId op), .ok x⟩ : (op : Op) × Ans op) ∈ hd.trail := by
    rw [htrail]
    simp
  rcases (reach_noting ht).trails h hd _ hh' hmem with ⟨ev, hev, rfl, hn⟩ | ⟨e, he⟩
  · obtain ⟨i, hi⟩ := List.getElem?_of_mem hev
    refine ⟨i, ev, entry.statementId, op, x, ⟨hi, ⟨c, input, hturn'⟩, ?_, ?_⟩, hn⟩
    · obtain ⟨handler, call, op', answer, calls⟩ := ev
      cases hn
      exact ⟨_, op, rfl, hb⟩
    · rcases bind_called (reach_performed ht ev hev) hn hb with hc | ⟨-, e, he⟩
      · rw [hc]
        exact List.cons_ne_nil _ _
      · cases he
  · cases he

/-- An upload whose finish turn was acknowledged is gone. -/
theorem Exchanged.gone
    (hx : Exchanged host srv v mode statementId schema items u w t opening loop cancels cursor result)
    (hok : result = .ok ()) : Closed t cursor.uploadId := by
  have hw := hx.reach.extend hx.path
  have ht := hw.extend hx.rest
  have hsettled : SettledFrom srv cursor.uploadId u.handlers.length t := by
    refine path_of_moves (P := SettledFrom srv cursor.uploadId u.handlers.length) reach_turning hx.reach
      (hx.path.trans hx.rest) ?_ fun _ hturning _ hs hm => settled_move hturning hm hs
    obtain ⟨entry, hst, -⟩ := hx.started
    refine ⟨started_issued hx.reach ⟨entry, hst⟩, ?_⟩
    intro h g hn hg _
    have := stage_lt hg
    omega
  obtain ⟨h, hd, reply, ⟨hmem, c, input, hturn, hnone⟩, hh, hp⟩ := hx.looped.success hok
  have hh' := returned_path hw hx.rest hh hp
  obtain ⟨g, hd', hh'', hg, hex, hpast, htakes⟩ :=
    finished_past ht ⟨c, input, turnOf_path hw hx.rest hturn, hnone⟩ ⟨hd, _, hh', hp⟩
  cases hh'.symm.trans hh''
  rw [hp] at htakes
  exact ended_settled hpast htakes (hsettled.2 h g (hx.looped.later h hmem) hg hex)

end Exchange

/-- What a call that sent `items` and came to `r` left of its upload. -/
structure Outcome (mode : BindMode) (statementId : String) (schema : Schema) (items : List (Except AdbcError RecordBatch))
    (lossy : Prop) (t : St) (ks : List (Option Nat)) (r : Except AdbcError Unit) (id : String) : Prop where
  whole : Private t ks id → (∀ b, .ok b ∈ items → b.schema = schema) → ∀ i ev, Delivery t id i ev →
    ∃ batches op answer, items = batches.map .ok ∧ Carrying mode schema batches op ∧
      ev.calls = [.statement statementId op answer]
  once : Private t ks id → (∀ b, .ok b ∈ items → b.schema = schema) → ∀ i j ev ev', Delivery t id i ev →
    Delivery t id j ev' → i = j
  success : Private t ks id → (∀ b, .ok b ∈ items → b.schema = schema) → r = .ok () →
    ∃ i ev op x, Delivery t id i ev ∧ ev.calls = [.statement statementId op (.ok x)]
  gone : r = .ok () ∨ ¬ lossy → t.inner.bindUploads.lookup id = none

/-- A call that was not given its cursor sent no turn. -/
theorem outcome_unopened (hs : (machine host srv v).Reach s) {init : RecordBatch} {e : AdbcError} {id : String} {h : Nat}
    (hc : Calls (machine host srv v) (desk srv v wire lossy) s (openExchange method init) ks (.error e) t)
    (ho : Opens t ks id h) : Outcome mode statementId schema items lossy t ks (.error e) id := by
  obtain ⟨rfl, ⟨ctx, hst⟩, hx⟩ := open_ticket (r := .error e) hs hc ho.ticket
  have quiet : Private t [some h] id → ∀ i ev, ¬ Delivery t id i ev := by
    intro hp i ev hd
    obtain ⟨c, input, hturn⟩ := hd.turn
    have hmem := hp _ c input hturn
    obtain ⟨⟨_, hc'⟩, -⟩ := hturn
    cases List.mem_singleton.mp hmem
    cases hst.symm.trans hc'
  refine ⟨?_, ?_, ?_, ?_⟩
  · intro hp _ i ev hd
    exact absurd hd (quiet hp i ev)
  · intro hp _ i j ev ev' hd _
    exact absurd hd (quiet hp i ev)
  · intro _ _ hok
    cases hok
  · intro hg
    -- where nothing is lost, the client was given the cursor
    obtain ⟨hd, c, hh, hp, -⟩ := ho.opened
    rcases hg with hok | hn
    · cases hok
    · rcases hx with ⟨hd', x, hh', hp', hx⟩ | ⟨hl, -⟩
      · cases hh.symm.trans hh'
        cases hp.symm.trans hp'
        cases hx
      · exact absurd hl hn

theorem outcome_opened (hlaw : host.ipc.Lawful) {opening : Nat} {loop cancels : List (Option Nat)} {cursor : BindCursor}
    {result : Except AdbcError Unit} {u w : St} {id : String} {h : Nat}
    (hx : Exchanged host srv v mode statementId schema items u w t opening loop cancels cursor result)
    (ho : Opens t (some opening :: (loop ++ cancels)) id h) (hok : r = .ok () → result = .ok ())
    (hgone : r ≠ .ok () → ¬ lossy → Closed t cursor.uploadId) :
    Outcome mode statementId schema items lossy t (some opening :: (loop ++ cancels)) r id := by
  obtain rfl := hx.opens ho
  refine ⟨?_, ?_, ?_, ?_⟩
  · intro hp hsc i ev hd
    obtain ⟨batches, op, answer, hi, hcar, -, hc⟩ := hx.delivered hlaw hp hsc hd
    exact ⟨batches, op, answer, hi, hcar, hc⟩
  · intro hp hsc i j ev ev' hd hd'
    exact delivered_once (hx.onSchema hp hsc) hd hd'
  · intro hp hsc hr
    obtain ⟨i, ev, sid, op, x, hd, hn⟩ := hx.delivery (hok hr)
    obtain ⟨batches, op', answer, -, -, hn', hc⟩ := hx.delivered hlaw hp hsc hd
    cases hn.symm.trans hn'
    exact ⟨i, ev, op, x, hd, hc⟩
  · intro hg
    by_cases hr : r = .ok ()
    · exact (hx.gone (hok hr)).2
    · exact (hgone hr (hg.resolve_left hr)).2

end Whole

/-- What an application binds is what the driver is given, once and whole, or nothing is: for
    one caller of `bind` or `bind_stream` among any others, over a connection that may lose
    calls and answers. -/
theorem bind_stream_delivery (host : Host) (arrow : Arrow) (derived : Derived) (srv : Service) (v : SessionView)
    (hlaw : host.ipc.Lawful) (hsh : Shared arrow derived srv) (wire : Wire) (lossy : Prop) (maxBindBytes : Nat)
    (method : Method) (mode : BindMode) (hm : Opening method mode) (statementId : String) (schema : Schema)
    (items : List (Except AdbcError RecordBatch)) (s t : St) (ks : List (Option Nat)) (r : Except AdbcError Unit)
    (hs : (machine host srv v).Reach s)
    (hc : Calls (machine host srv v) (desk srv v wire lossy) s
      (bindBatches arrow derived maxBindBytes v.sessionId method statementId schema items) ks r t) :
    (r = .ok () → ∃ id h, Opens t ks id h) ∧
    ∀ id h, Opens t ks id h → Outcome mode statementId schema items lossy t ks r id := by
  rcases hc.of_lift with ⟨schemaIpc, hschema, hc⟩ | ⟨e, -, rfl, rfl, -⟩
  case inr =>
    refine ⟨fun hok => (nomatch hok), ?_⟩
    intro id h ho
    cases ho.ticket
  rcases hc.of_seq with ⟨cursor, u, ks₁, ks₂, rfl, h₁, h₂⟩ | ⟨e, rfl, h₁⟩
  case inr => exact ⟨fun hok => (nomatch hok), fun id h ho => outcome_unopened hs h₁ ho⟩
  obtain ⟨w, opening, loop, cancels, result, hks, hx, hok, hgone⟩ :=
    exchanged hsh hm hs (mapError_eq_ok.mp hschema) h₁ h₂
  rw [hks]
  refine ⟨?_, fun id h ho => outcome_opened hlaw hx ho hok hgone⟩
  intro _
  obtain ⟨ctx, method', request, hst⟩ := hx.serves
  obtain ⟨hd, hh, hp⟩ := hx.answered
  have hpath := hx.path.trans hx.rest
  exact ⟨cursor.uploadId, opening, List.mem_cons_self, ⟨ctx, method', request, serving_path hx.reach hpath hst⟩,
    hd, cursor, returned_path hx.reach hpath hh hp, hp, rfl⟩

/-! A bind of one batch, while the answer to NEW_STATEMENT is on its way. -/

def bindArrow : Arrow :=
  { okArrow with
    batches := .one BindSchema.numbers [schemaFrame.bytes, okFrame.bytes, terminator true]
    encodeSchema := fun schema => if schema = BindSchema.declared then .ok [1] else .error .invalidSchemaMessage
    decodeSchema := fun bytes => if bytes = [1] then .ok BindSchema.declared else .error .invalidSchemaMessage }

def bindService : Service := { smallService with codec := bindArrow.codec okDerived }

def bindMachine : Machine St Ev := machine BindSchema.spoolHost bindService Solo.smallView

def prepared : St :=
  bindMachine.run openedS [asked .newStatement [], .submit 0, .dequeue, .load, .finish (answers "s1"), .reply]

def numbersInit : RecordBatch := bindInitRequest "c" "s1" [1]

def numbersTurn : RecordBatch := bindTurn (stream [schemaFrame, okFrame] true) false

def numbersCursor : BindCursor := ⟨"c", "u", maxBindStreamBytes⟩

def exchangeOpened : St :=
  bindMachine.run (bindMachine.step prepared (.start anonymous (.request .bind (versioned numbersInit))))
    [.hold 1 (answers "a"), .hold 1 (answers "b"), .hold 1 (answers "u")]

def numbersSent : St :=
  bindMachine.run (bindMachine.step exchangeOpened (.start anonymous (.exchange numbersCursor numbersTurn)))
    [.hold 2 (answers "x")]

def numbersBound : St :=
  bindMachine.run (bindMachine.step numbersSent (.start anonymous (.exchange numbersCursor (bindTurn [] true))))
    (.hold 3 (answers "y") :: .hold 3 (answers "z") :: called 3 "w")

theorem bindArrow_shared : Shared bindArrow okDerived bindService := by
  refine ⟨⟨IpcStream.one_lawful ⟨[schemaFrame, okFrame], true, rfl⟩,
    IpcStream.one_lawful ⟨[schemaFrame, okFrame], true, rfl⟩⟩, ⟨fun _ => VgiArrow.none_lawful, ?_⟩, rfl, ?_, fun _ => rfl⟩
  · intro k
    cases k with
    | ok => exact okVgi_lawful
    | session | statement | execute | schema | update | partitions | value => exact VgiArrow.none_lawful
  · intro schema bytes h
    simp only [bindArrow] at h ⊢
    split at h
    · cases h
      rename_i hs
      rw [if_pos rfl, hs]
    · cases h

def numbersDesk : Desk St Ev Nat StreamAns := desk bindService Solo.smallView okWire False

set_option maxRecDepth 8000 in
theorem numbers_opened :
    numbersDesk.begins prepared (.openExchange .bind numbersInit)
      (.start anonymous (.request .bind (versioned numbersInit))) 1 ∧
    numbersDesk.answers exchangeOpened 1 (.openExchange .bind numbersInit) (.ok numbersCursor) :=
  ⟨⟨anonymous, _, trivial, rfl, rfl, rfl⟩, ⟨_, _, rfl, rfl, rfl⟩⟩

set_option maxRecDepth 8000 in
theorem numbers_sent :
    numbersDesk.begins exchangeOpened (.exchange numbersCursor numbersTurn)
      (.start anonymous (.exchange numbersCursor numbersTurn)) 2 ∧
    numbersDesk.answers numbersSent 2 (.exchange numbersCursor numbersTurn) (.ok (some bindAck)) :=
  ⟨⟨anonymous, _, trivial, rfl, rfl, rfl⟩, ⟨_, _, rfl, rfl, rfl⟩⟩

set_option maxRecDepth 8000 in
theorem numbers_bound :
    numbersDesk.begins numbersSent (.exchange numbersCursor (bindTurn [] true))
      (.start anonymous (.exchange numbersCursor (bindTurn [] true))) 3 ∧
    numbersDesk.answers numbersBound 3 (.exchange numbersCursor (bindTurn [] true)) (.ok (some bindAck)) :=
  ⟨⟨anonymous, _, trivial, rfl, rfl, rfl⟩, ⟨_, _, rfl, rfl, rfl⟩⟩

set_option maxRecDepth 8000 in
theorem numbers_calls : Calls bindMachine numbersDesk prepared
    (bindBatches bindArrow okDerived maxBindStreamBytes "c" .bind "s1" BindSchema.declared [.ok BindSchema.numbers])
    [some 1, some 2, some 3] (.ok ()) numbersBound := by
  refine .call (.refl _) numbers_opened.1 (.run _ _) (.inl numbers_opened.2) ?_
  refine .call (.refl _) numbers_sent.1 (.run _ _) (.inl numbers_sent.2) ?_
  exact .call (.refl _) numbers_bound.1 (.run _ _) (.inl numbers_bound.2) (.done (.refl _))

set_option maxRecDepth 8000 in
theorem bind_stream_delivery_numbers :
    Outcome .batch "s1" BindSchema.declared [.ok BindSchema.numbers] False numbersBound [some 1, some 2, some 3] (.ok ())
      "u" ∧
    numbersBound.inner.calls = [.newStatement (.ok ()), .statement "s1" (.bind BindSchema.numbers) (.ok ())] := by
  have hr : bindMachine.Reach prepared := .run (M := bindMachine) ⟨_, rfl⟩ _
  have ho : Opens numbersBound [some 1, some 2, some 3] "u" 1 :=
    ⟨by simp, ⟨anonymous, _, _, rfl⟩, ⟨_, numbersCursor, rfl, rfl, rfl⟩⟩
  refine ⟨?_, rfl⟩
  exact (bind_stream_delivery BindSchema.spoolHost bindArrow okDerived bindService Solo.smallView BindSchema.spool_lawful
    bindArrow_shared okWire False maxBindStreamBytes .bind .batch .bind "s1" BindSchema.declared [.ok BindSchema.numbers]
    prepared numbersBound _ _ hr numbers_calls).2 "u" 1 ho

end Grainlift.Client.Bind
