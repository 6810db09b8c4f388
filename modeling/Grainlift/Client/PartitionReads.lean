/-
  Grainlift.Client.PartitionReads — a partitioned result, from the statement that computed
  it to the connections that read it (`execute_partitions`, `read_partition`,
  adbc-driver-grainlift/src/lib.rs, against service.rs and partitions.rs).

  What EXECUTE_PARTITIONS gives the application are tokens, sealed for the session's target
  and principal. They may be read by another connection, in another session: nothing but
  the token goes from one to the other. Each session has its own run here.

  Proved (`partition_round_trip`): the application has the driver's schema and row count and
  a token for each of the driver's descriptors, in their order; whoever reads a token before
  it expires, in a session of the same target and principal, has its driver read the
  descriptor of that token, and sees what that driver answers.
-/

import Grainlift.Client.ResultStream
import Grainlift.Server.PartitionedExecution

namespace Grainlift.Client.PartitionReads

open Grainlift.Lib Grainlift.Protocol Grainlift.Server Concurrent ResultRuns ResultStream
open Grainlift.Server.Partitions (Signer Sealing Issued)
open Grainlift.Client.Calls (ApiCall Wire Shared Mine versioned unaryDesk Unserved)
open Grainlift.Client.Reader (Remote Tick Item FinishedFirst visible)

section

variable {host : Host} {arrow : Arrow} {derived : Derived} {srv : Service} {v : SessionView} {ctx : CallContext}
  {wire : Wire} {lossy : Prop} {s t : St} {ks : List (Option Nat)} {statementId : String} {parts : PartitionedResult}
  {codec : Partitions.Codec} {signer : Signer} {clock : Nat → Int}

/-! ## The response -/

theorem executePartitions_eq :
    Calls.executePartitions arrow derived v.sessionId statementId =
      .call (⟨.executePartitions, statementRequest v.sessionId statementId⟩ : Calls.Sent) fun r =>
        .done (r >>= Calls.checked arrow derived .executePartitions >>= Calls.partsOf arrow derived) := by
  exact Calls.call_eq Calls.partsOf_lift

/-- A response that was sent is the driver's result with its descriptors sealed. -/
theorem partitionsResponse_ok {result : PartitionedResult} {reply : Reply}
    (h : partitionsResponse srv ctx v result = .ok reply) :
    ∃ schema tokens batch budget left, srv.codec.encodeSchema result.schema = .ok schema ∧ reply = .unary batch ∧
      boundedResponse srv (.partitions result.rowsAffected schema tokens) (responseLimit ctx) = .ok batch ∧
      budget ≤ maxControlBytes ∧ Sealing ctx v budget result.partitions tokens left := by
  obtain ⟨schema, hschema, -⟩ := bind_eq_ok h
  have hschema : srv.codec.encodeSchema result.schema = .ok schema := mapError_eq_ok.mp hschema
  obtain ⟨outcome, hcourse, heq⟩ := @Partitions.partitionsResponse_course srv ctx v result _ hschema
  rw [heq] at h
  obtain ⟨tokens, rfl, hreply⟩ := bind_eq_ok h
  obtain ⟨batch, hb, rfl⟩ := Partitions.unary_ok hreply
  cases hcourse with
  | @completed budget left _ hsum hs =>
    have hlimit : responseLimit ctx ≤ maxControlBytes := Nat.min_le_right _ _
    exact ⟨schema, tokens, batch, budget, left, hschema, rfl, hb, by omega, hs⟩

/-- What the client makes of it. -/
theorem parts_read (hw : Shared arrow derived srv) (hc : codec.Lawful) (hctx : ctx.signer = signer.throughout codec clock)
    {result : PartitionedResult} {batch : RecordBatch} (h : partitionsResponse srv ctx v result = .ok (.unary batch))
    (hp : Calls.partsOf arrow derived batch = .ok parts) :
    parts.schema = result.schema ∧ parts.rowsAffected = result.rowsAffected ∧
      List.Forall₂ (Issued codec signer clock v) result.partitions parts.partitions := by
  obtain ⟨schema, tokens, batch', budget, left, hschema, hbatch, hb, hle, hsealing⟩ := partitionsResponse_ok h
  cases hbatch
  have hdecode : Calls.decodeResponse arrow derived .partitions batch =
      .ok ⟨.partitions result.rowsAffected schema tokens, rfl⟩ :=
    congrArg (Calls.orInternal arrow.platform.unicode)
      (Partitions.boundedResponse_decodes hw.lawful hw.derives hw.codec hb (Nat.min_le_right _ _))
  have hread : arrow.decodeSchema schema = .ok result.schema := by
    rw [hw.codec] at hschema
    exact hw.schemas result.schema schema hschema
  have hparts : Calls.partsOf arrow derived batch = .ok ⟨tokens, result.schema, result.rowsAffected⟩ := by
    unfold Calls.partsOf
    rw [hdecode]
    show (Calls.orInternal arrow.platform.unicode (arrow.decodeSchema schema) >>= fun schema => _) = _
    rw [hread]
    rfl
  cases hparts.symm.trans hp
  exact ⟨rfl, rfl, hsealing.issued hc hctx hle⟩

/-! ## The call -/

theorem executePartitions_recorded (sessionId : String) :
    Discipline.recorder.Follows []
      (executePartitionsHandler srv ctx (versioned (statementRequest sessionId statementId)) v) fun trail r =>
        ∀ reply, r = .ok reply → ∃ result,
          ⟨.job (.statement statementId .executePartitions), .ok result⟩ ∈ trail ∧
            partitionsResponse srv ctx v result = .ok reply := by
  have hname : argument [("session_id", .text sessionId), ("statement_id", .text statementId)] "statement_id" =
    some (.text statementId) := rfl
  unfold executePartitionsHandler
  by_cases hid : ApiCall.IsHandle statementId
  · unfold statementRequest
    rw [(Calls.string_handle hname rfl).1 hid]
    refine Discipline.follows_seq.mpr (Discipline.follows_lift.mpr ?_)
    refine Discipline.follows_seq.mpr (Discipline.follows_mapErr.mpr (follows_job.mpr ⟨trivial, fun _ => ?_, ?_⟩))
    · refine Discipline.follows_seq.mpr (Discipline.follows_mapErr.mpr ?_)
      refine follows_job.mpr ⟨trivial, fun result => ?_, ?_⟩
      · exact fun reply hr => ⟨result, by simp, hr⟩
      · intro e reply hr
        cases hr
    · intro e reply hr
      cases hr
  · obtain ⟨e, he⟩ := (Calls.string_handle hname rfl).2 hid
    unfold statementRequest
    rw [he]
    intro reply hr
    cases hr

theorem unserved_error {sent : Calls.Sent} {a : Calls.Answer sent} {batch : RecordBatch}
    (h : Unserved srv v wire lossy sent a) : a ≠ .ok batch := by
  intro ha
  rcases h with ⟨-, e, rfl⟩ | ⟨ctx, -, -, rfl⟩
  · cases ha
  · unfold Calls.refused at ha
    split at ha
    · cases ha
    · cases ha

/-- A unary call whose response came was served to its end. -/
theorem answered_call (hs : (machine host srv v).Reach s) {sent : Calls.Sent} {a : Calls.Answer sent}
    {batch : RecordBatch} (hcall : Calls (machine host srv v) (unaryDesk srv v wire lossy) s (.call sent .done) ks a t)
    (ha : a = .ok batch) :
    ∃ ctx p h, ∃ hd : Handler, ks = [some h] ∧
      t.started[h]? = some (ctx, .request sent.method (versioned sent.request)) ∧
      programOn srv v ctx (.request sent.method (versioned sent.request)) = some p ∧
      Discipline.Ran p hd.trail (.done (.ok (.unary batch))) ∧ Calls.Accounted t h hd.trail := by
  cases served hs hcall with
  | lost _ hl => exact absurd ha (unserved_error hl)
  | @handled x x' ctx p h _ _ hp hpath _ _ hst _ hq hwt hans =>
    have hx := (hs.extend hpath).extend hq
    have hst := serving_path hx hwt hst
    obtain ⟨hd, hh, hran, haccounted⟩ := Calls.handler_ran (hx.extend hwt) hst hp
    rcases hans with ⟨hd', r, hh', hpr, rfl⟩ | hl
    · cases hh.symm.trans hh'
      rw [hpr] at hran
      cases r with
      | error e => cases ha
      | ok reply =>
        cases reply with
        | unary batch' =>
          cases ha
          exact ⟨ctx, p, h, hd, rfl, hst, hp, hran, haccounted⟩
        | exchange _ | producer _ _ | acknowledged _ | produced _ _ | drained | cancelled => cases ha
    · exact absurd ha (unserved_error hl)

/-- A call that succeeded is the driver's result, read off its response. -/
theorem called_partitions (hs : (machine host srv v).Reach s)
    (hcall : Calls (machine host srv v) (unaryDesk srv v wire lossy) s
      (Calls.executePartitions arrow derived v.sessionId statementId) ks (.ok parts) t) :
    ∃ ctx h result batch, ks = [some h] ∧ (∃ i, t.started[h]? = some (ctx, i)) ∧
      Noted t h ⟨.job (.statement statementId .executePartitions), .ok result⟩ ∧
      partitionsResponse srv ctx v result = .ok (.unary batch) ∧ Calls.partsOf arrow derived batch = .ok parts := by
  rw [executePartitions_eq] at hcall
  have hbind : Calls (machine host srv v) (unaryDesk srv v wire lossy) s
    (Prog.bind (.call (⟨.executePartitions, statementRequest v.sessionId statementId⟩ : Calls.Sent) .done) fun r =>
      .done (r >>= Calls.checked arrow derived .executePartitions >>= Calls.partsOf arrow derived)) ks (.ok parts) t := hcall
  obtain ⟨a, u, ks₁, ks₂, rfl, h₁, h₂⟩ := hbind.of_bind
  generalize hr : (a >>= Calls.checked arrow derived .executePartitions >>= Calls.partsOf arrow derived) = r at h₂
  cases h₂ with
  | done hlast =>
  -- only a response that came is read
  obtain ⟨batch, rfl⟩ : ∃ batch, a = .ok batch := by
    cases a with
    | error e => cases hr
    | ok batch => exact ⟨batch, rfl⟩
  have hparts : Calls.partsOf arrow derived batch = .ok parts := hr
  obtain ⟨ctx, p, h, hd, rfl, hst, hp, hran, haccounted⟩ := answered_call hs (h₁.idle hlast) rfl
  obtain ⟨_, _, body, hroute, rfl⟩ := routed hp
  obtain ⟨-, rfl⟩ := getSession_onSession (f := executePartitionsHandler srv ctx _) hroute
  obtain ⟨result, hmem, hresponse⟩ := Discipline.ran_recorded (executePartitions_recorded v.sessionId) hran _ rfl
  have hnoted : Noted t h ⟨.job (.statement statementId .executePartitions), .ok result⟩ := by
    rcases haccounted _ hmem with hn | ⟨e, he⟩
    · exact hn
    · cases he
  exact ⟨ctx, h, result, batch, by simp, ⟨_, hst⟩, hnoted, hresponse, hparts⟩

end

/-! ## Across sessions -/

/-- The call's handler signs with the service's key, by a clock of its own. -/
def Signs (codec : Partitions.Codec) (signer : Signer) (t : St) (ks : List (Option Nat)) (keeps : (Nat → Int) → Prop) :
    Prop :=
  ∀ (h : Nat) (ctx : CallContext) (i : Invocation), some h ∈ ks → t.started[h]? = some (ctx, i) →
    ∃ clock, ctx.signer = signer.throughout codec clock ∧ keeps clock

/-- The time that is written in the token is not over. -/
def InTime (codec : Partitions.Codec) (token : Bytes) (now : Int) : Prop :=
  0 ≤ now ∧ ∀ claims limit, codec.decode (token.drop 36) limit = .ok claims → now < claims.expiresAtMs

/-- A token that was issued opens until its time is over. -/
theorem opens_inTime {codec : Partitions.Codec} (hc : codec.Lawful) {signer : Signer} {clock : Nat → Int}
    {v v' : SessionView} {descriptor token : Bytes} (hi : Issued codec signer clock v descriptor token)
    (htarget : v'.target = v.target) (hprincipal : v'.principal = v.principal) {now : Int}
    (hn : InTime codec token now) :
    signer.openToken codec now v'.target v'.principal token maxControlBytes = .ok descriptor := by
  obtain ⟨remaining, hseal, hopens⟩ := hi
  obtain ⟨-, -, payload, henc, rfl⟩ := Partitions.sealToken_ok hseal
  have hlt := hn.2 _ payload.length (by
    rw [Partitions.token_parts.2.2.1]
    exact hc.decodes _ _ _ henc _ (Nat.le_refl _))
  exact hopens v' now htarget hprincipal hn.1 hlt

theorem called_issued {host : Host} {arrow : Arrow} {derived : Derived} {srv : Service} (hw : Shared arrow derived srv)
    {v : SessionView} {wire : Wire} {lossy : Prop} {s t : St} {ks : List (Option Nat)} {statementId : String}
    {parts : PartitionedResult} {codec : Partitions.Codec} (hc : codec.Lawful) {signer : Signer}
    (hs : (machine host srv v).Reach s) (hsigns : Signs codec signer t ks fun _ => True)
    (hcall : Calls (machine host srv v) (unaryDesk srv v wire lossy) s
      (Calls.executePartitions arrow derived v.sessionId statementId) ks (.ok parts) t) :
    ∃ h result clock, ks = [some h] ∧ Noted t h ⟨.job (.statement statementId .executePartitions), .ok result⟩ ∧
      parts.schema = result.schema ∧ parts.rowsAffected = result.rowsAffected ∧
      List.Forall₂ (Issued codec signer clock v) result.partitions parts.partitions := by
  obtain ⟨ctx, h, result, batch, rfl, ⟨i, hst⟩, hnoted, hresponse, hparts⟩ := called_partitions hs hcall
  obtain ⟨clock, hsigner, -⟩ := hsigns h ctx i (List.mem_singleton.mpr rfl) hst
  obtain ⟨hschema, hrows, hissued⟩ := parts_read hw hc hsigner hresponse hparts
  exact ⟨h, result, clock, rfl, hnoted, hschema, hrows, hissued⟩

/-- A partitioned result, and one of its tokens read in another session. -/
def Reads (t t' : St) (ks ks' : List (Option Nat)) (statementId : String) (parts : PartitionedResult) (i : Nat)
    (schema : Schema) (n : Nat) (see : Nat → Option Item) : Prop :=
  ∃ h result, ks = [some h] ∧ Noted t h ⟨.job (.statement statementId .executePartitions), .ok result⟩ ∧
    parts.schema = result.schema ∧ parts.rowsAffected = result.rowsAffected ∧
    parts.partitions.length = result.partitions.length ∧
    ∃ h' descriptor reader, ks' = [some h'] ∧ result.partitions[i]? = some descriptor ∧
      Noted t' h' ⟨.job (.connection (.readPartition descriptor)), .ok reader⟩ ∧ reader.schema = schema ∧
      Shows (ahead reader) n see

/-- What an application has of `execute_partitions`, and what a second session of the same
    target and principal is given for one of its tokens, each session in a run of its own: a
    token a descriptor, in order; and until the token's time is over its reader's driver is
    asked for that descriptor, whose batches are seen. -/
theorem partition_round_trip (host host' : Host) (arrow : Arrow) (derived : Derived) (srv : Service)
    (hw : Shared arrow derived srv) (codec : Partitions.Codec) (hc : codec.Lawful) (signer : Signer) (v v' : SessionView)
    (wire wire' : Wire) (lossy lossy' : Prop) (s t s' t' w : St) (ks ks' ks'' : List (Option Nat)) (statementId : String)
    (parts : PartitionedResult) (i : Nat) (token : Bytes) (id : String) (schema : Schema) (n : Nat)
    (r : Except AdbcError (List Tick)) (remote : Remote)
    (hs : (machine host srv v).Reach s) (hs' : (machine host' srv v').Reach s')
    (htarget : v'.target = v.target) (hprincipal : v'.principal = v.principal)
    (hsigns : Signs codec signer t ks fun _ => True)
    (hsigns' : Signs codec signer t' ks' fun clock => InTime codec token (clock maxControlBytes))
    (hexecute : Calls (machine host srv v) (unaryDesk srv v wire lossy) s
      (Calls.executePartitions arrow derived v.sessionId statementId) ks (.ok parts) t)
    (htoken : parts.partitions[i]? = some token)
    (hpartition : Calls (machine host' srv v') (unaryDesk srv v' wire' lossy') s'
      ((ApiCall.readPartition token).client arrow derived v'.sessionId) ks' (.ok (id, schema)) t')
    (hread : Calls (machine host' srv v') (readDesk srv v' wire') t' (readResult v'.sessionId id n) ks'' r w)
    (hlog : w.log.length < 2 ^ 63) (hserves : Serves remote r) (hfirst : ¬ FinishedFirst remote) :
    Reads t t' ks ks' statementId parts i schema n (visible remote id schema) := by
  obtain ⟨h, result, clock, rfl, hnoted, hschema, hrows, hissued⟩ := called_issued hw hc hs hsigns hexecute
  refine ⟨h, result, rfl, hnoted, hschema, hrows, hissued.length_eq.symm, ?_⟩
  -- the descriptor of this token
  obtain ⟨hi, rfl⟩ := List.getElem?_eq_some_iff.mp htoken
  have hi' : i < result.partitions.length := hissued.length_eq ▸ hi
  have htoken : Issued codec signer clock v result.partitions[i] parts.partitions[i] :=
    List.forall₂_iff_get.mp hissued |>.2 i hi' hi
  obtain ⟨ctx, h', owner, reader, note, -, rfl, ⟨_, hst⟩, hnote, hdriver, hschema', hreg⟩ :=
    called_result hw hs' hpartition rfl
  obtain ⟨clock', hsigner, hintime⟩ := hsigns' h' ctx _ (List.mem_singleton.mpr rfl) hst
  have hopened : ctx.signer.openToken v'.target v'.principal parts.partitions[i] maxControlBytes =
      .ok result.partitions[i] := by
    rw [hsigner]
    exact opens_inTime hc htoken htarget hprincipal hintime
  simp only [driverAnswer, hopened, Option.some.injEq] at hnote
  subst hnote
  have hseen := readResult_run (hs'.extend hpartition.path) hreg hlog hread
  exact ⟨h', _, reader, rfl, List.getElem?_eq_getElem hi', hdriver, hschema',
    shows_visible hserves hfirst hseen id schema⟩

/-! Alice's driver gives one descriptor twice; a second session of hers reads the second token. -/

def partsVgi : VgiArrow ResponseKind.partitions.Record where
  arrowDataType :=
    .struct (.cons "rows_affected" false [] .int64 (.cons "schema_ipc" false [] .binary
      (.cons "partitions" false [] (.list "item" true [] .binary) .nil)))
  buildSingleton
    | ⟨.partitions rowsAffected schemaIpc partitions, _⟩ =>
      .ok (.struct [true] (.cons "rows_affected" false [] (.int64 [some rowsAffected])
        (.cons "schema_ipc" false [] (.binary [some schemaIpc])
          (.cons "partitions" false []
            (.list "item" true [] [true] [0, partitions.length] (.binary (partitions.map some))) .nil))))
  read a _ :=
    match a with
    | .struct _ (.cons _ _ _ (.int64 [some rowsAffected]) (.cons _ _ _ (.binary [some schemaIpc])
        (.cons _ _ _ (.list _ _ _ _ _ (.binary rows)) .nil))) =>
      .ok ⟨.partitions rowsAffected schemaIpc (rows.filterMap id), rfl⟩
    | _ => .error "unsupported"

theorem partsVgi_lawful : partsVgi.Lawful := by
  refine ⟨?_, ?_⟩
  · intro r a h
    obtain ⟨r, hr⟩ := r
    cases r with
    | partitions rowsAffected schemaIpc partitions =>
      cases h
      exact ⟨rfl, rfl⟩
    | ok | session | statement | execute | schema | update | value => cases hr
  · intro r a h
    obtain ⟨r, hr⟩ := r
    cases r with
    | partitions rowsAffected schemaIpc partitions =>
      cases h
      simp [partsVgi]
    | ok | session | statement | execute | schema | update | value => cases hr

def partsDerived : Derived where
  request _ := .none
  response
    | .execute => executeVgi
    | .partitions => partsVgi
    | .ok | .session | .statement | .schema | .update | .value => .none

def partsFrame : Frame lastByte := Options.bodyFrame [2, 0, 0, 0, 0, 0, 0, 0] rfl

/-- The first stream at what it knows, the second elsewhere. -/
def orElse {β : Type} (x y : IpcStream β) : IpcStream β where
  memorySize := x.memorySize
  writes b := x.writes b <|> y.writes b
  reads bytes := x.reads bytes <|> y.reads bytes

theorem orElse_lawful {β : Type} {x y : IpcStream β} {p : Platform} {bodyLength : Bytes → Option Int64}
    (hx : x.Lawful p bodyLength) (hy : y.Lawful p bodyLength)
    (h : ∀ b chunks, y.writes b = .ok chunks → ∃ e, x.reads chunks.flatten = .error e) :
    (orElse x y).Lawful p bodyLength := by
  have hwrites : ∀ b chunks, (orElse x y).writes b = .ok chunks →
      x.writes b = .ok chunks ∨ y.writes b = .ok chunks := by
    intro b chunks hw
    show x.writes b = .ok chunks ∨ y.writes b = .ok chunks
    simp only [orElse] at hw
    cases hb : x.writes b with
    | ok _ =>
      rw [hb] at hw
      exact .inl hw
    | error _ =>
      rw [hb] at hw
      exact .inr hw
  have hreads : ∀ bytes decoded, (orElse x y).Holds bytes decoded →
      x.Holds bytes decoded ∨ y.Holds bytes decoded := by
    intro bytes decoded hr
    obtain ⟨next, hr, hnext⟩ := hr
    simp only [orElse] at hr
    cases hb : x.reads bytes with
    | ok _ =>
      rw [hb] at hr
      exact .inl ⟨next, hb.trans hr, hnext⟩
    | error _ =>
      rw [hb] at hr
      exact .inr ⟨next, hr, hnext⟩
  refine ⟨?_, ?_, ?_⟩
  · intro b chunks hw
    exact (hwrites b chunks hw).elim (hx.framed b chunks) (hy.framed b chunks)
  · intro b chunks hw
    rcases hwrites b chunks hw with hw | hw
    · obtain ⟨decoded, ⟨next, hr, hnext⟩, hd⟩ := hx.inverse b chunks hw
      refine ⟨decoded, ⟨next, ?_, hnext⟩, hd⟩
      simp only [orElse, hr]
      rfl
    · obtain ⟨decoded, ⟨next, hr, hnext⟩, hd⟩ := hy.inverse b chunks hw
      obtain ⟨e, he⟩ := h b chunks hw
      refine ⟨decoded, ⟨next, ?_, hnext⟩, hd⟩
      simp only [orElse, he, hr]
      rfl
  · intro bytes decoded hr
    exact (hreads bytes decoded hr).elim (hx.memory bytes decoded) (hy.memory bytes decoded)

def partsReply : RecordBatch := envelope "result" (stream [schemaFrame, partsFrame] true)

def partsArrow : Arrow :=
  { typesArrow with
    batches := orElse typesArrow.batches (.one partsReply [schemaFrame.bytes, partsFrame.bytes, terminator true])
    records := orElse typesArrow.records (.one ⟨1, .cons "rows_affected" false [] (.int64 [some (-1)])
      (.cons "schema_ipc" false [] (.binary [some [1]]) (.cons "partitions" false []
        (.list "item" true [] [true] [0, 2] (.binary [some Partitions.aliceToken, some Partitions.aliceToken])) .nil))⟩
      [schemaFrame.bytes, partsFrame.bytes, terminator true]) }

def partsService : Service := { smallService with codec := partsArrow.codec partsDerived }

theorem partsArrow_shared : Shared partsArrow partsDerived partsService := by
  have hframed : Framed lastByte [schemaFrame.bytes, partsFrame.bytes, terminator true].flatten :=
    ⟨[schemaFrame, partsFrame], true, rfl⟩
  refine ⟨⟨orElse_lawful typesArrow_shared.lawful.batches (IpcStream.one_lawful hframed) ?_,
    orElse_lawful typesArrow_shared.lawful.records (IpcStream.one_lawful hframed) ?_⟩,
    ⟨fun _ => VgiArrow.none_lawful, ?_⟩, rfl, typesArrow_shared.schemas, fun _ => rfl⟩
  · intro b chunks hw
    obtain ⟨-, rfl⟩ := IpcStream.one_writes hw
    exact ⟨_, rfl⟩
  · intro b chunks hw
    obtain ⟨-, rfl⟩ := IpcStream.one_writes hw
    exact ⟨_, rfl⟩
  · intro k
    cases k with
    | execute => exact executeVgi_lawful
    | partitions => exact partsVgi_lawful
    | ok | session | statement | schema | update | value => exact VgiArrow.none_lawful

def aliceMachine : Machine St Ev := machine Solo.smallHost partsService Partitions.aliceView

def alicePrepared : St :=
  aliceMachine.run (aliceMachine.step openedS (.start Partitions.aliceContext
    (.request .newStatement (versioned (sessionRequest "c"))))) (called 0 "s")

def partsAnswered : St :=
  aliceMachine.run (aliceMachine.step alicePrepared (.start Partitions.aliceContext
    (.request .executePartitions (versioned (statementRequest "c" "s")))))
    (called 1 "a" ++ [.submit 1, .dequeue, .load, .finish
      ⟨{ willing with partitions := .ok ⟨[[0, 255], [0, 255]], Reader.noColumns, -1⟩ }, .fine, "b"⟩, .reply, .recv 1])

theorem aliceView_mine : Mine partsService Partitions.aliceContext Partitions.aliceView :=
  ⟨rfl, by decide, by unfold ApiCall.IsText; decide⟩

set_option maxRecDepth 8000 in
theorem parts_called : Calls aliceMachine (unaryDesk partsService Partitions.aliceView Calls.okWire False) alicePrepared
    (Calls.executePartitions partsArrow partsDerived "c" "s") [some 1]
    (.ok ⟨[Partitions.aliceToken, Partitions.aliceToken], Reader.noColumns, -1⟩) partsAnswered := by
  have hbegins : (unaryDesk partsService Partitions.aliceView Calls.okWire False).begins alicePrepared
      ⟨.executePartitions, statementRequest "c" "s"⟩ (.start Partitions.aliceContext
        (.request .executePartitions (versioned (statementRequest "c" "s")))) 1 :=
    ⟨Partitions.aliceContext, _, aliceView_mine, rfl, rfl, rfl⟩
  have hanswers : (unaryDesk partsService Partitions.aliceView Calls.okWire False).answers partsAnswered 1
      ⟨.executePartitions, statementRequest "c" "s"⟩ (.ok partsReply) := ⟨_, _, rfl, rfl, rfl⟩
  exact .call (.refl _) hbegins (.run _ _) (.inl hanswers) (.done (.refl _))

/-- The other session, in the last millisecond of the tokens. -/
def otherView : SessionView := ⟨"d", "bearer\x00alice", "main", .new false [] []⟩

def lateContext : CallContext :=
  { Partitions.aliceContext with signer := Partitions.foldingSigner.throughout Partitions.oneRecord fun _ => 60999 }

def otherMachine : Machine St Ev := machine Solo.smallHost partsService otherView

def partitionAnswered : St :=
  otherMachine.run (otherMachine.step openedS (.start lateContext
    (.request .readPartition (versioned (connectionBinaryRequest "d" Partitions.aliceToken)))))
    ([.submit 0, .dequeue, .load, .finish ⟨{ willing with reader := .ok typesReader }, .fine, "a"⟩, .reply, .recv 0] ++
      called 0 "r")

def partitionOpened : St :=
  otherMachine.run (otherMachine.step partitionAnswered
    (.start lateContext (.request .readResult (versioned (readResultRequest "d" "r" 0))))) (called 1 "b")

def partitionRead : St :=
  otherMachine.run (otherMachine.step partitionOpened (.start lateContext (.produce ⟨"d", "r", 0⟩))) (called 2 "e")

theorem otherView_mine : Mine partsService lateContext otherView := ⟨rfl, by decide, by unfold ApiCall.IsText; decide⟩

set_option maxRecDepth 8000 in
theorem partition_called : Calls otherMachine (unaryDesk partsService otherView Calls.okWire False) openedS
    ((ApiCall.readPartition Partitions.aliceToken).client partsArrow partsDerived "d") [some 0]
    (.ok ("r", Reader.noColumns)) partitionAnswered := by
  have hbegins : (unaryDesk partsService otherView Calls.okWire False).begins openedS
      ⟨.readPartition, connectionBinaryRequest "d" Partitions.aliceToken⟩ (.start lateContext
        (.request .readPartition (versioned (connectionBinaryRequest "d" Partitions.aliceToken)))) 0 :=
    ⟨lateContext, _, otherView_mine, rfl, rfl, rfl⟩
  have hanswers : (unaryDesk partsService otherView Calls.okWire False).answers partitionAnswered 0
      ⟨.readPartition, connectionBinaryRequest "d" Partitions.aliceToken⟩ (.ok typesReply) := ⟨_, _, rfl, rfl, rfl⟩
  exact .call (.refl _) hbegins (.run _ _) (.inl hanswers) (.done (.refl _))

set_option maxRecDepth 8000 in
theorem partition_read : Calls otherMachine (readDesk partsService otherView Calls.okWire) partitionAnswered
    (readResult "d" "r" 1) [some 1, some 2] (.ok [.batch (Reader.rows 1)]) partitionRead := by
  have hopens : (readDesk partsService otherView Calls.okWire).begins partitionAnswered
      (.openProducer (readResultRequest "d" "r" 0))
      (.start lateContext (.request .readResult (versioned (readResultRequest "d" "r" 0)))) 1 :=
    ⟨lateContext, _, trivial, rfl, rfl, rfl⟩
  have hopened : (readDesk partsService otherView Calls.okWire).answers partitionOpened 1
      (.openProducer (readResultRequest "d" "r" 0)) (.ok ⟨"d", "r", 0⟩) := ⟨_, _, rfl, rfl, rfl⟩
  have hticks : (readDesk partsService otherView Calls.okWire).begins partitionOpened (.tick ⟨"d", "r", 0⟩)
      (.start lateContext (.produce ⟨"d", "r", 0⟩)) 2 := ⟨lateContext, _, trivial, rfl, rfl, rfl⟩
  have hticked : (readDesk partsService otherView Calls.okWire).answers partitionRead 2 (.tick ⟨"d", "r", 0⟩)
      (.ok (some (Reader.rows 1, ⟨"d", "r", 1⟩))) := ⟨_, _, rfl, rfl, rfl⟩
  refine .call (.refl _) hopens (.run _ _) (.inl hopened) ?_
  exact .call (.refl _) hticks (.run _ _) (.inl hticked) (.done (.refl _))

def partitionRemote : Remote where
  isHttp := true
  opened := .ok ()
  replies n := if n = 0 then .batch (Reader.rows 1) (some "t") false else .ended
  ticks _ := .ended

theorem partitionRemote_serves : Serves partitionRemote (.ok [.batch (Reader.rows 1)]) := by
  refine ⟨rfl, fun ticks h => ?_⟩
  cases h
  refine ⟨?_, ?_⟩
  · intro j tick hj
    match j with
    | 0 =>
      cases hj
      rfl
    | j + 1 => cases hj
  · intro j b hj hm
    match j with
    | 0 => cases hm
    | j + 1 => cases hj

theorem alicePrepared_reach : aliceMachine.Reach alicePrepared := by
  have h : aliceMachine.Reach openedS := ⟨openedS, ⟨_, rfl⟩, .refl _⟩
  exact (h.next _).extend (.run _ _)

theorem alice_signs : Signs Partitions.oneRecord Partitions.foldingSigner partsAnswered [some 1] fun _ => True := by
  intro h ctx i hk hst
  cases List.mem_singleton.mp hk
  cases hst
  exact ⟨fun _ => 1000, rfl, trivial⟩

theorem aliceToken_inTime : InTime Partitions.oneRecord Partitions.aliceToken 60999 := by
  refine ⟨by decide, fun claims limit h => ?_⟩
  have hclaims : claims = Partitions.aliceClaims := by
    unfold Partitions.oneRecord at h
    simp only at h
    split at h
    · cases h
      rfl
    · cases h
  rw [hclaims]
  decide

set_option maxRecDepth 8000 in
theorem other_signs : Signs Partitions.oneRecord Partitions.foldingSigner partitionAnswered [some 0] fun clock =>
    InTime Partitions.oneRecord Partitions.aliceToken (clock maxControlBytes) := by
  intro h ctx i hk hst
  cases List.mem_singleton.mp hk
  cases hst
  exact ⟨fun _ => 60999, rfl, aliceToken_inTime⟩

set_option maxRecDepth 8000 in
theorem partition_round_trip_alice :
    Reads partsAnswered partitionAnswered [some 1] [some 0] "s"
      ⟨[Partitions.aliceToken, Partitions.aliceToken], Reader.noColumns, -1⟩ 1 Reader.noColumns 1
      (visible partitionRemote "r" Reader.noColumns) := by
  have hfirst : ¬ FinishedFirst partitionRemote := by
    intro h
    obtain ⟨-, -, b, token, h⟩ := h
    cases h
  exact partition_round_trip Solo.smallHost Solo.smallHost partsArrow partsDerived partsService partsArrow_shared
    Partitions.oneRecord Partitions.oneRecord_lawful Partitions.foldingSigner Partitions.aliceView otherView Calls.okWire
    Calls.okWire False False alicePrepared partsAnswered openedS partitionAnswered partitionRead [some 1] [some 0] _ "s" _ 1
    Partitions.aliceToken "r" Reader.noColumns 1 _ partitionRemote alicePrepared_reach
    ⟨openedS, ⟨_, rfl⟩, .refl _⟩ rfl rfl alice_signs other_signs parts_called rfl partition_called partition_read
    (by decide) partitionRemote_serves hfirst

end Grainlift.Client.PartitionReads
