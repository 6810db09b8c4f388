/-
  Grainlift.Server.PartitionedExecution — EXECUTE_PARTITIONS: a token for each descriptor,
  or none.

  The handler seals the descriptors one after the other, each under what the schema and the
  tokens before it left of the response limit. Both subtractions are checked: `Sealing` is
  the loop with its budget split exactly, and `Course` is all that can become of it.

  Every `seal` reads the clock for itself. The budget goes down with every token, so a
  clock that is read at a budget (`Signer.throughout`) is one read anew by every call.

  Proved (`partitioned_execution`): a response that is sent has one token a descriptor, in
  order; schema and tokens keep to the limit, so READ_PARTITION's own limit admits each of
  them, and it opens to its descriptor in every session of the same target and principal
  until it expires. Where a token does not fit, the call fails and no token leaves.
  `claimsCodec_lawful` is what is assumed of the record codec, for the one Arrow gives.
-/

import Grainlift.Protocol.Records
import Grainlift.Server.Partitions
import Grainlift.Server.Solo
import Mathlib.Data.List.Forall2

namespace Grainlift.Server.Partitions

open Grainlift.Lib Grainlift.Protocol Grainlift.Server.Solo

/-- The signer as it answers one handler: `clock` is what a call with that limit reads. -/
def Signer.throughout (codec : Codec) (signer : Signer) (clock : Nat → Int) : PartitionSigner where
  sealToken target principal descriptor limit :=
    signer.sealToken codec (clock limit) target principal descriptor limit
  openToken target principal token limit := signer.openToken codec (clock limit) target principal token limit

/-! ## The loop -/

section Loop

variable (ctx : CallContext) (v : SessionView)

/-- The tokens of some descriptors, sealed out of a budget that is split exactly. -/
inductive Sealing : Nat → List Bytes → List Bytes → Nat → Prop
  | nil {left : Nat} : Sealing left [] [] left
  | cons {remaining left left' : Nat} {descriptor token : Bytes} {rest tokens : List Bytes} :
      ctx.signer.sealToken v.target v.principal descriptor remaining = .ok token →
      left + (token.length + sizeOfBytes) = remaining → Sealing left rest tokens left' →
      Sealing remaining (descriptor :: rest) (token :: tokens) left'

/-- The next token cannot be sealed in what is left, or does not fit into it. -/
inductive Stuck (left : Nat) (descriptor : Bytes) : RpcError → Prop
  | unsealed {e : AdbcError} : ctx.signer.sealToken v.target v.principal descriptor left = .error e →
      Stuck left descriptor (.adbc e)
  | tooLong {token : Bytes} : ctx.signer.sealToken v.target v.principal descriptor left = .ok token →
      left < token.length + sizeOfBytes → Stuck left descriptor partitionsExceed

/-- What becomes of the descriptors under a limit. -/
inductive Course (limit : Nat) (schema : Bytes) (descriptors : List Bytes) : Except RpcError (List Bytes) → Prop
  | noRoom : limit < schema.length → Course limit schema descriptors (.error partitionsExceed)
  | stopped {budget left : Nat} {done rest tokens : List Bytes} {descriptor : Bytes} {e : RpcError} :
      budget + schema.length = limit → descriptors = done ++ descriptor :: rest → Sealing ctx v budget done tokens left →
      Stuck ctx v left descriptor e → Course limit schema descriptors (.error e)
  | completed {budget left : Nat} {tokens : List Bytes} :
      budget + schema.length = limit → Sealing ctx v budget descriptors tokens left →
      Course limit schema descriptors (.ok tokens)

variable {ctx v} {remaining left : Nat} {descriptors tokens : List Bytes} {schema : Bytes} {limit : Nat}

theorem sealPartitions_stuck {descriptor : Bytes} {e : RpcError} (h : Stuck ctx v left descriptor e)
    (rest : List Bytes) : sealPartitions ctx v (descriptor :: rest) left = .error e := by
  cases h with
  | unsealed h =>
    unfold sealPartitions
    rw [h]
    rfl
  | tooLong h hlt =>
    unfold sealPartitions
    rw [h]
    exact if_pos hlt

/-- Behind what is sealed, the loop goes on with what is left. -/
theorem Sealing.onward (h : Sealing ctx v remaining descriptors tokens left) (rest : List Bytes) :
    sealPartitions ctx v (descriptors ++ rest) remaining = (sealPartitions ctx v rest left).map (tokens ++ ·) := by
  induction h with
  | nil => cases h : sealPartitions ctx v rest _ <;> simp [Except.map, h]
  | @cons remaining left left' descriptor token rest' tokens hs hsum _ ih =>
    have hle : ¬ remaining < token.length + sizeOfBytes := by omega
    have hsub : remaining - (token.length + sizeOfBytes) = left := by omega
    rw [List.cons_append, sealPartitions, hs]
    simp only [orAdbc, mapError_of_ok, bind, Except.bind, if_neg hle, hsub, ih]
    cases sealPartitions ctx v rest left' <;> rfl

/-- The loop gets through, or stops at a descriptor it cannot place. -/
theorem sealPartitions_course (descriptors : List Bytes) (remaining : Nat) :
    (∃ tokens left, Sealing ctx v remaining descriptors tokens left) ∨
    ∃ done descriptor rest tokens left e, descriptors = done ++ descriptor :: rest ∧
      Sealing ctx v remaining done tokens left ∧ Stuck ctx v left descriptor e := by
  induction descriptors generalizing remaining with
  | nil => exact .inl ⟨[], remaining, .nil⟩
  | cons descriptor rest ih =>
    cases hs : ctx.signer.sealToken v.target v.principal descriptor remaining with
    | error e => exact .inr ⟨[], descriptor, rest, [], remaining, _, rfl, .nil, .unsealed hs⟩
    | ok token =>
      by_cases hlt : remaining < token.length + sizeOfBytes
      · exact .inr ⟨[], descriptor, rest, [], remaining, _, rfl, .nil, .tooLong hs hlt⟩
      have hsum : remaining - (token.length + sizeOfBytes) + (token.length + sizeOfBytes) = remaining := by omega
      rcases ih (remaining - (token.length + sizeOfBytes)) with ⟨tokens, left, h⟩ | ⟨done, d, rest', tokens, left, e, hd, h, hst⟩
      · exact .inl ⟨_, left, .cons hs hsum h⟩
      · exact .inr ⟨descriptor :: done, d, rest', _, left, e, by rw [hd]; rfl, .cons hs hsum h, hst⟩

theorem Sealing.sum (h : Sealing ctx v remaining descriptors tokens left) :
    left + (tokens.map fun token => token.length + sizeOfBytes).sum = remaining := by
  induction h with
  | nil => rfl
  | cons _ hsum _ ih =>
    rw [List.map_cons, List.sum_cons]
    omega

end Loop

/-! ## The response -/

variable {srv : Service} {ctx : CallContext} {v : SessionView}

/-- The response as its course decides. -/
theorem partitionsResponse_course (result : PartitionedResult) {schema : Bytes}
    (hschema : srv.codec.encodeSchema result.schema = .ok schema) :
    ∃ outcome, Course ctx v (responseLimit ctx) schema result.partitions outcome ∧
      partitionsResponse srv ctx v result = outcome >>= fun tokens =>
        (orProtocol (boundedResponse srv (.partitions result.rowsAffected schema tokens) (responseLimit ctx))).map .unary := by
  have hresponse : partitionsResponse srv ctx v result =
      if responseLimit ctx < schema.length then .error partitionsExceed
      else sealPartitions ctx v result.partitions (responseLimit ctx - schema.length) >>= fun tokens =>
        (orProtocol (boundedResponse srv (.partitions result.rowsAffected schema tokens) (responseLimit ctx))).map .unary := by
    unfold partitionsResponse
    rw [hschema]
    rfl
  rw [hresponse]
  by_cases hlt : responseLimit ctx < schema.length
  · rw [if_pos hlt]
    exact ⟨_, .noRoom hlt, rfl⟩
  rw [if_neg hlt]
  have hsum : responseLimit ctx - schema.length + schema.length = responseLimit ctx := by omega
  rcases sealPartitions_course result.partitions (responseLimit ctx - schema.length) with
    ⟨tokens, left, h⟩ | ⟨done, d, rest, tokens, left, e, hd, h, hst⟩
  · refine ⟨.ok tokens, .completed hsum h, ?_⟩
    have hrun := h.onward []
    rw [List.append_nil] at hrun
    rw [hrun]
    simp only [sealPartitions, Except.map, List.append_nil]
  · refine ⟨.error e, .stopped hsum hd h hst, ?_⟩
    rw [hd, h.onward, sealPartitions_stuck hst]
    rfl

/-- A call of the worker that the handler went on from. -/
theorem run_call_ok {host : Host} {st : St} {j : Job} {f : j.Ret → Do RpcError Reply} {reply : Reply}
    (h : (run host ((call j).mapErr .adbc >>= f) st).1 = .ok reply) :
    ∃ a inner, (j.perform host.limits (st.moments st.time).world st.inner).1 = .ok a ∧
      (run host (f a) ⟨inner, st.moments, st.time + 1⟩).1 = .ok reply := by
  by_cases hf : (st.moments st.time).fate = .answered
  · rw [run_adbc, run_call, exec_answered host st hf] at h
    generalize j.perform host.limits (st.moments st.time).world st.inner = r at h ⊢
    obtain ⟨_ | a, inner⟩ := r
    · cases h
    · exact ⟨a, inner, rfl, h⟩
  · obtain ⟨e, he, -⟩ := exec_unanswered host st (j := j) hf
    rw [run_adbc, run_call] at h
    generalize exec host (.job j) st = r at h he
    obtain ⟨_ | a, s'⟩ := r
    · cases h
    · cases he

/-- EXECUTE_PARTITIONS answers what the driver's result, the second thing it asks for, gives. -/
theorem executePartitions_ok {host : Host} {st : St} {request : Request} {reply : Reply}
    (h : (run host (executePartitionsHandler srv ctx request v) st).1 = .ok reply) :
    ∃ result, (st.moment 1).world.driver.partitions = .ok result ∧ partitionsResponse srv ctx v result = .ok reply := by
  unfold executePartitionsHandler at h
  cases hs : string request "statement_id" with
  | error e =>
    rw [hs] at h
    cases h
  | ok sid =>
    rw [hs] at h
    obtain ⟨_, inner, -, h⟩ := run_call_ok h
    obtain ⟨result, inner', hp, h⟩ := run_call_ok h
    refine ⟨result, ?_, h⟩
    simp only [Job.perform] at hp
    split at hp
    · exact hp
    · cases hp

/-- Sealed while the handler ran, and opened by every session of the same target and
    principal until its ttl is over. -/
def Issued (codec : Codec) (signer : Signer) (clock : Nat → Int) (v : SessionView) (descriptor token : Bytes) : Prop :=
  ∃ remaining, signer.sealToken codec (clock remaining) v.target v.principal descriptor remaining = .ok token ∧
    ∀ (reader : SessionView) (later : Int), reader.target = v.target → reader.principal = v.principal → 0 ≤ later →
      later < clock remaining + signer.ttlMs →
      (signer.during codec later).openToken reader.target reader.principal token maxControlBytes = .ok descriptor

theorem Sealing.issued {codec : Codec} (hc : codec.Lawful) {signer : Signer} {clock : Nat → Int}
    (hctx : ctx.signer = signer.throughout codec clock) {remaining left : Nat} {descriptors tokens : List Bytes}
    (h : Sealing ctx v remaining descriptors tokens left) (hle : remaining ≤ maxControlBytes) :
    List.Forall₂ (Issued codec signer clock v) descriptors tokens := by
  induction h with
  | nil => exact .nil
  | @cons remaining left left' descriptor token rest tokens hs hsum _ ih =>
    refine .cons ?_ (ih (by omega))
    have hseal : signer.sealToken codec (clock remaining) v.target v.principal descriptor remaining = .ok token := by
      rw [hctx] at hs
      exact hs
    refine ⟨remaining, hseal, ?_⟩
    intro reader later ht hp h0 hlt
    obtain ⟨hlen, hopens⟩ := sealed_opens hc hseal
    rw [ht, hp]
    -- the limit on the reading side is the largest of all
    exact hopens later maxControlBytes h0 hlt (hlen.trans hle)

theorem unary_ok {r : Except ProtocolError RecordBatch} {reply : Reply}
    (h : (orProtocol r).map Reply.unary = .ok reply) : ∃ batch, r = .ok batch ∧ reply = .unary batch := by
  cases r with
  | error e => cases h
  | ok batch =>
    cases h
    exact ⟨batch, rfl, rfl⟩

/-- EXECUTE_PARTITIONS answers with a token for each descriptor of the driver, in order and
    within the response limit, or with an error and no token at all. -/
theorem partitioned_execution (codec : Codec) (hc : codec.Lawful) (signer : Signer) (clock : Nat → Int) (srv : Service)
    (ctx : CallContext) (hctx : ctx.signer = signer.throughout codec clock) (request : Request) (p sessionId : String)
    (body : SessionView → Do RpcError Reply)
    (hroute : route srv ctx (.request .executePartitions request) = .onSession p sessionId body) (host : Host) (st : St)
    (v : SessionView) :
    (∀ reply, (run host (body v) st).1 = .ok reply →
      ∃ result schema tokens batch, (st.moment 1).world.driver.partitions = .ok result ∧
        srv.codec.encodeSchema result.schema = .ok schema ∧ reply = .unary batch ∧
        boundedResponse srv (.partitions result.rowsAffected schema tokens) (responseLimit ctx) = .ok batch ∧
        List.Forall₂ (Issued codec signer clock v) result.partitions tokens ∧
        schema.length + (tokens.map fun token => token.length + sizeOfBytes).sum ≤ responseLimit ctx) ∧
    ∀ result schema, (st.moment 1).world.driver.partitions = .ok result →
      srv.codec.encodeSchema result.schema = .ok schema →
      ∃ outcome, Course ctx v (responseLimit ctx) schema result.partitions outcome ∧
        ((∃ e, outcome = .error e) → ∃ e, (run host (body v) st).1 = .error e) := by
  obtain ⟨-, rfl⟩ := getSession_onSession hroute
  constructor
  · intro reply h
    obtain ⟨result, hd, hresponse⟩ := executePartitions_ok h
    obtain ⟨schema, hschema, -⟩ := bind_eq_ok hresponse
    have hschema : srv.codec.encodeSchema result.schema = .ok schema := mapError_eq_ok.mp hschema
    obtain ⟨outcome, hcourse, heq⟩ := @partitionsResponse_course srv ctx v result _ hschema
    rw [heq] at hresponse
    obtain ⟨tokens, rfl, hreply⟩ := bind_eq_ok hresponse
    obtain ⟨batch, hb, rfl⟩ := unary_ok hreply
    cases hcourse with
    | @completed budget left _ hsum hs =>
      have hlimit : responseLimit ctx ≤ maxControlBytes := Nat.min_le_right _ _
      have htotal := hs.sum
      exact ⟨result, schema, tokens, batch, hd, hschema, rfl, hb, hs.issued hc hctx (by omega), by omega⟩
  · intro result schema hd hschema
    obtain ⟨outcome, hcourse, heq⟩ := @partitionsResponse_course srv ctx v result _ hschema
    refine ⟨outcome, hcourse, ?_⟩
    intro h
    obtain ⟨e, rfl⟩ := h
    cases h : (run host (executePartitionsHandler srv ctx request v) st).1 with
    | error e' => exact ⟨e', rfl⟩
    | ok reply =>
      obtain ⟨result', hd', hresponse⟩ := executePartitions_ok h
      obtain rfl : result = result' := Except.ok.inj (hd.symm.trans hd')
      rw [heq] at hresponse
      cases hresponse

/-- A driver that gives one descriptor of alice's twice. -/
def aliceRun : St where
  inner := { fullSession.inner with statements := {"s1"} }
  moments _ := ⟨.answered, { willing with partitions := .ok ⟨[[0, 255], [0, 255]], ⟨[], []⟩, -1⟩ }, .fine, "fresh"⟩
  time := 0

def aliceContext : CallContext :=
  { anonymous with auth := ⟨true, "bearer", "alice"⟩, signer := foldingSigner.throughout oneRecord fun _ => 1000 }

def aliceView : SessionView := ⟨"c", "bearer\x00alice", "main", .new false [] []⟩

theorem partitioned_execution_alice : ∃ body,
    route smallService aliceContext
      (.request .executePartitions (flatRequest [("session_id", "c"), ("statement_id", "s1")])) =
        .onSession "bearer\x00alice" "c" body ∧
    (run smallHost (body aliceView) aliceRun).1 = .ok (.unary bindAck) ∧
    ∃ tokens, List.Forall₂ (Issued oneRecord foldingSigner (fun _ => 1000) aliceView) [[0, 255], [0, 255]] tokens := by
  refine ⟨_, rfl, rfl, ?_⟩
  obtain ⟨result, _, tokens, _, hd, -, -, -, hissued, -⟩ :=
    (partitioned_execution oneRecord oneRecord_lawful foldingSigner (fun _ => 1000) smallService aliceContext rfl
      (flatRequest [("session_id", "c"), ("statement_id", "s1")]) "bearer\x00alice" "c"
      (executePartitionsHandler smallService aliceContext _) rfl smallHost aliceRun aliceView).1 (.unary bindAck) rfl
  cases hd
  exact ⟨tokens, hissued⟩

/-! ## On Arrow -/

/-- What a client reads in a response that was sent: the very tokens. -/
theorem boundedResponse_decodes {arrow : Arrow} (ha : arrow.Lawful) {derived : Derived} (hd : derived.Lawful)
    (hcodec : srv.codec = arrow.codec derived) {value : Response} {limit limit' : Nat} {batch : RecordBatch}
    (h : boundedResponse srv value limit = .ok batch) (hle : limit ≤ limit') :
    decodeResponse arrow derived value.kind batch limit' = .ok ⟨value, rfl⟩ := by
  obtain ⟨batch', henc, h⟩ := bind_eq_ok h
  obtain ⟨_, -, h⟩ := bind_eq_ok h
  cases h
  rw [hcodec] at henc
  exact decode_encodeResponse ha hd hle henc

/-- `PartitionClaims` in a stream of its own. -/
def claimsCodec (arrow : Arrow) (claims : VgiArrow PartitionClaims) : Codec where
  encode value limit := (encodeRecordIpc arrow claims value limit).mapError Fault.toProtocol
  decode bytes limit := (decodeRecordIpc arrow claims bytes limit).mapError Fault.toProtocol

theorem claimsCodec_lawful {arrow : Arrow} (ha : arrow.Lawful) {claims : VgiArrow PartitionClaims}
    (ht : claims.Lawful) : (claimsCodec arrow claims).Lawful where
  nonempty value limit bytes h := by
    obtain ⟨batch, hb, -⟩ := bind_eq_ok (decode_encodeRecordIpc ha ht (mapError_eq_ok.mp h) (Nat.le_refl _))
    obtain ⟨hv, -⟩ := decodeBatchIpc_ok hb
    obtain ⟨_, _, -, -, henc⟩ := encodeRecordIpc_ok (mapError_eq_ok.mp h)
    obtain ⟨_, -, -, -, hmax⟩ := encodeBatchIpc_ok henc
    exact ((validateIpc_ok_iff hmax).mp hv).2.ne_nil
  bounded value limit bytes h := by
    obtain ⟨_, _, -, -, henc⟩ := encodeRecordIpc_ok (mapError_eq_ok.mp h)
    obtain ⟨_, -, -, hlen, -⟩ := encodeBatchIpc_ok henc
    exact hlen
  decodes value limit bytes h limit' hle :=
    mapError_eq_ok.mpr (decode_encodeRecordIpc ha ht (mapError_eq_ok.mp h) hle)

end Grainlift.Server.Partitions
