/-
  Grainlift.Server.Partitions — partition tokens (`PartitionSigner`,
  grainlift-server/src/partitions.rs). A token is the magic "GLP2", a tag and a payload; the
  payload holds a descriptor, an expiry and the owner, a keyed digest of target and
  principal, and the tag authenticates the payload under the signer's key.

  HMAC-SHA256 under the key and the record codec are parameters. Of the codec the code
  relies on `Codec.Lawful`; of HMAC on `Secure`, about the one token presented: a verifying
  payload was sealed by this signer, and no sealed owner collides with the one asked for.
  (Both are about particular inputs: no 32-byte digest is injective on all of them.)

  Targets hold no NUL, principals do (`SessionManager::principal` joins with one). The
  owner's input is still read back uniquely, because the target ends at the first NUL
  (`ownerInput_inj`).

  Proved (`partition_tokens`): what `open` accepts is, to the byte, a token an earlier
  `seal` of this signer returned for the same target, principal and descriptor less than
  the ttl ago; every other token is refused with the one error there is; and a sealed token
  keeps to its limit and opens before its expiry under every limit that admits it.
-/

import Grainlift.Server.Service

namespace Grainlift.Server.Partitions

open Grainlift.Protocol

/-- An `i64::try_from` or `checked_add` beyond this fails. -/
def i64Max : Int := 9223372036854775807

structure PartitionClaims where
  version : Int
  expiresAtMs : Int
  owner : String
  descriptor : Bytes
  deriving DecidableEq

/-- `encode_record_ipc` and `decode_record_ipc` at `PartitionClaims`. -/
structure Codec where
  encode : PartitionClaims → (limit : Nat) → Except ProtocolError Bytes
  decode : Bytes → (limit : Nat) → Except ProtocolError PartitionClaims

/-- An encoding is a complete stream within its limit, and decodes to what it encodes. -/
structure Codec.Lawful (codec : Codec) : Prop where
  nonempty : ∀ claims limit bytes, codec.encode claims limit = .ok bytes → bytes ≠ []
  bounded : ∀ claims limit bytes, codec.encode claims limit = .ok bytes → bytes.length ≤ limit
  decodes : ∀ claims limit bytes, codec.encode claims limit = .ok bytes →
    ∀ limit', bytes.length ≤ limit' → codec.decode bytes limit' = .ok claims

/-- The signer: its HMAC under its key, and the lifetime of what it seals. -/
structure Signer where
  mac : Bytes → Bytes
  mac_length : ∀ bytes, (mac bytes).length = 32
  ttlMs : Nat

def invalid : AdbcError :=
  .withMessageAndStatus "Partition descriptor is invalid, expired, or unavailable to this principal" .notFound

/-- The clock in milliseconds from the Unix epoch. -/
def nowMs (clock : Int) : Except AdbcError Int :=
  if 0 ≤ clock ∧ clock ≤ i64Max then .ok clock else .error invalid

def asBytes (s : String) : Bytes := s.toUTF8.data.toList

def magic : Bytes := asBytes "GLP2"

/-- `format!("{byte:02x}")` of each byte. -/
def hex (bytes : Bytes) : String :=
  String.ofList (bytes.flatMap fun byte => [Nat.digitChar (byte.toNat / 16), Nat.digitChar (byte.toNat % 16)])

/-- What `owner` feeds the HMAC. -/
def ownerInput (target principal : String) : Bytes := asBytes target ++ [0] ++ asBytes principal

def Signer.owner (signer : Signer) (target principal : String) : String :=
  hex (signer.mac (ownerInput target principal))

def Signer.sealToken (codec : Codec) (signer : Signer) (clock : Int) (target principal : String) (descriptor : Bytes)
    (limit : Nat) : Except AdbcError Bytes := do
  let lifetime : Int ← if (signer.ttlMs : Int) ≤ i64Max then .ok signer.ttlMs else .error invalid
  let now ← nowMs clock
  let expiresAtMs ← if now + lifetime ≤ i64Max then .ok (now + lifetime) else .error invalid
  let claims : PartitionClaims := ⟨1, expiresAtMs, signer.owner target principal, descriptor⟩
  match codec.encode claims (limit - 36) with
  | .ok payload => .ok (magic ++ signer.mac payload ++ payload)
  | .error _ => .error invalid

def Signer.openToken (codec : Codec) (signer : Signer) (clock : Int) (target principal : String) (token : Bytes)
    (limit : Nat) : Except AdbcError Bytes :=
  if token.length < 36 ∨ limit < token.length ∨ token.take 4 ≠ magic then .error invalid
  else if signer.mac (token.drop 36) ≠ (token.drop 4).take 32 then .error invalid
  else
    match codec.decode (token.drop 36) (limit - 36) with
    | .error _ => .error invalid
    | .ok claims =>
      if claims.version ≠ 1 then .error invalid
      else
        match nowMs clock with
        | .error e => .error e
        | .ok now =>
          if claims.expiresAtMs ≤ now ∨ claims.owner ≠ signer.owner target principal then .error invalid
          else .ok claims.descriptor

/-- The signer as it answers the handlers at one instant (`seal_partition`,
    `open_partition`, session.rs). -/
def Signer.during (codec : Codec) (signer : Signer) (clock : Int) : PartitionSigner :=
  ⟨signer.sealToken codec clock, signer.openToken codec clock⟩

/-! ## The owner string -/

theorem asBytes_append (s t : String) : asBytes (s ++ t) = asBytes s ++ asBytes t := by
  unfold asBytes String.toUTF8
  rw [String.toByteArray_append]
  simp

theorem asBytes_inj {s t : String} (h : asBytes s = asBytes t) : s = t := by
  unfold asBytes String.toUTF8 at h
  apply String.toByteArray_inj.mp
  apply ByteArray.ext
  exact Array.toList_inj.mp h

def NulFree (s : String) : Prop := '\x00' ∉ s.toList

instance (s : String) : Decidable (NulFree s) := inferInstanceAs (Decidable ('\x00' ∉ s.toList))

/-- A target ends at the first NUL, so a list that starts with it is cut in one way. -/
theorem cut_inj {α : Type} {z : α} {t t' p p' : List α} (ht : z ∉ t) (ht' : z ∉ t') (h : t ++ z :: p = t' ++ z :: p') :
    t = t' ∧ p = p' := by
  induction t generalizing t' with
  | nil =>
    cases t' with
    | nil =>
      simp only [List.nil_append, List.cons.injEq, true_and] at h
      exact ⟨rfl, h⟩
    | cons a as =>
      simp only [List.nil_append, List.cons_append, List.cons.injEq] at h
      exact absurd (h.1 ▸ List.mem_cons_self) ht'
  | cons b bs ih =>
    cases t' with
    | nil =>
      simp only [List.nil_append, List.cons_append, List.cons.injEq] at h
      exact absurd (h.1 ▸ List.mem_cons_self) ht
    | cons a as =>
      simp only [List.cons_append, List.cons.injEq] at h
      obtain ⟨rfl, h⟩ := h
      obtain ⟨rfl, hp⟩ := ih (fun hm => ht (List.mem_cons_of_mem _ hm)) (fun hm => ht' (List.mem_cons_of_mem _ hm)) h
      exact ⟨rfl, hp⟩

theorem ownerInput_inj {target target' principal principal' : String} (ht : NulFree target) (ht' : NulFree target')
    (h : ownerInput target principal = ownerInput target' principal') : target = target' ∧ principal = principal' := by
  have hjoin : ∀ t p : String, ownerInput t p = asBytes (t ++ "\x00" ++ p) := by
    intro t p
    rw [asBytes_append, asBytes_append]
    rfl
  rw [hjoin, hjoin] at h
  have hchars := congrArg String.toList (asBytes_inj h)
  simp only [String.toList_append] at hchars
  have hcut : target.toList ++ '\x00' :: principal.toList = target'.toList ++ '\x00' :: principal'.toList := by
    simpa using hchars
  obtain ⟨h1, h2⟩ := cut_inj ht ht' hcut
  exact ⟨String.toList_inj.mp h1, String.toList_inj.mp h2⟩

theorem digitChar_inj : ∀ a < 16, ∀ b < 16, Nat.digitChar a = Nat.digitChar b → a = b := by decide

theorem hex_inj {a b : Bytes} (h : hex a = hex b) : a = b := by
  have hl := String.ofList_injective h
  clear h
  induction a generalizing b with
  | nil =>
    cases b with
    | nil => rfl
    | cons y ys => simp at hl
  | cons x xs ih =>
    cases b with
    | nil => simp at hl
    | cons y ys =>
      simp only [List.flatMap_cons, List.cons_append, List.nil_append, List.cons.injEq] at hl
      obtain ⟨hhigh, hlow, hrest⟩ := hl
      have hx := x.toNat_lt
      have hy := y.toNat_lt
      have h1 := digitChar_inj _ (by omega) _ (by omega) hhigh
      have h2 := digitChar_inj _ (by omega) _ (by omega) hlow
      have hxy : x = y := UInt8.toNat_inj.mp (by omega)
      rw [hxy, ih hrest]

/-! ## What the two calls do -/

variable {codec : Codec} {signer : Signer} {clock : Int} {target principal : String} {descriptor token : Bytes}
  {limit : Nat}

theorem nowMs_ok {now : Int} (h : nowMs clock = .ok now) : now = clock ∧ 0 ≤ clock ∧ clock ≤ i64Max := by
  unfold nowMs at h
  split at h
  · rename_i hc
    cases h
    exact ⟨rfl, hc⟩
  · cases h

theorem sealToken_ok (h : signer.sealToken codec clock target principal descriptor limit = .ok token) :
    0 ≤ clock ∧ clock + signer.ttlMs ≤ i64Max ∧
    ∃ payload, codec.encode ⟨1, clock + signer.ttlMs, signer.owner target principal, descriptor⟩ (limit - 36) =
      .ok payload ∧ token = magic ++ signer.mac payload ++ payload := by
  unfold Signer.sealToken at h
  simp only [bind, Except.bind] at h
  split at h
  · split at h
    · cases h
    rename_i now hnow
    obtain ⟨rfl, h0, -⟩ := nowMs_ok hnow
    split at h
    · rename_i hle
      split at h
      · rename_i payload henc
        cases h
        exact ⟨h0, hle, payload, henc, rfl⟩
      · cases h
    · cases h
  · cases h

theorem openToken_ok {d : Bytes} (h : signer.openToken codec clock target principal token limit = .ok d) :
    36 ≤ token.length ∧ token.length ≤ limit ∧ token.take 4 = magic ∧
    signer.mac (token.drop 36) = (token.drop 4).take 32 ∧
    ∃ claims, codec.decode (token.drop 36) (limit - 36) = .ok claims ∧ claims.version = 1 ∧
      clock < claims.expiresAtMs ∧ claims.owner = signer.owner target principal ∧ claims.descriptor = d := by
  unfold Signer.openToken at h
  split at h
  · cases h
  rename_i hshape
  split at h
  · cases h
  rename_i htag
  split at h
  · cases h
  rename_i claims hdec
  split at h
  · cases h
  rename_i hversion
  split at h
  · cases h
  rename_i now hnow
  obtain ⟨rfl, -, -⟩ := nowMs_ok hnow
  split at h
  · cases h
  rename_i hclaims
  cases h
  simp only [not_or, Nat.not_lt, ne_eq, Decidable.not_not, Int.not_le] at hshape htag hversion hclaims
  exact ⟨hshape.1, hshape.2.1, hshape.2.2, htag, claims, hdec, hversion, hclaims.1, hclaims.2, rfl⟩

/-- There is one error. -/
theorem openToken_error {e : AdbcError} (h : signer.openToken codec clock target principal token limit = .error e) :
    e = invalid := by
  unfold Signer.openToken at h
  split at h
  · cases h; rfl
  split at h
  · cases h; rfl
  split at h
  · cases h; rfl
  split at h
  · cases h; rfl
  split at h
  · rename_i hnow
    unfold nowMs at hnow
    split at hnow
    · cases hnow
    · cases hnow
      cases h
      rfl
  split at h
  · cases h; rfl
  · cases h

/-- A token is cut into its three parts in one way. -/
theorem token_parts {payload : Bytes} :
    (magic ++ signer.mac payload ++ payload).take 4 = magic ∧
    ((magic ++ signer.mac payload ++ payload).drop 4).take 32 = signer.mac payload ∧
    (magic ++ signer.mac payload ++ payload).drop 36 = payload ∧
    (magic ++ signer.mac payload ++ payload).length = 36 + payload.length := by
  have hm : magic.length = 4 := by decide
  have ht := signer.mac_length payload
  refine ⟨?_, ?_, ?_, ?_⟩
  · rw [List.append_assoc, List.take_append_of_le_length (by omega), List.take_of_length_le (by omega)]
  · rw [List.append_assoc, List.drop_append_of_le_length (by omega), List.drop_of_length_le (by omega),
      List.nil_append, List.take_append_of_le_length (by omega), List.take_of_length_le (by omega)]
  · rw [List.drop_append_of_le_length (by simp; omega), List.drop_of_length_le (by simp; omega), List.nil_append]
  · simp only [List.length_append]
    omega

theorem token_of_parts (hm : token.take 4 = magic)
    (ht : signer.mac (token.drop 36) = (token.drop 4).take 32) :
    token = magic ++ signer.mac (token.drop 36) ++ token.drop 36 := by
  rw [ht, ← hm, List.append_assoc]
  have h : (token.drop 4).drop 32 = token.drop 36 := by rw [List.drop_drop]
  rw [← h, List.take_append_drop, List.take_append_drop]

/-! ## Soundness and completeness -/

/-- A call of `seal`, with the instant it read. -/
structure SealCall where
  clock : Int
  target : String
  principal : String
  descriptor : Bytes
  limit : Nat

def SealCall.run (codec : Codec) (signer : Signer) (c : SealCall) : Except AdbcError Bytes :=
  (signer.during codec c.clock).sealToken c.target c.principal c.descriptor c.limit

/-- What the code relies on HMAC-SHA256 for when `token` is presented after the calls of
    `history`. -/
structure Secure (codec : Codec) (signer : Signer) (history : List SealCall) (target principal : String)
    (token : Bytes) :
    Prop where
  /-- A payload with its tag was sealed by this signer. -/
  unforged : signer.mac (token.drop 36) = (token.drop 4).take 32 →
    ∃ c ∈ history, ∃ sealed, c.run codec signer = .ok sealed ∧ sealed.drop 36 = token.drop 36
  /-- No sealed owner has the digest of the one asked for but that owner itself. -/
  collisionFree : ∀ c ∈ history,
    signer.mac (ownerInput c.target c.principal) = signer.mac (ownerInput target principal) →
    ownerInput c.target c.principal = ownerInput target principal

variable {history : List SealCall}

theorem opened_sealed (hc : codec.Lawful) (ht : NulFree target) (hts : ∀ c ∈ history, NulFree c.target)
    (hs : Secure codec signer history target principal token) {d : Bytes}
    (h : signer.openToken codec clock target principal token limit = .ok d) :
    token.length ≤ limit ∧ ∃ c ∈ history, c.run codec signer = .ok token ∧ c.target = target ∧
      c.principal = principal ∧ c.descriptor = d ∧ clock < c.clock + signer.ttlMs := by
  obtain ⟨hlen, hlim, hmagic, htag, claims, hdec, -, hexp, howner, rfl⟩ := openToken_ok h
  obtain ⟨c, hmem, sealed, hrun, hpay⟩ := hs.unforged htag
  obtain ⟨-, -, payload, henc, rfl⟩ := sealToken_ok hrun
  rw [token_parts.2.2.1] at hpay
  -- the payload decodes to the claims that were sealed
  have hround : codec.decode (token.drop 36) (limit - 36) =
      .ok ⟨1, c.clock + signer.ttlMs, signer.owner c.target c.principal, c.descriptor⟩ := by
    rw [← hpay]
    apply hc.decodes _ _ payload henc _
    have : payload.length = token.length - 36 := by rw [hpay, List.length_drop]
    omega
  rw [hround] at hdec
  cases hdec
  have hinput := hs.collisionFree c hmem (hex_inj howner)
  obtain ⟨h1, h2⟩ := ownerInput_inj (hts c hmem) ht hinput
  refine ⟨hlim, c, hmem, ?_, h1, h2, rfl, hexp⟩
  rw [hrun, hpay]
  congr 1
  exact (token_of_parts hmagic htag).symm

theorem sealed_opens (hc : codec.Lawful) (h : signer.sealToken codec clock target principal descriptor limit = .ok token) :
    token.length ≤ limit ∧ ∀ later limit', 0 ≤ later → later < clock + signer.ttlMs → token.length ≤ limit' →
      signer.openToken codec later target principal token limit' = .ok descriptor := by
  obtain ⟨-, hmax, payload, henc, rfl⟩ := sealToken_ok h
  obtain ⟨hmagic, htag, hpay, hlen⟩ := @token_parts signer payload
  have hb := hc.bounded _ _ _ henc
  have hpos : 0 < payload.length := List.length_pos_iff.mpr (hc.nonempty _ _ _ henc)
  refine ⟨by omega, ?_⟩
  intro later limit' h0 hlt hl
  have hdec := hc.decodes _ _ _ henc (limit' - 36) (by omega)
  have hnow : nowMs later = .ok later := by
    unfold nowMs
    rw [if_pos ⟨h0, by omega⟩]
  unfold Signer.openToken
  rw [if_neg, if_neg, hpay, hdec]
  · simp only [ne_eq, not_true_eq_false, if_false, hnow]
    rw [if_neg]
    simp only [or_false, Int.not_le]
    exact hlt
  · rw [hpay, htag]
    simp
  · rw [hmagic]
    simp only [ne_eq, not_true_eq_false, or_false]
    omega

/-- A token that opens was sealed for that target and principal, over that descriptor, and less
    than the time to live ago; whatever else was sealed does not open. And a sealed token opens
    for as long, to its descriptor. Unforgeability is the hypothesis `Secure`. -/
theorem partition_tokens (codec : Codec) (hc : codec.Lawful) (signer : Signer) :
    (∀ (history : List SealCall) (target principal : String) (token : Bytes) (limit : Nat) (clock : Int),
      NulFree target → (∀ c ∈ history, NulFree c.target) → Secure codec signer history target principal token →
      (∀ d, signer.openToken codec clock target principal token limit = .ok d →
        token.length ≤ limit ∧ ∃ c ∈ history, c.run codec signer = .ok token ∧ c.target = target ∧
          c.principal = principal ∧ c.descriptor = d ∧ clock < c.clock + signer.ttlMs) ∧
      ((∀ c ∈ history, c.run codec signer = .ok token → c.target ≠ target ∨ c.principal ≠ principal ∨
          c.clock + signer.ttlMs ≤ clock) →
        signer.openToken codec clock target principal token limit = .error invalid)) ∧
    (∀ (target principal : String) (descriptor token : Bytes) (limit : Nat) (clock : Int),
      signer.sealToken codec clock target principal descriptor limit = .ok token →
      token.length ≤ limit ∧ ∀ later limit', 0 ≤ later → later < clock + signer.ttlMs → token.length ≤ limit' →
        signer.openToken codec later target principal token limit' = .ok descriptor) := by
  refine ⟨?_, fun target principal descriptor token limit clock h => sealed_opens hc h⟩
  intro history target principal token limit clock ht hts hs
  refine ⟨fun d h => opened_sealed hc ht hts hs h, ?_⟩
  intro hother
  cases h : signer.openToken codec clock target principal token limit with
  | error e => rw [openToken_error h]
  | ok d =>
    obtain ⟨-, c, hmem, hrun, h1, h2, -, hlt⟩ := opened_sealed hc ht hts hs h
    rcases hother c hmem hrun with h | h | h
    · exact absurd h1 h
    · exact absurd h2 h
    · omega

/-! A signer of one record, for one run of the two calls. -/

def foldingSigner : Signer where
  mac bytes := List.replicate 31 0 ++ [bytes.foldl (fun h byte => h * 31 + byte) 7]
  mac_length _ := rfl
  ttlMs := 60000

def aliceClaims : PartitionClaims := ⟨1, 61000, foldingSigner.owner "main" "bearer\x00alice", [0, 255]⟩

/-- A codec that knows that record only. -/
def oneRecord : Codec where
  encode claims limit := if claims = aliceClaims ∧ 8 ≤ limit then .ok [71, 76, 1, 0, 255, 0, 0, 0]
    else .error .invalidSchemaMessage
  decode bytes limit :=
    if bytes = [71, 76, 1, 0, 255, 0, 0, 0] ∧ 8 ≤ limit then .ok aliceClaims else .error .invalidSchemaMessage

theorem oneRecord_ok {claims : PartitionClaims} {limit : Nat} {bytes : Bytes}
    (h : oneRecord.encode claims limit = .ok bytes) :
    claims = aliceClaims ∧ 8 ≤ limit ∧ bytes = [71, 76, 1, 0, 255, 0, 0, 0] := by
  unfold oneRecord at h
  simp only at h
  split at h
  · rename_i hc
    cases h
    exact ⟨hc.1, hc.2, rfl⟩
  · cases h

theorem oneRecord_lawful : oneRecord.Lawful where
  nonempty claims limit bytes h := by
    obtain ⟨-, -, rfl⟩ := oneRecord_ok h
    exact List.cons_ne_nil _ _
  bounded claims limit bytes h := by
    obtain ⟨-, hl, rfl⟩ := oneRecord_ok h
    exact hl
  decodes claims limit bytes h limit' hl := by
    obtain ⟨rfl, -, rfl⟩ := oneRecord_ok h
    unfold oneRecord
    exact if_pos ⟨rfl, hl⟩

def aliceSeals : SealCall := ⟨1000, "main", "bearer\x00alice", [0, 255], 65536⟩

def aliceToken : Bytes := magic ++ foldingSigner.mac [71, 76, 1, 0, 255, 0, 0, 0] ++ [71, 76, 1, 0, 255, 0, 0, 0]

theorem aliceSeals_run : aliceSeals.run oneRecord foldingSigner = .ok aliceToken := by decide

theorem aliceToken_secure (principal : String)
    (h : foldingSigner.mac (ownerInput "main" "bearer\x00alice") = foldingSigner.mac (ownerInput "main" principal) →
      ownerInput "main" "bearer\x00alice" = ownerInput "main" principal) :
    Secure oneRecord foldingSigner [aliceSeals] "main" principal aliceToken where
  unforged _ := ⟨aliceSeals, List.mem_singleton.mpr rfl, aliceToken, aliceSeals_run, rfl⟩
  collisionFree c hc := by
    obtain rfl := List.mem_singleton.mp hc
    exact h

/-- Alice's token opens for her to the last millisecond, never for bob, and for nobody
    from its expiry on. -/
theorem partition_tokens_alice :
    foldingSigner.openToken oneRecord 60999 "main" "bearer\x00alice" aliceToken 44 = .ok [0, 255] ∧
    foldingSigner.openToken oneRecord 60999 "main" "bearer\x00bob" aliceToken 44 = .error invalid ∧
    foldingSigner.openToken oneRecord 61000 "main" "bearer\x00alice" aliceToken 44 = .error invalid := by
  have h := partition_tokens oneRecord oneRecord_lawful foldingSigner
  have hnul : NulFree "main" := by decide
  have hts : ∀ c ∈ [aliceSeals], NulFree c.target := by
    intro c hc
    obtain rfl := List.mem_singleton.mp hc
    exact hnul
  refine ⟨?_, ?_, ?_⟩
  · exact (h.2 "main" "bearer\x00alice" [0, 255] aliceToken 65536 1000 aliceSeals_run).2 60999 44 (by decide)
      (by decide) (by decide)
  · refine (h.1 [aliceSeals] "main" "bearer\x00bob" aliceToken 44 60999 hnul hts (aliceToken_secure _ (by decide))).2 ?_
    intro c hc _
    obtain rfl := List.mem_singleton.mp hc
    exact .inr (.inl (by decide))
  · refine (h.1 [aliceSeals] "main" "bearer\x00alice" aliceToken 44 61000 hnul hts (aliceToken_secure _ fun _ => rfl)).2 ?_
    intro c hc _
    obtain rfl := List.mem_singleton.mp hc
    exact .inr (.inr (by decide))

end Grainlift.Server.Partitions
