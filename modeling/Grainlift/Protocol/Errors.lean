/-
  Grainlift.Protocol.Errors — ADBC errors as records on the wire (`WireAdbcError`, the
  tables of status names; grainlift-protocol/src/lib.rs).

  SQLSTATE is five C chars, here bytes; on the wire they are signed, and only those of
  ASCII are taken back. Details are base64. Its engine is not part of the repository
  (`Base64`); `Base64.Lawful` is what is relied on, and Grainlift.Lib.Base64 has it
  (`Base64.standard`).

  What the decoder accepts (`tryIntoAdbc_ok_iff`) is the documented grammar and one status
  more: the name table it reads holds "ok", which the documentation leaves out.
-/

import Grainlift.Lib.Base64
import Grainlift.Protocol.Values

namespace Grainlift.Protocol

open Grainlift.Lib

/-- What is encoded is decoded; what decodes is base64 with canonical padding. -/
structure Base64.Lawful (base64 : Base64) : Prop where
  decode_encode : ∀ bytes, base64.decode (base64.encode bytes) = .ok bytes
  decode_ok_iff : ∀ text, (∃ bytes, base64.decode text = .ok bytes) ↔ Lib.Base64.Valid text

/-- The engine, with one message for every error. -/
def Base64.standard : Base64 where
  encode := Lib.Base64.encode
  decode text :=
    match Lib.Base64.decode text with
    | some bytes => .ok bytes
    | none => .error "invalid base64"

theorem Base64.standard_lawful : Base64.standard.Lawful := by
  refine ⟨?_, ?_⟩
  · intro bytes
    simp only [standard, Lib.Base64.decode_encode]
  · intro text
    rw [← Lib.Base64.decode_isSome]
    simp only [standard]
    cases Lib.Base64.decode text <;> simp

def statusName : Status → String
  | .ok => "ok"
  | .unknown => "unknown"
  | .notImplemented => "not_implemented"
  | .notFound => "not_found"
  | .alreadyExists => "already_exists"
  | .invalidArguments => "invalid_arguments"
  | .invalidState => "invalid_state"
  | .invalidData => "invalid_data"
  | .integrity => "integrity"
  | .internal => "internal"
  | .io => "io"
  | .cancelled => "cancelled"
  | .timeout => "timeout"
  | .unauthenticated => "unauthenticated"
  | .unauthorized => "unauthorized"

def statusFromName : String → Status
  | "ok" => .ok
  | "not_implemented" => .notImplemented
  | "not_found" => .notFound
  | "already_exists" => .alreadyExists
  | "invalid_arguments" => .invalidArguments
  | "invalid_state" => .invalidState
  | "invalid_data" => .invalidData
  | "integrity" => .integrity
  | "internal" => .internal
  | "io" => .io
  | "cancelled" => .cancelled
  | "timeout" => .timeout
  | "unauthenticated" => .unauthenticated
  | "unauthorized" => .unauthorized
  | _ => .unknown

/-- What the Rust type of an error bounds: five SQLSTATE chars and an `i32`. -/
structure AdbcError.WellTyped (e : AdbcError) : Prop where
  sqlstate : e.sqlstate.length = 5
  vendorCode : -2147483648 ≤ e.vendorCode ∧ e.vendorCode < 2147483648

structure WireAdbcError where
  status : String
  message : String
  vendorCode : Int32
  sqlstate : List Int8
  details : List (String × String)
  deriving DecidableEq

namespace WireAdbcError

section

variable (base64 : Base64)

/-- `From<&AdbcError>`. -/
def ofAdbc (error : AdbcError) : WireAdbcError where
  status := statusName error.status
  message := error.message
  vendorCode := Int32.ofInt error.vendorCode
  sqlstate := error.sqlstate.map UInt8.toInt8
  details := (error.details.getD []).map fun d => (d.1, base64.encode d.2)

def decodeDetail (d : String × String) : Except ProtocolError (String × Bytes) :=
  match base64.decode d.2 with
  | .ok value => .ok (d.1, value)
  | .error _ => .error (.invalidWire "invalid ADBC error detail encoding")

def tryIntoAdbc (w : WireAdbcError) : Except ProtocolError AdbcError := do
  if w.sqlstate.length ≠ 5 ∨ w.sqlstate.any (· < 0) ∨
      (statusFromName w.status = .unknown ∧ w.status ≠ "unknown") then
    .error (.invalidWire "invalid ADBC error status or SQLSTATE")
  else
    let details ← w.details.mapM (decodeDetail base64)
    return {
      message := w.message
      status := statusFromName w.status
      vendorCode := w.vendorCode.toInt
      sqlstate := w.sqlstate.map Int8.toUInt8
      details := if details.isEmpty then none else some details }

def malformed : AdbcError := .withMessageAndStatus "Malformed remote ADBC error" .invalidData

def intoAdbc (w : WireAdbcError) : AdbcError :=
  match w.tryIntoAdbc base64 with
  | .ok e => e
  | .error _ => malformed

end

end WireAdbcError

/-! ## Names -/

@[simp] theorem statusFromName_statusName (s : Status) : statusFromName (statusName s) = s := by
  cases s <;> rfl

theorem statusFromName_eq_ok {name : String} : statusFromName name = .ok ↔ name = "ok" := by
  constructor
  · intro h
    unfold statusFromName at h
    split at h <;> simp_all
  · intro heq
    subst heq
    rfl

/-- The documented status names. -/
def documentedStatuses : List String :=
  ["unknown", "not_implemented", "not_found", "already_exists", "invalid_arguments", "invalid_state", "invalid_data",
    "integrity", "internal", "io", "cancelled", "timeout", "unauthenticated", "unauthorized"]

/-- The names the decoder knows: the documented ones, and "ok". -/
theorem known_status {name : String} :
    ¬ (statusFromName name = .unknown ∧ name ≠ "unknown") ↔ name = "ok" ∨ name ∈ documentedStatuses := by
  constructor
  · intro h
    unfold statusFromName at h
    split at h
    all_goals first | exact .inl rfl | skip
    all_goals first | exact .inr (by decide) | skip
    by_cases hu : name = "unknown"
    · exact .inr (hu ▸ by decide)
    · exact absurd ⟨rfl, hu⟩ h
  · intro h
    rcases h with rfl | h
    · decide
    · simp only [documentedStatuses, List.mem_cons, List.not_mem_nil, or_false] at h
      rcases h with rfl | rfl | rfl | rfl | rfl | rfl | rfl | rfl | rfl | rfl | rfl | rfl | rfl | rfl <;> decide

/-! ## What is accepted -/

namespace WireAdbcError

variable {base64 : Base64} {w : WireAdbcError} {e : AdbcError}

/-- Five ASCII octets of SQLSTATE, and details in base64. -/
structure Sound (w : WireAdbcError) : Prop where
  five : w.sqlstate.length = 5
  ascii : ∀ b ∈ w.sqlstate, 0 ≤ b.toInt ∧ b.toInt ≤ 127
  details : ∀ d ∈ w.details, Lib.Base64.Valid d.2

/-- The documented record. -/
structure Documented (w : WireAdbcError) : Prop where
  status : w.status ∈ documentedStatuses
  sound : w.Sound

theorem any_negative {l : List Int8} : l.any (· < 0) = true ↔ ¬ ∀ b ∈ l, 0 ≤ b.toInt ∧ b.toInt ≤ 127 := by
  rw [List.any_eq_true]
  constructor
  · intro h hall
    obtain ⟨b, hb, hlt⟩ := h
    have hneg : b.toInt < (0 : Int8).toInt := Int8.lt_iff_toInt_lt.mp (of_decide_eq_true hlt)
    have := (hall b hb).1
    simp only [Int8.toInt_zero] at hneg
    omega
  · intro h
    rw [not_forall] at h
    obtain ⟨b, hb⟩ := h
    rw [Classical.not_imp] at hb
    refine ⟨b, hb.1, decide_eq_true (Int8.lt_iff_toInt_lt.mpr ?_)⟩
    have hle := b.toInt_lt
    have hneg : ¬ 0 ≤ b.toInt := fun h0 => hb.2 ⟨h0, by omega⟩
    simp only [Int8.toInt_zero]
    omega

theorem decodeDetail_ok_iff (hl : base64.Lawful) {d : String × String} :
    (∃ r, decodeDetail base64 d = .ok r) ↔ Lib.Base64.Valid d.2 := by
  rw [← hl.decode_ok_iff]
  unfold decodeDetail
  cases base64.decode d.2 <;> simp

theorem mapM_ok_iff {α β : Type} {f : α → Except ProtocolError β} {l : List α} :
    (∃ r, l.mapM f = .ok r) ↔ ∀ a ∈ l, ∃ b, f a = .ok b := by
  induction l with
  | nil => exact ⟨fun _ _ h => (List.not_mem_nil h).elim, fun _ => ⟨[], rfl⟩⟩
  | cons a l ih =>
    rw [List.mapM_cons, List.forall_mem_cons, ← ih]
    cases f a with
    | error e =>
      constructor
      · intro h
        obtain ⟨r, hr⟩ := h
        cases hr
      · intro h
        obtain ⟨⟨b, hb⟩, -⟩ := h
        cases hb
    | ok b =>
      cases l.mapM f with
      | error e =>
        constructor
        · intro h
          obtain ⟨r, hr⟩ := h
          cases hr
        · intro h
          obtain ⟨-, r, hr⟩ := h
          cases hr
      | ok bs => exact ⟨fun _ => ⟨⟨b, rfl⟩, bs, rfl⟩, fun _ => ⟨b :: bs, rfl⟩⟩

/-- The condition the decoder tests first. -/
theorem refused_iff : (w.sqlstate.length ≠ 5 ∨ w.sqlstate.any (· < 0) ∨
      (statusFromName w.status = .unknown ∧ w.status ≠ "unknown")) ↔
    ¬ ((w.status = "ok" ∨ w.status ∈ documentedStatuses) ∧ w.sqlstate.length = 5 ∧
      ∀ b ∈ w.sqlstate, 0 ≤ b.toInt ∧ b.toInt ≤ 127) := by
  rw [← known_status, any_negative, not_and_or, not_not, not_and_or, or_comm, or_assoc, or_comm, or_assoc]

theorem tryIntoAdbc_ok (hl : base64.Lawful) (h : w.tryIntoAdbc base64 = .ok e) :
    (w.status = "ok" ∨ w.status ∈ documentedStatuses) ∧ w.Sound ∧ e.status = statusFromName w.status := by
  unfold tryIntoAdbc at h
  by_cases hr : w.sqlstate.length ≠ 5 ∨ w.sqlstate.any (· < 0) ∨
      (statusFromName w.status = .unknown ∧ w.status ≠ "unknown")
  · rw [if_pos hr] at h
    cases h
  · rw [if_neg hr] at h
    rw [refused_iff, not_not] at hr
    cases hd : w.details.mapM (decodeDetail base64) with
    | error e =>
      rw [hd] at h
      cases h
    | ok details =>
      rw [hd] at h
      cases h
      refine ⟨hr.1, ⟨hr.2.1, hr.2.2, ?_⟩, rfl⟩
      intro d hmem
      exact (decodeDetail_ok_iff hl).mp (mapM_ok_iff.mp ⟨details, hd⟩ d hmem)

theorem tryIntoAdbc_ok_iff (hl : base64.Lawful) :
    (∃ e, w.tryIntoAdbc base64 = .ok e) ↔ (w.status = "ok" ∨ w.status ∈ documentedStatuses) ∧ w.Sound := by
  constructor
  · intro h
    obtain ⟨e, h⟩ := h
    exact ⟨(tryIntoAdbc_ok hl h).1, (tryIntoAdbc_ok hl h).2.1⟩
  · intro h
    obtain ⟨hs, hsound⟩ := h
    obtain ⟨details, hd⟩ := mapM_ok_iff.mpr fun d hmem => (decodeDetail_ok_iff hl).mpr (hsound.details d hmem)
    have hr := refused_iff.not.mpr (not_not.mpr ⟨hs, hsound.five, hsound.ascii⟩)
    unfold tryIntoAdbc
    rw [if_neg hr, hd]
    exact ⟨_, rfl⟩

/-- The documented grammar is what is accepted, but for a sound record of status "ok". -/
theorem documented_iff (hl : base64.Lawful) :
    ((∃ e, w.tryIntoAdbc base64 = .ok e) ↔ w.Documented) ↔ ¬ (w.status = "ok" ∧ w.Sound) := by
  rw [tryIntoAdbc_ok_iff hl]
  constructor
  · intro h h'
    obtain ⟨hs, hsound⟩ := h'
    have hdoc := (h.mp ⟨.inl hs, hsound⟩).status
    rw [hs] at hdoc
    exact absurd hdoc (by decide)
  · intro h
    constructor
    · intro h
      rcases h with ⟨hs | hs, hsound⟩
      · exact absurd ⟨hs, hsound⟩ h
      · exact ⟨hs, hsound⟩
    · intro h
      obtain ⟨hs, hsound⟩ := h
      exact ⟨.inr hs, hsound⟩

/-- An error of status `Ok` comes of a record that says "ok" and is sound otherwise. -/
theorem intoAdbc_status_ok (hl : base64.Lawful) : (w.intoAdbc base64).status = .ok ↔ w.status = "ok" ∧ w.Sound := by
  unfold intoAdbc
  cases h : w.tryIntoAdbc base64 with
  | ok e =>
    obtain ⟨-, hsound, hstatus⟩ := tryIntoAdbc_ok hl h
    rw [show e.status = .ok ↔ w.status = "ok" from hstatus ▸ statusFromName_eq_ok]
    exact ⟨fun hs => ⟨hs, hsound⟩, fun hs => hs.1⟩
  | error e =>
    constructor
    · intro hs
      cases hs
    · intro h
      obtain ⟨hs, hsound⟩ := h
      obtain ⟨e', he⟩ := (tryIntoAdbc_ok_iff hl).mpr ⟨.inl hs, hsound⟩
      cases h.symm.trans he

/-! ## What comes back -/

/-- A C char as it is signed on the wire. -/
theorem ascii_iff {b : UInt8} : (0 ≤ b.toInt8.toInt ∧ b.toInt8.toInt ≤ 127) ↔ b.toNat < 128 := by
  have hb := b.toNat_lt
  have hv : b.toInt8.toInt = b.toBitVec.toInt := rfl
  have hn : b.toBitVec.toNat = b.toNat := rfl
  rw [hv, BitVec.toInt_eq_toNat_cond, hn]
  split <;> omega

theorem details_ofAdbc (hl : base64.Lawful) (l : List (String × Bytes)) :
    (l.map fun d => (d.1, base64.encode d.2)).mapM (decodeDetail base64) = .ok l := by
  induction l with
  | nil => rfl
  | cons d l ih =>
    have hd : decodeDetail base64 (d.1, base64.encode d.2) = .ok d := by
      unfold decodeDetail
      rw [hl.decode_encode]
    rw [List.map_cons, List.mapM_cons, hd, ih]
    rfl

/-- Absent and empty details are one thing on the wire. -/
theorem intoAdbc_ofAdbc (hl : base64.Lawful) (he : e.WellTyped) (h : ∀ b ∈ e.sqlstate, b.toNat < 128) :
    (ofAdbc base64 e).intoAdbc base64 = { e with details := e.details.filter fun l => !l.isEmpty } := by
  have hr : ¬ ((ofAdbc base64 e).sqlstate.length ≠ 5 ∨ (ofAdbc base64 e).sqlstate.any (· < 0) ∨
      (statusFromName (ofAdbc base64 e).status = .unknown ∧ (ofAdbc base64 e).status ≠ "unknown")) := by
    rw [refused_iff, not_not]
    refine ⟨?_, ?_, ?_⟩
    · rw [← known_status]
      intro h'
      obtain ⟨hs, hne⟩ := h'
      rw [ofAdbc, statusFromName_statusName] at hs
      rw [ofAdbc, hs] at hne
      exact hne rfl
    · simp only [ofAdbc, List.length_map]
      exact he.sqlstate
    · intro b hb
      obtain ⟨c, hc, rfl⟩ := List.mem_map.mp hb
      exact ascii_iff.mpr (h c hc)
  have hstate : (e.sqlstate.map UInt8.toInt8).map Int8.toUInt8 = e.sqlstate := by
    rw [List.map_map]
    exact List.map_id _
  have hdetails : (if (e.details.getD []).isEmpty then none else some (e.details.getD [])) =
      e.details.filter fun l => !l.isEmpty := by
    cases e.details with
    | none => rfl
    | some l => cases l <;> rfl
  unfold intoAdbc tryIntoAdbc
  rw [if_neg hr]
  simp only [ofAdbc, details_ofAdbc hl, bind, Except.bind, pure, Except.pure, statusFromName_statusName, hstate,
    hdetails, Int32.toInt_ofInt_of_le he.vendorCode.1 he.vendorCode.2]

theorem intoAdbc_ofAdbc_malformed (h : ∃ b ∈ e.sqlstate, 128 ≤ b.toNat) :
    (ofAdbc base64 e).intoAdbc base64 = malformed := by
  obtain ⟨b, hb, hge⟩ := h
  have hr : (ofAdbc base64 e).sqlstate.length ≠ 5 ∨ (ofAdbc base64 e).sqlstate.any (· < 0) ∨
      (statusFromName (ofAdbc base64 e).status = .unknown ∧ (ofAdbc base64 e).status ≠ "unknown") := by
    rw [refused_iff]
    intro h'
    obtain ⟨-, -, hall⟩ := h'
    have := ascii_iff.mp (hall b.toInt8 (List.mem_map_of_mem hb))
    omega
  unfold intoAdbc tryIntoAdbc
  rw [if_pos hr]

end WireAdbcError

end Grainlift.Protocol
