/-
  Grainlift.Client.RemoteErrors — what an ADBC error of the server becomes at the client
  (`adbc_rpc_error`, service.rs; `rpc_error`, adbc-driver-grainlift/src/lib.rs).

  The server sends the record of an error as JSON, in the message of an RPC error of type
  "AdbcError"; the client takes the message with the prefix the Python transport puts
  before it or without. serde_json and base64 are not part of the repository: the writer and
  reader of the record are a `Json`, of which `Faithful` states what is relied on for one
  record; the engine is a `Base64.Lawful` one.

  Proved: an error arrives as it was sent, or, if its SQLSTATE is not ASCII, as the one
  malformed-error value; never as a part of itself (`error_fidelity`). A peer's record with
  the status "ok" is taken for an error of status `Ok`, against the documentation
  (`ok_record_is_accepted`), and nothing else is (`remote_error_grammar_iff`).
-/

import Grainlift.Protocol.Errors

namespace Grainlift.Client

open Grainlift.Lib Grainlift.Protocol

/-- `RpcError` of the transport, as far as the two ends use it. -/
structure RemoteRpcError where
  errorType : String
  message : String
  errorKind : Option String
  deriving DecidableEq

/-- `serde_json` at `WireAdbcError`. -/
structure Json where
  toString : WireAdbcError → Option String
  fromStr : String → Option WireAdbcError

def jsonSpace (c : Char) : Bool := c = ' ' || c = '\n' || c = '\t' || c = '\r'

/-- The first character of a JSON text that is no white space. -/
def jsonHead (text : String) : Option Char := (text.toList.dropWhile jsonSpace).head?

/-- The record is written as an object and reads back; only an object or an array is read
    as a record at all. -/
structure Json.Faithful (json : Json) (w : WireAdbcError) : Prop where
  written : ∃ text, json.toString w = some text ∧ json.fromStr text = some w ∧ text.toList.head? = some '\x7b'
  head : ∀ text w', json.fromStr text = some w' → jsonHead text = some '\x7b' ∨ jsonHead text = some '['

/-- `strip_prefix`. -/
def stripStart (start text : String) : Option String :=
  if start.toList.isPrefixOf text.toList then some (String.ofList (text.toList.drop start.toList.length)) else none

/-- What the Python transport puts before the message. -/
def pythonPrefix : String := "AdbcError: "

section

variable (base64 : Base64) (json : Json) (display : RemoteRpcError → String)

def adbcRpcError (error : AdbcError) : RemoteRpcError where
  errorType := "AdbcError"
  message := (json.toString (.ofAdbc base64 error)).getD error.message
  errorKind := some ("adbc." ++ statusName error.status)

def rpcError (error : RemoteRpcError) : AdbcError :=
  let wire := if error.errorType = "AdbcError" then
      json.fromStr ((stripStart pythonPrefix error.message).getD error.message)
    else none
  match wire with
  | some wire => wire.intoAdbc base64
  | none => .withMessageAndStatus (display error) .io

end

/-! ## The prefix -/

theorem stripStart_append (start text : String) : stripStart start (start ++ text) = some text := by
  unfold stripStart
  rw [String.toList_append, if_pos (List.isPrefixOf_iff_prefix.mpr (List.prefix_append _ _)), List.drop_left,
    String.ofList_toList]

/-- An object has no prefix to strip. -/
theorem stripStart_object {text : String} (h : text.toList.head? = some '\x7b') : stripStart pythonPrefix text = none := by
  have hstart : pythonPrefix.toList = 'A' :: "dbcError: ".toList := rfl
  unfold stripStart
  rw [if_neg]
  rw [hstart]
  cases ht : text.toList with
  | nil => simp
  | cons c rest =>
    rw [ht] at h
    cases h
    simp

theorem jsonHead_python (text : String) : jsonHead (pythonPrefix ++ text) = some 'A' := by
  have hstart : pythonPrefix.toList = 'A' :: "dbcError: ".toList := rfl
  unfold jsonHead
  rw [String.toList_append, hstart]
  rfl

variable {base64 : Base64} {json : Json} {display : RemoteRpcError → String} {e : AdbcError}

theorem rpcError_status_ok (hl : base64.Lawful) {error : RemoteRpcError} :
    (rpcError base64 json display error).status = .ok ↔ error.errorType = "AdbcError" ∧
      ∃ w, json.fromStr ((stripStart pythonPrefix error.message).getD error.message) = some w ∧ w.status = "ok" ∧
        w.Sound := by
  unfold rpcError
  by_cases ht : error.errorType = "AdbcError"
  · rw [if_pos ht]
    cases hw : json.fromStr ((stripStart pythonPrefix error.message).getD error.message) with
    | none => simp [AdbcError.withMessageAndStatus]
    | some w => simp [ht, WireAdbcError.intoAdbc_status_ok hl]
  · rw [if_neg ht]
    simp [AdbcError.withMessageAndStatus, ht]

/-! ## What the decoder accepts -/

/-- The decoder accepts the documented grammar, and no `Ok` comes out of the client, for
    every record but a sound one with the status "ok". -/
theorem remote_error_grammar_iff (base64 : Base64) (hl : base64.Lawful) (w : WireAdbcError) (json : Json)
    (display : RemoteRpcError → String) (error : RemoteRpcError) :
    (((∃ e, w.tryIntoAdbc base64 = .ok e) ↔ w.Documented) ↔ ¬ (w.status = "ok" ∧ w.Sound)) ∧
    ((rpcError base64 json display error).status ≠ .ok ↔ ¬ (error.errorType = "AdbcError" ∧
      ∃ w, json.fromStr ((stripStart pythonPrefix error.message).getD error.message) = some w ∧ w.status = "ok" ∧
        w.Sound)) := by
  refine ⟨?_, ?_⟩
  · exact WireAdbcError.documented_iff hl
  · exact (rpcError_status_ok hl).not

def okRecord : WireAdbcError := ⟨"ok", "done", 0, [0, 0, 0, 0, 0], []⟩

def okText : String := "\x7b\"status\":\"ok\",\"message\":\"done\",\"vendor_code\":0,\"sqlstate\":[0,0,0,0,0],\"details\":[]\x7d"

/-- A JSON codec of one record. -/
def oneJson (w : WireAdbcError) (text : String) : Json where
  toString w' := if w' = w then some text else none
  fromStr text' := if text' = text then some w else none

@[simp] theorem oneJson_toString (w : WireAdbcError) (text : String) : (oneJson w text).toString w = some text := by
  simp [oneJson]

@[simp] theorem oneJson_fromStr (w : WireAdbcError) (text : String) : (oneJson w text).fromStr text = some w := by
  simp [oneJson]

theorem oneJson_faithful {w : WireAdbcError} {text : String} (h : text.toList.head? = some '\x7b') :
    (oneJson w text).Faithful w := by
  refine ⟨⟨text, oneJson_toString w text, oneJson_fromStr w text, h⟩, ?_⟩
  intro text' w' hw
  by_cases heq : text' = text
  case neg => simp [oneJson, heq] at hw
  left
  rw [heq]
  unfold jsonHead
  cases ht : text.toList with
  | nil =>
    rw [ht] at h
    cases h
  | cons c rest =>
    rw [ht] at h
    cases h
    rfl

/-- A record of status "ok": accepted, not documented, and an error of status `Ok` at the
    client. -/
theorem ok_record_is_accepted :
    ¬ ((∃ e, okRecord.tryIntoAdbc .standard = .ok e) ↔ okRecord.Documented) ∧
    (rpcError .standard (oneJson okRecord okText) (·.message) ⟨"AdbcError", okText, none⟩).status = .ok := by
  have hsound : okRecord.Sound := ⟨rfl, by simp [okRecord], fun d hd => (List.not_mem_nil hd).elim⟩
  refine ⟨?_, ?_⟩
  · exact (WireAdbcError.documented_iff Base64.standard_lawful).not.mpr (not_not.mpr ⟨rfl, hsound⟩)
  · rw [rpcError_status_ok Base64.standard_lawful]
    refine ⟨rfl, okRecord, ?_, rfl, hsound⟩
    rw [stripStart_object rfl, Option.getD_none, oneJson_fromStr]

/-- "HY001" under a status the protocol does not know: it is not documented, and it is not
    accepted. -/
theorem remote_error_grammar_iff_unknown :
    ¬ ∃ e, (⟨"fine", "done", 0, [72, 89, 48, 48, 49], []⟩ : WireAdbcError).tryIntoAdbc .standard = .ok e := by
  have h := (remote_error_grammar_iff .standard Base64.standard_lawful ⟨"fine", "done", 0, [72, 89, 48, 48, 49], []⟩
    (oneJson okRecord okText) (·.message) ⟨"AdbcError", okText, none⟩).1
  exact fun ha => absurd ((h.mpr fun hs => absurd hs.1 (by decide)).mp ha).status (by decide)

/-! ## From end to end -/

/-- What the client makes of a message with the record of `e`, behind `start`. -/
theorem rpcError_sent {start : String} {text : String} (hs : start = "" ∨ start = pythonPrefix)
    (ht : json.toString (.ofAdbc base64 e) = some text) (hr : json.fromStr text = some (.ofAdbc base64 e))
    (hh : text.toList.head? = some '\x7b') :
    rpcError base64 json display
        { adbcRpcError base64 json e with message := start ++ (adbcRpcError base64 json e).message } =
      (WireAdbcError.ofAdbc base64 e).intoAdbc base64 := by
  have hm : (adbcRpcError base64 json e).message = text := by rw [adbcRpcError, ht]; rfl
  have hstrip : (stripStart pythonPrefix (start ++ text)).getD (start ++ text) = text := by
    rcases hs with rfl | rfl
    · rw [String.empty_append, stripStart_object hh]
      rfl
    · rw [stripStart_append]
      rfl
  unfold rpcError
  simp only [adbcRpcError, ht, Option.getD_some, if_true, hstrip, hr]

/-- An error with an ASCII SQLSTATE arrives as it was sent, behind the Python transport's prefix
    or without, but that empty details are none; any other arrives as the malformed error. Two
    prefixes make an IO error of it. -/
theorem error_fidelity (base64 : Base64) (hl : base64.Lawful) (json : Json) (display : RemoteRpcError → String)
    (e : AdbcError) (he : e.WellTyped) (hj : json.Faithful (.ofAdbc base64 e)) :
    (∀ start, start = "" ∨ start = pythonPrefix →
      let r := rpcError base64 json display
        { adbcRpcError base64 json e with message := start ++ (adbcRpcError base64 json e).message }
      ((∀ b ∈ e.sqlstate, b.toNat < 128) → r = { e with details := e.details.filter fun l => !l.isEmpty }) ∧
      (¬ (∀ b ∈ e.sqlstate, b.toNat < 128) → r = WireAdbcError.malformed ∧ r.status = .invalidData)) ∧
    (rpcError base64 json display { adbcRpcError base64 json e with
      message := pythonPrefix ++ (pythonPrefix ++ (adbcRpcError base64 json e).message) }).status = .io := by
  obtain ⟨text, ht, hr, hh⟩ := hj.written
  refine ⟨?_, ?_⟩
  · intro start hs r
    have hsent : r = (WireAdbcError.ofAdbc base64 e).intoAdbc base64 := rpcError_sent hs ht hr hh
    rw [hsent]
    refine ⟨WireAdbcError.intoAdbc_ofAdbc hl he, ?_⟩
    intro hb
    have hex : ∃ b ∈ e.sqlstate, 128 ≤ b.toNat := by simpa using hb
    rw [WireAdbcError.intoAdbc_ofAdbc_malformed hex]
    exact ⟨rfl, rfl⟩
  · -- one prefix is left, and no record starts with it
    have hnone : json.fromStr (pythonPrefix ++ text) = none := by
      cases hw : json.fromStr (pythonPrefix ++ text) with
      | none => rfl
      | some w' =>
        rcases hj.head _ w' hw with h | h
        · rw [jsonHead_python] at h
          cases h
        · rw [jsonHead_python] at h
          cases h
    unfold rpcError
    simp only [adbcRpcError, ht, Option.getD_some, if_true, stripStart_append, hnone]
    rfl

/-- "HY001" with a binary detail, and a message that begins with the prefix itself. -/
def sample : AdbcError := ⟨"AdbcError: no", .invalidData, 73, [72, 89, 48, 48, 49], some [("binary", [0, 255])]⟩

def sampleText : String :=
  "\x7b\"status\":\"invalid_data\",\"message\":\"AdbcError: no\",\"vendor_code\":73,\"sqlstate\":[72,89,48,48,49]," ++
    "\"details\":[[\"binary\",\"AP8=\"]]\x7d"

theorem error_fidelity_sample :
    rpcError .standard (oneJson (.ofAdbc .standard sample) sampleText) (·.message) ⟨"AdbcError", pythonPrefix ++ sampleText,
      some "adbc.invalid_data"⟩ = sample := by
  have he : sample.WellTyped := ⟨rfl, by decide⟩
  have hj : (oneJson (.ofAdbc .standard sample) sampleText).Faithful (.ofAdbc .standard sample) :=
    oneJson_faithful (by decide +kernel)
  have h := ((error_fidelity .standard Base64.standard_lawful (oneJson (.ofAdbc .standard sample) sampleText) (·.message)
    sample he hj).1 pythonPrefix (.inr rfl)).1 (by simp [sample])
  have hsent : adbcRpcError .standard (oneJson (.ofAdbc .standard sample) sampleText) sample =
      ⟨"AdbcError", sampleText, some "adbc.invalid_data"⟩ := by
    rw [adbcRpcError, oneJson_toString]
    rfl
  rw [hsent] at h
  exact h

end Grainlift.Client
