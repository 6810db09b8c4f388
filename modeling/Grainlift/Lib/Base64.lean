/-
  Grainlift.Lib.Base64 — base64 with the standard alphabet and canonical padding: the
  characters come in fours, only the last four may end in one or two `=`, and the bits the
  padding stands for are zero.

  `Valid` is that grammar; `decode` accepts it and nothing else (`decode_isSome`), and gives
  back what was encoded (`decode_encode`).
-/

import Mathlib.Algebra.Ring.Nat
import Mathlib.Data.List.GetD

namespace Grainlift.Lib.Base64

def alphabet : List Char := "ABCDEFGHIJKLMNOPQRSTUVWXYZabcdefghijklmnopqrstuvwxyz0123456789+/".toList

def digit (n : Nat) : Char := alphabet.getD n '='

def value (c : Char) : Option Nat := if c ∈ alphabet then some (alphabet.idxOf c) else none

def encodeChars : List UInt8 → List Char
  | [] => []
  | [a] => [digit (a.toNat / 4), digit (a.toNat % 4 * 16), '=', '=']
  | [a, b] =>
    [digit (a.toNat / 4), digit (a.toNat % 4 * 16 + b.toNat / 16), digit (b.toNat % 16 * 4), '=']
  | a :: b :: c :: rest =>
    digit (a.toNat / 4) :: digit (a.toNat % 4 * 16 + b.toNat / 16) :: digit (b.toNat % 16 * 4 + c.toNat / 64) ::
      digit (c.toNat % 64) :: encodeChars rest

/-- Three bytes of four digits. -/
def three (w x y z : Nat) : List UInt8 :=
  [UInt8.ofNat (w * 4 + x / 16), UInt8.ofNat (x % 16 * 16 + y / 4), UInt8.ofNat (y % 4 * 64 + z)]

/-- Four characters: a full group, or the padded one that must be the last. -/
def decodeGroup (last : Bool) (w x y z : Char) : Option (List UInt8) := do
  let w ← value w
  let x ← value x
  if last ∧ y = '=' ∧ z = '=' then
    if x % 16 = 0 then some ((three w x 0 0).take 1) else none
  else
    let y ← value y
    if last ∧ z = '=' then
      if y % 4 = 0 then some ((three w x y 0).take 2) else none
    else
      let z ← value z
      some (three w x y z)

def decodeChars : List Char → Option (List UInt8)
  | [] => some []
  | w :: x :: y :: z :: rest => do
    let group ← decodeGroup rest.isEmpty w x y z
    return group ++ (← decodeChars rest)
  | _ => none

def encode (bytes : List UInt8) : String := String.ofList (encodeChars bytes)

def decode (text : String) : Option (List UInt8) := decodeChars text.toList

/-! ## The grammar -/

/-- The character stands for a number whose low `bits` bits are zero. -/
def Digit (bits : Nat) (c : Char) : Prop := ∃ n < 64, c = digit n ∧ n % 2 ^ bits = 0

inductive ValidChars : List Char → Prop
  | nil : ValidChars []
  | four {w x y z : Char} {rest : List Char} :
      Digit 0 w → Digit 0 x → Digit 0 y → Digit 0 z → ValidChars rest → ValidChars (w :: x :: y :: z :: rest)
  | padOne {w x y : Char} : Digit 0 w → Digit 0 x → Digit 2 y → ValidChars [w, x, y, '=']
  | padTwo {w x : Char} : Digit 0 w → Digit 4 x → ValidChars [w, x, '=', '=']

def Valid (text : String) : Prop := ValidChars text.toList

/-! ## Digits -/

theorem alphabet_length : alphabet.length = 64 := by decide +kernel

theorem alphabet_nodup : alphabet.Nodup := by decide +kernel

theorem digit_eq {n : Nat} (hn : n < 64) : ∃ h : n < alphabet.length, digit n = alphabet[n] := by
  have h : n < alphabet.length := alphabet_length ▸ hn
  exact ⟨h, List.getD_eq_getElem _ _ h⟩

theorem value_digit {n : Nat} (hn : n < 64) : value (digit n) = some n := by
  obtain ⟨h, he⟩ := digit_eq hn
  unfold value
  rw [he, if_pos (List.getElem_mem h), alphabet_nodup.idxOf_getElem n h]

theorem value_pad : value '=' = none := by decide +kernel

theorem digit_ne_pad {bits : Nat} {c : Char} (h : Digit bits c) : c ≠ '=' := by
  intro heq
  subst heq
  obtain ⟨n, hn, hc, -⟩ := h
  have hv := value_digit hn
  rw [← hc, value_pad] at hv
  cases hv

theorem value_eq_some {c : Char} {n : Nat} (h : value c = some n) : n < 64 ∧ c = digit n := by
  unfold value at h
  split at h
  · rename_i hmem
    cases h
    have hlt := List.idxOf_lt_length_iff.mpr hmem
    refine ⟨alphabet_length ▸ hlt, ?_⟩
    unfold digit
    rw [List.getD_eq_getElem _ _ hlt, List.getElem_idxOf]
  · cases h

theorem digit_iff {bits : Nat} {c : Char} : Digit bits c ↔ ∃ n, value c = some n ∧ n % 2 ^ bits = 0 := by
  constructor
  · intro h
    obtain ⟨n, hn, rfl, hz⟩ := h
    exact ⟨n, value_digit hn, hz⟩
  · intro h
    obtain ⟨n, hv, hz⟩ := h
    obtain ⟨hn, hc⟩ := value_eq_some hv
    exact ⟨n, hn, hc, hz⟩

/-! ## What is accepted -/

theorem decodeChars_group (w x y z : Char) (rest : List Char) :
    decodeChars (w :: x :: y :: z :: rest) =
      (decodeGroup rest.isEmpty w x y z).bind fun group => (decodeChars rest).map (group ++ ·) := by
  simp only [decodeChars, bind, Option.map_eq_bind, pure, Function.comp_def]

/-- A group that is not padded. -/
theorem decodeGroup_full {last : Bool} {w x y z : Char} (hz : z ≠ '=') :
    decodeGroup last w x y z = (value w).bind fun w => (value x).bind fun x => (value y).bind fun y =>
      (value z).bind fun z => some (three w x y z) := by
  simp [decodeGroup, hz, bind]

theorem decodeGroup_padOne {w x y : Char} (hy : y ≠ '=') :
    decodeGroup true w x y '=' = (value w).bind fun w => (value x).bind fun x => (value y).bind fun y =>
      if y % 4 = 0 then some ((three w x y 0).take 2) else none := by
  simp [decodeGroup, hy, bind]

theorem decodeGroup_padTwo {w x : Char} :
    decodeGroup true w x '=' '=' = (value w).bind fun w => (value x).bind fun x =>
      if x % 16 = 0 then some ((three w x 0 0).take 1) else none := by
  simp [decodeGroup, bind]

/-- `=` is no digit, so only the last group may hold one. -/
theorem decodeGroup_pad_inside {w x y : Char} : decodeGroup false w x y '=' = none := by
  simp [decodeGroup, value_pad, bind]

/-- What a group must look like. -/
def Group (last : Bool) (w x y z : Char) : Prop :=
  (Digit 0 w ∧ Digit 0 x ∧ Digit 0 y ∧ Digit 0 z) ∨
  (last = true ∧ Digit 0 w ∧ Digit 0 x ∧ Digit 2 y ∧ z = '=') ∨
  (last = true ∧ Digit 0 w ∧ Digit 4 x ∧ y = '=' ∧ z = '=')

theorem decodeGroup_isSome {last : Bool} {w x y z : Char} :
    (decodeGroup last w x y z).isSome ↔ Group last w x y z := by
  have hpad : ∀ {bits : Nat}, ¬ Digit bits '=' := fun h => digit_ne_pad h rfl
  unfold Group
  by_cases hz : z = '='
  · subst hz
    cases last with
    | false => simp [decodeGroup_pad_inside, hpad]
    | true =>
      by_cases hy : y = '='
      · subst hy
        rw [decodeGroup_padTwo]
        simp only [hpad, and_false, false_or, true_and, and_true]
        simp only [digit_iff, Nat.pow_zero, Nat.mod_one, and_true]
        cases value w <;> cases value x <;> simp
      · rw [decodeGroup_padOne hy]
        simp only [hpad, hy, and_false, false_or, or_false, true_and, and_true]
        simp only [digit_iff, Nat.pow_zero, Nat.mod_one, and_true]
        cases value w <;> cases value x <;> cases value y <;> simp
  · rw [decodeGroup_full hz]
    simp only [hz, and_false, or_false]
    simp only [digit_iff, Nat.pow_zero, Nat.mod_one, and_true]
    cases value w <;> cases value x <;> cases value y <;> cases value z <;> simp

theorem validChars_group {w x y z : Char} {rest : List Char} :
    ValidChars (w :: x :: y :: z :: rest) ↔ Group rest.isEmpty w x y z ∧ ValidChars rest := by
  constructor
  · intro h
    cases h with
    | four hw hx hy hz hr => exact ⟨.inl ⟨hw, hx, hy, hz⟩, hr⟩
    | padOne hw hx hy => exact ⟨.inr (.inl ⟨rfl, hw, hx, hy, rfl⟩), .nil⟩
    | padTwo hw hx => exact ⟨.inr (.inr ⟨rfl, hw, hx, rfl, rfl⟩), .nil⟩
  · intro h
    rcases h with ⟨⟨hw, hx, hy, hz⟩ | ⟨he, hw, hx, hy, rfl⟩ | ⟨he, hw, hx, rfl, rfl⟩, hr⟩
    · exact .four hw hx hy hz hr
    · obtain rfl := List.isEmpty_iff.mp he
      exact .padOne hw hx hy
    · obtain rfl := List.isEmpty_iff.mp he
      exact .padTwo hw hx

theorem decodeChars_isSome (text : List Char) : (decodeChars text).isSome ↔ ValidChars text := by
  induction text using decodeChars.induct with
  | case1 => exact ⟨fun _ => .nil, fun _ => rfl⟩
  | case2 w x y z rest ih =>
    rw [decodeChars_group, validChars_group, ← ih, ← decodeGroup_isSome]
    cases decodeGroup rest.isEmpty w x y z <;> simp
  | case3 text h1 h2 =>
    have hnone : decodeChars text = none := by
      unfold decodeChars
      split
      · exact absurd rfl h1
      · exact absurd rfl (h2 _ _ _ _ _)
      · rfl
    rw [hnone]
    constructor
    · intro h
      cases h
    · intro h
      cases h with
      | nil => exact absurd rfl h1
      | four | padOne | padTwo => exact absurd rfl (h2 _ _ _ _ _)

theorem decode_isSome (text : String) : (decode text).isSome ↔ Valid text := decodeChars_isSome _

/-! ## What comes back -/

theorem byte_eq {n : Nat} {a : UInt8} (h : n = a.toNat) : UInt8.ofNat n = a := by
  rw [h, UInt8.ofNat_toNat]

theorem decodeChars_encodeChars (bytes : List UInt8) : decodeChars (encodeChars bytes) = some bytes := by
  induction bytes using encodeChars.induct with
  | case1 => rfl
  | case2 a =>
    have ha := a.toNat_lt
    rw [encodeChars, decodeChars_group, List.isEmpty_nil, decodeGroup_padTwo, value_digit (by omega),
      value_digit (by omega)]
    simp only [Option.bind_some, if_pos (show a.toNat % 4 * 16 % 16 = 0 by omega), three, List.take_succ_cons,
      List.take_zero, decodeChars, Option.map_some, List.append_nil]
    rw [byte_eq (a := a) (by omega)]
  | case3 a b =>
    have ha := a.toNat_lt
    have hb := b.toNat_lt
    have hy : digit (b.toNat % 16 * 4) ≠ '=' := @digit_ne_pad 0 _ ⟨_, by omega, rfl, Nat.mod_one _⟩
    rw [encodeChars, decodeChars_group, List.isEmpty_nil, decodeGroup_padOne hy, value_digit (by omega),
      value_digit (by omega), value_digit (by omega)]
    simp only [Option.bind_some, if_pos (show b.toNat % 16 * 4 % 4 = 0 by omega), three, List.take_succ_cons,
      List.take_zero, decodeChars, Option.map_some, List.append_nil]
    rw [byte_eq (a := a) (by omega), byte_eq (a := b) (by omega)]
  | case4 a b c rest ih =>
    have ha := a.toNat_lt
    have hb := b.toNat_lt
    have hc := c.toNat_lt
    have hz : digit (c.toNat % 64) ≠ '=' := @digit_ne_pad 0 _ ⟨_, by omega, rfl, Nat.mod_one _⟩
    rw [encodeChars, decodeChars_group, decodeGroup_full hz, value_digit (by omega), value_digit (by omega),
      value_digit (by omega), value_digit (by omega), ih]
    simp only [Option.bind_some, three, Option.map_some, List.cons_append, List.nil_append]
    rw [byte_eq (a := a) (by omega), byte_eq (a := b) (by omega), byte_eq (a := c) (by omega)]

theorem decode_encode (bytes : List UInt8) : decode (encode bytes) = some bytes := by
  unfold decode encode
  rw [String.toList_ofList]
  exact decodeChars_encodeChars bytes

end Grainlift.Lib.Base64
