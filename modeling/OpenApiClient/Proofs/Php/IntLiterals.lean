import OpenApiClient.Proofs.Json.Numerals
import OpenApiClient.Proofs.Php.CaseNames
import OpenApiClient.Proofs.Php.EnumTypes

/-!
The literals of an enum of integers, as PHP reads them. A sign is not a part of a number but an operator before it, so
the digits have to be an integer by themselves: what is written for the least integer of 64 bits is a float.
-/

namespace OpenApiClient

namespace Php

def largestInt : Nat := Nat.pow 2 63 - 1

def leastInt : Int := -(Nat.pow 2 63 : Nat)

-- A decimal number without a sign. Digits that make too large an integer make a float, and after a zero that comes first
-- they are not decimal.
def readUnsigned? (s : List Char) : Option Json.Number :=
  if s ≠ [] ∧ s.all Text.isAsciiDigit ∧ (s.head? = some '0' → s = ['0']) then
    if Text.natOfDigits s ≤ largestInt then some (.int (Text.natOfDigits s))
    else (Binary64.ofRatio (Text.natOfDigits s) 1).map .float
  else none

def negate : Json.Number → Json.Number
  | .int n => .int (-n)
  | .float x => .float x.neg

def readNumber? : List Char → Option Json.Number
  | '-' :: s => (readUnsigned? s).map negate
  | s => readUnsigned? s

theorem readUnsigned?_toDigits (n : Nat) : readUnsigned? (Nat.toDigits 10 n) =
    if n ≤ largestInt then some (.int n) else (Binary64.ofRatio n 1).map .float := by
  have digits : (Nat.toDigits 10 n).all Text.isAsciiDigit :=
    List.all_eq_true.mpr Json.Reader.isAsciiDigit_of_mem_toDigits
  have decimal : (Nat.toDigits 10 n).head? = some '0' → Nat.toDigits 10 n = ['0'] := by
    intro zero
    obtain ⟨rest, written⟩ := List.head?_eq_some_iff.mp zero
    obtain rfl := Text.eq_zero_of_toDigits written
    rfl
  rw [readUnsigned?, if_pos ⟨Nat.toDigits_ne_nil, digits, decimal⟩, Text.natOfDigits_toDigits]

theorem readUnsigned?_toDigits_eq_int_iff {n : Nat} {m : Int} :
    readUnsigned? (Nat.toDigits 10 n) = some (.int m) ↔ n ≤ largestInt ∧ m = n := by
  rw [readUnsigned?_toDigits]
  split
  case isTrue small => simp [small, eq_comm]
  case isFalse large => simp [large]

theorem negate_eq_int_iff {x : Json.Number} {m : Int} : negate x = .int m ↔ x = .int (-m) := by
  cases x with
  | int n =>
    simp only [negate, Json.Number.int.injEq]
    omega
  | float => simp [negate]

-- The digits are read without the sign, so there is one for which they are too large only with it.
theorem readNumber?_intText_eq_int_iff {n m : Int} :
    readNumber? (Json.intText n) = some (.int m) ↔ n.natAbs ≤ largestInt ∧ m = n := by
  unfold Json.intText
  split
  case isTrue negative =>
    simp only [readNumber?, Option.map_eq_some_iff, negate_eq_int_iff, exists_eq_right,
      readUnsigned?_toDigits_eq_int_iff]
    omega
  case isFalse positive =>
    have unsigned : readNumber? (Nat.toDigits 10 n.natAbs) = readUnsigned? (Nat.toDigits 10 n.natAbs) := by
      unfold readNumber?
      split
      case h_1 rest written =>
        have digit := Json.Reader.isAsciiDigit_of_mem_toDigits '-' (written ▸ List.mem_cons_self)
        contradiction
      case h_2 => rfl
    rw [unsigned, readUnsigned?_toDigits_eq_int_iff]
    omega

end Php

namespace Schema

variable {values : List Json.Value}

theorem isSigned64_of_intEnum (h : enumKind? values = some .intEnum) :
    ∀ value ∈ scalarValues values, value.isSigned64 := by
  cases typed_of_enumKind? h with
  | ints all_ints =>
    intro value scalar
    exact literalHint_eq_int_iff.mp (all_ints _ (mem_caseTypes.mpr (List.mem_map_of_mem scalar)))

theorem scalarValues_of_enum {kind : SchemaKind} (h : enumKind? values = some kind) :
    scalarValues values = values.filter (!·.isNull) := by
  simp only [scalarValues]
  split
  case isTrue structured => simp [enumKind?, scalarValues, structured] at h
  case isFalse => rfl

theorem lt_of_intEnum (h : enumKind? values = some .intEnum) {n : Int} (there : .number (.int n) ∈ values) :
    n < Nat.pow 2 63 := by
  have scalar : .number (.int n) ∈ scalarValues values := by
    simpa [scalarValues_of_enum h, Json.Value.isNull] using there
  simpa [Json.Value.isSigned64] using isSigned64_of_intEnum h _ scalar

end Schema

namespace EnumCase

variable {values : List Json.Value} {n : Int}

theorem eq_int_of_mem_literals (h : Schema.enumKind? values = some .intEnum) {l : Literal}
    (hl : l ∈ (Schema.scalarValues values).filterMap Literal.ofJson?) : ∃ n, l = .int n := by
  obtain ⟨value, scalar, made⟩ := List.mem_filterMap.mp hl
  obtain ⟨no_null, unstructured⟩ := Schema.of_mem_scalarValues scalar
  obtain ⟨l', made', hint⟩ := Literal.hint_ofJson? no_null unstructured
  obtain rfl := Option.some.inj (made.symm.trans made')
  rw [← Literal.hint_eq_int_iff, hint, Schema.literalHint_eq_int_iff]
  exact Schema.isSigned64_of_intEnum h value scalar

-- The cases of an enum of integers are those of its values.
theorem exists_int_case_iff (h : Schema.enumKind? values = some .intEnum) :
    (∃ c ∈ ofValues values, c.value = .int n) ↔ .number (.int n) ∈ values := by
  have no_floats : Literal.FloatsTold ((Schema.scalarValues values).filterMap Literal.ofJson?) := by
    intro a ha b _ float
    obtain ⟨n, rfl⟩ := eq_int_of_mem_literals h ha
    simp [Literal.hint] at float
  have made {value : Json.Value} :
      Literal.ofJson? value = some (.int n) ↔ value = .number (.int n) ∧ n < Nat.pow 2 63 := by
    unfold Literal.ofJson?
    grind
  rw [ofValues, EnumTable.ofValues, ← EnumTable.mem_iff_exists_case no_floats, List.mem_filterMap,
    Schema.scalarValues_of_enum h]
  simpa [made, Json.Value.isNull] using Schema.lt_of_intEnum h

theorem eq_int_of_intEnum (h : Schema.enumKind? values = some .intEnum) {c : EnumCase} (hc : c ∈ ofValues values) :
    ∃ n, c.value = .int n ∧ n < Nat.pow 2 63 := by
  have int : c.value.hint = .int := by
    cases Schema.typed_of_enumKind? h with
    | ints all_ints => exact all_ints _ (List.mem_map_of_mem hc)
  obtain ⟨n, value⟩ := Literal.hint_eq_int_iff.mp int
  exact ⟨n, value, Schema.lt_of_intEnum h ((exists_int_case_iff h).mp ⟨c, hc, value⟩)⟩

end EnumCase

theorem Php.DeclaredCase.forall_literals_iff {P : String → Prop} {reserved : List String} {cases : List EnumCase} :
    (∀ c ∈ ofCases reserved cases, P c.literal) ↔ ∀ c ∈ cases, P (Php.literal c.value) := by
  have all : (∀ s ∈ (ofCases reserved cases).map (·.literal), P s) ↔ ∀ s ∈ cases.map (Php.literal ·.value), P s := by
    rw [literals_ofCases]
  simpa only [List.forall_mem_map] using all

-- PHP reads the literals of an enum of integers as the values of its cases, but that of the least integer, which it
-- refuses as a value of the enum.
theorem Php.int_literals_read_iff {values : List Json.Value} (h : Schema.enumKind? values = some .intEnum) :
    let cases := EnumCase.ofValues values
    let declared := DeclaredCase.ofCases reservedCases cases
    declared.map (·.literal) = cases.map (literal ·.value) ∧
    (∀ c ∈ cases, ∃ n, c.value = .int n ∧ (readNumber? (literal c.value).toList = some (.int n) ↔ leastInt < n)) ∧
    ((∀ c ∈ declared, ∃ n, readNumber? c.literal.toList = some (.int n)) ↔
      ∀ n, .number (.int n) ∈ values → leastInt < n) ∧
    ∀ root (e : Entity), e.kind = .intEnum → e.cases = cases → ∃ f, enumFile? root e = some f ∧ f.heritage = ": int" ∧
      f.members = declared.map fun c => "case " ++ c.name ++ " = " ++ c.literal ++ ";" := by
  intro cases declared
  have literals : declared.map (·.literal) = cases.map (literal ·.value) := DeclaredCase.literals_ofCases _ cases
  have reads {c : EnumCase} (hc : c ∈ cases) : ∃ n, c.value = .int n ∧
      ∀ m, readNumber? (literal c.value).toList = some (.int m) ↔ leastInt < n ∧ m = n := by
    obtain ⟨n, value, small⟩ := EnumCase.eq_int_of_intEnum h hc
    have in_range : n.natAbs ≤ largestInt ↔ leastInt < n := by
      unfold largestInt leastInt
      omega
    refine ⟨n, value, fun m => ?_⟩
    rw [value, literal, String.toList_ofList, readNumber?_intText_eq_int_iff, in_range]
  refine ⟨literals, fun c hc => ?_, ?_, fun root e kind of_e => ?_⟩
  · obtain ⟨n, value, reads⟩ := reads hc
    exact ⟨n, value, (reads n).trans (and_iff_left rfl)⟩
  · rw [DeclaredCase.forall_literals_iff (P := fun s => ∃ n, readNumber? s.toList = some (.int n))]
    constructor
    · intro all n there
      obtain ⟨c, hc, value⟩ := (EnumCase.exists_int_case_iff h).mpr there
      obtain ⟨n', value', reads⟩ := reads hc
      obtain rfl := Literal.int.inj (value.symm.trans value')
      obtain ⟨m, read⟩ := all c hc
      exact ((reads m).mp read).1
    · intro large c hc
      obtain ⟨n, value, reads⟩ := reads hc
      exact ⟨n, (reads n).mpr ⟨large n ((EnumCase.exists_int_case_iff h).mp ⟨c, hc, value⟩), rfl⟩⟩
  · refine ⟨backedEnumFile root e "int", by rw [enumFile?, kind], rfl, ?_⟩
    rw [backedEnumFile, of_e]

namespace Balances

-- The largest integer, and the least but one.
def values : List Json.Value :=
  [.number (.int 9223372036854775807), .null, .number (.int (-9223372036854775807)), .number (.int 0)]

end Balances

theorem Php.balances_read : Schema.enumKind? Balances.values = some .intEnum ∧
    let cases := EnumCase.ofValues Balances.values
    cases.map (·.value) = [.int 9223372036854775807, .int (-9223372036854775807), .int 0] ∧
    (∀ c ∈ cases, ∃ n, c.value = .int n ∧ readNumber? (literal c.value).toList = some (.int n)) ∧
    ∀ c ∈ DeclaredCase.ofCases reservedCases cases, ∃ n, readNumber? c.literal.toList = some (.int n) := by
  have kind : Schema.enumKind? Balances.values = some .intEnum := by decide
  have large : ∀ n, .number (.int n) ∈ Balances.values → leastInt < n := by
    unfold leastInt
    simp [Balances.values]
  obtain ⟨-, each, all, -⟩ := int_literals_read_iff kind
  refine ⟨kind, by decide +kernel, fun c hc => ?_, all.mpr large⟩
  obtain ⟨n, value, read⟩ := each c hc
  exact ⟨n, value, read.mpr (large n ((EnumCase.exists_int_case_iff kind).mp ⟨c, hc, value⟩))⟩

-- The digits of the least integer are beyond the largest one.
theorem Php.not_int_literals_read : Schema.enumKind? [.number (.int leastInt)] = some .intEnum ∧
    let cases := EnumCase.ofValues [.number (.int leastInt)]
    cases.map (·.value) = [.int leastInt] ∧
    (DeclaredCase.ofCases reservedCases cases).map (·.literal) = ["-9223372036854775808"] ∧
    readNumber? "-9223372036854775808".toList = some (.float ⟨true, Nat.pow 2 52, 11⟩) := by
  decide +kernel

end OpenApiClient
