import OpenApiClient.Json.Reader
import OpenApiClient.Json.Writer

/-!
Texts in JSON: each character is escaped to something that reads back as this character.
-/

namespace OpenApiClient.Json.Reader

-- All the ways in which a character is written.
inductive Escapes (c : Char) : List Char → Prop
  | short {letter} : shortEscape? letter = some c → Escapes c ['\\', letter]
  | control : c.toNat < 32 → Escapes c ['\\', 'u', '0', '0', hexDigit (c.toNat / 16), hexDigit c.toNat]
  | plain : ¬ c.toNat < 32 → c ≠ '"' → c ≠ '\\' → Escapes c [c]

theorem escapes (c : Char) : Escapes c (escapeChar c) := by
  unfold escapeChar
  split
  case h_8 =>
    split
    case isTrue low => exact .control low
    case isFalse high => exact .plain high ‹_› ‹_›
  all_goals exact .short rfl

-- A unit that is no surrogate means the character with its number, whatever is next.
theorem textOf_unit {n : Nat} {parts : List StringPart} (h : n < 32) :
    textOf (.unit n :: parts) = (textOf parts).map (Char.ofNat n :: ·) := by
  have whole : isHighSurrogate n = false ∧ isLowSurrogate n = false := by
    simp [isHighSurrogate, isLowSurrogate]
    omega
  cases parts with
  | nil => simp [textOf, whole]
  | cons part parts => cases part <;> simp [textOf, whole]

theorem hex4?_control : ∀ n < 32, hex4? '0' '0' (hexDigit (n / 16)) (hexDigit n) = some n := by
  decide

-- A part of a string that a character is read as, and that means this character.
structure PartFor (c : Char) (part : StringPart) : Prop where
  read {rest : List Char} : readParts (escapeChar c ++ rest) = (readParts rest).map (Prod.map (part :: ·) id)
  text {parts : List StringPart} : textOf (part :: parts) = (textOf parts).map (c :: ·)

theorem exists_partFor (c : Char) : ∃ part, PartFor c part := by
  have escaped := escapes c
  generalize he : escapeChar c = text at escaped
  cases escaped with
  | @short letter short =>
    have unit : letter ≠ 'u' := by
      rintro rfl
      contradiction
    refine ⟨.char c, fun {rest} => ?_, by simp [textOf]⟩
    cases hr : readParts rest <;> simp [he, readParts, unit, short, hr, Prod.map]
  | control low =>
    refine ⟨.unit c.toNat, fun {rest} => ?_, fun {parts} => by rw [textOf_unit low, Char.ofNat_toNat]⟩
    cases hr : readParts rest <;> simp [he, readParts, hex4?_control _ low, hr, Prod.map]
  | plain high quote backslash =>
    refine ⟨.char c, fun {rest} => ?_, by simp [textOf]⟩
    cases hr : readParts rest <;> simp [he, readParts, high, backslash, hr, Prod.map]

theorem readString_escaped (s rest : List Char) :
    readString (s.flatMap escapeChar ++ '"' :: rest) = some (some s, rest) := by
  have parts : ∃ parts, readParts (s.flatMap escapeChar ++ '"' :: rest) = some (parts, rest) ∧ textOf parts = some s := by
    induction s with
    | nil => exact ⟨[], rfl, rfl⟩
    | cons c s ih =>
      obtain ⟨parts, read, text⟩ := ih
      obtain ⟨part, hp⟩ := exists_partFor c
      refine ⟨part :: parts, ?_, ?_⟩
      · simp [List.append_assoc, hp.read, read]
      · simp [hp.text, text]
  obtain ⟨parts, read, text⟩ := parts
  simp [readString, read, text]

end OpenApiClient.Json.Reader
