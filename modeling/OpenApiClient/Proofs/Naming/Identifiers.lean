import OpenApiClient.Php.Name
import OpenApiClient.Proofs.Naming.Casing
import OpenApiClient.Proofs.Text.Words

/-!
Identifiers for names. Whatever a name is, each of its cased forms and the method that is called after it is an
identifier. What is written for the words of a name starts with its first letter or digit in some case, so that an
underscore is put before it exactly if this is an ASCII digit.
-/

namespace OpenApiClient

namespace Text

open Naming

-- How a text starts in which a name with the given first letter or digit, if any, is written in some case.
inductive Starts : Option Char → List Char → Prop
  | nil : Starts none []
  | digit {c rest} : c.isDigit → Starts (some c) (c :: rest)
  | letter {c x rest} : c.isDigit = false → isLetter x → Starts (some c) (x :: rest)

variable {c : Char} {s word : List Char}

theorem Starts.append (h : Starts (some c) s) (rest : List Char) : Starts (some c) (s ++ rest) := by
  cases h with
  | digit hc => exact .digit hc
  | letter hc hx => exact .letter hc hx

theorem starts_of_letters (hc : c.isDigit = false) (h : s ≠ [] ∧ ∀ x ∈ s, isLetter x) : Starts (some c) s := by
  obtain ⟨x, rest, rfl⟩ := List.exists_cons_of_ne_nil h.1
  exact .letter hc (h.2 x List.mem_cons_self)

theorem starts_upperChar (h : isAlphanumeric c) : Starts (some c) (upperChar c) := by
  cases hc : c.isDigit with
  | true => exact upperChar_digit hc ▸ .digit hc
  | false => exact starts_of_letters hc (upperChar_letters (isLetter_of_isAlphanumeric h hc))

theorem starts_lowerChar (h : isAlphanumeric c) : Starts (some c) (lowerChar c) := by
  cases hc : c.isDigit with
  | true => exact lowerChar_digit hc ▸ .digit hc
  | false => exact starts_of_letters hc (lowerChar_letters (isLetter_of_isAlphanumeric h hc))

theorem starts_titlecase (h : isAlphanumeric c) (word : List Char) : Starts (some c) (titlecase (c :: word)) :=
  (starts_upperChar h).append _

theorem starts_uppercase (h : isAlphanumeric c) (word : List Char) : Starts (some c) (uppercase (c :: word)) :=
  (starts_upperChar h).append _

theorem starts_lowercase (h : isAlphanumeric c) (word : List Char) : Starts (some c) (lowercase (c :: word)) := by
  cases word with
  | cons => exact lowercase_cons (List.cons_ne_nil _ _) ▸ (starts_lowerChar h).append _
  | nil =>
    by_cases sigma : c = 'Σ'
    case pos => exact sigma ▸ .letter (by decide) (by decide)
    case neg => simpa [lowercase, sigma] using starts_lowerChar h

theorem starts_intercalate (h : Starts (some c) word) (others : List (List Char)) :
    Starts (some c) (List.intercalate ['_'] (word :: others)) := by
  cases others with
  | nil => simpa using h
  | cons => exact List.intercalate_cons_cons .. ▸ (h.append _).append _

-- Only the first word counts, which starts with the first letter or digit.
theorem starts_of_words {cased : List Char} (nothing : words s = [] → cased = [])
    (h : ∀ c word others, words s = (c :: word) :: others → isAlphanumeric c → Starts (some c) cased) :
    Starts (s.find? isAlphanumeric) cased := by
  obtain ⟨no_words, found⟩ | ⟨c, word, others, made, found⟩ := words_cases s
  case inl => exact nothing no_words ▸ found ▸ .nil
  case inr => exact found ▸ h c word others made (List.find?_some found)

theorem starts_pascalCase (s : List Char) : Starts (s.find? isAlphanumeric) (pascalCase s) := by
  refine starts_of_words (fun no_words => by simp [pascalCase, no_words]) fun c word others made h => ?_
  rw [pascalCase, made]
  exact (starts_titlecase h word).append _

theorem starts_camelCase (s : List Char) : Starts (s.find? isAlphanumeric) (camelCase s) := by
  refine starts_of_words (fun no_words => by simp [camelCase, no_words]) fun c word others made h => ?_
  rw [camelCase, made]
  exact (starts_lowercase h word).append _

theorem starts_snakeCase (s : List Char) : Starts (s.find? isAlphanumeric) (snakeCase s) := by
  refine starts_of_words (fun no_words => by simp [snakeCase, no_words]) fun c word others made h => ?_
  rw [snakeCase, made]
  exact starts_intercalate (starts_lowercase h word) _

theorem starts_screamingCase (s : List Char) : Starts (s.find? isAlphanumeric) (screamingCase s) := by
  refine starts_of_words (fun no_words => by simp [screamingCase, no_words]) fun c word others made h => ?_
  rw [screamingCase, made]
  exact starts_intercalate (starts_uppercase h word) _

theorem isNameChar_of_mem_uppercase (h : ∀ c ∈ s, isAlphanumeric c) : ∀ x ∈ uppercase s, isNameChar x := by
  intro x hx
  obtain ⟨c, hc, hx⟩ := List.mem_flatMap.mp hx
  exact isNameChar_of_mem_upperChar (h c hc) hx

theorem isNameChar_of_mem_intercalate {written : List (List Char)} (h : ∀ w ∈ written, ∀ x ∈ w, isNameChar x) :
    ∀ x ∈ List.intercalate ['_'] written, isNameChar x := by
  have underscore : isNameChar '_' := by decide
  induction written with
  | nil => exact fun _ hx => absurd hx List.not_mem_nil
  | cons w others ih =>
    have ⟨first, rest⟩ := List.forall_mem_cons.mp h
    cases others with
    | nil => simpa using first
    | cons =>
      simp only [List.intercalate_cons_cons, List.forall_mem_append, List.forall_mem_singleton]
      exact ⟨⟨first, underscore⟩, ih rest⟩

theorem isNameChar_of_mem_snakeCase (s : List Char) : ∀ x ∈ snakeCase s, isNameChar x :=
  isNameChar_of_mem_intercalate <| List.forall_mem_map.mpr fun word hw =>
    isNameChar_of_mem_lowercase (isAlphanumeric_of_mem_words word hw)

theorem isNameChar_of_mem_screamingCase (s : List Char) : ∀ x ∈ screamingCase s, isNameChar x :=
  isNameChar_of_mem_intercalate <| List.forall_mem_map.mpr fun word hw =>
    isNameChar_of_mem_uppercase (isAlphanumeric_of_mem_words word hw)

end Text

open Text

namespace Naming

variable {name folded rest : String} {cased : List Char}

-- The name as an identifier that has an underscore before it only to keep a digit from its start.
structure Folds (name folded : String) : Prop extends IsClassName folded where
  underscore_iff : folded.toList.head? = some '_' ↔ digitFirst name

theorem Folds.append (h : Folds name folded) (hr : ∀ c ∈ rest.toList, isNameChar c) : Folds name (folded ++ rest) where
  toIsClassName := h.toIsClassName.append hr
  underscore_iff := by
    have some_char : folded.toList ≠ [] := by simpa using h.ne_empty
    rw [String.toList_append, List.head?_append_of_ne_nil _ some_char]
    exact h.underscore_iff

-- Only a digit brings in the underscore: a letter at the start is none, nor is there one before what stands in for an
-- empty text.
theorem folds_guardDigit {other : String} (legal : IsClassName other) (bare : other.toList.head? ≠ some '_')
    (chars : ∀ c ∈ cased, isNameChar c) (starts : Starts (name.toList.find? isAlphanumeric) cased) :
    Folds name (if cased.isEmpty then other else String.ofList (guardDigit cased)) where
  toIsClassName := isClassName_guardDigit_or legal chars
  underscore_iff := by
    generalize found : name.toList.find? isAlphanumeric = first at starts
    cases starts with
    | nil => simp [bare, digitFirst, found]
    | digit hc => simp [guardDigit, digitFirst, found, hc]
    | @letter c x rest hc hx =>
      have no_underscore : x ≠ '_' := by
        rintro rfl
        exact absurd hx (by decide)
      simp [guardDigit, digitFirst, found, hc, isDigit_of_isLetter hx, no_underscore]

theorem isNameChar_of_isIdentifierChar {c : Char} (h : isIdentifierChar c) : isNameChar c := by
  have : c.isAlphanum ∨ c = '_' := by simpa [isIdentifierChar] using h
  rcases this with alphanum | rfl
  case inl => exact isNameChar_of_isAlphanumeric (isAlphanumeric_of_isAlphanum alphanum)
  case inr => decide

theorem isNameChar_of_isIdentifierStart {c : Char} (h : isIdentifierStart c) : isNameChar c ∧ c.isDigit = false := by
  have : c.isAlpha ∨ c = '_' := by simpa [isIdentifierStart] using h
  rcases this with alpha | rfl
  case inl =>
    have letter : isLetter c := by simp [isLetter, alpha]
    exact ⟨by simp [isNameChar, letter], isDigit_of_isLetter letter⟩
  case inr => decide

theorem isClassName_of_isAsciiIdentifier (h : isAsciiIdentifier name.toList) : IsClassName name := by
  cases written : name.toList with
  | nil => simp [written, isAsciiIdentifier] at h
  | cons c rest =>
    obtain ⟨start, others⟩ : isIdentifierStart c ∧ ∀ x ∈ rest, isIdentifierChar x := by
      simpa [written, isAsciiIdentifier] using h
    have ⟨first, no_digit⟩ := isNameChar_of_isIdentifierStart start
    exact {
      ne_empty := by
        rintro rfl
        contradiction
      chars := written ▸ List.forall_mem_cons.mpr ⟨first, fun x hx => isNameChar_of_isIdentifierChar (others x hx)⟩
      start := by simpa [written, startsWithDigit] using no_digit }

theorem folds_asMethod (h : isAsciiIdentifier name.toList = false) : Folds name (asMethod name) := by
  rw [asMethod, h]
  exact folds_guardDigit (by decide) (by decide) (isNameChar_of_mem_camelCase _) (starts_camelCase _)

theorem isClassName_asMethod (name : String) : IsClassName (asMethod name) := by
  cases h : isAsciiIdentifier name.toList with
  | true => simpa [asMethod, h] using isClassName_of_isAsciiIdentifier h
  | false => exact (folds_asMethod h).toIsClassName

end Naming

open Naming

namespace WireName

-- What a wire name is folded to.
def identifiers (n : WireName) : List String := [n.pascal, n.camel, n.snake, n.screaming]

theorem folds_identifier {name : String} {cased : List Char} (chars : ∀ c ∈ cased, isNameChar c)
    (starts : Starts (name.toList.find? isAlphanumeric) cased) : Folds name (identifier cased) :=
  folds_guardDigit (by decide) (by decide) chars starts

theorem folds_of_mem_identifiers (name : String) : ∀ folded ∈ (ofString name).identifiers, Folds name folded := by
  simp only [identifiers, ofString, List.forall_mem_cons]
  exact ⟨folds_identifier (isNameChar_of_mem_pascalCase _) (starts_pascalCase _),
    folds_identifier (isNameChar_of_mem_camelCase _) (starts_camelCase _),
    folds_identifier (isNameChar_of_mem_snakeCase _) (starts_snakeCase _),
    folds_identifier (isNameChar_of_mem_screamingCase _) (starts_screamingCase _), List.forall_mem_nil _⟩

-- Replacing what is no letter or digit by underscores first makes no difference.
theorem identifiers_underscored (name : String) :
    (ofString (String.ofList (underscored false false name.toList))).identifiers = (ofString name).identifiers := by
  simp [identifiers, ofString, pascalCase, camelCase, snakeCase, screamingCase, words_underscored]

end WireName

namespace Php

theorem methodName_eq (name : String) :
    methodName name = asMethod name ∨ methodName name = asMethod name ++ "Operation" := by
  unfold methodName
  dsimp only
  split
  case isTrue => exact .inr rfl
  case isFalse => exact .inl rfl

end Php

namespace Naming

-- For every name, its cased forms are identifiers, and only its words make a difference to them. The methods that are
-- called after it are identifiers too, and are folded from its words in the same way unless the name is one already.
theorem names_fold (name : String) :
    (∀ folded ∈ (WireName.ofString name).identifiers, Folds name folded) ∧
    (WireName.ofString (String.ofList (underscored false false name.toList))).identifiers =
      (WireName.ofString name).identifiers ∧
    ∀ method ∈ [asMethod name, Php.methodName name], IsClassName method ∧
      (isAsciiIdentifier name.toList = false → Folds name method) := by
  have suffix : ∀ c ∈ "Operation".toList, isNameChar c := IsWord.chars (by decide)
  have legal := isClassName_asMethod name
  have folds (h : isAsciiIdentifier name.toList = false) := folds_asMethod h
  refine ⟨WireName.folds_of_mem_identifiers name, WireName.identifiers_underscored name, ?_⟩
  rw [List.forall_mem_cons, List.forall_mem_singleton]
  refine ⟨⟨legal, folds⟩, ?_⟩
  rcases Php.methodName_eq name with same | suffixed
  case inl => exact same ▸ ⟨legal, folds⟩
  case inr => exact suffixed ▸ ⟨legal.append suffix, fun h => (folds h).append suffix⟩

theorem strasse_folds :
    (WireName.ofString "3-Straße ŉΣ").identifiers =
      ["_3StraßeʼNΣ", "_3StraßeʼNΣ", "_3_straße_ŉ_ς", "_3_STRASSE_ʼN_Σ"] ∧
    Folds "3-Straße ŉΣ" "_3_STRASSE_ʼN_Σ" ∧
    Php.methodName "3-Straße ŉΣ" = "_3StraßeʼNΣ" ∧ Folds "3-Straße ŉΣ" "_3StraßeʼNΣ" ∧
    Php.methodName "__Construct" = "__ConstructOperation" ∧ IsClassName "__ConstructOperation" := by
  have made : (WireName.ofString "3-Straße ŉΣ").identifiers =
        ["_3StraßeʼNΣ", "_3StraßeʼNΣ", "_3_straße_ŉ_ς", "_3_STRASSE_ʼN_Σ"] ∧
      Php.methodName "3-Straße ŉΣ" = "_3StraßeʼNΣ" ∧ isAsciiIdentifier "3-Straße ŉΣ".toList = false ∧
      Php.methodName "__Construct" = "__ConstructOperation" := by
    decide +kernel
  obtain ⟨variants, method, no_identifier, suffixed⟩ := made
  have screaming := (names_fold "3-Straße ŉΣ").1 "_3_STRASSE_ʼN_Σ" (variants ▸ by simp)
  have folded := ((names_fold "3-Straße ŉΣ").2.2 _ (List.mem_cons_of_mem _ List.mem_cons_self)).2 no_identifier
  have legal := ((names_fold "__Construct").2.2 _ (List.mem_cons_of_mem _ List.mem_cons_self)).1
  exact ⟨variants, screaming, method, method ▸ folded, suffixed, suffixed ▸ legal⟩

end Naming

end OpenApiClient
