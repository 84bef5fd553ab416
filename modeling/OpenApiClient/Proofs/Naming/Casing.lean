import OpenApiClient.Naming.WireName
import OpenApiClient.Proofs.Naming.ClassName

/-!
What is made from the words of a name. It consists of the characters of names; and digits behind the name, which have no
case, become part of its last word and stand behind all that is made from its words.
-/

namespace OpenApiClient

namespace Text

open Naming

variable {c x : Char} {s t rest digits word : List Char} {seen : WordCase}

-- What does not separate anything belongs to the last stretch before it.
theorem splitWhere_append (separates : Char → Bool) (s : List Char) : ∃ before piece, ∀ rest,
    (∀ c ∈ rest, separates c = false) → splitWhere separates (s ++ rest) = before ++ [piece ++ rest] := by
  induction s with
  | nil =>
    refine ⟨[], [], fun rest h => ?_⟩
    induction rest with
    | nil => rfl
    | cons c rest ih =>
      have ⟨hc, h⟩ := List.forall_mem_cons.mp h
      have := ih h
      simp_all [splitWhere]
  | cons c s ih =>
    obtain ⟨before, piece, split⟩ := ih
    cases hc : separates c with
    | true => exact ⟨[] :: before, piece, fun rest h => by simp [splitWhere, hc, split rest h]⟩
    | false =>
      cases before with
      | nil => exact ⟨[], c :: piece, fun rest h => by simp [splitWhere, hc, split rest h]⟩
      | cons first others =>
        exact ⟨(c :: first) :: others, piece, fun rest h => by simp [splitWhere, hc, split rest h]⟩

-- Where a run is cut at a character depends on the next one only.
theorem cutWords_cons {next : Char} (h : t.head? = some next) : cutWords word seen (c :: t) =
    if seen.after c = .lower ∧ isUpper next then (c :: word).reverse :: cutWords [] .unknown t
    else if seen = .upper ∧ isUpper c ∧ isLower next then word.reverse :: cutWords [c] .unknown t
    else cutWords (c :: word) (seen.after c) t := by
  cases t with
  | nil => contradiction
  | cons =>
    cases h
    rw [cutWords]

theorem cutWords_digits (h : ∀ d ∈ digits, d.isDigit) :
    cutWords word seen (x :: digits) = [word.reverse ++ x :: digits] := by
  induction digits generalizing word seen x with
  | nil => simp [cutWords]
  | cons d digits ih =>
    obtain ⟨hd, h⟩ := List.forall_mem_cons.mp h
    obtain ⟨lower, upper, _⟩ := caseless_of_isDigit hd
    simp [cutWords, lower, upper, ih h]

theorem cutWords_append (x : Char) (s word : List Char) (seen : WordCase) : ∃ before last, ∀ digits,
    (∀ d ∈ digits, d.isDigit) → cutWords word seen (s ++ x :: digits) = before ++ [last ++ x :: digits] := by
  induction s generalizing word seen with
  | nil => exact ⟨[], word.reverse, fun digits h => cutWords_digits h⟩
  | cons c s ih =>
    obtain ⟨next, next_eq⟩ : ∃ next, ∀ digits, (s ++ x :: digits).head? = some next := by
      cases s <;> exact ⟨_, fun _ => rfl⟩
    by_cases ends : seen.after c = .lower ∧ isUpper next
    case pos =>
      obtain ⟨before, last, cut⟩ := ih [] .unknown
      refine ⟨(c :: word).reverse :: before, last, fun digits h => ?_⟩
      rw [List.cons_append, cutWords_cons (next_eq digits), if_pos ends, cut digits h, List.cons_append]
    by_cases starts : seen = .upper ∧ isUpper c ∧ isLower next
    case pos =>
      obtain ⟨before, last, cut⟩ := ih [c] .unknown
      refine ⟨word.reverse :: before, last, fun digits h => ?_⟩
      rw [List.cons_append, cutWords_cons (next_eq digits), if_neg ends, if_pos starts, cut digits h,
        List.cons_append]
    case neg =>
      obtain ⟨before, last, cut⟩ := ih (c :: word) (seen.after c)
      refine ⟨before, last, fun digits h => ?_⟩
      rw [List.cons_append, cutWords_cons (next_eq digits), if_neg ends, if_neg starts, cut digits h]

theorem words_append (hx : isAlphanumeric x) (s : List Char) : ∃ before last, ∀ digits,
    (∀ d ∈ digits, d.isDigit) → words (s ++ x :: digits) = before ++ [last ++ x :: digits] := by
  obtain ⟨stretches, piece, split⟩ := splitWhere_append (!isAlphanumeric ·) s
  obtain ⟨before, last, cut⟩ := cutWords_append x piece [] .unknown
  refine ⟨(stretches.filter (!·.isEmpty)).flatMap (cutWords [] .unknown) ++ before, last, fun digits h => ?_⟩
  have joined : ∀ c ∈ x :: digits, (!isAlphanumeric c) = false := by
    simpa [hx] using fun d hd => isAlphanumeric_of_isDigit (h d hd)
  simp [words, pieces, split _ joined, cut digits h]

theorem lowercase_cons (h : t ≠ []) : lowercase (c :: t) = lowerChar c ++ lowercase t := by
  cases t with
  | nil => contradiction
  | cons => simp [lowercase]

theorem lowercase_append (h : t ≠ []) (s : List Char) :
    lowercase (s ++ t) = s.flatMap lowerChar ++ lowercase t := by
  induction s with
  | nil => rfl
  | cons c s ih => simp [lowercase_cons (t := s ++ t) (by simp [h]), ih]

theorem ne_sigma_of_lowerChar (h : lowerChar c = [c]) : c ≠ 'Σ' := by
  rintro rfl
  exact absurd h (by decide)

theorem lowercase_eq_self (h : ∀ c ∈ s, lowerChar c = [c]) : lowercase s = s := by
  induction s with
  | nil => rfl
  | cons c s ih =>
    have ⟨hc, h⟩ := List.forall_mem_cons.mp h
    simp [lowercase, ne_sigma_of_lowerChar hc, hc, ih h]

theorem lowercase_digits (hx : lowerChar x = [x]) (h : ∀ d ∈ digits, d.isDigit) :
    lowercase (x :: digits) = x :: digits :=
  lowercase_eq_self <| List.forall_mem_cons.mpr ⟨hx, fun d hd => lowerChar_digit (h d hd)⟩

theorem upperChar_ne_nil (h : isAlphanumeric c) : upperChar c ≠ [] := by
  cases hd : c.isDigit with
  | true => simp [upperChar_digit hd]
  | false => exact (upperChar_letters (isLetter_of_isAlphanumeric h hd)).1

theorem titlecase_append (hx : isAlphanumeric x) (lower : lowerChar x = [x]) (word : List Char) :
    ∃ stem, stem ≠ [] ∧ ∀ digits, (∀ d ∈ digits, d.isDigit) →
      titlecase (word ++ x :: digits) = stem ++ digits := by
  cases word with
  | nil =>
    refine ⟨upperChar x, upperChar_ne_nil hx, fun digits h => ?_⟩
    have same : lowercase digits = digits := lowercase_eq_self fun d hd => lowerChar_digit (h d hd)
    simp [titlecase, same]
  | cons c word =>
    refine ⟨upperChar c ++ word.flatMap lowerChar ++ [x], by simp, fun digits h => ?_⟩
    simp [titlecase, lowercase_append, lowercase_digits lower h]

-- Digits behind a letter that is in lower case stay behind the name in camel case.
theorem camelCase_append (hx : isAlphanumeric x) (lower : lowerChar x = [x]) (s : List Char) :
    ∃ stem, stem ≠ [] ∧ ∀ digits, (∀ d ∈ digits, d.isDigit) →
      camelCase (s ++ x :: digits) = stem ++ digits := by
  obtain ⟨before, last, split⟩ := words_append hx s
  cases before with
  | nil =>
    refine ⟨last.flatMap lowerChar ++ [x], by simp, fun digits h => ?_⟩
    simp [camelCase, split digits h, lowercase_append, lowercase_digits lower h]
  | cons first others =>
    obtain ⟨stem, some_char, title⟩ := titlecase_append hx lower last
    refine ⟨lowercase first ++ others.flatMap titlecase ++ stem, by simp [some_char], fun digits h => ?_⟩
    simp [camelCase, split digits h, title digits h]

theorem isNameChar_of_mem_lowerChar (h : isAlphanumeric c) (hx : x ∈ lowerChar c) : isNameChar x := by
  cases hd : c.isDigit with
  | true =>
    rw [lowerChar_digit hd, List.mem_singleton] at hx
    simp [isNameChar, hx, hd]
  | false => simp [isNameChar, (lowerChar_letters (isLetter_of_isAlphanumeric h hd)).2 x hx]

theorem isNameChar_of_mem_lowercase (h : ∀ c ∈ s, isAlphanumeric c) : ∀ x ∈ lowercase s, isNameChar x := by
  induction s using lowercase.induct with
  | case1 => simp [lowercase]
  | case2 =>
    rw [lowercase, List.forall_mem_singleton]
    decide
  | case3 c rest not_last ih =>
    have ⟨hc, h⟩ := List.forall_mem_cons.mp h
    rw [lowercase.eq_3 c rest not_last, List.forall_mem_append]
    exact ⟨fun x hx => isNameChar_of_mem_lowerChar hc hx, ih h⟩

theorem isNameChar_of_mem_titlecase (h : ∀ c ∈ s, isAlphanumeric c) : ∀ x ∈ titlecase s, isNameChar x := by
  cases s with
  | nil => simp [titlecase]
  | cons c s =>
    have ⟨hc, h⟩ := List.forall_mem_cons.mp h
    rw [titlecase, List.forall_mem_append]
    exact ⟨fun x hx => isNameChar_of_mem_upperChar hc hx, isNameChar_of_mem_lowercase h⟩

theorem isAlphanumeric_of_mem_words {s : List Char} : ∀ word ∈ words s, ∀ c ∈ word, isAlphanumeric c := by
  intro word hw c hc
  have := flatten_words s ▸ List.mem_flatten.mpr ⟨word, hw, hc⟩
  exact (List.mem_filter.mp this).2

theorem isNameChar_of_mem_pascalCase (s : List Char) : ∀ x ∈ pascalCase s, isNameChar x := by
  intro x hx
  obtain ⟨word, hw, hx⟩ := List.mem_flatMap.mp hx
  exact isNameChar_of_mem_titlecase (isAlphanumeric_of_mem_words word hw) x hx

theorem isNameChar_of_mem_camelCase (s : List Char) : ∀ x ∈ camelCase s, isNameChar x := by
  unfold camelCase
  split
  case h_1 => simp
  case h_2 first others split_eq =>
    have ⟨hf, ho⟩ := List.forall_mem_cons.mp (split_eq ▸ isAlphanumeric_of_mem_words)
    rw [List.forall_mem_append]
    refine ⟨isNameChar_of_mem_lowercase hf, fun x hx => ?_⟩
    obtain ⟨word, hw, hx⟩ := List.mem_flatMap.mp hx
    exact isNameChar_of_mem_titlecase (ho word hw) x hx

end Text

open Text Naming

variable {text : String}

theorem guardDigit_append {s : List Char} (h : s ≠ []) (rest : List Char) :
    guardDigit (s ++ rest) = guardDigit s ++ rest := by
  cases s with
  | nil => contradiction
  | cons c s =>
    simp only [List.cons_append, guardDigit]
    split <;> rfl

theorem WireName.isWord_camel (name : String) : IsWord (ofString name).camel :=
  (isClassName_guardDigit_or (by decide) (isNameChar_of_mem_camelCase _)).toIsWord

-- Numbers behind such a letter tell identifiers apart.
theorem WireName.camel_append {x : Char} (hx : isAlphanumeric x) (lower : lowerChar x = [x]) (s : List Char) :
    ∃ stem, ∀ number : String, (∀ d ∈ number.toList, d.isDigit) →
      (WireName.ofString (String.ofList (s ++ [x]) ++ number)).camel = stem ++ number := by
  obtain ⟨stem, some_char, camel⟩ := camelCase_append hx lower s
  refine ⟨String.ofList (guardDigit stem), fun number h => ?_⟩
  have camel := camel number.toList h
  rw [← String.toList_inj]
  simp [ofString, identifier, camel, some_char, guardDigit_append some_char]

end OpenApiClient
