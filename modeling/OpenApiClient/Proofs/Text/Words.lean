import OpenApiClient.Proofs.Text.Pieces
import OpenApiClient.Text.Casing

/-!
The words of a name. They are not empty, the first one starts with the first letter or digit of the name, and they stay
the same if other characters are replaced by underscores.
-/

namespace OpenApiClient.Text

variable {c d : Char} {s word : List Char} {seen : WordCase}

theorem words_append_cons (h : isAlphanumeric d = false) (before after : List Char) :
    words (before ++ d :: after) = words before ++ words after := by
  have cut := pieces_append_cons (p := (!isAlphanumeric ·)) (c := d) (by simpa using h) before after
  rw [words, cut, List.flatMap_append]
  rfl

theorem words_cons (h : isAlphanumeric d = false) (s : List Char) : words (d :: s) = words s :=
  words_append_cons h [] s

-- Letters and digits as they are, and one underscore for all other characters between two of them. If it has `started`,
-- there was a letter or digit before, and if a separator is `pending`, other characters came after the last of these.
def underscored (started pending : Bool) : List Char → List Char
  | [] => []
  | c :: rest =>
    if isAlphanumeric c then
      if started && pending then '_' :: c :: underscored true false rest
      else c :: underscored true false rest
    else underscored started true rest

-- The words are the same in any context. What is pending ends the word before it, as any one of these characters does.
theorem words_append_underscored (before s : List Char) :
    words (before ++ underscored true false s) = words (before ++ s) ∧
    ∀ d, isAlphanumeric d = false → words (before ++ underscored true true s) = words (before ++ d :: s) := by
  induction s generalizing before with
  | nil =>
    refine ⟨rfl, fun d hd => ?_⟩
    rw [words_append_cons hd]
    simp [underscored, words, pieces, splitWhere]
  | cons c s ih =>
    cases hc : isAlphanumeric c with
    | true =>
      refine ⟨by simpa [underscored, hc] using (ih (before ++ [c])).1, fun d hd => ?_⟩
      have same : words (c :: underscored true false s) = words (c :: s) := (ih [c]).1
      simp [underscored, hc, words_append_cons (d := '_') (by decide), words_append_cons hd, same]
    | false =>
      refine ⟨by simpa [underscored, hc] using (ih before).2 c hc, fun d hd => ?_⟩
      simpa [underscored, hc, words_append_cons hd, words_cons hc] using (ih before).2 d hd

theorem words_underscored (pending : Bool) (s : List Char) : words (underscored false pending s) = words s := by
  induction s generalizing pending with
  | nil => rfl
  | cons c s ih =>
    cases hc : isAlphanumeric c with
    | true => simpa [underscored, hc] using (words_append_underscored [c] s).1
    | false => simpa [underscored, hc, words_cons hc] using ih true

-- A word that ends before a capital has another capital in it.
theorem ne_nil_of_mem_cutWords (h : word = [] → seen ≠ .upper) : ∀ w ∈ cutWords word seen s, w ≠ [] := by
  induction s generalizing word seen with
  | nil => cases word <;> simp [cutWords]
  | cons c s ih =>
    cases s with
    | nil => simp [cutWords]
    | cons next s =>
      rw [cutWords]
      split
      case isTrue => exact List.forall_mem_cons.mpr ⟨by simp, ih (by simp)⟩
      case isFalse =>
        split
        case isTrue capital => exact List.forall_mem_cons.mpr ⟨by simpa using (h · capital.1), ih (by simp)⟩
        case isFalse => exact ih (by simp)

theorem ne_nil_of_mem_words : ∀ w ∈ words s, w ≠ [] := by
  intro w hw
  obtain ⟨piece, _, hw⟩ := List.mem_flatMap.mp hw
  exact ne_nil_of_mem_cutWords (by simp) w hw

theorem words_cases (s : List Char) : (words s = [] ∧ s.find? isAlphanumeric = none) ∨
    ∃ c word others, words s = (c :: word) :: others ∧ s.find? isAlphanumeric = some c := by
  have some_char := ne_nil_of_mem_words (s := s)
  rw [← List.head?_filter, ← flatten_words]
  cases made : words s with
  | nil => exact .inl ⟨rfl, rfl⟩
  | cons word others =>
    cases word with
    | nil => exact absurd rfl (some_char [] (made ▸ List.mem_cons_self))
    | cons c word => exact .inr ⟨c, word, others, rfl, rfl⟩

end OpenApiClient.Text
