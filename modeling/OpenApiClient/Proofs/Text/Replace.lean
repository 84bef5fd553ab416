import OpenApiClient.Text.Replace

/-!
Replacing a pair of characters: what becomes of a text whose first characters are such a pair, and of any other.
-/

namespace OpenApiClient.Text

variable {p q c : Char} {replacement s : List Char}

theorem replaceAll_pair : replaceAll [p, q] replacement (p :: q :: s) = replacement ++ replaceAll [p, q] replacement s := by
  simp [replaceAll, replaceFrom]

theorem replaceAll_cons (h : ¬ (c = p ∧ s.head? = some q)) :
    replaceAll [p, q] replacement (c :: s) = c :: replaceAll [p, q] replacement s := by
  have other : ¬ [p, q].isPrefixOf (c :: s) := by
    intro pair
    cases s with
    | nil => simp at pair
    | cons next s =>
      obtain ⟨rfl, rfl⟩ : p = c ∧ q = next := by simpa using pair
      exact h ⟨rfl, rfl⟩
  rw [replaceAll, replaceFrom, if_neg other]
  rfl

end OpenApiClient.Text
