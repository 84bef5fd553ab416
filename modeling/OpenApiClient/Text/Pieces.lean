/-!
Cutting text at separators. Nothing but the separators is lost.
-/

namespace OpenApiClient.Text

-- The text between the characters that separate, empty stretches included; never the empty
-- list.
def splitWhere (separates : Char → Bool) : List Char → List (List Char)
  | [] => [[]]
  | c :: rest =>
    if separates c then
      [] :: splitWhere separates rest
    else
      match splitWhere separates rest with
      | piece :: others => (c :: piece) :: others
      | [] => [[c]]

-- The non-empty stretches of text between the characters that separate.
def pieces (separates : Char → Bool) (s : List Char) : List (List Char) :=
  (splitWhere separates s).filter (!·.isEmpty)

theorem splitWhere_ne_nil (p : Char → Bool) (s : List Char) : splitWhere p s ≠ [] := by
  induction s with
  | nil => simp [splitWhere]
  | cons c rest ih =>
    unfold splitWhere
    split
    · simp
    · split <;> simp

theorem flatten_splitWhere (p : Char → Bool) (s : List Char) :
    (splitWhere p s).flatten = s.filter (!p ·) := by
  induction s with
  | nil => rfl
  | cons c rest ih =>
    by_cases h : p c
    · simp [splitWhere, h, ih]
    · cases e : splitWhere p rest with
      | nil => exact absurd e (splitWhere_ne_nil p rest)
      | cons piece others => simp_all [splitWhere]

theorem flatten_pieces (p : Char → Bool) (s : List Char) :
    (pieces p s).flatten = s.filter (!p ·) := by
  rw [← flatten_splitWhere, pieces]
  generalize splitWhere p s = l
  induction l with
  | nil => rfl
  | cons piece others ih => cases piece <;> simp_all

theorem ne_nil_of_mem_pieces {p : Char → Bool} {s piece : List Char} (h : piece ∈ pieces p s) :
    piece ≠ [] := by
  simp [pieces] at h
  exact h.2

end OpenApiClient.Text
