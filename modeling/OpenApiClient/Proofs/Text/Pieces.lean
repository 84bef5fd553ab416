import Mathlib.Data.List.Basic
import OpenApiClient.Text.Blank

/-!
Text that is cut at separators, and what is left of text when its white space is folded.
-/

namespace OpenApiClient.Text

variable {p : Char → Bool} {c d : Char} {s : List Char}

theorem splitWhere_eq_splitOnP (separates : Char → Bool) (s : List Char) :
    splitWhere separates s = s.splitOnP separates := by
  induction s with
  | nil => rfl
  | cons c s ih =>
    rw [splitWhere, ih, List.splitOnP_cons_eq_if_modifyHead]
    cases cut : s.splitOnP separates with
    | nil => exact (List.splitOnP_ne_nil separates s cut).elim
    | cons piece others => rfl

-- What is joined by a separator is found again.
theorem splitWhere_intercalate {pieces : List (List Char)} (h : ∀ piece ∈ pieces, c ∉ piece)
    (some_piece : pieces ≠ []) : splitWhere (· == c) ([c].intercalate pieces) = pieces :=
  (splitWhere_eq_splitOnP ..).trans (List.splitOn_intercalate c h some_piece)

-- Text without separators is one stretch.
theorem pieces_eq_self (h : ∀ c ∈ s, p c = false) (some_char : s ≠ []) : pieces p s = [s] := by
  have whole : splitWhere p s = [s] := by
    rw [splitWhere_eq_splitOnP]
    exact List.splitOnP_eq_singleton (by simpa using h)
  simpa [pieces, whole] using some_char

-- A separator is in none of the stretches, and ends what comes before it.
theorem pieces_append_cons (h : p c) (before after : List Char) :
    pieces p (before ++ c :: after) = pieces p before ++ pieces p after := by
  simp only [pieces, splitWhere_eq_splitOnP, List.splitOnP_append_cons _ _ h, List.filter_append]

theorem pieces_cons (h : p c) (s : List Char) : pieces p (c :: s) = pieces p s :=
  pieces_append_cons h [] s

theorem squeeze_cons (h : isBlank c = false) (s : List Char) : ∃ rest, squeeze (c :: s) = c :: rest := by
  obtain ⟨piece, others, cut⟩ := List.exists_cons_of_ne_nil (splitWhere_ne_nil isBlank s)
  exact ⟨[' '].intercalate (piece :: others.filter (!·.isEmpty)), by simp [squeeze, pieces, splitWhere, h, cut]⟩

-- Where there is no white space, nothing is folded,
theorem squeeze_cons_cons (hc : isBlank c = false) (hd : isBlank d = false) (s : List Char) :
    squeeze (c :: d :: s) = c :: squeeze (d :: s) := by
  obtain ⟨piece, others, cut⟩ := List.exists_cons_of_ne_nil (splitWhere_ne_nil isBlank s)
  simp [squeeze, pieces, splitWhere, hc, hd, cut]

-- and nothing but white space is lost.
theorem mem_squeeze (hc : c ∈ s) (h : isBlank c = false) : c ∈ squeeze s := by
  have kept : c ∈ (pieces isBlank s).flatten := by
    rw [flatten_pieces]
    exact List.mem_filter.mpr ⟨hc, by simp [h]⟩
  rw [squeeze]
  generalize pieces isBlank s = words at kept
  induction words with
  | nil => exact kept
  | cons word words ih =>
    cases words with
    | nil => simpa using kept
    | cons =>
      rw [List.flatten_cons, List.mem_append] at kept
      simp only [List.intercalate_cons_cons, List.mem_append]
      exact kept.imp .inl ih

end OpenApiClient.Text
