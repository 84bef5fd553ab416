import Mathlib.Data.List.Chain
import OpenApiClient.Php.Layout

/-!
Text that can stand in a comment. What is made of a text from a document for a comment has nothing left in it that would
end the comment or the line; and text that is put together has nothing like that unless one of its parts has.
-/

namespace OpenApiClient

namespace Text

variable {pattern replacement rest s : List Char} {c : Char}

theorem mem_of_mem_replaceFrom {skip : Nat} (h : c ∈ replaceFrom pattern replacement skip s) :
    c ∈ replacement ∨ c ∈ s := by
  induction s generalizing skip with
  | nil => contradiction
  | cons x s ih =>
    unfold replaceFrom at h
    split at h
    case h_1 => exact (ih h).imp_right (List.mem_cons_of_mem _)
    case h_2 =>
      split at h
      case isTrue =>
        rcases List.mem_append.mp h with h | h
        case inl => exact .inl h
        case inr => exact (ih h).imp_right (List.mem_cons_of_mem _)
      case isFalse =>
        rcases List.mem_cons.mp h with rfl | h
        case inl => exact .inr List.mem_cons_self
        case inr => exact (ih h).imp_right (List.mem_cons_of_mem _)

-- The white space that is left are the blanks between words.
theorem eq_or_isBlank_of_mem_squeeze (h : c ∈ squeeze s) : c = ' ' ∨ isBlank c = false := by
  have kept : ∀ piece ∈ pieces isBlank s, ∀ c ∈ piece, isBlank c = false := by
    intro piece hp c hc
    have := flatten_pieces isBlank s ▸ List.mem_flatten.mpr ⟨piece, hp, hc⟩
    simpa using (List.mem_filter.mp this).2
  unfold squeeze at h
  generalize pieces isBlank s = words at h kept
  induction words with
  | nil => contradiction
  | cons word words ih =>
    obtain ⟨first, others⟩ := List.forall_mem_cons.mp kept
    cases words with
    | nil => exact .inr (first c (by simpa [List.intercalate] using h))
    | cons =>
      simp only [List.intercalate_cons_cons, List.mem_append, List.mem_singleton] at h
      rcases h with (h | h) | h
      · exact .inr (first c h)
      · exact .inl h
      · exact ih h others

end Text

namespace Php

-- No star is followed by a slash.
def Unclosed (s : List Char) : Prop := s.IsChain fun a b => ¬ (a = '*' ∧ b = '/')

-- Text that ends neither the comment nor the line that it stands in.
structure Inert (text : String) : Prop where
  unclosed : Unclosed text.toList
  one_line : ∀ c ∈ text.toList, c ≠ '\n' ∧ c ≠ '\r'

def isInert : List Char → Bool
  | [] => true
  | c :: rest => c ≠ '\n' && c ≠ '\r' && !(c = '*' && rest.head? = some '/') && isInert rest

section

variable {s t chars before after : List Char} {a b text : String}

theorem isInert_iff : isInert s ↔ Unclosed s ∧ ∀ c ∈ s, c ≠ '\n' ∧ c ≠ '\r' := by
  induction s with
  | nil => simp [isInert, Unclosed]
  | cons c s ih =>
    have closing : (∀ next ∈ s.head?, ¬ (c = '*' ∧ next = '/')) ↔ ¬ (c = '*' ∧ s.head? = some '/') := by
      cases s <;> simp
    rw [Unclosed, List.isChain_cons, closing, ← Unclosed, List.forall_mem_cons]
    simp only [isInert, ih, Bool.and_eq_true, decide_eq_true_eq, Bool.not_eq_true', Bool.and_eq_false_imp,
      decide_eq_false_iff_not]
    tauto

theorem inert_iff : Inert text ↔ isInert text.toList where
  mp h := isInert_iff.mpr ⟨h.unclosed, h.one_line⟩
  mpr h :=
    have ⟨unclosed, one_line⟩ := isInert_iff.mp h
    ⟨unclosed, one_line⟩

instance : Decidable (Inert text) := decidable_of_iff _ inert_iff.symm

theorem unclosed_append_iff (h : '*' ∉ s.getLast? ∨ '/' ∉ t.head?) :
    Unclosed (s ++ t) ↔ Unclosed s ∧ Unclosed t := by
  rw [Unclosed, List.isChain_append]
  refine and_congr_right' (and_iff_left ?_)
  rintro x hx y hy ⟨rfl, rfl⟩
  exact h.elim (· hx) (· hy)

theorem inert_append_iff (h : '*' ∉ a.toList.getLast? ∨ '/' ∉ b.toList.head?) :
    Inert (a ++ b) ↔ Inert a ∧ Inert b := by
  have unclosed := unclosed_append_iff h
  constructor
  · intro ⟨both, one_line⟩
    simp only [String.toList_append, List.forall_mem_append] at both one_line
    exact ⟨⟨(unclosed.mp both).1, one_line.1⟩, ⟨(unclosed.mp both).2, one_line.2⟩⟩
  · rintro ⟨ha, hb⟩
    exact ⟨by simpa using unclosed.mpr ⟨ha.unclosed, hb.unclosed⟩,
      by simpa using List.forall_mem_append.mpr ⟨ha.one_line, hb.one_line⟩⟩

-- Fixed text, which is inert itself, before and after other text.
theorem Inert.literal (h : isInert chars) : Inert (String.ofList chars) := by
  rwa [inert_iff, String.toList_ofList]

theorem inert_before_iff (h : isInert before && before.getLast? ≠ some '*') :
    Inert (String.ofList before ++ text) ↔ Inert text := by
  obtain ⟨inert, last⟩ : isInert before ∧ before.getLast? ≠ some '*' := by simpa using h
  rw [inert_append_iff (.inl (by simpa using last)), and_iff_right (.literal inert)]

theorem inert_after_iff (h : isInert after && after.head? ≠ some '/') :
    Inert (text ++ String.ofList after) ↔ Inert text := by
  obtain ⟨inert, first⟩ : isInert after ∧ after.head? ≠ some '/' := by simpa using h
  rw [inert_append_iff (.inr (by simpa using first)), and_iff_left (.literal inert)]

theorem inert_between_iff (hb : isInert before && before.getLast? ≠ some '*')
    (ha : isInert after && after.head? ≠ some '/') :
    Inert (String.ofList before ++ text ++ String.ofList after) ↔ Inert text :=
  (inert_after_iff ha).trans (inert_before_iff hb)

theorem inert_join_iff {names : List String} : Inert ("|".intercalate names) ↔ ∀ name ∈ names, Inert name := by
  have bar : Inert "|" := .literal rfl
  have nothing : Inert "" := .literal rfl
  induction names with
  | nil => simp [nothing]
  | cons name names ih =>
    cases names with
    | nil => simp
    | cons next rest =>
      rw [String.intercalate_cons_cons, inert_append_iff (.inl (by simp)), inert_append_iff (.inr (by decide)),
        and_iff_left bar, List.forall_mem_cons]
      exact and_congr_right' ih

-- What ends a comment is taken apart.
def defuse (s : List Char) : List Char := Text.replaceAll ['*', '/'] ['*', '\\', '/'] s

theorem defuse_closing (s : List Char) : defuse ('*' :: '/' :: s) = '*' :: '\\' :: '/' :: defuse s := rfl

theorem defuse_cons {c : Char} (h : ¬ (c = '*' ∧ s.head? = some '/')) : defuse (c :: s) = c :: defuse s := by
  have other : ¬ ['*', '/'].isPrefixOf (c :: s) := by
    intro closing
    cases s with
    | nil => simp at closing
    | cons next s =>
      obtain ⟨rfl, rfl⟩ : '*' = c ∧ '/' = next := by simpa using closing
      exact h ⟨rfl, rfl⟩
  rw [defuse, Text.replaceAll, Text.replaceFrom, if_neg other]
  rfl

theorem head?_defuse (s : List Char) : (defuse s).head? = s.head? := by
  cases s with
  | nil => rfl
  | cons c s =>
    by_cases h : c = '*' ∧ s.head? = some '/'
    case pos =>
      obtain ⟨rfl, h⟩ := h
      obtain ⟨s, rfl⟩ := List.head?_eq_some_iff.mp h
      rw [defuse_closing]
      rfl
    case neg =>
      rw [defuse_cons h]
      rfl

theorem unclosed_defuse : (s : List Char) → Unclosed (defuse s)
  | [] => .nil
  | c :: s => by
    by_cases h : c = '*' ∧ s.head? = some '/'
    case pos =>
      obtain ⟨rfl, h⟩ := h
      obtain ⟨s, rfl⟩ := List.head?_eq_some_iff.mp h
      rw [defuse_closing]
      have := unclosed_defuse s
      simpa [Unclosed, List.isChain_cons] using this
    case neg =>
      rw [defuse_cons h, Unclosed, List.isChain_cons, head?_defuse]
      refine ⟨fun next hn closing => h ⟨closing.1, closing.2 ▸ hn⟩, unclosed_defuse s⟩
termination_by s => s.length

theorem inert_commentText (text : String) : Inert (commentText text) where
  unclosed := by
    rw [commentText, String.toList_ofList]
    exact unclosed_defuse _
  one_line := by
    intro c hc
    rw [commentText, String.toList_ofList] at hc
    have allowed : c ∈ ['*', '\\', '/', ' '] ∨ Text.isBlank c = false := by
      rcases Text.mem_of_mem_replaceFrom hc with hc | hc
      case inl => exact .inl (List.mem_append_left [' '] hc)
      case inr =>
        rcases Text.eq_or_isBlank_of_mem_squeeze hc with rfl | hc
        case inl => exact .inl (by decide)
        case inr => exact .inr hc
    constructor
    all_goals
      rintro rfl
      revert allowed
      decide

end

end Php

end OpenApiClient
