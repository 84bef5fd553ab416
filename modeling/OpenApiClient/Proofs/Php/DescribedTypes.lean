import OpenApiClient.Php.TypeName
import OpenApiClient.Proofs.Hint.Mentions
import OpenApiClient.Proofs.Naming.ClassName
import OpenApiClient.Proofs.Php.CommentText

/-!
The types of values as comments have them. All that is written there beside the names of classes is fixed, so that only
the namespace can bring in something that ends a comment or a line.
-/

namespace OpenApiClient

-- The classes that are written out: those that hints mention, except beside `mixed`.
inductive Hint.Writes : Hint → String → Prop
  | model {name} : Writes (.model name) name
  | array {items hint name} : .mixed ∉ items → hint ∈ items → Writes hint name → Writes (.array items) name

def Hints.Write (hints : Hints) (name : String) : Prop := .mixed ∉ hints ∧ ∃ hint ∈ hints, hint.Writes name

@[simp] theorem Hint.writes_array {items : List Hint} {cls : String} :
    (Hint.array items).Writes cls ↔ Hints.Write items cls where
  mp | .array not_mixed hm h => ⟨not_mixed, _, hm, h⟩
  mpr := fun ⟨not_mixed, _, hm, h⟩ => .array not_mixed hm h

namespace Php

open Naming

section

variable {s : List Char} {root name : String} {hints : Hints} {names : List String}

theorem unclosed_of_not_mem (h : '*' ∉ s) : Unclosed s := by
  induction s with
  | nil => exact .nil
  | cons c s ih =>
    obtain ⟨hc, hs⟩ : '*' ≠ c ∧ '*' ∉ s := by simpa using h
    exact List.isChain_cons.mpr ⟨fun _ _ closing => hc closing.1.symm, ih hs⟩

theorem inert_of_isNameChar (h : ∀ c ∈ name.toList, isNameChar c) : Inert name where
  unclosed := unclosed_of_not_mem fun star => absurd (h _ star) (by decide)
  one_line := by
    intro c hc
    constructor
    all_goals
      rintro rfl
      exact absurd (h _ hc) (by decide)

theorem inert_className {sub : String} (hs : IsWord sub) (h : IsWord name) : Inert (className sub name) := by
  unfold className
  split
  case isTrue => exact inert_of_isNameChar (h.append hs.chars).chars
  case isFalse => exact inert_of_isNameChar h.chars

theorem inert_within_iff (h : Inert name) : Inert (within root name) ↔ Inert (trimNamespace root) := by
  have nothing : Inert "" := .literal rfl
  have separated : Inert ("\\" ++ name) := (inert_before_iff rfl).mpr h
  unfold within
  split
  case isTrue root_empty =>
    rw [root_empty]
    exact iff_of_true h nothing
  case isFalse => rw [String.append_assoc, inert_append_iff (.inr (by simp)), and_iff_left separated]

theorem inert_modelClass_iff (h : IsWord name) : Inert (modelClass root name) ↔ Inert (trimNamespace root) := by
  have model : IsWord "Model" := by decide
  have in_sub : Inert ("Model" ++ "\\" ++ className "Model" name) := by
    rw [String.append_assoc]
    exact (inert_before_iff rfl).mpr ((inert_before_iff rfl).mpr (inert_className model h))
  exact (inert_before_iff rfl).trans (inert_within_iff in_sub)

theorem inert_joinDescribed_iff : Inert (joinDescribed hints names) ↔
    (hints ≠ [] → .mixed ∉ hints → ∀ name ∈ names, Inert name) := by
  have mixed : Inert "mixed" := .literal rfl
  unfold joinDescribed
  split
  case isTrue h => exact iff_of_true mixed fun some_hint not_mixed => absurd h (by tauto)
  case isFalse h =>
    obtain ⟨some_hint, not_mixed⟩ := not_or.mp h
    simp [inert_join_iff, some_hint, not_mixed]

theorem describedNames_eq (root : String) (hints : Hints) :
    describedNames root hints = hints.map (describedName root) := by
  induction hints with
  | nil => rfl
  | cons hint rest ih => rw [describedNames, ih, List.map_cons]

-- Alternatives are written out with the namespace if one of them is.
theorem inert_alternatives_iff (each : ∀ hint ∈ hints,
      (Inert (describedName root hint) ↔ ((∃ cls, hint.Writes cls) → Inert (trimNamespace root)))) :
    Inert (describedType root hints) ↔ ((∃ cls, Hints.Write hints cls) → Inert (trimNamespace root)) := by
  rw [describedType, inert_joinDescribed_iff, describedNames_eq]
  constructor
  · rintro inert ⟨cls, not_mixed, hint, hm, writes⟩
    exact (each hint hm).mp (inert (List.ne_nil_of_mem hm) not_mixed _ (List.mem_map_of_mem hm)) ⟨cls, writes⟩
  · intro root_inert _ not_mixed name hn
    obtain ⟨hint, hm, rfl⟩ := List.mem_map.mp hn
    exact (each hint hm).mpr fun ⟨cls, writes⟩ => root_inert ⟨cls, not_mixed, hint, hm, writes⟩

theorem inert_describedName_iff : (hint : Hint) → (∀ cls, hint.Mentions cls → IsWord cls) →
    (Inert (describedName root hint) ↔ ((∃ cls, hint.Writes cls) → Inert (trimNamespace root)))
  | .basic type, _ => by
    have fixed : Inert (describedName root (.basic type)) := by
      cases type <;> exact .literal rfl
    exact iff_of_true fixed nofun
  | .model name, words => by
    have only : (∃ cls, (Hint.model name).Writes cls) := ⟨name, .model⟩
    rw [describedName, inert_modelClass_iff (words name .model), forall_prop_of_true only]
  | .array items, words => by
    have alternatives := inert_alternatives_iff fun hint hm =>
      inert_describedName_iff hint fun cls mentions => words cls (.array hm mentions)
    have list : Inert (describedName root (.array items)) ↔ Inert (describedType root items) :=
      inert_between_iff rfl rfl
    simpa [list] using alternatives
termination_by hint => sizeOf hint
decreasing_by
  have := List.sizeOf_lt_of_mem hm
  simp only [Hint.array.sizeOf_spec]
  omega

-- The namespace is written exactly where a class is.
theorem inert_describedType_iff (words : ∀ cls, Hints.Mention hints cls → IsWord cls) :
    Inert (describedType root hints) ↔ ((∃ cls, Hints.Write hints cls) → Inert (trimNamespace root)) :=
  inert_alternatives_iff fun hint hm => inert_describedName_iff hint fun cls mentions => words cls ⟨hint, hm, mentions⟩

end

end Php

end OpenApiClient
