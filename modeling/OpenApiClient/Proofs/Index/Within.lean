import OpenApiClient.Proofs.Index.OneName

/-!
What the walk visits from one root: the schema there and what is below it, whatever begins at other roots.
-/

namespace OpenApiClient

-- A schema itself and what is below it, with its name and the way to it.
inductive Schema.Within (s : Schema) (name : String) : List String → String → Schema → Prop
  | self : Within s name [] name s
  | below {rest name' s'} : s.Below name rest name' s' → Within s name rest name' s'

theorem Schema.Within.name_eq {s t s' t' : Schema} {name name₁ name₂ : String} {way : List String}
    (hs : s.Within name way name₁ s') (ht : t.Within name way name₂ t') : name₁ = name₂ := by
  cases hs with
  | self =>
    cases ht with
    | self => rfl
    | below h => exact absurd rfl h.ne_nil
  | below h =>
    cases ht with
    | self => exact absurd rfl h.ne_nil
    | below h' => exact h.name_eq h'

namespace Schema

open Pointer

variable {s s' : Schema} {name name' : String} {rest way : List String}

theorem within_of_visit {p : SchemaPosition} (h : .visit p ∈ stepsAt [] name (ofSegments way) (.inline s)) :
    ∃ rest, p.pointer = ofSegments (way ++ rest) ∧ s.Within name rest p.name p.schema := by
  obtain ⟨_, ⟨⟩, rfl | hv⟩ := visit_mem_stepsAt.mp h
  case inl => exact ⟨[], by rw [List.append_nil], .self⟩
  case inr =>
    obtain ⟨rest, pointer, below⟩ := below_of_visit hv
    exact ⟨rest, pointer, .below below⟩

theorem Within.visit (h : s.Within name rest name' s') (way : List String) : ∃ enclosing,
    .visit ⟨name', s', ofSegments (way ++ rest), enclosing⟩ ∈ stepsAt [] name (ofSegments way) (.inline s) := by
  cases h with
  | self => exact ⟨[], visit_mem_stepsAt.mpr ⟨s, rfl, .inl (by rw [List.append_nil])⟩⟩
  | below h =>
    obtain ⟨enclosing, hv⟩ := h.visit [name] way
    exact ⟨enclosing, visit_mem_stepsAt.mpr ⟨s, rfl, .inr hv⟩⟩

end Schema

namespace Document

variable {d : Document} {responses : ResponseIndex} {root : Root} {rest way : List String}
  {name' : String} {s' : Schema}

theorem Visits.within (h : d.Visits responses way name' s') : ∃ root rest name s, way = root.way ++ rest ∧
    d.Begins responses root name s ∧ s.Within name rest name' s' := by
  cases h with
  | root begins => exact ⟨_, [], _, _, (List.append_nil _).symm, begins, .self⟩
  | below begins below => exact ⟨_, _, _, _, rfl, begins, .below below⟩

theorem visits_root_iff : d.Visits responses (root.way ++ rest) name' s' ↔
    ∃ name s, d.Begins responses root name s ∧ s.Within name rest name' s' := by
  constructor
  · intro h
    obtain ⟨_, _, name, s, hw, begins, within⟩ := h.within
    obtain ⟨rfl, rfl⟩ := Root.way_append_inj hw
    exact ⟨name, s, begins, within⟩
  · rintro ⟨name, s, begins, within⟩
    cases within with
    | self => exact (List.append_nil root.way).symm ▸ .root begins
    | below below => exact .below begins below

end Document

end OpenApiClient
