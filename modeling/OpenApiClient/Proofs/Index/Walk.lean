import OpenApiClient.Index.Step
import OpenApiClient.Proofs.Pointer
import OpenApiClient.Proofs.Schema.Parts

/-!
The places below a schema that the walk visits. `Below` says which these are, and how they are called
and found, without saying in which order they come: the walk visits them and no others.
-/

namespace OpenApiClient

open Pointer

-- Following the segments from a schema called `name` leads to a schema that is called `name'`. What is
-- in a member of `allOf` is named as if it were in the schema that holds the member.
inductive Schema.Below : String → Schema → List String → String → Schema → Prop
  | part {name s role c} : s.Has role (.inline c) →
    Below name s role.segments (role.nameIn name) c
  | deeper {name s role c rest name' s'} : s.Has role (.inline c) →
    Below (role.nameIn name) c rest name' s' → Below name s (role.segments ++ rest) name' s'
  | merged {name s i m rest name' s'} : s.Merges i m → Below name m rest name' s' →
    Below name s ("allOf" :: toString i :: rest) name' s'

-- What the walk adds to a pointer for a role.
def Role.pointer : Role → String
  | property key => "/properties/" ++ escapeSegment key
  | additional   => "/additionalProperties"
  | item         => "/items"
  | oneOf i      => "/" ++ "oneOf" ++ "/" ++ toString i
  | anyOf i      => "/" ++ "anyOf" ++ "/" ++ toString i

theorem Role.ofSegments_append (base : List String) (role : Role) :
    ofSegments (base ++ role.segments) = ofSegments base ++ role.pointer := by
  rw [Pointer.ofSegments_append]
  congr 1
  cases role <;> simp (disch := decide) [segments, pointer, escapeSegment_eq_self, ← String.append_assoc]

namespace Schema

variable {step : IndexStep} {enclosing : List String} {name pointer : String} {base : List String}

theorem propertySteps_eq (properties : List (String × SchemaRef)) :
    propertySteps enclosing name pointer properties = properties.flatMap fun (key, place) =>
      stepsAt enclosing (Naming.nested name key) (pointer ++ "/properties/" ++ escapeSegment key)
        place := by
  induction properties <;> simp_all [propertySteps]

theorem memberSteps_eq (keyword : String) (i : Nat) (members : List SchemaRef) :
    memberSteps enclosing name pointer keyword i members =
      (members.zipIdx i).flatMap fun (place, j) =>
        stepsAt enclosing (Naming.nested name (keyword ++ toString (j + 1)))
          (pointer ++ "/" ++ keyword ++ "/" ++ toString j) place := by
  induction members generalizing i <;> simp_all [memberSteps]

theorem mergedSteps_eq (i : Nat) (members : List SchemaRef) :
    mergedSteps enclosing name pointer i members = (members.zipIdx i).flatMap fun
      | (.ref target, _) => [.followSchema target]
      | (.inline m, j) => m.stepsBelow enclosing name (pointer ++ "/allOf/" ++ toString j) := by
  induction members generalizing i with
  | nil => simp [mergedSteps]
  | cons place rest ih => cases place <;> simp [mergedSteps, ih]

theorem mem_memberSteps {keyword : String} {members : List SchemaRef} :
    step ∈ memberSteps enclosing name pointer keyword 0 members ↔
      ∃ i place, members[i]? = some place ∧
        step ∈ stepsAt enclosing (Naming.nested name (keyword ++ toString (i + 1)))
          (pointer ++ "/" ++ keyword ++ "/" ++ toString i) place := by
  simp only [memberSteps_eq, List.mem_flatMap, Prod.exists, List.mk_mem_zipIdx_iff_getElem?]
  exact exists_comm

theorem mem_mergedSteps {members : List SchemaRef} :
    step ∈ mergedSteps enclosing name pointer 0 members ↔
      (∃ target, RefOr.ref target ∈ members ∧ step = .followSchema target) ∨
      ∃ (i : Nat) (m : Schema), members[i]? = some (RefOr.inline m) ∧
        step ∈ m.stepsBelow enclosing name (pointer ++ "/allOf/" ++ toString i) := by
  simp only [mergedSteps_eq, List.mem_flatMap, Prod.exists, List.mk_mem_zipIdx_iff_getElem?]
  constructor
  · rintro ⟨_ | m, i, hi, h⟩
    · exact .inl ⟨_, List.mem_of_getElem? hi, List.mem_singleton.mp h⟩
    · exact .inr ⟨i, m, hi, h⟩
  · rintro (⟨target, hm, rfl⟩ | ⟨i, m, hi, h⟩)
    · have ⟨i, hi⟩ := List.mem_iff_getElem?.mp hm
      exact ⟨_, i, hi, List.mem_singleton_self _⟩
    · exact ⟨_, i, hi, h⟩

-- What the walk does below a schema: it goes to the places that have a role, and on below the members.
theorem mem_stepsBelow_iff {s : Schema} : step ∈ s.stepsBelow enclosing name pointer ↔
    (∃ role place, s.Has role place ∧
      step ∈ stepsAt enclosing (role.nameIn name) (pointer ++ role.pointer) place) ∨
    (∃ target, RefOr.ref target ∈ s.allOf ∧ step = .followSchema target) ∨
    ∃ i m, s.Merges i m ∧ step ∈ m.stepsBelow enclosing name (pointer ++ "/allOf/" ++ toString i) := by
  have walk : step ∈ s.stepsBelow enclosing name pointer ↔
      (step ∈ propertySteps enclosing name pointer s.properties ∨
        step ∈ additionalSteps enclosing name pointer s.additionalProperties ∨
        step ∈ itemSteps enclosing name pointer s.items ∨
        step ∈ memberSteps enclosing name pointer "oneOf" 0 s.oneOf ∨
        step ∈ memberSteps enclosing name pointer "anyOf" 0 s.anyOf) ∨
      step ∈ mergedSteps enclosing name pointer 0 s.allOf := by
    cases s
    simp only [stepsBelow, List.mem_append, or_assoc, or_left_comm (a := step ∈ mergedSteps ..)]
    simp only [or_comm (a := step ∈ mergedSteps ..)]
  have additional : step ∈ additionalSteps enclosing name pointer s.additionalProperties ↔
      ∃ place, s.additionalProperties = some (.schema place) ∧
        step ∈ stepsAt enclosing (Naming.nested name "additionalProperty")
          (pointer ++ "/additionalProperties") place := by
    match s.additionalProperties with
    | none | some (.allowed _) | some (.schema _) => simp [additionalSteps]
  have items : step ∈ itemSteps enclosing name pointer s.items ↔
      ∃ place, s.items = some place ∧
        step ∈ stepsAt enclosing (Naming.nested name "item") (pointer ++ "/items") place := by
    cases s.items <;> simp [itemSteps]
  simp only [walk, propertySteps_eq, List.mem_flatMap, Prod.exists, additional, items,
    mem_mergedSteps, mem_memberSteps, Role.exists, Role.pointer, Role.nameIn, has_property,
    has_additional, has_item, has_oneOf, has_anyOf, Merges, String.append_assoc]

theorem mem_stepsBelow {s : Schema} : step ∈ s.stepsBelow enclosing name (ofSegments base) ↔
    (∃ role place, s.Has role place ∧
      step ∈ stepsAt enclosing (role.nameIn name) (ofSegments (base ++ role.segments)) place) ∨
    (∃ target, RefOr.ref target ∈ s.allOf ∧ step = .followSchema target) ∨
    ∃ i m, s.Merges i m ∧
      step ∈ m.stepsBelow enclosing name (ofSegments (base ++ ["allOf", toString i])) := by
  have member (i : Nat) : ofSegments (base ++ ["allOf", toString i]) =
      ofSegments base ++ "/allOf/" ++ toString i := by
    simp (disch := decide) [Pointer.ofSegments_append, escapeSegment_eq_self, String.append_assoc,
      ← @String.append_assoc "/allOf"]
  rw [mem_stepsBelow_iff]
  simp only [Role.ofSegments_append, member]

theorem visit_mem_stepsAt {p : SchemaPosition} {place : SchemaRef} :
    .visit p ∈ stepsAt enclosing name pointer place ↔ ∃ s, place = .inline s ∧
      (p = { name, schema := s, pointer, enclosing } ∨
        .visit p ∈ s.stepsBelow (enclosing ++ [name]) name pointer) := by
  cases place <;> simp [stepsAt]

-- Whatever is visited below a schema is below it,
theorem below_of_visit {p : SchemaPosition} {s : Schema}
    (h : .visit p ∈ s.stepsBelow enclosing name (ofSegments base)) :
    ∃ rest, p.pointer = ofSegments (base ++ rest) ∧ s.Below name rest p.name p.schema := by
  induction s using Schema.induction generalizing enclosing name base with
  | step s parts members =>
    rcases mem_stepsBelow.mp h with ⟨role, _, hs, hv⟩ | ⟨_, _, hv⟩ | ⟨i, m, hm, hv⟩
    case inl =>
      obtain ⟨c, rfl, rfl | hb⟩ := visit_mem_stepsAt.mp hv
      case inl => exact ⟨role.segments, rfl, .part hs⟩
      case inr =>
        have ⟨rest, hp, below⟩ := parts hs hb
        exact ⟨role.segments ++ rest, by rw [hp, List.append_assoc], .deeper hs below⟩
    case inr.inl => contradiction
    case inr.inr =>
      have ⟨rest, hp, below⟩ := members hm hv
      exact ⟨"allOf" :: toString i :: rest, by rw [hp, List.append_assoc]; rfl, .merged hm below⟩

-- and whatever is below it is visited.
theorem Below.visit {s s' : Schema} {rest : List String} {name' : String}
    (h : s.Below name rest name' s') (enclosing base : List String) :
    ∃ enclosing', .visit ⟨name', s', ofSegments (base ++ rest), enclosing'⟩ ∈
      s.stepsBelow enclosing name (ofSegments base) := by
  induction h generalizing enclosing base with
  | part hs =>
    exists enclosing
    exact mem_stepsBelow.mpr <| .inl ⟨_, _, hs, visit_mem_stepsAt.mpr ⟨_, rfl, .inl rfl⟩⟩
  | @deeper name _ role _ _ _ _ hs _ ih =>
    have ⟨enclosing', hv⟩ := ih (enclosing ++ [role.nameIn name]) (base ++ role.segments)
    exists enclosing'
    rw [← List.append_assoc]
    exact mem_stepsBelow.mpr <| .inl ⟨_, _, hs, visit_mem_stepsAt.mpr ⟨_, rfl, .inr hv⟩⟩
  | @merged _ _ i _ _ _ _ hm _ ih =>
    have ⟨enclosing', hv⟩ := ih enclosing (base ++ ["allOf", toString i])
    exists enclosing'
    rw [List.append_assoc] at hv
    exact mem_stepsBelow.mpr <| .inr <| .inr ⟨_, _, hm, hv⟩

theorem Below.trans {s s' s'' : Schema} {name' name'' : String} {rest rest' : List String}
    (h : s.Below name rest name' s') (h' : s'.Below name' rest' name'' s'') :
    s.Below name (rest ++ rest') name'' s'' := by
  induction h with
  | part hs => exact .deeper hs h'
  | deeper hs _ ih => exact List.append_assoc .. ▸ .deeper hs (ih h')
  | merged hm _ ih => exact .merged hm (ih h')

end Schema

end OpenApiClient
