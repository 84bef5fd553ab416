import OpenApiClient.Proofs.Index.Order

/-!
What a place is called in the end. The walk goes from root to root, and the steps at one root are known: so what is kept
by each root, and by one walk after another, holds of the whole walk.
-/

namespace OpenApiClient

open Pointer

namespace IndexStep

variable {steps others : List IndexStep} {pointer name : String}

-- The name that the last of the steps to come to a place gives to it.
def latest (steps : List IndexStep) (pointer : String) : Option String :=
  (steps.filterMap place?).reverse.lookup pointer

theorem latest_append : latest (steps ++ others) pointer = (latest others pointer).or (latest steps pointer) := by
  simp [latest, List.lookup_append]

theorem latest_eq_none : latest steps pointer = none ↔ ∀ p, .visit p ∈ steps → p.pointer ≠ pointer := by
  simp only [latest, List.lookup_eq_none_iff, List.mem_reverse, Prod.forall, mem_places, bne_iff_ne]
  constructor
  · rintro absent p hp rfl
    exact absent _ _ ⟨p, hp, rfl, rfl⟩ rfl
  · rintro absent _ _ ⟨p, hp, rfl, -⟩
    exact (absent p hp).symm

theorem visit_of_latest (h : latest steps pointer = some name) :
    ∃ p, .visit p ∈ steps ∧ p.pointer = pointer ∧ p.name = name := by
  obtain ⟨before, after, split, -⟩ := List.lookup_eq_some_iff.mp h
  exact mem_places.mp (List.mem_reverse.mp (split ▸ by simp))

theorem latest_of_visit {p : SchemaPosition} (hp : .visit p ∈ steps)
    (once : ∀ q, .visit q ∈ steps → q.pointer = p.pointer → q.name = p.name) :
    latest steps p.pointer = some p.name := by
  cases found : latest steps p.pointer with
  | none => exact absurd rfl (latest_eq_none.mp found p hp)
  | some name =>
    obtain ⟨q, hq, pointer, rfl⟩ := visit_of_latest found
    rw [once q hq pointer]

end IndexStep

namespace Document

open IndexStep

variable {d : Document} {responses : ResponseIndex} {steps : List IndexStep}

-- The steps of the walk, root by root.
inductive Walks (d : Document) (responses : ResponseIndex) : List IndexStep → Prop
  | nil : Walks d responses []
  | elsewhere {step} : (∀ p, step ≠ .visit p) → Walks d responses [step]
  | root {root name s} : d.Begins responses root name s →
    Walks d responses (Schema.stepsAt [] name (ofSegments root.way) (.inline s))
  | append {steps steps'} : Walks d responses steps → Walks d responses steps' → Walks d responses (steps ++ steps')

namespace Walks

theorem flatMap {α : Type} {xs : List α} {f : α → List IndexStep} (h : ∀ x ∈ xs, d.Walks responses (f x)) :
    d.Walks responses (xs.flatMap f) := by
  induction xs with
  | nil => exact .nil
  | cons x xs ih =>
    obtain ⟨first, others⟩ := List.forall_mem_cons.mp h
    exact List.flatMap_cons ▸ .append first (ih others)

-- A place where the walk begins with what is written there, or a reference that it checks.
theorem place {place : SchemaRef} {name : String} (root : Root)
    (h : ∀ s, place = .inline s → d.Begins responses root name s) :
    d.Walks responses (Schema.stepsAt [] name (ofSegments root.way) place) := by
  cases place with
  | ref => exact .elsewhere nofun
  | inline s => exact .root (h s rfl)

end Walks

section

variable {name : String} {base : List String}

theorem walks_contentSteps {content : List (String × MediaType)}
    (h : ∀ media s, jsonSchema? content = some (media, s) →
      ∃ root : Root, root.way = base ++ ["content", media, "schema"] ∧ d.Begins responses root name s) :
    d.Walks responses (contentSteps name (ofSegments base) content) := by
  unfold contentSteps
  split
  case h_1 media place _ _ json =>
    cases place with
    | ref => exact .elsewhere nofun
    | inline s =>
      obtain ⟨root, way, begins⟩ := h media s (by rw [jsonSchema?, json])
      rw [content_pointer, ← way]
      exact .root begins
  case h_2 => exact .nil

theorem walks_componentSchemaSteps : d.Walks responses d.componentSchemaSteps := by
  refine .flatMap ?_
  rintro ⟨key, place⟩ hk
  dsimp only
  split
  · exact .elsewhere nofun
  · rw [componentSchema_pointer]
    exact .root (.schema hk ‹_›)
  · exact .elsewhere nofun

theorem walks_responseSteps (hr : d.responseIndex = .ok responses) : d.Walks responses (responseSteps responses) := by
  refine .flatMap fun found hf => ?_
  obtain ⟨place, response, origin⟩ := hasResponse_of_index hr found hf
  split
  case h_1 media s _ _ json =>
    rw [Response.json?] at json
    rw [origin, content_pointer]
    have begins : d.Begins responses (.response place media) (Naming.responseBodyName found.name) s :=
      .response hf response origin (by rw [jsonSchema?, json])
    exact .root begins
  case h_2 => exact .nil

theorem walks_componentRequestBodySteps {c : Components} (hc : d.components = some c) :
    d.Walks responses (componentRequestBodySteps c) := by
  refine .flatMap ?_
  rintro ⟨key, place⟩ hk
  dsimp only
  split
  · exact .elsewhere nofun
  · rw [componentRequestBody_pointer]
    exact walks_contentSteps fun media s hs => ⟨.requestBody key media, rfl, .requestBody hc hk ‹_› hs⟩
  · exact .elsewhere nofun

theorem walks_componentParameterSteps {c : Components} (hc : d.components = some c) :
    d.Walks responses (componentParameterSteps c) := by
  refine .flatMap ?_
  rintro ⟨key, place⟩ hk
  dsimp only
  split
  · exact .elsewhere nofun
  · split
    · exact .nil
    · rename_i hs hn
      rw [componentParameter_pointer]
      exact .place (.parameter key) fun s inline => .parameter hc hk hn (inline ▸ hs)
    · exact .elsewhere nofun

end

theorem walks_operationSteps {o : OperationSite} (ho : o ∈ d.operations) :
    d.Walks responses (d.operationSteps o) := by
  unfold operationSteps
  refine .append ?_ ?_
  · split
    · rename_i hb
      rw [OperationSite.payload_pointer]
      exact walks_contentSteps fun media s hs => ⟨.payload o.path o.method media, rfl, .payload ho hb hs⟩
    · exact .nil
  · split
    · rename_i parameters hp
      refine .flatMap fun p hm => ?_
      have effective : d.Effective o p := ⟨ho, parameters, hp, hm⟩
      obtain ⟨-, place, listed, pointer⟩ := effective.listed
      unfold parameterSteps
      split
      · rename_i source
        rw [pointer, schema_pointer]
        exact .place (.argument place) fun s inline => .argument effective listed pointer source (inline ▸ rfl)
      · exact .nil
    · exact .elsewhere nofun

theorem walks_indexSteps (hr : d.responseIndex = .ok responses) : d.Walks responses (d.indexSteps responses) := by
  refine .append (.append (.append walks_componentSchemaSteps (walks_responseSteps hr)) ?_) ?_
  · refine .flatMap fun c hc => ?_
    have hc := Option.mem_toList.mp hc
    exact .append (walks_componentRequestBodySteps hc) (walks_componentParameterSteps hc)
  · exact .flatMap fun o ho => walks_operationSteps ho

end Document

namespace Schema

variable {s s' : Schema} {name name' : String} {rest way : List String}

-- The steps at one root have one name for each place,
theorem Within.latest (h : s.Within name rest name' s') :
    IndexStep.latest (stepsAt [] name (ofSegments way) (.inline s)) (ofSegments (way ++ rest)) = some name' := by
  obtain ⟨enclosing, hv⟩ := h.visit way
  refine IndexStep.latest_of_visit hv fun q hq pointer => ?_
  obtain ⟨rest', at_q, within⟩ := within_of_visit hq
  obtain rfl := List.append_cancel_left (ofSegments_injective (at_q.symm.trans pointer))
  exact within.name_eq h

-- and none for a place at another root.
theorem latest_elsewhere {root root' : Root} (h : root ≠ root') :
    IndexStep.latest (stepsAt [] name (ofSegments root.way) (.inline s)) (ofSegments (root'.way ++ rest)) = none := by
  refine IndexStep.latest_eq_none.mpr fun p hp pointer => ?_
  obtain ⟨rest', at_p, -⟩ := within_of_visit hp
  exact h (Root.way_append_inj (ofSegments_injective (at_p.symm.trans pointer))).1

end Schema

end OpenApiClient
