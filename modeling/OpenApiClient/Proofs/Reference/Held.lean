import OpenApiClient.Document.References
import OpenApiClient.Proofs.Outcome
import OpenApiClient.Proofs.Reference.Way

/-!
The references that a document holds, node by node: what a reference leads to holds none but these.
-/

namespace OpenApiClient

namespace Schema

variable {target : String}

theorem mem_entryReferences {entries : List (String × SchemaRef)} :
    target ∈ entryReferences entries ↔
      ∃ key place, (key, place) ∈ entries ∧ target ∈ refReferences place := by
  induction entries with
  | nil => simp [entryReferences]
  | cons entry rest ih =>
    obtain ⟨key, place⟩ := entry
    simp only [entryReferences, List.mem_append, ih, List.mem_cons, Prod.mk.injEq]
    grind

theorem mem_listReferences {places : List SchemaRef} :
    target ∈ listReferences places ↔ ∃ place ∈ places, target ∈ refReferences place := by
  induction places with
  | nil => simp [listReferences]
  | cons place rest ih => simp [listReferences, ih]

theorem mem_references {s : Schema} : target ∈ s.references ↔
    target ∈ entryReferences s.properties ∨ target ∈ optionReferences s.additionalSchema ∨
      target ∈ optionReferences s.items ∨ target ∈ listReferences s.allOf ∨
      target ∈ listReferences s.oneOf ∨ target ∈ listReferences s.anyOf := by
  have additional : additionalReferences s.additionalProperties = optionReferences s.additionalSchema := by
    rcases h : s.additionalProperties with - | flag | place <;>
      simp [additionalReferences, optionReferences, additionalSchema, h]
  rw [← additional]
  cases s
  simp only [references, List.mem_append, or_assoc]

-- Whatever is written in a part is written in the schema.
theorem Has.references {s : Schema} {role : Role} {place : SchemaRef} (h : s.Has role place) :
    refReferences place ⊆ s.references := by
  intro target ht
  rw [mem_references, mem_entryReferences, mem_listReferences, mem_listReferences, mem_listReferences]
  cases h with
  | property h => exact .inl ⟨_, _, h, ht⟩
  | additional h =>
    have h : s.additionalSchema = some place := by simp [additionalSchema, h]
    exact .inr (.inl (h ▸ ht))
  | item h => exact .inr (.inr (.inl (h ▸ ht)))
  | oneOf h => exact .inr (.inr (.inr (.inr (.inl ⟨_, List.mem_of_getElem? h, ht⟩))))
  | anyOf h => exact .inr (.inr (.inr (.inr (.inr ⟨_, List.mem_of_getElem? h, ht⟩))))

theorem ref_mem_allOf {s : Schema} (h : s.annotatedReference = some target) : .ref target ∈ s.allOf := by
  unfold annotatedReference at h
  split at h
  case isTrue => contradiction
  case isFalse =>
    split at h
    case h_1 only =>
      have mem : target ∈ s.allOf.filterMap RefOr.target? := by simp_all
      obtain ⟨place, hm, ht⟩ := List.mem_filterMap.mp mem
      cases place <;> cases ht
      exact hm
    case h_2 => contradiction

theorem annotatedReference_mem_references {s : Schema} (h : s.annotatedReference = some target) :
    target ∈ s.references := by
  have listed := mem_listReferences.mpr ⟨_, ref_mem_allOf h, List.mem_singleton_self target⟩
  exact mem_references.mpr (.inr (.inr (.inr (.inl listed))))

end Schema

namespace Node

-- The references that are written in a node.
def references : Node → List String
  | .document d => d.references
  | .components c => c.references
  | .paths entries => entries.flatMap (·.2.references)
  | .pathItem item => item.references
  | .operation op => op.references
  | .schema s => s.references
  | .schemaMap entries => Schema.entryReferences entries
  | .schemaList items => Schema.listReferences items
  | .response r => r.references
  | .responseMap entries => entries.flatMap (·.2.references Response.references)
  | .content entries => contentReferences entries
  | .mediaType m => Schema.optionReferences m.schema
  | .parameter p => p.references
  | .parameterMap entries => entries.flatMap (·.2.references Parameter.references)
  | .parameterList items => items.flatMap (·.references Parameter.references)
  | .requestBody b => b.references
  | .requestBodyMap entries => entries.flatMap (·.2.references RequestBody.references)
  | .reference target => [target]

variable {node next : Node} {segment target : String}

theorem references_ofRefOr {α : Type} {node : α → Node} {f : α → List String}
    (h : ∀ a, (node a).references = f a) (place : RefOr α) :
    (ofRefOr node place).references = place.references f := by
  cases place with
  | ref => rfl
  | inline a => exact h a

theorem references_schemaRef (place : SchemaRef) :
    (ofRefOr .schema place).references = Schema.refReferences place := by
  cases place <;> simp [ofRefOr, references, Schema.refReferences]

theorem mem_references_of_entry {α : Type} {entries : List (String × α)} {f : α → List String} {a : α}
    (h : Entries.get? segment entries = some a) (ht : target ∈ f a) : target ∈ entries.flatMap (f ·.2) :=
  List.mem_flatMap.mpr ⟨_, Entries.mem_of_get? h, ht⟩

-- A step leads to a part, where nothing else can be written.
theorem references_of_step? (h : node.step? segment = some next) : next.references ⊆ node.references := by
  intro target ht
  cases node <;> simp only [step?, reduceCtorEq] at h
  all_goals repeat' split at h
  all_goals first | cases h | obtain ⟨place, ha, rfl⟩ := Option.map_eq_some_iff.mp h
  case document.isTrue =>
    exact List.mem_append_right _ (List.mem_flatMap.mpr ⟨_, Option.mem_toList.mpr ha, ht⟩)
  case paths => exact mem_references_of_entry ha ht
  case content => exact mem_references_of_entry (f := fun m => Schema.optionReferences m.schema) ha ht
  case responseMap | parameterMap | requestBodyMap =>
    rw [references_ofRefOr fun _ => rfl] at ht
    exact mem_references_of_entry ha ht
  case schemaMap =>
    rw [references_schemaRef] at ht
    exact Schema.mem_entryReferences.mpr ⟨_, _, Entries.mem_of_get? ha, ht⟩
  case schemaList =>
    obtain ⟨_, _, hi⟩ := item?_eq_some ha
    rw [references_schemaRef] at ht
    exact Schema.mem_listReferences.mpr ⟨_, List.mem_of_getElem? hi, ht⟩
  case parameterList =>
    obtain ⟨_, _, hi⟩ := item?_eq_some ha
    rw [references_ofRefOr fun _ => rfl] at ht
    exact List.mem_flatMap.mpr ⟨_, List.mem_of_getElem? hi, ht⟩
  case pathItem.isFalse =>
    obtain ⟨_, _, ho⟩ := operation_of_ofKey? ha
    exact List.mem_append_right _ (List.mem_flatMap.mpr ⟨_, PathItem.mem_operations.mpr ho, ht⟩)
  case operation.isFalse.isFalse.isTrue =>
    rw [references_ofRefOr fun _ => rfl] at ht
    have payload := List.mem_flatMap.mpr ⟨_, Option.mem_toList.mpr ha, ht⟩
    exact List.mem_append_left _ (List.mem_append_right _ payload)
  case schema.isFalse.isTrue | schema.isFalse.isFalse.isTrue | mediaType.isTrue | parameter.isTrue =>
    rw [references_schemaRef] at ht
    simp only [references, Parameter.references, Schema.mem_references, ha, Schema.optionReferences]
    tauto
  case response | requestBody => exact ht
  all_goals
    simp only [references, Document.references, Components.references, PathItem.references, Operation.references,
      Schema.mem_references, List.mem_append] at ht ⊢
    tauto

theorem references_of_walk {start : Node} {way : List String} (h : start.walk way = .ok node) :
    node.references ⊆ start.references := by
  induction way generalizing start with
  | nil =>
    cases walk_nil_eq_ok.mp h
    exact List.Subset.refl _
  | cons segment rest ih =>
    obtain ⟨next, hs, h⟩ := walk_cons_eq_ok.mp h
    exact List.Subset.trans (ih h) (references_of_step? hs)

end Node

namespace Document

theorem references_of_resolve {d : Document} {reference : String} {node : Node}
    (h : d.resolve reference = .ok node) : node.references ⊆ d.references := by
  simp only [resolve, bind_eq_ok, mapError_eq_ok] at h
  obtain ⟨way, _, hw⟩ := h
  exact Node.references_of_walk hw

end Document

end OpenApiClient
