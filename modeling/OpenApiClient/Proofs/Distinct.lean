import Mathlib.Tactic.MkIffOfInductiveProp
import OpenApiClient.Document.Basic
import OpenApiClient.Proofs.Entries
import OpenApiClient.Proofs.Schema.Parts

/-!
Documents in which no map has a key twice. Maps are lists of pairs, so that this has to be said; a
document that was read from a text is always such a document.
-/

namespace OpenApiClient

-- What is written in a place, if it is no reference, has a property.
def RefOr.Only {α : Type} (P : α → Prop) (place : RefOr α) : Prop :=
  ∀ value, place = .inline value → P value

@[simp] theorem RefOr.only_ref {α : Type} {P : α → Prop} {target : String} : (ref target).Only P :=
  nofun

@[simp] theorem RefOr.only_inline {α : Type} {P : α → Prop} {value : α} :
    (inline value).Only P ↔ P value := by
  simp [Only]

inductive Schema.Distinct : Schema → Prop
  | intro {s : Schema} (properties : Entries.Distinct s.properties)
    (mapping : ∀ d ∈ s.discriminator, Entries.Distinct d.mapping)
    (parts : ∀ {role c}, s.Has role (.inline c) → Distinct c)
    (members : ∀ {i m}, s.Merges i m → Distinct m) : Distinct s

namespace Schema.Distinct

variable {s : Schema}

theorem properties : Distinct s → Entries.Distinct s.properties
  | intro h _ _ _ => h

theorem mapping : Distinct s → ∀ d ∈ s.discriminator, Entries.Distinct d.mapping
  | intro _ h _ _ => h

theorem part {role : Role} {c : Schema} : Distinct s → s.Has role (.inline c) → Distinct c
  | intro _ _ h _ => h

theorem member {i : Nat} {m : Schema} : Distinct s → s.Merges i m → Distinct m
  | intro _ _ _ h => h

end Schema.Distinct

theorem Schema.distinct_iff {s : Schema} : s.Distinct ↔
    Entries.Of (RefOr.Only Distinct) s.properties ∧
    (∀ place, s.additionalProperties = some (.schema place) → place.Only Distinct) ∧
    (∀ place ∈ s.items, place.Only Distinct) ∧ (∀ place ∈ s.allOf, place.Only Distinct) ∧
    (∀ place ∈ s.oneOf, place.Only Distinct) ∧ (∀ place ∈ s.anyOf, place.Only Distinct) ∧
    ∀ d ∈ s.discriminator, Entries.Distinct d.mapping where
  mp h := by
    refine ⟨⟨h.properties, fun hk _ hs => h.part (.property (hs ▸ hk))⟩,
      fun _ ha _ hs => h.part (.additional (hs ▸ ha)), fun _ hi _ hs => h.part (.item (hs ▸ hi)),
      fun _ hm _ hs => ?_, fun _ hm _ hs => ?_, fun _ hm _ hs => ?_, h.mapping⟩
    all_goals have ⟨i, hi⟩ := List.mem_iff_getElem?.mp hm
    · exact h.member (hs ▸ hi)
    · exact h.part (.oneOf (hs ▸ hi))
    · exact h.part (.anyOf (hs ▸ hi))
  mpr := by
    rintro ⟨properties, additional, items, allOf, oneOf, anyOf, mapping⟩
    refine .intro properties.distinct mapping ?_ fun hm => allOf _ (List.mem_of_getElem? hm) _ rfl
    intro role c h
    cases h with
    | property h => exact properties.values h _ rfl
    | additional h => exact additional _ h _ rfl
    | item h => exact items _ h _ rfl
    | oneOf h => exact oneOf _ (List.mem_of_getElem? h) _ rfl
    | anyOf h => exact anyOf _ (List.mem_of_getElem? h) _ rfl

@[mk_iff]
structure MediaType.Distinct (m : MediaType) : Prop where
  schema : ∀ place ∈ m.schema, place.Only Schema.Distinct
  examples : Entries.Distinct m.examples

def Parameter.Distinct (p : Parameter) : Prop :=
  ∀ place ∈ p.schema, place.Only Schema.Distinct

def RequestBody.Distinct (b : RequestBody) : Prop :=
  Entries.Of MediaType.Distinct b.content

@[mk_iff]
structure Response.Distinct (r : Response) : Prop where
  content : Entries.Of MediaType.Distinct r.content
  headers : Entries.Distinct r.headers

@[mk_iff]
structure Operation.Distinct (op : Operation) : Prop where
  parameters : ∀ place ∈ op.parameters, place.Only Parameter.Distinct
  requestBody : ∀ place ∈ op.requestBody, place.Only RequestBody.Distinct
  responses : Entries.Of (RefOr.Only Response.Distinct) op.responses

theorem PathItem.mem_operations {item : PathItem} {m : HttpMethod} {op : Operation} :
    (m, op) ∈ item.operations ↔ item.operation m = some op := by
  simp only [operations, List.mem_filterMap, HttpMethod.mem_all, true_and, Option.map_eq_some_iff]
  constructor
  · rintro ⟨_, _, h, ⟨⟩⟩
    exact h
  · exact fun h => ⟨m, op, h, rfl⟩

@[mk_iff]
structure PathItem.Distinct (item : PathItem) : Prop where
  parameters : ∀ place ∈ item.parameters, place.Only Parameter.Distinct
  operations : ∀ op ∈ item.operations, op.2.Distinct

@[mk_iff]
structure Components.Distinct (c : Components) : Prop where
  schemas : Entries.Of (RefOr.Only Schema.Distinct) c.schemas
  responses : Entries.Of (RefOr.Only Response.Distinct) c.responses
  parameters : Entries.Of (RefOr.Only Parameter.Distinct) c.parameters
  requestBodies : Entries.Of (RefOr.Only RequestBody.Distinct) c.requestBodies

@[mk_iff]
structure Document.Distinct (d : Document) : Prop where
  servers : ∀ s ∈ d.servers, Entries.Distinct s.placeholders
  paths : Entries.Of PathItem.Distinct d.paths
  components : ∀ c ∈ d.components, c.Distinct

namespace PetStore

-- A small document with a bit of everything. The tag of a pet and the component `PetTag` are called
-- the same, and the order of pets is a parameter of the path that only one of its operations keeps.
def tag : Schema where
  typeKeyword := some (.single .object)
  properties := [("label", .inline { typeKeyword := some (.single .string) })]

def pet : Schema where
  properties := [("tag", .inline tag), ("parent", .ref "#/components/schemas/Pet")]

def order : Parameter where
  name := "order"
  location := .query
  schema := some (.inline { enumValues := [.string "name", .string "age"] })

def list : Operation where
  operationId := some "listPets"
  responses := [("200", .inline { content := [("application/json",
    { schema := some (.inline { items := some (.ref "#/components/schemas/Pet") }) })] })]

def add : Operation where
  operationId := some "addPet"
  parameters := [.inline { order with schema := none }]
  requestBody := some (.inline { content := [("application/json",
    { schema := some (.inline {
      allOf := [.ref "#/components/schemas/Pet", .inline { properties := [("note", .inline tag)] }] }) })] })

def document : Document where
  openapi := "3.0.0"
  info := { title := "Pets", version := "1" }
  paths := [("/pets", { parameters := [.inline order], get := some list, post := some add })]
  components := some { schemas := [("Pet", .inline pet), ("PetTag", .inline tag)] }

theorem distinct : document.Distinct := by
  simp [Document.distinct_iff, Components.distinct_iff, PathItem.distinct_iff, Operation.distinct_iff,
    RequestBody.Distinct, Response.distinct_iff, MediaType.distinct_iff, Parameter.Distinct,
    Schema.distinct_iff, document, pet, tag, order, list, add, Entries.keys, Entries.Distinct,
    PathItem.operations, PathItem.operation, HttpMethod.all]

end PetStore

end OpenApiClient
