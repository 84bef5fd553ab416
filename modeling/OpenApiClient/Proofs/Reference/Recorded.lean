import OpenApiClient.Proofs.Index.Names
import OpenApiClient.Proofs.Reference.ReadBack

/-!
Pointers that are recorded while names are found for a document. They lead back to what they were recorded for as long as the
keys on the way are read back.
-/

namespace OpenApiClient

open Pointer

-- A pointer that is recorded for an operation, for a parameter in effect, for a response, or for a schema on the walk. The
-- index also keeps the pointer of the first schema under each name.
inductive NamedDocument.Records (n : NamedDocument) : String → Node → Prop
  | operation {o} : o ∈ n.document.operations → Records n o.pointer (.operation o.operation)
  | parameter {o p} : n.document.Effective o p → Records n p.pointer (Node.ofRefOr .parameter p.source)
  | response {found} : found ∈ n.responses.entries → Records n found.origin (.response found.response)
  | position {p} : .visit p ∈ n.document.indexSteps n.responses → Records n p.pointer (.schema p.schema)
  | schema {found} : found ∈ n.schemas.entries → Records n found.origin (.schema found.schema)

namespace Document

variable {d : Document} {n : NamedDocument} {pointer name : String} {way : List String} {node : Node}

theorem arrives_of_visit (hd : d.Distinct) (h : d.named = .ok n) {p : SchemaPosition}
    (hp : .visit p ∈ d.indexSteps n.responses) :
    ∃ way, p.pointer = ofSegments way ∧ (Node.document d).Arrives way (.schema p.schema) := by
  obtain ⟨-, responses, -⟩ := of_named h
  obtain ⟨way, pointer, visits⟩ := visits_of_step responses hp
  exact ⟨way, pointer, visits.arrives hd⟩

theorem arrives_of_records (hd : d.Distinct) (h : d.named = .ok n) (recorded : n.Records pointer node) :
    ∃ way, pointer = ofSegments way ∧ (Node.document d).Arrives way node := by
  obtain ⟨same, responses, index⟩ := of_named h
  cases recorded with
  | operation ho => exact ⟨_, OperationSite.pointer_eq _, .operation hd (same ▸ ho)⟩
  | parameter effective =>
    rw [same] at effective
    obtain ⟨-, place, listed, pointer⟩ := effective.listed
    exact ⟨_, pointer, .parameter hd effective.1 listed⟩
  | response found =>
    obtain ⟨place, has, pointer⟩ := hasResponse_of_index responses _ found
    exact ⟨_, pointer, .response hd has⟩
  | position visit => exact arrives_of_visit hd h (same ▸ visit)
  | schema found =>
    obtain ⟨p, visit, -, rfl⟩ := index.visit_of_entry _ found
    exact arrives_of_visit hd h visit

theorem resolve_ofSegments (keys : ∀ key ∈ way, ReadBack key) (h : (Node.document d).walk way = .ok node) :
    d.resolve (ofSegments way) = .ok node := by
  rw [resolve, segments_ofSegments_iff.mpr keys]
  exact congrArg (Except.mapError _) h

-- Keys are read back from the pointer that is made of them exactly if each of them is, and then a recorded pointer leads to
-- what it was recorded for.
theorem recorded_resolves (hd : d.Distinct) (h : d.named = .ok n) :
    (∀ keys, segments (ofSegments keys) = .ok keys ↔ ∀ key ∈ keys, ReadBack key) ∧
    (∀ pointer name, (pointer, name) ∈ n.schemas.positions → ∃ s, n.Records pointer (.schema s)) ∧
    ∀ pointer node, n.Records pointer node → ∃ way, pointer = ofSegments way ∧
      ((∀ key ∈ way, ReadBack key) → ¬ (Node.document d).Overruns way → d.resolve pointer = .ok node) := by
  refine ⟨fun keys => segments_ofSegments_iff, fun pointer name position => ?_, fun pointer node recorded => ?_⟩
  case refine_1 =>
    obtain ⟨same, -, index⟩ := of_named h
    obtain ⟨p, visit, rfl, -⟩ := index.positions.mp position
    exact ⟨p.schema, .position (same.symm ▸ visit)⟩
  case refine_2 =>
    obtain ⟨way, rfl, arrives⟩ := arrives_of_records hd h recorded
    exact ⟨way, rfl, fun keys inside => resolve_ofSegments keys (arrives.resolve_right inside)⟩

theorem petStore_recorded : ∃ n, PetStore.document.named = .ok n ∧ ∃ found ∈ n.schemas.entries,
    found.origin = "#/paths/~1pets/parameters/0/schema" ∧
      PetStore.document.resolve found.origin = .ok (.schema found.schema) := by
  have origins : PetStore.document.named.toOption.map (·.schemas.entries.map (·.origin)) =
      some ["#/components/schemas/Pet", "#/components/schemas/Pet/properties/tag",
        "#/paths/~1pets/get/responses/200/content/application~1json/schema", "#/paths/~1pets/parameters/0/schema",
        "#/paths/~1pets/post/requestBody/content/application~1json/schema",
        "#/paths/~1pets/post/requestBody/content/application~1json/schema/allOf/1/properties/note"] := by decide +kernel
  obtain ⟨n, hn, origins⟩ := exists_ok origins
  have among : "#/paths/~1pets/parameters/0/schema" ∈ n.schemas.entries.map (·.origin) := by simp [origins]
  obtain ⟨found, entry, origin⟩ := List.mem_map.mp among
  obtain ⟨way, pointer, resolves⟩ := (recorded_resolves PetStore.distinct hn).2.2 _ _ (.schema entry)
  have written : ofSegments ["paths", "/pets", "parameters", "0", "schema"] = found.origin :=
    origin.symm ▸ by decide +kernel
  obtain rfl := ofSegments_injective (written.trans pointer)
  have walked : ((Node.document PetStore.document).walk ["paths", "/pets", "parameters", "0", "schema"]).toOption.map
      (fun _ => ()) = some () := by decide +kernel
  obtain ⟨_, walked, -⟩ := exists_ok walked
  refine ⟨n, hn, found, entry, origin, resolves ?_ ?_⟩
  case refine_1 =>
    have plain : ∀ key ∈ ["paths", "/pets", "parameters", "0", "schema"], '%' ∉ key.toList := by decide +kernel
    exact fun key on_way => readBack_of_not_mem (plain key on_way)
  case refine_2 => exact fun overruns => overruns.walk_ne_ok walked

end Document

namespace Rates

-- The names of the rates are a percent escape for a letter, and the letter.
def document : Document where
  openapi := "3.1.0"
  info := { title := "Rates", version := "1" }
  paths := []
  components := some { schemas := [("Rate", .inline { properties := [
    ("%41", .inline { typeKeyword := some (.single .object) }), ("A", .inline { typeKeyword := some (.single .string) })] })] }

end Rates

namespace Document

-- What was recorded for the one leads to the other.
theorem not_recorded_resolves : segments (ofSegments ["%41"]) ≠ .ok ["%41"] ∧ ∃ n, Rates.document.named = .ok n ∧
    n.Records "#/components/schemas/Rate/properties/%41" (.schema { typeKeyword := some (.single .object) }) ∧
      Rates.document.resolve "#/components/schemas/Rate/properties/%41" =
        .ok (.schema { typeKeyword := some (.single .string) }) := by
  refine ⟨?_, ?_⟩
  case refine_1 =>
    have read : segments (ofSegments ["%41"]) = .ok ["A"] := by decide +kernel
    rw [read]
    simp
  case refine_2 =>
    have named : Rates.document.named.toOption.map (fun _ => ()) = some () := by decide +kernel
    obtain ⟨n, hn, -⟩ := exists_ok named
    obtain ⟨same, responses, -⟩ := of_named hn
    have key : Naming.ofComponentKey "Rate" = .ok "Rate" := by decide +kernel
    have visits : Rates.document.Visits n.responses ["components", "schemas", "Rate", "properties", "%41"] _ _ :=
      .below (.schema (List.mem_singleton_self _) key) (.part (.property List.mem_cons_self))
    obtain ⟨_, visit⟩ := visits.step responses
    have pointer : ofSegments ["components", "schemas", "Rate", "properties", "%41"] =
        "#/components/schemas/Rate/properties/%41" := by decide +kernel
    have read : segments "#/components/schemas/Rate/properties/%41" =
        .ok ["components", "schemas", "Rate", "properties", "A"] := by decide +kernel
    refine ⟨n, hn, pointer ▸ .position (same ▸ visit), ?_⟩
    rw [resolve, read]
    rfl

end Document

end OpenApiClient
