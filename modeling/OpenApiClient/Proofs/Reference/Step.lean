import OpenApiClient.Proofs.Entries
import OpenApiClient.Reference.Node

/-!
The steps of a pointer: where each segment leads, and, the other way round, all that a step can be.
-/

namespace OpenApiClient.Node

section

variable {d : Document} {c : Components} {item : PathItem} {op : Operation} {s : Schema}
  {p : Parameter} {b : RequestBody} {r : Response} {m : MediaType} {segment : String}

@[simp] theorem ofRefOr_inline {α : Type} {node : α → Node} {a : α} :
    ofRefOr node (.inline a) = node a :=
  rfl

@[simp] theorem step?_document_components :
    step? "components" (.document d) = d.components.map .components :=
  rfl

@[simp] theorem step?_document_paths : step? "paths" (.document d) = some (.paths d.paths) :=
  rfl

@[simp] theorem step?_components_schemas :
    step? "schemas" (.components c) = some (.schemaMap c.schemas) :=
  rfl

@[simp] theorem step?_components_responses :
    step? "responses" (.components c) = some (.responseMap c.responses) :=
  rfl

@[simp] theorem step?_components_parameters :
    step? "parameters" (.components c) = some (.parameterMap c.parameters) :=
  rfl

@[simp] theorem step?_components_requestBodies :
    step? "requestBodies" (.components c) = some (.requestBodyMap c.requestBodies) :=
  rfl

@[simp] theorem step?_paths {entries : List (String × PathItem)} :
    step? segment (.paths entries) = (Entries.get? segment entries).map .pathItem :=
  rfl

@[simp] theorem step?_pathItem_parameters :
    step? "parameters" (.pathItem item) = some (.parameterList item.parameters) :=
  rfl

@[simp] theorem step?_pathItem_method {m : HttpMethod} :
    step? m.key (.pathItem item) = (item.operation m).map .operation := by
  have key : m.key ≠ "parameters" := by cases m <;> decide
  exact (if_neg key).trans <| by rw [HttpMethod.ofKey?_key]; rfl

@[simp] theorem step?_operation_responses :
    step? "responses" (.operation op) = some (.responseMap op.responses) :=
  rfl

@[simp] theorem step?_operation_parameters :
    step? "parameters" (.operation op) = some (.parameterList op.parameters) :=
  rfl

@[simp] theorem step?_operation_requestBody :
    step? "requestBody" (.operation op) = op.requestBody.map (ofRefOr .requestBody) :=
  rfl

@[simp] theorem step?_schema_properties :
    step? "properties" (.schema s) = some (.schemaMap s.properties) :=
  rfl

@[simp] theorem step?_schema_items : step? "items" (.schema s) = s.items.map (ofRefOr .schema) :=
  rfl

@[simp] theorem step?_schema_additional :
    step? "additionalProperties" (.schema s) = s.additionalSchema.map (ofRefOr .schema) :=
  rfl

@[simp] theorem step?_schema_allOf : step? "allOf" (.schema s) = some (.schemaList s.allOf) :=
  rfl

@[simp] theorem step?_schema_oneOf : step? "oneOf" (.schema s) = some (.schemaList s.oneOf) :=
  rfl

@[simp] theorem step?_schema_anyOf : step? "anyOf" (.schema s) = some (.schemaList s.anyOf) :=
  rfl

@[simp] theorem step?_schemaMap {entries : List (String × SchemaRef)} :
    step? segment (.schemaMap entries) = (Entries.get? segment entries).map (ofRefOr .schema) :=
  rfl

@[simp] theorem step?_schemaList {items : List SchemaRef} :
    step? segment (.schemaList items) = (item? items segment).map (ofRefOr .schema) :=
  rfl

@[simp] theorem step?_response : step? "content" (.response r) = some (.content r.content) :=
  rfl

@[simp] theorem step?_responseMap {entries : List (String × RefOr Response)} :
    step? segment (.responseMap entries) = (Entries.get? segment entries).map (ofRefOr .response) :=
  rfl

@[simp] theorem step?_content {entries : List (String × MediaType)} :
    step? segment (.content entries) = (Entries.get? segment entries).map .mediaType :=
  rfl

@[simp] theorem step?_mediaType : step? "schema" (.mediaType m) = m.schema.map (ofRefOr .schema) :=
  rfl

@[simp] theorem step?_parameter : step? "schema" (.parameter p) = p.schema.map (ofRefOr .schema) :=
  rfl

@[simp] theorem step?_parameterMap {entries : List (String × RefOr Parameter)} :
    step? segment (.parameterMap entries) = (Entries.get? segment entries).map (ofRefOr .parameter) :=
  rfl

@[simp] theorem step?_parameterList {items : List (RefOr Parameter)} :
    step? segment (.parameterList items) = (item? items segment).map (ofRefOr .parameter) :=
  rfl

@[simp] theorem step?_requestBody : step? "content" (.requestBody b) = some (.content b.content) :=
  rfl

@[simp] theorem step?_requestBodyMap {entries : List (String × RefOr RequestBody)} :
    step? segment (.requestBodyMap entries) =
      (Entries.get? segment entries).map (ofRefOr .requestBody) :=
  rfl

@[simp] theorem step?_reference {target : String} : step? segment (.reference target) = none :=
  rfl

end

-- All the steps that a pointer can take.
inductive Step : Node → String → Node → Prop
  | components {d c} : d.components = some c → Step (.document d) "components" (.components c)
  | paths {d} : Step (.document d) "paths" (.paths d.paths)
  | componentSchemas {c} : Step (.components c) "schemas" (.schemaMap c.schemas)
  | componentResponses {c} : Step (.components c) "responses" (.responseMap c.responses)
  | componentParameters {c} : Step (.components c) "parameters" (.parameterMap c.parameters)
  | componentBodies {c} : Step (.components c) "requestBodies" (.requestBodyMap c.requestBodies)
  | pathItem {entries key item} : (key, item) ∈ entries → Step (.paths entries) key (.pathItem item)
  | sharedParameters {item} : Step (.pathItem item) "parameters" (.parameterList item.parameters)
  | operation {item m op} : item.operation m = some op → Step (.pathItem item) m.key (.operation op)
  | operationResponses {op} : Step (.operation op) "responses" (.responseMap op.responses)
  | ownParameters {op} : Step (.operation op) "parameters" (.parameterList op.parameters)
  | payload {op b} : op.requestBody = some (.inline b) →
    Step (.operation op) "requestBody" (.requestBody b)
  | properties {s} : Step (.schema s) "properties" (.schemaMap s.properties)
  | items {s c} : s.items = some (.inline c) → Step (.schema s) "items" (.schema c)
  | additional {s c} : s.additionalSchema = some (.inline c) →
    Step (.schema s) "additionalProperties" (.schema c)
  | allOf {s} : Step (.schema s) "allOf" (.schemaList s.allOf)
  | oneOf {s} : Step (.schema s) "oneOf" (.schemaList s.oneOf)
  | anyOf {s} : Step (.schema s) "anyOf" (.schemaList s.anyOf)
  | schemaEntry {entries key c} : (key, .inline c) ∈ entries →
    Step (.schemaMap entries) key (.schema c)
  | schemaItem {items segment i c} : position? segment = some i → items[i]? = some (.inline c) →
    Step (.schemaList items) segment (.schema c)
  | responseContent {r} : Step (.response r) "content" (.content r.content)
  | responseEntry {entries key r} : (key, .inline r) ∈ entries →
    Step (.responseMap entries) key (.response r)
  | mediaType {entries key m} : (key, m) ∈ entries → Step (.content entries) key (.mediaType m)
  | mediaSchema {m s} : m.schema = some (.inline s) → Step (.mediaType m) "schema" (.schema s)
  | parameterSchema {p s} : p.schema = some (.inline s) → Step (.parameter p) "schema" (.schema s)
  | parameterEntry {entries key p} : (key, .inline p) ∈ entries →
    Step (.parameterMap entries) key (.parameter p)
  | parameterItem {items segment i p} : position? segment = some i → items[i]? = some (.inline p) →
    Step (.parameterList items) segment (.parameter p)
  | bodyContent {b} : Step (.requestBody b) "content" (.content b.content)
  | bodyEntry {entries key b} : (key, .inline b) ∈ entries →
    Step (.requestBodyMap entries) key (.requestBody b)
  | reference {node segment target} : Step node segment (.reference target)

variable {node next : Node} {segment : String}

theorem item?_eq_some {α : Type} {items : List α} {a : α} (h : item? items segment = some a) :
    ∃ i, position? segment = some i ∧ items[i]? = some a := by
  simpa [item?, Option.bind_eq_some_iff] using h

theorem operation_of_ofKey? {item : PathItem} {op : Operation}
    (h : (HttpMethod.ofKey? segment).bind item.operation = some op) :
    ∃ m, m.key = segment ∧ item.operation m = some op := by
  have ⟨m, hm, ho⟩ := Option.bind_eq_some_iff.mp h
  exact ⟨m, by simpa using List.find?_some hm, ho⟩

theorem Step.of_step? (h : node.step? segment = some next) : node.Step segment next := by
  cases node <;> simp only [step?, reduceCtorEq] at h
  all_goals repeat' split at h
  all_goals first | cases h | obtain ⟨place, ha, rfl⟩ := Option.map_eq_some_iff.mp h
  all_goals subst_vars
  case pathItem.isFalse =>
    obtain ⟨_, rfl, ho⟩ := operation_of_ofKey? ha
    exact .operation ho
  case schemaList =>
    have ⟨_, hi, ha⟩ := item?_eq_some ha
    cases place
    case ref => exact .reference
    case inline => exact .schemaItem hi ha
  case parameterList =>
    have ⟨_, hi, ha⟩ := item?_eq_some ha
    cases place
    case ref => exact .reference
    case inline => exact .parameterItem hi ha
  case document.isTrue => exact .components ha
  case paths => exact .pathItem (Entries.mem_of_get? ha)
  case content => exact .mediaType (Entries.mem_of_get? ha)
  all_goals first | (cases place; exact .reference) | skip
  all_goals constructor
  all_goals first | assumption | exact Entries.mem_of_get? ha

end OpenApiClient.Node
