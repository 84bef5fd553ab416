import OpenApiClient.Index.Schema
import OpenApiClient.Proofs.Index.Walk
import OpenApiClient.Proofs.Outcome

/-!
The places in a document where the walk over its schemas begins. From there it goes to whatever is
below, and this is all it ever visits.
-/

namespace OpenApiClient

open Pointer

-- The places of responses, and of the parameters that an operation or its path lists.
inductive ResponsePlace where
  | component (key : String)
  | operation (path : String) (method : HttpMethod) (status : String)

inductive ParameterPlace where
  | own (path : String) (method : HttpMethod) (i : Nat)
  | shared (path : String) (i : Nat)

-- The places of schemas that the walk begins with.
inductive Root where
  | schema (key : String)
  | response (place : ResponsePlace) (media : String)
  | requestBody (key media : String)
  | parameter (key : String)
  | payload (path : String) (method : HttpMethod) (media : String)
  | argument (place : ParameterPlace)

def ResponsePlace.way : ResponsePlace → List String
  | component key => ["components", "responses", key]
  | operation path method status => ["paths", path, method.key, "responses", status]

def ParameterPlace.way : ParameterPlace → List String
  | own path method i => ["paths", path, method.key, "parameters", toString i]
  | shared path i => ["paths", path, "parameters", toString i]

def Root.way : Root → List String
  | schema key => ["components", "schemas", key]
  | response place media => place.way ++ ["content", media, "schema"]
  | requestBody key media => ["components", "requestBodies", key, "content", media, "schema"]
  | parameter key => ["components", "parameters", key, "schema"]
  | payload path method media =>
    ["paths", path, method.key, "requestBody", "content", media, "schema"]
  | argument place => place.way ++ ["schema"]

inductive OperationSite.Lists (o : OperationSite) : ParameterPlace → RefOr Parameter → Prop
  | own {i place} : o.operation.parameters[i]? = some place → Lists o (.own o.path o.method i) place
  | shared {i place} : o.item.parameters[i]? = some place → Lists o (.shared o.path i) place

@[simp] theorem OperationSite.lists_own {o : OperationSite} {path : String} {method : HttpMethod}
    {i : Nat} {place : RefOr Parameter} : o.Lists (.own path method i) place ↔
      o.path = path ∧ o.method = method ∧ o.operation.parameters[i]? = some place where
  mp | .own h => ⟨rfl, rfl, h⟩
  mpr := by
    rintro ⟨rfl, rfl, h⟩
    exact .own h

@[simp] theorem OperationSite.lists_shared {o : OperationSite} {path : String} {i : Nat}
    {place : RefOr Parameter} : o.Lists (.shared path i) place ↔
      o.path = path ∧ o.item.parameters[i]? = some place where
  mp | .shared h => ⟨rfl, h⟩
  mpr := by
    rintro ⟨rfl, h⟩
    exact .shared h

namespace Document

-- A parameter has effect in an operation.
def Effective (d : Document) (o : OperationSite) (p : OperationParameter) : Prop :=
  o ∈ d.operations ∧ ∃ parameters, d.operationParameters o = .ok parameters ∧ p ∈ parameters

inductive HasResponse (d : Document) :
    ResponsePlace → Except NamingError String → Response → Prop
  | component {c key r} : d.components = some c → (key, .inline r) ∈ c.responses →
    HasResponse d (.component key) (Naming.ofComponentKey key) r
  | operation {o status r} : o ∈ d.operations → (status, .inline r) ∈ o.operation.responses →
    HasResponse d (.operation o.path o.method status) (.ok (Naming.responseName o.stem status)) r

-- The schema that is written right in the JSON content, and its media type.
def jsonSchema? (content : List (String × MediaType)) : Option (String × Schema) :=
  match jsonContent? content with
  | some (media, { schema := some (.inline s), .. }) => some (media, s)
  | _ => none

-- The walk begins with a schema in this place, and calls it so.
inductive Begins (d : Document) (responses : ResponseIndex) : Root → String → Schema → Prop
  | schema {key name s} : (key, .inline s) ∈ d.componentSchemas →
    Naming.ofComponentKey key = .ok name → Begins d responses (.schema key) name s
  | response {found place media s} : found ∈ responses.entries →
    d.HasResponse place (.ok found.name) found.response → found.origin = ofSegments place.way →
    jsonSchema? found.response.content = some (media, s) →
    Begins d responses (.response place media) (Naming.responseBodyName found.name) s
  | requestBody {c key body name media s} : d.components = some c →
    (key, .inline body) ∈ c.requestBodies → Naming.ofComponentKey key = .ok name →
    jsonSchema? body.content = some (media, s) →
    Begins d responses (.requestBody key media) (Naming.requestBodyName name) s
  | parameter {c key p name s} : d.components = some c → (key, .inline p) ∈ c.parameters →
    Naming.ofComponentKey key = .ok name → p.schema = some (.inline s) →
    Begins d responses (.parameter key) (name ++ "Parameter") s
  | payload {o body media s} : o ∈ d.operations → o.operation.requestBody = some (.inline body) →
    jsonSchema? body.content = some (media, s) →
    Begins d responses (.payload o.path o.method media) (Naming.requestBodyName o.stem) s
  | argument {o place p q s} : d.Effective o p → o.Lists place p.source →
    p.pointer = ofSegments place.way → p.source = .inline q → q.schema = some (.inline s) →
    Begins d responses (.argument place) (Naming.parameterName o.stem p.localName) s

-- The walk visits a schema that it calls so, and that stands where this way leads.
inductive Visits (d : Document) (responses : ResponseIndex) : List String → String → Schema → Prop
  | root {root name s} : d.Begins responses root name s → Visits d responses root.way name s
  | below {root name s rest name' s'} : d.Begins responses root name s →
    s.Below name rest name' s' → Visits d responses (root.way ++ rest) name' s'

end Document

@[simp] theorem HttpMethod.escapeSegment_key (m : HttpMethod) : escapeSegment m.key = m.key := by
  cases m <;> exact escapeSegment_eq_self (by decide)

namespace OperationSite

theorem pathPointer_eq (path : String) : pathPointer path = ofSegments ["paths", path] := by
  simp (disch := decide) [← String.toList_inj, toList_ofSegments, pathPointer, escapeSegment_eq_self]

theorem pointer_eq (o : OperationSite) :
    o.pointer = ofSegments ["paths", o.path, o.method.key] := by
  simp (disch := decide) [← String.toList_inj, toList_ofSegments, pointer, pathPointer,
    escapeSegment_eq_self]

theorem payload_pointer (o : OperationSite) :
    o.pointer ++ "/requestBody" = ofSegments ["paths", o.path, o.method.key, "requestBody"] := by
  rw [pointer_eq]
  simp (disch := decide) [← String.toList_inj, toList_ofSegments, escapeSegment_eq_self]

end OperationSite

namespace Document

variable {d : Document} {p : SchemaPosition} {responses : ResponseIndex}

theorem content_pointer (base : List String) (media : String) :
    ofSegments base ++ "/content/" ++ escapeSegment media ++ "/schema" =
      ofSegments (base ++ ["content", media, "schema"]) := by
  simp (disch := decide) [← String.toList_inj, toList_ofSegments, escapeSegment_eq_self]

theorem componentSchema_pointer (key : String) : "#/components/schemas/" ++ escapeSegment key =
    ofSegments ["components", "schemas", key] := by
  simp (disch := decide) [← String.toList_inj, toList_ofSegments, escapeSegment_eq_self]

theorem componentRequestBody_pointer (key : String) : "#/components/requestBodies/" ++ escapeSegment key =
    ofSegments ["components", "requestBodies", key] := by
  simp (disch := decide) [← String.toList_inj, toList_ofSegments, escapeSegment_eq_self]

theorem componentParameter_pointer (key : String) : "#/components/parameters/" ++ escapeSegment key ++ "/schema" =
    ofSegments ["components", "parameters", key, "schema"] := by
  simp (disch := decide) [← String.toList_inj, toList_ofSegments, escapeSegment_eq_self]

theorem schema_pointer (base : List String) :
    ofSegments base ++ "/schema" = ofSegments (base ++ ["schema"]) := by
  simp (disch := decide) [← String.toList_inj, toList_ofSegments, escapeSegment_eq_self]

theorem visit_mem_contentSteps {name : String} {base : List String}
    {content : List (String × MediaType)} :
    .visit p ∈ contentSteps name (ofSegments base) content ↔
      ∃ media s, jsonSchema? content = some (media, s) ∧ .visit p ∈
        Schema.stepsAt [] name (ofSegments (base ++ ["content", media, "schema"])) (.inline s) := by
  unfold contentSteps jsonSchema?
  match jsonContent? content with
  | none => simp
  | some (media, { schema := none, .. }) => simp
  | some (media, { schema := some (.ref _), .. }) => simp [Schema.visit_mem_stepsAt]
  | some (media, { schema := some (.inline _), .. }) => simp [content_pointer, and_assoc]

theorem visit_mem_componentSchemaSteps : .visit p ∈ d.componentSchemaSteps ↔
    ∃ key name s, (key, .inline s) ∈ d.componentSchemas ∧ Naming.ofComponentKey key = .ok name ∧
      .visit p ∈ Schema.stepsAt [] name (ofSegments ["components", "schemas", key]) (.inline s) := by
  simp only [componentSchemaSteps, List.mem_flatMap, Prod.exists, componentSchema_pointer]
  constructor
  · rintro ⟨key, place, hk, hv⟩
    split at hv
    · simp at hv
    · exact ⟨_, _, _, hk, ‹_›, hv⟩
    · simp [failing] at hv
  · rintro ⟨key, name, s, hk, hn, hv⟩
    refine ⟨_, _, hk, ?_⟩
    simp [hn, hv]

theorem visit_mem_responseSteps : .visit p ∈ responseSteps responses ↔
    ∃ found ∈ responses.entries, ∃ media s, jsonSchema? found.response.content = some (media, s) ∧
      .visit p ∈ Schema.stepsAt [] (Naming.responseBodyName found.name)
        (found.origin ++ "/content/" ++ escapeSegment media ++ "/schema") (.inline s) := by
  simp only [responseSteps, List.mem_flatMap, Response.json?]
  refine exists_congr fun found => and_congr_right fun _ => ?_
  unfold jsonSchema?
  match jsonContent? found.response.content with
  | none => simp
  | some (media, { schema := none, .. }) => simp
  | some (media, { schema := some (.ref _), .. }) => simp
  | some (media, { schema := some (.inline _), .. }) => simp [and_assoc]

theorem visit_mem_componentRequestBodySteps {c : Components} :
    .visit p ∈ componentRequestBodySteps c ↔
      ∃ key body name media s, (key, .inline body) ∈ c.requestBodies ∧
        Naming.ofComponentKey key = .ok name ∧ jsonSchema? body.content = some (media, s) ∧
        .visit p ∈ Schema.stepsAt [] (Naming.requestBodyName name)
          (ofSegments ["components", "requestBodies", key, "content", media, "schema"])
          (.inline s) := by
  simp only [componentRequestBodySteps, List.mem_flatMap, Prod.exists, componentRequestBody_pointer]
  constructor
  · rintro ⟨key, place, hk, hv⟩
    split at hv
    · simp at hv
    · have ⟨media, s, hs, hv⟩ := visit_mem_contentSteps.mp hv
      exact ⟨_, _, _, _, _, hk, ‹_›, hs, hv⟩
    · simp [failing] at hv
  · rintro ⟨key, body, name, media, s, hk, hn, hs, hv⟩
    refine ⟨_, _, hk, ?_⟩
    simp only [hn]
    exact visit_mem_contentSteps.mpr ⟨_, _, hs, hv⟩

theorem visit_mem_componentParameterSteps {c : Components} :
    .visit p ∈ componentParameterSteps c ↔
      ∃ key q name s, (key, .inline q) ∈ c.parameters ∧ Naming.ofComponentKey key = .ok name ∧
        q.schema = some (.inline s) ∧
        .visit p ∈ Schema.stepsAt [] (name ++ "Parameter")
          (ofSegments ["components", "parameters", key, "schema"]) (.inline s) := by
  simp only [componentParameterSteps, List.mem_flatMap, Prod.exists, componentParameter_pointer]
  constructor
  · rintro ⟨key, place, hk, hv⟩
    split at hv
    · simp at hv
    · split at hv
      · simp at hv
      · have ⟨s, hs, _⟩ := Schema.visit_mem_stepsAt.mp hv
        exact ⟨_, _, _, _, hk, ‹_›, by rwa [← hs], hs ▸ hv⟩
      · simp [failing] at hv
  · rintro ⟨key, q, name, s, hk, hn, hs, hv⟩
    refine ⟨_, _, hk, ?_⟩
    simp [hs, hn, hv]

end Document

theorem OperationParameter.of_mem_nameApart {p : OperationParameter} {taken : List String}
    {parameters : List OperationParameter} (h : p ∈ nameApart taken parameters) :
    ∃ q ∈ parameters, ∃ name, p = { q with localName := name } := by
  induction parameters generalizing taken with
  | nil => contradiction
  | cons q rest ih =>
    cases List.mem_cons.mp h
    case inl h => exact ⟨q, List.mem_cons_self, _, h⟩
    case inr h =>
      have ⟨q', hq, hp⟩ := ih h
      exact ⟨q', List.mem_cons_of_mem _ hq, hp⟩

namespace Document

variable {d : Document} {o : OperationSite} {p : OperationParameter}

theorem of_mem_parametersAt {base : List String} {parameters : List (RefOr Parameter)}
    {all : List OperationParameter} (h : d.parametersAt (ofSegments base) parameters = .ok all) :
    ∀ p ∈ all, d.parameterOf p.source = .ok p.parameter ∧ ∃ i : Nat,
      parameters[i]? = some p.source ∧ p.pointer = ofSegments (base ++ ["parameters", toString i]) := by
  have pointer (i : Nat) : ofSegments base ++ "/parameters/" ++ toString i =
      ofSegments (base ++ ["parameters", toString i]) := by
    simp (disch := decide) [← String.toList_inj, toList_ofSegments, escapeSegment_eq_self]
  intro p hp
  have ⟨⟨source, i⟩, hi, h⟩ := mem_of_mapM h p hp
  simp only [bind_eq_ok, pure_eq_ok, pointer] at h
  obtain ⟨parameter, hs, rfl⟩ := h
  exact ⟨hs, i, List.mk_mem_zipIdx_iff_getElem?.mp hi, rfl⟩

theorem Effective.listed (h : d.Effective o p) : d.parameterOf p.source = .ok p.parameter ∧
    ∃ place, o.Lists place p.source ∧ p.pointer = ofSegments place.way := by
  obtain ⟨_, all, ha, hp⟩ := h
  simp only [operationParameters, OperationSite.pointer_eq, OperationSite.pathPointer_eq, bind_eq_ok,
    pure_eq_ok] at ha
  obtain ⟨own, ho, shared, hs, rfl⟩ := ha
  obtain ⟨q, hq, _, rfl⟩ := OperationParameter.of_mem_nameApart hp
  cases List.mem_append.mp hq
  case inl hq =>
    obtain ⟨hp, _, hi, hb⟩ := of_mem_parametersAt hs q (List.mem_filter.mp hq).1
    exact ⟨hp, _, .shared hi, hb⟩
  case inr hq =>
    obtain ⟨hp, _, hi, hb⟩ := of_mem_parametersAt ho q hq
    exact ⟨hp, _, .own hi, hb⟩

theorem visit_mem_parameterSteps {stem : String} {base : List String} {v : SchemaPosition}
    (hp : p.pointer = ofSegments base) : .visit v ∈ parameterSteps stem p ↔
      ∃ q s, p.source = .inline q ∧ q.schema = some (.inline s) ∧
        .visit v ∈ Schema.stepsAt [] (Naming.parameterName stem p.localName)
          (ofSegments (base ++ ["schema"])) (.inline s) := by
  unfold parameterSteps
  match p.source with
  | .ref _ => simp
  | .inline { schema := none, .. } => simp
  | .inline { schema := some (.ref _), .. } => simp [Schema.visit_mem_stepsAt]
  | .inline { schema := some (.inline _), .. } => simp [hp, schema_pointer]

theorem visit_mem_operationSteps {v : SchemaPosition} (ho : o ∈ d.operations) :
    .visit v ∈ d.operationSteps o ↔
      (∃ body media s, o.operation.requestBody = some (.inline body) ∧
        jsonSchema? body.content = some (media, s) ∧
        .visit v ∈ Schema.stepsAt [] (Naming.requestBodyName o.stem)
          (ofSegments ["paths", o.path, o.method.key, "requestBody", "content", media, "schema"])
          (.inline s)) ∨
      ∃ p, d.Effective o p ∧ .visit v ∈ parameterSteps o.stem p := by
  simp only [operationSteps, List.mem_append, OperationSite.payload_pointer, Effective, ho, true_and]
  refine or_congr ?_ ?_
  · match o.operation.requestBody with
    | none | some (.ref _) => simp
    | some (.inline body) => simp [visit_mem_contentSteps]
  · cases d.operationParameters o <;> simp

end Document

end OpenApiClient
