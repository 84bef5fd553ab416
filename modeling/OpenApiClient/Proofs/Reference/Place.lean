import OpenApiClient.Proofs.Index.Visit
import OpenApiClient.Proofs.Reference.Way

/-!
What the walk visits stands where it says: a reference to the place leads to the schema that was visited
there.
-/

namespace OpenApiClient

open Pointer

namespace Document

variable {d : Document} {o : OperationSite}

theorem mem_operations : o ∈ d.operations ↔
    (o.path, o.item) ∈ d.paths ∧ o.item.operation o.method = some o.operation := by
  simp only [operations, List.mem_flatMap, List.mem_map, Prod.exists, PathItem.mem_operations]
  constructor
  · rintro ⟨_, _, hp, _, _, ho, rfl⟩
    exact ⟨hp, ho⟩
  · exact fun ⟨hp, ho⟩ => ⟨_, _, hp, _, _, ho, rfl⟩

namespace Distinct

variable (hd : d.Distinct)
include hd

theorem item (ho : o ∈ d.operations) : o.item.Distinct :=
  hd.paths.values (mem_operations.mp ho).1

theorem operation (ho : o ∈ d.operations) : o.operation.Distinct :=
  (hd.item ho).operations _ (PathItem.mem_operations.mpr (mem_operations.mp ho).2)

theorem parameter {p : RefOr Parameter} {place : ParameterPlace} (ho : o ∈ d.operations)
    (hl : o.Lists place p) : p.Only Parameter.Distinct := by
  cases hl with
  | own h => exact (hd.operation ho).parameters _ (List.mem_of_getElem? h)
  | shared h => exact (hd.item ho).parameters _ (List.mem_of_getElem? h)

theorem response {place : ResponsePlace} {name : Except NamingError String} {r : Response}
    (h : d.HasResponse place name r) : r.Distinct := by
  cases h with
  | component hc hk => exact (hd.components _ hc).responses.values hk _ rfl
  | operation ho hk => exact (hd.operation ho).responses.values hk _ rfl

end Distinct

theorem walk_of_operation (hd : d.Distinct) (ho : o ∈ d.operations) :
    (Node.document d).walk ["paths", o.path, o.method.key] = .ok (.operation o.operation) := by
  have hg := Entries.get?_of_mem hd.paths.distinct (mem_operations.mp ho).1
  simp [hg, (mem_operations.mp ho).2]

-- No position in a list is on the way to a response, so that it leads there.
theorem walk_of_hasResponse (hd : d.Distinct) {place : ResponsePlace} {name : Except NamingError String}
    {r : Response} (h : d.HasResponse place name r) :
    (Node.document d).walk place.way = .ok (.response r) := by
  cases h with
  | component hc hk =>
    have hg := Entries.get?_of_mem (hd.components _ hc).responses.distinct hk
    simp [ResponsePlace.way, hc, hg]
  | operation ho hk =>
    have hg := Entries.get?_of_mem (hd.operation ho).responses.distinct hk
    refine (Node.walk_append_of (b := ["responses", _]) (walk_of_operation hd ho)).trans ?_
    simp [hg]

theorem mem_componentSchemas {key : String} {place : SchemaRef} :
    (key, place) ∈ d.componentSchemas ↔ ∃ c, d.components = some c ∧ (key, place) ∈ c.schemas := by
  cases hc : d.components <;> simp [componentSchemas, hc]

theorem jsonSchema?_eq_some {content : List (String × MediaType)} {media : String} {s : Schema} :
    jsonSchema? content = some (media, s) ↔
      ∃ m, jsonContent? content = some (media, m) ∧ m.schema = some (.inline s) := by
  unfold jsonSchema?
  match jsonContent? content with
  | none => simp
  | some (_, { schema := none, .. }) => simp
  | some (_, { schema := some (.ref _), .. }) => simp
  | some (_, { schema := some (.inline _), .. }) => simp

theorem distinct_of_jsonSchema? {content : List (String × MediaType)} {media : String} {s : Schema}
    (hc : Entries.Of MediaType.Distinct content) (h : jsonSchema? content = some (media, s)) :
    s.Distinct := by
  have ⟨_, hm, hs⟩ := jsonSchema?_eq_some.mp h
  exact (hc.values (List.mem_of_find?_eq_some hm)).schema _ hs _ rfl

end Document

namespace Node.Arrives

open Node

variable {d : Document} {o : OperationSite} {n : Node}

theorem json {content : List (String × MediaType)} {media : String} {s : Schema}
    (hn : n.step? "content" = some (.content content)) (hc : Entries.Of MediaType.Distinct content)
    (h : Document.jsonSchema? content = some (media, s)) :
    n.Arrives ["content", media, "schema"] (.schema s) := by
  have ⟨m, hm, hs⟩ := Document.jsonSchema?_eq_some.mp h
  have hg := Entries.get?_of_mem hc.distinct (List.mem_of_find?_eq_some hm)
  exact cons hn <| cons (by simp [hg]; rfl) <| single <| by simp [hs]

theorem components {c : Components} (hc : d.components = some c) :
    (Node.document d).Arrives ["components"] (.components c) :=
  single <| by simp [hc]

variable (hd : d.Distinct)
include hd

theorem pathItem (ho : o ∈ d.operations) :
    (Node.document d).Arrives ["paths", o.path] (.pathItem o.item) := by
  have hg := Entries.get?_of_mem hd.paths.distinct (Document.mem_operations.mp ho).1
  exact cons step?_document_paths <| single <| by simp [hg]

theorem operation (ho : o ∈ d.operations) :
    (Node.document d).Arrives ["paths", o.path, o.method.key] (.operation o.operation) :=
  .of_walk <| d.walk_of_operation hd ho

theorem response {place : ResponsePlace} {name : Except NamingError String} {r : Response}
    (h : d.HasResponse place name r) : (Node.document d).Arrives place.way (.response r) :=
  .of_walk <| d.walk_of_hasResponse hd h

theorem parameter {place : ParameterPlace} {p : RefOr Parameter} (ho : o ∈ d.operations)
    (hl : o.Lists place p) : (Node.document d).Arrives place.way (ofRefOr .parameter p) := by
  cases hl with
  | own h =>
    exact (operation hd ho).append <| cons step?_operation_parameters <|
      item rfl (ofRefOr .parameter) (fun _ => step?_parameterList) h
  | shared h =>
    exact (pathItem hd ho).append <| cons step?_pathItem_parameters <|
      item rfl (ofRefOr .parameter) (fun _ => step?_parameterList) h

theorem root {responses : ResponseIndex} {root : Root} {name : String} {s : Schema}
    (h : d.Begins responses root name s) : (Node.document d).Arrives root.way (.schema s) := by
  cases h with
  | schema hk =>
    have ⟨_, hc, hk⟩ := Document.mem_componentSchemas.mp hk
    have hg := Entries.get?_of_mem (hd.components _ hc).schemas.distinct hk
    exact (components hc).append <| cons step?_components_schemas <| single <| by simp [hg]
  | response _ hb _ hs =>
    exact (response hd hb).append <| json step?_response (hd.response hb).content hs
  | requestBody hc hk _ hs =>
    have hb := (hd.components _ hc).requestBodies
    have hg := Entries.get?_of_mem hb.distinct hk
    exact (components hc).append <| cons step?_components_requestBodies <|
      cons (by simp [hg]) <| json step?_requestBody (hb.values hk _ rfl) hs
  | parameter hc hk _ hs =>
    have hg := Entries.get?_of_mem (hd.components _ hc).parameters.distinct hk
    exact (components hc).append <| cons step?_components_parameters <|
      cons (by simp [hg]; rfl) <| single <| by simp [hs]
  | payload ho hb hs =>
    exact (operation hd ho).append <| cons (by simp [hb]) <|
      json step?_requestBody ((hd.operation ho).requestBody _ hb _ rfl) hs
  | argument hp hl _ hq hs =>
    rw [hq] at hl
    exact (parameter hd hp.1 hl).append <| single <| by simp [ofRefOr, hs]

end Node.Arrives

namespace Node.Reaches

variable {d : Document} (hd : d.Distinct)
include hd

theorem response {place : ResponsePlace} {name : Except NamingError String} {r : Response}
    (h : d.HasResponse place name r) : (Node.document d).Reaches place.way (.response r) :=
  (Arrives.response hd h).reaches

theorem parameter {o : OperationSite} {place : ParameterPlace} {p : Parameter} (ho : o ∈ d.operations)
    (hl : o.Lists place (.inline p)) : (Node.document d).Reaches place.way (.parameter p) :=
  (Arrives.parameter hd ho hl).reaches

theorem root {responses : ResponseIndex} {root : Root} {name : String} {s : Schema}
    (h : d.Begins responses root name s) : (Node.document d).Reaches root.way (.schema s) :=
  (Arrives.root hd h).reaches

end Node.Reaches

namespace Document

variable {d : Document} {responses : ResponseIndex} {way : List String} {name : String} {s : Schema}

theorem Begins.distinct {root : Root} (hd : d.Distinct) (h : d.Begins responses root name s) :
    s.Distinct := by
  cases h with
  | schema hk =>
    have ⟨_, hc, hk⟩ := mem_componentSchemas.mp hk
    exact (hd.components _ hc).schemas.values hk _ rfl
  | response _ hb _ hs => exact distinct_of_jsonSchema? (hd.response hb).content hs
  | requestBody hc hk _ hs =>
    exact distinct_of_jsonSchema? ((hd.components _ hc).requestBodies.values hk _ rfl) hs
  | parameter hc hk _ hs => exact (hd.components _ hc).parameters.values hk _ rfl _ hs _ rfl
  | payload ho hb hs =>
    exact distinct_of_jsonSchema? ((hd.operation ho).requestBody _ hb _ rfl) hs
  | argument hp hl _ hq hs => exact hd.parameter hp.1 hl _ hq _ hs _ rfl

namespace Visits

theorem distinct (hd : d.Distinct) (h : d.Visits responses way name s) : s.Distinct := by
  cases h with
  | root begins => exact begins.distinct hd
  | below begins below => exact below.distinct (begins.distinct hd)

theorem arrives (hd : d.Distinct) (h : d.Visits responses way name s) :
    (Node.document d).Arrives way (.schema s) := by
  cases h with
  | root begins => exact .root hd begins
  | below begins below =>
    exact (Node.Arrives.root hd begins).append <| below.arrives (begins.distinct hd)

theorem reaches (hd : d.Distinct) (h : d.Visits responses way name s) :
    (Node.document d).Reaches way (.schema s) :=
  (h.arrives hd).reaches

end Visits

end Document

end OpenApiClient
