import OpenApiClient.Document.Basic

/-!
All references that a document holds. Whoever follows references cannot pass through more different
ones than these.
-/

namespace OpenApiClient

namespace Schema

mutual

def references : Schema → List String
  | { properties, additionalProperties, items, allOf, oneOf, anyOf, .. } =>
    entryReferences properties ++ additionalReferences additionalProperties ++
      optionReferences items ++ listReferences allOf ++ listReferences oneOf ++
      listReferences anyOf

def refReferences : RefOr Schema → List String
  | .ref target => [target]
  | .inline s => s.references

def entryReferences : List (String × RefOr Schema) → List String
  | [] => []
  | (_, s) :: rest => refReferences s ++ entryReferences rest

def listReferences : List (RefOr Schema) → List String
  | [] => []
  | s :: rest => refReferences s ++ listReferences rest

def additionalReferences : Option (AdditionalProperties (RefOr Schema)) → List String
  | some (.schema s) => refReferences s
  | some (.allowed _) => []
  | none => []

def optionReferences : Option (RefOr Schema) → List String
  | some s => refReferences s
  | none => []

end

end Schema

def RefOr.references {α : Type} (inner : α → List String) : RefOr α → List String
  | .ref target => [target]
  | .inline value => inner value

def contentReferences (content : List (String × MediaType)) : List String :=
  content.flatMap fun (_, m) => Schema.optionReferences m.schema

def Parameter.references (p : Parameter) : List String := Schema.optionReferences p.schema

def RequestBody.references (b : RequestBody) : List String := contentReferences b.content

def Response.references (r : Response) : List String := contentReferences r.content

def Operation.references (op : Operation) : List String :=
  op.parameters.flatMap (·.references Parameter.references) ++
    op.requestBody.toList.flatMap (·.references RequestBody.references) ++
    op.responses.flatMap (·.2.references Response.references)

def PathItem.references (item : PathItem) : List String :=
  item.parameters.flatMap (·.references Parameter.references) ++
    item.operations.flatMap (·.2.references)

def Components.references (c : Components) : List String :=
  Schema.entryReferences c.schemas ++
    c.responses.flatMap (·.2.references Response.references) ++
    c.parameters.flatMap (·.2.references Parameter.references) ++
    c.requestBodies.flatMap (·.2.references RequestBody.references)

def Document.references (d : Document) : List String :=
  d.paths.flatMap (·.2.references) ++ d.components.toList.flatMap (·.references)

end OpenApiClient
