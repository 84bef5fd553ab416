import OpenApiClient.Operation.Site

/-!
The tags of a document, and the operations under each of them.
-/

namespace OpenApiClient

namespace Document

-- The declared tags, then those that only operations mention, each where it occurs first.
def tagNames (d : Document) : List String :=
  (d.tags.map (·.name) ++ d.operations.flatMap (·.operation.tags)).eraseDups

-- The positions of the operations that carry a tag.
def operationsTagged (d : Document) (tag : String) : List Nat :=
  (d.operations.zipIdx.filter fun (o, _) => o.operation.tags.contains tag).map (·.2)

-- For each tag the positions of its operations.
def operationsByTag (d : Document) : List (String × List Nat) :=
  d.tagNames.map fun tag => (tag, d.operationsTagged tag)

end Document

end OpenApiClient
