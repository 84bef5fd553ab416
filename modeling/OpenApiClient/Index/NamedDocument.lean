import OpenApiClient.Index.Schema

/-!
A document together with the names that were found for its responses and schemas.
-/

namespace OpenApiClient

structure NamedDocument where
  document : Document
  responses : ResponseIndex
  schemas : SchemaIndex

def Document.named (d : Document) : Except BuildError NamedDocument := do
  let responses ← d.responseIndex
  return { document := d, responses, schemas := ← d.schemaIndex responses }

end OpenApiClient
