import OpenApiClient.Client.Value

/-!
The classes for responses. Only JSON content becomes a body.
-/

namespace OpenApiClient

structure ResponseBody where
  contentType : String
  value : ValueType
  deriving Repr

structure ResponseClass where
  name : String
  -- The status of an operation's response.
  status : Option String
  description : String
  body : Option ResponseBody
  deriving Repr

namespace NamedDocument

def responseClass (n : NamedDocument) (found : NamedResponse) : Except BuildError ResponseClass := do
  let body ← match found.response.json? with
    | some (contentType, media) =>
      let value ← n.valueAt (Naming.responseBodyName found.name) media.schema
      pure (some { contentType, value : ResponseBody })
    | none => pure none
  return {
    name := found.name
    status := found.status
    description := found.response.description
    body }

def responseClasses (n : NamedDocument) : Except BuildError (List ResponseClass) :=
  n.responses.entries.mapM n.responseClass

end NamedDocument

end OpenApiClient
