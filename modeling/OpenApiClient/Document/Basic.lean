import OpenApiClient.Document.Method
import OpenApiClient.Document.Message
import OpenApiClient.Text.Replace

/-!
The document that describes an API: its servers, its paths with their operations, and the
components that the rest refers to.
-/

namespace OpenApiClient

structure License where
  name : String
  identifier : Option String := none
  url : Option String := none
  deriving DecidableEq, Repr

structure Info where
  title : String
  description : Option String := none
  version : String
  license : Option License := none
  deriving DecidableEq, Repr

structure Tag where
  name : String
  description : Option String := none
  deriving DecidableEq, Repr

structure ServerVariable where
  defaultValue : String
  description : Option String := none
  enumValues : List String := []
  deriving DecidableEq, Repr

structure Server where
  url : String
  description : Option String := none
  placeholders : List (String × ServerVariable) := []
  deriving DecidableEq, Repr

structure Operation where
  operationId : Option String := none
  summary : Option String := none
  description : Option String := none
  tags : List String := []
  parameters : List (RefOr Parameter) := []
  requestBody : Option (RefOr RequestBody) := none
  responses : List (String × RefOr Response) := []
  deprecated : Option Bool := none

structure PathItem where
  summary : Option String := none
  description : Option String := none
  parameters : List (RefOr Parameter) := []
  get : Option Operation := none
  put : Option Operation := none
  post : Option Operation := none
  delete : Option Operation := none
  options : Option Operation := none
  head : Option Operation := none
  patch : Option Operation := none
  trace : Option Operation := none

structure Components where
  schemas : List (String × SchemaRef) := []
  responses : List (String × RefOr Response) := []
  parameters : List (String × RefOr Parameter) := []
  requestBodies : List (String × RefOr RequestBody) := []

structure Document where
  openapi : String
  info : Info
  servers : List Server := []
  paths : List (String × PathItem) := []
  components : Option Components := none
  tags : List Tag := []

-- The URL with the default of each declared variable in place of its name in braces, one variable
-- after the other.
def Server.filledUrl (s : Server) : String :=
  String.ofList <| s.placeholders.foldl
    (fun url (name, v) =>
      Text.replaceAll ('\x7b' :: name.toList ++ ['\x7d']) v.defaultValue.toList url)
    s.url.toList

-- The id that the document gives to the operation; an empty one is none.
def Operation.id? (op : Operation) : Option String :=
  op.operationId.filter (· ≠ "")

namespace PathItem

def operation (item : PathItem) : HttpMethod → Option Operation
  | .get => item.get
  | .put => item.put
  | .post => item.post
  | .delete => item.delete
  | .options => item.options
  | .head => item.head
  | .patch => item.patch
  | .trace => item.trace

-- The declared operations in the order of `HttpMethod.all`.
def operations (item : PathItem) : List (HttpMethod × Operation) :=
  HttpMethod.all.filterMap fun m => (item.operation m).map (m, ·)

end PathItem

namespace Document

def tag? (d : Document) (name : String) : Option Tag := d.tags.find? (·.name = name)

def componentSchemas (d : Document) : List (String × SchemaRef) :=
  (d.components.map (·.schemas)).getD []

end Document

end OpenApiClient
