import OpenApiClient.Document.Basic
import OpenApiClient.Json.Writer

/-!
Writing a document as JSON: the fields in the order of their declaration, what is absent or empty
left out.
-/

namespace OpenApiClient

open Json (Value)

-- A member that is written if there is a value.
def optionalMember {α : Type} (key : String) (write : α → Value) :
    Option α → List (String × Value)
  | some a => [(key, write a)]
  | none => []

-- A list that is written unless it is empty.
def listMember (key : String) : List Value → List (String × Value)
  | [] => []
  | items => [(key, .array items)]

-- A map that is written unless it is empty.
def mapMember (key : String) : List (String × Value) → List (String × Value)
  | [] => []
  | members => [(key, .object members)]

def writeEntries {α : Type} (write : α → Value) (entries : List (String × α)) :
    List (String × Value) :=
  entries.map fun (k, v) => (k, write v)

def referenceJson (target : String) : Value := .object [("$ref", .string target)]

def RefOr.toJson {α : Type} (write : α → Value) : RefOr α → Value
  | .ref target => referenceJson target
  | .inline value => write value

def TypeName.toJson (t : TypeName) : Value := .string t.name

def TypeKeyword.toJson : TypeKeyword → Value
  | .single t => t.toJson
  | .list ts => .array (ts.map TypeName.toJson)

def Discriminator.toJson (d : Discriminator) : Value :=
  .object (("propertyName", .string d.propertyName) ::
    mapMember "mapping" (writeEntries .string d.mapping))

namespace Schema

mutual

def toJson : Schema → Value
  | { typeKeyword, format, title, description, defaultValue, nullable, properties, required,
      additionalProperties, items, allOf, oneOf, anyOf, discriminator, enumValues, constValue,
      readOnly, writeOnly, deprecated, exampleValue } =>
    .object (
      optionalMember "type" TypeKeyword.toJson typeKeyword ++
      optionalMember "format" .string format ++
      optionalMember "title" .string title ++
      optionalMember "description" .string description ++
      optionalMember "default" id defaultValue ++
      optionalMember "nullable" .bool nullable ++
      mapMember "properties" (entriesToJson properties) ++
      listMember "required" (required.map .string) ++
      additionalToJson additionalProperties ++
      itemsToJson items ++
      listMember "allOf" (listToJson allOf) ++
      listMember "oneOf" (listToJson oneOf) ++
      listMember "anyOf" (listToJson anyOf) ++
      optionalMember "discriminator" Discriminator.toJson discriminator ++
      listMember "enum" enumValues ++
      optionalMember "const" id constValue ++
      optionalMember "readOnly" .bool readOnly ++
      optionalMember "writeOnly" .bool writeOnly ++
      optionalMember "deprecated" .bool deprecated ++
      optionalMember "example" id exampleValue)

def refOrToJson : RefOr Schema → Value
  | .ref target => referenceJson target
  | .inline s => s.toJson

def entriesToJson : List (String × RefOr Schema) → List (String × Value)
  | [] => []
  | (k, s) :: rest => (k, refOrToJson s) :: entriesToJson rest

def listToJson : List (RefOr Schema) → List Value
  | [] => []
  | s :: rest => refOrToJson s :: listToJson rest

def additionalToJson :
    Option (AdditionalProperties (RefOr Schema)) → List (String × Value)
  | none => []
  | some (.allowed flag) => [("additionalProperties", .bool flag)]
  | some (.schema s) => [("additionalProperties", refOrToJson s)]

def itemsToJson : Option (RefOr Schema) → List (String × Value)
  | none => []
  | some s => [("items", refOrToJson s)]

end

end Schema

def MediaType.toJson (m : MediaType) : Value :=
  .object (
    optionalMember "schema" Schema.refOrToJson m.schema ++
    optionalMember "example" id m.exampleValue ++
    mapMember "examples" m.examples)

def contentJson (content : List (String × MediaType)) : Value :=
  .object (writeEntries MediaType.toJson content)

def Parameter.toJson (p : Parameter) : Value :=
  .object (
    [("name", .string p.name), ("in", .string p.location.name)] ++
    optionalMember "description" .string p.description ++
    [("required", .bool p.required)] ++
    optionalMember "deprecated" .bool p.deprecated ++
    optionalMember "schema" Schema.refOrToJson p.schema ++
    optionalMember "style" .string p.style ++
    optionalMember "explode" .bool p.explode)

def RequestBody.toJson (b : RequestBody) : Value :=
  .object (
    optionalMember "description" .string b.description ++
    [("content", contentJson b.content), ("required", .bool b.required)])

def Response.toJson (r : Response) : Value :=
  .object (
    [("description", .string r.description)] ++
    mapMember "content" (writeEntries MediaType.toJson r.content) ++
    mapMember "headers" r.headers)

def License.toJson (l : License) : Value :=
  .object (
    [("name", .string l.name)] ++
    optionalMember "identifier" .string l.identifier ++
    optionalMember "url" .string l.url)

def Info.toJson (i : Info) : Value :=
  .object (
    [("title", .string i.title)] ++
    optionalMember "description" .string i.description ++
    [("version", .string i.version)] ++
    optionalMember "license" License.toJson i.license)

def Tag.toJson (t : Tag) : Value :=
  .object (("name", .string t.name) :: optionalMember "description" .string t.description)

def ServerVariable.toJson (v : ServerVariable) : Value :=
  .object (
    [("default", .string v.defaultValue)] ++
    optionalMember "description" .string v.description ++
    listMember "enum" (v.enumValues.map .string))

def Server.toJson (s : Server) : Value :=
  .object (
    [("url", .string s.url)] ++
    optionalMember "description" .string s.description ++
    mapMember "variables" (writeEntries ServerVariable.toJson s.placeholders))

def Operation.toJson (op : Operation) : Value :=
  .object (
    optionalMember "operationId" .string op.operationId ++
    optionalMember "summary" .string op.summary ++
    optionalMember "description" .string op.description ++
    listMember "tags" (op.tags.map .string) ++
    listMember "parameters" (op.parameters.map (RefOr.toJson Parameter.toJson)) ++
    optionalMember "requestBody" (RefOr.toJson RequestBody.toJson) op.requestBody ++
    mapMember "responses" (writeEntries (RefOr.toJson Response.toJson) op.responses) ++
    optionalMember "deprecated" .bool op.deprecated)

def PathItem.toJson (item : PathItem) : Value :=
  .object (
    optionalMember "summary" .string item.summary ++
    optionalMember "description" .string item.description ++
    listMember "parameters" (item.parameters.map (RefOr.toJson Parameter.toJson)) ++
    HttpMethod.all.flatMap fun m => optionalMember m.key Operation.toJson (item.operation m))

def Components.toJson (c : Components) : Value :=
  .object (
    mapMember "schemas" (writeEntries Schema.refOrToJson c.schemas) ++
    mapMember "responses" (writeEntries (RefOr.toJson Response.toJson) c.responses) ++
    mapMember "parameters" (writeEntries (RefOr.toJson Parameter.toJson) c.parameters) ++
    mapMember "requestBodies" (writeEntries (RefOr.toJson RequestBody.toJson) c.requestBodies))

def Document.toJson (d : Document) : Value :=
  .object (
    [("openapi", .string d.openapi), ("info", d.info.toJson)] ++
    listMember "servers" (d.servers.map Server.toJson) ++
    mapMember "paths" (writeEntries PathItem.toJson d.paths) ++
    optionalMember "components" Components.toJson d.components ++
    listMember "tags" (d.tags.map Tag.toJson))

end OpenApiClient
