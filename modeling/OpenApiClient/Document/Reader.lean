import OpenApiClient.Document.Basic
import OpenApiClient.Json.Reader
import OpenApiClient.Source.Outline

/-!
Reading a document from a source. Unknown keys are skipped: an outline beside each reader says what
it looks at. Where a value or a reference may stand, an entry `$ref` with a text makes it a
reference, whatever else is written there, and all of it is looked at.
-/

namespace OpenApiClient

namespace Source

-- The target of a reference: the only `$ref` entry of a map, and a text.
def reference? : Source → Option String
  | .map entries => do
    let f ← Place.choice.fields? ["$ref"] (.map entries)
    f.required "$ref" Place.choice.text?
  | _ => none

-- A reference if it can be one, otherwise a value.
def refOr? {α : Type} (read : Source → Option α) (s : Source) : Option (RefOr α) :=
  match s.reference? with
  | some target => some (.ref target)
  | none => (read s).map .inline

-- A name out of a fixed list: a text, or a map that gives nothing under it.
def oneOf? {α : Type} (all : List α) (name : α → String) : Source → Option α
  | .map [(k, v)] =>
    if v.atom? = some .null then do
      let key ← (← Place.choice.fieldName? (all.map name) k)
      all.find? (name · = key)
    else none
  | s => do
    let text ← Place.choice.text? s
    all.find? (name · = text)

end Source

open Place in
def Discriminator.read? (s : Source) : Option Discriminator := do
  let f ← choice.fields? ["propertyName", "mapping"] s
  pure {
    propertyName := ← f.required "propertyName" choice.text?
    mapping := ← f.defaulted "mapping" [] (choice.map? choice.text?) }

def TypeKeyword.read? (s : Source) : Option TypeKeyword :=
  match s.oneOf? TypeName.all TypeName.name with
  | some name => some (.single name)
  | none => (Place.choice.list? (·.oneOf? TypeName.all TypeName.name) s).map .list

namespace Schema

def fieldNames : List String := [
  "type", "format", "title", "description", "default", "nullable", "properties", "required",
  "additionalProperties", "items", "allOf", "oneOf", "anyOf", "discriminator", "enum", "const",
  "readOnly", "writeOnly", "deprecated", "example"]

open Place in
-- A schema, given how to read the schemas in it.
def readWith? (inner : Source → Option SchemaRef) (s : Source) : Option Schema := do
  let f ← choice.fields? fieldNames s
  let additional (s : Source) : Option (AdditionalProperties SchemaRef) :=
    match choice.flag? s with
    | some flag => some (.allowed flag)
    | none => (inner s).map .schema
  pure {
    typeKeyword := ← f.optional choice "type" TypeKeyword.read?
    format := ← f.optional choice "format" choice.text?
    title := ← f.optional choice "title" choice.text?
    description := ← f.optional choice "description" choice.text?
    defaultValue := ← f.optional choice "default" Source.toJson?
    nullable := ← f.optional choice "nullable" choice.flag?
    properties := ← f.defaulted "properties" [] (choice.map? inner)
    required := ← f.defaulted "required" [] (choice.list? choice.text?)
    additionalProperties := ← f.optional choice "additionalProperties" additional
    items := ← f.optional choice "items" inner
    allOf := ← f.defaulted "allOf" [] (choice.list? inner)
    oneOf := ← f.defaulted "oneOf" [] (choice.list? inner)
    anyOf := ← f.defaulted "anyOf" [] (choice.list? inner)
    discriminator := ← f.optional choice "discriminator" Discriminator.read?
    enumValues := ← f.defaulted "enum" [] (choice.list? Source.toJson?)
    constValue := ← f.optional choice "const" Source.toJson?
    readOnly := ← f.optional choice "readOnly" choice.flag?
    writeOnly := ← f.optional choice "writeOnly" choice.flag?
    deprecated := ← f.optional choice "deprecated" choice.flag?
    exampleValue := ← f.optional choice "example" Source.toJson? }

-- A schema or a reference with at most `levels` levels of schemas.
def readLevels? : Nat → Source → Option SchemaRef
  | 0, _ => none
  | levels + 1, s => s.refOr? (readWith? (readLevels? levels))

-- A schema or a reference; a schema has no more levels than its source.
def readRefOr? (s : Source) : Option SchemaRef := readLevels? (s.height + 1) s

end Schema

open Place in
def MediaType.read? (s : Source) : Option MediaType := do
  let f ← choice.fields? ["schema", "example", "examples"] s
  pure {
    schema := ← f.optional choice "schema" Schema.readRefOr?
    exampleValue := ← f.optional choice "example" Source.toJson?
    examples := ← f.defaulted "examples" [] (choice.map? Source.toJson?) }

open Place in
def Parameter.read? (s : Source) : Option Parameter := do
  let f ← choice.fields? [
    "name", "in", "description", "required", "deprecated", "schema", "style", "explode"] s
  pure {
    name := ← f.required "name" choice.text?
    location := ← f.required "in" (·.oneOf? ParameterLocation.all ParameterLocation.name)
    description := ← f.optional choice "description" choice.text?
    required := ← f.defaulted "required" false choice.flag?
    deprecated := ← f.optional choice "deprecated" choice.flag?
    schema := ← f.optional choice "schema" Schema.readRefOr?
    style := ← f.optional choice "style" choice.text?
    explode := ← f.optional choice "explode" choice.flag? }

open Place in
def RequestBody.read? (s : Source) : Option RequestBody := do
  let f ← choice.fields? ["description", "content", "required"] s
  pure {
    description := ← f.optional choice "description" choice.text?
    content := ← f.required "content" (choice.map? MediaType.read?)
    required := ← f.defaulted "required" false choice.flag? }

open Place in
def Response.read? (s : Source) : Option Response := do
  let f ← choice.fields? ["description", "content", "headers"] s
  pure {
    description := ← f.defaulted "description" "" choice.text?
    content := ← f.defaulted "content" [] (choice.map? MediaType.read?)
    headers := ← f.defaulted "headers" [] (choice.map? Source.toJson?) }

-- The value of a place where a reference may stand; all of the source has to be readable, looked
-- at or not.
def Source.choice? {α : Type} (read : Source → Option α) (s : Source) : Option (RefOr α) :=
  if s.readable then s.refOr? read else none

def Source.schema? (s : Source) : Option SchemaRef :=
  if s.readable then Schema.readRefOr? s else none

def License.outline : Outline := .record [("name", .leaf), ("identifier", .leaf), ("url", .leaf)]

open Place in
def License.read? (s : Source) : Option License := do
  let f ← plain.fields? outline.names s
  pure {
    name := ← f.required "name" plain.text?
    identifier := ← f.optional plain "identifier" plain.text?
    url := ← f.optional plain "url" plain.text? }

def Info.outline : Outline := .record [
  ("title", .leaf), ("description", .leaf), ("version", .leaf), ("license", License.outline)]

open Place in
def Info.read? (s : Source) : Option Info := do
  let f ← plain.fields? outline.names s
  pure {
    title := ← f.required "title" plain.text?
    description := ← f.optional plain "description" plain.text?
    version := ← f.required "version" plain.text?
    license := ← f.optional plain "license" License.read? }

def Tag.outline : Outline := .record [("name", .leaf), ("description", .leaf)]

open Place in
def Tag.read? (s : Source) : Option Tag := do
  let f ← plain.fields? outline.names s
  pure {
    name := ← f.required "name" plain.text?
    description := ← f.optional plain "description" plain.text? }

def ServerVariable.outline : Outline :=
  .record [("default", .leaf), ("description", .leaf), ("enum", .list .leaf)]

open Place in
def ServerVariable.read? (s : Source) : Option ServerVariable := do
  let f ← plain.fields? outline.names s
  pure {
    defaultValue := ← f.required "default" plain.text?
    description := ← f.optional plain "description" plain.text?
    enumValues := ← f.defaulted "enum" [] (plain.list? plain.text?) }

def Server.outline : Outline := .record [
  ("url", .leaf), ("description", .leaf), ("variables", .map ServerVariable.outline)]

open Place in
def Server.read? (s : Source) : Option Server := do
  let f ← plain.fields? outline.names s
  pure {
    url := ← f.required "url" plain.text?
    description := ← f.optional plain "description" plain.text?
    placeholders := ← f.defaulted "variables" [] (plain.map? ServerVariable.read?) }

def Operation.outline : Outline := .record [
  ("operationId", .leaf), ("summary", .leaf), ("description", .leaf), ("tags", .list .leaf),
  ("parameters", .list .whole), ("requestBody", .whole), ("responses", .map .whole),
  ("deprecated", .leaf)]

open Place in
def Operation.read? (s : Source) : Option Operation := do
  let f ← plain.fields? outline.names s
  pure {
    operationId := ← f.optional plain "operationId" plain.text?
    summary := ← f.optional plain "summary" plain.text?
    description := ← f.optional plain "description" plain.text?
    tags := ← f.defaulted "tags" [] (plain.list? plain.text?)
    parameters := ← f.defaulted "parameters" [] (plain.list? (·.choice? Parameter.read?))
    requestBody := ← f.optional plain "requestBody" (·.choice? RequestBody.read?)
    responses := ← f.defaulted "responses" [] (plain.map? (·.choice? Response.read?))
    deprecated := ← f.optional plain "deprecated" plain.flag? }

def PathItem.outline : Outline := .record <|
  [("summary", .leaf), ("description", .leaf), ("parameters", .list .whole)] ++
    HttpMethod.all.map fun m => (m.key, Operation.outline)

open Place in
def PathItem.read? (s : Source) : Option PathItem := do
  let f ← plain.fields? outline.names s
  let operation (m : HttpMethod) := f.optional plain m.key Operation.read?
  pure {
    summary := ← f.optional plain "summary" plain.text?
    description := ← f.optional plain "description" plain.text?
    parameters := ← f.defaulted "parameters" [] (plain.list? (·.choice? Parameter.read?))
    get := ← operation .get
    put := ← operation .put
    post := ← operation .post
    delete := ← operation .delete
    options := ← operation .options
    head := ← operation .head
    patch := ← operation .patch
    trace := ← operation .trace }

def Components.outline : Outline := .record [
  ("schemas", .map .whole), ("responses", .map .whole), ("parameters", .map .whole),
  ("requestBodies", .map .whole)]

open Place in
def Components.read? (s : Source) : Option Components := do
  let f ← plain.fields? outline.names s
  pure {
    schemas := ← f.defaulted "schemas" [] (plain.map? Source.schema?)
    responses := ← f.defaulted "responses" [] (plain.map? (·.choice? Response.read?))
    parameters := ← f.defaulted "parameters" [] (plain.map? (·.choice? Parameter.read?))
    requestBodies := ← f.defaulted "requestBodies" [] (plain.map? (·.choice? RequestBody.read?)) }

namespace Document

def outline : Outline := .record [
  ("openapi", .leaf), ("info", Info.outline), ("servers", .list Server.outline),
  ("paths", .map PathItem.outline), ("components", Components.outline),
  ("tags", .list Tag.outline)]

open Place in
def read? (s : Source) : Option Document := do
  let f ← plain.fields? outline.names s
  pure {
    openapi := ← f.required "openapi" plain.text?
    info := ← f.required "info" Info.read?
    servers := ← f.defaulted "servers" [] (plain.list? Server.read?)
    paths := ← f.defaulted "paths" [] (plain.map? PathItem.read?)
    components := ← f.optional plain "components" Components.read?
    tags := ← f.defaulted "tags" [] (plain.list? Tag.read?) }

-- The languages that a document can be written in.
inductive Format where
  | json
  | yaml
  deriving DecidableEq, Repr

inductive ReadError where
  | malformed (format : Format)
  | unsupportedVersion (version : String)
  deriving DecidableEq, Repr

-- Only version 3 is understood.
def ofSource (format : Format) (source : Option Source) : Except ReadError Document :=
  match source.bind read? with
  | none => .error (.malformed format)
  | some d => if "3.".isPrefixOf d.openapi then .ok d else .error (.unsupportedVersion d.openapi)

def ofJson (text : String) : Except ReadError Document := ofSource .json (Json.read? text)

end Document

end OpenApiClient
