import OpenApiClient.Document.Basic
import OpenApiClient.Pointer

/-!
The nodes of a document that a reference can point to, and the way from the document to a node, one
segment of the pointer at a time. A pointer never leads through another reference.
-/

namespace OpenApiClient

inductive Node where
  | document (d : Document)
  | components (c : Components)
  | paths (entries : List (String × PathItem))
  | pathItem (item : PathItem)
  | operation (op : Operation)
  | schema (s : Schema)
  | schemaMap (entries : List (String × SchemaRef))
  | schemaList (items : List SchemaRef)
  | response (r : Response)
  | responseMap (entries : List (String × RefOr Response))
  | content (entries : List (String × MediaType))
  | mediaType (m : MediaType)
  | parameter (p : Parameter)
  | parameterMap (entries : List (String × RefOr Parameter))
  | parameterList (items : List (RefOr Parameter))
  | requestBody (b : RequestBody)
  | requestBodyMap (entries : List (String × RefOr RequestBody))
  | reference (target : String)

namespace Node

def kind : Node → String
  | .document _ => "document"
  | .components _ => "components object"
  | .paths _ => "paths object"
  | .pathItem _ => "path item"
  | .operation _ => "operation"
  | .schema _ => "schema"
  | .schemaMap _ => "schema map"
  | .schemaList _ => "schema list"
  | .response _ => "response"
  | .responseMap _ => "response map"
  | .content _ => "content map"
  | .mediaType _ => "media type"
  | .parameter _ => "parameter"
  | .parameterMap _ => "parameter map"
  | .parameterList _ => "parameter list"
  | .requestBody _ => "request body"
  | .requestBodyMap _ => "request body map"
  | .reference _ => "reference"

def ofRefOr {α : Type} (node : α → Node) : RefOr α → Node
  | .ref target => .reference target
  | .inline value => node value

-- The largest position in a list that a segment can give.
def maxPosition : Nat := Nat.pow 2 64 - 1

-- The position that a segment gives: a number, which does not start with a zero if it has more
-- digits.
def position? (segment : String) : Option Nat :=
  match segment.toList with
  | '0' :: _ :: _ => none
  | s => Text.readUnsigned maxPosition s

-- The item of a list at the position that a segment gives.
def item? {α : Type} (items : List α) (segment : String) : Option α := do
  items[← position? segment]?

-- One step of a pointer.
def step? (segment : String) : Node → Option Node
  | .document d =>
    if segment = "components" then d.components.map .components
    else if segment = "paths" then some (.paths d.paths)
    else none
  | .components c =>
    if segment = "schemas" then some (.schemaMap c.schemas)
    else if segment = "responses" then some (.responseMap c.responses)
    else if segment = "parameters" then some (.parameterMap c.parameters)
    else if segment = "requestBodies" then some (.requestBodyMap c.requestBodies)
    else none
  | .paths entries => (Entries.get? segment entries).map .pathItem
  | .pathItem item =>
    if segment = "parameters" then some (.parameterList item.parameters)
    else ((HttpMethod.ofKey? segment).bind item.operation).map .operation
  | .operation op =>
    if segment = "responses" then some (.responseMap op.responses)
    else if segment = "parameters" then some (.parameterList op.parameters)
    else if segment = "requestBody" then op.requestBody.map (ofRefOr .requestBody)
    else none
  | .schema s =>
    if segment = "properties" then some (.schemaMap s.properties)
    else if segment = "items" then s.items.map (ofRefOr .schema)
    else if segment = "additionalProperties" then s.additionalSchema.map (ofRefOr .schema)
    else if segment = "allOf" then some (.schemaList s.allOf)
    else if segment = "oneOf" then some (.schemaList s.oneOf)
    else if segment = "anyOf" then some (.schemaList s.anyOf)
    else none
  | .schemaMap entries => (Entries.get? segment entries).map (ofRefOr .schema)
  | .schemaList items => (item? items segment).map (ofRefOr .schema)
  | .response r => if segment = "content" then some (.content r.content) else none
  | .responseMap entries => (Entries.get? segment entries).map (ofRefOr .response)
  | .content entries => (Entries.get? segment entries).map .mediaType
  | .mediaType m => if segment = "schema" then m.schema.map (ofRefOr .schema) else none
  | .parameter p => if segment = "schema" then p.schema.map (ofRefOr .schema) else none
  | .parameterMap entries => (Entries.get? segment entries).map (ofRefOr .parameter)
  | .parameterList items => (item? items segment).map (ofRefOr .parameter)
  | .requestBody b => if segment = "content" then some (.content b.content) else none
  | .requestBodyMap entries => (Entries.get? segment entries).map (ofRefOr .requestBody)
  | .reference _ => none

-- The node at the end of a way, or the segment that leads nowhere.
def walk (start : Node) : List String → Except String Node
  | [] => .ok start
  | segment :: rest =>
    match start.step? segment with
    | some next => next.walk rest
    | none => .error segment

end Node

namespace Document

-- The node that a reference points to, itself perhaps a reference.
def resolve (d : Document) (reference : String) : Except ResolveError Node := do
  let segments ← Pointer.segments reference
  ((Node.document d).walk segments).mapError (.brokenReference reference ·)

end Document

end OpenApiClient
