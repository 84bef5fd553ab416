import OpenApiClient.Client.Literal
import OpenApiClient.Client.Value

/-!
The classes for schemas. What an object has by way of `allOf` is its own: the properties of all
members are put together, and a later definition of a property replaces an earlier one in its place.
-/

namespace OpenApiClient

structure Property where
  name : WireName
  value : ValueType
  required : Bool
  description : Option String
  readOnly : Bool
  writeOnly : Bool
  deriving Repr

-- An object has properties, an enum has cases.
structure Entity where
  name : String
  kind : SchemaKind
  description : Option String := none
  deprecated : Bool := false
  properties : List Property := []
  -- The values of the properties that are not named, if there can be any.
  additional : Option ValueType := none
  cases : List EnumCase := []
  deriving Repr

-- A property with the class that things in it are named after.
structure MergedProperty where
  parent : String
  schema : SchemaRef

structure MergedProperties where
  properties : List (String × MergedProperty) := []
  required : List String := []

def MergedProperties.add (merged : MergedProperties) (parent : String) (s : Schema) :
    MergedProperties where
  properties := s.properties.foldl
    (fun all (key, schema) => Entries.put key { parent, schema } all) merged.properties
  required := merged.required ++ s.required

namespace NamedDocument

-- Adds the properties of a schema that is called `parent`, those of its members first. A
-- reference brings its own name. `depth` bounds how deep members may lie in each other.
def mergeProperties (n : NamedDocument) (parent : String) (s : Schema) (merged : MergedProperties) :
    Nat → Except BuildError MergedProperties
  | 0 => throw (.naming (.cyclicSchema [parent]))
  | depth + 1 => do
    let inherited ← s.allOf.foldlM (fun merged member => do
      match member with
      | .ref reference =>
        let (terminal, target) ← n.document.meantSchema reference
        let name ← n.schemas.nameOf terminal
        n.mergeProperties name target merged depth
      | .inline member => n.mergeProperties parent member merged depth) merged
    return inherited.add parent s

def property (n : NamedDocument) (required : List String) (key : String) (source : MergedProperty) :
    Except BuildError Property := do
  let value ← n.valueAt (Naming.nested source.parent key) (some source.schema)
  let schema ← n.document.valueOf .schema source.schema
  return {
    name := WireName.ofString key
    value
    required := required.contains key
    description := schema.description
    readOnly := schema.readOnly.getD false
    writeOnly := schema.writeOnly.getD false }

-- What is known of the properties that are not named comes from the schema itself, not from its
-- members.
def additional (n : NamedDocument) (name : String) (s : Schema) :
    Except BuildError (Option ValueType) := do
  let name := Naming.nested name "additionalProperty"
  match s.additionalProperties with
  | some (.schema values) => return some (← n.valueAt name (some values))
  | some (.allowed true) => return some (← n.valueAt name none)
  | some (.allowed false) | none => return none

def entity (n : NamedDocument) (found : NamedSchema) : Except BuildError Entity := do
  let s := found.schema
  let described : Entity := {
    name := found.name
    kind := found.kind
    description := s.description.or s.title
    deprecated := s.deprecated.getD false }
  if found.kind = .object then
    let merged ← n.mergeProperties found.name s {} SchemaPosition.maxDepth
    let properties ← merged.properties.mapM fun (key, source) => n.property merged.required key source
    return { described with properties, additional := ← n.additional found.name s }
  else
    return { described with cases := EnumCase.ofValues s.enumValues }

def entities (n : NamedDocument) : Except BuildError (List Entity) :=
  n.schemas.classes.mapM n.entity

end NamedDocument

end OpenApiClient
