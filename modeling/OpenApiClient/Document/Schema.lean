import OpenApiClient.Json.Basic
import OpenApiClient.Document.Entries

/-!
Schemas: the types, what a schema says about itself, and the kind of thing it describes, which
decides how it appears in the client.
-/

namespace OpenApiClient

-- A place in a document where either a value stands or a reference to one.
inductive RefOr (α : Type) where
  | ref (target : String)
  | inline (value : α)
  deriving Repr, Inhabited

namespace RefOr

variable {α : Type}

def target? : RefOr α → Option String
  | .ref target => some target
  | .inline _ => none

def inline? : RefOr α → Option α
  | .ref _ => none
  | .inline value => some value

end RefOr

inductive TypeName where
  | string
  | number
  | integer
  | boolean
  | array
  | object
  | null
  deriving DecidableEq, Repr

namespace TypeName

def all : List TypeName := [.string, .number, .integer, .boolean, .array, .object, .null]

def name : TypeName → String
  | .string => "string"
  | .number => "number"
  | .integer => "integer"
  | .boolean => "boolean"
  | .array => "array"
  | .object => "object"
  | .null => "null"

end TypeName

-- The value of `type`: one name, or a list of names.
inductive TypeKeyword where
  | single (name : TypeName)
  | list (names : List TypeName)
  deriving DecidableEq, Repr

def TypeKeyword.names : TypeKeyword → List TypeName
  | .single name => [name]
  | .list names => names

structure Discriminator where
  propertyName : String
  mapping : List (String × String)
  deriving Repr

-- What is said about properties that are not named.
inductive AdditionalProperties (σ : Type) where
  | allowed (flag : Bool)
  | schema (schema : σ)
  deriving Repr

structure Schema where
  typeKeyword : Option TypeKeyword := none
  format : Option String := none
  title : Option String := none
  description : Option String := none
  defaultValue : Option Json.Value := none
  nullable : Option Bool := none
  properties : List (String × RefOr Schema) := []
  required : List String := []
  additionalProperties : Option (AdditionalProperties (RefOr Schema)) := none
  items : Option (RefOr Schema) := none
  allOf : List (RefOr Schema) := []
  oneOf : List (RefOr Schema) := []
  anyOf : List (RefOr Schema) := []
  discriminator : Option Discriminator := none
  enumValues : List Json.Value := []
  constValue : Option Json.Value := none
  readOnly : Option Bool := none
  writeOnly : Option Bool := none
  deprecated : Option Bool := none
  exampleValue : Option Json.Value := none
  deriving Inhabited

abbrev SchemaRef := RefOr Schema

-- What a schema describes. Objects and enums become classes.
inductive SchemaKind where
  | object
  | stringEnum
  | intEnum
  | mixedEnum
  | array
  | primitive
  deriving DecidableEq, Repr

namespace SchemaKind

def isEnum : SchemaKind → Bool
  | .stringEnum | .intEnum | .mixedEnum => true
  | _ => false

-- Whether a class is written for a schema of this kind.
def hasClass (kind : SchemaKind) : Bool := kind == .object || kind.isEnum

def name : SchemaKind → String
  | .object => "object"
  | .stringEnum => "enum-of-strings"
  | .intEnum => "enum-of-integers"
  | .mixedEnum => "enum-of-mixed-scalars"
  | .array => "array"
  | .primitive => "primitive"

end SchemaKind

namespace Json.Value

def isNull : Value → Bool
  | .null => true
  | _ => false

def isString : Value → Bool
  | .string _ => true
  | _ => false

def isStructured : Value → Bool
  | .array _ | .object _ => true
  | _ => false

-- An integer of 64 bits with a sign.
def isSigned64 : Value → Bool
  | .number (.int n) => n < Nat.pow 2 63
  | _ => false

end Json.Value

namespace Schema

def types (s : Schema) : List TypeName := (s.typeKeyword.map TypeKeyword.names).getD []

def hasType (s : Schema) (t : TypeName) : Bool := s.types.contains t

-- The schema of the properties that are not named, where they have one.
def additionalSchema (s : Schema) : Option SchemaRef :=
  match s.additionalProperties with
  | some (.schema schema) => some schema
  | _ => none

def isRequired (s : Schema) (property : String) : Bool := s.required.contains property

-- Whether a keyword other than `allOf` shapes the value.
def isStructured (s : Schema) : Bool :=
  s.typeKeyword.isSome || !s.properties.isEmpty || !s.required.isEmpty ||
    s.additionalProperties.isSome || s.items.isSome || !s.oneOf.isEmpty || !s.anyOf.isEmpty ||
    s.discriminator.isSome || !s.enumValues.isEmpty || s.constValue.isSome

-- Nothing in the schema shapes a value: there are annotations at most.
def isAnnotation (s : Schema) : Bool := s.allOf.isEmpty && !s.isStructured

-- The reference that the schema merely annotates: the only one under `allOf`, when all other
-- members and the schema itself are annotations.
def annotatedReference (s : Schema) : Option String :=
  if s.isStructured || !(s.allOf.filterMap RefOr.inline?).all isAnnotation then
    none
  else
    match s.allOf.filterMap RefOr.target? with
    | [target] => some target
    | _ => none

-- The values of an enum without null; there are none if one of them is a list or a map.
def scalarValues (values : List Json.Value) : List Json.Value :=
  let scalars := values.filter (!·.isNull)
  if scalars.any Json.Value.isStructured then [] else scalars

-- The kind that the values of an enum make, if there are any.
def enumKind? (values : List Json.Value) : Option SchemaKind :=
  let scalars := scalarValues values
  if scalars.isEmpty then none
  else if scalars.all Json.Value.isString then some .stringEnum
  else if scalars.all Json.Value.isSigned64 then some .intEnum
  else some .mixedEnum

mutual

-- Values win over types, types over the keywords that only fit one type.
def kind : Schema → SchemaKind
  | s@{ allOf, .. } =>
    let composed := s.annotatedReference.isNone && composes allOf == some true
    match enumKind? s.enumValues with
    | some kind => kind
    | none =>
      if s.hasType .object then .object
      else if s.hasType .array then .array
      else if s.typeKeyword.isSome then .primitive
      else if !s.properties.isEmpty || s.additionalSchema.isSome || composed then .object
      else if s.items.isSome then .array
      else .primitive

-- Whether some member of a composition shapes an object, a reference being taken to; `none` if a
-- member has another shape.
def composes : List (RefOr Schema) → Option Bool
  | [] => some false
  | .ref _ :: rest => (composes rest).map fun _ => true
  | .inline member :: rest =>
    if member.isAnnotation then composes rest
    else if member.kind = .object then (composes rest).map fun _ => true
    else none

end

end Schema

end OpenApiClient
