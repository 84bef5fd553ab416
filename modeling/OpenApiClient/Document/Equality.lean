import OpenApiClient.Document.Basic

/-!
When two parts of a document say the same: the order of the entries of a map does not count, and
numbers are compared as numbers.
-/

namespace OpenApiClient

-- The same keys with values that are the same. Both maps have each key once, so that it is
-- enough to look from one side.
def sameEntries {α : Type} (same : α → α → Bool) (a b : List (String × α)) : Bool :=
  a.length == b.length && a.all fun (k, v) => (Entries.get? k b).any (same v)

def sameOption {α : Type} (same : α → α → Bool) : Option α → Option α → Bool
  | some a, some b => same a b
  | none, none => true
  | _, _ => false

def sameList {α : Type} (same : α → α → Bool) : List α → List α → Bool
  | a :: as, b :: bs => same a b && sameList same as bs
  | [], [] => true
  | _, _ => false

def Discriminator.same (a b : Discriminator) : Bool :=
  a.propertyName == b.propertyName && sameEntries (· == ·) a.mapping b.mapping

namespace Schema

mutual

def same : Schema → Schema → Bool
  | a@{ properties, additionalProperties, items, allOf, oneOf, anyOf, .. }, b =>
    a.typeKeyword == b.typeKeyword && a.format == b.format && a.title == b.title &&
      a.description == b.description &&
      sameOption Json.Value.equals a.defaultValue b.defaultValue && a.nullable == b.nullable &&
      properties.length == b.properties.length && entriesWithin properties b.properties &&
      a.required == b.required && sameAdditional additionalProperties b.additionalProperties &&
      sameItems items b.items && sameMembers allOf b.allOf && sameMembers oneOf b.oneOf &&
      sameMembers anyOf b.anyOf && sameOption Discriminator.same a.discriminator b.discriminator &&
      sameList Json.Value.equals a.enumValues b.enumValues &&
      sameOption Json.Value.equals a.constValue b.constValue &&
      a.readOnly == b.readOnly && a.writeOnly == b.writeOnly && a.deprecated == b.deprecated &&
      sameOption Json.Value.equals a.exampleValue b.exampleValue

def sameRef : RefOr Schema → RefOr Schema → Bool
  | .ref a, .ref b => a == b
  | .inline a, .inline b => a.same b
  | _, _ => false

def entriesWithin : List (String × RefOr Schema) → List (String × RefOr Schema) → Bool
  | [], _ => true
  | (k, a) :: rest, others =>
    (match Entries.get? k others with
      | some b => sameRef a b
      | none => false) && entriesWithin rest others

def sameAdditional : Option (AdditionalProperties (RefOr Schema)) →
    Option (AdditionalProperties (RefOr Schema)) → Bool
  | some (.allowed a), some (.allowed b) => a == b
  | some (.schema a), some (.schema b) => sameRef a b
  | none, none => true
  | _, _ => false

def sameItems : Option (RefOr Schema) → Option (RefOr Schema) → Bool
  | some a, some b => sameRef a b
  | none, none => true
  | _, _ => false

def sameMembers : List (RefOr Schema) → List (RefOr Schema) → Bool
  | a :: as, b :: bs => sameRef a b && sameMembers as bs
  | [], [] => true
  | _, _ => false

end

end Schema

def MediaType.same (a b : MediaType) : Bool :=
  sameOption Schema.sameRef a.schema b.schema &&
    sameOption Json.Value.equals a.exampleValue b.exampleValue &&
    sameEntries Json.Value.equals a.examples b.examples

def Response.same (a b : Response) : Bool :=
  a.description == b.description && sameEntries MediaType.same a.content b.content &&
    sameEntries Json.Value.equals a.headers b.headers

end OpenApiClient
