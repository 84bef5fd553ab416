import OpenApiClient.Document.Writer

/-!
What is written for a document: which members an object has, looked up by their keys. What is written for the parts of
schemas is what any writer of lists, maps and references makes of them.
-/

namespace OpenApiClient

open Json (Value)

section

variable {α : Type} {key k : String}

@[simp] theorem Entries.get?_append {a b : List (String × α)} :
    Entries.get? key (a ++ b) = (Entries.get? key a).or (Entries.get? key b) := by
  induction a with
  | nil => rfl
  | cons entry rest ih =>
    simp only [List.cons_append, Entries.get?]
    split
    case isTrue => rfl
    case isFalse => exact ih

@[simp] theorem get?_optionalMember {write : α → Value} {found : Option α} :
    Entries.get? key (optionalMember k write found) = if k = key then found.map write else none := by
  cases found <;> simp [optionalMember, Entries.get?]

@[simp] theorem get?_listMember {items : List Value} :
    Entries.get? key (listMember k items) = if k = key ∧ items ≠ [] then some (.array items) else none := by
  cases items <;> simp [listMember, Entries.get?]

@[simp] theorem get?_mapMember {members : List (String × Value)} :
    Entries.get? key (mapMember k members) = if k = key ∧ members ≠ [] then some (.object members) else none := by
  cases members <;> simp [mapMember, Entries.get?]

theorem Entries.get?_map {β : Type} {f : α → β} {entries : List (String × α)} :
    Entries.get? key (entries.map fun entry => (entry.1, f entry.2)) = (Entries.get? key entries).map f := by
  induction entries with
  | nil => rfl
  | cons entry rest ih =>
    simp only [List.map_cons, Entries.get?]
    split
    case isTrue => rfl
    case isFalse => exact ih

@[simp] theorem get?_writeEntries {write : α → Value} {entries : List (String × α)} :
    Entries.get? key (writeEntries write entries) = (Entries.get? key entries).map write :=
  Entries.get?_map

@[simp] theorem writeEntries_eq_nil {write : α → Value} {entries : List (String × α)} :
    writeEntries write entries = [] ↔ entries = [] :=
  List.map_eq_nil_iff

end

-- What is written for the properties that are not named.
def AdditionalProperties.toJson {σ : Type} (write : σ → Value) : AdditionalProperties σ → Value
  | .allowed flag => .bool flag
  | .schema value => write value

namespace Schema

@[simp] theorem refOrToJson_eq : refOrToJson = RefOr.toJson toJson := by
  funext place
  cases place <;> simp [refOrToJson, RefOr.toJson]

@[simp] theorem entriesToJson_eq (entries : List (String × SchemaRef)) :
    entriesToJson entries = writeEntries (RefOr.toJson toJson) entries := by
  induction entries with
  | nil => simp [entriesToJson, writeEntries]
  | cons entry rest ih => simp [entriesToJson, writeEntries, ih]

@[simp] theorem listToJson_eq (items : List SchemaRef) : listToJson items = items.map (RefOr.toJson toJson) := by
  induction items with
  | nil => simp [listToJson]
  | cons item rest ih => simp [listToJson, ih]

@[simp] theorem itemsToJson_eq (items : Option SchemaRef) :
    itemsToJson items = optionalMember "items" (RefOr.toJson toJson) items := by
  cases items <;> simp [itemsToJson, optionalMember]

@[simp] theorem additionalToJson_eq (additional : Option (AdditionalProperties SchemaRef)) :
    additionalToJson additional =
      optionalMember "additionalProperties" (AdditionalProperties.toJson (RefOr.toJson toJson)) additional := by
  cases additional with
  | none => simp [additionalToJson, optionalMember]
  | some value => cases value <;> simp [additionalToJson, optionalMember, AdditionalProperties.toJson]

theorem toJson_eq (s : Schema) : s.toJson = .object (
    optionalMember "type" TypeKeyword.toJson s.typeKeyword ++
    optionalMember "format" .string s.format ++
    optionalMember "title" .string s.title ++
    optionalMember "description" .string s.description ++
    optionalMember "default" id s.defaultValue ++
    optionalMember "nullable" .bool s.nullable ++
    mapMember "properties" (writeEntries (RefOr.toJson toJson) s.properties) ++
    listMember "required" (s.required.map .string) ++
    optionalMember "additionalProperties" (AdditionalProperties.toJson (RefOr.toJson toJson)) s.additionalProperties ++
    optionalMember "items" (RefOr.toJson toJson) s.items ++
    listMember "allOf" (s.allOf.map (RefOr.toJson toJson)) ++
    listMember "oneOf" (s.oneOf.map (RefOr.toJson toJson)) ++
    listMember "anyOf" (s.anyOf.map (RefOr.toJson toJson)) ++
    optionalMember "discriminator" Discriminator.toJson s.discriminator ++
    listMember "enum" s.enumValues ++
    optionalMember "const" id s.constValue ++
    optionalMember "readOnly" .bool s.readOnly ++
    optionalMember "writeOnly" .bool s.writeOnly ++
    optionalMember "deprecated" .bool s.deprecated ++
    optionalMember "example" id s.exampleValue) := by
  cases s
  simp only [toJson, entriesToJson_eq, additionalToJson_eq, itemsToJson_eq, listToJson_eq]

end Schema

end OpenApiClient
