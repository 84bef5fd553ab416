import OpenApiClient.Client.Entity
import OpenApiClient.Php.ClassFile
import OpenApiClient.Php.Expression
import OpenApiClient.Php.Literal
import OpenApiClient.Php.TypeName

/-!
The class for an object: a constructor with its properties, and the way from and to plain data.
-/

namespace OpenApiClient.Php

structure ModelField where
  -- The key in plain data, as a literal.
  key : String
  -- The variable, without its dollar sign.
  name : String
  declared : String
  described : String
  description : Option String
  required : Bool
  read : Expression
  write : Expression

namespace ModelField

-- From the array of plain data. Where there may be nothing, that is asked first.
def readExpression (root key : String) (p : Property) : Expression :=
  let input := .read ("$data[" ++ key ++ "]")
  match p.value.factory, p.required with
  | .direct, true => input
  | .direct, false => .orNull input
  | factory, true =>
    if p.value.hints.isNullable then .ifSet input (.hydrate root factory input)
    else .hydrate root factory input
  | factory, false => .ifSet input (.hydrate root factory input)

-- Back to plain data. A property that need not be there is only written when it is set, so that
-- null is asked for only where it is a value.
def writeExpression (name : String) (p : Property) : Expression :=
  let value := .read ("$this->" ++ name)
  match p.value.factory with
  | .direct => value
  | factory =>
    if p.value.hints.isNullable then .unlessNull value (.dehydrate factory value)
    else .dehydrate factory value

def describe (p : Property) : Option String :=
  if p.readOnly then
    some (match p.description with
      | some text => text ++ " (read-only)"
      | none => "Read-only.")
  else p.description

-- A property that need not be there may be null.
def ofProperty (root : String) (p : Property) : ModelField :=
  let key := string p.name.written
  let name := variableName p.name.camel
  let declared := declaredType root p.value.hints
  let described := describedType root p.value.hints
  let optional := !p.required && !p.value.hints.isNullable
  { key
    name
    declared := if optional then nullable declared else declared
    described := if optional then described ++ "|null" else described
    description := describe p
    required := p.required
    read := readExpression root key p
    write := writeExpression name p }

def commentLine (f : ModelField) : String :=
  let description := match nonempty f.description with
    | some text => " " ++ commentText text
    | none => ""
  "@param " ++ f.described ++ " $" ++ f.name ++ description

def parameter (f : ModelField) : String :=
  let unset := if f.required then "" else " = null"
  "public readonly " ++ f.declared ++ " $" ++ f.name ++ unset ++ ","

end ModelField

structure ExtraFields where
  described : String
  -- How a value is made and taken back, unless it is used as decoded.
  conversion : Option (Expression × Expression)

def ExtraFields.ofValue (root : String) (v : ValueType) : ExtraFields :=
  let value := .read "$value"
  { described := "array<string, " ++ describedType root v.hints ++ ">"
    conversion := match v.factory with
      | .direct => none
      | factory => some (.hydrate root factory value, .dehydrate factory value) }

-- The fields in the order of the constructor: those that are required first.
def modelFields (root : String) (e : Entity) : List ModelField :=
  let fields := e.properties.map (.ofProperty root)
  fields.filter (·.required) ++ fields.filter (!·.required)

namespace Model

-- The keys of the named properties, as a table.
def knownKeys (e : Entity) : Lines :=
  let entries := e.properties.map fun p => string p.name.written ++ " => true"
  ["private const KNOWN = [" ++ ", ".intercalate entries ++ "];"]

def constructor (fields : List ModelField) (extra : Option ExtraFields) : Lines :=
  let described := fields.map (·.commentLine) ++
    extra.toList.map fun x => "@param " ++ x.described ++ " $additionalProperties"
  let parameters := fields.map (·.parameter) ++
    extra.toList.map fun _ => "public readonly array $additionalProperties = [],"
  (if described = [] then [] else comment (described.map some)) ++ constructorLines parameters

-- A function that is applied to each value of an array.
def mapValues (body : Expression) (array : String) : String :=
  "array_map(static fn ($value) => " ++ body.text ++ ", " ++ array ++ ")"

def fromArray (fields : List ModelField) (extra : Option ExtraFields) : Lines :=
  let others := "array_diff_key($data, self::KNOWN)"
  let extraValues (x : ExtraFields) := match x.conversion with
    | some (hydrate, _) => mapValues hydrate others
    | none => others
  let arguments := fields.map (fun f => f.name ++ ": " ++ f.read.text ++ ",") ++
    extra.toList.map fun x => "additionalProperties: " ++ extraValues x ++ ","
  comment [some "@param array<string, mixed> $data"] ++
    braced "public static function fromArray(array $data): self"
      (enclose "return new self(" arguments ");")

def toArray (fields : List ModelField) (extra : Option ExtraFields) : Lines :=
  let (required, optional) := (fields.filter (·.required), fields.filter (!·.required))
  let others := "$this->additionalProperties"
  let result := match extra with
    | none => "$data"
    | some x => "$data + " ++ match x.conversion with
      | some (_, dehydrate) => mapValues dehydrate others
      | none => others
  comment [some "@return array<string, mixed>"] ++
    braced "public function toArray(): array"
      (enclose "$data = [" (required.map fun f => f.key ++ " => " ++ f.write.text ++ ",") "];" ++
        optional.flatMap (fun f =>
          clause ("if ($this->" ++ f.name ++ " !== null)")
            ["$data[" ++ f.key ++ "] = " ++ f.write.text ++ ";"]) ++
        ["", "return " ++ result ++ ";"])

def jsonSerialize : Lines :=
  comment [some "@return array<string, mixed>"] ++
    braced "public function jsonSerialize(): array" ["return $this->toArray();"]

end Model

def modelFile (root : String) (e : Entity) : ClassFile :=
  let fields := modelFields root e
  let extra := e.additional.map (.ofValue root)
  { root
    sub := some "Model"
    name := className "Model" e.name
    preamble := classComment e.description e.deprecated
    keyword := "final class"
    heritage := " implements \\JsonSerializable"
    members := spaced <|
      (extra.toList.map fun _ => Model.knownKeys e) ++
        [Model.constructor fields extra, Model.fromArray fields extra, Model.toArray fields extra,
          Model.jsonSerialize] }

end OpenApiClient.Php
