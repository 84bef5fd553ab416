import OpenApiClient.Client.Entity
import OpenApiClient.Php.ClassFile
import OpenApiClient.Php.Literal

/-!
The class for an enum. Cases of one type make an enum of the language; others make a class with one
instance for each case.
-/

namespace OpenApiClient.Php

-- What no case of a backed enum can be called, whatever the case of its letters.
def reservedCases : List String := ["class"]

-- What no case of a class with instances can be called: the names of its methods.
def reservedInstances : List String :=
  ["class", "from", "tryfrom", "cases", "jsonserialize", "instance"]

structure DeclaredCase where
  name : String
  -- The label, as a literal.
  key : String
  literal : String
  deriving DecidableEq, Repr

namespace DeclaredCase

-- Declares a case after others. Its name stays apart from theirs even when the case of letters
-- does not count.
def add (reserved : List String) (declared : List DeclaredCase) (c : EnumCase) :
    List DeclaredCase :=
  let base := if Naming.foldCase c.label ∈ reserved then c.label ++ "Case" else c.label
  let taken := declared.map (Naming.foldCase ·.name)
  declared ++ [{
    name := Naming.firstFree Naming.foldCase taken base
    key := string c.label
    literal := Php.literal c.value }]

def ofCases (reserved : List String) (cases : List EnumCase) : List DeclaredCase :=
  cases.foldl (add reserved) []

end DeclaredCase

-- The types of the values, each of them once.
def valueType (cases : List EnumCase) : String :=
  match (cases.map (literalType ·.value)).eraseDups with
  | [] => "string"
  | types => "|".intercalate types

-- An enum whose cases all have values of one type.
def backedEnumFile (root : String) (e : Entity) (type : String) : ClassFile where
  root
  sub := some "Model"
  name := className "Model" e.name
  preamble := classComment e.description e.deprecated
  keyword := "enum"
  heritage := ": " ++ type
  members := (DeclaredCase.ofCases reservedCases e.cases).map fun c =>
    "case " ++ c.name ++ " = " ++ c.literal ++ ";"

namespace Instances

def explanation : String :=
  "Cases are created once; \x60from()\x60 returns the same instance for the same literal."

def classLines (e : Entity) : Lines :=
  let described := match nonempty e.description with
    | some text => [some (commentText text), none]
    | none => []
  let deprecated := if e.deprecated then [none, some "@deprecated"] else []
  comment (described ++ [some explanation] ++ deprecated)

def table (type : String) (cases : List DeclaredCase) : Lines :=
  ["/** @var array<string, " ++ type ++ "> */"] ++
    enclose "private const CASES = [" (cases.map fun c => c.key ++ " => " ++ c.literal ++ ",") "];"

def cache : Lines := ["/** @var array<string, self> */", "private static array $instances = [];"]

def constructor (type : String) : Lines :=
  braced ("private function __construct(public readonly " ++ type ++ " $value)") []

def accessor (c : DeclaredCase) : Lines :=
  braced ("public static function " ++ c.name ++ "(): self")
    ["return self::instance(" ++ c.key ++ ");"]

def fromLiteral (type : String) : Lines :=
  braced ("public static function from(" ++ type ++ " $value): self")
    ["return self::tryFrom($value)",
      "    ?? throw new \\ValueError(sprintf('%s is not a valid value for %s', " ++
        "var_export($value, true), self::class));"]

def tryFrom (type : String) : Lines :=
  braced ("public static function tryFrom(" ++ type ++ " $value): ?self")
    (clause "foreach (self::CASES as $label => $literal)"
      (clause "if ($literal === $value)" ["return self::instance($label);"]) ++
      ["", "return null;"])

def allCases : Lines :=
  comment [some "@return list<self>"] ++
    braced "public static function cases(): array"
      ["return array_map(self::instance(...), array_keys(self::CASES));"]

def jsonSerialize (type : String) : Lines :=
  braced ("public function jsonSerialize(): " ++ type) ["return $this->value;"]

def instanceLines : Lines :=
  braced "private static function instance(string $label): self"
    ["return self::$instances[$label] ??= new self(self::CASES[$label]);"]

end Instances

-- A class with one instance for each case.
def instancesFile (root : String) (e : Entity) : ClassFile :=
  let type := valueType e.cases
  let cases := DeclaredCase.ofCases reservedInstances e.cases
  { root
    sub := some "Model"
    name := className "Model" e.name
    preamble := Instances.classLines e
    keyword := "final class"
    heritage := " implements \\JsonSerializable"
    members := spaced <|
      [Instances.table type cases, Instances.cache, Instances.constructor type] ++
        cases.map Instances.accessor ++
        [Instances.fromLiteral type, Instances.tryFrom type, Instances.allCases,
          Instances.jsonSerialize type, Instances.instanceLines] }

-- The class for an enum; `none` if the entity is not one.
def enumFile? (root : String) (e : Entity) : Option ClassFile :=
  match e.kind with
  | .stringEnum => some (backedEnumFile root e "string")
  | .intEnum => some (backedEnumFile root e "int")
  | .mixedEnum => some (instancesFile root e)
  | .object | .array | .primitive => none

end OpenApiClient.Php
