import OpenApiClient.Hint.Basic
import OpenApiClient.Php.Name

/-!
Types in PHP, in the two forms in which they are written: as declarations, where all arrays are one
type, and in comments, where an array says what is in it.
-/

namespace OpenApiClient.Php

-- The type declaration for one alternative; `mixed` and null have none of their own.
def declaredName (root : String) : Hint → Option String
  | .array _ | .untyped => some "array"
  | .float => some "float"
  | .int => some "int"
  | .string => some "string"
  | .bool => some "bool"
  | .model name => some (modelClass root name)
  | .mixed | .null => none

-- The type declaration for a value. `mixed` takes all other alternatives in; a single type that may
-- be null has a question mark.
def declaredType (root : String) (hints : Hints) : String :=
  if hints = [] ∨ .mixed ∈ hints then "mixed"
  else
    let nullable := .null ∈ hints
    match (hints.filterMap (declaredName root)).eraseDups with
    | [] => "mixed"
    | [single] => if nullable then "?" ++ single else single
    | types => "|".intercalate (if nullable then types ++ ["null"] else types)

-- Whether null is one of the types between the bars.
def namesNull (type : String) : Bool :=
  (Text.splitWhere (· == '|') type.toList).contains "null".toList

-- A type that takes null as well.
def nullable (type : String) : String :=
  if type = "mixed" ∨ "?".isPrefixOf type ∨ namesNull type then type
  else if type.contains '|' then type ++ "|null"
  else "?" ++ type

-- The types of the alternatives, with bars between them.
def joinDescribed (hints : Hints) (names : List String) : String :=
  if hints = [] ∨ .mixed ∈ hints then "mixed" else "|".intercalate names.eraseDups

mutual

-- The type of one alternative in a comment.
def describedName (root : String) : Hint → String
  | .basic .untyped => "array<string, mixed>"
  | .basic type => type.name
  | .model name => modelClass root name
  | .array items => "list<" ++ joinDescribed items (describedNames root items) ++ ">"

def describedNames (root : String) : List Hint → List String
  | [] => []
  | hint :: rest => describedName root hint :: describedNames root rest

end

def describedType (root : String) (hints : Hints) : String :=
  joinDescribed hints (describedNames root hints)

end OpenApiClient.Php
