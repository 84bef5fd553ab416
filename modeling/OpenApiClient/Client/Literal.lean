import OpenApiClient.Document.Schema
import OpenApiClient.Json.Writer
import OpenApiClient.Naming.Apart
import OpenApiClient.Text.Casing
import OpenApiClient.Text.Quoted
import OpenApiClient.Text.Replace

/-!
The values of an enum, and the cases that stand for them: each value has one case, which is found by a key made from the
value, and each case a label of its own.
-/

namespace OpenApiClient

inductive Literal where
  | string (value : String)
  | int (value : Int)
  | float (value : Binary64)
  | bool (value : Bool)
  deriving DecidableEq, Repr

namespace Literal

-- The literal for a scalar of JSON. An integer beyond 64 bits is a float.
def ofJson? : Json.Value → Option Literal
  | .string s => some (.string s)
  | .bool b => some (.bool b)
  | .number (.int n) =>
    if n < Nat.pow 2 63 then some (.int n) else some (.float (.ofNat n.natAbs))
  | .number (.float x) => some (.float x)
  | .null | .array _ | .object _ => none

-- A number as a part of a name.
def numberLabel (text : List Char) : String :=
  let spelled := Text.replaceAll ['-'] "Minus".toList text
  String.ofList ("Value".toList ++ Text.replaceAll ['.'] ['_'] spelled)

-- The text of a string in one word; what would be empty or start with a digit gets a word before
-- it.
def stringLabel (text : List Char) : String :=
  match Text.pascalCase text with
  | [] => "Empty"
  | c :: rest => if c.isDigit then String.ofList ("Value".toList ++ c :: rest) else String.ofList (c :: rest)

-- What a case for the literal would be called.
def label : Literal → String
  | .string s => stringLabel s.toList
  | .int n => numberLabel (Json.intText n)
  | .float x => numberLabel (NumberStyle.plain.write x)
  | .bool true => "True"
  | .bool false => "False"

def boolText (b : Bool) : String := if b then "true" else "false"

-- The value as text.
def text : Literal → String
  | .string s => s
  | .int n => String.ofList (Json.intText n)
  | .float x => String.ofList (NumberStyle.plain.write x)
  | .bool b => boolText b

-- The letter for the kind of a literal.
def mark : Literal → String
  | .string _ => "s"
  | .int _ => "i"
  | .float _ => "f"
  | .bool _ => "b"

-- The value as text, with a letter for its kind: one text may stand for values of several kinds.
def key (l : Literal) : String := l.mark ++ ":" ++ l.text

-- The literal for display.
def display : Literal → String
  | .string s => String.ofList (Text.quoted s.toList)
  | .int n => String.ofList (Json.intText n)
  | .float x => String.ofList (NumberStyle.literal.write x)
  | .bool b => boolText b

end Literal

structure EnumCase where
  label : String
  value : Literal
  deriving DecidableEq, Repr

-- The cases of an enum, and for the key of each literal the position of its case.
structure EnumTable where
  cases : List EnumCase := []
  positions : List (String × Nat) := []

namespace EnumTable

def lookup? (t : EnumTable) (value : Literal) : Option EnumCase :=
  (t.positions.lookup value.key).bind (t.cases[·]?)

-- Adds a case for a literal that has none.
def add (t : EnumTable) (value : Literal) : EnumTable :=
  match t.positions.lookup value.key with
  | some _ => t
  | none => {
      cases := t.cases ++ [{ label := Naming.firstFree id (t.cases.map (·.label)) value.label, value }]
      positions := (value.key, t.cases.length) :: t.positions }

def ofLiterals (literals : List Literal) : EnumTable := literals.foldl add {}

-- Null has no case, and there are none at all if a value is a list or a map.
def ofValues (values : List Json.Value) : EnumTable :=
  ofLiterals ((Schema.scalarValues values).filterMap Literal.ofJson?)

end EnumTable

def EnumCase.ofValues (values : List Json.Value) : List EnumCase := (EnumTable.ofValues values).cases

end OpenApiClient
