import OpenApiClient.Json.Basic

/-!
JSON text: compact, or laid out over lines with an indentation of two blanks.
-/

namespace OpenApiClient.Json

def hexDigit (n : Nat) : Char := Nat.digitChar (n % 16)

-- The quote, the backslash and the control characters are escaped, and nothing else.
def escapeChar (c : Char) : List Char :=
  match c with
  | '"' => ['\\', '"']
  | '\\' => ['\\', '\\']
  | '\x08' => ['\\', 'b']
  | '\x0c' => ['\\', 'f']
  | '\n' => ['\\', 'n']
  | '\r' => ['\\', 'r']
  | '\t' => ['\\', 't']
  | c =>
    if c.toNat < 32 then ['\\', 'u', '0', '0', hexDigit (c.toNat / 16), hexDigit c.toNat] else [c]

def stringText (s : String) : List Char :=
  '"' :: s.toList.flatMap escapeChar ++ ['"']

def intText (n : Int) : List Char :=
  if n < 0 then '-' :: Nat.toDigits 10 n.natAbs else Nat.toDigits 10 n.natAbs

def Number.text : Number → List Char
  | .int n => intText n
  | .float x => NumberStyle.json.write x

namespace Value

mutual

-- The text without any white space.
def compact : Value → List Char
  | .null => ['n', 'u', 'l', 'l']
  | .bool true => ['t', 'r', 'u', 'e']
  | .bool false => ['f', 'a', 'l', 's', 'e']
  | .number n => n.text
  | .string s => stringText s
  | .array items => '[' :: compactItems items ++ [']']
  | .object members => '\x7b' :: compactMembers members ++ ['\x7d']

def compactItems : List Value → List Char
  | [] => []
  | [v] => v.compact
  | v :: rest => v.compact ++ ',' :: compactItems rest

def compactMembers : List (String × Value) → List Char
  | [] => []
  | [(k, v)] => stringText k ++ ':' :: v.compact
  | (k, v) :: rest => stringText k ++ ':' :: v.compact ++ ',' :: compactMembers rest

end

-- A line break and the indentation of a level.
def newline (level : Nat) : List Char :=
  '\n' :: List.replicate (2 * level) ' '

mutual

-- One item or member a line; an empty array or object stays on its line.
def pretty (level : Nat) : Value → List Char
  | .array [] => ['[', ']']
  | .array items => '[' :: prettyItems (level + 1) items ++ newline level ++ [']']
  | .object [] => ['\x7b', '\x7d']
  | .object members => '\x7b' :: prettyMembers (level + 1) members ++ newline level ++ ['\x7d']
  | v => v.compact

def prettyItems (level : Nat) : List Value → List Char
  | [] => []
  | [v] => newline level ++ v.pretty level
  | v :: rest => newline level ++ v.pretty level ++ ',' :: prettyItems level rest

def prettyMembers (level : Nat) : List (String × Value) → List Char
  | [] => []
  | [(k, v)] => newline level ++ stringText k ++ ':' :: ' ' :: v.pretty level
  | (k, v) :: rest =>
    newline level ++ stringText k ++ ':' :: ' ' :: v.pretty level ++
      ',' :: prettyMembers level rest

end

def render (v : Value) : String := String.ofList v.compact

def renderPretty (v : Value) : String := String.ofList (v.pretty 0)

end Value

end OpenApiClient.Json
