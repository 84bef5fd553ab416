import OpenApiClient.Json.Writer
import OpenApiClient.Yaml.Reader

/-!
Writing a value as YAML, in blocks. Text is written plain where that reads as the same text, else in
single quotes, else in double ones; text of several lines is a literal block where it can be one.
-/

namespace OpenApiClient.Yaml.Writer

/-! ### The style of a text -/

-- The characters that need no escape.
def isPrintable (c : Char) : Bool :=
  c == '\n' || (' ' ≤ c && c ≤ '~') ||
    ('\xa0' ≤ c && c ≠ '\ufeff' && c ≠ '\ufffe' && c ≠ '\uffff')

-- The characters that cannot start plain text, whatever follows.
def isIndicator (c : Char) : Bool :=
  ['#', ',', '[', ']', '\x7b', '\x7d', '&', '*', '!', '|', '>', '\'', '"', '%', '@', '`'].contains c

def isSpaceOrEnd : Option Char → Bool
  | none => true
  | some c => isBlank c || isBreak c

-- Whether the text after its first character, `before`, would end or become a comment.
def hasIndicator (before : Char) : List Char → Bool
  | [] => false
  | c :: rest =>
    (c == ':' && isSpaceOrEnd rest.head?) || (c == '#' && isSpaceOrEnd (some before)) ||
      hasIndicator c rest

-- Whether something in the text would be read as more than text.
def hasIndicators (s : List Char) : Bool :=
  match s with
  | [] => false
  | c :: rest =>
    ['-', '-', '-'].isPrefixOf s || ['.', '.', '.'].isPrefixOf s || isIndicator c ||
      ((c == '?' || c == ':' || c == '-') && isSpaceOrEnd rest.head?) || hasIndicator c rest

-- Whether two neighbours in the text are of the given kinds.
def hasNeighbours (first second : Char → Bool) : List Char → Bool
  | c :: d :: rest => first c && second d || hasNeighbours first second (d :: rest)
  | _ => false

def isSpace (c : Char) : Bool := c == ' '

def isSpaceOrBreak (c : Char) : Bool := isSpace c || isBreak c

-- What is wrong with blanks at the end of a line, and with what cannot be seen.
def needsEscapes (s : List Char) : Bool :=
  hasNeighbours isSpace isBreak s || !s.all isPrintable

def allowsPlain (s : List Char) : Bool :=
  !s.isEmpty && !s.head?.any isSpaceOrBreak && !s.getLast?.any isSpaceOrBreak && !s.any isBreak &&
    !needsEscapes s && !hasIndicators s

def allowsSingleQuotes (s : List Char) : Bool :=
  !hasNeighbours isBreak isSpace s && !needsEscapes s

def allowsLiteral (s : List Char) : Bool :=
  !s.getLast?.any isSpace && !needsEscapes s

-- Whether plain text would be taken for something else, or for a number by other readers.
def readsOtherwise (s : List Char) : Bool :=
  plainAtom? s ≠ some (.string (String.ofList s)) || hasLeadingZero (splitSign s).2

def styleOf (s : List Char) : ScalarStyle :=
  if s.contains '\n' then
    if allowsLiteral s then .literal else .doubleQuoted
  else if !readsOtherwise s && allowsPlain s then .plain
  else if allowsSingleQuotes s then .singleQuoted
  else .doubleQuoted

/-! ### The text in a style -/

-- A line break in single quotes is followed by the indentation of the next line.
def singleQuotedBody (pad : List Char) (afterBreak : Bool) : List Char → List Char
  | [] => if afterBreak then pad else []
  | c :: rest =>
    if isBreak c then c :: singleQuotedBody pad true rest
    else
      (if afterBreak then pad else []) ++ (if c = '\'' then ['\'', '\''] else [c]) ++
        singleQuotedBody pad false rest

-- The hexadecimal digits of a number, as many as are asked for.
def paddedHex (width n : Nat) : List Char :=
  let digits := (Nat.toDigits 16 n).map Char.toUpper
  List.replicate (width - digits.length) '0' ++ digits

def escapeChar (c : Char) : List Char :=
  match c with
  | '"' => ['\\', '"']
  | '\\' => ['\\', '\\']
  | '\x00' => ['\\', '0']
  | '\x07' => ['\\', 'a']
  | '\x08' => ['\\', 'b']
  | '\t' => ['\\', 't']
  | '\n' => ['\\', 'n']
  | '\x0b' => ['\\', 'v']
  | '\x0c' => ['\\', 'f']
  | '\r' => ['\\', 'r']
  | '\x1b' => ['\\', 'e']
  | '\x85' => ['\\', 'N']
  | '\u2028' => ['\\', 'L']
  | '\u2029' => ['\\', 'P']
  | c =>
    if isPrintable c then [c]
    else if c.toNat < 256 then '\\' :: 'x' :: paddedHex 2 c.toNat
    else '\\' :: 'u' :: paddedHex 4 c.toNat

-- The lines of a literal block, each with its indentation unless it is empty.
def literalBody (pad : List Char) (afterBreak : Bool) : List Char → List Char
  | [] => []
  | c :: rest =>
    if isBreak c then c :: literalBody pad true rest
    else (if afterBreak then pad else []) ++ c :: literalBody pad false rest

-- What follows the `|` of a block: the indentation, when the text itself starts with a blank,
-- and what becomes of the breaks at its end.
def literalHints (s : List Char) : List Char :=
  let indentation := if s.head?.any isSpaceOrBreak then ['2'] else []
  let chomping := match s.reverse with
    | [] => ['-']
    | last :: rest =>
      if !isBreak last then ['-']
      else if rest.head?.all isBreak then ['+']
      else []
  indentation ++ chomping

def blanks (n : Nat) : List Char := List.replicate n ' '

-- A text in a collection with the given indentation, without the end of its line unless it is a
-- block that brings its own.
def textIn (indent : Nat) (s : List Char) : List Char :=
  let pad := blanks (indent + 2)
  match styleOf s with
  | .literal => '|' :: literalHints s ++ ['\n'] ++ literalBody pad true s
  | .singleQuoted => '\'' :: singleQuotedBody pad false s ++ ['\'']
  | .doubleQuoted => '"' :: s.flatMap escapeChar ++ ['"']
  | .plain | .folded => s

-- The same with the end of its line.
def textLine (indent : Nat) (s : List Char) : List Char :=
  let text := textIn indent s
  if styleOf s = .literal && s.getLast?.any isBreak then text else text ++ ['\n']

/-! ### Collections -/

-- A key that may stand before a colon: one line of no more than 128 bytes.
def isSimpleKey (s : List Char) : Bool :=
  !s.any isBreak && byteLength s ≤ 128

open Json (Value)

-- A value without parts.
def scalarLine (indent : Nat) : Value → List Char
  | .string s => textLine indent s.toList
  | .null => "null\n".toList
  | .bool b => (if b then "true\n" else "false\n").toList
  | .number n => n.text ++ ['\n']
  | .array _ => ['[', ']', '\n']
  | .object _ => ['\x7b', '\x7d', '\n']

-- A key and its colon.
def keyText (indent : Nat) (key : List Char) : List Char :=
  if isSimpleKey key then textIn indent key ++ [':']
  else '?' :: ' ' :: textLine indent key ++ blanks indent ++ [':']

-- Where a value stands: for itself, or after a dash or colon.
inductive Position where
  | root
  -- After a dash, or a colon on a line of its own.
  | marked
  -- After the colon of a simple key.
  | keyed

namespace Position

-- What is between a value on one line and what it follows.
def lead : Position → List Char
  | root => []
  | marked | keyed => [' ']

-- The same for a list, with the indentation of its lines. Under a simple key it is not indented.
def leadItems (indent : Nat) : Position → List Char × Nat
  | root => ([], indent)
  | marked => ([' '], indent + 2)
  | keyed => ('\n' :: blanks indent, indent)

-- The same for a map.
def leadMembers (indent : Nat) : Position → List Char × Nat
  | root => ([], indent)
  | marked => ([' '], indent + 2)
  | keyed => ('\n' :: blanks (indent + 2), indent + 2)

end Position

mutual

-- A value in a collection with the given indentation.
def block (position : Position) (indent : Nat) : Value → List Char
  | .array items =>
    let (lead, inner) := position.leadItems indent
    if items.isEmpty then position.lead ++ scalarLine indent (.array [])
    else lead ++ blockItems inner items
  | .object members =>
    let (lead, inner) := position.leadMembers indent
    if members.isEmpty then position.lead ++ scalarLine indent (.object [])
    else lead ++ blockMembers inner members
  | v => position.lead ++ scalarLine indent v

def blockItems (indent : Nat) : List Value → List Char
  | [] => []
  | v :: rest =>
    let item := '-' :: block .marked indent v
    if rest.isEmpty then item else item ++ blanks indent ++ blockItems indent rest

def blockMembers (indent : Nat) : List (String × Value) → List Char
  | [] => []
  | (key, v) :: rest =>
    let position := if isSimpleKey key.toList then .keyed else .marked
    let member := keyText indent key.toList ++ block position indent v
    if rest.isEmpty then member else member ++ blanks indent ++ blockMembers indent rest

end

end OpenApiClient.Yaml.Writer

namespace OpenApiClient.Json.Value

def renderYaml (v : Value) : String := String.ofList (Yaml.Writer.block .root 0 v)

end OpenApiClient.Json.Value
