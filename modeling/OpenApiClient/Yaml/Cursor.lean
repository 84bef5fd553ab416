/-!
A place in a YAML text: the characters that follow it, and where it is in the text and on its line.
Lines end with a line feed, a carriage return, both, or one of three line separators of Unicode.
-/

namespace OpenApiClient.Yaml

def isBreak (c : Char) : Bool :=
  c == '\n' || c == '\r' || c == '\x85' || c == '\u2028' || c == '\u2029'

def isBlank (c : Char) : Bool := c == ' ' || c == '\t'

-- The characters that names of anchors, tags and directives are made of.
def isWordChar (c : Char) : Bool := c.isAlphanum || c == '_' || c == '-'

-- The characters that a text may hold at all.
def isPermitted (c : Char) : Bool :=
  c == '\t' || c == '\n' || c == '\r' || (' ' ≤ c && c ≤ '~') || c == '\x85' ||
    ('\u00a0' ≤ c && c ≤ '\ufffd') || 0x10000 ≤ c.toNat

def blankNext : List Char → Bool
  | [] => true
  | c :: _ => isBlank c || isBreak c

def byteLength (s : List Char) : Nat := s.foldl (fun n c => n + c.utf8Size) 0

structure Cursor where
  rest : List Char
  -- The number of bytes before this place.
  offset : Nat
  line : Nat
  -- The number of characters before it on its line.
  column : Nat

namespace Cursor

def start (text : List Char) : Cursor := ⟨text, 0, 0, 0⟩

def peek? (c : Cursor) : Option Char := c.rest.head?

-- Past `n` characters of the line.
def skip (c : Cursor) (n : Nat) : Cursor :=
  { c with
    rest := c.rest.drop n
    offset := c.offset + byteLength (c.rest.take n)
    column := c.column + n }

-- The longest stretch of characters that satisfy `p`, none of which ends a line.
def takeWhile (p : Char → Bool) (c : Cursor) : List Char × Cursor :=
  let taken := c.rest.takeWhile p
  (taken, c.skip taken.length)

def skipWhile (p : Char → Bool) (c : Cursor) : Cursor := (c.takeWhile p).2

-- At the start of the next line, after the `n` characters that end this one.
def nextLine (c : Cursor) (n : Nat) : Cursor :=
  { rest := c.rest.drop n
    offset := c.offset + byteLength (c.rest.take n)
    line := c.line + 1
    column := 0 }

-- A line break as the text that it stands for, or nothing if there is none. The separators of
-- Unicode stand for themselves, all other breaks for a line feed.
def readBreak (c : Cursor) : List Char × Cursor :=
  match c.rest with
  | '\r' :: '\n' :: _ => (['\n'], c.nextLine 2)
  | b :: _ =>
    if b == '\u2028' || b == '\u2029' then ([b], c.nextLine 1)
    else if isBreak b then (['\n'], c.nextLine 1)
    else ([], c)
  | [] => ([], c)

def skipBreak (c : Cursor) : Cursor := c.readBreak.2

def atBreak (c : Cursor) : Bool := c.peek?.any isBreak

def atBlank (c : Cursor) : Bool := c.peek?.any isBlank

def atEnd (c : Cursor) : Bool := c.rest.isEmpty

-- Whether a line starts here with `---` or `...` and no more.
def atDocumentMarker (c : Cursor) : Bool :=
  c.column == 0 &&
    match c.rest with
    | '-' :: '-' :: '-' :: rest => blankNext rest
    | '.' :: '.' :: '.' :: rest => blankNext rest
    | _ => false

-- Past blanks and a comment, up to the end of the line; `none` if there is anything else.
def skipToLineEnd? (c : Cursor) : Option Cursor :=
  let c := c.skipWhile isBlank
  let c := if c.peek? = some '#' then c.skipWhile (!isBreak ·) else c
  if c.atEnd || c.atBreak then some c else none

end Cursor

end OpenApiClient.Yaml
