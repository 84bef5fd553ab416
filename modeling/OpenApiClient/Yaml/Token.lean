import OpenApiClient.Yaml.Scalar
import OpenApiClient.Yaml.Tag

/-!
The tokens of a YAML text. Blocks are made explicit: a token says where a list or map begins, and
another where its indentation ends. A key shows only at its colon, so the tokens for a map and its
key are put in front of what was read before.
-/

namespace OpenApiClient.Yaml

inductive Token where
  | version
  | tagHandle (handle : String) (meaning : Tag)
  | documentStart
  | documentEnd
  | blockListStart
  | blockMapStart
  | blockEnd
  | flowListStart
  | flowListEnd
  | flowMapStart
  | flowMapEnd
  | blockEntry
  | flowEntry
  | key
  | value
  | alias (name : String)
  | anchor (name : String)
  | tag (handle : String) (suffix : Tag)
  | scalar (style : ScalarStyle) (text : String)
  deriving DecidableEq, Repr

-- What may turn out to be a key: where it starts, and before which token the key would go. A
-- required one is an error unless it does turn out so.
structure KeyCandidate where
  required : Bool
  position : Nat
  offset : Nat
  line : Nat
  column : Nat

-- The state of reading tokens. There is one candidate for a key on each level of flow
-- collections, innermost first.
structure Lexer where
  cursor : Cursor
  tokens : Array Token
  indent : Int
  outerIndents : List Int
  candidates : List (Option KeyCandidate)
  keyAllowed : Bool
  finished : Bool

namespace Lexer

def start (text : List Char) : Lexer where
  cursor := .start text
  tokens := #[]
  indent := -1
  outerIndents := []
  candidates := [none]
  keyAllowed := true
  finished := false

def inFlow (l : Lexer) : Bool := 1 < l.candidates.length

def emit (l : Lexer) (t : Token) : Lexer := { l with tokens := l.tokens.push t }

-- A token that is made of the next `n` characters.
def emitNext (l : Lexer) (t : Token) (n : Nat) : Lexer :=
  { l.emit t with cursor := l.cursor.skip n }

/-! ### Candidates for keys -/

-- Gives up the candidate of this level.
def dropCandidate? (l : Lexer) : Option Lexer :=
  match l.candidates with
  | some k :: _ => if k.required then none else some { l with candidates := none :: l.candidates.tail }
  | _ => some l

-- Makes what starts here a candidate, if a key may stand here.
def saveCandidate? (l : Lexer) : Option Lexer := do
  if !l.keyAllowed then return l
  let l ← l.dropCandidate?
  let candidate : KeyCandidate := {
    required := !l.inFlow && l.indent == l.cursor.column
    position := l.tokens.size
    offset := l.cursor.offset
    line := l.cursor.line
    column := l.cursor.column }
  pure { l with candidates := some candidate :: l.candidates.tail }

-- A key has to be on one line, and what comes before its colon takes at most 1024 bytes.
def isStale (l : Lexer) (k : KeyCandidate) : Bool :=
  k.line < l.cursor.line || k.offset + 1024 < l.cursor.offset

def expireCandidates? (l : Lexer) : Option Lexer := do
  let candidates ← l.candidates.mapM fun
    | some k => if l.isStale k then (if k.required then none else some none) else some (some k)
    | none => some none
  pure { l with candidates }

/-! ### Blocks -/

-- Begins a block at a column that lies further in than the block around it.
def openBlock (l : Lexer) (column : Nat) (position : Nat) (t : Token) : Lexer :=
  if l.inFlow || column ≤ l.indent then l
  else
    { l with
      indent := column
      outerIndents := l.indent :: l.outerIndents
      tokens := l.tokens.insertIdxIfInBounds position t }

-- Ends all blocks that lie further in than a column.
def closeBlocks (l : Lexer) (column : Int) : Lexer :=
  if l.inFlow then l else go l.outerIndents l
where
  go : List Int → Lexer → Lexer
    | [], l => l
    | outer :: rest, l =>
      if column < l.indent then
        go rest { l.emit .blockEnd with indent := outer, outerIndents := rest }
      else l

/-! ### Spaces, directives, tags -/

-- Past blanks, comments and line breaks. A line break outside flow collections makes a key
-- possible again; where one is possible, a tab is no blank. A byte order mark at the start of a line
-- counts as a blank.
def skipSpace (l : Lexer) : Nat → Lexer
  | 0 => l
  | fuel + 1 =>
    let c := l.cursor
    let c := if c.column = 0 ∧ c.peek? = some '\ufeff' then c.skip 1 else c
    let c := c.skipWhile fun ch => ch == ' ' || (ch == '\t' && (l.inFlow || !l.keyAllowed))
    let c := if c.peek? = some '#' then c.skipWhile (!isBreak ·) else c
    if c.atBreak then
      skipSpace { l with cursor := c.skipBreak, keyAllowed := l.keyAllowed || !l.inFlow } fuel
    else { l with cursor := c }

def versionNumber? (c : Cursor) : Option (Nat × Cursor) :=
  let (digits, c) := c.takeWhile Char.isDigit
  if digits.isEmpty || 9 < digits.length then none else some (Text.natOfDigits digits, c)

-- A tag handle: word characters between exclamation marks. The second mark may be missing unless
-- the handle is being declared.
def tagHandle? (declared : Bool) (c : Cursor) : Option (List Char × Cursor) := do
  if c.peek? ≠ some '!' then none
  let (word, c) := (c.skip 1).takeWhile isWordChar
  if c.peek? = some '!' then pure ('!' :: word ++ ['!'], c.skip 1)
  else if declared && !word.isEmpty then none
  else pure ('!' :: word, c)

def isTagChar (brackets : Bool) (c : Char) : Bool :=
  isWordChar c || ";/?:@&=+$.%!~*'()".toList.contains c || (brackets && ",[]".toList.contains c)

-- A part of a tag, of one character at least if it is required.
def tagPart? (brackets required : Bool) (c : Cursor) : Option (Tag × Cursor) := do
  let (text, c) := c.takeWhile (isTagChar brackets)
  if required && text.isEmpty then none
  pure (← Tag.ofEscaped? text, c)

-- A line that starts with a percent sign: the version, or a handle for tags.
def directive? (l : Lexer) : Option Lexer := do
  let l ← (l.closeBlocks (-1)).dropCandidate?
  let (word, c) := (l.cursor.skip 1).takeWhile isWordChar
  if !blankNext c.rest then none
  let c := c.skipWhile isBlank
  let (token, c) ← if word = "YAML".toList then do
      let (major, c) ← versionNumber? c
      if c.peek? ≠ some '.' then none
      let (minor, c) ← versionNumber? (c.skip 1)
      if major = 1 ∧ (minor = 1 ∨ minor = 2) then pure (Token.version, c) else none
    else if word = "TAG".toList then do
      let (handle, c) ← tagHandle? true c
      if !c.atBlank then none
      let (meaning, c) ← tagPart? true true (c.skipWhile isBlank)
      if !blankNext c.rest then none
      pure (Token.tagHandle (String.ofList handle) meaning, c)
    else none
  let c ← c.skipToLineEnd?
  pure { l.emit token with cursor := c.skipBreak, keyAllowed := false }

-- A tag: verbatim between angle brackets, or a handle and a suffix.
def tag? (l : Lexer) : Option Lexer := do
  let l ← l.saveCandidate?
  let (token, c) ← if l.cursor.rest[1]? = some '<' then do
      let (suffix, c) ← tagPart? true true (l.cursor.skip 2)
      if c.peek? ≠ some '>' then none
      pure (Token.tag "" suffix, c.skip 1)
    else do
      let (handle, c) ← tagHandle? false l.cursor
      let isHandle := 1 < handle.length && handle.getLast? == some '!'
      let (suffix, c) ← tagPart? false isHandle c
      if isHandle then pure (Token.tag (String.ofList handle) suffix, c)
      else
        let suffix := Tag.ofText (String.ofList handle.tail) ++ suffix
        pure (if suffix.bytes.isEmpty then Token.tag "" .mark else .tag "!" suffix, c)
  if !(blankNext c.rest || (l.inFlow && c.peek? = some ',')) then none
  pure { l.emit token with cursor := c, keyAllowed := false }

-- The name of an anchor or alias, after its indicator.
def name? (l : Lexer) (token : String → Token) : Option Lexer := do
  let l ← l.saveCandidate?
  let (name, c) := (l.cursor.skip 1).takeWhile isWordChar
  let ended := blankNext c.rest || c.peek?.any ("?:,]\x7d%@\x60".toList.contains ·)
  if name.isEmpty || !ended then none
  pure { l.emit (token (String.ofList name)) with cursor := c, keyAllowed := false }

/-! ### Tokens -/

def documentMarker? (l : Lexer) (t : Token) : Option Lexer := do
  let l ← (l.closeBlocks (-1)).dropCandidate?
  pure { l.emitNext t 3 with keyAllowed := false }

def flowStart? (l : Lexer) (t : Token) : Option Lexer := do
  let l ← l.saveCandidate?
  pure { l.emitNext t 1 with candidates := none :: l.candidates, keyAllowed := true }

def flowEnd? (l : Lexer) (t : Token) : Option Lexer := do
  let l ← l.dropCandidate?
  let candidates := if l.inFlow then l.candidates.tail else l.candidates
  pure { l.emitNext t 1 with candidates, keyAllowed := false }

def flowEntry? (l : Lexer) : Option Lexer := do
  let l ← l.dropCandidate?
  pure { l.emitNext .flowEntry 1 with keyAllowed := true }

-- Outside flow collections an indicator may begin a block, where a key may stand.
def beginBlock? (l : Lexer) (t : Token) : Option Lexer :=
  if l.inFlow then some l
  else if l.keyAllowed then some (l.openBlock l.cursor.column l.tokens.size t)
  else none

def blockEntry? (l : Lexer) : Option Lexer := do
  let l ← (← l.beginBlock? .blockListStart).dropCandidate?
  pure { l.emitNext .blockEntry 1 with keyAllowed := true }

def key? (l : Lexer) : Option Lexer := do
  let l ← (← l.beginBlock? .blockMapStart).dropCandidate?
  pure { l.emitNext .key 1 with keyAllowed := !l.inFlow }

-- A colon makes a key of the candidate, if there is one; the map that the key begins goes in
-- front of it.
def value? (l : Lexer) : Option Lexer :=
  match l.candidates with
  | some k :: others =>
    let l := { l with tokens := l.tokens.insertIdxIfInBounds k.position .key }
    let l := l.openBlock k.column k.position .blockMapStart
    some { l.emitNext .value 1 with candidates := none :: others, keyAllowed := false }
  | _ => do
    let l ← l.beginBlock? .blockMapStart
    pure { l.emitNext .value 1 with keyAllowed := !l.inFlow }

def blockScalar? (l : Lexer) (folded : Bool) : Option Lexer := do
  let l ← l.dropCandidate?
  let (text, c) ← Scalar.block folded l.indent (l.cursor.skip 1)
  let style := if folded then .folded else .literal
  pure { l.emit (.scalar style (String.ofList text)) with cursor := c, keyAllowed := true }

def quotedScalar? (l : Lexer) (double : Bool) : Option Lexer := do
  let l ← l.saveCandidate?
  let c := l.cursor.skip 1
  let (text, c) ← Scalar.quoted double (c.rest.length + 1) c
  let style := if double then .doubleQuoted else .singleQuoted
  pure { l.emit (.scalar style (String.ofList text)) with cursor := c, keyAllowed := false }

def plainScalar? (l : Lexer) : Option Lexer := do
  let l ← l.saveCandidate?
  let indent := (l.indent + 1).toNat
  let (text, broken, c) ← Scalar.plain l.inFlow indent (l.cursor.rest.length + 1) l.cursor
  pure { l.emit (.scalar .plain (String.ofList text)) with cursor := c, keyAllowed := broken }

-- The end of the text ends all blocks.
def finish? (l : Lexer) : Option Lexer := do
  let l ← (l.closeBlocks (-1)).dropCandidate?
  pure { l with keyAllowed := false, finished := true }

-- A plain scalar starts with no indicator, or with one of three that is followed by more.
def startsPlain (l : Lexer) (c : Char) (rest : List Char) : Bool :=
  if isBlank c then false
  else if c == '-' then !(rest.head?.any isBlank)
  else if c == '?' || c == ':' then !l.inFlow && !blankNext rest
  else !",[]\x7b\x7d#&*!|>'\"%@\x60".toList.contains c

-- The next token, with the blocks that end before it or begin with it.
def next? (l : Lexer) : Option Lexer := do
  let l ← (l.skipSpace (l.cursor.rest.length + 1)).expireCandidates?
  match l.cursor.rest with
  | [] => l.finish?
  | c :: rest =>
    let l := l.closeBlocks l.cursor.column
    let atMarker := l.cursor.atDocumentMarker
    if l.cursor.column == 0 && c == '%' then l.directive?
    else if atMarker && c == '-' then l.documentMarker? .documentStart
    else if atMarker then l.documentMarker? .documentEnd
    else if c == '[' then l.flowStart? .flowListStart
    else if c == '\x7b' then l.flowStart? .flowMapStart
    else if c == ']' then l.flowEnd? .flowListEnd
    else if c == '\x7d' then l.flowEnd? .flowMapEnd
    else if c == ',' then l.flowEntry?
    else if c == '-' && blankNext rest then l.blockEntry?
    else if c == '?' && (l.inFlow || blankNext rest) then l.key?
    else if c == ':' && (l.inFlow || blankNext rest) then l.value?
    else if c == '*' then l.name? .alias
    else if c == '&' then l.name? .anchor
    else if c == '!' then l.tag?
    else if c == '|' && !l.inFlow then l.blockScalar? false
    else if c == '>' && !l.inFlow then l.blockScalar? true
    else if c == '\'' then l.quotedScalar? false
    else if c == '"' then l.quotedScalar? true
    else if l.startsPlain c rest then l.plainScalar?
    else none

-- Reads on to the end of the text; every token but the last takes a character at least.
def run? : Nat → Lexer → Option (Array Token)
  | 0, _ => none
  | fuel + 1, l => do
    let l ← l.next?
    if l.finished then pure l.tokens else run? fuel l

end Lexer

-- The tokens of a text; `none` if it is no YAML.
def tokens? (text : List Char) : Option (List Token) := do
  if !text.all isPermitted then none
  let tokens ← (Lexer.start text).run? (text.length + 1)
  pure tokens.toList

end OpenApiClient.Yaml
