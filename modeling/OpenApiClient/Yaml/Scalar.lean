import OpenApiClient.Json.Reader
import OpenApiClient.Yaml.Cursor

/-!
Scalars as they are written: plain, in quotes, or as a block of lines. Line breaks inside plain and
quoted scalars are folded: a single one becomes a blank, of several all but the first stay.
-/

namespace OpenApiClient.Yaml

inductive ScalarStyle where
  | plain
  | singleQuoted
  | doubleQuoted
  | literal
  | folded
  deriving DecidableEq, Repr

namespace Scalar

/-! ### Folding -/

-- The line breaks and blanks that follow a line break, as the breaks in them. A tab before
-- `indent` is an error.
def moreBreaks (indent : Nat) : Nat → Cursor → Option (List Char × Cursor)
  | 0, c => some ([], c)
  | fuel + 1, c =>
    let (blanks, c') := c.takeWhile isBlank
    if (blanks.take (indent - c.column)).contains '\t' then none
    else if c'.atBreak then do
      let (first, c') := c'.readBreak
      let (others, c') ← moreBreaks indent fuel c'
      pure (first ++ others, c')
    else some ([], c')

-- What a first line break and those after it fold to.
def foldBreaks (first others : List Char) : List Char :=
  if first = ['\n'] then (if others.isEmpty then [' '] else others) else first ++ others

-- A stretch of blanks and line breaks, folded, and whether there was a break in it.
def foldSpace (indent : Nat) (c : Cursor) : Option (List Char × Bool × Cursor) := do
  let (blanks, c) := c.takeWhile isBlank
  if c.atBreak then
    let (first, c) := c.readBreak
    let (others, c) ← moreBreaks indent (c.rest.length + 1) c
    pure (foldBreaks first others, true, c)
  else pure (blanks, false, c)

/-! ### Plain scalars -/

def isFlowBracket (c : Char) : Bool :=
  c == ',' || c == '[' || c == ']' || c == '\x7b' || c == '\x7d'

-- The characters of a plain scalar up to a blank, a line break, a colon before one of these, or
-- a bracket or comma within a flow collection. A colon right before one of the latter is an
-- error.
def plainRun (flow : Bool) : List Char → Option (List Char)
  | [] => some []
  | c :: rest =>
    if isBlank c || isBreak c then some []
    else if c == ':' && flow && rest.head?.any (fun d => isFlowBracket d || d == '?') then none
    else if c == ':' && blankNext rest then some []
    else if flow && isFlowBracket c then some []
    else (plainRun flow rest).map (c :: ·)

-- The rest of a plain scalar, with the place where it ends; the flag says that the scalar is
-- followed by a line break.
def plain (flow : Bool) (indent : Nat) : Nat → Cursor → Option (List Char × Bool × Cursor)
  | 0, _ => none
  | fuel + 1, c => do
    let run ← plainRun flow c.rest
    if run.isEmpty then return ([], false, c)
    let c := c.skip run.length
    if !(c.atBlank || c.atBreak) then return (run, false, c)
    let (space, broken, c) ← foldSpace indent c
    if (!flow && c.column < indent) || c.atDocumentMarker || c.peek? = some '#' then
      return (run, broken, c)
    let (more, brokenLater, c) ← plain flow indent fuel c
    if more.isEmpty then return (run, broken, c)
    pure (run ++ space ++ more, brokenLater, c)

/-! ### Quoted scalars -/

-- The character for the letter of an escape without digits.
def escape? : Char → Option Char
  | '0' => some '\x00'
  | 'a' => some '\x07'
  | 'b' => some '\x08'
  | 't' | '\t' => some '\t'
  | 'n' => some '\n'
  | 'v' => some '\x0b'
  | 'f' => some '\x0c'
  | 'r' => some '\r'
  | 'e' => some '\x1b'
  | ' ' => some ' '
  | '"' => some '"'
  | '/' => some '/'
  | '\\' => some '\\'
  | 'N' => some '\x85'
  | '_' => some '\xa0'
  | 'L' => some '\u2028'
  | 'P' => some '\u2029'
  | _ => none

-- How many hexadecimal digits an escape with this letter has.
def escapeDigits? : Char → Option Nat
  | 'x' => some 2
  | 'u' => some 4
  | 'U' => some 8
  | _ => none

def hexNumber? (digits : List Char) : Option Nat :=
  digits.foldlM (fun n d => (Json.Reader.hexValue? d).map (16 * n + ·)) 0

-- The character that an escape denotes, after its backslash.
def readEscape (c : Cursor) : Option (Char × Cursor) := do
  let letter ← c.peek?
  match escapeDigits? letter with
  | none => pure (← escape? letter, c.skip 1)
  | some n =>
    let digits := (c.rest.drop 1).take n
    let code ← hexNumber? digits
    if digits.length = n ∧ code.isValidChar then pure (Char.ofNat code, c.skip (n + 1)) else none

-- The rest of a scalar in quotes, after the opening one.
def quoted (double : Bool) : Nat → Cursor → Option (List Char × Cursor)
  | 0, _ => none
  | fuel + 1, c =>
    let continueWith (text : List Char) (c : Cursor) := do
      let (more, c) ← quoted double fuel c
      pure (text ++ more, c)
    if c.atDocumentMarker then none
    else if c.atBlank || c.atBreak then do
      let (space, _, c) ← foldSpace 0 c
      continueWith space c
    else
      match double, c.rest with
      | _, [] => none
      | false, '\'' :: '\'' :: _ => continueWith ['\''] (c.skip 2)
      | false, '\'' :: _ => some ([], c.skip 1)
      | true, '"' :: _ => some ([], c.skip 1)
      | true, '\\' :: next :: _ =>
        if isBreak next then do
          -- An escaped line break is none: only further breaks count.
          let c := (c.skip 1).skipBreak
          let (others, c) ← moreBreaks 0 (c.rest.length + 1) c
          continueWith others c
        else do
          let (char, c) ← readEscape (c.skip 1)
          continueWith [char] c
      | true, ['\\'] => none
      | _, char :: _ => continueWith [char] (c.skip 1)

/-! ### Block scalars -/

-- What becomes of the line breaks at the end of a block.
inductive Chomping where
  | strip
  | clip
  | keep
  deriving DecidableEq

def chomping? : Char → Option Chomping
  | '+' => some .keep
  | '-' => some .strip
  | _ => none

-- An indentation of one to nine blanks; zero is an error.
def indentation? (c : Char) : Option Nat :=
  if '1' ≤ c && c ≤ '9' then some (c.toNat - '0'.toNat) else none

-- The indicators after the `|` or `>` of a block, in either order.
def blockHeader (c : Cursor) : Option (Chomping × Option Nat × Cursor) :=
  match c.rest with
  | a :: rest =>
    match chomping? a with
    | some chomping =>
      match rest.head? with
      | some '0' => none
      | some b =>
        match indentation? b with
        | some n => some (chomping, some n, c.skip 2)
        | none => some (chomping, none, c.skip 1)
      | none => some (chomping, none, c.skip 1)
    | none =>
      if a == '0' then none
      else
        match indentation? a with
        | some n =>
          match rest.head?.bind chomping? with
          | some chomping => some (chomping, some n, c.skip 2)
          | none => some (.clip, some n, c.skip 1)
        | none => some (.clip, none, c)
  | [] => some (.clip, none, c)

-- Blanks up to the indentation, if it is known, and the empty lines on the way. Reports the
-- breaks and the widest indentation seen.
def blockBreaks (indent : Option Nat) : Nat → Nat → Cursor → Option (List Char × Nat × Cursor)
  | 0, widest, c => some ([], widest, c)
  | fuel + 1, widest, c =>
    let blanks := (c.rest.takeWhile (· == ' ')).length
    let c := c.skip (match indent with
      | some n => min blanks (n - c.column)
      | none => blanks)
    let widest := max widest c.column
    if c.peek? = some '\t' && indent.all (c.column < ·) then none
    else if c.atBreak then do
      let (first, c) := c.readBreak
      let (others, widest, c) ← blockBreaks indent fuel widest c
      pure (first ++ others, widest, c)
    else some ([], widest, c)

-- The lines of a block with the given indentation. `lineBreak` is the break that ended the line
-- before and `wasBlank` whether that line started with a blank; `emptyLines` are the breaks
-- after it. The text comes with the breaks that are left at its end.
def blockLines (folded : Bool) (indent : Nat) (lineBreak : List Char) (wasBlank : Bool)
    (emptyLines : List Char) :
    Nat → Cursor → Option (List Char × List Char × List Char × Cursor)
  | 0, _ => none
  | fuel + 1, c =>
    if c.column = indent && !c.atEnd then do
      let isBlankLine := c.atBlank
      let joined :=
        if folded && lineBreak == ['\n'] && !wasBlank && !isBlankLine then
          (if emptyLines.isEmpty then [' '] else emptyLines)
        else lineBreak ++ emptyLines
      let (line, c) := c.takeWhile (!isBreak ·)
      let (lineBreak, c) := c.readBreak
      let (emptyLines, _, c) ← blockBreaks (some indent) (c.rest.length + 1) 0 c
      let (text, ends) ← blockLines folded indent lineBreak isBlankLine emptyLines fuel c
      pure (joined ++ line ++ text, ends)
    else some ([], lineBreak, emptyLines, c)

-- A block scalar, after its `|` or `>`, inside a collection with the given indentation.
def block (folded : Bool) (outer : Int) (c : Cursor) : Option (List Char × Cursor) := do
  let (chomping, increment, c) ← blockHeader c
  let c := (← c.skipToLineEnd?).skipBreak
  let known := increment.map fun n => if 0 ≤ outer then outer.toNat + n else n
  let (emptyLines, widest, c) ← blockBreaks known (c.rest.length + 1) 0 c
  let indent := known.getD (max widest (max (outer + 1).toNat 1))
  let (text, lineBreak, emptyLines, c) ←
    blockLines folded indent [] false emptyLines (c.rest.length + 1) c
  let ending := match chomping with
    | .strip => []
    | .clip => lineBreak
    | .keep => lineBreak ++ emptyLines
  pure (text ++ ending, c)

end Scalar

end OpenApiClient.Yaml
