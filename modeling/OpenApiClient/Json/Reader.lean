import OpenApiClient.Source.Basic
import OpenApiClient.Text.Unsigned

/-!
Reading JSON text. The text must be JSON to the letter: no comments, no commas at an end, no
control characters in strings, no leading zeros, nothing after the value. What is well-formed and
still has no value (half of a surrogate pair, a number beyond all bounds, more than 127 levels)
becomes an unreadable source.
-/

namespace OpenApiClient.Json.Reader

open Text

def isSpace (c : Char) : Bool := c == ' ' || c == '\n' || c == '\t' || c == '\r'

def skipSpace (s : List Char) : List Char := s.dropWhile isSpace

/-! ### Numbers -/

def maxSignificand : Nat := Nat.pow 2 64 - 1

-- The digits read so far as `significand · 10 ^ exponent`. A digit that would take the
-- significand past 64 bits is dropped, and so are all after it.
structure Magnitude where
  significand : Nat
  exponent : Int
  full : Bool

namespace Magnitude

-- A digit before the point.
def addWhole (m : Magnitude) (c : Char) : Magnitude :=
  let significand := 10 * m.significand + digitValue c
  if m.full || maxSignificand < significand then
    { m with exponent := m.exponent + 1, full := true }
  else { m with significand }

-- A digit after the point.
def addFraction (m : Magnitude) (c : Char) : Magnitude :=
  let significand := 10 * m.significand + digitValue c
  if m.full || maxSignificand < significand then { m with full := true }
  else { m with significand, exponent := m.exponent - 1 }

def ofDigits (whole fraction : List Char) : Magnitude :=
  let m := whole.foldl addWhole ⟨0, 0, false⟩
  fraction.foldl addFraction { m with full := false }

-- The value in floating point: the significand is rounded, then multiplied or divided by a power
-- of ten, which rounds once more; a division by more than `10 ^ 308` is done in steps.
def toFloat? (m : Magnitude) : Option Binary64 :=
  let step (x : Binary64) (exponent : Int) : Option Binary64 := do
    let power ← Binary64.ofDecimal 1 exponent.natAbs
    if 0 ≤ exponent then x.mul power else x.div power
  match Binary64.ofRatio m.significand 1 with
  | none => none
  | some x =>
    if m.exponent.natAbs ≤ 308 then step x m.exponent
    else if x.isZero then some x
    else if 0 < m.exponent then none
    else if -616 ≤ m.exponent then do step (← step x (-308)) (m.exponent + 308)
    else some Binary64.zero

end Magnitude

-- An exponent past 31 bits makes a number zero or puts it beyond all bounds.
def maxExponent : Nat := Nat.pow 2 31 - 1

-- The parts of a number as they are written.
structure Numeral where
  negative : Bool
  whole : List Char
  fraction : Option (List Char)
  exponent : Option (Bool × List Char)

namespace Numeral

-- The floating-point value; `none` if it is out of range.
def toFloat? (n : Numeral) : Option Binary64 := do
  let m := Magnitude.ofDigits n.whole (n.fraction.getD [])
  let x ← match n.exponent with
    | none => m.toFloat?
    | some (negative, digits) =>
      let e := natOfDigits digits
      if e ≤ maxExponent then
        Magnitude.toFloat?
          { m with exponent := m.exponent + (if negative then -(e : Int) else e) }
      else if m.significand = 0 ∨ negative then some Binary64.zero
      else none
  pure (if n.negative then x.neg else x)

-- A numeral without point and exponent is an integer if 64 bits hold it, signed or unsigned. A
-- negative zero is not: only a floating-point number has one.
def toNumber? (n : Numeral) : Option Number :=
  let value := natOfDigits n.whole
  if n.fraction.isNone ∧ n.exponent.isNone ∧
      (if n.negative then 0 < value ∧ value ≤ Nat.pow 2 63 else value ≤ maxSignificand) then
    some (.int (if n.negative then -(value : Int) else value))
  else
    n.toFloat?.map .float

end Numeral

def takeDigits (s : List Char) : List Char × List Char := s.span isAsciiDigit

-- The fraction after a point needs a digit.
def readFraction : List Char → Option (Option (List Char) × List Char)
  | '.' :: rest =>
    match takeDigits rest with
    | ([], _) => none
    | (digits, rest) => some (some digits, rest)
  | s => some (none, s)

-- The exponent needs a digit, after its sign if it has one.
def readExponent : List Char → Option (Option (Bool × List Char) × List Char)
  | c :: rest =>
    if c == 'e' || c == 'E' then
      let (negative, rest) := match rest with
        | '-' :: rest => (true, rest)
        | '+' :: rest => (false, rest)
        | rest => (false, rest)
      match takeDigits rest with
      | ([], _) => none
      | (digits, rest) => some (some (negative, digits), rest)
    else some (none, c :: rest)
  | [] => some (none, [])

def readNumeral (s : List Char) : Option (Numeral × List Char) := do
  let (negative, s) := match s with
    | '-' :: rest => (true, rest)
    | s => (false, s)
  let (whole, s) := takeDigits s
  match whole with
  | [] => none
  | '0' :: _ :: _ => none
  | whole =>
    let (fraction, s) ← readFraction s
    let (exponent, s) ← readExponent s
    pure (⟨negative, whole, fraction, exponent⟩, s)

/-! ### Strings -/

def hexValue? (c : Char) : Option Nat :=
  if '0' ≤ c && c ≤ '9' then some (c.toNat - '0'.toNat)
  else if 'a' ≤ c && c ≤ 'f' then some (c.toNat - 'a'.toNat + 10)
  else if 'A' ≤ c && c ≤ 'F' then some (c.toNat - 'A'.toNat + 10)
  else none

-- The number that four hexadecimal digits denote.
def hex4? (a b c d : Char) : Option Nat := do
  pure ((((← hexValue? a) * 16 + (← hexValue? b)) * 16 + (← hexValue? c)) * 16 + (← hexValue? d))

def isHighSurrogate (n : Nat) : Bool := 0xD800 ≤ n && n < 0xDC00

def isLowSurrogate (n : Nat) : Bool := 0xDC00 ≤ n && n < 0xE000

def combineSurrogates (high low : Nat) : Char :=
  Char.ofNat (0x10000 + (high - 0xD800) * 0x400 + (low - 0xDC00))

-- The character for the letter of a short escape.
def shortEscape? : Char → Option Char
  | '"' => some '"'
  | '\\' => some '\\'
  | '/' => some '/'
  | 'b' => some '\x08'
  | 'f' => some '\x0c'
  | 'n' => some '\n'
  | 'r' => some '\r'
  | 't' => some '\t'
  | _ => none

-- A character of a string, or the UTF-16 unit that an escape with four digits denotes.
inductive StringPart where
  | char (c : Char)
  | unit (n : Nat)

-- The rest of a string after its opening quote.
def readParts : List Char → Option (List StringPart × List Char)
  | [] => none
  | '"' :: rest => some ([], rest)
  | '\\' :: 'u' :: a :: b :: c :: d :: rest => do
    let unit ← hex4? a b c d
    let (parts, rest) ← readParts rest
    pure (.unit unit :: parts, rest)
  | '\\' :: c :: rest => do
    let escaped ← shortEscape? c
    let (parts, rest) ← readParts rest
    pure (.char escaped :: parts, rest)
  | c :: rest => do
    if c.toNat < 32 || c == '\\' then none
    let (parts, rest) ← readParts rest
    pure (.char c :: parts, rest)

-- The text that the parts denote: two surrogates are one character, and one alone is none.
def textOf : List StringPart → Option (List Char)
  | [] => some []
  | .char c :: rest => (textOf rest).map (c :: ·)
  | .unit high :: .unit low :: rest =>
    if isHighSurrogate high && isLowSurrogate low then
      (textOf rest).map (combineSurrogates high low :: ·)
    else if isHighSurrogate high || isLowSurrogate high then none
    else (textOf (.unit low :: rest)).map (Char.ofNat high :: ·)
  | .unit n :: rest =>
    if isHighSurrogate n || isLowSurrogate n then none
    else (textOf rest).map (Char.ofNat n :: ·)

-- The rest of a string after its opening quote. The content is `none` if an escape in it denotes
-- no character.
def readString (s : List Char) : Option (Option (List Char) × List Char) :=
  (readParts s).map fun (parts, rest) => (textOf parts, rest)

/-! ### Values -/

-- The most levels of arrays and objects that a value can have.
def maxDepth : Nat := 127

-- An array or object at a level, which is too deep to be read past the limit.
def nested (depth : Nat) (s : Source) : Source :=
  if depth ≤ maxDepth then s else .unreadable

-- An object; a key that is no text spoils all of it.
def objectOf (members : List (Option String × Source)) : Source :=
  if members.all (·.1.isSome) then
    .map (members.map fun (k, v) => (.string (k.getD ""), v))
  else .unreadable

def expect (word : List Char) (a : Atom) (s : List Char) : Option (Source × List Char) :=
  if word.isPrefixOf s then some (.ofAtom a, s.drop word.length) else none

def readKey (s : List Char) : Option (Option String × List Char) := do
  match skipSpace s with
  | '"' :: rest =>
    let (content, rest) ← readString rest
    match skipSpace rest with
    | ':' :: rest => pure (content.map String.ofList, rest)
    | _ => none
  | _ => none

mutual

-- A value at a level, which is the number of arrays and objects around it.
def readValue (fuel depth : Nat) (s : List Char) : Option (Source × List Char) :=
  match fuel with
  | 0 => none
  | fuel + 1 =>
    match skipSpace s with
    | [] => none
    | 'n' :: rest => expect ['u', 'l', 'l'] .null rest
    | 't' :: rest => expect ['r', 'u', 'e'] (.bool true) rest
    | 'f' :: rest => expect ['a', 'l', 's', 'e'] (.bool false) rest
    | '"' :: rest => do
      let (content, rest) ← readString rest
      match content with
      | some cs => pure (.string (String.ofList cs), rest)
      | none => pure (.unreadable, rest)
    | '[' :: rest =>
      match skipSpace rest with
      | ']' :: rest => some (nested (depth + 1) (.list true []), rest)
      | rest => do
        let (items, rest) ← readItems fuel (depth + 1) rest
        pure (nested (depth + 1) (.list true items), rest)
    | '\x7b' :: rest =>
      match skipSpace rest with
      | '\x7d' :: rest => some (nested (depth + 1) (.map []), rest)
      | rest => do
        let (members, rest) ← readMembers fuel (depth + 1) rest
        pure (nested (depth + 1) (objectOf members), rest)
    | s => do
      let (numeral, rest) ← readNumeral s
      match numeral.toNumber? with
      | some n => pure (.ofAtom (.number n), rest)
      | none => pure (.unreadable, rest)

-- The items of an array up to its closing bracket; there is one at least.
def readItems (fuel depth : Nat) (s : List Char) : Option (List Source × List Char) :=
  match fuel with
  | 0 => none
  | fuel + 1 => do
    let (item, rest) ← readValue fuel depth s
    match skipSpace rest with
    | ',' :: rest =>
      let (items, rest) ← readItems fuel depth rest
      pure (item :: items, rest)
    | ']' :: rest => pure ([item], rest)
    | _ => none

-- The members of an object up to its closing brace; there is one at least.
def readMembers (fuel depth : Nat) (s : List Char) :
    Option (List (Option String × Source) × List Char) :=
  match fuel with
  | 0 => none
  | fuel + 1 => do
    let (key, rest) ← readKey s
    let (value, rest) ← readValue fuel depth rest
    match skipSpace rest with
    | ',' :: rest =>
      let (members, rest) ← readMembers fuel depth rest
      pure ((key, value) :: members, rest)
    | '\x7d' :: rest => pure ([(key, value)], rest)
    | _ => none

end

end Reader

-- The source that a JSON text denotes; `none` if the text is no JSON.
def read? (text : String) : Option Source := do
  let s := text.toList
  let (value, rest) ← Reader.readValue (2 * s.length + 2) 0 s
  if (Reader.skipSpace rest).isEmpty then some value else none

end OpenApiClient.Json
