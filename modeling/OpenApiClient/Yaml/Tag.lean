import OpenApiClient.Json.Reader

/-!
Tags, the names for the types of nodes. A tag is a string of bytes rather than a text, because
percent escapes may spell bytes that encode no text; it ends before the first byte that is zero.
-/

namespace OpenApiClient.Yaml

structure Tag where
  bytes : List UInt8
  deriving DecidableEq, Repr

namespace Tag

instance : Append Tag := ⟨fun s t => ⟨s.bytes ++ t.bytes⟩⟩

def ofText (s : String) : Tag := ⟨s.toList.flatMap String.utf8EncodeChar⟩

-- The exclamation mark alone, a tag too.
def mark : Tag := ofText "!"

-- A tag that every schema of types knows.
def standard (name : String) : Tag := ofText "tag:yaml.org,2002:" ++ ofText name

def isText (t : Tag) : Bool := (String.fromUTF8? ⟨t.bytes.toArray⟩).isSome

def startsWithMark (t : Tag) : Bool := mark.bytes.isPrefixOf t.bytes

-- Whether the tag names a type of the document's own: a text that starts with an exclamation
-- mark.
def isLocal (t : Tag) : Bool := t.startsWithMark && t.isText

/-! ### Percent escapes -/

-- How many bytes follow a character's first one. Only the first byte tells, so that overlong forms,
-- surrogates and numbers beyond all characters pass.
def following? (first : UInt8) : Option Nat :=
  if first < 0x80 then some 0
  else if first < 0xC0 then none
  else if first < 0xE0 then some 1
  else if first < 0xF0 then some 2
  else if first < 0xF8 then some 3
  else none

def isFollowing (byte : UInt8) : Bool := 0x80 ≤ byte && byte < 0xC0

-- The bytes that a text with percent escapes spells. A character that is not ASCII has all of its
-- bytes escaped, one after the other; `owed` of them are still to come.
def unescape (owed : Nat) : List Char → Option (List UInt8)
  | '%' :: a :: b :: rest => do
    let byte := ((← Json.Reader.hexValue? a) * 16 + (← Json.Reader.hexValue? b)).toUInt8
    let left ← match owed with
      | 0 => following? byte
      | n + 1 => if isFollowing byte then some n else none
    pure (byte :: (← unescape left rest))
  | c :: rest =>
    if c = '%' ∨ owed ≠ 0 then none
    else do pure (String.utf8EncodeChar c ++ (← unescape 0 rest))
  | [] => if owed = 0 then some [] else none

def ofEscaped? (s : List Char) : Option Tag := do
  pure ⟨(← unescape 0 s).takeWhile (· ≠ 0)⟩

end Tag

end OpenApiClient.Yaml
