import OpenApiClient.Error
import OpenApiClient.Json.Reader
import OpenApiClient.Text.Pieces
import OpenApiClient.Text.Replace

/-!
References into the document itself: `#` and a JSON pointer, percent-encoded as a URI fragment.
-/

namespace OpenApiClient.Pointer

open Text

-- A key as a segment of a pointer.
def escapeSegment (key : String) : String :=
  String.ofList <|
    replaceAll ['/'] ['~', '1'] (replaceAll ['~'] ['~', '0'] key.toList)

-- The pointer with the given segments.
def ofSegments (segments : List String) : String :=
  "#" ++ String.join (segments.map fun s => "/" ++ escapeSegment s)

-- The byte that two bytes of a percent escape denote: two hexadecimal digits, or a plus sign and
-- one.
def escapedByte? (a b : UInt8) : Option UInt8 := do
  let digit (x : UInt8) := Json.Reader.hexValue? (Char.ofNat x.toNat)
  let low ← digit b
  if a = '+'.toNat.toUInt8 then pure low.toUInt8
  else pure ((← digit a) * 16 + low).toUInt8

-- The bytes with each escape replaced by what it denotes; a percent sign that starts none stays.
def decodeBytes : List UInt8 → List UInt8
  | c :: a :: b :: rest =>
    if c = '%'.toNat.toUInt8 then
      match escapedByte? a b with
      | some byte => byte :: decodeBytes rest
      | none => c :: decodeBytes (a :: b :: rest)
    else c :: decodeBytes (a :: b :: rest)
  | short => short

-- The text without percent escapes, or as it is if they make no valid text.
def percentDecode (raw : String) : String :=
  (String.fromUTF8? ⟨(decodeBytes raw.toUTF8.toList).toArray⟩).getD raw

-- The key that a segment denotes.
def decodeSegment (raw : String) : String :=
  String.ofList <|
    replaceAll ['~', '0'] ['~'] (replaceAll ['~', '1'] ['/'] (percentDecode raw).toList)

-- The decoded segments of a local reference.
def segments (reference : String) : Except ResolveError (List String) :=
  match reference.toList with
  | ['#'] => .ok []
  | '#' :: '/' :: rest =>
    .ok ((splitWhere (· == '/') rest).map fun raw => decodeSegment (String.ofList raw))
  | _ => .error (.invalidReference reference)

-- The one spelling that all references to the same place share.
def canonical (reference : String) : Except ResolveError String :=
  (segments reference).map ofSegments

end OpenApiClient.Pointer
