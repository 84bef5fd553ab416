import OpenApiClient.Text.CodePoints
import OpenApiClient.Text.Pieces

/-!
White space of all scripts, and the operations on text that go by it.
-/

namespace OpenApiClient.Text

-- The white space beyond ASCII.
def blankTable : List (Nat × Nat) := [
  (0x85, 0x85), (0xA0, 0xA0), (0x1680, 0x1680), (0x2000, 0x200A), (0x2028, 0x2029),
  (0x202F, 0x202F), (0x205F, 0x205F), (0x3000, 0x3000)]

-- The characters with the property White_Space.
def isBlank (c : Char) : Bool :=
  if c.toNat < 128 then c == ' ' || (9 ≤ c.toNat && c.toNat ≤ 13) else inIntervals blankTable c

def trimBlank (s : List Char) : List Char :=
  ((s.dropWhile isBlank).reverse.dropWhile isBlank).reverse

-- Each run of white space becomes one blank, and there is none at either end.
def squeeze (s : List Char) : List Char :=
  List.intercalate [' '] (pieces isBlank s)

end OpenApiClient.Text
