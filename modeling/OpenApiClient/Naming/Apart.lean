/-!
Keeping names apart: a name that is taken gets the first number that makes it a new one.
-/

namespace OpenApiClient.Naming

-- The name without regard to the case of ASCII letters.
def foldCase (name : String) : String := String.ofList (name.toList.map Char.toLower)

-- `base`, `base2`, `base3` and so on.
def numbered (base : String) : Nat → String
  | 0 => base
  | i + 1 => base ++ toString (i + 2)

-- The first numbered form of `base` that is not taken, names being compared by `fold`. One more
-- form than there are names taken is enough.
def firstFree (fold : String → String) (taken : List String) (base : String) : String :=
  (((List.range (taken.length + 1)).map (numbered base)).find? (fold · ∉ taken)).getD base

end OpenApiClient.Naming
