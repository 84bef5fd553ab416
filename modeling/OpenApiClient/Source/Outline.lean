import OpenApiClient.Source.Record

/-!
Which parts of a source a reader looks at. What it passes over need not have a value, and aliases
in it are not followed.
-/

namespace OpenApiClient

inductive Outline where
  | leaf
  -- Everything in it.
  | whole
  | list (item : Outline)
  | map (value : Outline)
  -- A map of which only the values under these keys are looked at.
  | record (fields : List (String × Outline))

namespace Outline

def names : Outline → List String
  | .record fields => Entries.keys fields
  | _ => []

@[simp]
theorem names_record (fields : List (String × Outline)) :
    names (.record fields) = Entries.keys fields := rfl

-- What is looked at in the items of a list.
def item? : Outline → Option Outline
  | .whole => some .whole
  | .list item => some item
  | _ => none

-- What is looked at in the keys of a map.
def key : Outline → Outline
  | .whole => .whole
  | _ => .leaf

-- What is looked at in the value under a key.
def value? (key : Source) : Outline → Option Outline
  | .whole => some .whole
  | .map value => some value
  | .record fields => do Entries.get? (← Place.plain.text? key) fields
  | _ => none

end Outline

end OpenApiClient
