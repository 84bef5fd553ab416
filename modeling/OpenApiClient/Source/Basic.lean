import OpenApiClient.Json.Basic

/-!
What the readers of JSON and YAML make of a text, before anyone asks what it means: leaves, lists
and maps as they were written, with every repeated key. A leaf keeps the readings that its spelling
allows, because what it stands for depends on who reads it: in YAML `1.0` is a text where a text is
expected and a number where anything may stand.
-/

namespace OpenApiClient

inductive Atom where
  | null
  | bool (value : Bool)
  | number (value : Json.Number)
  | notFinite
  | string (value : String)
  deriving DecidableEq, Repr

-- An integer that is not negative.
def Atom.natural? : Atom → Option Nat
  | .number (.int n) => n.toNat?
  | _ => none

-- The readings of a leaf.
structure Scalar where
  -- The text, where a text is expected.
  text : Option String
  -- The truth value, where one is expected.
  flag : Option Bool
  -- Whether the leaf stands for nothing, where that is allowed; `none` if it is an error there.
  absent : Option Bool
  -- Whether it stands for an empty record, map or list.
  blank : Bool
  -- The value, where any value is expected; `none` if it has none.
  atom : Option Atom
  -- The number, where a field of a record may be named by its position.
  position : Option Nat
  deriving DecidableEq, Repr

-- A leaf whose type shows in its spelling, as in JSON.
def Scalar.ofAtom (a : Atom) : Scalar where
  text := match a with
    | .string s => some s
    | _ => none
  flag := match a with
    | .bool b => some b
    | _ => none
  absent := some (a = .null)
  blank := false
  atom := some a
  position := a.natural?

inductive Source where
  | leaf (scalar : Scalar)
  -- A list. If it is `positional`, it may stand for a record as well, field by field.
  | list (positional : Bool) (items : List Source)
  | map (entries : List (Source × Source))
  -- A list or map with a tag of its own: it has its shape, but no value where anything may
  -- stand.
  | tagged (source : Source)
  -- Well-formed text that no value can be made of, or of which none was made because no reader looks
  -- at it; it does no harm there.
  | unreadable
  deriving Inhabited

namespace Source

def ofAtom (a : Atom) : Source := .leaf (.ofAtom a)

def string (s : String) : Source := ofAtom (.string s)

mutual

def readable : Source → Bool
  | .leaf s => s.atom.isSome
  | .list _ items => readableItems items
  | .map entries => readableEntries entries
  | .tagged _ | .unreadable => false

def readableItems : List Source → Bool
  | [] => true
  | s :: rest => s.readable && readableItems rest

def readableEntries : List (Source × Source) → Bool
  | [] => true
  | (k, v) :: rest => k.readable && v.readable && readableEntries rest

end

mutual

def height : Source → Nat
  | .leaf _ => 0
  | .list _ items => heightItems items + 1
  | .map entries => heightEntries entries + 1
  | .tagged s => s.height
  | .unreadable => 0

def heightItems : List Source → Nat
  | [] => 0
  | s :: rest => max s.height (heightItems rest)

def heightEntries : List (Source × Source) → Nat
  | [] => 0
  | (k, v) :: rest => max (max k.height v.height) (heightEntries rest)

end

-- The value of a leaf where any value may stand.
def atom? : Source → Option Atom
  | .leaf s => s.atom
  | _ => none

-- The number of a leaf where a field may be named by its position.
def position? : Source → Option Nat
  | .leaf s => s.position
  | _ => none

end Source

end OpenApiClient
