import OpenApiClient.Index.NamedDocument
import OpenApiClient.Hint.Schema

/-!
How a value is typed in the client, and how it is made from what JSON decodes to. Only what has one
class, or is a list of such values, is made into something else; a union is taken as it is.
-/

namespace OpenApiClient

inductive Factory where
  -- It is used as decoded.
  | direct
  | object (name : String)
  | enumeration (name : String)
  -- A list whose elements are made one by one.
  | list (element : Factory)
  deriving DecidableEq, Repr, Inhabited

-- The type of a value in the client, the type of what it is made from, and how it is made.
structure ValueType where
  hints : Hints
  decoded : Hints
  factory : Factory
  deriving DecidableEq, Repr

namespace SchemaIndex

-- How a value of a class is made.
def classFactory (m : SchemaIndex) (name : String) : Factory :=
  match (m.get? name).map (·.kind) with
  | some kind =>
    if kind.isEnum then .enumeration name else if kind = .object then .object name else .direct
  | none => .direct

mutual

def hintFactory (m : SchemaIndex) : Hint → Factory
  | .basic _ => .direct
  | .model name => m.classFactory name
  | .array items =>
    match m.factory items with
    | .direct => .direct
    | element => .list element

-- The factory of the only alternative beside null.
def factory (m : SchemaIndex) : List Hint → Factory
  | [] => .direct
  | hint :: rest =>
    if hint = .null then m.factory rest
    else if rest.all (· = .null) then m.hintFactory hint
    else .direct

end

-- Null does not count for the factory, and more than one other alternative leaves none.
theorem factory_eq (m : SchemaIndex) (hints : Hints) :
    m.factory hints =
      match hints.withoutNull with
      | [hint] => m.hintFactory hint
      | _ => .direct := by
  induction hints with
  | nil => simp [factory, Hints.withoutNull]
  | cons hint rest ih =>
    unfold factory
    by_cases h : hint = .null
    · simpa [h, Hints.withoutNull] using ih
    · have keeps : Hints.withoutNull (hint :: rest) = hint :: Hints.withoutNull rest := by
        simp [Hints.withoutNull, h]
      have left : rest.all (· = .null) ↔ Hints.withoutNull rest = [] := by
        simp [Hints.withoutNull, List.filter_eq_nil_iff]
      rw [if_neg h, keeps]
      cases others : Hints.withoutNull rest with
      | nil => simp [left.2 others]
      | cons => rw [if_neg (by simp [left, others])]

end SchemaIndex

namespace NamedDocument

def hintsAt (n : NamedDocument) (form : ValueForm) (name : String) (place : Option SchemaRef) :
    Except BuildError Hints :=
  n.document.hintsAt n.schemas form name place

-- The type of the values at a place where a schema would be called `name`.
def valueAt (n : NamedDocument) (name : String) (place : Option SchemaRef) :
    Except BuildError ValueType := do
  let hints ← n.hintsAt .typed name place
  let decoded ← n.hintsAt .decoded name place
  return { hints, decoded, factory := n.schemas.factory hints }

end NamedDocument

end OpenApiClient
