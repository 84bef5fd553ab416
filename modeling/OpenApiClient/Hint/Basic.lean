/-!
Type hints: what a value may be, as an ordered list of alternatives. The list has no duplicates as
long as it is built by the operations here.
-/

namespace OpenApiClient

-- The types that need no further description. `mixed` is anything at all, `untyped` a map as it
-- is decoded from JSON.
inductive BasicType where
  | mixed
  | float
  | int
  | string
  | bool
  | null
  | untyped
  deriving DecidableEq, Repr

def BasicType.name : BasicType → String
  | .mixed => "mixed"
  | .float => "float"
  | .int => "int"
  | .string => "string"
  | .bool => "bool"
  | .null => "null"
  | .untyped => "untyped"

inductive Hint where
  | basic (type : BasicType)
  -- A class of the client.
  | model (name : String)
  -- A list whose elements are one of `items`.
  | array (items : List Hint)
  deriving Repr, Inhabited

namespace Hint

@[match_pattern] abbrev mixed : Hint := .basic .mixed
@[match_pattern] abbrev float : Hint := .basic .float
@[match_pattern] abbrev int : Hint := .basic .int
@[match_pattern] abbrev string : Hint := .basic .string
@[match_pattern] abbrev bool : Hint := .basic .bool
@[match_pattern] abbrev null : Hint := .basic .null
@[match_pattern] abbrev untyped : Hint := .basic .untyped

mutual

def decEq : (a b : Hint) → Decidable (a = b)
  | .basic a, .basic b => decidable_of_iff (a = b) (by simp)
  | .model a, .model b => decidable_of_iff (a = b) (by simp)
  | .array a, .array b => @decidable_of_iff _ (a = b) (by simp) (decEqList a b)
  | .basic _, .model _ | .basic _, .array _ | .model _, .basic _ | .model _, .array _
  | .array _, .basic _ | .array _, .model _ => .isFalse nofun

def decEqList : (a b : List Hint) → Decidable (a = b)
  | [], [] => .isTrue rfl
  | x :: xs, y :: ys => @decidable_of_iff _ (x = y ∧ xs = ys) (by simp)
      (@instDecidableAnd _ _ (decEq x y) (decEqList xs ys))
  | [], _ :: _ | _ :: _, [] => .isFalse nofun

end

instance : DecidableEq Hint := decEq

end Hint

-- The alternatives for one value, each of them once.
abbrev Hints := List Hint

namespace Hints

def push (hints : Hints) (hint : Hint) : Hints :=
  if hint ∈ hints then hints else hints ++ [hint]

def extend (hints more : Hints) : Hints := more.foldl push hints

-- Keeps the first of equal alternatives.
def ofList (hints : List Hint) : Hints := extend [] hints

def withoutNull (hints : Hints) : Hints := hints.filter (· ≠ .null)

def isNullable (hints : Hints) : Bool := .null ∈ hints || .mixed ∈ hints

@[simp] theorem mem_push {hints : Hints} {hint other : Hint} :
    other ∈ hints.push hint ↔ other ∈ hints ∨ other = hint := by
  unfold push; split <;> simp_all

theorem push_nodup {hints : Hints} (h : hints.Nodup) (hint : Hint) : (hints.push hint).Nodup := by
  unfold push; split
  · exact h
  · simp_all [List.nodup_append]; intro _ h' rfl; contradiction

@[simp] theorem mem_extend {hints more : Hints} {other : Hint} :
    other ∈ hints.extend more ↔ other ∈ hints ∨ other ∈ more := by
  induction more generalizing hints with
  | nil => simp [extend]
  | cons hint rest ih =>
    have := @ih (hints.push hint)
    simp only [extend, List.foldl_cons] at this ⊢
    simp [this, or_assoc]

theorem extend_nodup {hints : Hints} (h : hints.Nodup) (more : Hints) :
    (hints.extend more).Nodup := by
  induction more generalizing hints with
  | nil => exact h
  | cons hint rest ih => exact ih (push_nodup h hint)

@[simp] theorem mem_ofList {hints : List Hint} {hint : Hint} : hint ∈ ofList hints ↔ hint ∈ hints := by
  simp [ofList]

theorem ofList_nodup (hints : List Hint) : (ofList hints).Nodup := extend_nodup List.nodup_nil hints

end Hints

mutual

def Hint.text : Hint → String
  | .basic type => type.name
  | .model name => name
  | .array items => "array<" ++ "|".intercalate (hintTexts items) ++ ">"

def hintTexts : List Hint → List String
  | [] => []
  | hint :: rest => hint.text :: hintTexts rest

end

def Hints.text (hints : Hints) : String := "|".intercalate (hintTexts hints)

end OpenApiClient
