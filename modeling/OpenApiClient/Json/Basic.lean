import OpenApiClient.Number.Style

/-!
JSON values. An object lists its members in the order in which they are written; the values that a
document carries along without looking into them have their members sorted by key.
-/

namespace OpenApiClient.Json

-- Integers and fractions are told apart: `1` and `1.0` are different numbers.
inductive Number where
  | int (value : Int)
  | float (value : Binary64)
  deriving DecidableEq, Repr

-- Equal as numbers of the same kind; the two zeros of a fraction are equal.
def Number.equals : Number → Number → Bool
  | .int a, .int b => a == b
  | .float a, .float b => a.equals b
  | _, _ => false

inductive Value where
  | null
  | bool (value : Bool)
  | number (value : Number)
  | string (value : String)
  | array (items : List Value)
  | object (members : List (String × Value))
  deriving Repr, Inhabited

namespace Value

mutual

-- Equality of values whose members are sorted by key.
def equals : Value → Value → Bool
  | .null, .null => true
  | .bool a, .bool b => a == b
  | .number a, .number b => a.equals b
  | .string a, .string b => a == b
  | .array a, .array b => itemsEqual a b
  | .object a, .object b => membersEqual a b
  | _, _ => false

def itemsEqual : List Value → List Value → Bool
  | [], [] => true
  | a :: as, b :: bs => a.equals b && itemsEqual as bs
  | _, _ => false

def membersEqual : List (String × Value) → List (String × Value) → Bool
  | [], [] => true
  | (j, a) :: as, (k, b) :: bs => j == k && a.equals b && membersEqual as bs
  | _, _ => false

end

-- Puts a member into a list sorted by key, in place of one with the same key.
def insertSorted (key : String) (value : Value) :
    List (String × Value) → List (String × Value)
  | [] => [(key, value)]
  | (k, v) :: rest =>
    if key < k then (key, value) :: (k, v) :: rest
    else if key = k then (key, value) :: rest
    else (k, v) :: insertSorted key value rest

-- The members sorted by key; of several with one key the last stays.
def sortMembers (members : List (String × Value)) : List (String × Value) :=
  members.foldl (fun sorted (k, v) => insertSorted k v sorted) []

end Value

end OpenApiClient.Json
