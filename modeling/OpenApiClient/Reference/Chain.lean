import OpenApiClient.Document.References
import OpenApiClient.Reference.Node

/-!
Following references until something else is reached. The way to look a reference up is a
parameter, so that it may remember what it has found.
-/

namespace OpenApiClient.Reference

variable {m : Type → Type} [Monad m] {α : Type}

-- How a reference is looked up.
abbrev Lookup (m : Type → Type) := String → ExceptT ResolveError m Node

-- What is expected at the end of a chain.
structure Target (α : Type) where
  kind : String
  pick? : Node → Option α

namespace Target

def schema : Target Schema where
  kind := "schema"
  pick? := fun
    | .schema s => some s
    | _ => none

def response : Target Response where
  kind := "response"
  pick? := fun
    | .response r => some r
    | _ => none

def parameter : Target Parameter where
  kind := "parameter"
  pick? := fun
    | .parameter p => some p
    | _ => none

def requestBody : Target RequestBody where
  kind := "request body"
  pick? := fun
    | .requestBody b => some b
    | _ => none

end Target

-- Follows references from `current`, which `seen` led to, most recent first. The result is the
-- last reference together with what it points to. `steps` bounds the number of references.
def follow (look : Lookup m) (target : Target α) (seen : List String) (current : String) :
    Nat → ExceptT ResolveError m (String × α)
  | 0 => throw (.circular (current :: seen).reverse)
  | steps + 1 => do
    let node ← look current
    match target.pick? node with
    | some found => return (current, found)
    | none =>
      match node with
      | .reference next =>
        if next ∈ current :: seen then throw (.circular (next :: current :: seen).reverse)
        else follow look target (current :: seen) next steps
      | other => throw (.unexpectedTarget current target.kind other.kind)

-- The end of the chain that starts with a reference.
def destination (look : Lookup m) (target : Target α) (steps : Nat) (reference : String) :
    ExceptT ResolveError m (String × α) :=
  follow look target [] reference steps

-- Follows references to schemas, and through schemas that only annotate another one. `seen`
-- holds the references to the latter, most recent first.
def unwrap (look : Lookup m) (steps : Nat) (seen : List String) (reference : String) :
    Nat → ExceptT ResolveError m (String × Schema)
  | 0 => throw (.circular seen.reverse)
  | fuel + 1 => do
    let (terminal, schema) ← destination look .schema steps reference
    match schema.annotatedReference with
    | none => return (terminal, schema)
    | some wrapped =>
      if terminal ∈ seen then throw (.circular (terminal :: seen).reverse)
      else unwrap look steps (terminal :: seen) wrapped fuel

-- The schema that a reference means, whatever annotates it on the way.
def meantSchema (look : Lookup m) (steps : Nat) (reference : String) :
    ExceptT ResolveError m (String × Schema) :=
  unwrap look steps [] reference (steps + 1)

end OpenApiClient.Reference

namespace OpenApiClient.Document

open Reference

-- More steps than there are references to pass through.
def maxSteps (d : Document) : Nat := d.references.length + 2

-- Looking up without remembering.
def look (d : Document) : Lookup Id := fun reference => .mk (d.resolve reference)

-- What the chain that starts with a reference ends with, and the last reference of it.
def destination {α : Type} (d : Document) (target : Target α) (reference : String) :
    Except ResolveError (String × α) :=
  Id.run (Reference.destination d.look target d.maxSteps reference).run

def meantSchema (d : Document) (reference : String) : Except ResolveError (String × Schema) :=
  Id.run (Reference.meantSchema d.look d.maxSteps reference).run

-- What stands in a place: the value itself, or what the reference there leads to.
def valueOf {α : Type} (d : Document) (target : Target α) : RefOr α → Except ResolveError α
  | .inline value => .ok value
  | .ref reference => (d.destination target reference).map (·.2)

def parameterOf (d : Document) (p : RefOr Parameter) : Except ResolveError Parameter :=
  d.valueOf .parameter p

def requestBodyOf (d : Document) (b : RefOr RequestBody) : Except ResolveError RequestBody :=
  d.valueOf .requestBody b

end OpenApiClient.Document
