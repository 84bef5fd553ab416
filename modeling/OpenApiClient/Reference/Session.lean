import OpenApiClient.Reference.Chain

/-!
Looking references up one after the other, and remembering what they point to.
-/

namespace OpenApiClient.Reference

-- The nodes found so far, by reference.
structure Session where
  known : List (String × Node) := []

namespace Session

abbrev Query := StateM Session

-- Looks a reference up. What is found is remembered, a failure is not.
def look (d : Document) : Lookup Query := fun reference => do
  let session ← get
  match session.known.lookup reference with
  | some node => return node
  | none =>
    match d.resolve reference with
    | .ok node =>
      set { session with known := (reference, node) :: session.known }
      return node
    | .error e => throw e

def destination {α : Type} (d : Document) (target : Target α) (reference : String) :
    ExceptT ResolveError Query (String × α) :=
  Reference.destination (look d) target d.maxSteps reference

def meantSchema (d : Document) (reference : String) :
    ExceptT ResolveError Query (String × Schema) :=
  Reference.meantSchema (look d) d.maxSteps reference

def valueOf {α : Type} (d : Document) (target : Target α) :
    RefOr α → ExceptT ResolveError Query α
  | .inline value => return value
  | .ref reference => do return (← destination d target reference).2

end Session

end OpenApiClient.Reference
