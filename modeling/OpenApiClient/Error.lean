/-!
Why a document cannot be turned into a client: references that lead nowhere, and names that clash.
-/

namespace OpenApiClient

inductive ResolveError where
  | brokenReference (reference segment : String)
  | invalidReference (reference : String)
  | unexpectedTarget (reference expected found : String)
  | circular (chain : List String)
  deriving DecidableEq, Repr

-- The text for a list of names that lead from one to the next.
def arrows (chain : List String) : String := " -> ".intercalate chain

def ResolveError.message : ResolveError → String
  | .brokenReference reference segment =>
    "broken reference " ++ reference ++ ": segment '" ++ segment ++ "' does not exist"
  | .invalidReference reference =>
    "invalid reference format: " ++ reference ++ " (only local '#/...' pointers are supported)"
  | .unexpectedTarget reference expected found =>
    "reference " ++ reference ++ " points to a " ++ found ++ ", expected a " ++ expected
  | .circular chain => "circular reference chain: " ++ arrows chain

inductive NamingError where
  | invalidComponentKey (key : String)
  | nameCollision (name first second : String)
  | cyclicSchema (chain : List String)
  | unnamedReference (reference : String)
  deriving DecidableEq, Repr

def NamingError.message : NamingError → String
  | .invalidComponentKey key =>
    "invalid components key '" ++ key ++ "': must match ^[a-zA-Z0-9._-]+$"
  | .nameCollision name first second =>
    "name collision on '" ++ name ++ "': " ++ first ++ " and " ++ second ++ " both claim it"
  | .cyclicSchema chain => "cyclic schema: " ++ arrows chain
  | .unnamedReference reference =>
    "reference " ++ reference ++ " points to a position that has no class name"

inductive BuildError where
  | resolve (cause : ResolveError)
  | naming (cause : NamingError)
  deriving DecidableEq, Repr

def BuildError.message : BuildError → String
  | .resolve cause => "resolve error: " ++ cause.message
  | .naming cause => "naming error: " ++ cause.message

instance : MonadLift (Except ResolveError) (Except BuildError) where
  monadLift x := x.mapError .resolve

instance : MonadLift (Except NamingError) (Except BuildError) where
  monadLift x := x.mapError .naming

end OpenApiClient
