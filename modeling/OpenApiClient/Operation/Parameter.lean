import OpenApiClient.Naming.Apart
import OpenApiClient.Naming.WireName
import OpenApiClient.Operation.Site
import OpenApiClient.Reference.Chain

/-!
The parameters that an operation has in effect: those of its path that it does not override, then
its own. No two of them are called the same once their names are made identifiers.
-/

namespace OpenApiClient

-- A parameter in effect: where it is written, what it is, and what it is called locally.
structure OperationParameter where
  source : RefOr Parameter
  parameter : Parameter
  pointer : String
  localName : String

namespace OperationParameter

-- The identifier that a local name becomes.
def fold (name : String) : String := (WireName.ofString name).camel

-- Whether two parameters are one for the server: the same name at the same place.
def sameWire (a b : Parameter) : Bool := a.name == b.name && a.location == b.location

-- Its own name, or else the first free one that starts with the name and the location.
def freeName (taken : List String) (p : Parameter) : String :=
  if fold p.name ∈ taken then
    Naming.firstFree fold taken (p.name ++ Naming.joinCapitalized p.location.name)
  else p.name

-- Names the parameters in order, each apart from those before it.
def nameApart (taken : List String) : List OperationParameter → List OperationParameter
  | [] => []
  | p :: rest =>
    let name := freeName taken p.parameter
    { p with localName := name } :: nameApart (fold name :: taken) rest

end OperationParameter

namespace Document

-- The parameters of a list, with their places.
def parametersAt (d : Document) (pointer : String) (parameters : List (RefOr Parameter)) :
    Except ResolveError (List OperationParameter) :=
  parameters.zipIdx.mapM fun (source, i) => do
    let parameter ← d.parameterOf source
    return {
      source
      parameter
      pointer := pointer ++ "/parameters/" ++ toString i
      localName := parameter.name }

def operationParameters (d : Document) (o : OperationSite) :
    Except ResolveError (List OperationParameter) := do
  let own ← d.parametersAt o.pointer o.operation.parameters
  let shared ← d.parametersAt (OperationSite.pathPointer o.path) o.item.parameters
  let inherited := shared.filter fun p =>
    !own.any fun q => OperationParameter.sameWire q.parameter p.parameter
  return OperationParameter.nameApart [] (inherited ++ own)

end Document

end OpenApiClient
