import OpenApiClient.Document.Equality
import OpenApiClient.Operation.Site
import OpenApiClient.Reference.Chain

/-!
The responses that get classes: those of the components under their keys, and those written in
operations under the name of the operation and the status. The same name twice is a clash, unless
both say the same.
-/

namespace OpenApiClient

structure NamedResponse where
  name : String
  response : Response
  -- The status of an operation's response.
  status : Option String
  -- Where it was found first.
  origin : String

-- The responses found, in order; no two have one name.
structure ResponseIndex where
  entries : List NamedResponse := []

namespace ResponseIndex

def get? (m : ResponseIndex) (name : String) : Option NamedResponse :=
  m.entries.find? (·.name == name)

def nameAt? (m : ResponseIndex) (pointer : String) : Option String :=
  (m.entries.find? (·.origin == pointer)).map (·.name)

def insert (m : ResponseIndex) (found : NamedResponse) : Except NamingError ResponseIndex :=
  match m.get? found.name with
  | none => .ok { m with entries := m.entries ++ [found] }
  | some first =>
    if first.response.same found.response then .ok m
    else .error (.nameCollision found.name first.origin found.origin)

end ResponseIndex

namespace Document

-- A response where it stands, with its status and what names it.
structure ResponseSite where
  name : Except NamingError String
  status : Option String
  origin : String
  response : RefOr Response

def componentResponseSites (d : Document) : List ResponseSite :=
  (d.components.map (·.responses)).getD [] |>.map fun (key, response) =>
    { name := Naming.ofComponentKey key
      status := none
      origin := "#/components/responses/" ++ Pointer.escapeSegment key
      response }

def operationResponseSites (o : OperationSite) : List ResponseSite :=
  o.operation.responses.map fun (status, response) =>
    { name := .ok (Naming.responseName o.stem status)
      status := some status
      origin := o.pointer ++ "/responses/" ++ Pointer.escapeSegment status
      response }

-- All places of responses, those of the components first.
def responseSites (d : Document) : List ResponseSite :=
  d.componentResponseSites ++ d.operations.flatMap operationResponseSites

-- A reference has to lead to a response, which is named where it stands.
def addResponse (d : Document) (m : ResponseIndex) (site : ResponseSite) :
    Except BuildError ResponseIndex := do
  match site.response with
  | .ref target =>
    let _ ← d.destination .response target
    return m
  | .inline response =>
    m.insert { name := ← site.name, response, status := site.status, origin := site.origin }

def responseIndex (d : Document) : Except BuildError ResponseIndex :=
  d.responseSites.foldlM d.addResponse {}

-- The class of an operation's response: what a reference leads to keeps its own class.
def responseNameOf (d : Document) (responses : ResponseIndex) (stem status : String) :
    RefOr Response → Except BuildError String
  | .inline _ => return Naming.responseName stem status
  | .ref target => do
    let (terminal, _) ← d.destination .response target
    match responses.nameAt? (← Pointer.canonical terminal) with
    | some name => return name
    | none => throw (.naming (.unnamedReference terminal))

end Document

end OpenApiClient
