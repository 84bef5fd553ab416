import OpenApiClient.Client.Value

/-!
The operations as the client offers them: with the arguments they take, the body they send, and the
class for each status they may answer with.
-/

namespace OpenApiClient

-- A parameter under its local name.
structure Argument where
  name : WireName
  -- The name that the server knows.
  wireName : String
  location : ParameterLocation
  hints : Hints
  required : Bool
  description : Option String
  deprecated : Bool
  deriving Repr

structure Payload where
  hints : Hints
  required : Bool
  contentType : String
  description : Option String
  deriving Repr

-- The class for the responses under a status key.
structure StatusResponse where
  status : String
  className : String
  deriving DecidableEq, Repr

structure Endpoint where
  methodName : String
  method : HttpMethod
  path : String
  summary : Option String := none
  description : Option String := none
  tags : List String := []
  arguments : List Argument := []
  payload : Option Payload := none
  responses : List StatusResponse := []
  deprecated : Bool := false
  deriving Repr

def Endpoint.argumentsIn (e : Endpoint) (location : ParameterLocation) : List Argument :=
  e.arguments.filter (·.location = location)

namespace NamedDocument

-- Where a thing stands that is found through `place`, which itself is at `pointer`.
def standsAt {α : Type} (n : NamedDocument) (target : Reference.Target α) (pointer : String) :
    RefOr α → Except BuildError String
  | .inline _ => return pointer
  | .ref reference => do
    let (terminal, _) ← n.document.destination target reference
    Pointer.canonical terminal

def argument (n : NamedDocument) (stem : String) (p : OperationParameter) :
    Except BuildError Argument := do
  let position ← n.standsAt .parameter p.pointer p.source
  let name := (n.schemas.nameAt? (position ++ "/schema")).getD
    (Naming.parameterName stem p.localName)
  return {
    name := WireName.ofString p.localName
    wireName := p.parameter.name
    location := p.parameter.location
    hints := ← n.hintsAt .typed name p.parameter.schema
    required := p.parameter.required || p.parameter.location = .path
    description := p.parameter.description
    deprecated := p.parameter.deprecated.getD false }

-- The name of a body's schema: what was found for it, or else one after its component or the
-- operation.
def payloadName (n : NamedDocument) (stem pointer contentType : String) :
    Except BuildError String := do
  let position := pointer ++ "/content/" ++ Pointer.escapeSegment contentType ++ "/schema"
  match n.schemas.nameAt? position with
  | some name => return name
  | none =>
    if "#/components/".isPrefixOf pointer then
      return Naming.requestBodyName (← Naming.ofReference pointer)
    return Naming.requestBodyName stem

def payload (n : NamedDocument) (o : OperationSite) (place : RefOr RequestBody) :
    Except BuildError (Option Payload) := do
  let pointer ← n.standsAt .requestBody (o.pointer ++ "/requestBody") place
  let body ← n.document.requestBodyOf place
  match body.json? with
  | none => return none
  | some (contentType, media) =>
    let name ← n.payloadName o.stem pointer contentType
    let hints ← n.hintsAt .typed name media.schema
    return some { hints, required := body.required, contentType, description := body.description }

def statusResponse (n : NamedDocument) (o : OperationSite) (status : String)
    (place : RefOr Response) : Except BuildError StatusResponse := do
  return {
    status
    className := ← n.document.responseNameOf n.responses o.stem status place }

def endpoint (n : NamedDocument) (o : OperationSite) : Except BuildError Endpoint := do
  let parameters ← n.document.operationParameters o
  let arguments ← parameters.mapM (n.argument o.stem)
  let payload ← match o.operation.requestBody with
    | some place => n.payload o place
    | none => pure none
  let responses ← o.operation.responses.mapM fun (status, place) => n.statusResponse o status place
  return {
    methodName := o.methodName
    method := o.method
    path := o.path
    summary := o.operation.summary
    description := o.operation.description
    tags := o.operation.tags
    arguments
    payload
    responses
    deprecated := o.operation.deprecated.getD false }

def endpoints (n : NamedDocument) : Except BuildError (List Endpoint) :=
  n.document.operations.mapM n.endpoint

end NamedDocument

end OpenApiClient
