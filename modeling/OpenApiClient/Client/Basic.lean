import OpenApiClient.Client.Api
import OpenApiClient.Client.Entity
import OpenApiClient.Client.Response

/-!
The client that a document describes, with everything resolved and named: what remains is to write
it down in a programming language.
-/

namespace OpenApiClient

structure ClientInfo where
  title : String
  description : Option String
  version : String
  -- The identifier of the licence where it has one, or else its name.
  license : Option String
  deriving Repr

structure Host where
  url : String
  description : Option String
  deriving Repr

structure Client where
  info : ClientInfo
  servers : List Host
  -- The namespace that the names of classes are in.
  rootNamespace : String
  entities : List Entity
  responses : List ResponseClass
  endpoints : List Endpoint
  apis : List Api
  deriving Repr

namespace Client

def defaultNamespace : String := "Api\\Client"

def entity? (c : Client) (name : String) : Option Entity := c.entities.find? (·.name = name)

def response? (c : Client) (name : String) : Option ResponseClass :=
  c.responses.find? (·.name = name)

def api? (c : Client) (className : String) : Option Api := c.apis.find? (·.className = className)

end Client

namespace Document

def clientInfo (d : Document) : ClientInfo where
  title := d.info.title
  description := d.info.description
  version := d.info.version
  license := d.info.license.map fun l => l.identifier.getD l.name

def hosts (d : Document) : List Host :=
  d.servers.map fun s => { url := s.filledUrl, description := s.description }

def client (d : Document) (rootNamespace : String) : Except BuildError Client := do
  let n ← d.named
  let entities ← n.entities
  let responses ← n.responseClasses
  let endpoints ← n.endpoints
  let apis ← d.apis endpoints
  return {
    info := d.clientInfo
    servers := d.hosts
    rootNamespace
    entities
    responses
    endpoints
    apis }

end Document

end OpenApiClient
