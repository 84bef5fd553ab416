import OpenApiClient.Client.Basic

/-!
A summary of a client, to look at before it is written: what it consists of, by name.
-/

namespace OpenApiClient

open Json (Value)

namespace Summary

-- An object whose members are sorted by key.
def record (members : List (String × Value)) : Value := .object (Value.sortMembers members)

def texts (items : List String) : Value := .array (items.map .string)

def optional (text : Option String) : Value := (text.map Value.string).getD .null

def entity (e : Entity) : Value :=
  record [("name", .string e.name), ("kind", .string e.kind.name),
    ("properties", texts (e.properties.map (·.name.written)))]

def response (c : ResponseClass) : Value :=
  record [("name", .string c.name), ("status", optional c.status),
    ("body", optional (c.body.map (·.value.hints.text)))]

def endpoint (e : Endpoint) : Value :=
  record [("name", .string e.methodName), ("method", .string e.method.name), ("path", .string e.path),
    ("tags", texts e.tags),
    ("responses", record (e.responses.map fun r => (r.status, .string r.className)))]

def api (endpoints : List Endpoint) (a : Api) : String × Value :=
  (a.className, texts (a.operations.filterMap fun i => endpoints[i]?.map (·.methodName)))

end Summary

def Client.summary (c : Client) : Value :=
  Summary.record [
    ("info", Summary.record [
      ("title", .string c.info.title), ("version", .string c.info.version)]),
    ("namespace", .string c.rootNamespace),
    ("servers", Summary.texts (c.servers.map (·.url))),
    ("entities", .array (c.entities.map Summary.entity)),
    ("responses", .array (c.responses.map Summary.response)),
    ("operations", .array (c.endpoints.map Summary.endpoint)),
    ("apis", Summary.record (c.apis.map (Summary.api c.endpoints)))]

end OpenApiClient
