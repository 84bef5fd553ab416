import OpenApiClient.Client.Endpoint
import OpenApiClient.Naming.Apart
import OpenApiClient.Operation.Tag

/-!
The classes that hold the operations of a tag. Within one of them the names of methods stay apart
even when case does not count.
-/

namespace OpenApiClient

structure Api where
  tag : WireName
  className : String
  description : Option String
  -- The positions of its operations among all of them.
  operations : List Nat
  deriving Repr

namespace Api

-- Checks the names of methods in order; `seen` holds those before, by their folded names.
def checkMethods (className : String) (seen : List (String × Endpoint)) :
    List Endpoint → Except NamingError Unit
  | [] => return ()
  | e :: rest =>
    let identifier := Naming.asMethod e.methodName
    let folded := Naming.foldCase identifier
    match seen.lookup folded with
    | some first =>
      throw (.nameCollision (className ++ "::" ++ identifier)
        (first.method.name ++ " " ++ first.path) (e.method.name ++ " " ++ e.path))
    | none => checkMethods className ((folded, e) :: seen) rest

-- Adds the class of a tag. An empty tag has none, and neither has a tag without operations.
def add (d : Document) (endpoints : List Endpoint) (apis : List Api) (tag : String)
    (operations : List Nat) : Except NamingError (List Api) := do
  if tag = "" ∨ operations = [] then
    return apis
  let className := Naming.apiName tag
  match apis.find? (·.className = className) with
  | some first =>
    throw (.nameCollision className ("tag '" ++ first.tag.written ++ "'") ("tag '" ++ tag ++ "'"))
  | none =>
    checkMethods className [] (operations.filterMap (endpoints[·]?))
    return apis ++ [{
      tag := WireName.ofString tag
      className
      description := (d.tag? tag).bind (·.description)
      operations }]

end Api

def Document.apis (d : Document) (endpoints : List Endpoint) : Except NamingError (List Api) :=
  d.operationsByTag.foldlM (fun apis (tag, operations) => Api.add d endpoints apis tag operations) []

end OpenApiClient
