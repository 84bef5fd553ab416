import OpenApiClient.Document.Method
import OpenApiClient.Naming.ClassName

/-!
Names of operations, and of what an operation sends and receives. An operation is called by its id,
or else by its method and path.
-/

namespace OpenApiClient.Naming

open Text

-- The name in a segment that is a path parameter as a whole.
def pathParameter? (segment : List Char) : Option (List Char) :=
  match segment with
  | '\x7b' :: rest =>
    match rest.reverse with
    | '\x7d' :: inner =>
      if inner.isEmpty || inner.any (fun c => c == '\x7b' || c == '\x7d') then none
      else some inner.reverse
    | _ => none
  | _ => none

-- A path in one word: its segments in order, a parameter as `By` and its name.
def ofPath (path : String) : String :=
  String.join <| (pieces (· == '/') path.toList).map fun segment =>
    match pathParameter? segment with
    | some name => "By" ++ joinCapitalized (String.ofList name)
    | none => joinCapitalized (String.ofList segment)

-- The name of the operation with the given id, if it has one.
def methodName (method : HttpMethod) (path : String) (id : Option String) : String :=
  id.getD (method.key ++ ofPath path)

def isIdentifierStart (c : Char) : Bool := c.isAlpha || c == '_'

def isIdentifierChar (c : Char) : Bool := c.isAlphanum || c == '_'

-- Whether the text is an identifier of ASCII letters, digits and underscores.
def isAsciiIdentifier : List Char → Bool
  | [] => false
  | c :: rest => isIdentifierStart c && rest.all isIdentifierChar

-- A name that can stand for a method: what is an identifier stays, all else is camel-cased.
def asMethod (name : String) : String :=
  if isAsciiIdentifier name.toList then name
  else
    let folded := camelCase name.toList
    if folded.isEmpty then "call" else String.ofList (guardDigit folded)

-- The name that the classes of an operation start with.
def operationStem (method : HttpMethod) (path : String) (id : Option String) : String :=
  match id with
  | some id => joinCapitalized id
  | none => joinCapitalized method.key ++ ofPath path

def responseName (stem status : String) : String :=
  stem ++ joinCapitalized status ++ "Response"

def responseBodyName (responseClass : String) : String :=
  responseClass ++ "JsonSchema"

def requestBodyName (stem : String) : String :=
  stem ++ "RequestBody"

def parameterName (stem parameter : String) : String :=
  stem ++ joinCapitalized parameter ++ "Parameter"

def apiName (tag : String) : String :=
  let base := joinCapitalized tag
  if base = "" then "DefaultApi" else String.ofList (guardDigit base.toList) ++ "Api"

end OpenApiClient.Naming
