import OpenApiClient.Document.Schema
import OpenApiClient.Text.Blank

/-!
What travels between client and server: parameters, request bodies and responses, with the media
types of their content.
-/

namespace OpenApiClient

structure MediaType where
  schema : Option SchemaRef := none
  exampleValue : Option Json.Value := none
  examples : List (String × Json.Value) := []

inductive ParameterLocation where
  | query
  | header
  | path
  | cookie
  deriving DecidableEq, Repr

namespace ParameterLocation

def all : List ParameterLocation := [.query, .header, .path, .cookie]

def name : ParameterLocation → String
  | .query => "query"
  | .header => "header"
  | .path => "path"
  | .cookie => "cookie"

end ParameterLocation

structure Parameter where
  name : String
  location : ParameterLocation
  description : Option String := none
  required : Bool := false
  deprecated : Option Bool := none
  schema : Option SchemaRef := none
  style : Option String := none
  explode : Option Bool := none

structure RequestBody where
  description : Option String := none
  content : List (String × MediaType)
  required : Bool := false

structure Response where
  description : String := ""
  content : List (String × MediaType) := []
  headers : List (String × Json.Value) := []

-- Whether a media type is JSON: what follows a semicolon and the case of letters do not count.
def isJsonMediaType (key : String) : Bool :=
  let essence := Text.trimBlank (key.toList.takeWhile (· ≠ ';'))
  essence.map Char.toLower == "application/json".toList

-- The first entry for JSON.
def jsonContent? (content : List (String × MediaType)) : Option (String × MediaType) :=
  content.find? (isJsonMediaType ·.1)

def RequestBody.json? (b : RequestBody) : Option (String × MediaType) := jsonContent? b.content

def Response.json? (r : Response) : Option (String × MediaType) := jsonContent? r.content

end OpenApiClient
