import OpenApiClient.Naming.ClassName

/-!
A name on the wire, with the identifiers made from it.
-/

namespace OpenApiClient

structure WireName where
  written : String
  pascal : String
  camel : String
  snake : String
  screaming : String
  deriving DecidableEq, Repr

namespace WireName

open Text Naming

-- A cased name as an identifier: there is always one, and it does not start with a digit.
def identifier (cased : List Char) : String :=
  if cased.isEmpty then "unnamed" else String.ofList (guardDigit cased)

def ofString (name : String) : WireName where
  written := name
  pascal := identifier (pascalCase name.toList)
  camel := identifier (camelCase name.toList)
  snake := identifier (snakeCase name.toList)
  screaming := identifier (screamingCase name.toList)

end WireName

end OpenApiClient
