import OpenApiClient.Error
import OpenApiClient.Text.Casing
import OpenApiClient.Text.Replace

/-!
Class names for what a document names: components, and what is nested in something that has a name.
-/

namespace OpenApiClient.Naming

open Text

-- The runs of letters and digits put together, each with its first letter in upper case.
def joinCapitalized (word : String) : String :=
  String.ofList ((pieces (!isAlphanumeric ·) word.toList).flatMap upperFirst)

def nested (parent property : String) : String :=
  parent ++ joinCapitalized property

def isKeySeparator (c : Char) : Bool := c == '.' || c == '-' || c == '_'

-- The characters that may occur in the key of a component.
def isKeyChar (c : Char) : Bool := c.isAlphanum || isKeySeparator c

-- The name with an underscore before it if it starts with an ASCII digit.
def guardDigit : List Char → List Char
  | [] => []
  | c :: rest => if c.isDigit then '_' :: c :: rest else c :: rest

-- The class name for the key of a component: the stretches between separators put together, each
-- with its first letter in upper case.
def ofComponentKey (key : String) : Except NamingError String :=
  let name := (pieces isKeySeparator key.toList).flatMap upperFirst
  if key.toList.all isKeyChar && !name.isEmpty then .ok (String.ofList (guardDigit name))
  else .error (.invalidComponentKey key)

-- What follows the last `separator`, or all if there is none.
def afterLast (separator : Char) (s : List Char) : List Char :=
  (s.reverse.takeWhile (· ≠ separator)).reverse

-- The class name for the component that a reference ends with.
def ofReference (reference : String) : Except NamingError String :=
  let last := afterLast '/' reference.toList
  let decoded := replaceAll ['~', '0'] ['~'] (replaceAll ['~', '1'] ['/'] last)
  ofComponentKey (String.ofList decoded)

end OpenApiClient.Naming
