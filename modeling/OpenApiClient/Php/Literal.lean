import OpenApiClient.Client.Literal

/-!
Values written down in PHP.
-/

namespace OpenApiClient.Php

-- The text between single quotes, where only a backslash and a quote are special.
def quote (s : List Char) : List Char :=
  '\'' :: Text.replaceAll ['\''] ['\\', '\''] (Text.replaceAll ['\\'] ['\\', '\\'] s) ++ ['\'']

def string (s : String) : String := String.ofList (quote s.toList)

def literal : Literal → String
  | .string s => string s
  | .int n => String.ofList (Json.intText n)
  | .float x => String.ofList (NumberStyle.literal.write x)
  | .bool b => Literal.boolText b

def literalType : Literal → String
  | .string _ => "string"
  | .int _ => "int"
  | .float _ => "float"
  | .bool _ => "bool"

end OpenApiClient.Php
