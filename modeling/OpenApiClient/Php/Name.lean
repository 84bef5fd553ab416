import OpenApiClient.Naming.Apart
import OpenApiClient.Naming.Operation

/-!
Names in PHP: which words a class cannot be called, where classes live, and what variables and
methods are called.
-/

namespace OpenApiClient.Php

-- The words that cannot name a class, whatever their case.
def reservedWords : List String := [
  "__halt_compiler", "abstract", "and", "array", "as", "bool", "break", "callable", "case",
  "catch", "class", "clone", "const", "continue", "declare", "default", "die", "do", "echo",
  "else", "elseif", "empty", "enddeclare", "endfor", "endforeach", "endif", "endswitch",
  "endwhile", "enum", "eval", "exit", "extends", "false", "final", "finally", "float", "fn",
  "for", "foreach", "function", "global", "goto", "if", "implements", "include",
  "include_once", "instanceof", "insteadof", "int", "interface", "isset", "iterable", "list",
  "match", "mixed", "namespace", "never", "new", "null", "numeric", "object", "or", "parent",
  "print", "private", "protected", "public", "readonly", "require", "require_once",
  "resource", "return", "self", "static", "string", "switch", "throw", "trait", "true", "try",
  "unset", "use", "var", "void", "while", "xor", "yield"]

-- The class for a name in a sub-namespace, which is added to a word that is reserved.
def className (sub name : String) : String :=
  if Naming.foldCase name ∈ reservedWords then name ++ sub else name

-- A namespace without backslashes at its ends.
def trimNamespace (root : String) : String :=
  let start := root.toList.dropWhile (· == '\\')
  String.ofList ((start.reverse.dropWhile (· == '\\')).reverse)

-- What lies in the namespace `root`, written without a backslash before it.
def within (root name : String) : String :=
  if trimNamespace root = "" then name else trimNamespace root ++ "\\" ++ name

def rootClass (root name : String) : String := "\\" ++ within root name

-- The full name of a class in a sub-namespace.
def subClass (root sub name : String) : String := rootClass root (sub ++ "\\" ++ className sub name)

def modelClass (root name : String) : String := subClass root "Model" name

def responseClass (root name : String) : String := subClass root "Response" name

-- A variable, without its dollar sign.
def variableName (name : String) : String := if name = "this" then "thisValue" else name

-- The methods that all classes of operations inherit.
def inheritedMethods : List String := ["__construct", "send", "decode", "scalar"]

-- The method for an operation, kept apart from the inherited ones.
def methodName (name : String) : String :=
  let identifier := Naming.asMethod name
  if inheritedMethods.any (Naming.foldCase · = Naming.foldCase identifier) then
    identifier ++ "Operation"
  else identifier

end OpenApiClient.Php
