import OpenApiClient.Client.Basic
import OpenApiClient.Json.Writer
import OpenApiClient.Php.Name

/-!
The manifest of the package that the client makes.
-/

namespace OpenApiClient.Php

structure PackageOptions where
  name : Option String := none
  -- The least version of the language.
  version : String := "8.1"
  deriving DecidableEq, Repr

-- The name of the package: a given one, or one made from the title.
def packageName (c : Client) (options : PackageOptions) : String :=
  match options.name with
  | some name => name
  | none =>
    let slug := Text.kebabCase c.info.title.toList
    "vendor/" ++ if slug.isEmpty then "api-client" else String.ofList slug

def sorted (members : List (String × Json.Value)) : Json.Value :=
  .object (Json.Value.sortMembers members)

def manifest (root : String) (c : Client) (options : PackageOptions) : Json.Value :=
  let description := c.info.description.getD (c.info.title ++ " API client")
  sorted <|
    [("name", .string (packageName c options)),
      ("description", .string description),
      ("type", .string "library"),
      ("require", sorted [
        ("php", .string (">=" ++ options.version)),
        ("ext-json", .string "*"),
        ("psr/http-client", .string "^1.0"),
        ("psr/http-factory", .string "^1.0"),
        ("psr/http-message", .string "^1.1 || ^2.0")]),
      ("autoload", sorted [
        ("psr-4", sorted [(trimNamespace root ++ "\\", .string "src/")])])] ++
    c.info.license.toList.map fun license => ("license", .string license)

def manifestText (root : String) (c : Client) (options : PackageOptions) : String :=
  (manifest root c options).renderPretty ++ "\n"

end OpenApiClient.Php
