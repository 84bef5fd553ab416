import OpenApiClient.Client.Basic
import OpenApiClient.Document.Reader
import OpenApiClient.Php.Package
import OpenApiClient.Yaml.Reader

/-!
The settings of a project, kept in a file beside its document.
-/

namespace OpenApiClient

structure Settings where
  -- The file of the document.
  input : String := "openapi.yaml"
  -- The directory for the client.
  output : String := "generated"
  rootNamespace : String := Client.defaultNamespace
  package : Php.PackageOptions := {}
  deriving DecidableEq, Repr

def Php.PackageOptions.outline : Outline :=
  .record [("package_name", .leaf), ("php_version", .leaf)]

open Place in
def Php.PackageOptions.read? (s : Source) : Option Php.PackageOptions := do
  let f ← plain.fields? outline.names s
  let standard : Php.PackageOptions := {}
  pure {
    name := ← f.optional plain "package_name" plain.text?
    version := ← f.defaulted "php_version" standard.version plain.text? }

namespace Settings

-- The name of the file, in the directory where a command runs.
def fileName : String := ".ocg.yaml"

def outline : Outline := .record [
  ("input", .leaf), ("output", .leaf), ("namespace", .leaf), ("php", Php.PackageOptions.outline)]

open Place in
-- What is not set stays at its default.
def read? (s : Source) : Option Settings := do
  let f ← plain.fields? outline.names s
  let standard : Settings := {}
  pure {
    input := ← f.defaulted "input" standard.input plain.text?
    output := ← f.defaulted "output" standard.output plain.text?
    rootNamespace := ← f.defaulted "namespace" standard.rootNamespace plain.text?
    package := ← f.defaulted "php" {} Php.PackageOptions.read? }

def ofYaml (text : String) : Option Settings := (Yaml.read? outline text).bind read?

-- A file to start with, which sets everything to its default.
def initialText : String := "\n".intercalate [
  "# ocg configuration",
  "input: openapi.yaml",
  "output: generated",
  "namespace: Api\\Client   # root PHP namespace of the generated client",
  "",
  "php:",
  "  # package_name: acme/petstore-client   # composer package (defaults to vendor/<title>)",
  "  php_version: \"8.1\"",
  ""]

end Settings

end OpenApiClient
