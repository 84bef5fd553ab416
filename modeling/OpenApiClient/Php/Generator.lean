import OpenApiClient.Php.ApiFile
import OpenApiClient.Php.Enumeration
import OpenApiClient.Php.Model
import OpenApiClient.Php.Package
import OpenApiClient.Php.ResponseFile
import OpenApiClient.Php.Support

/-!
All files of a client: a class for each entity, response and tag, and those that every client has.
-/

namespace OpenApiClient.Php

structure SourceFile where
  path : String
  content : String
  deriving DecidableEq, Repr

inductive GenerationError where
  | notAnEnum (name : String) (kind : SchemaKind)
  | missingOperation (className : String) (position : Nat)
  | generatedTwice (path : String)
  deriving DecidableEq, Repr

def GenerationError.message : GenerationError → String
  | .notAnEnum name kind =>
    "generation failed: " ++ name ++ " is a " ++ kind.name ++ " schema, not an enum"
  | .missingOperation className position =>
    "generation failed: " ++ className ++ " refers to missing operation " ++ toString position
  | .generatedTwice path => "generation failed: " ++ path ++ " would be generated twice"

-- The class for an enum; asking for one of anything else is an error.
def enumFile (root : String) (e : Entity) : Except GenerationError ClassFile :=
  match enumFile? root e with
  | some file => .ok file
  | none => .error (.notAnEnum e.name e.kind)

-- The class for an entity, if it has one.
def entityFile? (root : String) (e : Entity) : Option ClassFile :=
  if e.kind = .object then some (modelFile root e) else enumFile? root e

def tagFile (c : Client) (a : Api) : Except GenerationError ClassFile :=
  match apiEndpoints a c.endpoints with
  | .ok endpoints => .ok (apiFile c.rootNamespace a endpoints)
  | .error position => .error (.missingOperation a.className position)

-- All classes, in order: those of entities, responses and tags, then those of every client.
def classFiles (c : Client) : Except GenerationError (List ClassFile) := do
  let root := c.rootNamespace
  let entities := c.entities.filterMap (entityFile? root)
  let responses := c.responses.map (responseFile root)
  let apis ← c.apis.mapM (tagFile c)
  return entities ++ responses ++ apis ++
    [configurationFile root c, abstractApiFile root, apiExceptionFile root]

def manifestFile (c : Client) (options : PackageOptions) : SourceFile where
  path := "composer.json"
  content := manifestText c.rootNamespace c options

-- The first path that comes again.
def repeatedPath? (paths : List String) : Option String :=
  (paths.zipIdx.find? fun (path, i) => path ∈ paths.take i).map (·.1)

-- All files of a client. A word that is reserved can make two names one, which leaves no place for
-- the second file.
def generate (c : Client) (options : PackageOptions) : Except GenerationError (List SourceFile) := do
  let classes ← classFiles c
  let files := classes.map (fun f => { path := f.path, content := f.text }) ++
    [manifestFile c options]
  match repeatedPath? (files.map (·.path)) with
  | some path => throw (.generatedTwice path)
  | none => return files

end OpenApiClient.Php
