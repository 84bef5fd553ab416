import OpenApiClient.Index.Response
import OpenApiClient.Operation.Parameter

/-!
Everything that is looked at to name the schemas of a document, in order. A schema of the components
is named by its key, one that is written inside another thing by the way to it. The members of
`allOf` become part of the schema that holds them, and what is in them is named after it.
-/

namespace OpenApiClient

-- A schema where it stands: its name, and the names of the schemas around it, outermost first.
structure SchemaPosition where
  name : String
  schema : Schema
  pointer : String
  enclosing : List String

inductive IndexStep where
  | visit (position : SchemaPosition)
  | followSchema (reference : String)
  | followRequestBody (reference : String)
  | followParameter (reference : String)
  | fail (error : BuildError)

namespace Schema

open Naming Pointer

mutual

-- What is below a schema with the given name and pointer. `enclosing` ends with the name.
def stepsBelow (enclosing : List String) (name pointer : String) : Schema → List IndexStep
  | { properties, additionalProperties, items, allOf, oneOf, anyOf, .. } =>
    propertySteps enclosing name pointer properties ++
      additionalSteps enclosing name pointer additionalProperties ++
      itemSteps enclosing name pointer items ++
      mergedSteps enclosing name pointer 0 allOf ++
      memberSteps enclosing name pointer "oneOf" 0 oneOf ++
      memberSteps enclosing name pointer "anyOf" 0 anyOf

-- A place for a schema that would be called `name`.
def stepsAt (enclosing : List String) (name pointer : String) : RefOr Schema → List IndexStep
  | .ref target => [.followSchema target]
  | .inline schema =>
    .visit { name, schema, pointer, enclosing } ::
      schema.stepsBelow (enclosing ++ [name]) name pointer

def propertySteps (enclosing : List String) (name pointer : String) :
    List (String × RefOr Schema) → List IndexStep
  | [] => []
  | (property, s) :: rest =>
    stepsAt enclosing (nested name property)
        (pointer ++ "/properties/" ++ escapeSegment property) s ++
      propertySteps enclosing name pointer rest

def additionalSteps (enclosing : List String) (name pointer : String) :
    Option (AdditionalProperties (RefOr Schema)) → List IndexStep
  | some (.schema s) =>
    stepsAt enclosing (nested name "additionalProperty")
      (pointer ++ "/additionalProperties") s
  | some (.allowed _) => []
  | none => []

def itemSteps (enclosing : List String) (name pointer : String) :
    Option (RefOr Schema) → List IndexStep
  | some s => stepsAt enclosing (nested name "item") (pointer ++ "/items") s
  | none => []

-- The members of `allOf` have no names of their own.
def mergedSteps (enclosing : List String) (name pointer : String) (i : Nat) :
    List (RefOr Schema) → List IndexStep
  | [] => []
  | .ref target :: rest =>
    .followSchema target :: mergedSteps enclosing name pointer (i + 1) rest
  | .inline s :: rest =>
    s.stepsBelow enclosing name (pointer ++ "/allOf/" ++ toString i) ++
      mergedSteps enclosing name pointer (i + 1) rest

-- The members of a union are numbered from one.
def memberSteps (enclosing : List String) (name pointer keyword : String) (i : Nat) :
    List (RefOr Schema) → List IndexStep
  | [] => []
  | s :: rest =>
    stepsAt enclosing (nested name (keyword ++ toString (i + 1)))
        (pointer ++ "/" ++ keyword ++ "/" ++ toString i) s ++
      memberSteps enclosing name pointer keyword (i + 1) rest

end

end Schema

namespace Document

open Naming Pointer

def failing (error : NamingError) : List IndexStep := [.fail (.naming error)]

def componentSchemaSteps (d : Document) : List IndexStep :=
  d.componentSchemas.flatMap fun (key, s) =>
    match s, ofComponentKey key with
    | .ref target, _ => [.followSchema target]
    | .inline _, .ok name =>
      Schema.stepsAt [] name ("#/components/schemas/" ++ escapeSegment key) s
    | .inline _, .error e => failing e

-- The schema of JSON content, which is called `name`.
def contentSteps (name pointer : String) (content : List (String × MediaType)) :
    List IndexStep :=
  match jsonContent? content with
  | some (media, { schema := some s, .. }) =>
    Schema.stepsAt [] name (pointer ++ "/content/" ++ escapeSegment media ++ "/schema") s
  | _ => []

-- Only a schema that is written in the response itself is looked at.
def responseSteps (responses : ResponseIndex) : List IndexStep :=
  responses.entries.flatMap fun found =>
    match found.response.json? with
    | some (media, { schema := some (.inline s), .. }) =>
      Schema.stepsAt [] (responseBodyName found.name)
        (found.origin ++ "/content/" ++ escapeSegment media ++ "/schema") (.inline s)
    | _ => []

def componentRequestBodySteps (c : Components) : List IndexStep :=
  c.requestBodies.flatMap fun (key, body) =>
    match body, ofComponentKey key with
    | .ref target, _ => [.followRequestBody target]
    | .inline body, .ok name =>
      contentSteps (requestBodyName name)
        ("#/components/requestBodies/" ++ escapeSegment key) body.content
    | .inline _, .error e => failing e

def componentParameterSteps (c : Components) : List IndexStep :=
  c.parameters.flatMap fun (key, p) =>
    match p with
    | .ref target => [.followParameter target]
    | .inline p =>
      match p.schema, ofComponentKey key with
      | none, _ => []
      | some s, .ok name =>
        Schema.stepsAt [] (name ++ "Parameter")
          ("#/components/parameters/" ++ escapeSegment key ++ "/schema") s
      | some _, .error e => failing e

-- A parameter that is written in the operation or its path is named after the operation.
def parameterSteps (stem : String) (p : OperationParameter) : List IndexStep :=
  match p.source with
  | .inline { schema := some s, .. } =>
    Schema.stepsAt [] (parameterName stem p.localName) (p.pointer ++ "/schema") s
  | _ => []

def operationSteps (d : Document) (o : OperationSite) : List IndexStep :=
  let body := match o.operation.requestBody with
    | some (.inline body) =>
      contentSteps (requestBodyName o.stem) (o.pointer ++ "/requestBody") body.content
    | _ => []
  let parameters := match d.operationParameters o with
    | .ok parameters => parameters.flatMap (parameterSteps o.stem)
    | .error e => [.fail (.resolve e)]
  body ++ parameters

-- Everything that is looked at, in order.
def indexSteps (d : Document) (responses : ResponseIndex) : List IndexStep :=
  d.componentSchemaSteps ++ responseSteps responses ++
    d.components.toList.flatMap (fun c => componentRequestBodySteps c ++ componentParameterSteps c) ++
    d.operations.flatMap d.operationSteps

end Document

end OpenApiClient
