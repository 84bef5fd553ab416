import OpenApiClient.Command.Files
import OpenApiClient.Document.Reader
import OpenApiClient.Error
import OpenApiClient.Php.Generator

/-!
Why a command failed, as it is told: what was to be done, and what led to it.
-/

namespace OpenApiClient

inductive Cause where
  | known (text : String)
  -- The files did not allow it.
  | system (error : FileError)
  deriving DecidableEq, Repr

def Cause.text : Cause → String
  | known text => text
  | system error => error.reason

structure Failure where
  message : String
  -- Each of them caused the one before.
  causes : List Cause := []
  deriving DecidableEq, Repr

namespace Failure

-- The lines of a cause, the first after `first` and the others after `others`.
def indented (first others text : String) : String :=
  first ++ String.ofList (Text.replaceAll ['\n'] ('\n' :: others.toList) text.toList)

-- Several causes are numbered.
def causesText : List Cause → String
  | [cause] => indented "    " "    " cause.text
  | causes =>
    "\n".intercalate <| causes.zipIdx.map fun (cause, i) =>
      indented ("    " ++ toString i ++ ": ") "       " cause.text

def text (f : Failure) : String :=
  if f.causes = [] then f.message else f.message ++ "\n\nCaused by:\n" ++ causesText f.causes

end Failure

/-! ### The causes of errors -/

def Document.ReadError.causes : Document.ReadError → List Cause
  | .malformed format =>
    let language := match format with
      | .json => "JSON"
      | .yaml => "YAML"
    let reason := "the text does not describe a document"
    [.known ("failed to parse " ++ language ++ ": " ++ reason), .known reason]
  | .unsupportedVersion version => [.known ("unsupported OpenAPI version: " ++ version)]

def BuildError.causes (e : BuildError) : List Cause :=
  let inner := match e with
    | .resolve cause => cause.message
    | .naming cause => cause.message
  [.known e.message, .known inner]

def Php.GenerationError.causes (e : Php.GenerationError) : List Cause := [.known e.message]

end OpenApiClient
