import OpenApiClient.Client.Summary
import OpenApiClient.Command.Arguments
import OpenApiClient.Command.Failure
import OpenApiClient.Command.Settings
import OpenApiClient.Yaml.Writer

/-!
The commands, on files that are given by their operations.
-/

namespace OpenApiClient

structure Transcript where
  out : String := ""
  err : String := ""
  deriving DecidableEq, Repr

structure Outcome where
  exitCode : Nat
  transcript : Transcript
  -- Why it failed, if it did.
  failure : Option Failure := none
  deriving DecidableEq, Repr

namespace Command

variable {m : Type → Type} [Monad m]

-- A command at work: it writes, and may fail.
abbrev Run (m : Type → Type) := ExceptT Failure (StateT Transcript m)

def sayOut (text : String) : Run m Unit :=
  modify fun t => { t with out := t.out ++ text }

def sayErr (line : String) : Run m Unit :=
  modify fun t => { t with err := t.err ++ line ++ "\n" }

-- An operation on files, which fails with a message of its own.
def onFiles {α : Type} (message : String) (operation : m (Except FileError α)) : Run m α := do
  match ← (operation : m (Except FileError α)) with
  | .ok a => return a
  | .error e => throw { message, causes := [.system e] }

-- A result, or a failure with a message and its causes.
def orFail {α ε : Type} (message : String) (causes : ε → List Cause) : Except ε α → Run m α
  | .ok a => return a
  | .error e => throw { message, causes := causes e }

-- The settings of the project, or the standard ones where there is no file.
def settings (files : FileOperations m) : Run m Settings := do
  if !(← files.hasPath Settings.fileName) then
    return {}
  match ← files.readText Settings.fileName with
  | .error e =>
    throw { message := "failed to read config " ++ Settings.fileName ++ ": " ++ e.reason }
  | .ok text =>
    match Settings.ofYaml text with
    | some settings => return settings
    | none =>
      throw { message :=
        "failed to parse config " ++ Settings.fileName ++ ": the text does not describe settings" }

-- The document in a file, which is JSON if the name of the file says so.
def document (files : FileOperations m) (path : String) : Run m Document := do
  let text ← onFiles ("failed to read " ++ path) (files.readText path)
  let read := if FilePath.extension? path = some "json" then Document.ofJson text
    else Document.ofYaml text
  orFail ("failed to parse " ++ path) Document.ReadError.causes read

def client (files : FileOperations m) (path : String) (rootNamespace : String) : Run m Client := do
  let d ← document files path
  orFail ("failed to build descriptors for " ++ path) BuildError.causes (d.client rootNamespace)

-- What lies beside the generated files.
def readmeText : String := "\n".intercalate [
  "# Generated Code - Do Not Edit",
  "",
  "This directory is **auto-generated** by ocg.",
  "Any manual changes will be overwritten the next time `ocg generate` is run.",
  "",
  "To regenerate, run:",
  "```",
  "ocg generate",
  "```",
  "",
  "Install the client's PSR-18 and PSR-17 dependencies with `composer install`.",
  "To customize the generated output, edit your `.ocg.yaml` configuration file.",
  ""]

def writeGenerated (files : FileOperations m) (directory : String) (file : Php.SourceFile) :
    Run m Unit := do
  let path := FilePath.join directory file.path
  match FilePath.parent? path with
  | some parent =>
    onFiles ("failed to create directory " ++ parent) (files.makeDirectory parent)
  | none => pure ()
  onFiles ("failed to write " ++ path) (files.writeText path file.content)

-- Writes the client for a document into a directory, and tells how many files that were.
def writeClient (files : FileOperations m) (input output : String) (settings : Settings) :
    Run m Nat := do
  let c ← client files input settings.rootNamespace
  let generated ← orFail ("failed to generate a client for " ++ input) Php.GenerationError.causes
    (Php.generate c settings.package)
  onFiles ("failed to create output directory " ++ output) (files.makeDirectory output)
  generated.forM (writeGenerated files output)
  let readme := FilePath.join output "README.md"
  onFiles ("failed to write " ++ readme) (files.writeText readme readmeText)
  return generated.length + 1

def performGenerate (files : FileOperations m) (input output rootNamespace : Option String) :
    Run m Unit := do
  let found ← settings files
  let settings := { found with rootNamespace := rootNamespace.getD found.rootNamespace }
  let input := input.getD settings.input
  let output := output.getD settings.output
  sayErr ("Generating " ++ input ++ " → " ++ output ++ " (" ++ settings.rootNamespace ++ ")")
  let written ← writeClient files input output settings
  sayErr ("Generated " ++ toString written ++ " files in " ++ output)
  sayErr ("\nThe generated directory should not be edited manually; " ++
    "changes will be overwritten.")

def performValidate (files : FileOperations m) (input : String) : Run m Unit := do
  let d ← document files input
  sayErr ("Valid OpenAPI " ++ d.openapi ++ " document: " ++ d.info.title)
  sayErr ("  Version: " ++ d.info.version)
  sayErr ("  Paths: " ++ toString d.paths.length)
  match d.components with
  | some components => sayErr ("  Component schemas: " ++ toString components.schemas.length)
  | none => pure ()
  match d.client Client.defaultNamespace with
  | .error e => throw { message := e.message, causes := e.causes.tail }
  | .ok c =>
    sayErr ("  Operations: " ++ toString c.endpoints.length)
    sayErr ("  Models: " ++ toString c.entities.length)
    sayErr ("  Responses: " ++ toString c.responses.length)
    sayErr ("  APIs: " ++ toString c.apis.length)
    sayErr "Validation successful."

def performInspect (files : FileOperations m) (input : String) (format : SummaryFormat) : Run m Unit := do
  let settings ← settings files
  let c ← client files input settings.rootNamespace
  match format with
  | .yaml => sayOut c.summary.renderYaml
  | .json => sayOut (c.summary.renderPretty ++ "\n")

def performInit (files : FileOperations m) (force : Bool) : Run m Unit := do
  if (← files.hasPath Settings.fileName) && !force then
    throw { message := Settings.fileName ++ " already exists. Use --force to overwrite." }
  onFiles ("failed to write " ++ Settings.fileName)
    (files.writeText Settings.fileName Settings.initialText)
  sayErr ("Created " ++ Settings.fileName)

def perform (files : FileOperations m) : Command → Run m Unit
  | .generate input output rootNamespace => performGenerate files input output rootNamespace
  | .validate input => performValidate files input
  | .inspect input format => performInspect files input format
  | .init force => performInit files force
  | .version => sayOut "ocg 0.3.0\n"

-- Runs what the arguments say: 0 is success, 1 a failure, which is told, and 2 arguments that are
-- not understood.
def run (files : FileOperations m) (arguments : List String) : m Outcome := do
  match parse? arguments with
  | none => return { exitCode := 2, transcript := { err := "error: unexpected arguments\n" } }
  | some command =>
    let (result, transcript) ← ((perform files command).run).run {}
    match result with
    | .ok () => return { exitCode := 0, transcript }
    | .error failure =>
      let transcript := { transcript with
        err := transcript.err ++ "Error: " ++ failure.text ++ "\n" }
      return { exitCode := 1, transcript, failure }

end Command

end OpenApiClient
