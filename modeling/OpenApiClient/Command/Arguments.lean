/-!
The arguments of the command line: a command, and options that it takes, each at most once.
-/

namespace OpenApiClient

structure OptionSpec where
  name : String
  letter : Option Char := none
  -- The values that it takes; `none` if it takes no value.
  accepts : Option (String → Bool)

namespace OptionSpec

-- The values of options, by name.
abbrev Values := List (String × String)

-- Sets an option to a value that it takes, unless it is set.
def set (spec : OptionSpec) (value : String) (values : Values) : Option Values :=
  if (values.lookup spec.name).isSome || !spec.accepts.all (· value) then none
  else some ((spec.name, value) :: values)

-- An argument as an option with what is attached to it. A value follows a long name after an
-- equals sign, and a letter with or without one.
def read? (specs : List OptionSpec) (argument : String) : Option (OptionSpec × Option String) :=
  match argument.toList with
  | '-' :: '-' :: long =>
    let (name, attached) := long.span (· ≠ '=')
    (specs.find? (·.name.toList = name)).map fun spec =>
      (spec, if attached.isEmpty then none else some (String.ofList attached.tail))
  | '-' :: letter :: attached =>
    (specs.find? (·.letter = some letter)).map fun spec =>
      (spec, match attached with
        | [] => none
        | '=' :: value => some (String.ofList value)
        | value => some (String.ofList value))
  | _ => none

-- What starts with a dash is an option, unless it is nothing else.
def isValue (argument : String) : Bool := argument = "-" || !"-".isPrefixOf argument

-- The values of all options. `pending` is the option that waits for its value. Two dashes may
-- stand at the end.
def readAll (specs : List OptionSpec) (pending : Option OptionSpec) (values : Values) :
    List String → Option Values
  | [] => if pending.isSome then none else some values
  | argument :: rest =>
    match pending with
    | some spec => do
      if !isValue argument then none
      readAll specs none (← spec.set argument values) rest
    | none =>
      if argument = "--" then if rest = [] then some values else none
      else
        match read? specs argument with
        | none => none
        | some (spec, attached) =>
          match spec.accepts, attached with
          | none, none => do readAll specs none (← spec.set "" values) rest
          | some _, some value => do readAll specs none (← spec.set value values) rest
          | some _, none => readAll specs (some spec) values rest
          | none, some _ => none

end OptionSpec

inductive SummaryFormat where
  | yaml
  | json
  deriving DecidableEq, Repr

inductive Command where
  -- Writes the client for a document. What is not given is taken from the settings.
  | generate (input output rootNamespace : Option String)
  | validate (input : String)
  | inspect (input : String) (format : SummaryFormat)
  -- Writes the settings to start with.
  | init (force : Bool)
  | version
  deriving DecidableEq, Repr

namespace Command

-- A path is not empty.
def isPath (value : String) : Bool := value ≠ ""

def inputOption : OptionSpec := { name := "input", letter := some 'i', accepts := some isPath }

def outputOption : OptionSpec := { name := "output", letter := some 'o', accepts := some isPath }

def namespaceOption : OptionSpec := { name := "namespace", accepts := some fun _ => true }

def formatOption : OptionSpec :=
  { name := "format", accepts := some fun value => value = "yaml" || value = "json" }

def forceOption : OptionSpec := { name := "force", accepts := none }

-- The command that the arguments say; `none` if they are not understood.
def parse? : List String → Option Command
  | "generate" :: rest => do
    let values ← OptionSpec.readAll [inputOption, outputOption, namespaceOption] none [] rest
    return .generate (values.lookup "input") (values.lookup "output") (values.lookup "namespace")
  | "validate" :: rest => do
    let values ← OptionSpec.readAll [inputOption] none [] rest
    return .validate (← values.lookup "input")
  | "inspect" :: rest => do
    let values ← OptionSpec.readAll [inputOption, formatOption] none [] rest
    let format := if values.lookup "format" = some "json" then .json else .yaml
    return .inspect (← values.lookup "input") format
  | "init" :: rest => do
    let values ← OptionSpec.readAll [forceOption] none [] rest
    return .init (values.lookup "force").isSome
  | first :: _ => if first = "--version" ∨ "-V".isPrefixOf first then some .version else none
  | [] => none

end Command

end OpenApiClient
