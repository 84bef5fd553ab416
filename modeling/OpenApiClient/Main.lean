import OpenApiClient.Command.Run

/-!
The program: the commands on the files of the system.
-/

namespace OpenApiClient

-- The result of an action on files, with an error as what is told of it.
def attempt {α : Type} (action : IO α) : IO (Except FileError α) := do
  try return .ok (← action)
  catch e => return .error ⟨toString e⟩

def systemFiles : FileOperations IO where
  hasPath path := return (← attempt (IO.FS.Handle.mk path .read)).toBool
  readText path := attempt (IO.FS.readFile path)
  writeText path text := attempt (IO.FS.writeFile path text)
  makeDirectory path := attempt (if path = "" then pure () else IO.FS.createDirAll path)

end OpenApiClient

open OpenApiClient in
def main (arguments : List String) : IO UInt32 := do
  let outcome ← Command.run systemFiles arguments
  IO.print outcome.transcript.out
  IO.eprint outcome.transcript.err
  return outcome.exitCode.toUInt32
