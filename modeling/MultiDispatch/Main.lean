import MultiDispatch.Probe.Command

/-!
# The program

The probe command as a program: the files it may need are read, the command is run, and what it
leaves behind is printed.
-/

namespace MultiDispatch

/-- The content of a file, if it can be read. -/
def readContent (path : String) : IO (Option ByteArray) := do
  try
    return some (← IO.FS.readBinFile path)
  catch _ => return none

/-- The files that a command with these arguments reads. -/
def Request.files : Request → List String
  | .report manifest options => manifest :: options.config.toList
  | .help => []
  | .version => []
  | .misuse _ => []

end MultiDispatch

open MultiDispatch in
/-- Run the command on the arguments of the program. -/
def main (arguments : List String) : IO UInt32 := do
  let environment ← IO.getEnv Command.settingsVariable
  let paths := (Request.ofArguments arguments environment).files
  let contents ← paths.mapM fun path => return (path, ← readContent path)
  let result := Command.run arguments environment fun path => (contents.lookup path).join
  IO.print result.output
  if let some complaint := result.complaint then
    IO.eprintln complaint.line
  return UInt32.ofNat result.code
