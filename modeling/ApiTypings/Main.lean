import ApiTypings.CommandLine.Perform

/-!
# The program

Reads the arguments, and performs the command that they stand for with what the operating system
has.
-/

namespace ApiTypings.CommandLine

/-- The reason of an error of the operating system. -/
def reasonOf : IO.Error → String
  | .noFileOrDirectory _ _ _ => "No such file or directory (os error 2)"
  | .alreadyExists _ code details | .invalidArgument _ code details
  | .permissionDenied _ code details | .resourceExhausted _ code details
  | .inappropriateType _ code details | .noSuchThing _ code details
  | .otherError code details | .resourceBusy code details | .resourceVanished code details
  | .hardwareFault code details => details ++ " (os error " ++ toString code ++ ")"
  | e => toString e

/-- All bytes of a stream, after those read before. -/
partial def readBytes (stream : IO.FS.Stream) (read : ByteArray) : IO ByteArray := do
  let bytes ← stream.read 65536
  if bytes.isEmpty then return read else readBytes stream (read ++ bytes)

/-- The bytes of an input. -/
def inputBytes (input : String) : IO ByteArray := do
  if input = "-" then readBytes (← IO.getStdin) .empty else IO.FS.readBinFile input

/-- The text of an input, or why it cannot be read. -/
def inputText (input : String) : IO (Except String String) := do
  match ← (inputBytes input).toBaseIO with
  | .ok bytes => return decode bytes
  | .error e => return .error (reasonOf e)

/-- Writes declarations to a file, or to the standard output. -/
def writeOutput (path : Option String) (text : String) : IO (Except Failure Unit) := do
  let write : IO Unit :=
    match path with
    | some path => IO.FS.writeFile path text
    | none => do
      let output ← IO.getStdout
      output.putStr text
      output.flush
  match ← write.toBaseIO with
  | .ok () => return .ok ()
  | .error e => return .error (.write (path.getD "<stdout>") (reasonOf e))

/-- Files and standard streams of the operating system. -/
def system : Host IO where
  onTerminal := do return (← (← IO.getStdout).isTty) && (← (← IO.getStderr).isTty)
  read := inputText
  write := writeOutput
  print messages := do (← IO.getStderr).putStr messages
  crashText reason := pure ("the program was stopped: " ++ reason ++ "\n")

end ApiTypings.CommandLine

open ApiTypings.CommandLine

/-- Runs the program. -/
def main (args : List String) : IO UInt32 := do
  match Command.ofArguments? args with
  | some command => return (← command.perform system).toUInt32
  | none =>
    (← IO.getStderr).putStr "error: invalid arguments\n"
    return 2
