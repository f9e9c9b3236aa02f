import ApiTypings.CommandLine.Arguments
import ApiTypings.Compilation

/-!
# Running commands

What a command does, as far as it does not touch files: from what the input holds, it
finds what is reported, what is to be written, and whether it fails (`Command.run`). After
the writing, `Report.finish` says with which status the program ends. Where there is no text to be
written, the program crashes.
-/

namespace ApiTypings.CommandLine

/-- What stops a command. -/
inductive Failure
  /-- The input, a file or the standard input, cannot be read. -/
  | read (input : String) (reason : String)
  /-- The input is no documentation. -/
  | parse (text : String) (fault : Json.Fault)
  /-- The declarations cannot be written. -/
  | write (path : String) (reason : String)
  /-- The program is stopped, with something printed about it. -/
  | crash (printed : String)

namespace Failure

/-- A message as an error. -/
def error (message : String) : String := "error: " ++ message ++ "\n"

/-- What is printed of a failure. -/
def text : Failure → String
  | read input reason =>
    if input = "-" then error ("failed to read stdin: " ++ reason)
    else error ("failed to read '" ++ input ++ "': " ++ reason)
  | parse text fault => error ("invalid documentation: " ++ fault.report text)
  | write path reason => error ("failed to write '" ++ path ++ "': " ++ reason)
  | crash printed => printed

/-- The status in which a failure leaves the program. -/
def status : Failure → Nat
  | read _ _ | parse _ _ | write _ _ => 1
  | crash _ => 101

theorem status_ne_zero (f : Failure) : f.status ≠ 0 := by cases f <;> simp [status]

end Failure

/-- The text that bytes encode in UTF-8. -/
def decode (bytes : ByteArray) : Except String String :=
  match String.fromUTF8? bytes with
  | some text => .ok text
  | none => .error "stream did not contain valid UTF-8"

/-- Declarations on their way out. -/
structure Output where
  /-- The file that they go to; no file means the standard output. -/
  path : Option String
  /-- Their text, if there is one. -/
  text : Option String
  deriving DecidableEq, Repr

/-- What a command has found out. -/
structure Report where
  /-- What is reported. -/
  messages : String
  /-- What is to be written. -/
  output : Option Output
  /-- Whether the command fails. -/
  fails : Bool
  deriving DecidableEq, Repr

namespace Report

/-- The report of a failure. -/
def ofFailure (f : Failure) : Report := ⟨f.text, none, true⟩

/-- What is reported in the end, and the status, given what came of the writing. -/
def finish (r : Report) (written : Except Failure Unit) : String × Nat :=
  match written with
  | .error f => (r.messages ++ f.text, f.status)
  | .ok () => (r.messages, if r.fails then 1 else 0)

end Report

namespace Options

/-- Whether what is printed is accented, given whether it is printed on a terminal. -/
def accented (o : Options) (terminal : Bool) : Bool :=
  match o.color with
  | .always => true
  | .never => false
  | .auto => terminal

/-- Whether a command fails for what was reported. -/
def failsFor (o : Options) (ds : Diagnostics) : Bool :=
  ds.hasErrors || (o.strict && ds.hasWarnings)

/-- The configuration of a compilation. -/
def config (o : Options) (style : Layout.Style) : Config :=
  { known := extraTypes ++ o.known, style }

end Options

namespace Command

/-- How a command prints declarations: without accents if they go to a file. -/
def style (terminal : Bool) : Command → Layout.Style
  | generate options output indent =>
    { indent, palette := .ofBool (options.accented terminal && output.isNone) }
  | check _ => {}

/-- Where a command writes declarations, if it does. -/
def destination? : Command → Option (Option String)
  | generate _ output _ => some output
  | check _ => none

/-- The report on documentation that has been compiled. -/
def reportOn (command : Command) (terminal : Bool) (compilation : Compilation) : Report :=
  let options := command.options
  { messages := compilation.diagnostics.render (.ofBool (options.accented terminal))
    output := command.destination?.map (⟨·, compilation.render? (command.style terminal)⟩)
    fails := options.failsFor compilation.diagnostics }

/-- Runs a command, given whether it prints on a terminal and what the input holds, or why it
cannot be read. -/
def run (command : Command) (terminal : Bool) (input : Except String String) : Report :=
  match input with
  | .error reason => .ofFailure (.read command.options.input reason)
  | .ok text =>
    match Docs.compileText text (command.options.config (command.style terminal)) with
    | .error fault => .ofFailure (.parse text fault)
    | .ok compilation => command.reportOn terminal compilation

end Command

end ApiTypings.CommandLine
