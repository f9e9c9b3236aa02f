import ApiTypings.CommandLine.Run

/-!
# Performing commands

What a command does to its surroundings (`Command.perform`): it reads its input, writes the
declarations if there are any to write, and prints what is reported. It gets at the surroundings
only through the operations that a `Host` has for it. Declarations without a text stop the program
before anything is written.
-/

namespace ApiTypings.CommandLine

/-- What a program can do with its surroundings. -/
structure Host (m : Type → Type) where
  /-- Whether it prints on a terminal. -/
  onTerminal : m Bool
  /-- The text of an input, or why it cannot be read. -/
  read : String → m (Except String String)
  /-- Writes a text to a file, or to the standard output if none is given. -/
  write : Option String → String → m (Except Failure Unit)
  /-- Prints messages. -/
  print : String → m Unit
  /-- What is printed when the program is stopped for a reason. -/
  crashText : String → m String

/-- Performs a command, and answers with the status in which the program ends. -/
def Command.perform {m : Type → Type} [Monad m] (host : Host m) (command : Command) : m Nat := do
  let terminal ← host.onTerminal
  let report := command.run terminal (← host.read command.options.input)
  let written ←
    match report.output with
    | none => pure (.ok ())
    | some ⟨path, some text⟩ => host.write path text
    | some ⟨_, none⟩ => pure (.error (.crash (← host.crashText "capacity overflow")))
  let (messages, status) := report.finish written
  host.print messages
  return status

end ApiTypings.CommandLine
