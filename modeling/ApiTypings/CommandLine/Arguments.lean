/-!
# Arguments

The commands that can be given on the command line (`Command`), and how they are read off
its arguments (`Command.ofArguments?`). There are two: `generate` writes a declaration
file, and `check` only reports.
-/

namespace ApiTypings.CommandLine

/-- When to accent what is printed. -/
inductive ColorChoice
  /-- If it is printed on a terminal. -/
  | auto
  | always
  | never
  deriving DecidableEq, Repr

/-- What both commands are told. -/
structure Options where
  /-- The file that holds the documentation; a minus stands for the standard input. -/
  input : String
  /-- The types that are known besides the usual ones. -/
  known : List String := []
  /-- Whether warnings count as errors. -/
  strict : Bool := false
  color : ColorChoice := .auto
  deriving DecidableEq, Repr

/-- A command. -/
inductive Command
  /-- Writes the declarations to a file, or to the standard output if none is given. -/
  | generate (options : Options) (output : Option String) (indent : Nat)
  | check (options : Options)
  deriving DecidableEq, Repr

/-- The words for the two commands. -/
inductive Verb
  | generate
  | check
  deriving DecidableEq, Repr

/-- The options that have a value. -/
inductive ValueOption
  | output
  | indent
  | knownType
  | color
  deriving DecidableEq, Repr

/-- What an argument can be. -/
inductive Argument
  /-- The mark after which all arguments are plain. -/
  | separator
  | strict
  /-- An option, with its value if the same argument holds it. -/
  | option (o : ValueOption) (value : Option String)
  | plain (text : String)
  deriving DecidableEq, Repr

/-- The option with a long name that a command has. -/
def ValueOption.ofName? (verb : Verb) (name : String) : Option ValueOption :=
  if name = "known-type" then some .knownType
  else if name = "color" then some .color
  else if verb = .generate ∧ name = "output" then some .output
  else if verb = .generate ∧ name = "indent" then some .indent
  else none

namespace Argument

/-- A long option: its name goes up to an equals sign, after which its value stands. -/
def ofLong? (verb : Verb) (text : List Char) : Option Argument :=
  let name := String.ofList (text.takeWhile (· != '='))
  let value :=
    match text.dropWhile (· != '=') with
    | [] => none
    | _ :: value => some (String.ofList value)
  if name = "strict" ∧ value = none then some .strict
  else (ValueOption.ofName? verb name).map fun o => .option o value

/-- A short option: after its letter its value may stand, with or without an equals sign. -/
def ofShort? (verb : Verb) : List Char → Option Argument
  | [] => none
  | letter :: value =>
    if verb = .generate ∧ letter = 'o' then
      match value with
      | [] => some (.option .output none)
      | '=' :: value => some (.option .output (some (String.ofList value)))
      | value => some (.option .output (some (String.ofList value)))
    else none

/-- What an argument of a command is, none if it is an option that the command lacks. A
minus alone is plain. -/
def ofString? (verb : Verb) (text : String) : Option Argument :=
  match text.toList with
  | ['-', '-'] => some .separator
  | '-' :: '-' :: long => ofLong? verb long
  | ['-'] => some (.plain text)
  | '-' :: short => ofShort? verb short
  | _ => some (.plain text)

end Argument

/-- What arguments have told. -/
structure Given where
  input : Option String := none
  output : Option String := none
  indent : Option Nat := none
  known : List String := []
  strict : Bool := false
  color : Option ColorChoice := none

namespace Given

/-- The greatest number that an option can have: `2 ^ 64 - 1`. -/
def greatest : Nat := 0xFFFFFFFFFFFFFFFF

/-- A number that an option can have: digits, after a plus or not. -/
def number? (text : String) : Option Nat :=
  let digits :=
    match text.toList with
    | '+' :: digits => digits
    | digits => digits
  let n := digits.foldl (fun n c => 10 * n + (c.toNat - '0'.toNat)) 0
  if digits.isEmpty || !digits.all Char.isDigit || greatest < n then none else some n

/-- The choice that a word stands for. -/
def color? (text : String) : Option ColorChoice :=
  if text = "auto" then some .auto
  else if text = "always" then some .always
  else if text = "never" then some .never
  else none

/-- What is given with one more plain argument: there is but one, and it is not empty. -/
def withPlain? (g : Given) (text : String) : Option Given :=
  if g.input.isSome || text.isEmpty then none else some { g with input := some text }

/-- What is given with one more option. Only types may be given more than once. -/
def withOption? (g : Given) (o : ValueOption) (value : String) : Option Given :=
  match o with
  | .output =>
    if g.output.isSome || value.isEmpty then none else some { g with output := some value }
  | .indent =>
    if g.indent.isSome then none else (number? value).map fun n => { g with indent := some n }
  | .knownType => some { g with known := g.known ++ [value] }
  | .color =>
    if g.color.isSome then none else (color? value).map fun c => { g with color := some c }

/-- What is given with all the arguments after the mark. -/
def withPlains? (g : Given) : List String → Option Given
  | [] => some g
  | text :: texts => (g.withPlain? text).bind (·.withPlains? texts)

/-- What is given with all arguments of a command, none if one of them makes no sense. -/
def read? (verb : Verb) (g : Given) : List String → Option Given
  | [] => some g
  | arg :: args =>
    match Argument.ofString? verb arg with
    | none => none
    | some .separator => g.withPlains? args
    | some .strict => if g.strict then none else read? verb { g with strict := true } args
    | some (.plain text) => (g.withPlain? text).bind fun g => read? verb g args
    | some (.option o (some value)) => (g.withOption? o value).bind fun g => read? verb g args
    | some (.option o none) =>
      match args with
      | [] => none
      | value :: args =>
        match Argument.ofString? verb value with
        | some (.plain text) => (g.withOption? o text).bind fun g => read? verb g args
        | _ => none

end Given

namespace Command

/-- What a command is told. -/
def options : Command → Options
  | generate options _ _ | check options => options

/-- The command that arguments stand for, none if they stand for no command. -/
def ofArguments? : List String → Option Command
  | [] => none
  | word :: args => do
    let verb ←
      if word = "generate" then some Verb.generate
      else if word = "check" then some Verb.check
      else none
    let given ← Given.read? verb {} args
    let options : Options :=
      { input := ← given.input
        known := given.known
        strict := given.strict
        color := given.color.getD .auto }
    match verb with
    | .generate => return .generate options given.output (given.indent.getD 4)
    | .check => return .check options

end Command

end ApiTypings.CommandLine
