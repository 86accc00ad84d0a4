/-
  The command line.

  An invocation names a task and, if wanted, a settings file. Arguments are
  read from left to right, and the first one that does not fit settles that
  the command was used wrongly. The settings file may be named before or after
  the name of the task; the later one counts.
-/

import NaturalDeduction.Text.Numeral

namespace NaturalDeduction

/-- The single row to verify, by its number, which counts from 1. -/
inductive Focus where
  | line (number : Nat)
  | goal (number : Nat)
  deriving DecidableEq, Repr

/-- What is to be done. -/
inductive Task where
  | verify (file : String) (focus? : Option Focus)
  | autoFill (file : String) (line : Nat) (write : Bool)
  | listRules
  | serve
  deriving DecidableEq, Repr

/-- A task and the settings file to use for it. -/
structure Invocation where
  settings? : Option String
  task : Task
  deriving DecidableEq, Repr

/-- What the arguments ask for. -/
inductive CommandLine where
  | run (invocation : Invocation)
  | help
  | version
  | misuse
  deriving DecidableEq, Repr

namespace CommandLine

/-! ## Options -/

/-- The options and names found so far; an option that takes a value may be given once. -/
structure Found where
  settings? : Option String := none
  line? : Option Nat := none
  goal? : Option Nat := none
  write : Bool := false
  file? : Option String := none

/-- Which options and names a task has. -/
structure Shape where
  takesFile : Bool := false
  takesLine : Bool := false
  takesGoal : Bool := false
  takesWrite : Bool := false

/-- What stands in the way of a task: the arguments are wrong, or ask for help or the version. -/
abbrev Parsed := Except CommandLine

/-- Splits a long option at its first equals sign. -/
def splitOption (argument : List Char) : List Char × Option (List Char) :=
  match argument.dropWhile (· ≠ '=') with
  | [] => (argument, none)
  | _ :: value => (argument.takeWhile (· ≠ '='), some value)

/-- Whether an argument can be the value of the option before it: it must not look like an option
itself. -/
def isValue (argument : String) : Bool :=
  match argument.toList with
  | ['-'] => true
  | '-' :: _ => false
  | _ => true

/-- The value of an option: what is attached to it, or the next argument. -/
def valueOf (attached? : Option (List Char)) (rest : List String) :
    Parsed (String × List String) :=
  match attached?, rest with
  | some value, rest => .ok (String.ofList value, rest)
  | none, value :: rest => if isValue value then .ok (value, rest) else .error .misuse
  | none, [] => .error .misuse

/-- A path, which is not empty. -/
def path (text : String) : Parsed String :=
  if text.isEmpty then .error .misuse else .ok text

/-- A number. -/
def number (text : String) : Parsed Nat :=
  (Text.readCount text).mapError fun _ => .misuse

/-- Stores a value, unless there is one. -/
def once {α : Type} (old? : Option α) (value : α) : Parsed (Option α) :=
  if old?.isSome then .error .misuse else .ok (some value)

/-- Reads the option with a name, given what is attached to it and the arguments behind it. -/
def readOption (shape : Shape) (found : Found) (name : String) (attached? : Option (List Char))
    (rest : List String) : Parsed (Found × List String) := do
  if name = "help" then .error (if attached?.isSome then .misuse else .help)
  else if name = "config" then
    let (value, rest) ← valueOf attached? rest
    return ({ found with settings? := ← once found.settings? (← path value) }, rest)
  else if name = "line" && shape.takesLine then
    let (value, rest) ← valueOf attached? rest
    return ({ found with line? := ← once found.line? (← number value) }, rest)
  else if name = "goal" && shape.takesGoal then
    let (value, rest) ← valueOf attached? rest
    return ({ found with goal? := ← once found.goal? (← number value) }, rest)
  else if name = "write" && shape.takesWrite && attached?.isNone && !found.write then
    return ({ found with write := true }, rest)
  else .error .misuse

/-- Stores the name of the file. -/
def readFile (shape : Shape) (found : Found) (argument : String) : Parsed Found := do
  if !shape.takesFile then .error .misuse
  return { found with file? := ← once found.file? (← path argument) }

/-- Reads arguments that are no options. -/
def readFiles (shape : Shape) : Found → List String → Parsed Found
  | found, [] => .ok found
  | found, argument :: rest => do readFiles shape (← readFile shape found argument) rest

/-- Reads the arguments behind the name of a task. -/
def readArguments (shape : Shape) : Nat → Found → List String → Parsed Found
  | 0, found, _ => .ok found
  | _, found, [] => .ok found
  | steps + 1, found, argument :: rest => do
    match argument.toList with
    -- Two dashes alone end the options: what follows are files, dashes or not.
    | ['-', '-'] => readFiles shape found rest
    | '-' :: '-' :: option =>
      let (name, attached?) := splitOption option
      let (found, rest) ← readOption shape found (String.ofList name) attached? rest
      readArguments shape steps found rest
    -- One dash alone is a file name, and with letters behind it a short option.
    | ['-'] => readArguments shape steps (← readFile shape found argument) rest
    | '-' :: 'h' :: _ => .error .help
    | '-' :: _ => .error .misuse
    | _ => readArguments shape steps (← readFile shape found argument) rest

/-! ## Tasks -/

/-- The value of something that must be given. -/
def needed {α : Type} (value? : Option α) : Parsed α :=
  match value? with
  | some value => .ok value
  | none => .error .misuse

/-- The row to verify, of which at most one may be named. -/
def focus (found : Found) : Parsed (Option Focus) :=
  match found.line?, found.goal? with
  | none, none => .ok none
  | some number, none => .ok (some (.line number))
  | none, some number => .ok (some (.goal number))
  | some _, some _ => .error .misuse

/-- Reads the task with a name. -/
def readTask (name : String) (rest : List String) : Parsed Invocation := do
  let steps := rest.length + 1
  if name = "verify" then
    let shape : Shape := { takesFile := true, takesLine := true, takesGoal := true }
    let found ← readArguments shape steps {} rest
    return ⟨found.settings?, .verify (← needed found.file?) (← focus found)⟩
  else if name = "autofill" then
    let shape : Shape := { takesFile := true, takesLine := true, takesWrite := true }
    let found ← readArguments shape steps {} rest
    return ⟨found.settings?,
      .autoFill (← needed found.file?) (← needed found.line?) found.write⟩
  else if name = "rules" then
    return ⟨(← readArguments {} steps {} rest).settings?, .listRules⟩
  else if name = "check-server" then
    return ⟨(← readArguments {} steps {} rest).settings?, .serve⟩
  else if name = "help" then .error .help
  else .error .misuse

/-- Reads all arguments, given the settings file named so far. -/
def readAll : Nat → Option String → List String → Parsed Invocation
  | 0, _, _ => .error .misuse
  | _, _, [] => .error .misuse
  | steps + 1, settings?, argument :: rest => do
    match argument.toList with
    | ['-', '-'] => .error .misuse
    | '-' :: '-' :: option =>
      let (name, attached?) := splitOption option
      if name = "version".toList && attached?.isNone then .error .version
      let (found, rest) ← readOption {} { settings? } (String.ofList name) attached? rest
      readAll steps found.settings? rest
    | '-' :: 'V' :: _ => .error .version
    | '-' :: 'h' :: _ => .error .help
    | '-' :: _ => .error .misuse
    | _ =>
      -- What the task's own arguments say about the settings file comes later, and counts.
      let invocation ← readTask argument rest
      return { invocation with settings? := invocation.settings?.or settings? }

/-- What the arguments ask for. -/
def ofArguments (arguments : List String) : CommandLine :=
  match readAll (arguments.length + 1) none arguments with
  | .ok invocation => .run invocation
  | .error other => other

end CommandLine

end NaturalDeduction
