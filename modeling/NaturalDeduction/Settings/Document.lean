/-
  Settings documents.

  Settings are written in TOML, in the tables `verification`, `rules` and
  `checker`, all of which may be left out; other keys are skipped. A table may
  also be written as an array of its values in order, of which only those with
  a default may be left out.
-/

import NaturalDeduction.Settings.Basic
import NaturalDeduction.Toml.Reader
import NaturalDeduction.Word.Trap

namespace NaturalDeduction.Settings

/-! ## Values -/

/-- The text that a value is. -/
def asText? : Toml → Option String
  | .string text => some text
  | _ => none

/-- The texts that a value lists. -/
def asTexts? : Toml → Option (List String)
  | .array items => items.mapM asText?
  | _ => none

/-- The milliseconds that a value is, which fit 64 bits. -/
def asPeriod? : Toml → Option Nat
  | .integer value => if 0 ≤ value && value < Word.limit 64 then some value.toNat else none
  | _ => none

/-! ## Tables -/

/-- The values of the fields of a table, by name. What is skipped must still be usable. A moment
counts as a table without any of the fields. -/
def fields? (names : List String) : Toml → Option (List (String × Toml))
  | .table entries =>
    if (entries.filter fun (key, _) => !names.contains key).all fun (_, value) => value.usable then
      some (entries.filter fun (key, _) => names.contains key)
    else none
  | .array items => some (names.zip items)
  | .moment => some []
  | _ => none

/-- The value of a field, or its default when it is left out. -/
def field? {α : Type} (fields : List (String × Toml)) (name : String) (default : Option α)
    (read? : Toml → Option α) : Option α :=
  match fields.lookup name with
  | some value => read? value
  | none => default

/-- Whether a value is an array without items. -/
def isEmptyArray : Toml → Bool
  | .array [] => true
  | _ => false

/-- The period of a `verification` table. The array form must not leave it out. -/
def debounce? (table : Toml) : Option Nat := do
  if isEmptyArray table then none
  let fields ← fields? ["debounce_ms"] table
  field? fields "debounce_ms" (some (Settings.debounce {})) asPeriod?

/-- The names of the rules in a `rules` table. -/
def restricted? (table : Toml) : Option (List String) := do
  let fields ← fields? ["restricted"] table
  field? fields "restricted" (some []) asTexts?

/-- The checker of a `checker` table. -/
def checkerOf? (table : Toml) : Option CheckerSettings := do
  let fields ← fields? ["command", "args", "timeout_ms"] table
  let command ← field? fields "command" none asText?
  let defaults : CheckerSettings := { command }
  let args ← field? fields "args" (some defaults.args) asTexts?
  let timeout ← field? fields "timeout_ms" (some defaults.timeout) asPeriod?
  return { command, args, timeout }

/-! ## Documents -/

/-- Settings as written, before the names of rules are looked up. -/
structure Written where
  debounce : Nat
  restricted : List String
  checker? : Option CheckerSettings

/-- Reads the tables of a document. -/
def written? (text : String) : Option Written := do
  let fields ← fields? ["verification", "rules", "checker"] (.table (← Toml.read? text))
  let debounce ← field? fields "verification" (some (Settings.debounce {})) debounce?
  let restricted ← field? fields "rules" (some []) restricted?
  let checker? ← field? fields "checker" (some none) fun table => some <$> checkerOf? table
  return { debounce, restricted, checker? }

/-- Reads the settings in a text, which is the content of the file at `path`. -/
def ofText (environment : Environment) (path text : String) : Except SettingsError Settings :=
  match written? text with
  | none => .error (.malformed path)
  | some written =>
    match written.restricted.mapM Rule.named? with
    | .error unknown => .error (.unknownRule path unknown)
    | .ok rules =>
      .ok {
        debounce := written.debounce
        restriction := Rule.setOf rules
        checker? := written.checker?.map (CheckerSettings.expand environment) }

/-- Reads the settings in the file at `path`, given what came of reading the file. -/
def ofFile (environment : Environment) (path : String) (content : Except FileError (List UInt8)) :
    Except SettingsError Settings := do
  let text ← (content.bind textOfFile).mapError (.unreadable path)
  ofText environment path text

end NaturalDeduction.Settings
