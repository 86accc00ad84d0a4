/-
  References found and cut out by byte offsets.

  The pass of `Text.expand` again, told from what is left of the text. A
  reference is looked for by the offset of its dollar sign, its closing brace by
  an offset counted from the name, and the text before the reference, the name
  and the text behind it are slices between offsets. A slice that does not
  begin and end between two characters stops the pass.
-/

import NaturalDeduction.Text.Expansion
import NaturalDeduction.Text.Span

namespace NaturalDeduction.Text

/-- The byte offset at which a pattern stands first. -/
def offsetIn? (pattern : List Char) : List Char → Option Nat
  | [] => if pattern.isEmpty then some 0 else none
  | c :: cs =>
    if pattern.isPrefixOf (c :: cs) then some 0
    else (offsetIn? pattern cs).map (c.utf8Size + ·)

/-- The byte offset at which a pattern stands first in a text. -/
def offsetOf? (pattern text : String) : Option Nat :=
  offsetIn? pattern.toList text.toList

/-- The number of bytes of a text. -/
def size (text : String) : Nat :=
  byteLength text.toList

/-- Goes on expanding the rest of a text behind what is written already. -/
def expandSlices (environment : Environment) (written rest : String) : Option String :=
  match offsetOf? "$\x7b" rest with
  | none => some (written ++ rest)
  | some start => do
    let behind ← Span.slice? ⟨start + 2, size rest⟩ rest
    match offsetOf? "\x7d" behind with
    | none => return written ++ rest
    | some length =>
      let before ← Span.slice? ⟨0, start⟩ rest
      let name ← Span.slice? ⟨start + 2, start + 2 + length⟩ rest
      match hafter : Span.slice? ⟨start + 2 + length + 1, size rest⟩ rest with
      | none => none
      | some after =>
        have := Span.length_lt_of_slice? hafter (Nat.zero_lt_succ _)
        let value := if name = "" then "" else (environment name).getD ""
        expandSlices environment (written ++ before ++ value) after
  termination_by rest.length

end NaturalDeduction.Text
