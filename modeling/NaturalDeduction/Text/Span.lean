/-
  Byte spans of a text.

  A span marks the bytes from `start` up to but not including `stop` of a
  text's UTF-8 form. `Span.slice?` cuts the marked part out, and gives nothing
  when the span does not fit: past the end, reversed, or inside a character.
-/

namespace NaturalDeduction

/-- A half-open range of byte offsets. -/
structure Span where
  start : Nat
  stop : Nat
  deriving DecidableEq, Repr

namespace Text

/-- The number of bytes the characters take in UTF-8. -/
def byteLength : List Char → Nat
  | [] => 0
  | c :: cs => c.utf8Size + byteLength cs

/-- Splits the characters after exactly `n` bytes, if a character ends there. -/
def splitBytes? : Nat → List Char → Option (List Char × List Char)
  | 0, cs => some ([], cs)
  | _ + 1, [] => none
  | n + 1, c :: cs =>
    if c.utf8Size ≤ n + 1 then
      (splitBytes? (n + 1 - c.utf8Size) cs).map fun (before, after) => (c :: before, after)
    else
      none

@[simp] theorem byteLength_nil : byteLength [] = 0 := rfl

@[simp] theorem byteLength_cons (c : Char) (cs : List Char) :
    byteLength (c :: cs) = c.utf8Size + byteLength cs := rfl

@[simp] theorem byteLength_append (a b : List Char) :
    byteLength (a ++ b) = byteLength a + byteLength b := by
  induction a with
  | nil => simp
  | cons c cs ih => simp [ih, Nat.add_assoc]

/-- What is split is in front of and behind the cut. -/
theorem eq_append_of_splitBytes? {n : Nat} {cs a b : List Char}
    (h : splitBytes? n cs = some (a, b)) : cs = a ++ b ∧ byteLength a = n := by
  fun_induction splitBytes? n cs generalizing a b with
  | case1 cs =>
    cases h
    exact ⟨rfl, rfl⟩
  | case2 => cases h
  | case3 n c cs hle ih =>
    obtain ⟨⟨before, after⟩, hrest, heq⟩ := Option.map_eq_some_iff.1 h
    cases heq
    obtain ⟨rfl, hlength⟩ := ih hrest
    exact ⟨rfl, by rw [byteLength_cons]; omega⟩
  | case4 => cases h

/-- The bytes of a text may be cut between any two of its characters. -/
theorem splitBytes?_append (a b : List Char) :
    splitBytes? (byteLength a) (a ++ b) = some (a, b) := by
  induction a with
  | nil => simp [splitBytes?]
  | cons c cs ih =>
    have hc : 0 < c.utf8Size := Char.utf8Size_pos c
    obtain ⟨n, hn⟩ : ∃ n, c.utf8Size + byteLength cs = n + 1 :=
      ⟨c.utf8Size + byteLength cs - 1, by omega⟩
    have hle : c.utf8Size ≤ n + 1 := by omega
    have hsub : n + 1 - c.utf8Size = byteLength cs := by omega
    simp [hn, splitBytes?, hle, hsub, ih]

end Text

namespace Span

/-- A span is empty when it marks no byte. -/
def isEmpty (span : Span) : Bool :=
  span.start == span.stop

/-- The text that the span marks, if the span fits the text. -/
def slice? (span : Span) (text : String) : Option String := do
  if span.stop < span.start then none
  let (_, rest) ← Text.splitBytes? span.start text.toList
  let (marked, _) ← Text.splitBytes? (span.stop - span.start) rest
  return String.ofList marked

/-- A span that begins and ends where characters do marks the characters between. -/
theorem slice?_eq_some {span : Span} {text : String} {before marked after : List Char}
    (htext : text.toList = before ++ (marked ++ after))
    (hstart : span.start = Text.byteLength before)
    (hstop : span.stop = Text.byteLength before + Text.byteLength marked) :
    span.slice? text = some (String.ofList marked) := by
  have hle : ¬ Text.byteLength before + Text.byteLength marked < Text.byteLength before := by omega
  simp only [slice?, htext, hstart, hstop, if_neg hle, Nat.add_sub_cancel_left, bind, Option.bind,
    Text.splitBytes?_append]
  rfl

/-- What is marked behind the beginning of a text is shorter than the text. -/
theorem length_lt_of_slice? {span : Span} {text part : String} (h : span.slice? text = some part)
    (hstart : 0 < span.start) : part.length < text.length := by
  rw [slice?] at h
  split at h
  · cases h
  obtain ⟨⟨before, rest⟩, hrest, h⟩ := Option.bind_eq_some_iff.1 h
  obtain ⟨⟨marked, after⟩, hmarked, hpart⟩ := Option.bind_eq_some_iff.1 h
  obtain ⟨htext, hbefore⟩ := Text.eq_append_of_splitBytes? hrest
  obtain ⟨rfl, -⟩ := Text.eq_append_of_splitBytes? hmarked
  cases hpart
  cases before with
  | nil => exact absurd hbefore (Nat.ne_of_lt hstart)
  | cons c before =>
    rw [← String.length_toList, ← String.length_toList, htext, String.toList_ofList]
    simp only [List.length_cons, List.length_append]
    omega

end Span

end NaturalDeduction
