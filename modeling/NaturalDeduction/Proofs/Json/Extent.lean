/-
  How large a value that was read can be.

  Every item of an array takes at least one character of the text that it is
  read from, so no array in a value has more items than its text has
  characters. This bounds the lists in whatever is decoded from the value.
-/

import NaturalDeduction.Json.Decode
import NaturalDeduction.Proofs.Json.Canonical
import NaturalDeduction.Proofs.Success

namespace NaturalDeduction.Json

/-! ## What readers leave -/

/-- What a reader leaves is no longer than the text that it was given. -/
def Leaves {α : Type} (cs : List Char) (read? : Option (α × List Char)) : Prop :=
  ∀ a rest, read? = some (a, rest) → rest.length ≤ cs.length

namespace Leaves

variable {α β : Type} {cs cs' : List Char} {read? : Option (α × List Char)}

theorem none : Leaves cs (none : Option (α × List Char)) := by
  intro a rest h
  cases h

theorem some {a : α} {rest : List Char} (h : rest.length ≤ cs.length) :
    Leaves cs (some (a, rest)) := by
  intro other left heq
  cases heq
  exact h

/-- Readers one after the other. -/
theorem bind {next : α × List Char → Option (β × List Char)} (h : Leaves cs read?)
    (hnext : ∀ a rest, rest.length ≤ cs.length → Leaves cs (next (a, rest))) :
    Leaves cs (read? >>= next) := by
  intro b rest heq
  obtain ⟨⟨a, between⟩, hread, hrest⟩ := Option.bind_eq_some_iff.1 heq
  exact hnext a between (h a between hread) b rest hrest

/-- A step before the reader that takes nothing of the text. -/
theorem of_bind {a? : Option α} {next : α → Option (β × List Char)}
    (h : ∀ a, Leaves cs (next a)) : Leaves cs (a? >>= next) := by
  intro b rest heq
  obtain ⟨a, -, hrest⟩ := Option.bind_eq_some_iff.1 heq
  exact h a b rest hrest

theorem map {change : α × List Char → β × List Char} (h : Leaves cs read?)
    (hchange : ∀ a rest, (change (a, rest)).2 = rest) : Leaves cs (read?.map change) := by
  intro b rest heq
  obtain ⟨⟨a, left⟩, hread, hrest⟩ := Option.map_eq_some_iff.1 heq
  have hleft : rest = left := by rw [← hchange a left, hrest]
  rw [hleft]
  exact h a left hread

/-- A longer text in front of the reader makes no difference. -/
theorem mono (h : Leaves cs read?) (hle : cs.length ≤ cs'.length) : Leaves cs' read? :=
  fun a rest heq => (h a rest heq).trans hle

end Leaves

theorem length_skipSpace_le (cs : List Char) : (skipSpace cs).length ≤ cs.length :=
  (List.dropWhile_sublist _).length_le

/-- A text that begins with a character after white space is longer than what follows. -/
theorem length_lt_of_skipSpace {cs rest : List Char} {c : Char} (h : skipSpace cs = c :: rest) :
    rest.length < cs.length := by
  have hle := length_skipSpace_le cs
  rw [h, List.length_cons] at hle
  exact hle

theorem leaves_stringBody? (half? : Option Nat) (cs : List Char) :
    Leaves cs (stringBody? half? cs) := by
  fun_induction stringBody? half? cs with
  | case1 half? a b c d rest ihplain ihhalf ihunit =>
    have hle : rest.length ≤ ('\\' :: 'u' :: a :: b :: c :: d :: rest).length := by
      simp only [List.length_cons]
      omega
    refine .of_bind fun unit => ?_
    split
    · split
      · exact (ihplain.mono hle).bind fun _ _ => .some
      · exact ((ihhalf unit).mono hle).bind fun _ _ => .some
    · split
      · exact (ihunit unit).mono hle
      · refine (ihplain.mono hle).bind fun _ _ hrest => ?_
        dsimp only
        split
        · exact .some hrest
        · exact .some hrest
  | case2 => exact .some (Nat.le_succ _)
  | case3 half? c rest _ ih =>
    exact .of_bind fun _ => (ih.mono (Nat.le_add_right _ 2)).bind fun _ _ => .some
  | case4 => exact .none
  | case5 half? c rest _ _ _ next _ ih => exact (ih.mono (Nat.le_succ _)).bind fun _ _ => .some
  | case6 => exact .none

theorem leaves_digitsAt? (cs : List Char) : Leaves cs (digitsAt? cs) := by
  unfold digitsAt?
  split
  · exact .none
  · exact .some (List.dropWhile_sublist _).length_le

theorem leaves_wholeAt? (cs : List Char) : Leaves cs (wholeAt? cs) := by
  unfold wholeAt?
  split
  · split
    · split
      · exact .none
      · exact .some (Nat.le_succ _)
    · exact .some (Nat.le_succ _)
  · exact leaves_digitsAt? _

theorem leaves_fractionAt? (cs : List Char) : Leaves cs (fractionAt? cs) := by
  unfold fractionAt?
  split
  · exact ((leaves_digitsAt? _).mono (Nat.le_succ _)).map fun _ _ => rfl
  · exact .some le_rfl

theorem leaves_exponentAt? (cs : List Char) : Leaves cs (exponentAt? cs) := by
  unfold exponentAt?
  split
  · split
    · split
      · refine ((leaves_digitsAt? _).mono ?_).map fun _ _ => rfl
        exact Nat.le_add_right _ 2
      · refine ((leaves_digitsAt? _).mono ?_).map fun _ _ => rfl
        exact Nat.le_add_right _ 2
      · refine ((leaves_digitsAt? _).mono ?_).map fun _ _ => rfl
        exact Nat.le_succ _
    · exact .some le_rfl
  · exact .some le_rfl

theorem leaves_numeralAt? (cs : List Char) : Leaves cs (numeralAt? cs) := by
  unfold numeralAt?
  split
  rename_i isNegative left hsign
  have hle : left.length ≤ cs.length := by
    split at hsign
    · cases hsign
      exact Nat.le_succ _
    · cases hsign
      exact le_rfl
  refine ((leaves_wholeAt? left).mono hle).bind fun whole left hle => ?_
  refine ((leaves_fractionAt? left).mono hle).bind fun fraction? left hle => ?_
  exact ((leaves_exponentAt? left).mono hle).bind fun _ _ => .some

theorem length_le_of_expect? {expected cs rest : List Char} (h : expect? expected cs = some rest) :
    rest.length ≤ cs.length := by
  fun_induction expect? expected cs with
  | case1 cs =>
    cases h
    exact le_rfl
  | case2 => cases h
  | case3 es c cs ih => exact (ih h).trans (Nat.le_succ _)
  | case4 => cases h

/-! ## Values -/

/-- No array in the value has more items than the bound. -/
inductive Within (bound : Nat) : Json → Prop where
  | null : Within bound .null
  | bool (value : Bool) : Within bound (.bool value)
  | number (value : JsonNumber) : Within bound (.number value)
  | string (text : String) : Within bound (.string text)
  | array {items : List Json} (hlength : items.length ≤ bound)
    (hitems : ∀ item ∈ items, Within bound item) : Within bound (.array items)
  | object {members : List (String × Json)} (hmembers : ∀ member ∈ members, Within bound member.2) :
    Within bound (.object members)
  | unrepresentable : Within bound .unrepresentable

theorem Within.mono {bound bound' : Nat} {value : Json} (h : Within bound value)
    (hle : bound ≤ bound') : Within bound' value := by
  induction h with
  | null => exact .null
  | bool value => exact .bool value
  | number value => exact .number value
  | string text => exact .string text
  | array hlength _ ih => exact .array (hlength.trans hle) ih
  | object _ ih => exact .object ih
  | unrepresentable => exact .unrepresentable

theorem Within.objectOf {bound : Nat} {members? : Option (List (String × Json))}
    (h : ∀ members, members? = some members → ∀ member ∈ members, Within bound member.2) :
    Within bound (objectOf members?) := by
  cases members? with
  | none => exact .unrepresentable
  | some members => exact .object (h members rfl)

theorem Within.addMember {bound : Nat} {key : Characters} {value : Json}
    {members? : Option (List (String × Json))} (hvalue : Within bound value)
    (h : ∀ members, members? = some members → ∀ member ∈ members, Within bound member.2) :
    ∀ members, addMember key value members? = some members →
      ∀ member ∈ members, Within bound member.2 := by
  intro members hmembers
  obtain ⟨characters, -, hmembers⟩ := Option.bind_eq_some_iff.1 hmembers
  obtain ⟨others, hothers, hdone⟩ := Option.bind_eq_some_iff.1 hmembers
  cases hdone
  exact List.forall_mem_cons.2 ⟨hvalue, h others hothers⟩

mutual

/-- A value that was read lies within the text. -/
theorem within_valueAt? {steps : Nat} {cs rest : List Char} {value : Json}
    (h : valueAt? steps cs = some (value, rest)) :
    rest.length ≤ cs.length ∧ Within cs.length value := by
  match steps with
  | 0 => cases h
  | steps + 1 =>
    rw [valueAt?] at h
    split at h
    · rename_i left hbrace
      have hlt := length_lt_of_skipSpace hbrace
      split at h
      · rename_i after hclosing
        have hlt' := length_lt_of_skipSpace hclosing
        cases h
        exact ⟨by omega, .object (List.forall_mem_nil _)⟩
      · have hle := length_skipSpace_le left
        obtain ⟨⟨members?, after⟩, hmembers, hdone⟩ := Option.bind_eq_some_iff.1 h
        obtain ⟨hrest, hwithin⟩ := within_membersAt? hmembers
        cases hdone
        exact ⟨by omega, .objectOf fun members hsome member hmember =>
          (hwithin members hsome member hmember).mono (by omega)⟩
    · rename_i left hbracket
      have hlt := length_lt_of_skipSpace hbracket
      split at h
      · rename_i after hclosing
        have hlt' := length_lt_of_skipSpace hclosing
        cases h
        exact ⟨by omega, .array (Nat.zero_le _) (List.forall_mem_nil _)⟩
      · have hle := length_skipSpace_le left
        obtain ⟨⟨items, after⟩, hitems, hdone⟩ := Option.bind_eq_some_iff.1 h
        obtain ⟨hrest, hwithin⟩ := within_itemsAt? hitems
        cases hdone
        exact ⟨by omega, .array (by omega) fun item hitem => (hwithin item hitem).mono (by omega)⟩
    · rename_i left hquote
      have hlt := length_lt_of_skipSpace hquote
      obtain ⟨⟨characters, after⟩, hstring, hdone⟩ := Option.bind_eq_some_iff.1 h
      have hrest := leaves_stringBody? none left characters after hstring
      cases hdone
      refine ⟨by omega, ?_⟩
      cases characters with
      | none => exact .unrepresentable
      | some characters => exact .string _
    · rename_i left hliteral
      have hlt := length_lt_of_skipSpace hliteral
      obtain ⟨after, hafter, hdone⟩ := Option.map_eq_some_iff.1 h
      have hrest := length_le_of_expect? hafter
      cases hdone
      exact ⟨by omega, .null⟩
    · rename_i left hliteral
      have hlt := length_lt_of_skipSpace hliteral
      obtain ⟨after, hafter, hdone⟩ := Option.map_eq_some_iff.1 h
      have hrest := length_le_of_expect? hafter
      cases hdone
      exact ⟨by omega, .bool true⟩
    · rename_i left hliteral
      have hlt := length_lt_of_skipSpace hliteral
      obtain ⟨after, hafter, hdone⟩ := Option.map_eq_some_iff.1 h
      have hrest := length_le_of_expect? hafter
      cases hdone
      exact ⟨by omega, .bool false⟩
    · have hle := length_skipSpace_le cs
      obtain ⟨⟨numeral, after⟩, hnumeral, hdone⟩ := Option.bind_eq_some_iff.1 h
      have hrest := leaves_numeralAt? _ numeral after hnumeral
      cases hdone
      refine ⟨by omega, ?_⟩
      cases numeral.number? with
      | none => exact .unrepresentable
      | some number => exact .number _

/-- Every item takes at least one character. -/
theorem within_itemsAt? {steps : Nat} {cs rest : List Char} {items : List Json}
    (h : itemsAt? steps cs = some (items, rest)) :
    items.length + rest.length ≤ cs.length ∧ ∀ item ∈ items, Within cs.length item := by
  match steps with
  | 0 => cases h
  | steps + 1 =>
    rw [itemsAt?] at h
    obtain ⟨⟨item, left⟩, hitem, h⟩ := Option.bind_eq_some_iff.1 h
    obtain ⟨hle, hwithin⟩ := within_valueAt? hitem
    dsimp only at h
    split at h
    · rename_i after hcomma
      have hlt := length_lt_of_skipSpace hcomma
      obtain ⟨⟨others, last⟩, hothers, hdone⟩ := Option.bind_eq_some_iff.1 h
      obtain ⟨hrest, hall⟩ := within_itemsAt? hothers
      cases hdone
      refine ⟨?_, List.forall_mem_cons.2 ⟨hwithin, fun other hother => ?_⟩⟩
      · simp only [List.length_cons]
        omega
      · exact (hall other hother).mono (by omega)
    · rename_i after hbracket
      have hlt := length_lt_of_skipSpace hbracket
      cases h
      refine ⟨?_, by simpa using hwithin⟩
      simp only [List.length_singleton]
      omega
    · cases h

theorem within_membersAt? {steps : Nat} {cs rest : List Char}
    {members? : Option (List (String × Json))} (h : membersAt? steps cs = some (members?, rest)) :
    rest.length ≤ cs.length ∧
      ∀ members, members? = some members → ∀ member ∈ members, Within cs.length member.2 := by
  match steps with
  | 0 => cases h
  | steps + 1 =>
    rw [membersAt?] at h
    split at h
    · rename_i left hquote
      have hltKey := length_lt_of_skipSpace hquote
      obtain ⟨⟨key, left⟩, hkey, h⟩ := Option.bind_eq_some_iff.1 h
      have hleKey := leaves_stringBody? none _ key left hkey
      dsimp only at h
      split at h
      · rename_i left hcolon
        have hltColon := length_lt_of_skipSpace hcolon
        obtain ⟨⟨value, left⟩, hvalue, h⟩ := Option.bind_eq_some_iff.1 h
        obtain ⟨hle, hwithin⟩ := within_valueAt? hvalue
        have hfirst : Within cs.length value := hwithin.mono (by omega)
        dsimp only at h
        split at h
        · rename_i left hcomma
          have hlt := length_lt_of_skipSpace hcomma
          obtain ⟨⟨others?, last⟩, hothers, hdone⟩ := Option.bind_eq_some_iff.1 h
          obtain ⟨hrest, hall⟩ := within_membersAt? hothers
          dsimp only at hdone
          cases hdone
          exact ⟨by omega, hfirst.addMember fun others hsome member hmember =>
            (hall others hsome member hmember).mono (by omega)⟩
        · rename_i left hbrace
          have hlt := length_lt_of_skipSpace hbrace
          cases h
          refine ⟨by omega, hfirst.addMember fun others hsome => ?_⟩
          cases hsome
          exact List.forall_mem_nil _
        · cases h
      · cases h
    · cases h

end

/-- Sorting the members of objects leaves the arrays as they are. -/
theorem Within.canonical {bound : Nat} {value : Json} (h : Within bound value) :
    Within bound value.canonical := by
  induction h with
  | array hlength _ ih =>
    rw [Json.canonical, canonicalItems_eq_map]
    exact .array (by rwa [List.length_map]) (List.forall_mem_map.2 ih)
  | object _ ih =>
    rw [Json.canonical]
    exact .object (forall_mem_canonicalMembers (List.forall_mem_nil _) ih)
  | null => exact .null
  | bool value => exact .bool value
  | number value => exact .number value
  | string text => exact .string text
  | unrepresentable => exact .unrepresentable

/-- A whole text bounds the arrays of the value that it is read as. -/
theorem within_readValue? {cs : List Char} {value : Json} (h : readValue? cs = some value) :
    Within cs.length value := by
  obtain ⟨plain, hplain, hvalue⟩ := Option.bind_eq_some_iff.1 h
  obtain ⟨⟨read, rest⟩, hread, hend⟩ := Option.bind_eq_some_iff.1 hplain
  have hwithin := (within_valueAt? hread).2
  dsimp only at hend
  split at hend
  · cases hend
    split at hvalue
    · cases hvalue
      exact hwithin.canonical
    · cases hvalue
  · cases hend

/-! ## Decoding -/

variable {bound : Nat} {json : Json} {fields : Fields}

theorem within_of_asRecord {names : List String} (h : asRecord names json = .ok fields)
    (hjson : Within bound json) : ∀ field ∈ fields, Within bound field.2 := by
  unfold asRecord at h
  split at h
  · dsimp only at h
    split at h
    · cases h
    · cases h
      cases hjson with
      | object hmembers => exact fun field hfield => hmembers field (List.mem_of_mem_filter hfield)
  · split at h
    · cases h
      cases hjson with
      | array _ hitems => exact fun field hfield => hitems field.2 (List.of_mem_zip hfield).2
    · cases h
  · cases h

theorem Fields.mem_of_lookup {name : String} {value : Json} (h : fields.lookup name = some value) :
    (name, value) ∈ fields := by
  obtain ⟨before, after, rfl, -⟩ := List.lookup_eq_some_iff.1 h
  exact List.mem_append_right _ (.head _)

theorem exists_of_required {α : Type} {name : String} {decode : Json → Decoded α} {a : α}
    (h : fields.required name decode = .ok a) (hfields : ∀ field ∈ fields, Within bound field.2) :
    ∃ value, Within bound value ∧ decode value = .ok a := by
  unfold Fields.required at h
  split at h
  · rename_i value hlookup
    exact ⟨value, hfields _ (Fields.mem_of_lookup hlookup), h⟩
  · cases h

theorem exists_of_optional {α : Type} {name : String} {default : α} {decode : Json → Decoded α}
    {a : α} (h : fields.optional name default decode = .ok a)
    (hfields : ∀ field ∈ fields, Within bound field.2) :
    a = default ∨ ∃ value, Within bound value ∧ decode value = .ok a := by
  unfold Fields.optional at h
  split at h
  · rename_i value hlookup
    exact .inr ⟨value, hfields _ (Fields.mem_of_lookup hlookup), h⟩
  · cases h
    exact .inl rfl

theorem length_le_of_asList {α : Type} {decode : Json → Decoded α} {as : List α}
    (h : asList decode json = .ok as) (hjson : Within bound json) : as.length ≤ bound := by
  unfold asList at h
  split at h
  · cases hjson with
    | array hlength _ => rwa [← (Except.mapM_eq_ok.1 h).length_eq]
  · cases h

end NaturalDeduction.Json
