/-
  Canonical values.

  The keys of a canonical object ascend, so no key stands in it twice, and what
  stands under a key is the canonical form of what stood under it before. A
  value that is canonical already stays as it is, and no value gets other
  numbers or a deeper nesting.
-/

import NaturalDeduction.Proofs.Json.RoundTrip

namespace NaturalDeduction.Json

variable {key name : String} {value : Json} {sorted members : List (String × Json)}

/-! ## Members with ascending keys -/

/-- The keys of the members ascend. -/
def Sorted (members : List (String × Json)) : Prop :=
  members.Pairwise fun a b => a.1 < b.1

theorem Sorted.nodup_keys (h : Sorted members) : (members.map Prod.fst).Nodup :=
  (List.pairwise_map.2 h).imp String.ne_of_lt

/-- A key that neither comes before another one nor is the same comes after it. -/
theorem lt_of_not_lt_of_ne (hlt : ¬ key < name) (hne : key ≠ name) : name < key := by
  by_contra hnot
  exact hne (String.le_antisymm (String.not_lt.1 hnot) (String.not_lt.1 hlt))

/-- After an insertion there are the member put in and members that were there. -/
theorem eq_or_mem_of_mem_insertMember {member : String × Json}
    (h : member ∈ insertMember key value members) : member = (key, value) ∨ member ∈ members := by
  induction members with
  | nil => exact .inl (List.mem_singleton.1 h)
  | cons other rest ih =>
    rw [insertMember] at h
    split at h
    · exact List.mem_cons.1 h
    split at h
    · exact (List.mem_cons.1 h).imp_right (List.mem_cons_of_mem _)
    · rcases List.mem_cons.1 h with rfl | h
      · exact .inr (.head _)
      · exact (ih h).imp_right (List.mem_cons_of_mem _)

theorem Sorted.insertMember (h : Sorted members) (key : String) (value : Json) :
    Sorted (insertMember key value members) := by
  induction members with
  | nil => exact List.pairwise_singleton _ _
  | cons other rest ih =>
    obtain ⟨hother, hrest⟩ := List.pairwise_cons.1 h
    rw [Json.insertMember]
    split
    · rename_i hlt
      refine List.pairwise_cons.2 ⟨fun member hmember => ?_, h⟩
      rcases List.mem_cons.1 hmember with rfl | hmember
      · exact hlt
      · exact String.lt_trans hlt (hother member hmember)
    split
    · rename_i heq
      exact List.pairwise_cons.2 ⟨fun member hmember => heq ▸ hother member hmember, hrest⟩
    · rename_i hlt hne
      refine List.pairwise_cons.2 ⟨fun member hmember => ?_, ih hrest⟩
      rcases eq_or_mem_of_mem_insertMember hmember with rfl | hmember
      · exact lt_of_not_lt_of_ne hlt hne
      · exact hother member hmember

theorem lookup_cons_eq_ite (member : String × Json) (members : List (String × Json))
    (name : String) :
    (member :: members).lookup name =
      if name = member.1 then some member.2 else members.lookup name := by
  obtain ⟨key, value⟩ := member
  by_cases h : name = key
  · simp [h]
  · rw [List.lookup_cons, beq_eq_false_iff_ne.2 h, if_neg h]

theorem lookup_insertMember (key : String) (value : Json) (members : List (String × Json))
    (name : String) :
    (insertMember key value members).lookup name =
      if name = key then some value else members.lookup name := by
  induction members with
  | nil => exact lookup_cons_eq_ite _ _ _
  | cons other rest ih =>
    rw [insertMember]
    split
    · exact lookup_cons_eq_ite _ _ _
    split
    · rename_i heq
      -- The member put in takes the place of the one with its key.
      by_cases h : name = key <;> simp only [lookup_cons_eq_ite, h, ← heq, if_true, if_false]
    · rename_i hne
      simp only [lookup_cons_eq_ite, ih]
      by_cases h : name = other.1
      · simp only [h, Ne.symm hne, if_true, if_false]
      · simp only [h, if_false]

/-- A member whose key comes after all others is put at the end. -/
theorem insertMember_of_lt (h : ∀ member ∈ members, member.1 < key) (value : Json) :
    insertMember key value members = members ++ [(key, value)] := by
  induction members with
  | nil => rfl
  | cons other rest ih =>
    have hlt : other.1 < key := h other (.head _)
    rw [insertMember, if_neg (String.lt_asymm hlt), if_neg (String.ne_of_lt hlt).symm,
      ih fun member hmember => h member (.tail _ hmember), List.cons_append]

/-! ## Canonical members -/

theorem Sorted.canonicalMembers (h : Sorted sorted) (members : List (String × Json)) :
    Sorted (canonicalMembers sorted members) := by
  induction members generalizing sorted with
  | nil => exact h
  | cons member members ih => exact ih (h.insertMember member.1 (canonical member.2))

theorem sorted_canonicalMembers (members : List (String × Json)) :
    Sorted (canonicalMembers [] members) :=
  Sorted.canonicalMembers List.Pairwise.nil members

/-- What holds of the values so far and of the canonical forms of the others holds of all. -/
theorem forall_mem_canonicalMembers {P : Json → Prop} (hsorted : ∀ member ∈ sorted, P member.2)
    (hmembers : ∀ member ∈ members, P (canonical member.2)) :
    ∀ member ∈ canonicalMembers sorted members, P member.2 := by
  induction members generalizing sorted with
  | nil => exact hsorted
  | cons member members ih =>
    refine ih (fun other hother => ?_) fun other hother => hmembers other (.tail _ hother)
    rcases eq_or_mem_of_mem_insertMember hother with rfl | hother
    · exact hmembers member (.head _)
    · exact hsorted other hother

/-- What stands under a key is the canonical form of what stood under it, where no key stood
twice. -/
theorem lookup_canonicalMembers (h : (members.map Prod.fst).Nodup) (name : String) :
    (canonicalMembers sorted members).lookup name =
      ((members.lookup name).map canonical).or (sorted.lookup name) := by
  induction members generalizing sorted with
  | nil => rfl
  | cons member members ih =>
    obtain ⟨hnot, hnodup⟩ := List.nodup_cons.1 h
    rw [canonicalMembers, ih hnodup, lookup_insertMember, lookup_cons_eq_ite]
    by_cases hname : name = member.1
    · have hnone : members.lookup name = none := by
        rw [List.lookup_eq_none_iff]
        intro other hother
        rw [bne_iff_ne, hname]
        exact fun heq => hnot (heq ▸ List.mem_map_of_mem hother)
      simp only [hname, if_true, Option.map_some, Option.some_or]
      rw [← hname, hnone]
      rfl
    · simp only [hname, if_false]

/-- Members that are in order and canonical already are all there is. -/
theorem canonicalMembers_of_sorted (h : Sorted (sorted ++ members))
    (hmembers : ∀ member ∈ members, canonical member.2 = member.2) :
    canonicalMembers sorted members = sorted ++ members := by
  induction members generalizing sorted with
  | nil => rw [canonicalMembers, List.append_nil]
  | cons member members ih =>
    have hlast : ∀ other ∈ sorted, other.1 < member.1 := fun other hother =>
      (List.pairwise_append.1 h).2.2 other hother member (.head _)
    have happend : sorted ++ member :: members = sorted ++ [member] ++ members := by simp
    rw [happend] at h ⊢
    rw [canonicalMembers, hmembers member (.head _), insertMember_of_lt hlast]
    exact ih h fun other hother => hmembers other (.tail _ hother)

/-! ## Canonical items -/

theorem canonicalItems_eq_map (items : List Json) :
    canonicalItems items = items.map canonical := by
  induction items with
  | nil => rfl
  | cons item items ih => rw [canonicalItems, ih, List.map_cons]

/-! ## Whole values -/

section Induction

variable {motive : Json → Prop} (null : motive .null) (bool : ∀ value, motive (.bool value))
  (number : ∀ value, motive (.number value)) (string : ∀ value, motive (.string value))
  (array : ∀ items, (∀ item ∈ items, motive item) → motive (.array items))
  (object : ∀ members, (∀ member ∈ members, motive member.2) → motive (.object members))
  (unrepresentable : motive .unrepresentable)
include null bool number string array object unrepresentable

/-- What holds of a value when it holds of its items and of the values of its members holds of all
values. -/
@[elab_as_elim]
theorem induct (v : Json) : motive v :=
  @Json.rec motive (fun items => ∀ item ∈ items, motive item)
    (fun members => ∀ member ∈ members, motive member.2) (fun member => motive member.2)
    null bool number string array object unrepresentable
    (List.forall_mem_nil _) (fun _ _ hitem hitems => List.forall_mem_cons.2 ⟨hitem, hitems⟩)
    (List.forall_mem_nil _) (fun _ _ hvalue hvalues => List.forall_mem_cons.2 ⟨hvalue, hvalues⟩)
    (fun _ _ hvalue => hvalue) v

end Induction

/-- A canonical value stays as it is. -/
@[simp] theorem canonical_canonical (v : Json) : canonical (canonical v) = canonical v := by
  induction v using induct with
  | array items ih =>
    simp only [canonical, canonicalItems_eq_map, List.map_map, array.injEq, List.map_inj_left]
    exact ih
  | object members ih =>
    have hvalues : ∀ member ∈ canonicalMembers [] members, canonical member.2 = member.2 :=
      forall_mem_canonicalMembers (P := fun v => canonical v = v) (List.forall_mem_nil _) ih
    rw [canonical, canonical, canonicalMembers_of_sorted (sorted_canonicalMembers members) hvalues,
      List.nil_append]
  | _ => rfl

/-! ## Numbers and nesting stay -/

theorem wholeItems_iff {items : List Json} :
    wholeItems items = true ↔ ∀ item ∈ items, whole item = true := by
  induction items with
  | nil => simp [wholeItems]
  | cons item items ih => simp [wholeItems, ih]

theorem wholeMembers_iff :
    wholeMembers members = true ↔ ∀ member ∈ members, whole member.2 = true := by
  induction members with
  | nil => simp [wholeMembers]
  | cons member members ih => simp [wholeMembers, ih]

theorem usableItems_iff {depth : Nat} {items : List Json} :
    usableItems depth items = true ↔ ∀ item ∈ items, usable depth item = true := by
  induction items with
  | nil => simp [usableItems]
  | cons item items ih => simp [usableItems, ih]

theorem usableMembers_iff {depth : Nat} :
    usableMembers depth members = true ↔ ∀ member ∈ members, usable depth member.2 = true := by
  induction members with
  | nil => simp [usableMembers]
  | cons member members ih => simp [usableMembers, ih]

theorem whole_canonical {v : Json} (h : v.whole = true) : v.canonical.whole = true := by
  induction v using induct with
  | array items ih =>
    rw [whole, wholeItems_iff] at h
    rw [canonical, canonicalItems_eq_map, whole, wholeItems_iff, List.forall_mem_map]
    exact fun item hitem => ih item hitem (h item hitem)
  | object members ih =>
    rw [whole, wholeMembers_iff] at h
    rw [canonical, whole, wholeMembers_iff]
    exact forall_mem_canonicalMembers (P := fun v => whole v = true) (List.forall_mem_nil _)
      fun member hmember => ih member hmember (h member hmember)
  | _ => exact h

theorem usable_canonical {v : Json} {depth : Nat} (h : v.usable depth = true) :
    v.canonical.usable depth = true := by
  induction v using induct generalizing depth with
  | array items ih =>
    cases depth with
    | zero => exact h
    | succ depth =>
      rw [usable, usableItems_iff] at h
      rw [canonical, canonicalItems_eq_map, usable, usableItems_iff, List.forall_mem_map]
      exact fun item hitem => ih item hitem (h item hitem)
  | object members ih =>
    cases depth with
    | zero => exact h
    | succ depth =>
      rw [usable, usableMembers_iff] at h
      rw [canonical, usable, usableMembers_iff]
      exact forall_mem_canonicalMembers (P := fun v => usable depth v = true)
        (List.forall_mem_nil _)
        fun member hmember => ih member hmember (h member hmember)
  | _ => exact h

/-! ## Reading back -/

/-- A value is read back from its compact text in canonical form. -/
theorem readValue?_render_canonical {v : Json} (hwhole : v.whole = true)
    (husable : v.usable maxDepth = true) :
    readValue? v.canonical.render.toList = some v.canonical := by
  have hread : readChars? v.canonical.render.toList = some v.canonical :=
    (spells_render _ (whole_canonical hwhole)).readChars?
  rw [readValue?, hread, Option.bind_some, if_pos (usable_canonical husable), canonical_canonical]

end NaturalDeduction.Json
