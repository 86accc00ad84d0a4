/-
  JSON values.

  Members of an object are kept in the order in which they are written. An
  object is canonical when its keys ascend, and `canonical` puts a value into
  that form; of members with one key the last one counts.

  A text can be well formed and still denote no value: a number may lie beyond
  every finite value, and a string may hold half of a surrogate pair. Such a
  part is `unrepresentable`; it may be skipped, but not used.
-/

namespace NaturalDeduction

/-- The numbers of JSON texts: whole numbers of 64 bits, with the magnitude of the negative ones,
and binary64 numbers given by their bits. -/
inductive JsonNumber where
  | natural (n : Nat)
  | negative (magnitude : Nat)
  | real (bits : UInt64)
  deriving DecidableEq, Repr

/-- The values of JSON texts. -/
inductive Json where
  | null
  | bool (value : Bool)
  | number (value : JsonNumber)
  | string (value : String)
  | array (items : List Json)
  | object (members : List (String × Json))
  | unrepresentable
  deriving Repr, Inhabited

namespace Json

/-- A whole number that is not negative. -/
def natural (n : Nat) : Json := number (.natural n)

/-- A whole number. -/
def integer : Int → Json
  | .ofNat n => natural n
  | .negSucc n => number (.negative (n + 1))

/-- A text, or `null` for none. -/
def optional (text? : Option String) : Json :=
  (text?.map string).getD null

/-! ## Canonical form -/

/-- Adds a member to members with ascending keys, in place of one with the same key. -/
def insertMember (key : String) (value : Json) : List (String × Json) → List (String × Json)
  | [] => [(key, value)]
  | (other, old) :: rest =>
    if key < other then (key, value) :: (other, old) :: rest
    else if key = other then (key, value) :: rest
    else (other, old) :: insertMember key value rest

mutual

/-- The value with the members of every object in ascending order of their keys. -/
def canonical : Json → Json
  | array items => array (canonicalItems items)
  | object members => object (canonicalMembers [] members)
  | value => value

/-- The canonical forms of items. -/
def canonicalItems : List Json → List Json
  | [] => []
  | item :: items => canonical item :: canonicalItems items

/-- Adds the canonical forms of members to members with ascending keys. -/
def canonicalMembers (sorted : List (String × Json)) : List (String × Json) → List (String × Json)
  | [] => sorted
  | (key, value) :: members => canonicalMembers (insertMember key (canonical value) sorted) members

end

/-! ## Usable values -/

mutual

/-- Whether every part is representable and arrays and objects are nested at most `depth` deep. -/
def usable (depth : Nat) : Json → Bool
  | unrepresentable => false
  | array items =>
    match depth with
    | 0 => false
    | depth + 1 => usableItems depth items
  | object members =>
    match depth with
    | 0 => false
    | depth + 1 => usableMembers depth members
  | _ => true

/-- Whether all items are usable. -/
def usableItems (depth : Nat) : List Json → Bool
  | [] => true
  | item :: items => usable depth item && usableItems depth items

/-- Whether the values of all members are usable. -/
def usableMembers (depth : Nat) : List (String × Json) → Bool
  | [] => true
  | (_, value) :: members => usable depth value && usableMembers depth members

end

/-- How deeply the arrays and objects of a value that is read may be nested. -/
def maxDepth : Nat := 127

end Json

end NaturalDeduction
