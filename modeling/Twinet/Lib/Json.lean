import Mathlib.Data.List.Basic

/-!
# Reading JSON Two Ways

A JSON object is a list of members, and a program can read one member of it
in two ways that do not agree.

Decoding into a map keeps the keys as they are spelled: the value of a key is
the last member spelled exactly so. Decoding into a record looks a key up
among the record's field names up to letter case, so every member whose key
folds to the field's name is decoded into the field, one after the other. A
`null` leaves a field as it is, and a value of another type fails the whole
decoding.

## Main definitions

* `exact`: A member of an object read as a map.
* `stringField`, `objectField`, `arrayField`: A field of a record.
-/

inductive Json where
  | null
  | bool (b : Bool)
  | num (literal : String)
  | str (s : String)
  | arr (elements : List Json)
  | obj (members : List (String × Json))
deriving Repr

namespace Json

abbrev Members := List (String × Json)

/-- The members of a value read as an object. A `null` has none. -/
def members : Json → Option Members
  | obj ms => some ms
  | null => some []
  | _ => none

variable (ms : Members) (field : String)

/-- The value of the last member spelled exactly `key`. -/
def exact (key : String) : Option Json :=
  (ms.reverse.find? fun m => m.1 == key).map (·.2)

/-- The representative of a character up to simple case folding, for the
    characters that fold to an ASCII letter. -/
def foldRune (c : Char) : Char :=
  if c = 'ſ' then 's' else if c = 'K' then 'k' else c.toLower

/-- A key up to letter case. -/
def foldName (s : String) : String :=
  String.ofList (s.toList.map foldRune)

/-- The values a record field called `field` is decoded from, in order. -/
def candidates : List Json :=
  (ms.filter fun m => foldName m.1 == field).map (·.2)

end Json
