import FlashImage.Json.Range

/-!
# Reading values out of JSON

Each function here gives the value a piece of JSON stands for, or nothing. Numbers have to be written
as integers and to lie below a bound. A record is read from an object with its members in any order,
or from an array with its fields in their own order; members that the record does not have are
ignored, whatever they hold, and a field that is given twice is refused. A variant without a payload
is its name alone, and one with a payload is an object whose only key is the name.

## Parts

* numbers, texts, truth values, lists, optional values;
* records and variants;
* `Json.isPlain`, the values that can be set aside and read later.
-/

namespace FlashImage.Json

/-! ### Simple values -/

/-- A natural number below `bound`, written as an integer. -/
def asNat? (bound : Nat) : Json → Option Nat
  | num literal =>
    if literal.all isDigit && digitsValue literal < bound then some (digitsValue literal) else none
  | _ => none

/-- A size, an offset or an index: a number of 64 bits. -/
def asSize? (j : Json) : Option Nat := j.asNat? UInt64.size

/-- A number of 8 bits. -/
def asU8? (j : Json) : Option UInt8 := (j.asNat? UInt8.size).map UInt8.ofNat

/-- A number of 16 bits. -/
def asU16? (j : Json) : Option UInt16 := (j.asNat? UInt16.size).map UInt16.ofNat

/-- A number of 32 bits. -/
def asU32? (j : Json) : Option UInt32 := (j.asNat? UInt32.size).map UInt32.ofNat

/-- A number of 64 bits. -/
def asU64? (j : Json) : Option UInt64 := (j.asNat? UInt64.size).map UInt64.ofNat

/-- A text. -/
def asText? : Json → Option String
  | str contents => contents.toString?
  | _ => none

/-- A truth value. -/
def asBool? : Json → Option Bool
  | bool b => some b
  | _ => none

/-- A list of values of one kind. -/
def asList? {α : Type} (f : Json → Option α) : Json → Option (List α)
  | arr items => items.mapM f
  | _ => none

/-- A value that may be `null`. -/
def asOption? {α : Type} (f : Json → Option α) : Json → Option (Option α)
  | null => some none
  | j => (f j).map some

/-! ### Records and variants -/

/-- The values given to one field, in order. -/
def valuesOf (name : String) (members : List (String × Json)) : List Json :=
  (members.filter (·.1 = name)).map Prod.snd

/-- The value of one field, if it is given once or not at all. -/
def valueOf? (members : List (String × Json)) (name : String) : Option (Option Json) :=
  match valuesOf name members with
  | [] => some none
  | [value] => some (some value)
  | _ => none

/-- **The fields of a record**, in the order of `names`; `none` stands for a field that is not given.
In array form the fields after the first `required` may be left out from the end. -/
def fieldsFrom? (required : Nat) (names : List String) : Json → Option (List (Option Json))
  | obj members => do
    let named ← members.mapM fun (key, value) => key.toString?.map (·, value)
    names.mapM (valueOf? named)
  | arr items =>
    if required ≤ items.length && items.length ≤ names.length then
      some (items.map some ++ List.replicate (names.length - items.length) none)
    else none
  | _ => none

/-- The fields of a record of which none may be left out in array form. -/
def fields? (names : List String) (j : Json) : Option (List (Option Json)) :=
  j.fieldsFrom? names.length names

/-- A field that has to be given. -/
def given? {α : Type} (f : Json → Option α) (field : Option Json) : Option α := field.bind f

/-- A field that may be `null`, or left out altogether. -/
def optional? {α : Type} (f : Json → Option α) : Option Json → Option (Option α)
  | none => some none
  | some j => j.asOption? f

/-- **A variant**: its name, and its payload if it is written with one. -/
def asVariant? : Json → Option (String × Option Json)
  | str name => name.toString?.map (·, none)
  | obj [(name, payload)] => name.toString?.map (·, some payload)
  | _ => none

/-- Whether a variant is written the way one without a payload can be. -/
def isBare : Option Json → Bool
  | none => true
  | some null => true
  | some _ => false

/-! ### Values that are set aside -/

mutual

/-- **A value that can be set aside**: all of its strings and keys are text, its numbers are in range,
and arrays and objects are nested at most `depth` deep. -/
def isPlain (depth : Nat) : Json → Bool
  | null => true
  | bool _ => true
  | num literal => isFinite literal
  | str contents => contents.toString?.isSome
  | arr items =>
    match depth with
    | 0 => false
    | depth + 1 => arePlain depth items
  | obj members =>
    match depth with
    | 0 => false
    | depth + 1 => areMembersPlain depth members

/-- Items that can all be set aside. -/
def arePlain (depth : Nat) : List Json → Bool
  | [] => true
  | item :: items => isPlain depth item && arePlain depth items

/-- Members that can all be set aside. -/
def areMembersPlain (depth : Nat) : List (Bytes × Json) → Bool
  | [] => true
  | (key, value) :: members =>
    key.toString?.isSome && isPlain depth value && areMembersPlain depth members

end

end FlashImage.Json
