import Mathlib.Data.Rat.Defs

/-! JSON values, and how `encoding/json` decodes them into structs and slices. A value of another type
    than the field's makes the whole call fail; `null` leaves a field as it is. -/

namespace Golang

inductive Json where
  | null
  | bool (b : Bool)
  | num (q : ℚ)
  | str (s : String)
  | arr (items : List Json)
  | obj (fields : List (String × Json))

namespace Json

/-- A character as the keys of an object are compared: the two letters outside ASCII whose case
    folding is an ASCII letter go with it. -/
def foldRune (c : Char) : Char := if c = 'ſ' then 's' else if c = '\u212a' then 'k' else c.toLower

/-- The key of an object that decodes into the field tagged `name`, which is in lower case. -/
def names (key name : String) : Bool := key.toList.map foldRune == name.toList

/-- A field of a struct: every key that names it overwrites what it held. -/
def field {α : Type} (name : String) (decode : α → Json → Option α) (zero : α) (fields : List (String × Json)) :
    Option α :=
  fields.foldlM (fun old kv => if names kv.1 name then decode old kv.2 else some old) zero

def decodeString (old : String) : Json → Option String
  | .str s => some s
  | .null => some old
  | _ => none

def decodeSlice {α : Type} (decode : Json → Option α) (_ : List α) : Json → Option (List α)
  | .arr items => items.mapM decode
  | .null => some []
  | _ => none

def decodeStruct {α : Type} (zero : α) (decode : List (String × Json) → Option α) : Json → Option α
  | .obj fields => decode fields
  | .null => some zero
  | _ => none

example : field "state" decodeString "" [("name", .str "db"), ("State", .str "running")] = some "running" := by decide

end Json
end Golang
