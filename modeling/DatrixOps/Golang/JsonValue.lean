import DatrixOps.Golang.Json
import DatrixOps.Golang.JsonText
import DatrixOps.Golang.Strings

/-! JSON values as `encoding/json` reads them from bytes into the fields of a struct: the text of a string,
    the literal of a number, and of anything else only whether it is well formed. -/

namespace Golang

inductive Value where
  | str (text : String)
  | num (literal : List UInt8)
  | null
  | other
  deriving DecidableEq

def skipSpace (s : List UInt8) : List UInt8 := s.dropWhile (· ∈ [0x20, 0x09, 0x0A, 0x0D])

/-- This byte, after white space. -/
def expect (b : UInt8) (s : List UInt8) : Option (List UInt8) :=
  match skipSpace s with
  | [] => none
  | c :: rest => if c = b then some rest else none

/-! ### Numbers -/

def isDigitByte (b : UInt8) : Bool := 0x30 ≤ b && b ≤ 0x39

/-- Digits and nothing else, at least one. -/
def allDigits (l : List UInt8) : Bool := l ≠ [] && l.all isDigitByte

/-- What may follow the digits of a number's fraction, or of the number: an exponent. -/
def isExponent : List UInt8 → Bool
  | [] => true
  | e :: rest => (e = 0x65 || e = 0x45) && match rest with
    | sign :: digits => if sign = 0x2B ∨ sign = 0x2D then allDigits digits else allDigits rest
    | [] => false

def isFraction : List UInt8 → Bool
  | [] => true
  | b :: rest =>
    if b = 0x2E then rest.takeWhile isDigitByte ≠ [] && isExponent (rest.dropWhile isDigitByte)
      else isExponent (b :: rest)

/-- The literal of a number: `0` or digits that do not begin with it, a sign before them and a fraction or an
exponent after. -/
def isNumber (l : List UInt8) : Bool :=
  let digits := if l.head? = some 0x2D then l.tail else l
  match digits with
  | [] => false
  | b :: rest => if b = 0x30 then isFraction rest else isDigitByte b && isFraction (rest.dropWhile isDigitByte)

def isNumberByte (b : UInt8) : Bool := isDigitByte b || b = 0x2B || b = 0x2D || b = 0x2E || b = 0x65 || b = 0x45

/-! ### Values -/

/-- A literal, and what follows it. -/
def readLiteral (literal : List UInt8) (v : Value) (s : List UInt8) : Option (Value × List UInt8) :=
  if literal <+: s then some (v, s.drop literal.length) else none

mutual

/-- A value after white space, and what follows it. -/
def readValue : Nat → List UInt8 → Option (Value × List UInt8)
  | 0, _ => none
  | fuel + 1, s =>
    match skipSpace s with
    | [] => none
    | b :: rest =>
      if b = 0x22 then (readString (b :: rest)).map fun (text, rest) => (.str (String.ofList text), rest)
      else if b = 0x7B then (readFields fuel rest).map fun (_, rest) => (.other, rest)
      else if b = 0x5B then (readItems fuel rest).map fun rest => (.other, rest)
      else if b = 0x74 then readLiteral (asciiBytes "true") .other (b :: rest)
      else if b = 0x66 then readLiteral (asciiBytes "false") .other (b :: rest)
      else if b = 0x6E then readLiteral (asciiBytes "null") .null (b :: rest)
      else if isNumber ((b :: rest).takeWhile isNumberByte) then
        some (.num ((b :: rest).takeWhile isNumberByte), (b :: rest).dropWhile isNumberByte)
      else none

/-- What follows an array, from after its opening bracket. -/
def readItems : Nat → List UInt8 → Option (List UInt8)
  | 0, _ => none
  | fuel + 1, s =>
    match expect 0x5D s with
    | some rest => some rest
    | none => readMoreItems fuel s

def readMoreItems : Nat → List UInt8 → Option (List UInt8)
  | 0, _ => none
  | fuel + 1, s => do
    let (_, s) ← readValue fuel s
    match skipSpace s with
    | [] => none
    | b :: rest => if b = 0x2C then readMoreItems fuel rest else if b = 0x5D then some rest else none

/-- The members of an object, from after its opening brace, and what follows it. -/
def readFields : Nat → List UInt8 → Option (List (String × Value) × List UInt8)
  | 0, _ => none
  | fuel + 1, s =>
    match expect 0x7D s with
    | some rest => some ([], rest)
    | none => readMoreFields fuel s

def readMoreFields : Nat → List UInt8 → Option (List (String × Value) × List UInt8)
  | 0, _ => none
  | fuel + 1, s => do
    let (key, s) ← readString (skipSpace s)
    let s ← expect 0x3A s
    let (value, s) ← readValue fuel s
    match skipSpace s with
    | [] => none
    | b :: rest =>
      if b = 0x2C then (readMoreFields fuel rest).map fun (fields, rest) => ((String.ofList key, value) :: fields, rest)
      else if b = 0x7D then some ([(String.ofList key, value)], rest)
      else none

end

/-- What a struct is decoded from: the members of an object, or none of `null`. What follows it is not read. -/
def readStruct (s : List UInt8) : Option (List (String × Value)) :=
  match skipSpace s with
  | b :: rest =>
    if b = 0x7B then (readFields (2 * s.length) rest).map (·.1)
    else if b = 0x6E then (readLiteral (asciiBytes "null") .null (b :: rest)).map fun _ => []
    else none
  | [] => none

/-! ### Fields -/

/-- A field of a struct: every member that names it overwrites what it held. -/
def fieldOf {α : Type} (name : String) (decode : α → Value → Option α) (zero : α)
    (fields : List (String × Value)) : Option α :=
  fields.foldlM (fun old kv => if Json.names kv.1 name then decode old kv.2 else some old) zero

def decodeText (old : String) : Value → Option String
  | .str text => some text
  | .null => some old
  | _ => none

/-- An `int` of 64 bits. -/
def decodeInt (old : Int) : Value → Option Int
  | .num literal => atoi (literal.map fun b => Char.ofNat b.toNat)
  | .null => some old
  | _ => none

/-! ### Reading what was written -/

variable {s rest : List UInt8} {fuel : Nat}

theorem skipSpace_quote : skipSpace (quote s ++ rest) = quote s ++ rest := rfl

theorem readValue_quote : readValue (fuel + 1) (quote s ++ rest) = some (.str (String.ofList (textOf s)), rest) := by
  unfold readValue
  rw [skipSpace_quote]
  change (readString (quote s ++ rest)).map _ = _
  rw [readString_quote]
  rfl

/-- One member whose value is a string, and what is read after it. -/
theorem readMoreFields_quote {key : String} (low : ∀ c ∈ key.toList, c.toNat < 0x80) :
    readMoreFields (fuel + 2) (quote (asciiBytes key) ++ 0x3A :: (quote s ++ rest)) =
      match skipSpace rest with
      | [] => none
      | b :: rest =>
        if b = 0x2C then
          (readMoreFields (fuel + 1) rest).map fun (fields, rest) =>
          ((key, .str (String.ofList (textOf s))) :: fields, rest)
        else if b = 0x7D then some ([(key, .str (String.ofList (textOf s)))], rest)
        else none := by
  have colon : expect 0x3A (0x3A :: (quote s ++ rest)) = some (quote s ++ rest) := rfl
  rw [readMoreFields, skipSpace_quote, readString_quote, textOf_asciiBytes low]
  simp only [Option.bind_eq_bind, Option.bind_some, colon, readValue_quote, String.ofList_toList]

end Golang
