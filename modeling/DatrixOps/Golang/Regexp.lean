import DatrixOps.Golang.Strings

/-! The part of Go's `regexp` the program uses: leftmost matches that prefer what comes first, with their groups. -/

namespace Golang

/-- Regular expressions. What is repeated is a class of characters, as many of them as possible first. -/
inductive Regexp where
  | empty
  | char (p : Char → Bool)
  | many (p : Char → Bool)
  | seq (r r' : Regexp)
  | alt (r r' : Regexp)
  | group (i : Nat) (r : Regexp)

namespace Regexp

/-- The groups that took part in a match. -/
abbrev Groups := List (Nat × List Char)

/-- What may be left of a text after some of its first characters. -/
def rests (p : Char → Bool) : List Char → List (List Char)
  | [] => [[]]
  | c :: s => if p c then rests p s ++ [c :: s] else [c :: s]

/-- The matches at the start of a text, by preference, with what is left of it. -/
def run : Regexp → List Char → List (List Char × Groups)
  | empty, s => [(s, [])]
  | char _, [] => []
  | char p, c :: s => if p c then [(s, [])] else []
  | many p, s => (rests p s).map fun rest => (rest, [])
  | seq r r', s => (r.run s).flatMap fun m => (r'.run m.1).map fun m' => (m'.1, m.2 ++ m'.2)
  | alt r r', s => r.run s ++ r'.run s
  | group i r, s => (r.run s).map fun m => (m.1, (i, s.take (s.length - m.1.length)) :: m.2)

/-- `FindStringSubmatch` -/
def find (r : Regexp) : List Char → Option Groups
  | [] => (r.run []).head?.map (·.2)
  | c :: s => ((r.run (c :: s)).head?.map (·.2)).or (r.find s)

/-- The text of a group, empty when it took no part. -/
def text (groups : Groups) (i : Nat) : List Char := ((groups.find? (·.1 = i)).map (·.2)).getD []

def lit (s : List Char) : Regexp := s.foldr (fun c r => seq (char (· = c)) r) empty

def opt (r : Regexp) : Regexp := alt r empty

def plus (p : Char → Bool) : Regexp := seq (char p) (many p)

/-- One after the other. -/
def all (rs : List Regexp) : Regexp := rs.foldr seq empty

/-- `\s` -/
def isBlank (c : Char) : Bool := c ∈ ['\t', '\n', '\x0c', '\r', ' ']

/-- `\s*` -/
def blanks : Regexp := many isBlank

/-- `\d+` -/
def digits : Regexp := plus Char.isDigit

example : (seq (group 1 digits) (lit "%".toList)).find "a12 345%".toList = some [(1, "345".toList)] := by decide

end Regexp
end Golang
