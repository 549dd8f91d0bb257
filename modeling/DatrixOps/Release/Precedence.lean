import Mathlib.Data.Char
import Mathlib.Data.List.Lex
import Mathlib.Data.Prod.Lex
import Mathlib.Data.Sum.Order
import Mathlib.Order.Nat
import Mathlib.Order.WithBot
import DatrixOps.Golang.Strings

/-! The precedence of Semantic Versioning 2.0.0 among versions `X.Y.Z-pre+build`. -/

namespace SemanticVersion
open Golang

abbrev Numbers := ℕ ×ₗ ℕ ×ₗ ℕ

/-- A number comes before any text. -/
abbrev Identifier := ℕ ⊕ₗ List Char

/-- The numbers count first, and then the pre-release, which none comes after. Build metadata do not count. -/
abbrev Precedence := Numbers ×ₗ WithTop (List Identifier)

/-- A number without leading zeros. -/
def numeric (s : List Char) : Option ℕ := if s.head? = some '0' ∧ s ≠ ['0'] then none else digits s

def identifierChar (c : Char) : Bool := c.isAlphanum || c = '-'

def identifier (s : List Char) : Option Identifier :=
  if s.all Char.isDigit then (numeric s).map fun n => toLex (.inl n)
  else if s.all identifierChar then some (toLex (.inr s))
  else none

def preRelease (s : List Char) : Option (WithTop (List Identifier)) :=
  match s with
  | [] => some ⊤
  | c :: cs => if c = '-' then ((split '.' cs).mapM identifier).map WithTop.some else none

def buildMetadata (s : List Char) : Bool :=
  match s with
  | [] => true
  | c :: cs => c = '+' && (split '.' cs).all fun id => id ≠ [] && id.all identifierChar

/-- The precedence of a version, by its three numbers and what is written after them. -/
def precedence (major minor patch rest : List Char) : Option Precedence := do
  let x ← numeric major
  let y ← numeric minor
  let z ← numeric patch
  let pre ← preRelease (rest.takeWhile (· ≠ '+'))
  guard (buildMetadata (rest.dropWhile (· ≠ '+')))
  return toLex (toLex (x, toLex (y, z)), pre)

/-- The numbers of a version with a precedence are those that are written. -/
theorem numbers_of_precedence {major minor patch rest : List Char} {p : Precedence}
    (h : precedence major minor patch rest = some p) :
    ∃ x y z, digits major = some x ∧ digits minor = some y ∧ digits patch = some z ∧
      (ofLex p).1 = toLex (x, toLex (y, z)) := by
  have written {s : List Char} {n : ℕ} (hn : numeric s = some n) : digits s = some n := by
    unfold numeric at hn
    split at hn
    · cases hn
    · exact hn
  simp only [precedence, Option.bind_eq_bind, Option.bind_eq_some_iff, Option.pure_def, Option.some.injEq] at h
  obtain ⟨x, hx, y, hy, z, hz, pre, -, -, -, rfl⟩ := h
  exact ⟨x, y, z, written hx, written hy, written hz, rfl⟩

end SemanticVersion
