import Mathlib.Data.Rat.Defs
import Mathlib.Algebra.Field.Rat
import Mathlib.Algebra.Group.Basic
import Mathlib.Data.List.TakeWhile
import Mathlib.Tactic.NormNum
import DatrixOps.Golang.Strings

/-! What PostgreSQL does with text: pattern matching, the cast to a number, and what a column holds of it. -/

namespace Postgres

/-- `s LIKE pattern`, with the escape character `\`. A pattern that ends in its escape character, which
    the server refuses, matches the character itself here. -/
def like : List Char → List Char → Bool
  | [], s => s.isEmpty
  | ['\\'], s => s == ['\\']
  | '\\' :: c :: pattern, s =>
    match s with
    | d :: s => c == d && like pattern s
    | [] => false
  | '%' :: pattern, s => s.tails.any (like pattern)
  | '_' :: pattern, s =>
    match s with
    | _ :: s => like pattern s
    | [] => false
  | c :: pattern, s =>
    match s with
    | d :: s => c == d && like pattern s
    | [] => false

/-- `s ILIKE pattern`: both sides in lower case. -/
def ilike (sqlLower : Golang.CaseMap) (pattern s : List Char) : Bool :=
  like (sqlLower.toLower pattern) (sqlLower.toLower s)

/-- What a column `VARCHAR(n)` holds of a text. A text that is too long is refused, unless only spaces are
    beyond the end, and so is one with a zero character. -/
def storedText (n : Nat) (s : List Char) : Option (List Char) :=
  if '\x00' ∉ s ∧ (s.drop n).all (· = ' ') then some (s.take n) else none

/-- What a pattern says when `%` and `_` are read as themselves. -/
def unescape : List Char → List Char
  | [] => []
  | ['\\'] => ['\\']
  | '\\' :: c :: pattern => c :: unescape pattern
  | c :: pattern => c :: unescape pattern

theorem like_percent (pattern s : List Char) : like ('%' :: pattern) s = s.tails.any (like pattern) := by
  rw [like.eq_def]
  simp

theorem like_underscore (pattern s : List Char) (d : Char) : like ('_' :: pattern) (d :: s) = like pattern s := by
  rw [like.eq_def]
  simp

/-- A pattern matches its own text. -/
theorem like_unescape (pattern : List Char) : like pattern (unescape pattern) = true := by
  induction pattern using unescape.induct with
  | case1 => rfl
  | case2 => rfl
  | case3 c pattern ih => simp [like, unescape, ih]
  | case4 c pattern alone escape ih =>
    have text : unescape (c :: pattern) = c :: unescape pattern := by
      rw [unescape.eq_def]
      split <;> simp_all
    rw [text]
    by_cases hp : c = '%'
    · subst hp
      rw [like_percent, List.any_eq_true]
      exact ⟨unescape pattern, by simp [List.mem_tails], ih⟩
    · by_cases hu : c = '_'
      · subst hu
        rw [like_underscore, ih]
      · rw [like.eq_def]
        split <;> simp_all

/-- Some text matches a pattern without regard to case. -/
theorem exists_ilike (sqlLower : Golang.CaseMap) (pattern : List Char) : ∃ s, ilike sqlLower pattern s = true := by
  refine ⟨unescape (sqlLower.toLower pattern), ?_⟩
  have fixed : ∀ t : List Char, (∀ c ∈ t, sqlLower.lower c = c) → ∀ c ∈ unescape t, sqlLower.lower c = c := by
    intro t
    induction t using unescape.induct with
    | case1 => simp [unescape]
    | case2 => simp [unescape]
    | case3 c pattern ih =>
      intro h
      simp only [unescape, List.mem_cons, forall_eq_or_imp]
      exact ⟨h c (by simp), ih fun d hd => h d (by simp [hd])⟩
    | case4 c pattern alone escape ih =>
      intro h
      rw [unescape.eq_def]
      split <;> simp_all
  have hlow : ∀ c ∈ sqlLower.toLower pattern, sqlLower.lower c = c := by
    intro c hc
    obtain ⟨d, -, rfl⟩ := List.mem_map.mp hc
    exact sqlLower.idem d
  have same : sqlLower.toLower (unescape (sqlLower.toLower pattern)) = unescape (sqlLower.toLower pattern) := by
    exact (List.map_congr_left (fixed _ hlow)).trans (List.map_id _)
  rw [ilike, same]
  exact like_unescape _

/-! ### The cast to a number -/

/-- A number without a sign: digits with an optional fraction and an optional exponent. -/
def unsignedFloat (s : List Char) : Option ℚ :=
  let whole := s.takeWhile Char.isDigit
  let (fraction, rest) := match s.dropWhile Char.isDigit with
    | '.' :: rest => (rest.takeWhile Char.isDigit, rest.dropWhile Char.isDigit)
    | rest => ([], rest)
  (Golang.digits (whole ++ fraction)).bind fun n =>
    let mantissa : ℚ := n / 10 ^ fraction.length
    match rest with
    | [] => some mantissa
    | e :: rest => if e = 'e' ∨ e = 'E' then (Golang.atoi rest).map fun k => mantissa * 10 ^ k else none

/-- `s::double precision`, without rounding. The special values are left out: the text of a JSON number
    is none of them. -/
def float8 (s : List Char) : Option ℚ :=
  match Golang.trimSpace s with
  | '-' :: s => (unsignedFloat s).map fun q => -q
  | '+' :: s => unsignedFloat s
  | s => unsignedFloat s

theorem unsignedFloat_digits {s : List Char} (h : s.all Char.isDigit = true) :
    unsignedFloat s = (Golang.digits s).map fun n => (n : ℚ) := by
  have each : ∀ c ∈ s, Char.isDigit c = true := by simpa using h
  have whole : s.takeWhile Char.isDigit = s := List.takeWhile_eq_self_iff.mpr each
  have rest : s.dropWhile Char.isDigit = [] := List.dropWhile_eq_nil_iff.mpr each
  simp only [unsignedFloat, whole, rest, List.append_nil, List.length_nil, pow_zero, div_one]
  cases Golang.digits s <;> rfl

end Postgres
