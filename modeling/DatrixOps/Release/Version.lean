import DatrixOps.Golang.Strings

/-! Agent version numbers as the heartbeat handler compares them. -/

namespace DatrixOps
open Golang

/-- The numbers of `X.Y.Z`, before any `-` or `+`; a part that is no number counts as 0. -/
def agentVersionParts (version : List Char) : List Int :=
  let core := (split '-' (trimSpace version)).headD []
  let core := (split '+' core).headD []
  (split '.' core).map fun rawPart => (atoi rawPart).getD 0

/-- Compare part by part, missing parts counting as 0. -/
def compareParts : List Int → List Int → Ordering
  | [], [] => .eq
  | l :: ls, [] => if l < 0 then .lt else if l > 0 then .gt else compareParts ls []
  | [], r :: rs => if 0 < r then .lt else if 0 > r then .gt else compareParts [] rs
  | l :: ls, r :: rs => if l < r then .lt else if l > r then .gt else compareParts ls rs
termination_by left right => left.length + right.length

def compareAgentVersions (left right : String) : Ordering :=
  compareParts (agentVersionParts left.toList) (agentVersionParts right.toList)

theorem compareHead_eq_iff {l r : Int} {rest : Ordering} :
    (if l < r then Ordering.lt else if l > r then .gt else rest) = .eq ↔ l = r ∧ rest = .eq := by
  split
  · exact ⟨fun h => (by cases h), fun h => absurd h.1 (by omega)⟩
  · split
    · exact ⟨fun h => (by cases h), fun h => absurd h.1 (by omega)⟩
    · exact ⟨fun h => ⟨by omega, h⟩, fun h => h.2⟩

/-- Lists of parts compare as equal when all their parts are, a missing one counting as 0. -/
theorem compareParts_eq_iff : ∀ {left right : List Int}, compareParts left right = .eq ↔
    ∀ i, left.getD i 0 = right.getD i 0
  | [], [] => by simp [compareParts]
  | l :: ls, [] => by
    rw [compareParts, compareHead_eq_iff, compareParts_eq_iff]
    exact Nat.and_forall_add_one (p := fun i => (l :: ls : List Int).getD i 0 = ([] : List Int).getD i 0)
  | [], r :: rs => by
    rw [compareParts, compareHead_eq_iff, compareParts_eq_iff]
    exact Nat.and_forall_add_one (p := fun i => ([] : List Int).getD i 0 = (r :: rs : List Int).getD i 0)
  | l :: ls, r :: rs => by
    rw [compareParts, compareHead_eq_iff, compareParts_eq_iff]
    exact Nat.and_forall_add_one (p := fun i => (l :: ls : List Int).getD i 0 = (r :: rs : List Int).getD i 0)
termination_by left right => left.length + right.length

theorem compareAgentVersions_symm {a b : String} (h : compareAgentVersions a b = .eq) :
    compareAgentVersions b a = .eq := by
  rw [compareAgentVersions, compareParts_eq_iff] at *
  exact fun i => (h i).symm

theorem compareAgentVersions_trans {a b c : String} (h : compareAgentVersions a b = .eq)
    (h' : compareAgentVersions b c = .eq) :
    compareAgentVersions a c = .eq := by
  rw [compareAgentVersions, compareParts_eq_iff] at *
  exact fun i => (h i).trans (h' i)

def minimumAutomaticUpdateVersion : String := "1.3.0"

/-! ### The comparison of the interface -/

/-- The same numbers, read by the server package's own copy. -/
def parseVersionParts (version : List Char) : List Int := agentVersionParts version

/-- Compare part by part, the greater first. -/
def compareVersionParts : List Int → List Int → Ordering
  | [], [] => .eq
  | l :: ls, [] => if l > 0 then .gt else if l < 0 then .lt else compareVersionParts ls []
  | [], r :: rs => if 0 > r then .gt else if 0 < r then .lt else compareVersionParts [] rs
  | l :: ls, r :: rs => if l > r then .gt else if l < r then .lt else compareVersionParts ls rs
termination_by left right => left.length + right.length

def compareVersions (left right : String) : Ordering :=
  compareVersionParts (parseVersionParts left.toList) (parseVersionParts right.toList)

/-! ### The comparison of the update job -/

/-- What `semverPattern` matches in a version: an optional `v`, three numbers and what follows them. -/
structure SemVer where
  prefixed : Bool
  major : List Char
  minor : List Char
  patch : List Char
  rest : List Char
  deriving DecidableEq

/-- `[0-9]+`, and what follows it. -/
def number (s : List Char) : Option (List Char × List Char) :=
  if s.takeWhile Char.isDigit = [] then none else some (s.takeWhile Char.isDigit, s.dropWhile Char.isDigit)

/-- What follows a dot. -/
def dot : List Char → Option (List Char)
  | [] => none
  | c :: cs => if c = '.' then some cs else none

/-- `^[vV]?([0-9]+)\.([0-9]+)\.([0-9]+)` -/
def semverPattern (s : List Char) : Option SemVer := do
  let prefixed := s.head? = some 'v' || s.head? = some 'V'
  let (major, s) ← number (if prefixed then s.tail else s)
  let s ← dot s
  let (minor, s) ← number s
  let s ← dot s
  let (patch, rest) ← number s
  return ⟨prefixed, major, minor, patch, rest⟩

/-- The value of `strconv.Atoi` for digits, which beside an error is the greatest there is. -/
def atoiValue (s : List Char) : Int :=
  match digits s with
  | none => 0
  | some n => if (n : Int) < 2 ^ 63 then n else 2 ^ 63 - 1

def parseSemVer (v : List Char) : List Int :=
  match semverPattern (trimSpace v) with
  | none => [0, 0, 0]
  | some m => [atoiValue m.major, atoiValue m.minor, atoiValue m.patch]

def compareSemVer (v1 v2 : String) : Ordering := compareVersionParts (parseSemVer v1.toList) (parseSemVer v2.toList)

/-! ### Comparing parts -/

theorem exists_first_iff {f g : Nat → Int} : (∃ i, (∀ j < i, f j = g j) ∧ f i < g i) ↔
    f 0 < g 0 ∨ f 0 = g 0 ∧ ∃ i, (∀ j < i, f (j + 1) = g (j + 1)) ∧ f (i + 1) < g (i + 1) := by
  constructor
  · rintro ⟨i, before, less⟩
    cases i with
    | zero => exact Or.inl less
    | succ i => exact Or.inr ⟨before 0 (by omega), i, fun j hj => before (j + 1) (by omega), less⟩
  · rintro (less | ⟨first, i, before, less⟩)
    · exact ⟨0, fun j hj => absurd hj (by omega), less⟩
    · refine ⟨i + 1, fun j hj => ?_, less⟩
      cases j with
      | zero => exact first
      | succ j => exact before j (by omega)

theorem compareHead_lt_iff {l r : Int} {rest : Ordering} :
    (if l < r then Ordering.lt else if l > r then .gt else rest) = .lt ↔ l < r ∨ l = r ∧ rest = .lt := by
  split
  · rename_i less
    simp [less]
  · split
    · rename_i more
      simp only [reduceCtorEq, false_iff]
      rintro (h | ⟨h, -⟩) <;> omega
    · rename_i h h'
      simp [show l = r by omega]

/-- One list of parts is before another when the first part in which they differ is less. -/
theorem compareParts_lt_iff : ∀ {left right : List Int}, compareParts left right = .lt ↔
    ∃ i, (∀ j < i, left.getD j 0 = right.getD j 0) ∧ left.getD i 0 < right.getD i 0
  | [], [] => by simp [compareParts]
  | l :: ls, [] => by
    rw [compareParts, compareHead_lt_iff, compareParts_lt_iff]
    exact (exists_first_iff (f := fun i => (l :: ls : List Int).getD i 0) (g := fun i => ([] : List Int).getD i 0)).symm
  | [], r :: rs => by
    rw [compareParts, compareHead_lt_iff, compareParts_lt_iff]
    exact (exists_first_iff (f := fun i => ([] : List Int).getD i 0) (g := fun i => (r :: rs : List Int).getD i 0)).symm
  | l :: ls, r :: rs => by
    rw [compareParts, compareHead_lt_iff, compareParts_lt_iff]
    exact (exists_first_iff (f := fun i => (l :: ls : List Int).getD i 0) (g := fun i =>
      (r :: rs : List Int).getD i 0)).symm
termination_by left right => left.length + right.length

theorem swap_compareHead {l r : Int} {rest : Ordering} :
    (if l < r then Ordering.lt else if l > r then .gt else rest).swap =
    if r < l then Ordering.lt else if r > l then .gt else rest.swap := by
  rcases Int.lt_trichotomy l r with less | rfl | more
  · rw [if_pos less, if_neg (by omega), if_pos less]
    rfl
  · simp
  · rw [if_neg (by omega), if_pos more, if_pos more]
    rfl

theorem swap_compareParts : ∀ {left right : List Int}, (compareParts left right).swap = compareParts right left
  | [], [] => by simp [compareParts]
  | l :: ls, [] => by rw [compareParts, compareParts, swap_compareHead, swap_compareParts]
  | [], r :: rs => by rw [compareParts, compareParts, swap_compareHead, swap_compareParts]
  | l :: ls, r :: rs => by rw [compareParts, compareParts, swap_compareHead, swap_compareParts]
termination_by left right => left.length + right.length

theorem compareVersionParts_eq : ∀ {left right : List Int}, compareVersionParts left right = compareParts left right
  | [], [] => by simp [compareParts, compareVersionParts]
  | l :: ls, [] => by
    rw [compareParts, compareVersionParts, compareVersionParts_eq]
    split <;> split <;> first | rfl | omega
  | [], r :: rs => by
    rw [compareParts, compareVersionParts, compareVersionParts_eq]
    split <;> split <;> first | rfl | omega
  | l :: ls, r :: rs => by
    rw [compareParts, compareVersionParts, compareVersionParts_eq]
    split <;> split <;> first | rfl | omega
termination_by left right => left.length + right.length

/-- Lists with the same parts, missing ones counting as 0, compare alike. -/
theorem compareParts_congr {l l' r r' : List Int} (left : ∀ i, l.getD i 0 = l'.getD i 0)
    (right : ∀ i, r.getD i 0 = r'.getD i 0) :
    compareParts l r = compareParts l' r' := by
  have lt_iff : ∀ {x x' y y' : List Int}, (∀ i, x.getD i 0 = x'.getD i 0) → (∀ i, y.getD i 0 = y'.getD i 0) →
      (compareParts x y = .lt ↔ compareParts x' y' = .lt) := by
    intro x x' y y' hx hy
    simp only [compareParts_lt_iff, hx, hy]
  have gt_iff : compareParts l r = .gt ↔ compareParts l' r' = .gt := by
    rw [← (swap_compareParts : (compareParts r l).swap = _), ← (swap_compareParts : (compareParts r' l').swap = _),
      Ordering.swap_eq_gt, Ordering.swap_eq_gt]
    exact lt_iff right left
  cases h : compareParts l r with
  | lt => exact ((lt_iff left right).mp h).symm
  | gt => exact (gt_iff.mp h).symm
  | eq =>
    rw [compareParts_eq_iff] at h
    exact (compareParts_eq_iff.mpr fun i => by rw [← left, ← right, h]).symm

instance : Std.TransCmp compareParts where
  eq_swap := swap_compareParts.symm
  isLE_trans {a b c} ab bc := by
    have cases_ : ∀ {x y : List Int}, (compareParts x y).isLE → compareParts x y = .lt ∨ compareParts x y = .eq := by
      intro x y h
      cases hxy : compareParts x y with
      | lt => exact Or.inl rfl
      | eq => exact Or.inr rfl
      | gt => rw [hxy] at h; cases h
    rcases cases_ bc with less | same
    · rcases cases_ ab with less' | same'
      · rw [compareParts_lt_iff] at less less'
        obtain ⟨i, before, atI⟩ := less'
        obtain ⟨k, before', atK⟩ := less
        refine Ordering.isLE_of_eq_lt (compareParts_lt_iff.mpr ?_)
        rcases Nat.lt_trichotomy i k with h | rfl | h
        · exact ⟨i, fun j hj => (before j hj).trans (before' j (by omega)), by rw [← before' i h]; exact atI⟩
        · exact ⟨i, fun j hj => (before j hj).trans (before' j hj), Int.lt_trans atI atK⟩
        · exact ⟨k, fun j hj => (before j (by omega)).trans (before' j hj), by rw [before k h]; exact atK⟩
      · rw [compareParts_congr (compareParts_eq_iff.mp same') fun _ => rfl]
        exact bc
    · rw [← compareParts_congr (l := a) (fun _ => rfl) (compareParts_eq_iff.mp same)]
      exact ab

end DatrixOps
