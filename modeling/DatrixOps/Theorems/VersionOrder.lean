import DatrixOps.Release.Version

/-! When the three comparisons of versions agree. The update job reads three numbers after an optional `v`;
    the others read every part between dots, and one that is no number as 0. They agree on the versions that
    both read alike. -/

namespace DatrixOps
open Golang

/-! ### What the pattern matches -/

variable {s d rest : List Char} {m : SemVer}

theorem number_eq_some_iff : number s = some (d, rest) ↔ s = d ++ rest ∧ Digits d ∧
    ∀ c ∈ rest.head?, c.isDigit = false := by
  unfold number
  constructor
  · intro h
    split at h
    · cases h
    · rename_i some_
      cases h
      refine ⟨List.takeWhile_append_dropWhile.symm, ⟨some_, fun c hc => List.mem_takeWhile_imp hc⟩, fun c hc => ?_⟩
      have stopped := List.head?_dropWhile_not Char.isDigit s
      rw [hc] at stopped
      exact stopped
  · rintro ⟨rfl, ⟨some_, digit⟩, stopped⟩
    have none_ : rest.takeWhile Char.isDigit = [] ∧ rest.dropWhile Char.isDigit = rest := by
      cases rest with
      | nil => exact ⟨rfl, rfl⟩
      | cons c cs =>
        have other : c.isDigit = false := stopped c rfl
        exact ⟨List.takeWhile_cons_of_neg (by simp [other]), List.dropWhile_cons_of_neg (by simp [other])⟩
    rw [List.takeWhile_append_of_pos digit, List.dropWhile_append_of_pos digit, none_.1, none_.2,
      List.append_nil, if_neg some_]

theorem dot_eq_some_iff : dot s = some rest ↔ s = '.' :: rest := by
  cases s with
  | nil => simp [dot]
  | cons c cs => simp only [dot, Option.ite_none_right_eq_some, Option.some.injEq, List.cons.injEq]

/-- The letter before a version. -/
inductive Letter : Bool → List Char → Prop
  | none : Letter false []
  | small : Letter true ['v']
  | large : Letter true ['V']

theorem dot_not_mem_letter {letter : List Char} {b : Bool} (h : Letter b letter) : '.' ∉ letter := by
  cases h with
  | none => exact List.not_mem_nil
  | small => decide
  | large => decide

/-- A version is written so: a letter if any, the three numbers, and something that does not go on the third. -/
structure SemVer.WrittenAs (m : SemVer) (s : List Char) : Prop where
  text : ∃ letter, Letter m.prefixed letter ∧ s = letter ++ (m.major ++ '.' :: (m.minor ++ '.' :: (m.patch ++ m.rest)))
  major : Digits m.major
  minor : Digits m.minor
  patch : Digits m.patch
  rest : ∀ c ∈ m.rest.head?, c.isDigit = false

theorem stopped_dot {s : List Char} : ∀ c ∈ ('.' :: s).head?, c.isDigit = false := by
  rintro c ⟨⟩
  rfl

theorem semverPattern_eq_some_iff : semverPattern s = some m ↔ m.WrittenAs s := by
  constructor
  · intro h
    simp only [semverPattern, Option.bind_eq_bind, Option.bind_eq_some_iff, Prod.exists, number_eq_some_iff,
      dot_eq_some_iff, Option.pure_def,
      Option.some.injEq] at h
    obtain ⟨major, s₁, ⟨start, hmajor, -⟩, s₂, rfl, minor, s₃, ⟨rfl, hminor, -⟩, s₄, rfl, patch, rest,
      ⟨rfl, hpatch, stopped⟩, rfl⟩ := h
    refine ⟨?_, hmajor, hminor, hpatch, stopped⟩
    cases s with
    | nil =>
      have short := congrArg List.length start
      simp at short
    | cons c cs =>
      by_cases small : c = 'v'
      · subst small
        exact ⟨['v'], Letter.small, by simpa using start⟩
      · by_cases large : c = 'V'
        · subst large
          exact ⟨['V'], Letter.large, by simpa using start⟩
        · simp only [List.head?_cons, Option.some.injEq, small, large, decide_false, Bool.or_self, Bool.false_eq_true,
            if_false] at start ⊢
          exact ⟨[], Letter.none, start⟩
  · rintro ⟨⟨letter, hletter, rfl⟩, hmajor, hminor, hpatch, stopped⟩
    have first := number_eq_some_iff.mpr ⟨rfl, hmajor, stopped_dot (s := m.minor ++ '.' :: (m.patch ++ m.rest))⟩
    have second := number_eq_some_iff.mpr ⟨rfl, hminor, stopped_dot (s := m.patch ++ m.rest)⟩
    have third := number_eq_some_iff.mpr ⟨rfl, hpatch, stopped⟩
    obtain ⟨c, cs, digits_⟩ := List.exists_cons_of_ne_nil hmajor.1
    have digit := hmajor.2 c (by simp [digits_])
    obtain ⟨prefixed, major, minor, patch, rest⟩ := m
    dsimp only at *
    cases hletter with
    | none =>
      have small : c ≠ 'v' := ne_of_isDigit digit rfl
      have large : c ≠ 'V' := ne_of_isDigit digit rfl
      have head : (major ++ '.' :: (minor ++ '.' :: (patch ++ rest))).head? = some c := by simp [digits_]
      simp [semverPattern, head, small, large, first, second, third, dot]
    | small => simp [semverPattern, first, second, third, dot]
    | large => simp [semverPattern, first, second, third, dot]

/-! ### What the readers read -/

/-- What the dotted readers read of what follows the third number: what is before a `-` or `+`, at its dots. -/
def SemVer.tail (m : SemVer) : List (List Char) :=
  split '.' ((m.rest.rdropWhile isSpace).takeWhile fun c => c ≠ '+' ∧ c ≠ '-')

/-- A version whose numbers every reader reads: they fit, a letter stands before 0 only, nothing is written to
    the third number that is not 0, and further parts are read as 0. -/
structure SemVer.Alike (m : SemVer) : Prop where
  fits : ∀ part ∈ [m.major, m.minor, m.patch], (atoi part).isSome
  letter : m.prefixed = true → atoi m.major = some 0
  suffix : m.tail.headD [] = [] ∨ atoi m.patch = some 0
  more : ∀ part ∈ m.tail.tail, (atoi part).getD 0 = 0

/-- All comparators read the version alike. -/
def ReadAlike (version : String) : Prop := ∃ m, semverPattern version.toList = some m ∧ m.Alike

/-- What is written before what follows the third number has no white space, and no `-` or `+`. -/
theorem plain_of_written {letter : List Char} {b : Bool} (hletter : Letter b letter) (major : Digits m.major)
    (minor : Digits m.minor)
    (patch : Digits m.patch) : ∀ c ∈ letter ++ (m.major ++ '.' :: (m.minor ++ '.' :: m.patch)), isSpace c = false ∧
      c ≠ '+' ∧ c ≠ '-' := by
  have digit : ∀ {d : List Char}, Digits d → ∀ c ∈ d, isSpace c = false ∧ c ≠ '+' ∧ c ≠ '-' := fun h c hc =>
    ⟨not_isSpace_of_isDigit (h.2 c hc), ne_of_isDigit (h.2 c hc) rfl, ne_of_isDigit (h.2 c hc) rfl⟩
  intro c hc
  simp only [List.mem_append, List.mem_cons] at hc
  rcases hc with hc | hc | rfl | hc | rfl | hc
  · cases hletter with
    | none => cases hc
    | small =>
      rw [List.mem_singleton.mp hc]
      decide
    | large =>
      rw [List.mem_singleton.mp hc]
      decide
  · exact digit major c hc
  · decide
  · exact digit minor c hc
  · decide
  · exact digit patch c hc

theorem SemVer.WrittenAs.trimmed (h : m.WrittenAs s) :
    ({ m with rest := m.rest.rdropWhile isSpace } : SemVer).WrittenAs (trimSpace s) := by
  obtain ⟨⟨letter, hletter, rfl⟩, hmajor, hminor, hpatch, stopped⟩ := h
  refine ⟨⟨letter, hletter, ?_⟩, hmajor, hminor, hpatch, fun c hc => stopped c (head?_rdropWhile hc)⟩
  have plain := plain_of_written hletter hmajor hminor hpatch
  have keep : ∀ c ∈ letter ++ (m.major ++ '.' :: (m.minor ++ '.' :: m.patch)), isSpace c = false :=
    fun c hc => (plain c hc).1
  have trim := trimSpace_append (t := m.rest) keep (by simp [hmajor.1])
  simpa only [List.append_assoc, List.cons_append] using trim

theorem parseSemVer_written (h : m.WrittenAs s) :
    parseSemVer s = [atoiValue m.major, atoiValue m.minor, atoiValue m.patch] := by
  have matched := semverPattern_eq_some_iff.mpr h.trimmed
  unfold parseSemVer
  rw [matched]

theorem agentVersionParts_written (h : m.WrittenAs s) : ∃ letter, Letter m.prefixed letter ∧ agentVersionParts s =
    ((letter ++ m.major) :: m.minor :: (m.patch ++ m.tail.headD []) :: m.tail.tail).map fun part =>
    (atoi part).getD 0 := by
  obtain ⟨⟨letter, hletter, text⟩, hmajor, hminor, hpatch, -⟩ := h.trimmed
  refine ⟨letter, hletter, ?_⟩
  dsimp only at text
  have plain := plain_of_written hletter hmajor hminor hpatch
  have noDot : ∀ {d : List Char}, Digits d → '.' ∉ d := fun hd hc => ne_of_isDigit (hd.2 _ hc) rfl rfl
  have first : '.' ∉ letter ++ m.major := by
    intro hc
    rcases List.mem_append.mp hc with hc | hc
    · exact dot_not_mem_letter hletter hc
    · exact noDot hmajor hc
  unfold agentVersionParts
  simp only [split_headD, List.takeWhile_takeWhile]
  have assoc : trimSpace s = (letter ++ (m.major ++ '.' :: (m.minor ++ '.' :: m.patch))) ++
      m.rest.rdropWhile isSpace := by
    simpa only [List.append_assoc, List.cons_append] using text
  rw [assoc, List.takeWhile_append_of_pos fun c hc => by simpa using (plain c hc).2]
  have tail : split '.' ((m.rest.rdropWhile isSpace).takeWhile fun c =>
      decide (decide (c ≠ '+') = true ∧ decide (c ≠ '-') = true)) = m.tail := by
    unfold SemVer.tail
    simp only [decide_eq_true_eq]
  rw [List.append_assoc, List.append_assoc, List.cons_append, List.append_assoc, List.cons_append,
    ← List.append_assoc letter,
    split_append_cons first, split_append_cons (noDot hminor), split_append_of_not_mem (noDot hpatch), tail]

/-! ### Reading alike -/

theorem ofDigitChars_lt_of_isSome (h : Digits d) (fits : (atoi d).isSome) : (atoi d).getD 0 = atoiValue d := by
  rw [atoi_digits h] at fits ⊢
  rw [atoiValue, digits_eq h]
  split
  · rename_i small
    exact (if_pos (by omega)).symm
  · rename_i large
    rw [if_neg large] at fits
    cases fits

theorem atoiValue_eq_iff (h : Digits d) : (atoi d).getD 0 = atoiValue d ↔ (atoi d).isSome := by
  refine ⟨fun same => ?_, ofDigitChars_lt_of_isSome h⟩
  rw [atoi_digits h] at same ⊢
  rw [atoiValue, digits_eq h] at same
  split at same
  · rename_i small
    rw [if_pos small]
    rfl
  · rename_i large
    dsimp only at same
    rw [if_neg (by omega)] at same
    cases same

theorem atoiValue_eq_zero_iff (h : Digits d) : 0 = atoiValue d ↔ atoi d = some 0 := by
  rw [atoi_digits h, atoiValue, digits_eq h]
  dsimp only
  split
  · rw [if_pos (by omega), Option.some.injEq]
    exact eq_comm
  · rw [if_neg (by omega)]
    exact ⟨fun h => by omega, nofun⟩

theorem letter_eq_iff {letter : List Char} {b : Bool} (hletter : Letter b letter) (h : Digits d) :
    (atoi (letter ++ d)).getD 0 = atoiValue d ↔ (atoi d).isSome ∧ (b = true → atoi d = some 0) := by
  have lettered : ∀ {c : Char}, c ≠ '+' → c ≠ '-' → c.isDigit = false →
      ((atoi ([c] ++ d)).getD 0 = atoiValue d ↔ (atoi d).isSome ∧ (true = true → atoi d = some 0)) := by
    intro c plus minus other
    rw [List.singleton_append, atoi_eq_none plus minus ⟨c, List.mem_cons_self .., other⟩, Option.getD_none,
      atoiValue_eq_zero_iff h]
    exact ⟨fun zero => ⟨by rw [zero]; rfl, fun _ => zero⟩, fun both => both.2 rfl⟩
  cases hletter with
  | none =>
    rw [List.nil_append, atoiValue_eq_iff h]
    simp
  | small => exact lettered (by decide) (by decide) rfl
  | large => exact lettered (by decide) (by decide) rfl

theorem suffix_eq_iff {t : List Char} (h : Digits d) (stopped : ∀ c ∈ t.head?, c.isDigit = false) :
    (atoi (d ++ t)).getD 0 = atoiValue d ↔ (atoi d).isSome ∧ (t = [] ∨ atoi d = some 0) := by
  cases t with
  | nil =>
    rw [List.append_nil, atoiValue_eq_iff h]
    simp
  | cons x t =>
    obtain ⟨c, cs, rfl⟩ := List.exists_cons_of_ne_nil h.1
    have digit := h.2 c (List.mem_cons_self ..)
    have none_ : atoi (c :: (cs ++ x :: t)) = none :=
      atoi_eq_none (ne_of_isDigit digit rfl) (ne_of_isDigit digit rfl) ⟨x, by simp, stopped x rfl⟩
    rw [List.cons_append, none_, Option.getD_none, atoiValue_eq_zero_iff h]
    exact ⟨fun zero => ⟨by rw [zero]; rfl, Or.inr zero⟩, fun both => both.2.resolve_left (List.cons_ne_nil _ _)⟩

theorem head?_tail (h : m.WrittenAs s) : ∀ c ∈ (m.tail.headD []).head?, c.isDigit = false := by
  intro c hc
  refine h.rest c (head?_rdropWhile (p := isSpace) ?_)
  unfold SemVer.tail at hc
  rw [split_headD, List.head?_takeWhile, Option.mem_def, Option.filter_eq_some_iff] at hc
  rw [List.head?_takeWhile, Option.filter_eq_some_iff] at hc
  exact hc.1.1

theorem getD_map_eq_zero_iff {l : List (List Char)} {f : List Char → Int} :
    (∀ i, (l.map f).getD i 0 = 0) ↔ ∀ part ∈ l, f part = 0 := by
  constructor
  · intro zero part hpart
    obtain ⟨i, hi, rfl⟩ := List.mem_iff_getElem.mp hpart
    have at_ := zero i
    rwa [List.getD_eq_getElem?_getD, List.getElem?_map, List.getElem?_eq_getElem hi] at at_
  · intro zero i
    rw [List.getD_eq_getElem?_getD, List.getElem?_map]
    cases hi : l[i]? with
    | none => rfl
    | some part => exact zero part (List.mem_of_getElem? hi)

/-- The readers read the same numbers of the versions that are read alike. -/
theorem alike_iff (h : m.WrittenAs s) : (∀ i, (agentVersionParts s).getD i 0 = (parseSemVer s).getD i 0) ↔ m.Alike := by
  obtain ⟨letter, hletter, parts⟩ := agentVersionParts_written h
  have major := letter_eq_iff hletter h.major
  have patch := suffix_eq_iff h.patch (head?_tail h)
  rw [parts, parseSemVer_written h]
  constructor
  · intro same
    have first := major.mp (same 0)
    have second := (atoiValue_eq_iff h.minor).mp (same 1)
    have third := patch.mp (same 2)
    refine ⟨?_, first.2, third.2, getD_map_eq_zero_iff.mp fun i => same (i + 3)⟩
    rintro part hpart
    simp only [List.mem_cons, List.not_mem_nil, or_false] at hpart
    rcases hpart with rfl | rfl | rfl
    · exact first.1
    · exact second
    · exact third.1
  · rintro ⟨fits, lettered, suffix, more⟩ i
    match i with
    | 0 => exact major.mpr ⟨fits _ (by simp), lettered⟩
    | 1 => exact (atoiValue_eq_iff h.minor).mpr (fits _ (by simp))
    | 2 => exact patch.mpr ⟨fits _ (by simp), suffix⟩
    | i + 3 => exact getD_map_eq_zero_iff.mpr more i

/-! ### Plain versions -/

/-- `X.Y.Z` -/
def plainVersion (x y z : Nat) : String :=
  String.ofList (Nat.toDigits 10 x ++ '.' :: (Nat.toDigits 10 y ++ '.' :: Nat.toDigits 10 z))

theorem plainVersion_written {x y z : Nat} :
    (⟨false, Nat.toDigits 10 x, Nat.toDigits 10 y, Nat.toDigits 10 z, []⟩ : SemVer).WrittenAs
    (plainVersion x y z).toList where
  text := ⟨[], Letter.none, by simp [plainVersion]⟩
  major := isDigit_toDigits
  minor := isDigit_toDigits
  patch := isDigit_toDigits
  rest := nofun

theorem plainVersion_alike {x y z : Nat} (hx : x < 2 ^ 63) (hy : y < 2 ^ 63) (hz : z < 2 ^ 63) :
    ReadAlike (plainVersion x y z) := by
  refine ⟨_, semverPattern_eq_some_iff.mpr plainVersion_written, ?_, nofun, Or.inl rfl, nofun⟩
  intro part hpart
  simp only [List.mem_cons, List.not_mem_nil, or_false] at hpart
  rcases hpart with rfl | rfl | rfl
  · rw [atoi_toDigits hx]
    rfl
  · rw [atoi_toDigits hy]
    rfl
  · rw [atoi_toDigits hz]
    rfl

theorem atoiValue_toDigits {n : Nat} (fits : n < 2 ^ 63) : atoiValue (Nat.toDigits 10 n) = n := by
  rw [← ofDigitChars_lt_of_isSome isDigit_toDigits (by rw [atoi_toDigits fits]; rfl), atoi_toDigits fits]
  rfl

theorem parseSemVer_plainVersion {x y z : Nat} (hx : x < 2 ^ 63) (hy : y < 2 ^ 63) (hz : z < 2 ^ 63) :
    parseSemVer (plainVersion x y z).toList = [(x : Int), (y : Int), (z : Int)] := by
  rw [parseSemVer_written plainVersion_written, atoiValue_toDigits hx, atoiValue_toDigits hy, atoiValue_toDigits hz]

theorem agentVersionParts_plainVersion {x y z : Nat} (hx : x < 2 ^ 63) (hy : y < 2 ^ 63) (hz : z < 2 ^ 63) (i : Nat) :
    (agentVersionParts (plainVersion x y z).toList).getD i 0 = [(x : Int), (y : Int), (z : Int)].getD i 0 := by
  obtain ⟨m, matched, alike⟩ := plainVersion_alike hx hy hz
  rw [(alike_iff (semverPattern_eq_some_iff.mp matched)).mpr alike i, parseSemVer_plainVersion hx hy hz]

/-! ### The comparisons -/

theorem atoiValue_bounds : 0 ≤ atoiValue d ∧ atoiValue d < 2 ^ 63 := by
  unfold atoiValue
  split
  · decide
  · split
    · omega
    · decide

/-- What the update job reads of a version is what it reads of a plain one. -/
theorem exists_plainVersion (h : m.WrittenAs s) : ∃ x y z : Nat, x < 2 ^ 63 ∧ y < 2 ^ 63 ∧ z < 2 ^ 63 ∧
    parseSemVer s = [(x : Int), (y : Int), (z : Int)] := by
  have number_ : ∀ d : List Char, ∃ n : Nat, n < 2 ^ 63 ∧ atoiValue d = n := fun d => by
    obtain ⟨low, high⟩ := atoiValue_bounds (d := d)
    exact ⟨(atoiValue d).toNat, by omega, by omega⟩
  obtain ⟨x, hx, major⟩ := number_ m.major
  obtain ⟨y, hy, minor⟩ := number_ m.minor
  obtain ⟨z, hz, patch⟩ := number_ m.patch
  exact ⟨x, y, z, hx, hy, hz, by rw [parseSemVer_written h, major, minor, patch]⟩

theorem compareSemVer_of_alike {a b : String} (ha : ReadAlike a) (hb : ReadAlike b) :
    compareSemVer a b = compareAgentVersions a b := by
  obtain ⟨m, matched, alike⟩ := ha
  obtain ⟨m', matched', alike'⟩ := hb
  have left := (alike_iff (semverPattern_eq_some_iff.mp matched)).mpr alike
  have right := (alike_iff (semverPattern_eq_some_iff.mp matched')).mpr alike'
  rw [compareSemVer, compareVersionParts_eq]
  exact (compareParts_congr left right).symm

theorem compareVersions_eq (a b : String) : compareVersions a b = compareAgentVersions a b := compareVersionParts_eq

instance : Std.TransCmp compareAgentVersions where
  eq_swap := (swap_compareParts ..).symm
  isLE_trans {a b _} := Std.TransCmp.isLE_trans (a := agentVersionParts a.toList) (b := agentVersionParts b.toList)

instance : Std.TransCmp compareSemVer where
  eq_swap {a b} := by
    simp only [compareSemVer, compareVersionParts_eq]
    exact Std.OrientedCmp.eq_swap
  isLE_trans {a b c} := by
    simp only [compareSemVer, compareVersionParts_eq]
    exact Std.TransCmp.isLE_trans

/-- The three comparisons have the same sign on a set of accepted versions, in which the plain ones are, and
    are one total preorder, exactly when all its versions are read alike. -/
theorem comparisons_agree_iff {versions : Set String} (accepted : ∀ v ∈ versions, (semverPattern v.toList).isSome)
    (plain : ∀ x y z : Nat, x < 2 ^ 63 → y < 2 ^ 63 → z < 2 ^ 63 → plainVersion x y z ∈ versions) :
    ((∀ a ∈ versions, ∀ b ∈ versions, compareSemVer a b = compareAgentVersions a b ∧
      compareVersions a b = compareAgentVersions a b) ∧
      Std.TransCmp compareAgentVersions) ↔ ∀ a ∈ versions, ReadAlike a := by
  constructor
  · rintro ⟨agree, -⟩ a ha
    obtain ⟨m, matched⟩ := Option.isSome_iff_exists.mp (accepted a ha)
    have written := semverPattern_eq_some_iff.mp matched
    obtain ⟨x, y, z, hx, hy, hz, numbers⟩ := exists_plainVersion written
    have same := (agree a ha _ (plain x y z hx hy hz)).1
    rw [compareSemVer, numbers, parseSemVer_plainVersion hx hy hz, compareVersionParts_eq,
      compareParts_eq_iff.mpr fun _ => rfl] at same
    refine ⟨m, matched, (alike_iff written).mp fun i => ?_⟩
    rw [compareParts_eq_iff.mp same.symm i, agentVersionParts_plainVersion hx hy hz, numbers]
  · intro alike
    exact ⟨fun a ha b hb => ⟨compareSemVer_of_alike (alike a ha) (alike b hb), compareVersions_eq a b⟩, inferInstance⟩

/-- The plain versions are compared alike. -/
theorem comparisons_agree_plain :
    ((∀ a ∈ { v | ReadAlike v }, ∀ b ∈ { v | ReadAlike v },
        compareSemVer a b = compareAgentVersions a b ∧ compareVersions a b = compareAgentVersions a b) ∧
      Std.TransCmp compareAgentVersions) ↔ ∀ a ∈ { v | ReadAlike v }, ReadAlike a :=
  comparisons_agree_iff (fun _ ⟨_, matched, _⟩ => by rw [matched]; rfl) fun _ _ _ hx hy hz =>
    plainVersion_alike hx hy hz

/-- The update job takes the newer release, which the others take for the older one. -/
theorem comparisons_differ : (semverPattern "v1.0.0".toList).isSome ∧ (semverPattern "0.9.0".toList).isSome ∧
    compareSemVer "v1.0.0" "0.9.0" = .gt ∧ compareAgentVersions "v1.0.0" "0.9.0" = .lt ∧
    compareVersions "v1.0.0" "0.9.0" = .lt := by
  decide +kernel

end DatrixOps
