import Mathlib.Data.List.Infix
import Mathlib.Data.List.DropRight
import Mathlib.Algebra.Group.Nat.Defs
import Mathlib.Algebra.Group.Int.Defs

/-! The functions of Go's `strings`, `unicode` and `strconv` packages the program uses, on lists of
    characters. -/

namespace Golang

/-- `unicode.IsSpace` -/
def isSpace (c : Char) : Bool :=
  c.toNat ∈ [0x09, 0x0A, 0x0B, 0x0C, 0x0D, 0x20, 0x85, 0xA0, 0x1680, 0x2028, 0x2029, 0x202F, 0x205F, 0x3000] ||
    (0x2000 ≤ c.toNat && c.toNat ≤ 0x200A)

/-- `strings.TrimSpace` -/
def trimSpace (s : List Char) : List Char := ((s.dropWhile isSpace).reverse.dropWhile isSpace).reverse

/-- `strings.Trim` -/
def trim (cutset s : List Char) : List Char :=
  ((s.dropWhile (· ∈ cutset)).reverse.dropWhile (· ∈ cutset)).reverse

/-- `strings.Contains` -/
def contains (s sub : List Char) : Bool := decide (sub <:+: s)

/-- `strings.TrimPrefix` -/
def trimPrefix (pre s : List Char) : List Char := if pre <+: s then s.drop pre.length else s

/-- `strings.TrimSuffix` -/
def trimSuffix (suf s : List Char) : List Char := if suf <:+ s then s.take (s.length - suf.length) else s

/-- `strings.Split` at a single character. -/
def split (sep : Char) : List Char → List (List Char)
  | [] => [[]]
  | c :: cs =>
    match split sep cs with
    | part :: parts => if c = sep then [] :: part :: parts else (c :: part) :: parts
    | [] => []

/-- The words of a text whose first characters are `word`. -/
def fieldsFrom (word : List Char) : List Char → List (List Char)
  | [] => if word = [] then [] else [word]
  | c :: cs =>
    if isSpace c then if word = [] then fieldsFrom [] cs else word :: fieldsFrom [] cs
    else fieldsFrom (word ++ [c]) cs

/-- `strings.Fields` -/
def fields (s : List Char) : List (List Char) := fieldsFrom [] s

/-- A lower-casing of characters that agrees with the ASCII one on ASCII: `unicode.ToLower` in the
    program, `LOWER` in the database. -/
structure CaseMap where
  lower : Char → Char
  ascii : ∀ c : Char, c.toNat < 128 → lower c = c.toLower
  idem : ∀ c : Char, lower (lower c) = lower c

namespace CaseMap

theorem toLower_toLower (c : Char) : c.toLower.toLower = c.toLower := by
  delta Char.toLower
  split
  · rename_i h
    rw [dif_neg]
    rintro ⟨-, above⟩
    have upper : ('Z'.val).toNat = 90 := rfl
    have lower : ('A'.val).toNat = 65 := rfl
    have shift : ('a'.val - 'A'.val).toNat = 32 := rfl
    have h₁ := UInt32.le_iff_toNat_le.mp h.1
    have h₂ := UInt32.le_iff_toNat_le.mp h.2
    have h₃ := UInt32.le_iff_toNat_le.mp above
    rw [UInt32.toNat_add, shift, upper] at h₃
    omega
  · rfl

/-- The case map that leaves everything but ASCII alone. -/
def asciiOnly : CaseMap := ⟨Char.toLower, fun _ _ => rfl, toLower_toLower⟩

/-- `strings.ToLower` -/
def toLower (m : CaseMap) (s : List Char) : List Char := s.map m.lower

end CaseMap

/-- The value of a string of decimal digits, and no value when it is empty or has another character. -/
def digits : List Char → Option Nat
  | [] => none
  | cs => if cs.all Char.isDigit then some (cs.foldl (fun n c => 10 * n + (c.toNat - 48)) 0) else none

/-- `strconv.Atoi` on a 64-bit platform, without the error's text. -/
def atoi (s : List Char) : Option Int :=
  let value : Option Int := match s with
    | '-' :: cs => (digits cs).map fun n => -(n : Int)
    | '+' :: cs => (digits cs).map fun n => (n : Int)
    | cs => (digits cs).map fun n => (n : Int)
  value.filter fun n => decide (-2 ^ 63 ≤ n ∧ n < 2 ^ 63)

theorem dropWhile_eq_self {p : Char → Bool} {s : List Char} (h : ∀ c ∈ s, p c = false) : s.dropWhile p = s := by
  cases s with
  | nil => rfl
  | cons c cs => simp [h c (List.mem_cons_self ..)]

theorem trim_eq_self {cutset s : List Char} (h : ∀ c ∈ s, c ∉ cutset) : trim cutset s = s := by
  have keeps : ∀ c ∈ s, decide (c ∈ cutset) = false := fun c hc => decide_eq_false (h c hc)
  rw [trim, dropWhile_eq_self keeps, dropWhile_eq_self fun c hc => keeps c (List.mem_reverse.mp hc),
    List.reverse_reverse]

theorem trimSpace_eq_self {s : List Char} (h : ∀ c ∈ s, isSpace c = false) : trimSpace s = s := by
  rw [trimSpace, dropWhile_eq_self h, dropWhile_eq_self fun c hc => h c (List.mem_reverse.mp hc), List.reverse_reverse]

theorem trimSpace_eq (s : List Char) : trimSpace s = (s.dropWhile isSpace).rdropWhile isSpace := rfl

theorem trimSpace_trimSpace (s : List Char) : trimSpace (trimSpace s) = trimSpace s := by
  -- what is left starts with the character that stopped the trimming on the left
  have left : (trimSpace s).dropWhile isSpace = trimSpace s := by
    obtain ⟨rest, hrest⟩ := List.rdropWhile_prefix isSpace (l := s.dropWhile isSpace)
    have stopped := List.dropWhile_idempotent isSpace (l := s)
    rw [← trimSpace_eq] at hrest
    cases ht : trimSpace s with
    | nil => rfl
    | cons c cs =>
      rw [← hrest, ht, List.cons_append, List.dropWhile_cons] at stopped
      rw [List.dropWhile_cons]
      split at stopped
      · have shorter := congrArg List.length stopped
        have := (List.dropWhile_sublist (l := cs ++ rest) isSpace).length_le
        simp only [List.length_cons] at shorter
        omega
      · rename_i hc
        rw [if_neg hc]
  rw [trimSpace_eq (trimSpace s), left, trimSpace_eq, List.rdropWhile_idempotent]

/-! ### Splitting -/

variable {sep : Char} {s t : List Char}

theorem split_ne_nil : split sep s ≠ [] := by
  induction s with
  | nil => exact List.cons_ne_nil _ _
  | cons c cs ih =>
    obtain ⟨part, parts, h⟩ := List.exists_cons_of_ne_nil ih
    simp only [split, h]
    split <;> exact List.cons_ne_nil _ _

theorem split_cons : split sep (c :: s) =
    if c = sep then [] :: split sep s else (c :: (split sep s).headD []) :: (split sep s).tail := by
  obtain ⟨part, parts, h⟩ := List.exists_cons_of_ne_nil (split_ne_nil : split sep s ≠ [])
  simp only [split, h, List.headD_cons, List.tail_cons]

theorem split_headD : (split sep s).headD [] = s.takeWhile (· ≠ sep) := by
  induction s with
  | nil => rfl
  | cons c s ih =>
    rw [split_cons, List.takeWhile_cons]
    split
    · rename_i same
      simp [same]
    · rename_i other
      simp only [List.headD_cons, ih, ne_eq, other, not_false_eq_true, decide_true, if_true]

theorem split_append_of_not_mem (h : sep ∉ s) :
    split sep (s ++ t) = (s ++ (split sep t).headD []) :: (split sep t).tail := by
  induction s with
  | nil =>
    obtain ⟨part, parts, ht⟩ := List.exists_cons_of_ne_nil (split_ne_nil : split sep t ≠ [])
    rw [List.nil_append, ht]
    rfl
  | cons c s ih =>
    have other : c ≠ sep := fun same => h (by simp [same])
    rw [List.cons_append, split_cons, if_neg other, ih fun hs => h (List.mem_cons_of_mem c hs)]
    rfl

/-- A text is split at the first separator. -/
theorem split_append_cons (h : sep ∉ s) : split sep (s ++ sep :: t) = s :: split sep t := by
  rw [split_append_of_not_mem h, split_cons, if_pos rfl, List.headD_cons, List.append_nil, List.tail_cons]

theorem mem_of_mem_split {sep c : Char} {s : List Char} (hc : c ∈ s) : c = sep ∨ ∃ part ∈ split sep s, c ∈ part := by
  induction s with
  | nil => cases hc
  | cons d s ih =>
    obtain ⟨first, parts, h⟩ := List.exists_cons_of_ne_nil (split_ne_nil : split sep s ≠ [])
    rw [split_cons]
    rcases List.mem_cons.mp hc with rfl | hs
    · by_cases same : c = sep
      · exact Or.inl same
      · rw [if_neg same]
        exact Or.inr ⟨_, List.mem_cons_self .., List.mem_cons_self ..⟩
    · rcases ih hs with same | ⟨part, hpart, hc⟩
      · exact Or.inl same
      · rw [h] at hpart ⊢
        refine Or.inr ?_
        split
        · exact ⟨part, List.mem_cons_of_mem _ hpart, hc⟩
        · rcases List.mem_cons.mp hpart with rfl | later
          · exact ⟨_, List.mem_cons_self .., List.mem_cons_of_mem d hc⟩
          · exact ⟨part, List.mem_cons_of_mem _ later, hc⟩

theorem split_of_not_mem (h : sep ∉ s) : split sep s = [s] := by
  have whole := split_append_of_not_mem (t := []) h
  rw [List.append_nil] at whole
  rw [whole]
  simp [split]

/-- A text is one part exactly where it has no separator. -/
theorem split_eq_singleton {part : List Char} : split sep s = [part] ↔ sep ∉ s ∧ part = s := by
  constructor
  · intro h
    have none_ : sep ∉ s := by
      intro hs
      obtain ⟨a, b, rfl, ha⟩ := List.eq_append_cons_of_mem hs
      rw [split_append_cons ha] at h
      exact split_ne_nil (List.cons.inj h).2
    rw [split_of_not_mem none_] at h
    exact ⟨none_, (List.cons.inj h).1.symm⟩
  · rintro ⟨none_, rfl⟩
    exact split_of_not_mem none_

theorem mem_of_mem_part {part : List Char} {c : Char} (hp : part ∈ split sep s) (hc : c ∈ part) : c ∈ s := by
  induction s generalizing part with
  | nil =>
    obtain rfl := List.mem_singleton.mp hp
    cases hc
  | cons d s ih =>
    obtain ⟨first, parts, h⟩ := List.exists_cons_of_ne_nil (split_ne_nil : split sep s ≠ [])
    rw [split_cons, h] at hp
    split at hp
    · rcases List.mem_cons.mp hp with rfl | later
      · cases hc
      · exact List.mem_cons_of_mem _ (ih (h ▸ later) hc)
    · rcases List.mem_cons.mp hp with rfl | later
      · rcases List.mem_cons.mp hc with rfl | rest
        · exact List.mem_cons_self
        · exact List.mem_cons_of_mem _ (ih (by rw [h]; exact List.mem_cons_self) rest)
      · exact List.mem_cons_of_mem _ (ih (h ▸ List.mem_cons_of_mem _ later) hc)

/-! ### Words -/

theorem mem_fieldsFrom {word w : List Char} (hw : ∀ c ∈ word, isSpace c = false) (h : w ∈ fieldsFrom word s) :
    w ≠ [] ∧ ∀ c ∈ w, isSpace c = false := by
  induction s generalizing word with
  | nil =>
    rw [fieldsFrom] at h
    split at h
    · cases h
    · rename_i some_
      obtain rfl := List.mem_singleton.mp h
      exact ⟨some_, hw⟩
  | cons c s ih =>
    rw [fieldsFrom] at h
    split at h
    · split at h
      · exact ih (by simp) h
      · rename_i some_
        rcases List.mem_cons.mp h with rfl | later
        · exact ⟨some_, hw⟩
        · exact ih (by simp) later
    · rename_i letter
      refine ih (fun d hd => ?_) h
      rcases List.mem_append.mp hd with old | new
      · exact hw d old
      · obtain rfl := List.mem_singleton.mp new
        exact Bool.eq_false_iff.mpr letter

/-- A word has characters, none of them white. -/
theorem mem_fields {w : List Char} (h : w ∈ fields s) : w ≠ [] ∧ ∀ c ∈ w, isSpace c = false :=
  mem_fieldsFrom (by simp) h

theorem fieldsFrom_append {word more : List Char} (h : ∀ c ∈ more, isSpace c = false) :
    fieldsFrom word (more ++ s) = fieldsFrom (word ++ more) s := by
  induction more generalizing word with
  | nil => rw [List.nil_append, List.append_nil]
  | cons c more ih =>
    rw [List.cons_append, fieldsFrom, if_neg (by simp [h c]), ih fun d hd => h d (List.mem_cons_of_mem c hd),
      List.append_assoc]
    rfl

/-- White space before the words. -/
theorem fields_append_of_white {white : List Char} (h : ∀ c ∈ white, isSpace c = true) :
    fields (white ++ s) = fields s := by
  induction white with
  | nil => rfl
  | cons c white ih =>
    rw [fields, List.cons_append, fieldsFrom, if_pos (h c List.mem_cons_self), if_pos rfl]
    exact ih fun d hd => h d (List.mem_cons_of_mem c hd)

/-- The first word, up to white space. -/
theorem fields_word {word : List Char} {c : Char} (some_ : word ≠ []) (hw : ∀ d ∈ word, isSpace d = false)
    (hc : isSpace c = true) :
    fields (word ++ c :: s) = word :: fields s := by
  rw [fields, fieldsFrom_append hw, List.nil_append, fieldsFrom, if_pos hc, if_neg some_]
  rfl

/-! ### Digits -/

/-- Decimal digits, at least one. -/
def Digits (s : List Char) : Prop := s ≠ [] ∧ ∀ c ∈ s, c.isDigit = true

theorem digits_eq (h : Digits s) : digits s = some (Nat.ofDigitChars 10 s 0) := by
  obtain ⟨c, cs, rfl⟩ := List.exists_cons_of_ne_nil h.1
  exact if_pos (List.all_eq_true.mpr h.2)

/-- A text with another character than digits, and no sign first, is no number. -/
theorem atoi_eq_none {c : Char} {cs : List Char} (plus : c ≠ '+') (minus : c ≠ '-')
    (other : ∃ d ∈ c :: cs, d.isDigit = false) :
    atoi (c :: cs) = none := by
  obtain ⟨d, hd, notDigit⟩ := other
  have none_ : digits (c :: cs) = none := by
    refine if_neg fun all => ?_
    rw [List.all_eq_true.mp all d hd] at notDigit
    cases notDigit
  unfold atoi
  split
  · rename_i h
    cases h
    exact absurd rfl minus
  · rename_i h
    cases h
    exact absurd rfl plus
  · rw [none_]
    rfl

theorem isDigit_toDigits {n : Nat} : Digits (Nat.toDigits 10 n) :=
  ⟨Nat.toDigits_ne_nil, fun _ hc => Nat.isDigit_of_mem_toDigits (by decide) (by decide) hc⟩

theorem ne_of_isDigit {c d : Char} (h : c.isDigit = true) (other : d.isDigit = false) : c ≠ d := by
  rintro rfl
  rw [h] at other
  cases other

/-- Digits are read as their number, when it fits. -/
theorem atoi_digits (h : Digits s) : atoi s =
    if Nat.ofDigitChars 10 s 0 < 2 ^ 63 then some (Nat.ofDigitChars 10 s 0 : Int) else none := by
  have value := digits_eq h
  obtain ⟨c, cs, rfl⟩ := List.exists_cons_of_ne_nil h.1
  have digit := h.2 c (List.mem_cons_self ..)
  unfold atoi
  split
  · rename_i same
    cases same
    cases digit
  · rename_i same
    cases same
    cases digit
  · rw [value]
    change (some (Nat.ofDigitChars 10 (c :: cs) 0 : Int)).filter _ = _
    rw [Option.filter_some]
    simp only [decide_eq_true_eq]
    split
    · rw [if_pos (by omega)]
    · rw [if_neg (by omega)]

theorem atoi_toDigits {n : Nat} (fits : n < 2 ^ 63) : atoi (Nat.toDigits 10 n) = some (n : Int) := by
  rw [atoi_digits isDigit_toDigits, Nat.ofDigitChars_ten_toDigits, if_pos fits]

example : atoi "+12".toList = some 12 ∧ atoi "1a".toList = none ∧ atoi "".toList = none := by decide

theorem not_isSpace_of_isDigit {c : Char} (h : c.isDigit = true) : isSpace c = false := by
  simp only [Char.isDigit, Bool.and_eq_true, decide_eq_true_eq] at h
  have low := UInt32.le_iff_toNat_le.mp h.1
  have high := UInt32.le_iff_toNat_le.mp h.2
  rw [show ('0'.val).toNat = 48 from rfl] at low
  rw [show ('9'.val).toNat = 57 from rfl] at high
  change 48 ≤ c.toNat at low
  change c.toNat ≤ 57 at high
  simp only [isSpace, List.mem_cons, List.not_mem_nil, or_false, Bool.or_eq_false_iff, decide_eq_false_iff_not,
    Bool.and_eq_false_iff]
  omega

/-! ### Trimming -/

theorem rdropWhile_append {p : Char → Bool} (keep : ∀ c ∈ s, p c = false) :
    (s ++ t).rdropWhile p = s ++ t.rdropWhile p := by
  have stays : s.reverse.dropWhile p = s.reverse := dropWhile_eq_self fun c hc => keep c (List.mem_reverse.mp hc)
  simp only [List.rdropWhile, List.reverse_append, List.dropWhile_append]
  split
  · rename_i empty
    rw [List.isEmpty_iff.mp empty, stays, List.reverse_reverse, List.reverse_nil, List.append_nil]
  · rw [List.reverse_append, List.reverse_reverse]

theorem trimSpace_append (keep : ∀ c ∈ s, isSpace c = false) (some_ : s ≠ []) :
    trimSpace (s ++ t) = s ++ t.rdropWhile isSpace := by
  obtain ⟨c, cs, rfl⟩ := List.exists_cons_of_ne_nil some_
  have first : ((c :: cs) ++ t).dropWhile isSpace = (c :: cs) ++ t :=
    List.dropWhile_cons_of_neg (by simp [keep c (List.mem_cons_self ..)])
  rw [trimSpace_eq, first, rdropWhile_append keep]

theorem head?_rdropWhile {p : Char → Bool} {s : List Char} {c : Char} (h : c ∈ (s.rdropWhile p).head?) :
    c ∈ s.head? := by
  obtain ⟨rest, hrest⟩ := List.rdropWhile_prefix p (l := s)
  rw [← hrest, List.head?_append, h]
  rfl

end Golang
