import Mathlib.Data.Bool.AllAny
import Mathlib.Data.List.Basic
import Mathlib.Algebra.Group.Nat.Defs

/-! Bytes as UTF-8 text, the way Go reads them: a byte that begins no well-formed sequence stands by itself,
    for the replacement character. -/

namespace Golang

/-- The bytes of one step of `utf8.DecodeRune`, and the character that they are unless they are not well formed. -/
structure Rune where
  raw : List UInt8
  char : Option Char
  deriving DecidableEq

def replacement : Char := '\ufffd'

/-- The character with this number. -/
def charOf (n : Nat) : Char := if h : n.isValidChar then Char.ofNatAux n h else replacement

/-- The length of a sequence that begins with this byte, and the least and the greatest byte that may follow it. -/
def sequenceOf (b : UInt8) : Option (Nat × UInt8 × UInt8) :=
  if b < 0xC2 then none
  else if b < 0xE0 then some (2, 0x80, 0xBF)
  else if b = 0xE0 then some (3, 0xA0, 0xBF)
  else if b = 0xED then some (3, 0x80, 0x9F)
  else if b < 0xF0 then some (3, 0x80, 0xBF)
  else if b = 0xF0 then some (4, 0x90, 0xBF)
  else if b < 0xF4 then some (4, 0x80, 0xBF)
  else if b = 0xF4 then some (4, 0x80, 0x8F)
  else none

/-- The number that a sequence of `size` bytes encodes. -/
def sequenceValue (size : Nat) (b : UInt8) (cs : List UInt8) : Nat :=
  cs.foldl (fun n c => 64 * n + c.toNat % 64) (b.toNat % 2 ^ (7 - size))

/-- The bytes `cs` complete a sequence of this form. -/
def completes (size : Nat) (least greatest : UInt8) : List UInt8 → Bool
  | [] => false
  | c :: cs => (least ≤ c && c ≤ greatest) && cs.all (fun c => 0x80 ≤ c && c ≤ 0xBF) && cs.length + 2 = size

/-- `utf8.DecodeRune` -/
def decodeRune (b : UInt8) (rest : List UInt8) : Rune :=
  if b < 0x80 then ⟨[b], some (charOf b.toNat)⟩
  else match sequenceOf b with
    | none => ⟨[b], none⟩
    | some (size, least, greatest) =>
      let cs := rest.take (size - 1)
      if completes size least greatest cs then ⟨b :: cs, some (charOf (sequenceValue size b cs))⟩ else ⟨[b], none⟩

/-- The runes of what is left after `skip` bytes. -/
def runesFrom : Nat → List UInt8 → List Rune
  | _, [] => []
  | skip + 1, _ :: rest => runesFrom skip rest
  | 0, b :: rest => decodeRune b rest :: runesFrom ((decodeRune b rest).raw.length - 1) rest

def runes (s : List UInt8) : List Rune := runesFrom 0 s

/-- The text, the replacement character standing for every byte that is not well formed. -/
def textOf (s : List UInt8) : List Char := (runes s).map fun r => r.char.getD replacement

/-- What a step of decoding may give. -/
inductive Rune.Proper : Rune → Prop
  | ascii (b : UInt8) (low : b < 0x80) : Proper ⟨[b], some (charOf b.toNat)⟩
  | wide (b : UInt8) (cs : List UInt8) (c : Char) (more : cs ≠ []) (high : ∀ x ∈ b :: cs, 0x80 ≤ x)
    (nonzero : c.toNat ≠ 0)
      (alone : ∀ tail, decodeRune b (cs ++ tail) = ⟨b :: cs, some c⟩) : Proper ⟨b :: cs, some c⟩
  | invalid (b : UInt8) (high : 0x80 ≤ b) : Proper ⟨[b], none⟩

theorem toNat_charOf {n : Nat} (h : n ≠ 0) : (charOf n).toNat ≠ 0 := by
  by_cases valid : n.isValidChar
  · have value : (charOf n).toNat = n := by
      rw [charOf, dif_pos valid]
      rfl
    rw [value]
    exact h
  · rw [charOf, dif_neg valid]
    decide

variable {b : UInt8} {rest cs s : List UInt8} {size : Nat} {least greatest : UInt8}

theorem le_foldl : ∀ (n : Nat) (cs : List UInt8), n ≤ cs.foldl (fun n c => 64 * n + c.toNat % 64) n
  | n, [] => Nat.le_refl n
  | n, c :: cs => by
    have later := le_foldl (64 * n + c.toNat % 64) cs
    simp only [List.foldl_cons]
    omega

/-- The first byte of a sequence, and the first that may follow, are not those of ASCII; the two encode more
than zero. -/
theorem sequenceOf_spec (h : sequenceOf b = some (size, least, greatest)) : 0x80 ≤ b ∧ 0x80 ≤ least ∧
    ∀ c : UInt8, least ≤ c → c ≤ greatest → 64 * (b.toNat % 2 ^ (7 - size)) + c.toNat % 64 ≠ 0 := by
  unfold sequenceOf at h
  split at h
  · cases h
  rename_i above
  simp only [UInt8.lt_iff_toNat_lt, Nat.not_lt] at above
  have bound := b.toNat_lt
  have high : 0x80 ≤ b := UInt8.le_iff_toNat_le.mpr (Nat.le_trans (by decide) above)
  -- the bits of the first byte are not all zero, except where the bounds of the second see to it
  have front : ∀ n k : Nat, b.toNat % n ≠ 0 → 64 * (b.toNat % n) + k ≠ 0 := fun n k h => by omega
  have other : ∀ {x : UInt8}, b ≠ x → b.toNat ≠ x.toNat := fun h heq => h (UInt8.toNat_inj.mp heq)
  split at h
  · rename_i below
    simp only [UInt8.lt_iff_toNat_lt] at below
    cases h
    refine ⟨high, by decide, fun c _ _ => front _ _ ?_⟩
    simp at above below ⊢
    omega
  rename_i atLeastE0
  simp only [UInt8.lt_iff_toNat_lt, Nat.not_lt] at atLeastE0
  split at h
  · cases h
    refine ⟨high, by decide, fun c hc hc' => ?_⟩
    simp [UInt8.le_iff_toNat_le] at hc hc'
    omega
  rename_i notE0
  have notE0 := other notE0
  split at h
  · rename_i equal
    cases h
    exact ⟨high, by decide, fun c _ _ => front _ _ (by rw [equal]; decide)⟩
  split at h
  · rename_i below
    simp only [UInt8.lt_iff_toNat_lt] at below
    cases h
    refine ⟨high, by decide, fun c _ _ => front _ _ ?_⟩
    simp at atLeastE0 below notE0 ⊢
    omega
  rename_i atLeastF0
  simp only [UInt8.lt_iff_toNat_lt, Nat.not_lt] at atLeastF0
  split at h
  · cases h
    refine ⟨high, by decide, fun c hc hc' => ?_⟩
    simp [UInt8.le_iff_toNat_le] at hc hc'
    omega
  rename_i notF0
  have notF0 := other notF0
  split at h
  · rename_i below
    simp only [UInt8.lt_iff_toNat_lt] at below
    cases h
    refine ⟨high, by decide, fun c _ _ => front _ _ ?_⟩
    simp at atLeastF0 below notF0 ⊢
    omega
  split at h
  · rename_i equal
    cases h
    exact ⟨high, by decide, fun c _ _ => front _ _ (by rw [equal]; decide)⟩
  · cases h

theorem completes_cons {c : UInt8} (h : completes size least greatest (c :: cs) = true) :
    least ≤ c ∧ c ≤ greatest ∧ (∀ x ∈ cs, 0x80 ≤ x) ∧ cs.length + 2 = size := by
  simp only [completes, Bool.and_eq_true, decide_eq_true_eq, List.all_eq_true] at h
  exact ⟨h.1.1.1, h.1.1.2, fun x hx => (h.1.2 x hx).1, h.2⟩

theorem proper_decodeRune : (decodeRune b rest).Proper := by
  unfold decodeRune
  split
  · exact .ascii b ‹_›
  rename_i high
  have high : 0x80 ≤ b := UInt8.not_lt.mp high
  split
  · exact .invalid b high
  rename_i size least greatest hs
  dsimp only
  split
  · rename_i complete
    cases hcs : rest.take (size - 1) with
    | nil =>
      rw [hcs] at complete
      cases complete
    | cons c cs =>
      rw [hcs] at complete
      obtain ⟨hc, hc', later, length⟩ := completes_cons complete
      obtain ⟨-, least_, nonzero⟩ := sequenceOf_spec hs
      refine .wide b (c :: cs) _ (List.cons_ne_nil c cs) ?_ (toNat_charOf ?_) fun tail => ?_
      · rintro x (_ | ⟨_, _ | ⟨_, hx⟩⟩)
        · exact high
        · exact UInt8.le_trans least_ hc
        · exact later x hx
      · have := le_foldl (64 * (b.toNat % 2 ^ (7 - size)) + c.toNat % 64) cs
        have := nonzero c hc hc'
        simp only [sequenceValue, List.foldl_cons]
        omega
      · have taken : (c :: cs ++ tail).take (size - 1) = c :: cs := by
          rw [List.take_append_of_le_length (by simp; omega)]
          exact List.take_of_length_le (by simp; omega)
        unfold decodeRune
        rw [if_neg (UInt8.not_lt.mpr high), hs]
        simp only [taken, complete, if_true]
  · exact .invalid b high

theorem proper_runesFrom {r : Rune} : ∀ (skip : Nat) (s : List UInt8), r ∈ runesFrom skip s → r.Proper
  | _, [], h => by cases h
  | skip + 1, _ :: rest, h => proper_runesFrom skip rest h
  | 0, b :: rest, h => by
    rcases List.mem_cons.mp h with rfl | h
    · exact proper_decodeRune
    · exact proper_runesFrom _ rest h

theorem proper_runes {r : Rune} (h : r ∈ runes s) : r.Proper := proper_runesFrom 0 s h

/-! ### Every byte is in one rune -/

theorem raw_decodeRune (b : UInt8) (rest : List UInt8) : ∃ cs, (decodeRune b rest).raw = b :: cs ∧ cs <+: rest := by
  unfold decodeRune
  split
  · exact ⟨[], rfl, List.nil_prefix⟩
  · split
    · exact ⟨[], rfl, List.nil_prefix⟩
    · dsimp only
      split
      · exact ⟨_, rfl, List.take_prefix ..⟩
      · exact ⟨[], rfl, List.nil_prefix⟩

theorem flatMap_runesFrom : ∀ (skip : Nat) (s : List UInt8), (runesFrom skip s).flatMap Rune.raw = s.drop skip
  | 0, [] | skip + 1, [] => by simp [runesFrom]
  | skip + 1, b :: rest => by
    rw [runesFrom, flatMap_runesFrom skip rest]
    rfl
  | 0, b :: rest => by
    obtain ⟨cs, raw, more, rfl⟩ := raw_decodeRune b rest
    rw [runesFrom, List.flatMap_cons, flatMap_runesFrom, raw]
    simp

theorem flatMap_runes : (runes s).flatMap Rune.raw = s := flatMap_runesFrom 0 s

theorem toNat_charOf_ascii {n : Nat} (h : n < 0x80) : (charOf n).toNat = n := by
  unfold charOf
  rw [dif_pos (Or.inl (by omega))]
  rfl

theorem replacement_ne : replacement ≠ '\x00' := by decide

/-- A zero byte is the character zero, and nothing else is. -/
theorem nul_mem_textOf : '\x00' ∈ textOf s ↔ 0 ∈ s := by
  have zero : ∀ r ∈ runes s, r.char.getD replacement = '\x00' ↔ 0 ∈ r.raw := by
    intro r hr
    cases proper_runes hr with
    | ascii b low =>
      have value := toNat_charOf_ascii (UInt8.lt_iff_toNat_lt.mp low)
      constructor
      · intro h
        rw [Option.getD_some] at h
        rw [h] at value
        exact List.mem_singleton.mpr (UInt8.toNat_inj.mp value)
      · intro h
        rw [← List.mem_singleton.mp h]
        decide
    | wide b cs c more high nonzero alone =>
      constructor
      · intro h
        rw [Option.getD_some] at h
        rw [h] at nonzero
        exact absurd rfl nonzero
      · exact fun h => absurd (high 0 h) (by decide)
    | invalid b high =>
      constructor
      · exact fun h => absurd h replacement_ne
      · intro h
        rw [← List.mem_singleton.mp h] at high
        exact absurd high (by decide)
  conv_rhs => rw [← flatMap_runes (s := s)]
  simp only [textOf, List.mem_map, List.mem_flatMap]
  constructor
  · rintro ⟨r, hr, h⟩
    exact ⟨r, hr, (zero r hr).mp h⟩
  · rintro ⟨r, hr, h⟩
    exact ⟨r, hr, (zero r hr).mpr h⟩

end Golang
