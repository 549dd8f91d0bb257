import Mathlib.Data.List.GetD
import DatrixOps.Golang.JsonText

/-! The standard padded encoding of `encoding/base64`. -/

namespace Golang

/-- The alphabet of `StdEncoding`. -/
def encodeStd : List UInt8 := asciiBytes "ABCDEFGHIJKLMNOPQRSTUVWXYZabcdefghijklmnopqrstuvwxyz0123456789+/"

def padChar : UInt8 := 0x3D

/-- The character of the last six bits of a number. -/
def sextet (val : Nat) : UInt8 := encodeStd.getD (val % 64) 0x2F

/-- `Encode` takes three bytes at a time; one or two that remain are filled up. -/
def encodeBase64 : List UInt8 → List UInt8
  | [] => []
  | [a] =>
    let val := a.toNat * 2 ^ 16
    [sextet (val / 2 ^ 18), sextet (val / 2 ^ 12), padChar, padChar]
  | [a, b] =>
    let val := a.toNat * 2 ^ 16 + b.toNat * 2 ^ 8
    [sextet (val / 2 ^ 18), sextet (val / 2 ^ 12), sextet (val / 2 ^ 6), padChar]
  | a :: b :: c :: src =>
    let val := a.toNat * 2 ^ 16 + b.toNat * 2 ^ 8 + c.toNat
    sextet (val / 2 ^ 18) :: sextet (val / 2 ^ 12) :: sextet (val / 2 ^ 6) :: sextet val :: encodeBase64 src

/-- `EncodeToString` -/
def encodeToString (src : List UInt8) : String := String.ofList ((encodeBase64 src).map Char.ofUInt8)

/-- The number that a character of the alphabet stands for. -/
def sextetOf (b : UInt8) : Option Nat := encodeStd.idxOf? b

/-- Decoding goes by groups of four characters; only the last may be filled up. -/
def decodeBase64 : List UInt8 → Option (List UInt8)
  | [] => some []
  | a :: b :: c :: d :: src => do
    let x ← sextetOf a
    let y ← sextetOf b
    let first := UInt8.ofNat (x * 4 + y / 16)
    if c = padChar ∧ d = padChar ∧ src = [] then return [first]
    let z ← sextetOf c
    let second := UInt8.ofNat (y % 16 * 16 + z / 4)
    if d = padChar ∧ src = [] then return [first, second]
    let w ← sextetOf d
    let third := UInt8.ofNat (z % 4 * 64 + w)
    let rest ← decodeBase64 src
    return first :: second :: third :: rest
  | _ => none

/-- Every character of the alphabet is ASCII, and none of them is the padding. -/
theorem encodeStd_plain : ∀ b ∈ encodeStd, b < 0x80 ∧ b ≠ padChar := by
  have all : (encodeStd.all fun b => b < 0x80 && b != padChar) = true := by decide
  intro b mem
  have one := List.all_eq_true.mp all b mem
  simpa only [Bool.and_eq_true, decide_eq_true_eq, bne_iff_ne] using one

theorem sextet_mem (val : Nat) : sextet val ∈ encodeStd := by
  have bound : val % 64 < encodeStd.length := Nat.mod_lt _ (by decide)
  rw [sextet, List.getD_eq_getElem encodeStd _ bound]
  exact List.getElem_mem bound

theorem sextet_ne (val : Nat) : sextet val ≠ padChar := (encodeStd_plain _ (sextet_mem val)).2

theorem sextetOf_sextet (val : Nat) : sextetOf (sextet val) = some (val % 64) := by
  have each : ∀ n < 64, sextetOf (sextet n) = some n := by decide +kernel
  have same : sextet val = sextet (val % 64) := by rw [sextet, sextet, Nat.mod_mod]
  rw [same, each _ (Nat.mod_lt _ (by decide))]

/-- The bytes of the number that a group of four characters stands for. -/
theorem sextets_bytes (val : Nat) : val / 2 ^ 18 % 64 * 4 + val / 2 ^ 12 % 64 / 16 = val / 2 ^ 16 % 256 ∧
    val / 2 ^ 12 % 64 % 16 * 16 + val / 2 ^ 6 % 64 / 4 = val / 2 ^ 8 % 256 ∧
    val / 2 ^ 6 % 64 % 4 * 64 + val % 64 = val % 256 := by
  omega

theorem ofNat_eq {b : UInt8} {n : Nat} (same : n = b.toNat) : UInt8.ofNat n = b := by rw [same, UInt8.ofNat_toNat]

/-- An encoding is decoded to what was encoded. -/
theorem decodeBase64_encodeBase64 (src : List UInt8) : decodeBase64 (encodeBase64 src) = some src := by
  induction src using encodeBase64.induct with
  | case1 => rfl
  | case2 a =>
    obtain ⟨first, -, -⟩ := sextets_bytes (a.toNat * 2 ^ 16)
    have high := ofNat_eq (b := a) (n := a.toNat * 2 ^ 16 / 2 ^ 16 % 256) (by have := a.toNat_lt; omega)
    simp only [encodeBase64, decodeBase64, sextetOf_sextet, Option.bind_eq_bind, Option.bind_some, and_self,
      if_true, first, high]
    rfl
  | case3 a b =>
    obtain ⟨first, second, -⟩ := sextets_bytes (a.toNat * 2 ^ 16 + b.toNat * 2 ^ 8)
    have := a.toNat_lt
    have := b.toNat_lt
    have high := ofNat_eq (b := a) (n := (a.toNat * 2 ^ 16 + b.toNat * 2 ^ 8) / 2 ^ 16 % 256) (by omega)
    have low := ofNat_eq (b := b) (n := (a.toNat * 2 ^ 16 + b.toNat * 2 ^ 8) / 2 ^ 8 % 256) (by omega)
    simp only [encodeBase64, decodeBase64, sextetOf_sextet, Option.bind_eq_bind, Option.bind_some, sextet_ne,
      false_and, if_false,
      and_self, if_true, first, second, high, low]
    rfl
  | case4 a b c src ih =>
    obtain ⟨first, second, third⟩ := sextets_bytes (a.toNat * 2 ^ 16 + b.toNat * 2 ^ 8 + c.toNat)
    have := a.toNat_lt
    have := b.toNat_lt
    have := c.toNat_lt
    have high := ofNat_eq (b := a) (n := (a.toNat * 2 ^ 16 + b.toNat * 2 ^ 8 + c.toNat) / 2 ^ 16 % 256) (by omega)
    have middle := ofNat_eq (b := b) (n := (a.toNat * 2 ^ 16 + b.toNat * 2 ^ 8 + c.toNat) / 2 ^ 8 % 256) (by omega)
    have low := ofNat_eq (b := c) (n := (a.toNat * 2 ^ 16 + b.toNat * 2 ^ 8 + c.toNat) % 256) (by omega)
    simp only [encodeBase64, decodeBase64, sextetOf_sextet, Option.bind_eq_bind, Option.bind_some, sextet_ne,
      false_and, if_false,
      first, second, third, high, middle, low, ih]
    rfl

theorem length_encodeBase64 (src : List UInt8) : (encodeBase64 src).length = 4 * ((src.length + 2) / 3) := by
  induction src using encodeBase64.induct with
  | case1 => simp [encodeBase64]
  | case2 a => simp [encodeBase64]
  | case3 a b => simp [encodeBase64]
  | case4 a b c src ih =>
    simp only [encodeBase64, List.length_cons, ih]
    omega

theorem encodeBase64_mem (src : List UInt8) : ∀ b ∈ encodeBase64 src, b ∈ encodeStd ∨ b = padChar := by
  induction src using encodeBase64.induct with
  | case1 => exact fun b mem => absurd mem List.not_mem_nil
  | case2 a => simp [encodeBase64, sextet_mem]
  | case3 a b => simp [encodeBase64, sextet_mem]
  | case4 a b c src ih => simpa [encodeBase64, sextet_mem] using ih

theorem encodeBase64_ascii (src : List UInt8) : ∀ b ∈ encodeBase64 src, b < 0x80 := by
  have digit (val : Nat) : sextet val < 0x80 := (encodeStd_plain _ (sextet_mem val)).1
  have pad : padChar < 0x80 := by decide
  induction src using encodeBase64.induct with
  | case1 => exact fun b mem => absurd mem List.not_mem_nil
  | case2 a => simp [encodeBase64, digit, pad]
  | case3 a b => simp [encodeBase64, digit, pad]
  | case4 a b c src ih => simpa [encodeBase64, digit] using ih

/-- The number of characters that fill up the last group, read off the end of an encoding. -/
def paddingOf (value : List UInt8) : Nat :=
  if [padChar, padChar] <:+ value then 2 else if [padChar] <:+ value then 1 else 0

/-- The padding is that of the last group. -/
theorem paddingOf_append {value : List UInt8} (more : 2 ≤ value.length) (before : List UInt8) :
    paddingOf (before ++ value) = paddingOf value := by
  have same (pad : List UInt8) (short : pad.length ≤ 2) : pad <:+ before ++ value ↔ pad <:+ value := by
    constructor
    · exact fun h => List.suffix_of_suffix_length_le h (List.suffix_append before value) (Nat.le_trans short more)
    · exact fun h => h.trans (List.suffix_append before value)
  unfold paddingOf
  rw [if_congr (same [padChar, padChar] (Nat.le_refl 2)) rfl (if_congr (same [padChar] (Nat.le_succ 1)) rfl rfl)]

theorem paddingOf_last {x : UInt8} (ne : x ≠ padChar) (before : List UInt8) : paddingOf (before ++ [x]) = 0 := by
  have notOne : ¬[padChar] <:+ before ++ [x] := fun h => ne (List.singleton_suffix_append_singleton_iff.mp h).symm
  have notTwo : ¬[padChar, padChar] <:+ before ++ [x] := fun h => notOne ((List.suffix_cons padChar [padChar]).trans h)
  rw [paddingOf, if_neg notTwo, if_neg notOne]

theorem paddingOf_one {x : UInt8} (ne : x ≠ padChar) (before : List UInt8) :
    paddingOf (before ++ [x, padChar]) = 1 := by
  have one : [padChar] <:+ before ++ [x, padChar] := ⟨before ++ [x], by rw [List.append_assoc]; rfl⟩
  have notTwo : ¬[padChar, padChar] <:+ before ++ [x, padChar] := by
    rintro ⟨others, h⟩
    exact ne (List.cons.inj (List.append_inj_right' h rfl)).1.symm
  rw [paddingOf, if_neg notTwo, if_pos one]

theorem paddingOf_two (before : List UInt8) : paddingOf (before ++ [padChar, padChar]) = 2 :=
  if_pos (List.suffix_append before _)

/-- An encoding is filled up to a whole number of groups. -/
theorem paddingOf_encodeBase64 (src : List UInt8) : paddingOf (encodeBase64 src) = (3 - src.length % 3) % 3 := by
  induction src using encodeBase64.induct with
  | case1 => rfl
  | case2 a => exact paddingOf_two [_, _]
  | case3 a b => exact paddingOf_one (sextet_ne _) [_, _]
  | case4 a b c src ih =>
    have mod : (a :: b :: c :: src).length % 3 = src.length % 3 := by
      rw [List.length_cons, List.length_cons, List.length_cons]
      omega
    rw [mod, ← ih, encodeBase64]
    cases src with
    | nil => exact paddingOf_last (sextet_ne _) [_, _, _]
    | cons d src =>
      refine paddingOf_append ?_ [_, _, _, _]
      rw [length_encodeBase64, List.length_cons]
      omega

end Golang
