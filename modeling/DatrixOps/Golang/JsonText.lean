import Mathlib.Algebra.GroupWithZero.Nat
import DatrixOps.Golang.Utf8

/-! How `encoding/json` writes a string and reads it back. What is read is the text that was written, with the
    replacement character where its bytes are not well formed. -/

namespace Golang

/-- The bytes of a text of ASCII characters. -/
def asciiBytes (s : String) : List UInt8 := s.toList.map fun c => UInt8.ofNat c.toNat

/-! ### Writing -/

def hexByte (n : Nat) : UInt8 := UInt8.ofNat (if n < 10 then 0x30 + n else 0x57 + n)

/-- What follows the backslash of a short escape. -/
def shortEscape (b : UInt8) : Option UInt8 :=
  if b = 0x5C ∨ b = 0x22 then some b
  else if b = 0x08 then some 0x62
  else if b = 0x0C then some 0x66
  else if b = 0x0A then some 0x6E
  else if b = 0x0D then some 0x72
  else if b = 0x09 then some 0x74
  else none

/-- Control characters, and those that mean something in HTML. -/
def unsafeByte (b : UInt8) : Bool := b < 0x20 || b = 0x3C || b = 0x3E || b = 0x26

def quoteByte (b : UInt8) : List UInt8 :=
  match shortEscape b with
  | some e => [0x5C, e]
  | none =>
    if unsafeByte b then [0x5C, 0x75, 0x30, 0x30, hexByte (b.toNat / 16), hexByte (b.toNat % 16)] else [b]

def quoteRune (r : Rune) : List UInt8 :=
  match r.char with
  | none => asciiBytes "\\ufffd"
  | some c =>
    match r.raw with
    | [b] => quoteByte b
    | raw =>
      if c = '\u2028' then asciiBytes "\\u2028"
      else if c = '\u2029' then asciiBytes "\\u2029"
      else raw

/-- What stands between the quotes. -/
def quoteBody (s : List UInt8) : List UInt8 := (runes s).flatMap quoteRune

def quote (s : List UInt8) : List UInt8 := 0x22 :: quoteBody s ++ [0x22]

/-! ### Reading -/

/-- What stands between the quotes of a string, and what follows it, from within an escape or not. -/
def scanString : Bool → List UInt8 → Option (List UInt8 × List UInt8)
  | _, [] => none
  | true, b :: rest => (scanString false rest).map (Prod.map (b :: ·) id)
  | false, b :: rest =>
    if b = 0x22 then some ([], rest)
    else if b = 0x5C then (scanString true rest).map (Prod.map (b :: ·) id)
    else if b < 0x20 then none
    else (scanString false rest).map (Prod.map (b :: ·) id)

def hexValue (b : UInt8) : Option Nat :=
  if 0x30 ≤ b ∧ b ≤ 0x39 then some (b.toNat - 0x30)
  else if 0x61 ≤ b ∧ b ≤ 0x66 then some (b.toNat - 0x57)
  else if 0x41 ≤ b ∧ b ≤ 0x46 then some (b.toNat - 0x37)
  else none

/-- `getu4` without its prefix -/
def hex4 : List UInt8 → Option Nat
  | a :: b :: c :: d :: _ => do
    let a ← hexValue a
    let b ← hexValue b
    let c ← hexValue c
    let d ← hexValue d
    return ((a * 16 + b) * 16 + c) * 16 + d
  | _ => none

/-- The low half of a surrogate pair. -/
def lowSurrogate : List UInt8 → Option Nat
  | 0x5C :: 0x75 :: rest => (hex4 rest).filter fun n => 0xDC00 ≤ n ∧ n < 0xE000
  | _ => none

/-- What stands for the escape whose bytes after the backslash begin so, and how many of them it has. -/
def escape : List UInt8 → Option (Char × Nat)
  | [] => none
  | c :: rest =>
    if c = 0x22 ∨ c = 0x5C ∨ c = 0x2F then some (charOf c.toNat, 1)
    else if c = 0x62 then some ('\x08', 1)
    else if c = 0x66 then some ('\x0C', 1)
    else if c = 0x6E then some ('\n', 1)
    else if c = 0x72 then some ('\r', 1)
    else if c = 0x74 then some ('\t', 1)
    else if c = 0x75 then
      (hex4 rest).map fun n =>
        if 0xD800 ≤ n ∧ n < 0xDC00 then
          match lowSurrogate (rest.drop 4) with
          | some low => (charOf (0x10000 + (n - 0xD800) * 0x400 + (low - 0xDC00)), 11)
          | none => (replacement, 5)
        else (charOf n, 5)
    else none

/-- `unquoteBytes`, from what is left after `skip` bytes on. -/
def unquoteFrom : Nat → List UInt8 → Option (List Char)
  | _, [] => some []
  | skip + 1, _ :: rest => unquoteFrom skip rest
  | 0, b :: rest =>
    if b = 0x22 ∨ b < 0x20 then none
    else if b = 0x5C then
      match escape rest with
      | some (c, used) => (unquoteFrom used rest).map (c :: ·)
      | none => none
    else (unquoteFrom ((decodeRune b rest).raw.length - 1) rest).map ((decodeRune b rest).char.getD replacement :: ·)

/-- A string literal at the beginning of the bytes, and what follows it. -/
def readString : List UInt8 → Option (List Char × List UInt8)
  | [] => none
  | b :: rest =>
    if b = 0x22 then do
      let (content, rest) ← scanString false rest
      let text ← unquoteFrom 0 content
      return (text, rest)
    else none

/-! ### Reading what was written -/

variable {r : Rune} {s tail : List UInt8}

theorem unquoteFrom_append : ∀ {l : List UInt8}, unquoteFrom l.length (l ++ tail) = unquoteFrom 0 tail
  | [] => rfl
  | _ :: l => unquoteFrom_append (l := l)

/-- A byte that stands for itself within a string. -/
def Plain (b : UInt8) : Prop := b ≠ 0x22 ∧ b ≠ 0x5C ∧ ¬b < 0x20

instance : DecidablePred Plain := fun b => inferInstanceAs (Decidable (b ≠ 0x22 ∧ b ≠ 0x5C ∧ ¬b < 0x20))

theorem scanString_append : ∀ {l : List UInt8}, (∀ b ∈ l, Plain b) →
    scanString false (l ++ tail) = (scanString false tail).map (Prod.map (l ++ ·) id)
  | [], _ => by
    rw [List.nil_append]
    cases scanString false tail <;> rfl
  | b :: l, h => by
    obtain ⟨⟨quote_, escape_, control⟩, later⟩ := List.forall_mem_cons.mp h
    rw [List.cons_append, scanString, if_neg quote_, if_neg escape_, if_neg control, scanString_append later]
    cases scanString false tail <;> rfl

/-- What is written for a rune, as the reader sees it. -/
inductive Written (r : Rune) : List UInt8 → Prop
  | escaped (c : UInt8) (l : List UInt8) (plain : ∀ b ∈ l, Plain b)
      (means : ∀ tail, escape (c :: (l ++ tail)) = some (r.char.getD replacement, l.length + 1)) :
        Written r (0x5C :: c :: l)
  | plain (b : UInt8) (l : List UInt8) (plain : ∀ x ∈ b :: l, Plain x)
      (decoded : ∀ tail, decodeRune b (l ++ tail) = ⟨b :: l, r.char⟩) : Written r (b :: l)

theorem hexByte_spec : ∀ n : Fin 16, hexValue (hexByte n) = some n.val ∧ Plain (hexByte n) := by
  decide

theorem Written.scan {l : List UInt8} (h : Written r l) :
    scanString false (l ++ tail) = (scanString false tail).map (Prod.map (l ++ ·) id) := by
  cases h with
  | escaped c l plain means =>
    rw [List.cons_append, List.cons_append, scanString, if_neg (by decide), if_pos rfl, scanString,
      scanString_append plain]
    cases scanString false tail <;> rfl
  | plain b l plain decoded => exact scanString_append plain

theorem Written.unquote {l : List UInt8} (h : Written r l) :
    unquoteFrom 0 (l ++ tail) = (unquoteFrom 0 tail).map (r.char.getD replacement :: ·) := by
  cases h with
  | escaped c l plain means =>
    rw [List.cons_append, List.cons_append, unquoteFrom, if_neg (by decide), if_pos rfl, means]
    dsimp only
    rw [unquoteFrom, unquoteFrom_append]
  | plain b l plain decoded =>
    obtain ⟨⟨quote_, escape_, control⟩, -⟩ := List.forall_mem_cons.mp plain
    rw [List.cons_append, unquoteFrom, if_neg (not_or.mpr ⟨quote_, control⟩), if_neg escape_, decoded]
    dsimp only
    rw [List.length_cons, Nat.add_sub_cancel, unquoteFrom_append]

theorem written_short {b e : UInt8} (h : shortEscape b = some e) : Written ⟨[b], some (charOf b.toNat)⟩ [0x5C, e] := by
  refine .escaped e [] (fun _ h => nomatch h) fun tail => ?_
  unfold shortEscape at h
  split at h
  · obtain rfl := Option.some.inj h
    rename_i short
    rcases short with rfl | rfl
    · rfl
    · rfl
  split at h
  · obtain rfl := Option.some.inj h
    subst b
    rfl
  split at h
  · obtain rfl := Option.some.inj h
    subst b
    rfl
  split at h
  · obtain rfl := Option.some.inj h
    subst b
    rfl
  split at h
  · obtain rfl := Option.some.inj h
    subst b
    rfl
  split at h
  · obtain rfl := Option.some.inj h
    subst b
    rfl
  · cases h

theorem hex4_byte (b : UInt8) (tail : List UInt8) :
    hex4 (0x30 :: 0x30 :: hexByte (b.toNat / 16) :: hexByte (b.toNat % 16) :: tail) = some b.toNat := by
  have bound := b.toNat_lt
  have high := (hexByte_spec ⟨b.toNat / 16, by omega⟩).1
  have low := (hexByte_spec ⟨b.toNat % 16, by omega⟩).1
  have zero : hexValue 0x30 = some 0 := by decide
  simp only [hex4, zero, high, low, Option.bind_eq_bind, Option.bind_some, Option.pure_def, Option.some.injEq]
  omega

theorem written_unsafe {b : UInt8} (low : b < 0x80) :
    Written ⟨[b], some (charOf b.toNat)⟩ [0x5C, 0x75, 0x30, 0x30, hexByte (b.toNat / 16), hexByte (b.toNat % 16)] := by
  have bound := b.toNat_lt
  have below := UInt8.lt_iff_toNat_lt.mp low
  refine .escaped 0x75 [0x30, 0x30, hexByte (b.toNat / 16), hexByte (b.toNat % 16)] ?_ fun tail => ?_
  · have first := (hexByte_spec ⟨b.toNat / 16, by omega⟩).2
    have second := (hexByte_spec ⟨b.toNat % 16, by omega⟩).2
    have zero : Plain 0x30 := by decide
    simp only [List.forall_mem_cons, zero, first, second, true_and, List.not_mem_nil, false_imp_iff, implies_true]
  · have read := hex4_byte b tail
    change (hex4 (0x30 :: 0x30 :: hexByte (b.toNat / 16) :: hexByte (b.toNat % 16) :: tail)).map _ = _
    rw [read, Option.map_some, if_neg (by simp at below; omega)]
    rfl

theorem written_ascii (b : UInt8) (low : b < 0x80) : Written ⟨[b], some (charOf b.toNat)⟩ (quoteByte b) := by
  unfold quoteByte
  cases hs : shortEscape b with
  | some e => exact written_short hs
  | none =>
    dsimp only
    split
    · exact written_unsafe low
    · rename_i safe
      refine .plain b [] ?_ fun tail => ?_
      · simp only [List.forall_mem_singleton]
        simp only [unsafeByte, Bool.or_eq_true, decide_eq_true_eq, not_or] at safe
        refine ⟨?_, ?_, safe.1.1.1⟩
        · rintro rfl
          cases hs
        · rintro rfl
          cases hs
      · rw [List.nil_append, decodeRune, if_pos low]

theorem Rune.Proper.written (h : r.Proper) : Written r (quoteRune r) := by
  cases h with
  | ascii b low => exact written_ascii b low
  | wide b cs c more high nonzero alone =>
    have plain : ∀ x ∈ b :: cs, Plain x := by
      intro x hx
      have := high x hx
      refine ⟨?_, ?_, ?_⟩
      · rintro rfl
        exact absurd this (by decide)
      · rintro rfl
        exact absurd this (by decide)
      · exact fun below => absurd (UInt8.lt_of_le_of_lt this below) (by decide)
    obtain ⟨d, ds, rfl⟩ := List.exists_cons_of_ne_nil more
    unfold quoteRune
    dsimp only
    split
    · rename_i separator
      rw [separator]
      exact .escaped 0x75 (asciiBytes "2028") (List.all_iff_forall_prop.mp (by decide)) fun tail => rfl
    · split
      · rename_i separator
        rw [separator]
        exact .escaped 0x75 (asciiBytes "2029") (List.all_iff_forall_prop.mp (by decide)) fun tail => rfl
      · exact .plain b (d :: ds) plain alone
  | invalid b high => exact .escaped 0x75 (asciiBytes "fffd") (List.all_iff_forall_prop.mp (by decide)) fun tail => rfl

theorem scanString_runes : ∀ {rs : List Rune}, (∀ r ∈ rs, r.Proper) →
    scanString false (rs.flatMap quoteRune ++ 0x22 :: tail) = some (rs.flatMap quoteRune, tail)
  | [], _ => rfl
  | r :: rs, h => by
    obtain ⟨proper, later⟩ := List.forall_mem_cons.mp h
    rw [List.flatMap_cons, List.append_assoc, proper.written.scan, scanString_runes later]
    rfl

theorem unquoteFrom_runes : ∀ {rs : List Rune}, (∀ r ∈ rs, r.Proper) →
    unquoteFrom 0 (rs.flatMap quoteRune) = some (rs.map fun r => r.char.getD replacement)
  | [], _ => rfl
  | r :: rs, h => by
    obtain ⟨proper, later⟩ := List.forall_mem_cons.mp h
    rw [List.flatMap_cons, proper.written.unquote, unquoteFrom_runes later]
    rfl

/-- A string is read as the text that was written. -/
theorem readString_quote : readString (quote s ++ tail) = some (textOf s, tail) := by
  have scanned : scanString false (quoteBody s ++ 0x22 :: tail) = some (quoteBody s, tail) :=
    scanString_runes fun _ h => proper_runes h
  have read : unquoteFrom 0 (quoteBody s) = some (textOf s) := unquoteFrom_runes fun _ h => proper_runes h
  rw [quote, List.cons_append, List.cons_append, List.append_assoc, readString, if_pos rfl]
  change (do
    let (content, rest) ← scanString false (quoteBody s ++ 0x22 :: tail)
    let text ← unquoteFrom 0 content
    return (text, rest) : Option _) = _
  rw [scanned]
  simp [read]

theorem charOf_toNat (c : Char) : charOf c.toNat = c := by
  have valid : c.toNat.isValidChar := c.valid
  have read : Char.ofNat c.toNat = Char.ofNatAux c.toNat valid := dif_pos valid
  rw [charOf, dif_pos valid, ← read]
  exact Char.ofNat_toNat c

/-- The text of ASCII characters is what they are. -/
theorem textOf_asciiBytes {text : String} (h : ∀ c ∈ text.toList, c.toNat < 0x80) :
    textOf (asciiBytes text) = text.toList := by
  unfold asciiBytes textOf runes
  generalize text.toList = cs at h
  induction cs with
  | nil => rfl
  | cons c cs ih =>
    obtain ⟨low, later⟩ := List.forall_mem_cons.mp h
    have byte : (UInt8.ofNat c.toNat).toNat = c.toNat := by
      rw [UInt8.toNat_ofNat']
      omega
    have decoded : decodeRune (UInt8.ofNat c.toNat) (cs.map fun c => UInt8.ofNat c.toNat) =
        ⟨[UInt8.ofNat c.toNat], some c⟩ := by
      rw [decodeRune, if_pos (UInt8.lt_iff_toNat_lt.mpr (by rw [byte]; exact low)), byte, charOf_toNat]
    rw [List.map_cons, runesFrom, decoded]
    exact congrArg (c :: ·) (ih later)

/-! ### What follows a string is not looked at -/

theorem scanString_extend {rest more : List UInt8} : ∀ {s content : List UInt8} {escaped : Bool},
    scanString escaped s = some (content, rest) → scanString escaped (s ++ more) = some (content, rest ++ more)
  | [], _, escaped, h => by cases escaped <;> cases h
  | b :: s, content, escaped, h => by
    have pushed {escaped : Bool} (h : (scanString escaped s).map (Prod.map (b :: ·) id) = some (content, rest)) :
        (scanString escaped (s ++ more)).map (Prod.map (b :: ·) id) = some (content, rest ++ more) := by
      obtain ⟨⟨content', rest'⟩, scanned, eq⟩ := Option.map_eq_some_iff.mp h
      obtain ⟨rfl, rfl⟩ := Prod.mk.inj eq
      rw [scanString_extend scanned]
      rfl
    cases escaped with
    | true => exact pushed h
    | false =>
      rw [List.cons_append, scanString]
      rw [scanString] at h
      split at h
      · rw [if_pos ‹_›]
        obtain ⟨rfl, rfl⟩ := Prod.mk.inj (Option.some.inj h)
        rfl
      · rw [if_neg ‹_›]
        split at h
        · rw [if_pos ‹_›]
          exact pushed h
        · rw [if_neg ‹_›]
          split at h
          · cases h
          · rw [if_neg ‹_›]
            exact pushed h

theorem readString_extend {text : List Char} {rest more : List UInt8} (h : readString s = some (text, rest)) :
    readString (s ++ more) = some (text, rest ++ more) := by
  cases s with
  | nil => cases h
  | cons b s =>
    rw [List.cons_append, readString]
    rw [readString] at h
    split at h
    · rw [if_pos ‹_›]
      obtain ⟨⟨content, rest'⟩, scanned, h⟩ := Option.bind_eq_some_iff.mp h
      obtain ⟨text', read, h⟩ := Option.bind_eq_some_iff.mp h
      obtain ⟨rfl, rfl⟩ := Prod.mk.inj (Option.some.inj h)
      exact Option.bind_eq_some_iff.mpr ⟨_, scanString_extend scanned, Option.bind_eq_some_iff.mpr ⟨_, read, rfl⟩⟩
    · cases h

/-! ### How long it gets -/

/-- A byte of ASCII is written as it is, as a short escape or by its number. -/
def byteSize (b : UInt8) : Nat := if (shortEscape b).isSome then 2 else if unsafeByte b then 6 else 1

/-- How many bytes are written for a rune. -/
def Rune.escapedSize (r : Rune) : Nat :=
  match r.char, r.raw with
  | none, _ => 6
  | some _, [b] => byteSize b
  | some c, raw => if c = '\u2028' ∨ c = '\u2029' then 6 else raw.length

/-- How many bytes are written for a string, without its quotes. -/
def escapedSize (s : List UInt8) : Nat := ((runes s).map Rune.escapedSize).sum

theorem length_quoteByte (b : UInt8) : (quoteByte b).length = byteSize b := by
  unfold quoteByte byteSize
  cases shortEscape b with
  | some e => rfl
  | none =>
    dsimp only
    split
    · rfl
    · rfl

theorem length_quoteRune (r : Rune) : (quoteRune r).length = r.escapedSize := by
  obtain ⟨raw, char⟩ := r
  cases char with
  | none => rfl
  | some c =>
    have separated (raw : List UInt8) :
      (if c = '\u2028' then asciiBytes "\\u2028" else if c = '\u2029' then asciiBytes "\\u2029" else raw).length =
        if c = '\u2028' ∨ c = '\u2029' then 6 else raw.length := by
      by_cases line : c = '\u2028'
      · simp only [line, if_true, true_or]
        rfl
      · by_cases paragraph : c = '\u2029'
        · simp only [paragraph, if_true, or_true]
          rfl
        · simp only [line, paragraph, if_false, or_false]
    rcases raw with _ | ⟨b, _ | ⟨d, raw⟩⟩
    · exact separated []
    · exact length_quoteByte b
    · exact separated (b :: d :: raw)

theorem length_quote : (quote s).length = escapedSize s + 2 := by
  simp [quote, quoteBody, escapedSize, List.length_flatMap, length_quoteRune]

/-- A byte takes six at most. -/
theorem Rune.Proper.escapedSize_le (h : r.Proper) : r.escapedSize ≤ 6 * r.raw.length := by
  cases h with
  | ascii b low =>
    change byteSize b ≤ 6
    unfold byteSize
    split
    · decide
    · split
      · decide
      · decide
  | wide b cs c more high nonzero alone =>
    obtain ⟨d, ds, rfl⟩ := List.exists_cons_of_ne_nil more
    change (if c = '\u2028' ∨ c = '\u2029' then 6 else (b :: d :: ds).length) ≤ 6 * (b :: d :: ds).length
    simp only [List.length_cons]
    split
    · omega
    · omega
  | invalid b high => exact Nat.le_refl 6

theorem escapedSize_le : escapedSize s ≤ 6 * s.length := by
  have sized : ∀ {rs : List Rune}, (∀ r ∈ rs, r.Proper) → (rs.map Rune.escapedSize).sum ≤
      6 * (rs.flatMap Rune.raw).length := by
    intro rs h
    induction rs with
    | nil => exact Nat.le_refl _
    | cons r rs ih =>
      obtain ⟨proper, later⟩ := List.forall_mem_cons.mp h
      have := proper.escapedSize_le
      have := ih later
      simp only [List.map_cons, List.sum_cons, List.flatMap_cons, List.length_append]
      omega
  have total := sized fun _ h => proper_runes (s := s) h
  rwa [flatMap_runes] at total

end Golang
