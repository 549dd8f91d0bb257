import DatrixOps.Host.Output
import Mathlib.Data.List.DropRight

/-! The two keyword filters of the agent's log reader. Both should print the newest of the lines with the
    keyword; the one for files stops at the oldest of them, and the one for the journal at a line that its
    scanner cannot hold. -/

namespace DatrixOps
namespace KeywordFilters
open Posix Host Golang

/-! ### Texts of lines -/

/-- An entry of a log: a single line with something in it. -/
structure Entry where
  line : Bytes
  some_ : line ≠ []
  single : 0x0A ∉ line ∧ 0x0D ∉ line

/-- Their lines. -/
def lines (entries : List Entry) : List Bytes := entries.map (·.line)

/-- The text of a log, whose last line may be ended like the others. -/
def logText (ended : Bool) (lines : List Bytes) : Bytes := joinLines (lines ++ if ended && lines ≠ [] then [[]] else [])

section
variable {line rest : Bytes} {ls ls' : List Bytes}

theorem splitLines_ne_nil : ∀ {text : Bytes}, splitLines text ≠ []
  | [] => List.cons_ne_nil _ _
  | b :: rest => by
    obtain ⟨line, lines, h⟩ := List.exists_cons_of_ne_nil (@splitLines_ne_nil rest)
    rw [splitLines, h]
    dsimp only
    split <;> exact List.cons_ne_nil _ _

theorem splitLines_cons (b : UInt8) : splitLines (b :: rest) =
    if b = 0x0A then [] :: splitLines rest else (b :: (splitLines rest).headD []) :: (splitLines rest).tail := by
  obtain ⟨line, lines, h⟩ := List.exists_cons_of_ne_nil (@splitLines_ne_nil rest)
  rw [splitLines, h]
  rfl

theorem splitLines_line (single : 0x0A ∉ line) : splitLines line = [line] := by
  induction line with
  | nil => rfl
  | cons b line ih =>
    rw [List.mem_cons, not_or] at single
    rw [splitLines_cons, if_neg (Ne.symm single.1), ih single.2]
    rfl

theorem splitLines_append (single : 0x0A ∉ line) : splitLines (line ++ 0x0A :: rest) = line :: splitLines rest := by
  induction line with
  | nil => rw [List.nil_append, splitLines_cons, if_pos rfl]
  | cons b line ih =>
    rw [List.mem_cons, not_or] at single
    rw [List.cons_append, splitLines_cons, if_neg (Ne.symm single.1), ih single.2]
    rfl

theorem joinLines_cons_cons {line' : Bytes} :
    joinLines (line :: line' :: ls) = line ++ 0x0A :: joinLines (line' :: ls) := by
  simp [joinLines, List.intercalate]

theorem splitLines_joinLines : ∀ {ls : List Bytes}, ls ≠ [] → (∀ l ∈ ls, 0x0A ∉ l) → splitLines (joinLines ls) = ls
  | [line], _, single => by
    rw [joinLines, List.intercalate_singleton, splitLines_line (single line List.mem_cons_self)]
  | line :: line' :: ls, _, single => by
    rw [joinLines_cons_cons, splitLines_append (single line List.mem_cons_self),
      splitLines_joinLines (List.cons_ne_nil line' ls) fun l hl => single l (List.mem_cons_of_mem line hl)]

/-- Lines with something in them are told from their text; only a blank line reads like no line. -/
theorem joinLines_inj (single : ∀ l ∈ ls, 0x0A ∉ l) (filled : ∀ l ∈ ls', l ≠ [] ∧ 0x0A ∉ l) :
    joinLines ls = joinLines ls' ↔ ls = ls' ∨ ls = [[]] ∧ ls' = [] := by
  constructor
  · intro same
    rcases eq_or_ne ls' [] with rfl | some'
    · rcases eq_or_ne ls [] with rfl | some_
      · exact Or.inl rfl
      · have split := splitLines_joinLines some_ single
        rw [same] at split
        exact Or.inr ⟨split.symm, rfl⟩
    · have split' := splitLines_joinLines some' fun l hl => (filled l hl).2
      rcases eq_or_ne ls [] with rfl | some_
      · rw [← same] at split'
        exact absurd rfl (filled [] (split' ▸ List.mem_singleton_self [])).1
      · have split := splitLines_joinLines some_ single
        rw [same, split'] at split
        exact Or.inl split.symm
  · rintro (rfl | ⟨rfl, rfl⟩) <;> rfl

end

/-! ### The lines with the keyword -/

section
variable (h : Surroundings) (keyword : String) (entries : List Entry)

/-- The lines of the entries that have the keyword. -/
def matching : List Bytes := (lines entries).filter (hasKeyword h keyword)

/-- The newest of them, in their order. -/
def newest (k : Nat) : List Bytes := (matching h keyword entries).rtake k

/-- The entries after the last one that does not fit into the buffer of the scanner. -/
def scanned : List Bytes := (lines entries).rtakeWhile (·.length < 1024 * 1024)

/-- Where both filters print the newest lines with the keyword. The first of them are the last ones when there
    are no more than asked for, or when they repeat. -/
structure Agree (ended : Bool) (k : Nat) : Prop where
  same : ∀ i < k, (matching h keyword entries)[i]? =
    (matching h keyword entries)[i + ((matching h keyword entries).length - k)]?
  held : (matching h keyword entries).length ≤ ((scanned entries).filter (hasKeyword h keyword)).length ∨
    k ≤ ((scanned entries).filter (hasKeyword h keyword)).length
  blank : ended = true → hasKeyword h keyword [] = true → matching h keyword entries = [] ∨
    k ≤ (matching h keyword entries).length

variable {h keyword entries} {k : Nat} {ended : Bool} {l : Bytes}

theorem lines_filled (hl : l ∈ lines entries) : l ≠ [] ∧ 0x0A ∉ l ∧ 0x0D ∉ l := by
  obtain ⟨e, -, rfl⟩ := List.mem_map.mp hl
  exact ⟨e.some_, e.single⟩

theorem matching_filled (hl : l ∈ matching h keyword entries) : l ≠ [] ∧ 0x0A ∉ l := by
  have filled := lines_filled (List.mem_filter.mp hl).1
  exact ⟨filled.1, filled.2.1⟩

theorem newest_filled (hl : l ∈ newest h keyword entries k) : l ≠ [] ∧ 0x0A ∉ l :=
  matching_filled (List.mem_of_mem_drop hl)

/-! ### What is scanned -/

theorem splitLines_logText {ls : List Bytes} (some_ : ls ≠ []) (single : ∀ l ∈ ls, 0x0A ∉ l) :
    splitLines (logText ended ls) = ls ++ if ended then [[]] else [] := by
  have last : (ended && decide (ls ≠ [])) = ended := by simp [some_]
  rw [logText, last]
  refine splitLines_joinLines (by simp [some_]) fun l hl => ?_
  rcases List.mem_append.mp hl with hl | hl
  · exact single l hl
  · split at hl
    · rw [List.mem_singleton.mp hl]
      exact List.not_mem_nil
    · cases hl

theorem scanLines_logText {ls : List Bytes} (filled : ∀ l ∈ ls, l ≠ [] ∧ 0x0A ∉ l ∧ 0x0D ∉ l) :
    scanLines (logText ended ls) = ls.takeWhile (·.length < 1024 * 1024) := by
  have stripped : ∀ l ∈ ls.takeWhile (·.length < 1024 * 1024), (if l.getLast? = some 0x0D then l.dropLast
      else l) = l := by
    intro l hl
    exact if_neg fun last => (filled l (List.takeWhile_subset _ hl)).2.2 (List.mem_of_getLast? last)
  have read : (if (splitLines (logText ended ls)).getLast? = some [] then (splitLines (logText ended ls)).dropLast
      else splitLines (logText ended ls)) = ls := by
    rcases eq_or_ne ls [] with rfl | some_
    · cases ended <;> rfl
    · rw [splitLines_logText some_ fun l hl => (filled l hl).2.1]
      cases ended with
      | true => simp
      | false =>
        have last : ls.getLast? ≠ some [] := fun last => (filled [] (List.mem_of_getLast? last)).1 rfl
        simp [last]
  unfold scanLines
  dsimp only
  rw [read]
  exact (List.map_congr_left stripped).trans (List.map_id _)

theorem scanJournalctl_eq {args : List String}
    (fed : h.start ("journalctl" :: "-r" :: args) = .ok (logText ended (lines entries).reverse)) :
    scanJournalctlWithKeyword h args keyword k =
      (joinLines (((scanned entries).filter (hasKeyword h keyword)).rtake k), none) := by
  have kept : scanLines (logText ended (lines entries).reverse) = (scanned entries).reverse := by
    rw [scanLines_logText fun l hl => lines_filled (List.mem_reverse.mp hl), scanned, List.rtakeWhile,
      List.reverse_reverse]
  rw [scanJournalctlWithKeyword, fed]
  dsimp only
  rw [kept, List.filter_reverse, ← List.rtake_eq_reverse_take_reverse]

theorem matching_eq : matching h keyword entries =
    ((lines entries).rdropWhile (·.length < 1024 * 1024)).filter (hasKeyword h keyword) ++
    (scanned entries).filter (hasKeyword h keyword) := by
  rw [← List.filter_append, scanned, List.rdropWhile_append_rtakeWhile, matching]

theorem rtake_append_iff {α : Type} {older newer : List α} :
    newer.rtake k = (older ++ newer).rtake k ↔ (older ++ newer).length ≤ newer.length ∨ k ≤ newer.length := by
  rw [List.length_append]
  constructor
  · intro same
    have lengths := congrArg List.length same
    simp only [List.rtake, List.length_drop, List.length_append] at lengths
    omega
  · rintro (none_ | enough)
    · rw [List.eq_nil_of_length_eq_zero (by omega : older.length = 0), List.nil_append]
    · rw [List.rtake, List.rtake, List.length_append, Nat.add_sub_assoc enough, List.drop_length_add_append]

/-- The scanner prints the newest lines when it reaches enough of them. -/
theorem scan_newest_iff {args : List String}
    (fed : h.start ("journalctl" :: "-r" :: args) = .ok (logText ended (lines entries).reverse)) :
    scanJournalctlWithKeyword h args keyword k = (joinLines (newest h keyword entries k), none) ↔
      (matching h keyword entries).length ≤ ((scanned entries).filter (hasKeyword h keyword)).length ∨
        k ≤ ((scanned entries).filter (hasKeyword h keyword)).length := by
  have part : ∀ l ∈ ((scanned entries).filter (hasKeyword h keyword)).rtake k, 0x0A ∉ l := by
    intro l hl
    have member := List.mem_of_mem_drop hl
    exact (matching_filled (matching_eq ▸ List.mem_append_right _ member : l ∈ matching h keyword entries)).2
  have blank : ((scanned entries).filter (hasKeyword h keyword)).rtake k ≠ [[]] := by
    intro blank
    have member := List.mem_of_mem_drop (blank ▸ List.mem_singleton_self [] : [] ∈ List.rtake _ k)
    exact (matching_filled (matching_eq ▸ List.mem_append_right _ member : [] ∈ matching h keyword entries)).1 rfl
  rw [scanJournalctl_eq fed, Prod.mk.injEq, and_iff_left rfl, joinLines_inj part fun l => newest_filled,
    or_iff_left fun h => blank h.1,
    newest, matching_eq]
  exact rtake_append_iff

/-! ### What is filtered -/

/-- The line that is read after a text that is ended. -/
def blankLine (h : Surroundings) (ended : Bool) (keyword : String) : List Bytes :=
  if ended && hasKeyword h keyword [] then [[]] else []

theorem filterLines_eq (k : Nat) : filterLinesByKeyword h (logText ended (lines entries)) keyword k =
    joinLines ((matching h keyword entries ++ blankLine h ended keyword).take k) := by
  rcases eq_or_ne (lines entries) [] with none_ | some_
  · have read : filterLinesByKeyword h (logText ended (lines entries)) keyword k =
        joinLines (([[]].filter (hasKeyword h keyword)).take k) := by
      rw [none_]
      cases ended <;> rfl
    have short (all : List Bytes) (blank : all = [] ∨ all = [[]]) : joinLines (all.take k) = [] := by
      rcases blank with rfl | rfl
      · rw [List.take_nil]
        rfl
      · cases k with
        | zero => rfl
        | succ k =>
          rw [List.take_succ_cons, List.take_nil]
          rfl
    have nothing : matching h keyword entries = [] := by
      rw [matching, none_]
      rfl
    rw [read, nothing, List.nil_append, short, short]
    · unfold blankLine
      split
      · exact Or.inr rfl
      · exact Or.inl rfl
    · rw [List.filter_singleton]
      cases hasKeyword h keyword [] <;> simp
  · have read : (splitLines (logText ended (lines entries))).filter (hasKeyword h keyword) =
        matching h keyword entries ++ blankLine h ended keyword := by
      rw [splitLines_logText some_ fun l hl => (lines_filled hl).2.1, List.filter_append, matching, blankLine]
      cases ended with
      | true => cases blank : hasKeyword h keyword [] <;> simp [blank]
      | false => simp
    rw [filterLinesByKeyword, read]

theorem take_eq_rtake_iff {α : Type} {m : List α} : m.take k = m.rtake k ↔ ∀ i < k, m[i]? = m[i + (m.length - k)]? := by
  have beyond {i : Nat} (hi : k ≤ i) : m[i + (m.length - k)]? = none := List.getElem?_eq_none (by omega)
  rw [List.ext_getElem?_iff]
  refine forall_congr' fun i => ?_
  rw [List.getElem?_take, List.rtake, List.getElem?_drop, Nat.add_comm]
  split
  · rename_i hi
    exact ⟨fun same _ => same, fun same => same hi⟩
  · rename_i hi
    rw [beyond (Nat.not_lt.mp hi)]
    exact ⟨fun _ h => absurd h hi, fun _ => rfl⟩

/-- The other filter prints them when the oldest are the newest. -/
theorem filter_newest_iff : filterLinesByKeyword h (logText ended (lines entries)) keyword k =
    joinLines (newest h keyword entries k) ↔
    (∀ i < k, (matching h keyword entries)[i]? =
      (matching h keyword entries)[i + ((matching h keyword entries).length - k)]?) ∧
      (ended = true → hasKeyword h keyword [] = true → matching h keyword entries = [] ∨
        k ≤ (matching h keyword entries).length) := by
  have part : ∀ l ∈ (matching h keyword entries ++ blankLine h ended keyword).take k, 0x0A ∉ l := by
    intro l hl
    rcases List.mem_append.mp (List.take_subset _ _ hl) with hl | hl
    · exact (matching_filled hl).2
    · unfold blankLine at hl
      split at hl
      · rw [List.mem_singleton.mp hl]
        exact List.not_mem_nil
      · cases hl
  rw [filterLines_eq, joinLines_inj part fun l => newest_filled]
  rcases Nat.lt_or_ge (matching h keyword entries).length k with few | enough
  · have whole : newest h keyword entries k = matching h keyword entries := by
      rw [newest, List.rtake, Nat.sub_eq_zero_of_le few.le, List.drop_zero]
    have repeats : ∀ i < k, (matching h keyword entries)[i]? =
        (matching h keyword entries)[i + ((matching h keyword entries).length - k)]? := by
      intro i _
      rw [Nat.sub_eq_zero_of_le few.le, Nat.add_zero]
    rw [whole, and_iff_right repeats, or_iff_left (Nat.not_le.mpr few), blankLine]
    by_cases blank : (ended && hasKeyword h keyword []) = true
    · have single : (matching h keyword entries ++ [[]]).take k = matching h keyword entries ++ [[]] :=
        List.take_of_length_le (by simp only [List.length_append, List.length_singleton]; omega)
      rw [if_pos blank, single]
      rw [Bool.and_eq_true] at blank
      constructor
      · rintro (longer | ⟨-, none_⟩) _ _
        · exact absurd longer (by simp)
        · exact none_
      · intro none_
        have none_ := none_ blank.1 blank.2
        exact Or.inr ⟨by rw [none_]; rfl, none_⟩
    · rw [if_neg blank, List.append_nil, List.take_of_length_le few.le]
      rw [Bool.and_eq_true] at blank
      exact ⟨fun _ ended' blank' => absurd ⟨ended', blank'⟩ blank, fun _ => Or.inl rfl⟩
  · have notBlank : (matching h keyword entries).take k ≠ [[]] := fun blank =>
      (matching_filled (List.take_subset _ _ (blank ▸ List.mem_singleton_self []))).1 rfl
    rw [List.take_append_of_le_length enough, or_iff_left fun h => notBlank h.1, newest, take_eq_rtake_iff]
    exact ⟨fun same => ⟨same, fun _ _ => Or.inr enough⟩, fun h => h.1⟩

end

/-- Both filters print the newest lines with the keyword, at most `k`, exactly where `Agree` holds. -/
theorem newest_printed_iff (h : Surroundings) (entries : List Entry) (keyword : String) (k : Nat) (_ : 0 < k)
    (ended : Bool)
    (args : List String) (fed : h.start ("journalctl" :: "-r" :: args) = .ok (logText ended (lines entries).reverse)) :
    (scanJournalctlWithKeyword h args keyword k = (joinLines (newest h keyword entries k), none) ∧
        filterLinesByKeyword h (logText ended (lines entries)) keyword k = joinLines (newest h keyword entries k)) ↔
      Agree h keyword entries ended k := by
  rw [scan_newest_iff fed, filter_newest_iff]
  exact ⟨fun ⟨held, same, blank⟩ => ⟨same, held, blank⟩, fun agree => ⟨agree.held, agree.same, agree.blank⟩⟩

/-- Where journalctl prints a journal. -/
def journalHost (entries : List Entry) : Surroundings where
  goos := "linux"
  run := fun _ => ([], none)
  start := fun _ => .ok (logText true (lines entries).reverse)
  isFile := fun _ => false
  inspect := fun _ => []
  control := fun _ _ => ([], none)
  prepareUpdate := none
  prepareUninstall := none
  deadlineExceeded := false
  lower := id
  quote := id
  sprint := fun _ => ""
  beyondInt64 := fun _ => -2 ^ 63

/-- An entry with the keyword. -/
def up : Entry := ⟨asciiBytes "up", by decide, by decide⟩

/-- One without it. -/
def down : Entry := ⟨asciiBytes "down", by decide, by decide⟩

/-- Another one with it. -/
def upAgain : Entry := ⟨asciiBytes "up again", by decide, by decide⟩

/-- Two of three entries have the keyword, and two are asked for. -/
theorem newest_printed_up :
    scanJournalctlWithKeyword (journalHost [up, down, upAgain]) [] "up" 2 =
        (joinLines (newest (journalHost [up, down, upAgain]) "up" [up, down, upAgain] 2), none) ∧
      filterLinesByKeyword (journalHost [up, down, upAgain]) (logText true (lines [up, down, upAgain])) "up" 2 =
        joinLines (newest (journalHost [up, down, upAgain]) "up" [up, down, upAgain] 2) :=
  (newest_printed_iff (journalHost [up, down, upAgain]) [up, down, upAgain] "up" 2 (by decide) true [] rfl).mpr
    ⟨by decide, by decide, by decide⟩

/-- Of the two lines with the keyword the filter for files prints the older one. -/
theorem oldest_printed : filterLinesByKeyword (journalHost [up, upAgain]) (logText true (lines [up, upAgain])) "up" 1 =
    asciiBytes "up" ∧
    scanJournalctlWithKeyword (journalHost [up, upAgain]) [] "up" 1 = (asciiBytes "up again", none) ∧
    joinLines (newest (journalHost [up, upAgain]) "up" [up, upAgain] 1) = asciiBytes "up again" := by
  decide

end KeywordFilters
end DatrixOps
