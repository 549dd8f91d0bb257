import DatrixOps.Collector.Crontab

/-! The lines of a crontab that parseCronFile (snapshot.go) lists. A setting is looked for in the text before
    the first space, so one with a space before its sign is taken for a job when it has words enough, and a
    job with a sign there, which takes tabs, for a setting. Every other line is read as it is meant. -/

namespace DatrixOps
namespace CronLines
open Golang Cron Crontab

/-! ### Texts -/

variable {s t : List Char} {c : Char}

theorem rdropWhile_append_cons {p : Char → Bool} (h : p c = false) :
    (s ++ c :: t).rdropWhile p = s ++ c :: t.rdropWhile p := by
  have stays : (c :: s.reverse).dropWhile p = c :: s.reverse := List.dropWhile_cons_of_neg (by simp [h])
  simp only [List.rdropWhile, List.reverse_append, List.reverse_cons, List.append_assoc, List.singleton_append,
    List.dropWhile_append, stays]
  split
  · rename_i empty
    rw [List.isEmpty_iff.mp empty]
    simp
  · simp

/-- White space around a text that starts with another character. -/
theorem trimSpace_white {white : List Char} (h : ∀ d ∈ white, isSpace d = true) (hc : isSpace c = false) :
    trimSpace (white ++ c :: t) = c :: t.rdropWhile isSpace := by
  rw [trimSpace_eq, List.dropWhile_append_of_pos h, List.dropWhile_cons_of_neg (by simp [hc])]
  exact rdropWhile_append_cons (s := []) hc

theorem trimSpace_eq_nil (h : ∀ d ∈ s, isSpace d = true) : trimSpace s = [] := by
  have left : (s ++ []).dropWhile isSpace = [].dropWhile isSpace := List.dropWhile_append_of_pos h
  rw [List.append_nil, List.dropWhile_nil] at left
  rw [trimSpace_eq, left]
  rfl

theorem isSpace_of_blank {d : Char} (h : d = ' ' ∨ d = '\t') : isSpace d = true := by
  rcases h with rfl | rfl <;> decide

theorem fieldsFrom_white {word white : List Char} (h : ∀ d ∈ white, isSpace d = true) :
    fieldsFrom word white = fieldsFrom word [] := by
  induction white generalizing word with
  | nil => rfl
  | cons d white ih =>
    have rest := fun word => @ih word fun e he => h e (List.mem_cons_of_mem d he)
    have stop : fieldsFrom word (d :: white) = if word = [] then fieldsFrom [] white
        else word :: fieldsFrom [] white := by
      rw [fieldsFrom, if_pos (h d List.mem_cons_self)]
    rw [stop, rest]
    rfl

theorem fieldsFrom_append_white {word white : List Char} (h : ∀ d ∈ white, isSpace d = true) :
    fieldsFrom word (s ++ white) = fieldsFrom word s := by
  induction s generalizing word with
  | nil => exact fieldsFrom_white h
  | cons d s ih =>
    rw [List.cons_append, fieldsFrom, fieldsFrom]
    split
    · rw [ih]
    · exact ih

theorem exists_trimSpace (s : List Char) : ∃ before after, s = before ++ (trimSpace s ++ after) ∧
    (∀ d ∈ before, isSpace d = true) ∧
    ∀ d ∈ after, isSpace d = true := by
  refine ⟨s.takeWhile isSpace, ((s.dropWhile isSpace).reverse.takeWhile isSpace).reverse, ?_, fun d hd => ?_,
    fun d hd => ?_⟩
  · rw [trimSpace, ← List.reverse_append, List.takeWhile_append_dropWhile, List.reverse_reverse,
      List.takeWhile_append_dropWhile]
  · exact List.mem_takeWhile_imp hd
  · exact List.mem_takeWhile_imp (List.mem_reverse.mp hd)

/-- Trimming leaves the words. -/
theorem fields_trimSpace (s : List Char) : fields (trimSpace s) = fields s := by
  obtain ⟨before, after, split, first, last⟩ := exists_trimSpace s
  conv_rhs => rw [split]
  rw [fields_append_of_white first]
  exact (fieldsFrom_append_white last).symm

theorem fieldsFrom_cons {word : List Char} (some_ : word ≠ []) :
    ∃ more rest, fieldsFrom word t = (word ++ more) :: rest := by
  induction t generalizing word with
  | nil => exact ⟨[], [], by rw [fieldsFrom, if_neg some_, List.append_nil]⟩
  | cons d t ih =>
    by_cases white : isSpace d = true
    · exact ⟨[], fieldsFrom [] t, by rw [fieldsFrom, if_pos white, if_neg some_, List.append_nil]⟩
    · obtain ⟨more, rest, h⟩ := @ih (word ++ [d]) (by simp)
      exact ⟨d :: more, rest, by rw [fieldsFrom, if_neg white, h, List.append_assoc]; rfl⟩

/-- A text that starts with another character than white space starts with a word. -/
theorem fields_cons (hc : isSpace c = false) : ∃ more rest, fields (c :: t) = (c :: more) :: rest := by
  obtain ⟨more, rest, h⟩ := fieldsFrom_cons (t := t) (List.cons_ne_nil c [])
  exact ⟨more, rest, by rw [fields, fieldsFrom, if_neg (by simp [hc]), List.nil_append, h]; rfl⟩

theorem intercalate_cons_cons {sep w w' : List Char} {words : List (List Char)} :
    sep.intercalate (w :: w' :: words) = w ++ (sep ++ sep.intercalate (w' :: words)) := by
  simp [List.intercalate]

theorem mem_joinWords {d : Char} (other : d ≠ ' ') :
    ∀ {words : List (List Char)}, d ∈ joinWords words ↔ ∃ w ∈ words, d ∈ w
  | [] => by simp [joinWords, List.intercalate]
  | [w] => by simp [joinWords, List.intercalate]
  | w :: w' :: words => by
    have rest : d ∈ joinWords (w' :: words) ↔ ∃ u ∈ w' :: words, d ∈ u := mem_joinWords other
    rw [joinWords] at rest ⊢
    rw [intercalate_cons_cons, List.mem_append, List.mem_append, rest, List.mem_singleton, or_iff_right other]
    simp

theorem not_isSpace_of_isAlphanum {d : Char} (h : d.isAlphanum = true) : isSpace d = false := by
  simp only [Char.isAlphanum, Bool.or_eq_true] at h
  rcases h with letter | digit
  · delta Char.isAlpha Char.isUpper Char.isLower at letter
    simp only [Bool.or_eq_true, Bool.and_eq_true, decide_eq_true_eq, ge_iff_le, UInt32.le_iff_toNat_le] at letter
    change (65 ≤ d.toNat ∧ d.toNat ≤ 90) ∨ (97 ≤ d.toNat ∧ d.toNat ≤ 122) at letter
    simp only [isSpace, List.mem_cons, List.not_mem_nil, or_false, Bool.or_eq_false_iff, decide_eq_false_iff_not,
      Bool.and_eq_false_iff]
    omega
  · exact not_isSpace_of_isDigit digit

/-! ### What a line is taken for -/

section
variable {hexDigest : List Char → List Char} {source owner : List Char} {system : Bool} {now : Int}

theorem Blanks.white {text : List Char} (h : Blanks text) : ∀ d ∈ text, isSpace d = true :=
  fun d hd => isSpace_of_blank (h d hd)

/-- A line that starts with another character than `#`, by its words. -/
theorem parseCronLine_eq {before : List Char} (indent : Blanks before) (hc : isSpace c = false) (other : c ≠ '#')
    (setting : '=' ∉ (trimSpace (before ++ c :: t)).takeWhile (· ≠ ' ')) :
    (parseCronLine hexDigest source owner system now (before ++ c :: t)).map (fun j => (j.schedule, j.owner)) =
      let words := fields (before ++ c :: t)
      let scheduleFields := if c = '@' then 1 else 5
      if words.length ≤ (if system then scheduleFields + 1 else scheduleFields) then none
      else some (joinWords (words.take scheduleFields), if system then words.getD scheduleFields owner else owner) := by
  have line := trimSpace_white (t := t) (Blanks.white indent) hc
  have nickname : ['@'] <+: trimSpace (before ++ c :: t) ↔ c = '@' := by
    rw [line, List.cons_prefix_cons]
    exact ⟨fun h => h.1.symm, fun h => ⟨h.symm, List.nil_prefix⟩⟩
  have comment : ¬['#'] <+: trimSpace (before ++ c :: t) := by
    rw [line, List.cons_prefix_cons]
    exact fun h => other h.1.symm
  have some_ : trimSpace (before ++ c :: t) ≠ [] := by
    rw [line]
    exact List.cons_ne_nil _ _
  unfold parseCronLine
  simp only [fields_trimSpace, nickname]
  rw [if_neg (by simp only [not_or]; exact ⟨some_, comment, setting⟩)]
  generalize (if c = '@' then 1 else 5) = scheduleFields
  by_cases few : (fields (before ++ c :: t)).length ≤ if system = true then scheduleFields + 1 else scheduleFields
  · rw [if_pos few]
    split
    · rfl
    · rfl
  · have enough : ¬(fields (before ++ c :: t)).length < scheduleFields := by
      split at few <;> omega
    simp only [if_neg few, if_neg enough, Option.map_some]

/-- A line in which a setting is found. -/
theorem parseCronLine_setting {rawLine : List Char} (setting : '=' ∈ (trimSpace rawLine).takeWhile (· ≠ ' ')) :
    parseCronLine hexDigest source owner system now rawLine = none := if_pos (Or.inr (Or.inr setting))

theorem parseCronLine_blank {text : List Char} (h : Blanks text) :
    parseCronLine hexDigest source owner system now text = none :=
  if_pos (Or.inl (trimSpace_eq_nil (Blanks.white h)))

theorem parseCronLine_comment {before : List Char} (h : Blanks before) :
    parseCronLine hexDigest source owner system now (before ++ '#' :: t) = none := by
  refine if_pos (Or.inr (Or.inl ?_))
  rw [trimSpace_white (Blanks.white h) (by decide), List.cons_prefix_cons]
  exact ⟨rfl, List.nil_prefix⟩

end

/-! ### Settings -/

section
variable {indent name gap value : List Char}

theorem not_space_of_word (h : Word name) : ∀ d ∈ name, d ≠ ' ' := by
  rintro d hd rfl
  have white := h.2 ' ' hd
  cases white

/-- The sign of a setting comes before the first space exactly where no space separates it from the name. -/
theorem sign_mem_iff (value : List Char) (indented : Blanks indent) (named : Word name ∧ '=' ∉ name)
    (spaced : Blanks gap) :
    '=' ∈ (trimSpace (indent ++ (name ++ gap ++ '=' :: value))).takeWhile (· ≠ ' ') ↔ ' ' ∉ gap := by
  obtain ⟨c, rest, rfl⟩ := List.exists_cons_of_ne_nil named.1.1
  have line : trimSpace (indent ++ (c :: rest ++ gap ++ '=' :: value)) =
      c :: rest ++ (gap ++ '=' :: value.rdropWhile isSpace) := by
    rw [List.append_assoc, List.cons_append, trimSpace_white (Blanks.white indented) (named.1.2 c List.mem_cons_self),
      ← List.append_assoc,
      rdropWhile_append_cons (by decide)]
    simp
  have through : ∀ d ∈ c :: rest, decide (d ≠ ' ') = true := fun d hd => decide_eq_true (not_space_of_word named.1 d hd)
  rw [line, List.takeWhile_append_of_pos through, List.mem_append, or_iff_right named.2]
  have noSign : '=' ∉ gap := fun h => by
    rcases spaced _ h with h | h <;> cases h
  constructor
  · intro sign space
    obtain ⟨a, b, rfl, ha⟩ := List.eq_append_cons_of_mem space
    have tabs : ∀ d ∈ a, decide (d ≠ ' ') = true := fun d hd => decide_eq_true fun same => ha (same ▸ hd)
    rw [List.append_assoc, List.takeWhile_append_of_pos tabs, List.mem_append] at sign
    rcases sign with sign | sign
    · exact noSign (List.mem_append_left _ sign)
    · cases sign
  · intro space
    have tabs : ∀ d ∈ gap, decide (d ≠ ' ') = true := fun d hd => decide_eq_true fun same => space (same ▸ hd)
    rw [List.takeWhile_append_of_pos tabs]
    exact List.mem_append_right _ (by simp)

/-- The words of a setting whose sign is apart from its name. -/
theorem setting_words (value : List Char) (indented : Blanks indent) (named : Word name ∧ '=' ∉ name)
    (spaced : Blanks gap) (space : ' ' ∈ gap) :
    ∃ more rest, fields (indent ++ (name ++ gap ++ '=' :: value)) = name :: ('=' :: more) :: rest := by
  obtain ⟨g, gs, rfl⟩ := List.exists_cons_of_ne_nil (List.ne_nil_of_mem space)
  obtain ⟨more, rest, sign⟩ := fields_cons (t := value) (show isSpace '=' = false by decide)
  refine ⟨more, rest, ?_⟩
  have white : ∀ d ∈ gs, isSpace d = true := fun d hd => Blanks.white spaced d (List.mem_cons_of_mem g hd)
  have text : indent ++ (name ++ g :: gs ++ '=' :: value) = indent ++ (name ++ g :: (gs ++ '=' :: value)) := by simp
  rw [text, fields_append_of_white (Blanks.white indented),
    fields_word named.1.1 named.1.2 (Blanks.white spaced g List.mem_cons_self),
    fields_append_of_white white, sign]

end

/-! ### Jobs -/

section
variable {system : Bool}

theorem word_of_timeField {text : List Char} (h : TimeField text) : Word text := by
  refine ⟨h.1, fun c hc => ?_⟩
  rcases h.2 c hc with letter | sign
  · exact not_isSpace_of_isAlphanum letter
  · simp only [List.mem_cons, List.not_mem_nil, or_false] at sign
    rcases sign with rfl | rfl | rfl | rfl <;> decide

theorem word_of_nickname {text : List Char} (h : Nickname text) : Word text := by
  obtain ⟨name, rfl, letters⟩ := h
  refine ⟨List.cons_ne_nil _ _, fun c hc => ?_⟩
  rcases List.mem_cons.mp hc with rfl | hc
  · decide
  · exact not_isSpace_of_isAlphanum (letters c hc)

theorem no_sign {text : List Char} (h : TimeField text ∨ Nickname text) : Word text ∧ '=' ∉ text := by
  rcases h with field | nickname
  · refine ⟨word_of_timeField field, fun sign => ?_⟩
    rcases field.2 _ sign with letter | sign
    · exact absurd letter (by decide)
    · exact absurd sign (by decide)
  · refine ⟨word_of_nickname nickname, ?_⟩
    obtain ⟨name, rfl, letters⟩ := nickname
    intro sign
    rcases List.mem_cons.mp sign with same | sign
    · cases same
    · exact absurd (letters _ sign) (by decide)

theorem times_shape (j : JobLine system) : ∀ s ∈ j.times, TimeField s.word ∨ Nickname s.word := by
  intro s hs
  rcases j.schedule with ⟨-, fields⟩ | ⟨s', times, nickname⟩
  · exact Or.inl (fields s hs)
  · rw [times] at hs
    obtain rfl := List.mem_singleton.mp hs
    exact Or.inr nickname

theorem words_word (j : JobLine system) : ∀ s ∈ j.words, Word s.word := by
  intro s hs
  rcases List.mem_append.mp hs with time | user
  · exact (no_sign (times_shape j s time)).1
  · exact (j.userWord s (Option.mem_toList.mp user)).1

theorem fields_spaced {words : List Spaced} (h : ∀ s ∈ words, Word s.word) (rest : List Char) :
    fields (words.flatMap Spaced.text ++ rest) = words.map (·.word) ++ fields rest := by
  induction words with
  | nil => rfl
  | cons s words ih =>
    obtain ⟨g, gs, hg⟩ := List.exists_cons_of_ne_nil s.some_
    have white : ∀ d ∈ s.gap, isSpace d = true := Blanks.white s.blanks
    rw [hg] at white
    have text : (s :: words).flatMap Spaced.text ++ rest =
        s.word ++ g :: (gs ++ (words.flatMap Spaced.text ++ rest)) := by
      simp [Spaced.text, hg]
    have own := h s List.mem_cons_self
    rw [text, fields_word own.1 own.2 (white g List.mem_cons_self),
      fields_append_of_white fun d hd => white d (List.mem_cons_of_mem g hd),
      ih fun s hs => h s (List.mem_cons_of_mem _ hs)]
    rfl

theorem fields_job (j : JobLine system) :
    ∃ w rest, fields j.text = j.times.map (·.word) ++ (j.user.toList.map (·.word) ++ w :: rest) := by
  obtain ⟨c, command, hcommand, letter, -⟩ := j.start
  obtain ⟨more, rest, first⟩ := fields_cons (t := command) letter
  refine ⟨c :: more, rest, ?_⟩
  rw [JobLine.text, fields_append_of_white (Blanks.white j.indented), fields_spaced (words_word j), hcommand, first,
    JobLine.words,
    List.map_append, List.append_assoc]

/-- A job line starts with its schedule. -/
theorem job_start (j : JobLine system) : ∃ s times c cs rest, j.times = s :: times ∧ s.word = c :: cs ∧
    j.text = j.indent ++ c :: rest ∧
    isSpace c = false ∧ c ≠ '#' ∧ (if c = '@' then 1 else 5) = j.times.length := by
  have start : ∃ s times c cs, j.times = s :: times ∧ s.word = c :: cs ∧ c ≠ '#' ∧
      (if c = '@' then 1 else 5) = j.times.length := by
    rcases j.schedule with ⟨five, fields⟩ | ⟨s, times, name, word, -⟩
    · obtain ⟨s, times, htimes⟩ :=
        List.exists_cons_of_ne_nil (List.ne_nil_of_length_pos (by omega : 0 < j.times.length))
      have field := fields s (htimes ▸ List.mem_cons_self)
      obtain ⟨c, cs, hword⟩ := List.exists_cons_of_ne_nil field.1
      have other (d : Char) (sign : d.isAlphanum = false) (none_ : d ∉ ['*', '/', ',', '-']) : c ≠ d := by
        rintro rfl
        rcases field.2 c (hword ▸ List.mem_cons_self) with letter | listed
        · rw [sign] at letter
          cases letter
        · exact none_ listed
      exact ⟨s, times, c, cs, htimes, hword, other '#' (by decide) (by decide), by
        rw [if_neg (other '@' (by decide) (by decide)), five]⟩
    · exact ⟨s, [], '@', name, times, word, by decide, by rw [times]; rfl⟩
  obtain ⟨s, times, c, cs, htimes, hword, hash, count⟩ := start
  have letter := (words_word j s (List.mem_append_left _ (htimes ▸ List.mem_cons_self))).2 c
    (hword ▸ List.mem_cons_self)
  refine ⟨s, times, c, cs, cs ++ (s.gap ++ ((times ++ j.user.toList).flatMap Spaced.text ++ j.command)), htimes, hword,
    ?_, letter, hash,
    count⟩
  simp [JobLine.text, JobLine.words, htimes, Spaced.text, hword]

/-- A job in which no setting is found is listed as it is meant. -/
theorem job_listed {hexDigest : List Char → List Char} {source owner : List Char} {now : Int} (j : JobLine system)
    (notFound : '=' ∉ (trimSpace j.text).takeWhile (· ≠ ' ')) :
    (parseCronLine hexDigest source owner system now j.text).map (fun j => (j.schedule, j.owner)) =
    (Line.job j).listing owner := by
  obtain ⟨s, times, c, cs, rest, htimes, hword, htext, letter, hash, count⟩ := job_start j
  obtain ⟨w, more, words⟩ := fields_job j
  rw [htext] at notFound words ⊢
  rw [parseCronLine_eq j.indented letter hash notFound]
  simp only [words, count, Line.listing]
  have counted : (j.times.map (·.word)).length = j.times.length := List.length_map _
  have runsAs := j.runsAs
  cases hu : j.user with
  | none =>
    rw [hu] at runsAs
    obtain rfl : system = false := runsAs.symm
    rw [if_neg (by simp), List.take_left' counted]
    rfl
  | some u =>
    rw [hu] at runsAs
    obtain rfl : system = true := runsAs.symm
    rw [if_neg (by simp), List.take_left' counted, List.getD_eq_getElem?_getD, List.getElem?_append_right counted.le,
      counted, Nat.sub_self]
    rfl

/-! ### Whole crontabs -/

/-- The line is taken for something else: a setting with a space before its sign and enough words, or a job
    with a sign before its first space. -/
def Misread : Line system → Prop
  | .setting indent name gap value _ _ _ _ _ =>
    ' ' ∈ gap ∧ (if system then 6 else 5) < (fields (indent ++ (name ++ gap ++ '=' :: value))).length
  | .job j => '=' ∈ (trimSpace j.text).takeWhile (· ≠ ' ')
  | _ => False

variable {hexDigest : List Char → List Char} {source owner : List Char} {now : Int}

/-- What a misread line is listed as. -/
inductive Differs : Option (List Char × List Char) → Option (List Char × List Char) → Prop
  | dropped (listing) : Differs none (some listing)
  | added (schedule by_) (sign : '=' ∈ schedule) : Differs (some (schedule, by_)) none

theorem line_listed (hexDigest : List Char → List Char) (source owner : List Char) (now : Int) (l : Line system) :
    (¬Misread l ∧ (parseCronLine hexDigest source owner system now l.text).map (fun j => (j.schedule, j.owner)) =
      l.listing owner) ∨
    (Misread l ∧ Differs ((parseCronLine hexDigest source owner system now l.text).map fun j => (j.schedule, j.owner))
      (l.listing owner)) := by
  cases l with
  | blank text blanks => exact Or.inl ⟨id, by rw [Line.text, parseCronLine_blank blanks]; rfl⟩
  | comment indent text indented ends => exact Or.inl ⟨id, by rw [Line.text, parseCronLine_comment indented]; rfl⟩
  | job j =>
    by_cases found : '=' ∈ (trimSpace j.text).takeWhile (· ≠ ' ')
    · refine Or.inr ⟨found, ?_⟩
      rw [Line.text, parseCronLine_setting found]
      exact .dropped _
    · exact Or.inl ⟨found, job_listed j found⟩
  | setting indent name gap value indented named first spaced ends =>
    by_cases space : ' ' ∈ gap
    · have notFound := fun found => (sign_mem_iff value indented named spaced).mp found space
      obtain ⟨more, rest, words⟩ := setting_words value indented named spaced space
      obtain ⟨c, cs, rfl⟩ := List.exists_cons_of_ne_nil named.1.1
      have hash : c ≠ '#' := fun same => first.1 (by rw [same]; rfl)
      have at_ : c ≠ '@' := fun same => first.2 (by rw [same]; rfl)
      have line : (parseCronLine hexDigest source owner system now (indent ++ (c :: cs ++ gap ++ '=' :: value))).map
          (fun j => (j.schedule, j.owner)) = _ :=
        parseCronLine_eq (t := cs ++ gap ++ '=' :: value) indented (named.1.2 c List.mem_cons_self) hash notFound
      dsimp only at line
      rw [if_neg at_] at line
      by_cases few : (fields (indent ++ (c :: cs ++ gap ++ '=' :: value))).length ≤ if system then 6 else 5
      · refine Or.inl ⟨fun h => not_lt.mpr few h.2, ?_⟩
        exact line.trans (if_pos few)
      · refine Or.inr ⟨⟨space, not_le.mp few⟩, ?_⟩
        have added := line.trans (if_neg few)
        rw [Line.text, added]
        refine .added _ _ ((mem_joinWords (by decide)).mpr ⟨'=' :: more, ?_, List.mem_cons_self⟩)
        change '=' :: more ∈ (fields (indent ++ (c :: cs ++ gap ++ '=' :: value))).take 5
        rw [words]
        simp
    · have found := (sign_mem_iff value indented named spaced).mpr space
      refine Or.inl ⟨fun h => space h.1, ?_⟩
      rw [Line.text, parseCronLine_setting found]
      rfl

/-- A schedule holds no sign. -/
theorem listing_no_sign {l : Line system} {schedule by_ : List Char} (h : l.listing owner = some (schedule, by_)) :
    '=' ∉ schedule := by
  cases l with
  | job j =>
    obtain ⟨rfl, -⟩ := Prod.mk.inj (Option.some.inj h)
    rw [mem_joinWords (by decide)]
    rintro ⟨w, hw, sign⟩
    obtain ⟨s, hs, rfl⟩ := List.mem_map.mp hw
    exact (no_sign (times_shape j s hs)).2 sign
  | blank | comment | setting => cases h

theorem no_newline_of_blanks {text : List Char} (h : Blanks text) : '\n' ∉ text := fun newline => by
  rcases h _ newline with h | h <;> cases h

theorem no_newline_of_word {text : List Char} (h : Word text) : '\n' ∉ text := fun newline => by
  have white := h.2 _ newline
  cases white

theorem no_newline (l : Line system) : '\n' ∉ l.text := by
  cases l with
  | blank text blanks => exact no_newline_of_blanks blanks
  | comment indent text indented ends =>
    simp only [Line.text, List.mem_append, List.mem_cons, not_or]
    exact ⟨no_newline_of_blanks indented, by decide, ends⟩
  | setting indent name gap value indented named first spaced ends =>
    simp only [Line.text, List.mem_append, List.mem_cons, not_or]
    exact ⟨no_newline_of_blanks indented, ⟨no_newline_of_word named.1, no_newline_of_blanks spaced⟩, by decide, ends⟩
  | job j =>
    simp only [Line.text, JobLine.text, List.mem_append, List.mem_flatMap, not_or, not_exists, not_and]
    exact ⟨no_newline_of_blanks j.indented, fun s hs newline => (List.mem_append.mp newline).elim
      (no_newline_of_word (words_word j s hs)) (no_newline_of_blanks s.blanks), j.ends⟩

/-- The text of a crontab is split into its lines. -/
theorem split_content : ∀ {lines : List (Line system)}, lines ≠ [] → split '\n' (content lines) = lines.map Line.text
  | [l], _ => by
    rw [content, List.map_singleton, List.intercalate_singleton, split_of_not_mem (no_newline l)]
  | l :: l' :: lines, _ => by
    have rest := split_content (List.cons_ne_nil l' lines)
    rw [content, List.map_cons] at rest
    rw [content, List.map_cons, List.map_cons, intercalate_cons_cons, List.singleton_append,
      split_append_cons (no_newline l), rest]

/-- When a line is read says nothing about its schedule and its owner. -/
theorem parseCronLine_now (rawLine : List Char) (later : Int) :
    (parseCronLine hexDigest source owner system later rawLine).map (fun j => (j.schedule, j.owner)) =
      (parseCronLine hexDigest source owner system now rawLine).map fun j => (j.schedule, j.owner) := by
  unfold parseCronLine
  dsimp only
  split_ifs <;> rfl

theorem parseCronFile_lines (lines : List (Line system)) (clock : Nat → Int) (now : Int) :
    (parseCronFile hexDigest (content lines) source owner system clock).map (fun j => (j.schedule, j.owner)) =
      lines.filterMap fun l => (parseCronLine hexDigest source owner system now l.text).map fun j =>
        (j.schedule, j.owner) := by
  have listed : (parseCronFile hexDigest (content lines) source owner system clock).map (fun j =>
    (j.schedule, j.owner)) =
      (split '\n' (content lines)).filterMap fun rawLine =>
        (parseCronLine hexDigest source owner system now rawLine).map fun j => (j.schedule, j.owner) := by
    conv_rhs => rw [← List.zipIdx_map_fst 0 (split '\n' (content lines)), List.filterMap_map]
    rw [parseCronFile, List.map_filterMap]
    exact List.filterMap_congr fun line _ => parseCronLine_now line.1 (clock line.2)
  rw [listed]
  rcases lines with _ | ⟨l, lines⟩
  · rfl
  · rw [split_content (List.cons_ne_nil l lines), List.filterMap_map]
    rfl

end

/-! ### Two listings, one of which leaves lines out -/

section
variable {α β : Type*} {f g : α → Option β}

theorem filterMap_sublist : ∀ {lines : List α}, (∀ l ∈ lines, f l = g l ∨ f l = none) →
    (lines.filterMap f).Sublist (lines.filterMap g)
  | [], _ => List.Sublist.slnil
  | l :: lines, h => by
    have rest := filterMap_sublist fun l hl => h l (List.mem_cons_of_mem _ hl)
    rw [List.filterMap_cons, List.filterMap_cons]
    rcases h l List.mem_cons_self with own | none_
    · rw [own]
      cases g l with
      | none => exact rest
      | some b => exact rest.cons_cons b
    · rw [none_]
      cases g l with
      | none => exact rest
      | some b => exact rest.cons b

/-- They agree only when it leaves out none. -/
theorem eq_of_filterMap_eq : ∀ {lines : List α}, (∀ l ∈ lines, f l = g l ∨ f l = none) →
    lines.filterMap f = lines.filterMap g →
    ∀ l ∈ lines, f l = g l
  | [], _, _ => by simp
  | l :: lines, h, same => by
    have rest := fun l hl => h l (List.mem_cons_of_mem _ hl)
    have own : f l = g l := by
      rcases h l List.mem_cons_self with own | none_
      · exact own
      · cases hg : g l with
        | none => exact none_
        | some b =>
          have shorter := (filterMap_sublist rest).length_le
          rw [List.filterMap_cons_none none_, List.filterMap_cons_some hg] at same
          rw [same, List.length_cons] at shorter
          omega
    have both : lines.filterMap f = lines.filterMap g := by
      rw [List.filterMap_cons, List.filterMap_cons, own] at same
      cases hg : g l with
      | none => simpa [hg] using same
      | some b => simpa [hg] using same
    exact List.forall_mem_cons.mpr ⟨own, eq_of_filterMap_eq rest both⟩

end

/-- Exactly the crontabs without a misread line are listed as they are meant. -/
theorem listing_exact_iff {system : Bool} (hexDigest : List Char → List Char) (source owner : List Char)
    (clock : Nat → Int)
    (lines : List (Line system)) :
    (parseCronFile hexDigest (content lines) source owner system clock).map (fun j => (j.schedule, j.owner)) =
        lines.filterMap (Line.listing owner) ↔
      ∀ l ∈ lines, ¬Misread l := by
  rw [parseCronFile_lines lines clock 0]
  constructor
  · intro exact_ l hl misread
    -- a line that is listed though it has no job would bring a sign into the listing
    have left : ∀ l ∈ lines, (parseCronLine hexDigest source owner system 0 l.text).map (fun j =>
      (j.schedule, j.owner)) = l.listing owner ∨
        (parseCronLine hexDigest source owner system 0 l.text).map (fun j => (j.schedule, j.owner)) = none := by
      intro l hl
      rcases line_listed hexDigest source owner 0 l with ⟨-, same⟩ | ⟨-, differs⟩
      · exact Or.inl same
      · generalize hread : (parseCronLine hexDigest source owner system 0 l.text).map (fun j => (j.schedule, j.owner)) =
          read at differs ⊢
        generalize hmeant : l.listing owner = meant at differs ⊢
        rcases differs with ⟨listing⟩ | ⟨schedule, by_, sign⟩
        · exact Or.inr rfl
        · have member : (schedule, by_) ∈ lines.filterMap fun l =>
              (parseCronLine hexDigest source owner system 0 l.text).map fun j => (j.schedule, j.owner) :=
            List.mem_filterMap.mpr ⟨l, hl, hread⟩
          rw [exact_] at member
          obtain ⟨l', -, h⟩ := List.mem_filterMap.mp member
          exact absurd sign (listing_no_sign h)
    have same := eq_of_filterMap_eq left exact_ l hl
    rcases line_listed hexDigest source owner 0 l with ⟨clean, -⟩ | ⟨-, differs⟩
    · exact clean misread
    · rw [same] at differs
      generalize l.listing owner = meant at differs
      cases differs
  · intro clean
    refine List.filterMap_congr fun l hl => ?_
    rcases line_listed hexDigest source owner 0 l with ⟨-, same⟩ | ⟨misread, -⟩
    · exact same
    · exact absurd misread (clean l hl)

/-- The setting `FOO = a b c d` of a user's crontab is listed as a job. -/
theorem setting_listed :
    let lines : List (Line false) := [.setting [] "FOO".toList [' '] " a b c d".toList (by simp [Blanks])
      ⟨⟨by decide, by simp [isSpace]⟩, by decide⟩ ⟨by decide, by decide⟩ (by simp [Blanks]) (by decide)]
    (parseCronFile id (content lines) "user-crontab".toList "root".toList false fun _ => 0).map
        (fun j => (j.schedule, j.owner)) = [("FOO = a b c".toList, "root".toList)] ∧
      lines.filterMap (Line.listing "root".toList) = [] :=
  ⟨rfl, rfl⟩

end CronLines
end DatrixOps
