import DatrixOps.Collector.Cron

/-! The crontab(5) format as the cron daemon reads it, which is what the agent's listing is compared with. -/

namespace DatrixOps
namespace Crontab
open Golang

/-! ### When a job is due -/

/-- The numbers `first`, `first + step` and so on up to `last`. -/
structure Range where
  first : Int
  last : Int
  step : Int

def Range.Holds (r : Range) (v : Int) : Prop := r.first ≤ v ∧ v ≤ r.last ∧ r.step ∣ v - r.first

def number (text : List Char) : Option Int := (digits text).map Int.ofNat

/-- A star, a number, or a range of numbers. -/
def bounds (min max : Int) (text : List Char) : Option (Int × Int) :=
  if text = ['*'] then some (min, max)
  else
    match split '-' text with
    | [value] => (number value).map fun v => (v, v)
    | [first, last] => do some (← number first, ← number last)
    | _ => none

/-- The base of an element and its step. Only a star or a range takes one. -/
def stepped (text : List Char) : Option (List Char × Int) :=
  match split '/' text with
  | [base] => some (base, 1)
  | [base, step] => if base = ['*'] ∨ '-' ∈ base then (number step).map fun step => (base, step) else none
  | _ => none

/-- An element of a list. -/
def element (min max : Int) (text : List Char) : Option Range := do
  let (base, step) ← stepped text
  let (first, last) ← bounds min max base
  if 0 < step ∧ min ≤ first ∧ last ≤ max ∧ first ≤ last then some ⟨first, last, step⟩ else none

structure Field where
  ranges : List Range
  starred : Bool

def Field.Holds (f : Field) (v : Int) : Prop := ∃ r ∈ f.ranges, r.Holds v

def field (min max : Int) (text : List Char) : Option Field :=
  ((split ',' text).mapM (element min max)).map fun ranges => ⟨ranges, decide (text.head? = some '*')⟩

structure Entry where
  minute : Field
  hour : Field
  dayOfMonth : Field
  month : Field
  dayOfWeek : Field

def entry (schedule : List Char) : Option Entry :=
  match fields (Cron.expandMacro schedule) with
  | [minute, hour, dayOfMonth, month, dayOfWeek] => do
    some ⟨← field 0 59 minute, ← field 0 23 hour, ← field 1 31 dayOfMonth, ← field 1 12 month, ← field 0 7 dayOfWeek⟩
  | _ => none

namespace Entry

/-- Sunday is 0 or 7. -/
def OnWeekday (e : Entry) (day : Int) : Prop := e.dayOfWeek.Holds day ∨ day = 0 ∧ e.dayOfWeek.Holds 7

/-- If either day field starts with a star both must match, otherwise either may. -/
def OnDay (e : Entry) (c : Int) : Prop :=
  if e.dayOfMonth.starred || e.dayOfWeek.starred then e.dayOfMonth.Holds (dayAt c) ∧ e.OnWeekday (weekdayAt c)
  else e.dayOfMonth.Holds (dayAt c) ∨ e.OnWeekday (weekdayAt c)

/-- The entry is due at a minute of the clock on the wall. -/
def Due (e : Entry) (c : Int) : Prop :=
  e.month.Holds (monthAt c) ∧ e.OnDay c ∧ e.hour.Holds (hourAt c) ∧ e.minute.Holds (minuteAt c)

end Entry

/-- The instants at which the daemon of a host, whose clock is `offset` seconds ahead of UTC, starts the job. -/
def Starts (schedule : List Char) (offset : Int) : Set Int :=
  {i | ∃ e c, entry schedule = some e ∧ e.Due c ∧ i = (60 * c - offset) * 1000000000}

/-! ### Lines -/

def Blanks (text : List Char) : Prop := ∀ c ∈ text, c = ' ' ∨ c = '\t'

def Word (text : List Char) : Prop := text ≠ [] ∧ ∀ c ∈ text, isSpace c = false

/-- A word of numbers, names of months and days, and the signs of lists, ranges and steps. -/
def TimeField (text : List Char) : Prop := text ≠ [] ∧ ∀ c ∈ text, c.isAlphanum = true ∨ c ∈ ['*', '/', ',', '-']

/-- `@` and a name -/
def Nickname (text : List Char) : Prop := ∃ name, text = '@' :: name ∧ ∀ c ∈ name, c.isAlphanum = true

/-- A word and the blanks after it. -/
structure Spaced where
  word : List Char
  gap : List Char
  some_ : gap ≠ []
  blanks : Blanks gap

def Spaced.text (s : Spaced) : List Char := s.word ++ s.gap

/-- A line with a job: its schedule, in a system crontab the user it runs as, and the command. With a nickname a word
    after it that starts with `=` would make the line a setting. -/
structure JobLine (system : Bool) where
  indent : List Char
  times : List Spaced
  user : Option Spaced
  command : List Char
  indented : Blanks indent
  schedule : (times.length = 5 ∧ ∀ s ∈ times, TimeField s.word) ∨ ∃ s, times = [s] ∧ Nickname s.word
  runsAs : user.isSome = system
  userWord : ∀ s ∈ user, Word s.word ∧ s.word.head? ≠ some '='
  start : ∃ c rest, command = c :: rest ∧ isSpace c = false ∧ (user = none → times.length = 1 → c ≠ '=')
  ends : '\n' ∉ command

/-- A line of a crontab. The name of a setting is a word; one that started with `#` or `@` would be read otherwise. -/
inductive Line (system : Bool) where
  | blank (text : List Char) (blanks : Blanks text)
  | comment (indent text : List Char) (indented : Blanks indent) (ends : '\n' ∉ text)
  | setting (indent name gap value : List Char) (indented : Blanks indent) (named : Word name ∧ '=' ∉ name)
      (first : name.head? ≠ some '#' ∧ name.head? ≠ some '@') (spaced : Blanks gap) (ends : '\n' ∉ value)
  | job (j : JobLine system)

def JobLine.words {system : Bool} (j : JobLine system) : List Spaced := j.times ++ j.user.toList

def JobLine.text {system : Bool} (j : JobLine system) : List Char :=
  j.indent ++ (j.words.flatMap Spaced.text ++ j.command)

def Line.text {system : Bool} : Line system → List Char
  | .blank text _ => text
  | .comment indent text _ _ => indent ++ '#' :: text
  | .setting indent name gap value _ _ _ _ _ => indent ++ (name ++ gap ++ '=' :: value)
  | .job j => j.text

/-- The schedule and the owner of the line's job, if it has one. -/
def Line.listing {system : Bool} (defaultOwner : List Char) : Line system → Option (List Char × List Char)
  | .job j => some (Cron.joinWords (j.times.map (·.word)), (j.user.map (·.word)).getD defaultOwner)
  | _ => none

/-- The text of a crontab. A last newline is an empty line after it. -/
def content {system : Bool} (lines : List (Line system)) : List Char := ['\n'].intercalate (lines.map Line.text)

end Crontab
end DatrixOps
