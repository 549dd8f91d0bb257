import DatrixOps.Server.LogRead
import Mathlib.Data.List.DropRight

/-! Which lines of a log a log_read task returns. The agent takes over the source, the unit, the container and
    the number of lines of a payload, and neither its keyword nor its bound on the time. -/

namespace DatrixOps
open Posix Postgres Golang Host Release

/-! ### The newest of those that pass -/

section Newest
variable {α β : Type} {f : α → β} {keep known recent : α → Bool} {n : Nat} {l : List α}

theorem rtake_filter (all : ∀ x ∈ l.rtake n, keep x = true) : (l.filter keep).rtake n = l.rtake n := by
  induction l using List.reverseRecOn generalizing n with
  | nil => rfl
  | append_singleton l x ih =>
    cases n with
    | zero => simp
    | succ n =>
      rw [List.rtake_concat_succ] at all ⊢
      have last : keep x = true := all x (by simp)
      rw [List.filter_append, List.filter_singleton, last, cond_true, List.rtake_concat_succ,
        ih fun y hy => all y (List.mem_append_left _ hy)]

/-- What passes is told by what is shown of it, or it stays so for everything newer. -/
theorem forall_of_rtake_filter (shown : ∀ x y, f x = f y → known x = known y)
    (ordered : l.Pairwise fun x y => recent x → recent y)
    (same : ((l.filter fun x => known x && recent x).rtake n).map f = (l.rtake n).map f) :
    ∀ x ∈ l.rtake n, (known x && recent x) = true := by
  induction l using List.reverseRecOn generalizing n with
  | nil => simp
  | append_singleton l x ih =>
    cases n with
    | zero => simp
    | succ n =>
      obtain ⟨ordered, -, older⟩ := List.pairwise_append.mp ordered
      rw [List.rtake_concat_succ] at same ⊢
      by_cases passes : (known x && recent x) = true
      · rw [List.filter_append, List.filter_singleton, passes, cond_true, List.rtake_concat_succ, List.map_append,
          List.map_append] at same
        intro y hy
        rcases List.mem_append.mp hy with hy | hy
        · exact ih ordered (List.append_cancel_right same) y hy
        · rw [List.mem_singleton.mp hy]
          exact passes
      · rw [List.filter_append, List.filter_singleton, Bool.eq_false_iff.mpr passes, cond_false,
          List.append_nil] at same
        exfalso
        -- The newest line is shown, and so it has the keyword; it is as new as any other.
        have mem : f x ∈ ((l.filter fun x => known x && recent x).rtake (n + 1)).map f := by
          rw [same]
          simp
        obtain ⟨y, hy, eq⟩ := List.mem_map.mp mem
        obtain ⟨hy, passed⟩ := List.mem_filter.mp (List.mem_of_mem_drop hy)
        obtain ⟨knownY, recentY⟩ := Bool.and_eq_true_iff.mp passed
        refine passes (Bool.and_eq_true_iff.mpr ⟨(shown y x eq).symm.trans knownY, ?_⟩)
        exact older y hy x (List.mem_singleton_self x) recentY

theorem rtake_filter_iff (shown : ∀ x y, f x = f y → known x = known y)
    (ordered : l.Pairwise fun x y => recent x → recent y) :
    ((l.filter fun x => known x && recent x).rtake n).map f = (l.rtake n).map f ↔
      ∀ x ∈ l.rtake n, (known x && recent x) = true :=
  ⟨forall_of_rtake_filter shown ordered, fun all => congrArg (List.map f) (rtake_filter all)⟩

end Newest

/-! ### The logs of a host -/

/-- The lines of a text, the last one ended or not. -/
def linesOf (text : Bytes) : List Bytes :=
  if (splitLines text).getLast? = some [] then (splitLines text).dropLast else splitLines text

/-- What journalctl prints besides entries is set off. -/
def entriesOf (text : Bytes) : List Bytes := (linesOf text).filter fun line => !decide (asciiBytes "-- " <+: line)

/-- An entry of the journal. -/
structure JournalEntry where
  time : Time
  unit : String
  line : Bytes

/-- The contents of every log, and what journalctl takes a bound on the time and a pattern of units to mean. -/
structure Logs where
  file : String → Option Bytes
  container : String → Option Bytes
  journal : List JournalEntry
  ordered : journal.Pairwise fun e e' => e.time ≤ e'.time
  since : String → Time → Bool
  since_mono : ∀ {bound : String} {t t' : Time}, t ≤ t' → since bound t = true → since bound t' = true
  ofUnit : String → String → Bool

/-- The entries of the units of these patterns, of all when there is no pattern. -/
def Logs.entries (logs : Logs) (units : List String) : List JournalEntry :=
  logs.journal.filter fun e => units.isEmpty || units.any fun u => logs.ofUnit u e.unit

/-- What tail, docker and journalctl document that they print for a number of lines. -/
structure Serves (h : Surroundings) (logs : Logs) : Prop where
  linux : h.goos = "linux"
  isFile : ∀ path, h.isFile path = (logs.file path).isSome
  tail : ∀ {path content}, logs.file path = some content → ∀ n : Nat, 0 < n → ∃ out,
    h.run ["tail", "-n", toString n, path] = (out, none) ∧ linesOf out = (linesOf content).rtake n
  docker : ∀ {id content}, logs.container id = some content → ∀ n : Nat, 0 < n → ∃ out,
    h.run ["docker", "logs", "--tail", toString n, id] = (out, none) ∧ linesOf out = (linesOf content).rtake n
  journalctl : ∀ (units : List String) (n : Nat), 0 < n → ∃ out,
    h.run ("journalctl" :: "-n" :: toString n ::
      ((units.flatMap fun u => ["-u", u]) ++ ["--no-pager", "-o", "short-iso"])) = (out, none) ∧
      entriesOf out = ((logs.entries units).rtake n).map (·.line)

/-! ### What a payload asks for -/

/-- A line of a log, with its time if it is an entry of the journal. -/
structure LogLine where
  text : Bytes
  time : Option Time

/-- A line of a file, which has no time of its own. -/
def LogLine.ofFile (text : Bytes) : LogLine := ⟨text, none⟩

/-- The line of an entry. -/
def LogLine.ofEntry (e : JournalEntry) : LogLine := ⟨e.line, some e.time⟩

namespace LogReadTaskPayload
variable (p : LogReadTaskPayload)

/-- The patterns of the units that are asked for: a plain name stands for the units that begin with it, too. -/
def units : List String :=
  let unit := trimmed p.unit
  if unit = "" then [] else if '*' ∉ unit.toList ∧ ¬".service".toList <:+ unit.toList then
    [unit, unit ++ "*"] else [unit]

/-- The files in which the log of the source may be. -/
def paths : List String :=
  if p.source = "nginx_access" then nginxAccessPaths else if p.source = "nginx_error" then nginxErrorPaths
    else mysqlErrorPaths

/-- The lines of the source, if there is such a log. -/
def selected (logs : Logs) : Option (List LogLine) :=
  if p.source = "journal" then some ((logs.entries p.units).map .ofEntry)
  else if p.source = "docker" then (logs.container (trimmed p.containerId)).map fun content =>
    (linesOf content).map .ofFile
  else ((p.paths.find? fun path => (logs.file path).isSome).bind logs.file).map fun content =>
    (linesOf content).map .ofFile

/-- The line has the keyword, if one is asked for. -/
def hasGrep (h : Surroundings) (line : LogLine) : Bool :=
  decide (trimmed p.grep = "") || hasKeyword h (trimmed p.grep) line.text

/-- Only entries of the journal have a time. -/
def isSince (logs : Logs) (line : LogLine) : Bool :=
  decide (trimmed p.since = "") || line.time.all (logs.since (trimmed p.since))

/-- The line passes both filters. -/
def passes (h : Surroundings) (logs : Logs) (line : LogLine) : Bool := p.hasGrep h line && p.isSince logs line

/-- The number of lines that are asked for. -/
def count : Nat := (p.lineCount.getD 0).toNat

/-- The lines of a result. -/
def shown (out : Bytes) : List Bytes := if p.source = "journal" then entriesOf out else linesOf out

end LogReadTaskPayload

/-- The log that is read for a payload, and cut off where it is too long for a report, shows the newest of the
    selected lines that pass its filters. -/
def Honoured (h : Surroundings) (logs : Logs) (raw : Json) (p : LogReadTaskPayload) (lines : List LogLine) : Prop :=
  ∃ out, executeReadOnlyLog h (taskPayload h raw) = (out, none) ∧
    taskResult h (.known .logRead) (taskPayload h raw) = (.completed, limitTaskOutput out 20000) ∧
    p.shown out = ((lines.filter (p.passes h logs)).rtake p.count).map (·.text)

/-- The agent finds the source, the unit, the container and the number of lines that the control plane has checked. -/
structure Aligned (h : Surroundings) (raw : Json) (p : LogReadTaskPayload) : Prop where
  source : taskPayload h raw "source" = p.source
  unit : taskPayload h raw "unit" = p.unit
  containerId : taskPayload h raw "container_id" = p.containerId
  lines : taskPayload h raw "lines" = p.lines

/-! ### What is accepted -/

/-- What validateLogReadTask has accepted. -/
structure LogReadTaskPayload.Accepted (p : LogReadTaskPayload) : Prop where
  source : p.source ∈ logSources
  unit : p.source = "journal" → trimmed p.unit ≠ "" → isServiceIdentifier p.unit = true
  container : p.source = "docker" → isContainerIdentifier (trimmed p.containerId) = true
  lines : ∃ n, p.lineCount = some n ∧ 1 ≤ n ∧ n ≤ 500

theorem LogReadTaskPayload.Accepted.count_pos {p : LogReadTaskPayload} (accepted : p.Accepted) : 0 < p.count := by
  obtain ⟨n, count, least, -⟩ := accepted.lines
  rw [LogReadTaskPayload.count, count, Option.getD_some]
  omega

theorem of_refusal {ε α : Type} {c : Prop} [Decidable c] {e : ε} {x : Except ε α} {v : α}
    (ok : (if c then .error e else x) = .ok v) :
    ¬c ∧ x = .ok v := by
  split at ok
  · cases ok
  · exact ⟨‹_›, ok⟩

theorem count_of_not_all {p : LogReadTaskPayload}
    (h : ¬(p.lineCount.all fun lines => decide (lines < 1 ∨ lines > 500)) = true) :
    ∃ n, p.lineCount = some n ∧ 1 ≤ n ∧ n ≤ 500 := by
  cases hn : p.lineCount with
  | none => simp [hn] at h
  | some n =>
    simp only [hn, Option.all_some, decide_eq_true_eq] at h
    exact ⟨n, rfl, by omega, by omega⟩

theorem accepted_of_validate {pf : Platform} {server : Server} {raw : Json} {p : LogReadTaskPayload}
    (decoded : decodeLogRead raw = some p)
    (ok : validateLogReadTask pf server raw = .ok ()) : p.Accepted := by
  unfold validateLogReadTask at ok
  simp only [decoded, bind, Except.bind, throw, throwThe, MonadExceptOf.throw, pure, Except.pure] at ok
  obtain ⟨-, ok⟩ := of_refusal ok
  obtain ⟨source, ok⟩ := of_refusal ok
  obtain ⟨unit, ok⟩ := of_refusal ok
  obtain ⟨-, ok⟩ := of_refusal ok
  obtain ⟨-, ok⟩ := of_refusal ok
  have unit' : p.source = "journal" → trimmed p.unit ≠ "" → isServiceIdentifier p.unit = true := fun journal named => by
    simpa [journal, named] using unit
  by_cases docker : p.source = "docker"
  · rw [if_pos docker] at ok
    obtain ⟨-, ok⟩ := of_refusal ok
    obtain ⟨container, ok⟩ := of_refusal ok
    exact ⟨not_not.mp source, unit', fun _ => by simpa using container, count_of_not_all (of_refusal ok).1⟩
  · rw [if_neg docker] at ok
    exact ⟨not_not.mp source, unit', fun h => absurd h docker, count_of_not_all (of_refusal ok).1⟩

section Alphabet
variable {c : Char} {s : List Char}

theorem alphanumeric_bounds (h : alphanumeric c = true) : 48 ≤ c.toNat ∧ c.toNat ≤ 122 := by
  have codes : 'a'.toNat = 97 ∧ 'z'.toNat = 122 ∧ 'A'.toNat = 65 ∧ 'Z'.toNat = 90 ∧ '0'.toNat = 48 ∧
    '9'.toNat = 57 := by decide
  simp only [alphanumeric, Bool.or_eq_true, Bool.and_eq_true, decide_eq_true_eq, Char.le_def,
    UInt32.le_iff_toNat_le] at h
  rcases h with (h | h) | h
  · exact ⟨le_trans (by decide) h.1, h.2⟩
  · exact ⟨le_trans (by decide) h.1, le_trans h.2 (by decide)⟩
  · exact ⟨h.1, le_trans h.2 (by decide)⟩

theorem not_isSpace_of_bounds (least : 33 ≤ c.toNat) (most : c.toNat ≤ 122) : isSpace c = false := by
  simp only [isSpace, List.mem_cons, List.not_mem_nil, or_false, Bool.or_eq_false_iff, decide_eq_false_iff_not,
    Bool.and_eq_false_iff]
  omega

theorem not_isSpace_of_alphanumeric (h : alphanumeric c = true) : isSpace c = false :=
  not_isSpace_of_bounds (le_trans (by decide) (alphanumeric_bounds h).1) (alphanumeric_bounds h).2

/-- The name of a container has no white space around it. -/
theorem trimmed_of_isContainerIdentifier {id : String} (h : isContainerIdentifier id = true) : trimmed id = id := by
  unfold isContainerIdentifier at h
  cases hid : id.toList with
  | nil =>
    rw [hid] at h
    cases h
  | cons c cs =>
    rw [hid] at h
    simp only [Bool.and_eq_true, List.all_eq_true, Bool.or_eq_true, decide_eq_true_eq] at h
    obtain ⟨⟨first, -⟩, all⟩ := h
    have solid : ∀ d ∈ id.toList, isSpace d = false := by
      intro d hd
      rw [hid] at hd
      rcases List.mem_cons.mp hd with rfl | hd
      · exact not_isSpace_of_alphanumeric first
      · rcases all d hd with h | h
        · exact not_isSpace_of_alphanumeric h
        · simp only [List.mem_cons, List.not_mem_nil, or_false] at h
          rcases h with rfl | rfl | rfl <;> decide
    rw [trimmed, trimSpace_eq_self solid, String.ofList_toList]

/-- White space around the name of a unit is no part of it. -/
theorem isServiceIdentifier_trimmed {u : String} (h : isServiceIdentifier u = true) :
    isServiceIdentifier (trimmed u) = true := by
  unfold isServiceIdentifier at h ⊢
  cases hu : u.toList with
  | nil =>
    rw [hu] at h
    cases h
  | cons c cs =>
    rw [hu] at h
    simp only [Bool.and_eq_true, decide_eq_true_eq] at h
    obtain ⟨⟨first, length⟩, all⟩ := h
    have solid : isSpace c = false := by
      rcases Bool.or_eq_true_iff.mp first with letter | star
      · exact not_isSpace_of_alphanumeric letter
      · rw [of_decide_eq_true star]
        decide
    obtain ⟨rest, hrest⟩ := List.rdropWhile_prefix isSpace (l := c :: cs)
    have eq : (trimmed u).toList = (c :: cs).rdropWhile isSpace := by
      rw [trimmed, String.toList_ofList, hu, trimSpace_eq, List.dropWhile_cons_of_neg (by simp [solid])]
    rw [eq]
    cases hs : (c :: cs).rdropWhile isSpace with
    | nil => exact absurd (List.rdropWhile_eq_nil_iff.mp hs c (List.mem_cons_self ..)) (by simp [solid])
    | cons d ds =>
      rw [hs, List.cons_append] at hrest
      obtain ⟨rfl, rfl⟩ := List.cons.inj hrest
      simp only [Bool.and_eq_true, decide_eq_true_eq]
      refine ⟨⟨first, ?_⟩, ?_⟩
      · rw [List.length_append] at length
        omega
      · rw [List.all_append, Bool.and_eq_true] at all
        exact all.1

end Alphabet

/-! ### What the agent reads -/

section Reading
variable {h : Surroundings} {logs : Logs} {raw : Json} {p : LogReadTaskPayload} {lines : List LogLine}

/-- Neither the keyword nor the bound on the time gets to the reading. -/
theorem taskPayload_dropped : taskPayload h raw "grep" = "" ∧ taskPayload h raw "since" = "" :=
  ⟨if_neg (by decide), if_neg (by decide)⟩

theorem logLines_eq (accepted : p.Accepted) (aligned : Aligned h raw p) :
    logLines (taskPayload h raw) = some p.count := by
  obtain ⟨n, count, least, most⟩ := accepted.lines
  have nonempty : trimmed p.lines ≠ "" := by
    intro empty
    rw [LogReadTaskPayload.lineCount, empty] at count
    exact absurd count (by simp [atoi, digits])
  unfold logLines
  rw [aligned.lines]
  dsimp only
  rw [if_neg nonempty, show atoi (trimmed p.lines).toList = some n from count]
  dsimp only
  rw [if_neg (by omega), LogReadTaskPayload.count, count, Option.getD_some]

theorem readTail_eq {command : String → List String} {n : Nat} :
    readTail h command (taskPayload h raw) n = h.run (command (toString n)) := by
  have nothing : trimmed "" = "" := by decide
  unfold readTail
  rw [taskPayload_dropped.1, nothing]
  simp only [ne_eq, not_true_eq_false, if_false]
  obtain ⟨out, e⟩ := h.run (command (toString n))
  cases e with
  | none => rfl
  | some e => rfl

theorem readLogFile_eq (serves : Serves h logs) {paths : List String} {notice : String} {content : Bytes} {n : Nat}
    (positive : 0 < n)
    (there : (paths.find? fun path => (logs.file path).isSome).bind logs.file = some content) :
    ∃ out, readLogFile h paths notice (taskPayload h raw) n = (out, none) ∧
      linesOf out = (linesOf content).rtake n := by
  obtain ⟨path, first, found⟩ := Option.bind_eq_some_iff.mp there
  obtain ⟨out, run, shown⟩ := serves.tail found n positive
  refine ⟨out, ?_, shown⟩
  have same : firstExistingLogPath h paths = some path := by
    rw [firstExistingLogPath, ← first]
    exact congrArg paths.find? (funext serves.isFile)
  unfold readLogFile
  rw [same]
  dsimp only
  rw [readTail_eq, run]

theorem readJournal_eq (serves : Serves h logs) (accepted : p.Accepted) (journal : p.source = "journal")
    (aligned : Aligned h raw p)
    {n : Nat} (positive : 0 < n) :
    ∃ out, readJournal h (taskPayload h raw) n = (out, none) ∧
      entriesOf out = ((logs.entries p.units).rtake n).map (·.line) := by
  obtain ⟨out, run, shown⟩ := serves.journalctl p.units n positive
  refine ⟨out, ?_, shown⟩
  have nothing : trimmed "" = "" := by decide
  have named : ¬(trimmed p.unit ≠ "" ∧ (!isServiceIdentifier (trimmed p.unit)) = true) := fun ⟨unit, invalid⟩ => by
    rw [isServiceIdentifier_trimmed (accepted.unit journal unit)] at invalid
    cases invalid
  have args : (if trimmed p.unit ≠ "" then unitArgs (trimmed p.unit) else []) = p.units.flatMap fun u => ["-u", u] := by
    unfold LogReadTaskPayload.units unitArgs
    by_cases none_ : trimmed p.unit = ""
    · simp [none_]
    · dsimp only
      rw [if_pos none_, if_neg none_]
      split <;> rfl
  unfold readJournal
  rw [taskPayload_dropped.1, taskPayload_dropped.2, aligned.unit, nothing]
  dsimp only
  rw [if_neg named, args]
  simp only [ne_eq, not_true_eq_false, if_false, List.append_nil, run]

theorem map_rtake {α β : Type} {f : α → β} {n : Nat} {l : List α} : (l.map f).rtake n = (l.rtake n).map f := by
  simp [List.rtake, List.map_drop]

theorem execute_of_source (serves : Serves h logs) (accepted : p.Accepted) (aligned : Aligned h raw p) {source : String}
    (eq : p.source = source) : executeReadOnlyLog h (taskPayload h raw) =
      if source = "journal" then readJournal h (taskPayload h raw) p.count
      else if source = "docker" then
        if !isContainerIdentifier p.containerId then ([], some (textBytes "invalid or missing container identifier"))
        else readTail h (fun n => ["docker", "logs", "--tail", n, p.containerId]) (taskPayload h raw) p.count
      else readLogFile h p.paths (if source = "nginx_access" then missing "Nginx access log (/var/log/nginx/access.log)"
        else if source = "nginx_error" then missing "Nginx error log (/var/log/nginx/error.log)"
        else "Notice: No MySQL or MariaDB error log found in standard paths " ++
          "(/var/log/mysql/error.log, /var/log/mysqld.log, /var/log/mariadb/mariadb.log).")
            (taskPayload h raw) p.count := by
  unfold executeReadOnlyLog
  rw [if_neg (not_not.mpr serves.linux), logLines_eq accepted aligned, aligned.source, aligned.containerId, eq]
  have source := accepted.source
  rw [eq] at source
  simp only [logSources, List.mem_cons, List.not_mem_nil, or_false] at source
  rcases source with rfl | rfl | rfl | rfl | rfl
  all_goals simp [LogReadTaskPayload.paths, eq]

/-- The lines that are read are the newest of all that are selected. -/
theorem executeReadOnlyLog_eq (serves : Serves h logs) (accepted : p.Accepted) (there : p.selected logs = some lines)
    (aligned : Aligned h raw p) (plain : p.source = "docker" → trimmed p.containerId = p.containerId) :
    ∃ out, executeReadOnlyLog h (taskPayload h raw) = (out, none) ∧
      p.shown out = (lines.rtake p.count).map (·.text) := by
  rw [execute_of_source serves accepted aligned rfl]
  unfold LogReadTaskPayload.selected at there
  unfold LogReadTaskPayload.shown
  by_cases journal : p.source = "journal"
  · rw [if_pos journal] at there ⊢
    obtain rfl := Option.some.inj there
    obtain ⟨out, read, shown⟩ := readJournal_eq serves accepted journal aligned accepted.count_pos
    refine ⟨out, read, ?_⟩
    rw [if_pos journal, shown, map_rtake, List.map_map]
    rfl
  · rw [if_neg journal] at there ⊢
    simp only [if_neg journal]
    by_cases docker : p.source = "docker"
    · rw [if_pos docker] at there ⊢
      obtain ⟨content, found, rfl⟩ := Option.map_eq_some_iff.mp there
      have valid := accepted.container docker
      rw [plain docker] at found valid
      obtain ⟨out, run, shown⟩ := serves.docker found p.count accepted.count_pos
      rw [valid, Bool.not_true, if_neg Bool.false_ne_true, readTail_eq]
      exact ⟨out, run, by rw [shown, map_rtake, List.map_map]; exact (List.map_id _).symm⟩
    · rw [if_neg docker] at there ⊢
      obtain ⟨content, found, rfl⟩ := Option.map_eq_some_iff.mp there
      obtain ⟨out, read, shown⟩ := readLogFile_eq serves accepted.count_pos found
      exact ⟨out, read, by rw [shown, map_rtake, List.map_map]; exact (List.map_id _).symm⟩

theorem taskResult_logRead {payload : String → String} :
    taskResult h (.known .logRead) payload = limitedResult 20000 (executeReadOnlyLog h payload) := rfl

/-- The journal is in the order of its times, and a file has none. -/
theorem isSince_ordered (there : p.selected logs = some lines) :
    lines.Pairwise fun line line' => p.isSince logs line = true → p.isSince logs line' = true := by
  have untimed : ∀ content : Bytes, ((linesOf content).map LogLine.ofFile).Pairwise fun line line' =>
      p.isSince logs line = true → p.isSince logs line' = true := fun content =>
    List.pairwise_map.mpr (List.pairwise_of_forall fun _ _ h => h)
  unfold LogReadTaskPayload.selected at there
  split at there
  · obtain rfl := Option.some.inj there
    refine List.pairwise_map.mpr ((logs.ordered.filter _).imp fun {e e'} le => ?_)
    unfold LogReadTaskPayload.isSince
    intro h
    rcases Bool.or_eq_true_iff.mp h with unbounded | since
    · exact Bool.or_eq_true_iff.mpr (.inl unbounded)
    · exact Bool.or_eq_true_iff.mpr (.inr (logs.since_mono le since))
  · split at there
    · obtain ⟨content, -, rfl⟩ := Option.map_eq_some_iff.mp there
      exact untimed content
    · obtain ⟨content, -, rfl⟩ := Option.map_eq_some_iff.mp there
      exact untimed content

/-- The filters of a payload are honoured exactly when none of the newest selected lines fails them, and the
    name of the container is given without white space around it. -/
theorem filters_honoured_iff {pf : Platform} {server : Server} (ok : validateLogReadTask pf server raw = .ok ())
    (decoded : decodeLogRead raw = some p) (aligned : Aligned h raw p) (serves : Serves h logs)
    (there : p.selected logs = some lines) :
    Honoured h logs raw p lines ↔
      (∀ line ∈ lines.rtake p.count, p.passes h logs line = true) ∧
      (p.source = "docker" → trimmed p.containerId = p.containerId) := by
  have accepted := accepted_of_validate decoded ok
  have keyword : ∀ line line' : LogLine, line.text = line'.text → p.hasGrep h line = p.hasGrep h line' :=
      fun line line' eq => by
    unfold LogReadTaskPayload.hasGrep
    rw [eq]
  have same := rtake_filter_iff (n := p.count) keyword (isSince_ordered there)
  constructor
  · rintro ⟨out, read, -, shown⟩
    have plain : p.source = "docker" → trimmed p.containerId = p.containerId := by
      intro docker
      by_contra spaced
      rw [execute_of_source serves accepted aligned docker] at read
      have invalid : (!isContainerIdentifier p.containerId) = true := by
        simpa using fun valid => spaced (trimmed_of_isContainerIdentifier valid)
      simp [invalid] at read
    obtain ⟨out', read', shown'⟩ := executeReadOnlyLog_eq serves accepted there aligned plain
    obtain rfl := (Prod.mk.inj (read.symm.trans read')).1
    exact ⟨same.mp (shown.symm.trans shown'), plain⟩
  · rintro ⟨all, plain⟩
    obtain ⟨out, read, shown⟩ := executeReadOnlyLog_eq serves accepted there aligned plain
    refine ⟨out, read, ?_, shown.trans (same.mpr all).symm⟩
    rw [taskResult_logRead, read]
    rfl

end Reading

/-! ### Payloads that both sides read alike -/

/-- No key stands twice, and none names the field in another case. -/
structure Spelled (fields : List (String × Json)) (tag : String) : Prop where
  distinct : (fields.map (·.1)).Nodup
  lower : ∀ key ∈ fields.map (·.1), Json.names key tag = true → key = tag

section Spelling
variable {h : Surroundings} {fields : List (String × Json)} {tag v : String}

theorem valueOf_concat {kv : String × Json} : valueOf (fields ++ [kv]) tag = if kv.1 = tag then some kv.2
    else valueOf fields tag := by
  unfold valueOf
  rw [List.reverse_append, List.reverse_singleton, List.singleton_append, List.find?_cons]
  split <;> simp_all

theorem payloadValue_of_field (self : Json.names tag tag = true) (spelled : Spelled fields tag)
    (decoded : Json.field tag Json.decodeString "" fields = some v) : payloadValue h fields tag = v := by
  induction fields using List.reverseRecOn generalizing v with
  | nil => exact Option.some.inj decoded
  | append_singleton fields kv ih =>
    obtain ⟨distinct, lower⟩ := spelled
    rw [List.map_append] at distinct lower
    obtain ⟨distinct, -, new⟩ := List.nodup_append.mp distinct
    rw [Json.field, List.foldlM_append] at decoded
    obtain ⟨old, decodedOld, decoded⟩ := Option.bind_eq_some_iff.mp decoded
    rw [List.foldlM_cons] at decoded
    obtain ⟨last, decoded, eq⟩ := Option.bind_eq_some_iff.mp decoded
    obtain rfl := Option.some.inj eq
    have same := ih ⟨distinct, fun key hkey => lower key (List.mem_append_left _ hkey)⟩ decodedOld
    unfold payloadValue at same ⊢
    rw [valueOf_concat]
    by_cases named : kv.1 = tag
    · rw [if_pos (by rw [named]; exact self)] at decoded
      rw [if_pos named]
      cases value : kv.2 with
      | str text =>
        rw [value] at decoded
        exact Option.some.inj decoded
      | null =>
        -- The field has kept what it held, and that was nothing.
        rw [value] at decoded
        have absent : valueOf fields tag = none := by
          unfold valueOf
          rw [Option.map_eq_none_iff, List.find?_eq_none]
          intro kv' hkv' eq
          exact new kv'.1 (List.mem_map_of_mem (List.mem_reverse.mp hkv')) kv.1 (by simp)
            ((of_decide_eq_true eq).trans named.symm)
        rw [absent] at same
        exact same.trans (Option.some.inj decoded)
      | bool b =>
        rw [value] at decoded
        cases decoded
      | num q =>
        rw [value] at decoded
        cases decoded
      | arr items =>
        rw [value] at decoded
        cases decoded
      | obj members =>
        rw [value] at decoded
        cases decoded
    · rw [if_neg fun names => named (lower kv.1 (by simp) names)] at decoded
      rw [if_neg named]
      exact same.trans (Option.some.inj decoded)

theorem aligned_of_spelled {p : LogReadTaskPayload} (decoded : decodeLogRead (.obj fields) = some p)
    (spelled : ∀ tag ∈ ["source", "unit", "container_id", "lines"], Spelled fields tag) :
      Aligned h (.obj fields) p := by
  obtain ⟨source, decodedSource, decoded⟩ := Option.bind_eq_some_iff.mp decoded
  obtain ⟨unit, decodedUnit, decoded⟩ := Option.bind_eq_some_iff.mp decoded
  obtain ⟨grep, -, decoded⟩ := Option.bind_eq_some_iff.mp decoded
  obtain ⟨since, -, decoded⟩ := Option.bind_eq_some_iff.mp decoded
  obtain ⟨containerId, decodedContainer, decoded⟩ := Option.bind_eq_some_iff.mp decoded
  obtain ⟨lines, decodedLines, decoded⟩ := Option.bind_eq_some_iff.mp decoded
  obtain rfl := Option.some.inj decoded
  refine ⟨?_, ?_, ?_, ?_⟩
  · exact (if_pos (by decide)).trans (payloadValue_of_field (by decide) (spelled _ (by simp)) decodedSource)
  · exact (if_pos (by decide)).trans (payloadValue_of_field (by decide) (spelled _ (by simp)) decodedUnit)
  · exact (if_pos (by decide)).trans (payloadValue_of_field (by decide) (spelled _ (by simp)) decodedContainer)
  · exact (if_pos (by decide)).trans (payloadValue_of_field (by decide) (spelled _ (by simp)) decodedLines)

end Spelling

/-! ### An error log of Nginx -/

/-- A line of the log. -/
def refused : Bytes := asciiBytes "connect() refused"

/-- The line after it. -/
def timedOut : Bytes := asciiBytes "upstream timed out"

/-- The newest line. -/
def timedOutAgain : Bytes := asciiBytes "upstream timed out again"

/-- Lines as a file has them. -/
def ended (lines : List Bytes) : Bytes := lines.flatMap (· ++ [0x0A])

/-- The lines of the log, the oldest first. -/
def errorLines : List Bytes := [refused, timedOut, timedOutAgain]

/-- The only log there is. -/
def errorLog : Logs where
  file path := if path = "/var/log/nginx/error.log" then some (ended errorLines) else none
  container _ := none
  journal := []
  ordered := List.Pairwise.nil
  since _ _ := true
  since_mono _ h := h
  ofUnit _ _ := true

/-- A host whose `tail` prints the log. -/
def nginxHost : Surroundings where
  goos := "linux"
  run
    | ["tail", "-n", count, "/var/log/nginx/error.log"] =>
      (ended (errorLines.rtake (Nat.ofDigitChars 10 count.toList 0)), none)
    | _ => ([], none)
  start _ := .ok []
  isFile path := decide (path = "/var/log/nginx/error.log")
  inspect _ := asciiBytes "null"
  control _ _ := ([], none)
  prepareUpdate := none
  prepareUninstall := none
  deadlineExceeded := false
  lower text := text
  quote text := text
  sprint _ := ""
  beyondInt64 _ := -2 ^ 63

theorem nginxHost_serves : Serves nginxHost errorLog where
  linux := rfl
  isFile path := by
    by_cases eq : path = "/var/log/nginx/error.log" <;> simp [nginxHost, errorLog, eq]
  tail := by
    intro path content found n positive
    obtain ⟨rfl, eq⟩ := Option.ite_none_right_eq_some.mp found
    have printed : nginxHost.run ["tail", "-n", toString n, "/var/log/nginx/error.log"] =
        (ended (errorLines.rtake n), none) := by
      change (ended (errorLines.rtake (Nat.ofDigitChars 10 (toString n).toList 0)), none) = _
      rw [Nat.toString_eq_ofList_toDigits, String.toList_ofList, Nat.ofDigitChars_ten_toDigits]
    have lines : linesOf (ended errorLines) = errorLines := by decide
    refine ⟨_, printed, ?_⟩
    rw [← Option.some.inj eq, lines]
    -- beyond the third line there are no more
    rcases n with _ | _ | _ | n
    · cases positive
    · decide
    · decide
    · have all : errorLines.rtake (n + 3) = errorLines := by
        have few : errorLines.length - (n + 3) = 0 := Nat.sub_eq_zero_of_le (Nat.le_add_left 3 n)
        rw [List.rtake, few, List.drop_zero]
      rw [all, lines]
  docker found := nomatch found
  journalctl units n positive := ⟨[], rfl, by simp [Logs.entries, errorLog]; rfl⟩

/-- A request for so many lines of the log with a keyword. -/
def errorsWith (keyword lines : String) : List (String × Json) :=
  [("source", .str "nginx_error"), ("lines", .str lines), ("grep", .str keyword)]

/-- What it is decoded to. -/
def errorsPayload (keyword lines : String) : LogReadTaskPayload := ⟨"nginx_error", "", keyword, "", "", lines⟩

/-- The newest two lines have the keyword, and the one before them has not. -/
theorem filters_honoured_iff_timed_out :
    Honoured nginxHost errorLog (.obj (errorsWith "timed out" "2")) (errorsPayload "timed out" "2")
      (errorLines.map .ofFile) :=
  (filters_honoured_iff (show validateLogReadTask plainPlatform linuxServer (.obj (errorsWith "timed out" "2")) =
    .ok () from rfl) rfl
    (aligned_of_spelled rfl fun tag htag => ⟨by decide, by decide +revert⟩) nginxHost_serves rfl).mpr
      ⟨by decide, fun docker => nomatch docker⟩

/-- The newest line does not have the keyword, and is returned in place of the one that has. -/
theorem keyword_dropped :
    ¬∀ (pf : Platform) (server : Server) (h : Surroundings) (logs : Logs) (raw : Json) (p : LogReadTaskPayload)
    (lines : List LogLine), validateLogReadTask pf server raw = .ok () → decodeLogRead raw = some p → Serves h logs →
      p.selected logs = some lines → Honoured h logs raw p lines := by
  intro claim
  have ok : validateLogReadTask plainPlatform linuxServer (.obj (errorsWith "refused" "1")) = .ok () := rfl
  have decoded : decodeLogRead (.obj (errorsWith "refused" "1")) = some (errorsPayload "refused" "1") := rfl
  have there : (errorsPayload "refused" "1").selected errorLog = some (errorLines.map .ofFile) := rfl
  obtain ⟨out, read, -, shown⟩ := claim _ _ _ _ _ _ _ ok decoded nginxHost_serves there
  have aligned : Aligned nginxHost (.obj (errorsWith "refused" "1")) (errorsPayload "refused" "1") :=
    aligned_of_spelled decoded fun tag htag => ⟨by decide, by decide +revert⟩
  obtain ⟨out', read', shown'⟩ := executeReadOnlyLog_eq nginxHost_serves (accepted_of_validate decoded ok) there aligned
    fun docker => nomatch docker
  rw [← (Prod.mk.inj (read.symm.trans read')).1, shown] at shown'
  exact absurd shown' (by decide)

end DatrixOps
