import DatrixOps.Server.ReportTask

/-! Whether a report gets through. The control plane reads at most 512 KiB of it and cannot store U+0000; the
    agent limits what scripts and logs print, but not what containers and services do. -/

namespace DatrixOps
open Posix Postgres Golang Host

variable {p : Platform} {db : Db} {token taskId : String} {status : ReportStatus}
  {result s s' rest more : List UInt8} {b : UInt8}

/-! ### What follows a body is not looked at -/

theorem skipSpace_extend {c : UInt8} (h : skipSpace s = c :: rest) : skipSpace (s ++ more) = c :: (rest ++ more) := by
  induction s with
  | nil => cases h
  | cons d s ih =>
    unfold skipSpace at h ih ⊢
    rw [List.cons_append, List.dropWhile_cons]
    rw [List.dropWhile_cons] at h
    split at h
    · rw [if_pos ‹_›]
      exact ih h
    · rw [if_neg ‹_›, ← List.cons_append, h]
      rfl

theorem expect_extend (h : expect b s = some rest) : expect b (s ++ more) = some (rest ++ more) := by
  unfold expect at h ⊢
  cases hs : skipSpace s with
  | nil =>
    rw [hs] at h
    cases h
  | cons c s' =>
    rw [hs] at h
    rw [skipSpace_extend hs]
    dsimp only at h ⊢
    split at h
    · obtain rfl := Option.some.inj h
      rw [if_pos ‹_›]
    · cases h

/-- A string after white space. -/
theorem readString_skip_extend {text : List Char} (h : readString (skipSpace s) = some (text, rest)) :
    readString (skipSpace (s ++ more)) = some (text, rest ++ more) := by
  cases hs : skipSpace s with
  | nil =>
    rw [hs] at h
    cases h
  | cons c s' =>
    rw [skipSpace_extend hs, ← List.cons_append, ← hs]
    exact readString_extend h

theorem readMembers_extend : ∀ {fuel fuel' : Nat} {s rest : List UInt8}
    {members : List (String × Json)}, fuel ≤ fuel' → readMembers fuel s = some (members, rest) →
      readMembers fuel' (s ++ more) = some (members, rest ++ more)
  | 0, _, _, _, _, _, h => by cases h
  | fuel + 1, 0, _, _, _, le, _ => absurd le (by omega)
  | fuel + 1, fuel' + 1, s, rest, members, le, h => by
    unfold readMembers at h ⊢
    obtain ⟨⟨key, s₁⟩, hkey, h⟩ := Option.bind_eq_some_iff.mp h
    obtain ⟨s₂, hcolon, h⟩ := Option.bind_eq_some_iff.mp h
    obtain ⟨⟨value, s₃⟩, hvalue, h⟩ := Option.bind_eq_some_iff.mp h
    refine Option.bind_eq_some_iff.mpr ⟨_, readString_skip_extend hkey,
      Option.bind_eq_some_iff.mpr ⟨_, expect_extend hcolon, ?_⟩⟩
    refine Option.bind_eq_some_iff.mpr ⟨_, readString_skip_extend hvalue, ?_⟩
    dsimp only at h ⊢
    cases hs : skipSpace s₃ with
    | nil =>
      rw [hs] at h
      cases h
    | cons c s₄ =>
      rw [hs] at h
      rw [skipSpace_extend hs]
      dsimp only at h ⊢
      split at h
      · rw [if_pos ‹_›]
        obtain ⟨⟨later, rest'⟩, hlater, eq⟩ := Option.map_eq_some_iff.mp h
        obtain ⟨rfl, rfl⟩ := Prod.mk.inj eq
        rw [readMembers_extend (Nat.le_of_succ_le_succ le) hlater]
        rfl
      · rw [if_neg ‹_›]
        split at h
        · rw [if_pos ‹_›]
          obtain ⟨rfl, rfl⟩ := Prod.mk.inj (Option.some.inj h)
          rfl
        · cases h

theorem readObject_extend {members : List (String × Json)} (h : readObject s = some (members, rest))
    (more : List UInt8) :
    readObject (s ++ more) = some (members, rest ++ more) := by
  obtain ⟨s₁, open_, h⟩ := Option.bind_eq_some_iff.mp h
  exact Option.bind_eq_some_iff.mpr ⟨_, expect_extend open_, readMembers_extend (by simp) h⟩

/-! ### The body of an agent -/

/-- One member, and what is read after it. -/
theorem readMembers_quote {fuel : Nat} {key : String} {c : UInt8} {more : List UInt8}
    (low : ∀ c ∈ key.toList, c.toNat < 0x80)
    (after : skipSpace rest = c :: more) :
    readMembers (fuel + 1) (Golang.quote (asciiBytes key) ++ 0x3A :: (Golang.quote s ++ rest)) =
      if c = 0x2C then (readMembers fuel more).map fun (members, rest) =>
        ((key, .str (String.ofList (textOf s))) :: members, rest)
      else if c = 0x7D then some ([(key, .str (String.ofList (textOf s)))], more)
      else none := by
  have colon : expect 0x3A (0x3A :: (Golang.quote s ++ rest)) = some (Golang.quote s ++ rest) := rfl
  rw [readMembers, skipSpace_quote, readString_quote, textOf_asciiBytes low]
  simp only [Option.bind_eq_bind, Option.bind_some, colon, skipSpace_quote, readString_quote,
    String.ofList_toList, after]

/-- The members that an agent sends. -/
def reportMembers (taskId : String) (status : ReportStatus) (result : List UInt8) : List (String × Json) :=
  [("result", .str (String.ofList (textOf result))), ("status", .str status.text), ("task_id", .str taskId)]

theorem reportBody_eq :
    reportBody taskId status result = 0x7B :: (Golang.quote (asciiBytes "result") ++ 0x3A :: (Golang.quote result ++
    0x2C :: (Golang.quote (asciiBytes "status") ++ 0x3A :: (Golang.quote (asciiBytes status.text) ++
      0x2C :: (Golang.quote (asciiBytes "task_id") ++ 0x3A :: (Golang.quote (asciiBytes taskId) ++ [0x7D])))))) := by
  have first : asciiBytes "\x7b\"result\":" = 0x7B :: (Golang.quote (asciiBytes "result") ++ [0x3A]) := by decide
  have second : asciiBytes ",\"status\":" = 0x2C :: (Golang.quote (asciiBytes "status") ++ [0x3A]) := by decide
  have third : asciiBytes ",\"task_id\":" = 0x2C :: (Golang.quote (asciiBytes "task_id") ++ [0x3A]) := by decide
  have last : asciiBytes "\x7d" = [0x7D] := by decide
  simp only [reportBody, first, second, third, last, List.cons_append, List.append_assoc, List.nil_append]

theorem readMembers_comma {fuel : Nat} {key : String} (low : ∀ c ∈ key.toList, c.toNat < 0x80) :
    readMembers (fuel + 1) (Golang.quote (asciiBytes key) ++ 0x3A :: (Golang.quote s ++ 0x2C :: rest)) =
      (readMembers fuel rest).map fun (members, rest) => ((key, .str (String.ofList (textOf s))) :: members, rest) := by
  have after : skipSpace (0x2C :: rest) = 0x2C :: rest := rfl
  rw [readMembers_quote low after]
  exact if_pos rfl

theorem readMembers_brace {fuel : Nat} {key : String} (low : ∀ c ∈ key.toList, c.toNat < 0x80) :
    readMembers (fuel + 1) (Golang.quote (asciiBytes key) ++ 0x3A :: (Golang.quote s ++ [0x7D])) =
      some ([(key, .str (String.ofList (textOf s)))], []) := by
  have after : skipSpace [0x7D] = [0x7D] := rfl
  rw [readMembers_quote low after, if_neg (by decide)]
  exact if_pos rfl

theorem readObject_reportBody (low : ∀ c ∈ taskId.toList, c.toNat < 0x80) :
    readObject (reportBody taskId status result) = some (reportMembers taskId status result, []) := by
  have statusLow : ∀ c ∈ status.text.toList, c.toNat < 0x80 := by
    cases status with
    | completed => exact List.all_iff_forall_prop.mp (by decide)
    | failed => exact List.all_iff_forall_prop.mp (by decide)
  obtain ⟨fuel, enough⟩ : ∃ fuel, (reportBody taskId status result).length = fuel + 3 := by
    refine ⟨(reportBody taskId status result).length - 3, ?_⟩
    rw [reportBody_eq]
    simp only [List.length_cons, List.length_append]
    omega
  rw [readObject, enough, reportBody_eq]
  change readMembers (fuel + 2 + 1) _ = _
  rw [readMembers_comma (List.all_iff_forall_prop.mp (by decide)),
    readMembers_comma (List.all_iff_forall_prop.mp (by decide)),
    readMembers_brace (List.all_iff_forall_prop.mp (by decide)), textOf_asciiBytes statusLow,
    textOf_asciiBytes low]
  simp only [Option.map_some, String.ofList_toList, reportMembers]

theorem decodeReport_reportBody (low : ∀ c ∈ taskId.toList, c.toNat < 0x80) :
    decodeReport (reportBody taskId status result) = some ⟨taskId, status.text, String.ofList (textOf result)⟩ := by
  have taskIds : Json.names "result" "task_id" = false ∧ Json.names "status" "task_id" = false ∧
      Json.names "task_id" "task_id" = true := by
    decide
  have statuses : Json.names "result" "status" = false ∧ Json.names "status" "status" = true ∧
      Json.names "task_id" "status" = false := by
    decide
  have results : Json.names "result" "result" = true ∧ Json.names "status" "result" = false ∧
      Json.names "task_id" "result" = false := by
    decide
  unfold decodeReport
  rw [readObject_reportBody low]
  simp [Json.field, reportMembers, taskIds, statuses, results, Json.decodeString]

/-- A body that is cut off is not an object. -/
theorem decodeReport_take {n : Nat} (low : ∀ c ∈ taskId.toList, c.toNat < 0x80)
    (long : n < (reportBody taskId status result).length) :
    decodeReport ((reportBody taskId status result).take n) = none := by
  have cut : readObject ((reportBody taskId status result).take n) = none := by
    refine Option.eq_none_iff_forall_ne_some.mpr fun ⟨members, rest⟩ h => ?_
    have whole := readObject_extend h ((reportBody taskId status result).drop n)
    rw [List.take_append_drop, readObject_reportBody low] at whole
    have nothing := (List.append_eq_nil_iff.mp (Prod.mk.inj (Option.some.inj whole)).2.symm).2
    exact absurd (List.drop_eq_nil_iff.mp nothing) (Nat.not_le.mpr long)
  unfold decodeReport
  rw [cut]
  rfl

/-! ### What is recorded -/

/-- How many bytes of a body are not its result. -/
def reportOverhead (taskId : String) (status : ReportStatus) : Nat := (reportBody taskId status []).length

theorem length_reportBody : (reportBody taskId status result).length =
    escapedSize result + reportOverhead taskId status := by
  have empty : escapedSize [] = 0 := rfl
  simp only [reportOverhead, reportBody, List.length_append, length_quote, empty]
  omega

/-- The control plane accepts the report and records its status with its text. -/
def Recorded (p : Platform) (db : Db) (token : String) (id : Uuid) (status : ReportStatus)
    (result : List UInt8) : Prop :=
  receiveReport p db token (reportBody (p.uuidText id) status result) =
    (200, db.reportTaskResult p token id status (String.ofList (textOf result)))

variable {id : Uuid}

theorem reportStatusOf_text : reportStatusOf status.text = some status := by
  cases status with
  | completed => rfl
  | failed => rfl

/-- A task in processing is found by the text of its identifier. -/
theorem find_uuidText (own : ∀ t ∈ db.tasks, p.uuidText t.id = p.uuidText id → t.id = id)
    (accepted : db.accepts p token id = true) :
    ∃ t, db.tasks.find? (fun t => p.uuidText t.id = p.uuidText id) = some t ∧ t.id = id := by
  obtain ⟨t, mem, owner⟩ := List.any_eq_true.mp accepted
  obtain ⟨s, -, reportable_⟩ := List.any_eq_true.mp owner
  simp only [reportable, Bool.and_eq_true, decide_eq_true_eq] at reportable_
  have found : (db.tasks.find? fun t => p.uuidText t.id = p.uuidText id).isSome = true :=
    List.find?_isSome.mpr ⟨t, mem, decide_eq_true (congrArg p.uuidText reportable_.2.1.1)⟩
  obtain ⟨t', ht'⟩ := Option.isSome_iff_exists.mp found
  have text := List.find?_some ht'
  exact ⟨t', ht', own t' (List.mem_of_find?_eq_some ht') (by simpa using text)⟩

/-- The report of a task in processing is recorded when it is short enough and without a zero byte, and
otherwise not at all. -/
theorem receiveReport_reportBody (low : ∀ c ∈ (p.uuidText id).toList, c.toNat < 0x80)
    (own : ∀ t ∈ db.tasks, p.uuidText t.id = p.uuidText id → t.id = id) (accepted : db.accepts p token id = true) :
    (Recorded p db token id status result ↔ 0 ∉ result ∧ escapedSize result + reportOverhead (p.uuidText id) status ≤
      maxReportBody) ∧
      (¬Recorded p db token id status result →
        (receiveReport p db token (reportBody (p.uuidText id) status result)).2 = db) := by
  unfold Recorded receiveReport
  rw [← length_reportBody]
  by_cases short : (reportBody (p.uuidText id) status result).length ≤ maxReportBody
  · rw [List.take_of_length_le short, decodeReport_reportBody low]
    simp only [reportStatusOf_text, String.toList_ofList, nul_mem_textOf]
    by_cases nul : 0 ∈ result
    · simp [nul]
    · obtain ⟨t, found, same⟩ := find_uuidText own accepted
      simp [nul, short, found, same, accepted]
  · rw [decodeReport_take low (Nat.not_le.mp short)]
    simp [short]

/-! ### Every task -/

/-- What it prints is limited before it is reported. -/
def Host.AgentTaskType.limited : AgentTaskType → Bool
  | .scriptRun | .known .logRead => true
  | _ => false

theorem length_limitTaskOutput {output : Bytes} {limit : Int} (positive : 0 < limit) (most : limit ≤ 20000) :
    (limitTaskOutput output limit).length ≤ 20015 := by
  have truncated : (textBytes "\n...[truncated]").length = 15 := by decide
  unfold limitTaskOutput
  split
  · rename_i fits
    rcases fits with h | h
    · omega
    · omega
  · rw [List.length_append, List.length_take, truncated]
    omega

theorem length_limitedResult {printed : Bytes × Option Bytes} {limit : Int} (positive : 0 < limit)
    (most : limit ≤ 20000) :
    (limitedResult limit printed).2.length ≤ 20015 := by
  obtain ⟨out, e⟩ := printed
  cases e with
  | none => exact length_limitTaskOutput positive most
  | some e => exact length_limitTaskOutput positive most

theorem parseTaskOutputLimit_bounds {raw : String} :
    0 < parseTaskOutputLimit raw 12000 1024 20000 ∧ parseTaskOutputLimit raw 12000 1024 20000 ≤ 20000 := by
  unfold parseTaskOutputLimit
  split
  · decide
  · split
    · decide
    · split
      · decide
      · omega

/-- A script or a log is always short enough. -/
theorem fits_of_limited {h : Surroundings} {type : AgentTaskType} {payload : String → String}
    (limited : type.limited = true)
    (short : taskId.length ≤ 36) :
    escapedSize (taskResult h type payload).2 + reportOverhead taskId (taskResult h type payload).1 ≤
      maxReportBody := by
  have length : (taskResult h type payload).2.length ≤ 20015 := by
    cases type with
    | unknown name => cases limited
    | scriptRun => exact length_limitedResult parseTaskOutputLimit_bounds.1 parseTaskOutputLimit_bounds.2
    | known type =>
      cases type with
      | logRead => exact length_limitedResult (show (0 : Int) < 20000 by decide) (by decide)
      | _ => cases limited
  have escaped := escapedSize_le (s := (taskResult h type payload).2)
  have idSize := escapedSize_le (s := asciiBytes taskId)
  have idLength : (asciiBytes taskId).length = taskId.length := by simp [asciiBytes, String.length_toList]
  have overhead : reportOverhead taskId (taskResult h type payload).1 ≤ 60 + escapedSize (asciiBytes taskId) := by
    have parts : (asciiBytes "\x7b\"result\":").length = 10 ∧ (asciiBytes ",\"status\":").length = 10 ∧
        (asciiBytes ",\"task_id\":").length = 11 ∧ (asciiBytes "\x7d").length = 1 ∧ escapedSize [] = 0 := by decide
    have status : ∀ status : ReportStatus, escapedSize (asciiBytes status.text) ≤ 9 := by
      rintro (_ | _) <;> decide
    have := status (taskResult h type payload).1
    simp only [reportOverhead, reportBody, List.length_append, length_quote, parts]
    omega
  unfold maxReportBody
  omega

/-- The result of a task in processing is recorded exactly when its text has no zero byte and, unless it is of
    a script or a log, its escaped text leaves room for the rest of the body; otherwise the task stays as it
    is until it times out. -/
theorem report_delivered_iff (h : Surroundings) (type : AgentTaskType) (raw : Json)
    (low : ∀ c ∈ (p.uuidText id).toList, c.toNat < 0x80) (short : (p.uuidText id).length ≤ 36)
    (own : ∀ t ∈ db.tasks, p.uuidText t.id = p.uuidText id → t.id = id) (accepted : db.accepts p token id = true) :
    (Recorded p db token id (taskResult h type (taskPayload h raw)).1 (taskResult h type (taskPayload h raw)).2 ↔
      0 ∉ (taskResult h type (taskPayload h raw)).2 ∧ (type.limited = false →
        escapedSize (taskResult h type (taskPayload h raw)).2 + reportOverhead (p.uuidText id)
        (taskResult h type (taskPayload h raw)).1 ≤
          maxReportBody)) ∧
      (¬Recorded p db token id (taskResult h type (taskPayload h raw)).1 (taskResult h type (taskPayload h raw)).2 →
        (receiveReport p db token (reportBody (p.uuidText id) (taskResult h type (taskPayload h raw)).1
          (taskResult h type (taskPayload h raw)).2)).2 = db) := by
  obtain ⟨recorded, unrecorded⟩ := receiveReport_reportBody low own accepted
  refine ⟨recorded.trans (and_congr_right fun _ => ?_), unrecorded⟩
  cases limited : type.limited with
  | true => exact iff_of_true (fits_of_limited limited short) fun h => nomatch h
  | false => exact ⟨fun fits _ => fits, fun fits => fits rfl⟩

/-! ### The logs of a container -/

/-- A Linux host on which every command prints the same. -/
def printing (output : Bytes) : Surroundings where
  goos := "linux"
  run _ := (output, none)
  start _ := .ok output
  isFile _ := true
  inspect _ := asciiBytes "null"
  control _ _ := ([], none)
  prepareUpdate := none
  prepareUninstall := none
  deadlineExceeded := false
  lower text := text
  quote text := text
  sprint _ := ""
  beyondInt64 _ := -2 ^ 63

/-- The logs of a container are being read. -/
def readingLogs : Db where
  now := 1
  servers := [linuxServer]
  tasks := [{ ServerTask.inserted 0 1 .dockerLogs [("container_id", "web")] none none 60 hour 5 with
    status := .processing, startedAt := some 0 }]

/-- The payload of a task that reads the logs of a container. -/
def container : Json := .obj [("container_id", .str "web")]

theorem own_readingLogs : ∀ t ∈ readingLogs.tasks, plainPlatform.uuidText t.id = plainPlatform.uuidText 5 →
    t.id = 5 := by
  intro t ht _
  rw [List.mem_singleton.mp ht]
  rfl

theorem report_delivered_iff_ready :
    Recorded plainPlatform readingLogs "agent-token" 5 .completed (asciiBytes "ready") :=
  (report_delivered_iff (printing (asciiBytes "ready")) (.known .dockerLogs) container
    (List.all_iff_forall_prop.mp (by decide)) (by decide) own_readingLogs
    (by decide)).1.mpr ⟨by decide, fun _ => by decide⟩

/-- A container has printed a zero byte. -/
theorem zero_byte_unrecorded :
    ¬∀ (p : Platform) (db : Db) (token : String) (id : Uuid) (h : Surroundings) (type : AgentTaskType) (raw : Json),
    (∀ c ∈ (p.uuidText id).toList, c.toNat < 0x80) → (p.uuidText id).length ≤ 36 →
      (∀ t ∈ db.tasks, p.uuidText t.id = p.uuidText id → t.id = id) → db.accepts p token id = true →
        Recorded p db token id (taskResult h type (taskPayload h raw)).1 (taskResult h type (taskPayload h raw)).2 := by
  intro claim
  have recorded := claim plainPlatform readingLogs "agent-token" 5 (printing [0]) (.known .dockerLogs) container
    (List.all_iff_forall_prop.mp (by decide)) (by decide) own_readingLogs (by decide)
  have whole := ((receiveReport_reportBody (List.all_iff_forall_prop.mp (by decide)) own_readingLogs
    (by decide)).1.mp recorded).1
  exact absurd whole (by decide)

end DatrixOps
