import DatrixOps.Golang.Json
import DatrixOps.Golang.JsonValue
import DatrixOps.Host.Acting
import DatrixOps.Host.Output

/-! The report of a task's result on its way: the body that the agent sends, and how ReportTaskResult reads it. -/

namespace DatrixOps
open Postgres Golang Host

/-! ### The agent -/

def ReportStatus.text : ReportStatus → String
  | .completed => "completed"
  | .failed => "failed"

/-- `json.Marshal` of the map that the agent reports, its keys in order. -/
def reportBody (taskId : String) (status : ReportStatus) (result : List UInt8) : List UInt8 :=
  asciiBytes "\x7b\"result\":" ++ (Golang.quote result ++
    (asciiBytes ",\"status\":" ++ (Golang.quote (asciiBytes status.text) ++
    (asciiBytes ",\"task_id\":" ++ (Golang.quote (asciiBytes taskId) ++ asciiBytes "\x7d")))))

/-! ### The control plane -/


/-- The members of an object whose values are strings, from after its opening brace, and what follows it. -/
def readMembers : Nat → List UInt8 → Option (List (String × Json) × List UInt8)
  | 0, _ => none
  | fuel + 1, s => do
    let (key, s) ← readString (skipSpace s)
    let s ← expect 0x3A s
    let (value, s) ← readString (skipSpace s)
    let member := (String.ofList key, Json.str (String.ofList value))
    match skipSpace s with
    | [] => none
    | c :: rest =>
      if c = 0x2C then (readMembers fuel rest).map fun (members, rest) => (member :: members, rest)
      else if c = 0x7D then some ([member], rest)
      else none

/-- An object of strings, as agents send it; what follows it is not read. -/
def readObject (s : List UInt8) : Option (List (String × Json) × List UInt8) :=
  (expect 0x7B s).bind (readMembers s.length)

structure ReportTaskRequest where
  taskId : String
  status : String
  result : String
  deriving DecidableEq

def decodeReport (body : List UInt8) : Option ReportTaskRequest := do
  let (fields, _) ← readObject body
  let taskId ← Json.field "task_id" Json.decodeString "" fields
  let status ← Json.field "status" Json.decodeString "" fields
  let result ← Json.field "result" Json.decodeString "" fields
  return ⟨taskId, status, result⟩

def reportStatusOf (status : String) : Option ReportStatus :=
  if status = "completed" then some .completed else if status = "failed" then some .failed else none

/-- `512 << 10` -/
def maxReportBody : Nat := 512 * 1024

/-- ReportTaskResult: the status of its answer, and what it leaves. No more than the limit is read of a body,
    and a text with U+0000 cannot be stored. -/
def receiveReport (p : Platform) (db : Db) (token : String) (body : List UInt8) : Nat × Db :=
  match decodeReport (body.take maxReportBody) with
  | none => (400, db)
  | some req =>
    match reportStatusOf req.status with
    | none => (400, db)
    | some status =>
      if '\x00' ∈ req.result.toList then (404, db)
      else match db.tasks.find? fun t => p.uuidText t.id = req.taskId with
        | none => (404, db)
        | some t => if db.accepts p token t.id then (200, db.reportTaskResult p token t.id status req.result)
          else (404, db)

end DatrixOps
