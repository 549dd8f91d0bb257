import DatrixOps.Host.Tasks
import DatrixOps.Server.Uninstall

/-! A task on an agent beside the control plane. Between two calls of the agent the control plane may do
    anything, and a report may not get there, or its answer may not come back. -/

namespace DatrixOps
open Postgres

/-- The control plane records a report: the task is in processing, of a server that the token is of. -/
def Db.accepts (p : Platform) (db : Db) (token : String) (taskId : Uuid) : Bool :=
  db.tasks.any fun t => db.servers.any fun s => s.ownsToken token (p.sha256Hex token) && reportable taskId s.id t

/-- The statement records that the task is completed, while it is in processing. -/
def Db.records (p : Platform) (db : Db) (taskId : Uuid) : Op → Bool
  | .reportTaskResult token id .completed _ => id = taskId && db.accepts p token id
  | _ => false

namespace Host

/-- What an agent is and works on. -/
structure Assignment where
  platform : Platform
  runtime : Release.Runtime
  token : String
  task : Task

/-- The control plane and the host, and whether the task's completion has been recorded while it was in processing. -/
structure Acting where
  db : Db
  host : State
  recorded : Bool

/-- What happens up to a call of the agent: the control plane's statements, what the host and the network
    choose for the call, and whether a report arrives. -/
structure Turn where
  before : List Op
  choice : Choice
  arrives : Bool

namespace Acting
variable (w : Assignment)

def control (a : Acting) (op : Op) : Acting :=
  { a with db := a.db.step w.platform op, recorded := a.recorded || a.db.records w.platform w.task.id op }

def controls (a : Acting) (ops : List Op) : Acting := ops.foldl (control w) a

/-- ReportTaskResult: an error unless the control plane records the report and its answer comes back. -/
def report (a : Acting) (turn : Turn) (taskId : Uuid) (status : ReportStatus) (result : String) :
    Except String Unit × Acting :=
  if turn.arrives then
    (if a.db.accepts w.platform w.token taskId then
      match turn.choice.error with
      | some error => .error error
      | none => .ok ()
    else .error "unexpected status code: 404", a.control w (.reportTaskResult w.token taskId status result))
  else (.error (turn.choice.error.getD "do request"), a)

def answer (c : Call) (turn : Turn) (a : Acting) : c.Reply × Acting :=
  match c with
  | .report taskId status result => (a.controls w turn.before).report w turn taskId status result
  | c => (State.answer c turn.choice a.host).map id fun host => { a.controls w turn.before with host := host }

end Acting

def acting (w : Assignment) : System Call Call.Reply Turn Acting := ⟨Acting.answer w⟩

/-- A run of processTask. -/
def process (w : Assignment) (turns : Nat → Turn) (db : Db) (host : State) : Acting :=
  ((acting w).run (processTask w.runtime w.task) turns ⟨db, host, false⟩).2

end Host
end DatrixOps
