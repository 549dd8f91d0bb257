import DatrixOps.Machine
import DatrixOps.Host.Acting

/-! The task workers of an agent, side by side. They take tasks from one queue, into which the heartbeats put
    what they claim, and they share the host and the control plane. The statements of the control plane and
    the calls of the workers interleave. -/

namespace DatrixOps
open Postgres

/-- The tasks that a heartbeat claims. -/
def Db.claimed (db : Db) (serverId : Uuid) : List ServerTask :=
  ((db.tasks.filter (claimable db.now serverId)).mergeSort claimOrder).take claimLimit

namespace Host

/-- A task as it is sent to the agent. -/
def Task.sent (t : ServerTask) : Task := ⟨t.id, t.type, fun field => (t.payload.text field).getD ""⟩

/-- A worker prepares its task, or has done so. Of an update it is kept whether the size of the staged file
    has been checked and the file has not been renamed since. -/
inductive Stage where
  | preparing (rest : Program Work) (checked : Bool)
  | concluding (rest : Program Unit)

structure Worker where
  task : Task
  stage : Stage

/-- An agent and the server it is the agent of. -/
structure Installation where
  platform : Platform
  runtime : Release.Runtime
  token : String
  serverId : Uuid

structure Crew where
  db : Db
  host : State
  queue : List Task
  workers : List (Option Worker)

/-- What may happen next: a statement of the control plane; a heartbeat's last statement, whose answer
    arrives; an idle worker takes a task; a worker goes on, with what the host chooses for its call and
    whether its report arrives; the process ends. -/
inductive Move where
  | control (op : Op)
  | heartbeat
  | take (i : Nat)
  | work (i : Nat) (choice : Choice) (arrives : Bool)
  | exit

/-- Whether a staged file is checked and not yet renamed, after a call. -/
def Call.checks : Call → Bool → Bool
  | .mark .sized, _ => true
  | .rename .., _ => false
  | _, checked => checked

/-- The call by which the agent's process ends. -/
def Call.leaves : Call → Bool
  | .restart => true
  | _ => false

def workerCount : Nat := 4

namespace Crew
variable (a : Installation)

/-- What a call of a worker returns and does. -/
def answer (crew : Crew) (task : Task) (c : Call) (choice : Choice) (arrives : Bool) : c.Reply × Crew :=
  let done := Acting.answer ⟨a.platform, a.runtime, a.token, task⟩ c ⟨[], choice, arrives⟩ ⟨crew.db, crew.host, false⟩
  (done.1, { crew with db := done.2.db, host := done.2.host })

def put (crew : Crew) (i : Nat) (worker : Option Worker) : Crew := { crew with workers := crew.workers.set i worker }

/-- The service manager starts the agent again. -/
def exit (crew : Crew) : Crew := { crew with queue := [], workers := List.replicate workerCount none }

def heartbeat (crew : Crew) : Crew :=
  { crew with
    db := crew.db.claimTasks a.serverId
    queue := crew.queue ++ (crew.db.claimed a.serverId).map Task.sent }

def take (crew : Crew) (i : Nat) : Crew :=
  match crew.workers[i]?, crew.queue with
  | some none, task :: rest => { crew with queue := rest }.put i
    (some ⟨task, .preparing (prepareTask a.runtime task) false⟩)
  | _, _ => crew

def work (crew : Crew) (i : Nat) (choice : Choice) (arrives : Bool) : Crew :=
  match crew.workers[i]? with
  | some (some ⟨task, .preparing (.done work) _⟩) => crew.put i (some ⟨task, .concluding (concludeTask task work)⟩)
  | some (some ⟨task, .preparing (.call c next) checked⟩) =>
    let done := crew.answer a task c choice arrives
    done.2.put i (some ⟨task, .preparing (next done.1) (c.checks checked)⟩)
  | some (some ⟨_, .concluding (.done _)⟩) => crew.put i none
  | some (some ⟨task, .concluding (.call c next)⟩) =>
    let done := crew.answer a task c choice arrives
    if c.leaves then done.2.exit else done.2.put i (some ⟨task, .concluding (next done.1)⟩)
  | _ => crew

def step (crew : Crew) : Move → Crew
  | .control op => { crew with db := crew.db.step a.platform op }
  | .heartbeat => crew.heartbeat a
  | .take i => crew.take a i
  | .work i choice arrives => crew.work a i choice arrives
  | .exit => crew.exit

end Crew

def crewMachine (a : Installation) : Machine Crew Move := ⟨Crew.step a⟩

end Host
end DatrixOps
