import DatrixOps.Server.Handlers

/-! CreateTask with its answer: the id of the task it inserted or found. Its one statement inserts the task,
    giving way to a row that a unique index refuses beside it, and looks for rows of its own snapshot that
    stand for the request. -/

namespace DatrixOps
namespace TaskCreation
open Postgres Prog

/-- Why a request is refused. -/
inductive Refusal where
  | invalid | serverNotFound | deletionInProgress | notAllowed
  deriving DecidableEq, Repr

inductive Response where
  | created (id : Uuid) (status : TaskStatus)
  | refused (why : Refusal)
  /-- INTERNAL_ERROR: Failed to create task -/
  | failed
  /-- what the other requests answer -/
  | done
  deriving DecidableEq, Repr

abbrev Handler := Prog Uuid Row Empty Bool Response

/-! ### The statements before: GetServer, ExpireStaleAgentUpdateTasks -/

/-- A statement whose failure the handler ignores. -/
def attempt (statement : Handler → Handler) (next : Handler) : Handler :=
  .ask fun fails => if fails then next else statement next

/-- One `UPDATE server_tasks`, committed by itself. -/
def updateTasks (u : Time → Update ServerTask) (next : Handler) : Handler :=
  .start fun now => update serverTasks (fun _ => u now) fun _ => .commit next

def expireStaleAgentUninstalls (userId : Uuid) (next : Handler) : Handler :=
  .start fun now => .scan fun snapshot =>
    let ids := ((servers.rows snapshot).filter fun s => s.2.userId = userId).map fun s => s.2.id
    let stale := expireStaleTasks now ids
    visit false none (on serverTasks stale.where_ fun t => some (stale.set t))
        ((matching serverTasks stale.where_ snapshot).map Prod.fst) [] fun ended =>
      let failed := failStaleServers now ((serverTasks.rows ended).map fun t => t.2.serverId)
      visit false none (on servers failed.where_ fun s => some (failed.set s))
          ((matching servers failed.where_ snapshot).map Prod.fst) [] fun _ =>
        update servers (fun _ => expireConfirmations now userId) fun _ => .commit next

def getServer (id userId : Uuid) (next : Server → Handler) : Handler :=
  expireStaleAgentUninstalls userId <|
    select (fun _ snapshot => (servers.rows snapshot).find? fun s => owned id userId s.2) fun
      | some (_, server) => next server
      | none => .answer (.refused .serverNotFound)

def expireStaleAgentUpdateTasks (serverId : Uuid) (next : Handler) : Handler :=
  attempt (updateTasks (expireStaleUpdates · serverId)) (attempt (updateTasks (timeOutStaleUpdates · serverId)) next)

/-! ### CreateTask -/

/-- `LIMIT 1` of rows in no particular order. -/
def limitOne (none_ : Handler) (next : ServerTask → Handler) : List ServerTask → Handler
  | [] => none_
  | [t] => next t
  | t :: t' :: rest => .ask fun first => if first then next t else limitOne none_ next (t' :: rest)

/-- The row of the `INSERT`. -/
def newTask (now : Time) (userId serverId : Uuid) (req : CreateTaskRequest) : Uuid → ServerTask :=
  .inserted now serverId req.type req.payload (some userId)
    (nullIfEmpty req.idempotencyKey) req.storedTimeout (24 * hour)

/-- `ON CONFLICT`: the rows that the unique indexes refuse beside `task`. -/
def conflicting (task : ServerTask) (r : Row) : Bool := r.task?.any fun t => task.conflicts t

/-- The `WHERE` of the lookup: the tasks that stand for the request. -/
def existing (serverId : Uuid) (req : CreateTaskRequest) (t : ServerTask) : Bool :=
  t.serverId = serverId && (((nullIfEmpty req.idempotencyKey).isSome && t.idempotencyKey =
    nullIfEmpty req.idempotencyKey) ||
    (req.type = .agentUpdate && t.activeUpdate))

/-- The second half of the `UNION`, read in the snapshot of the whole statement. -/
def lookup (serverId : Uuid) (req : CreateTaskRequest) (snapshot : List (Uuid × Row)) : List ServerTask :=
  (matching serverTasks (existing serverId req) snapshot).map Prod.snd

/-- The statement that inserts the task or finds the one that stands for the request. -/
def insertOrFind (userId serverId : Uuid) (req : CreateTaskRequest) : Handler :=
  .start fun now => .scan fun snapshot =>
    let task := newTask now userId serverId req
    .insert (fun id => some (.task (task id))) (conflicting (task 0)) fun inserted =>
      .commit <| limitOne (.answer .failed) (fun t => .answer (.created t.id t.status))
        ((inserted.map task).toList ++ lookup serverId req snapshot)

/-- Whether the server's inventory and the enabled features allow the task is asked outside. -/
def createTask (userId serverId : Uuid) (req : CreateTaskRequest) : Handler :=
  if req.valid then
    getServer serverId userId fun server =>
      if server.deleting then .answer (.refused .deletionInProgress)
      else .ask fun allowed =>
        if allowed then
          if req.type = .agentUpdate then expireStaleAgentUpdateTasks serverId (insertOrFind userId serverId req)
          else insertOrFind userId serverId req
        else .answer (.refused .notAllowed)
  else .answer (.refused .invalid)

/-! ### The service -/

/-- A statement of another request. No statement gives a task another server, type or key, and only CreateTask
    inserts one with a key. -/
inductive Edit where
  | tasks (u : Time → List (Uuid × Row) → Update ServerTask)
  | servers (u : Time → List (Uuid × Row) → Update Server)
  | queue (serverId : Uuid) (type : TaskType) (payload : Jsonb) (requestedBy : Option Uuid) (timeoutSeconds : Int)
      (lifetime : Time)

/-- An update of tasks that leaves what no statement changes. -/
def retaining (u : Update ServerTask) : Update ServerTask where
  where_ := u.where_
  set t := { u.set t with id := t.id, serverId := t.serverId, type := t.type, idempotencyKey := t.idempotencyKey }

/-- The statements of one transaction, in order. -/
def perform (now : Time) : List Edit → Handler
  | [] => .commit (.answer .done)
  | .tasks u :: rest => update serverTasks (fun snapshot => retaining (u now snapshot)) fun _ => perform now rest
  | .servers u :: rest =>
    update DatrixOps.servers (fun snapshot => { where_ := (u now snapshot).where_
                                                set := fun s => { (u now snapshot).set s with id := s.id } }) fun _ =>
      perform now rest
  | .queue serverId type payload requestedBy timeoutSeconds lifetime :: rest =>
    let task := ServerTask.inserted now serverId type payload requestedBy none timeoutSeconds lifetime
    .insert (fun id => some (.task (task id))) (conflicting (task 0)) fun _ => perform now rest

/-- A CreateTask, or any other transaction on the two tables short of deleting a server. -/
inductive Request where
  | createTask (userId serverId : Uuid) (req : CreateTaskRequest)
  | transact (edits : List Edit)

def serve : Request → Handler
  | .createTask userId serverId req => createTask userId serverId req
  | .transact edits => .start fun now => perform now edits

end TaskCreation
end DatrixOps
