import DatrixOps.Machine
import DatrixOps.Server.Statements
import DatrixOps.Release.Version

/-! The uninstall state machine: the two tables, a clock, and the transactions of the handlers as
    actions. A handler is the sequence of its transactions, so the runs of actions are the
    interleavings of the handlers at the granularity of transactions. -/

namespace DatrixOps
open Postgres

structure Db where
  now : Time
  servers : List Server
  tasks : List ServerTask

namespace Db

/-- `INSERT INTO server_tasks`: none when the server is gone, the key is taken or a unique index
    refuses the row. -/
def insertTask (db : Db) (row : Uuid → ServerTask) (id : Uuid) : Option Db :=
  if db.servers.any (fun s => s.id = (row id).serverId) &&
    db.tasks.all (fun t => t.id ≠ id && !(row id).conflicts t) then
    some { db with tasks := db.tasks ++ [row id] }
  else none

def updateTasks (db : Db) (u : Update ServerTask) : Db := { db with tasks := u.run db.tasks }

def updateServers (db : Db) (u : Update Server) : Db := { db with servers := u.run db.servers }

/-- RequestAgentUninstall: the checks on the locked row, the server marked, its queue expired and the
    task queued; nothing when the insert fails. -/
def requestAgentUninstall (p : Platform) (db : Db) (id userId : Uuid) (taskPayload : Jsonb) (tokenHash : String)
    (taskId : Uuid) : Db :=
  match db.servers.find? (owned id userId) with
  | none => db
  | some s =>
    if (uninstallRefusal p db.now s).isSome then db
    else
      let marked := db.updateServers (markDeletionPending db.now id userId tokenHash)
      let expired := marked.updateTasks (expireQueued db.now id)
      (expired.insertTask (uninstallTask db.now id userId taskPayload) taskId).getD db

/-- Claim the next tasks of a server. -/
def claimTasks (db : Db) (serverId : Uuid) : Db :=
  let claimed := (((db.tasks.filter (claimable db.now serverId)).mergeSort claimOrder).take claimLimit).map (·.id)
  db.updateTasks (startTasks db.now claimed)

/-- ReportTaskResult of an agent that presents `agentToken`. -/
def reportTaskResult (p : Platform) (db : Db) (agentToken : String) (taskId : Uuid) (status : ReportStatus)
    (result : String) : Db :=
  let reported (t : ServerTask) : Bool := db.servers.any fun s =>
    s.ownsToken agentToken (p.sha256Hex agentToken) && reportable taskId s.id t
  match db.tasks.find? reported with
  | none => db
  | some task =>
    let recorded := db.updateTasks { where_ := reported, set := recordTaskResult db.now status result }
    if task.type = .agentUninstall then
      match status with
      | .completed => recorded.updateServers (beginUninstalling db.now task.serverId)
      | .failed => recorded.updateServers (failUninstall db.now task.serverId (some result))
    else recorded

/-- ConfirmUninstall: the one-time token deletes the server with its tasks, or records the failure. -/
def confirmUninstall (p : Platform) (db : Db) (req : ConfirmUninstallRequest) : Db :=
  if db.servers.any (confirmableServer db.now req (p.sha256Hex req.token)) && db.tasks.any (confirmableTask req) then
    match req.status with
    | .completed => { db with
        servers := db.servers.filter (·.id ≠ req.serverId)
        tasks := db.tasks.filter (·.serverId ≠ req.serverId) }
    | .failed =>
      (db.updateServers (failUninstall db.now req.serverId (nullIfEmpty req.error))).updateTasks
        (failUninstallTask db.now req.taskId req.error)
  else db

/-- The insert of CreateTask; `ON CONFLICT DO NOTHING` leaves the tables as they are. -/
def createTask (db : Db) (serverId userId : Uuid) (req : CreateTaskRequest) (taskId : Uuid) : Db :=
  if req.valid then
    (db.insertTask (.inserted db.now serverId req.type req.payload (some userId) (nullIfEmpty req.idempotencyKey)
      req.storedTimeout (24 * hour)) taskId).getD db
  else db

/-- The heartbeat's `INSERT .. SELECT` of an automatic update. -/
def queueAutomaticUpdate (db : Db) (serverId : Uuid) (payload : Jsonb) (targetVersion : String) (taskId : Uuid) : Db :=
  if wantsAutomaticUpdate db.now serverId targetVersion db.servers db.tasks then
    (db.insertTask (.inserted db.now serverId .agentUpdate payload none none 300 (24 * hour)) taskId).getD db
  else db

/-- The servers of a user. -/
def serversOf (db : Db) (userId : Uuid) : List Uuid := (db.servers.filter (·.userId = userId)).map (·.id)

/-- ExpireStaleAgentUninstalls: stale tasks end and fail their servers, and so do confirmations that
    never came. -/
def expireStaleAgentUninstalls (db : Db) (userId : Uuid) : Db :=
  let stale := expireStaleTasks db.now (db.serversOf userId)
  let ended := (stale.returning db.tasks).map (·.serverId)
  ((db.updateTasks stale).updateServers (failStaleServers db.now ended)).updateServers
    (expireConfirmations db.now userId)

end Db

/-- The transactions of the handlers, and the clock. -/
inductive Op where
  | tick (elapsed : Nat)
  | requestAgentUninstall (id userId : Uuid) (taskPayload : Jsonb) (tokenHash : String) (taskId : Uuid)
  -- Heartbeat, statement by statement
  | markOnline (req : HeartbeatRequest)
  | confirmAgentUpdate (serverId : Uuid) (version : String)
  | queueAutomaticUpdate (serverId : Uuid) (payload : Jsonb) (targetVersion : String) (taskId : Uuid)
  | expireTasks (serverId : Uuid)
  | timeOutTasks (serverId : Uuid)
  | claimTasks (serverId : Uuid)
  -- the agent's callbacks
  | reportTaskResult (agentToken : String) (taskId : Uuid) (status : ReportStatus) (result : String)
  | confirmUninstall (req : ConfirmUninstallRequest)
  -- the dashboard
  | cancelTask (taskId serverId : Uuid)
  | cancelUpdates (serverId : Uuid)
  | expireStaleUpdates (serverId : Uuid)
  | timeOutStaleUpdates (serverId : Uuid)
  | createTask (serverId userId : Uuid) (req : CreateTaskRequest) (taskId : Uuid)
  | expireStaleAgentUninstalls (userId : Uuid)

def Db.step (p : Platform) (db : Db) : Op → Db
  | .tick elapsed => { db with now := db.now + elapsed }
  | .requestAgentUninstall id userId payload hash taskId => db.requestAgentUninstall p id userId payload hash taskId
  | .markOnline req => db.updateServers (DatrixOps.markOnline db.now req (p.sha256Hex req.agentToken))
  | .confirmAgentUpdate serverId version => db.updateTasks (DatrixOps.confirmAgentUpdate db.now serverId version)
  | .queueAutomaticUpdate serverId payload version taskId => db.queueAutomaticUpdate serverId payload version taskId
  | .expireTasks serverId => db.updateTasks (DatrixOps.expireTasks db.now serverId)
  | .timeOutTasks serverId => db.updateTasks (DatrixOps.timeOutTasks db.now serverId)
  | .claimTasks serverId => db.claimTasks serverId
  | .reportTaskResult token taskId status result => db.reportTaskResult p token taskId status result
  | .confirmUninstall req => db.confirmUninstall p req
  | .cancelTask taskId serverId => db.updateTasks (cancelOne db.now taskId serverId)
  | .cancelUpdates serverId => db.updateTasks (DatrixOps.cancelUpdates db.now serverId)
  | .expireStaleUpdates serverId => db.updateTasks (DatrixOps.expireStaleUpdates db.now serverId)
  | .timeOutStaleUpdates serverId => db.updateTasks (DatrixOps.timeOutStaleUpdates db.now serverId)
  | .createTask serverId userId req taskId => db.createTask serverId userId req taskId
  | .expireStaleAgentUninstalls userId => db.expireStaleAgentUninstalls userId

def uninstallMachine (p : Platform) : Machine Db Op := ⟨Db.step p⟩

end DatrixOps
