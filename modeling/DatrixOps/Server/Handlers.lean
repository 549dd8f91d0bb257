import DatrixOps.Postgres.ReadCommitted
import DatrixOps.Server.Statements
import DatrixOps.Release.Version

/-! The task and uninstall handlers, command by command, for any number of them at once. A statement
    whose error the handler ignores asks the outside whether it fails. The foreign keys, which only
    rule out runs, are left out. -/

namespace DatrixOps
open Postgres Prog

/-- A task handed to the agent of `server`, as the claim left it. -/
structure Dispatch where
  server : Server
  task : ServerTask

inductive Response where
  | heartbeat (tasks : List ServerTask)
  | accepted
  | refused

abbrev Handler := Prog Uuid Row Dispatch Bool Response

/-- A statement whose failure the handler ignores. -/
def attempt (statement : Handler → Handler) (next : Handler) : Handler :=
  .ask fun fails => if fails then next else statement next

/-- One `UPDATE server_tasks`, committed by itself. -/
def updateTasks (u : Time → Update ServerTask) (next : Handler) : Handler :=
  .start fun now => update serverTasks (fun _ => u now) fun _ => .commit next

/-- `INSERT INTO server_tasks .. ON CONFLICT DO NOTHING`, committed by itself. -/
def insertTask (row : Time → Uuid → ServerTask) (next : Handler) : Handler :=
  .start fun now => .insert (fun id => some (.task (row now id)))
    (fun r => r.task?.any fun t => (row now 0).conflicts t) fun _ => .commit next

/-! ### Heartbeat -/

/-- What the control plane knows of agent releases: the version it wants agents to run, the configured
    one, and the payload of an automatic update. -/
structure AgentRelease where
  desired : String
  configured : String
  payload : Jsonb

def queueAutomaticUpdate (release : AgentRelease) (serverId : Uuid) (next : Handler) : Handler :=
  .start fun now => .scan fun snapshot =>
    if wantsAutomaticUpdate now serverId release.configured ((servers.rows snapshot).map Prod.snd)
        ((serverTasks.rows snapshot).map Prod.snd) then
      let row := ServerTask.inserted now serverId .agentUpdate release.payload none none 300 (24 * hour)
      .insert (fun id => some (.task (row id))) (fun r => r.task?.any fun t => (row 0).conflicts t)
        fun _ => .commit next
    else .commit next

/-- Atomically claim a small batch so concurrent heartbeats cannot dispatch the same command twice. -/
def claimTasks (server : Server) : Handler :=
  .start fun now =>
    selectForUpdate serverTasks (claimable now server.id) claimOrder true (some claimLimit) fun claimed =>
      update serverTasks (fun _ => startTasks now (claimed.map fun kt => kt.2.id)) fun started =>
        let tasks := started.map Prod.snd
        .emit (tasks.map (Dispatch.mk server)) (.commit (.answer (.heartbeat tasks)))

/-- The statements after the server has been marked online. -/
def serveTasks (req : HeartbeatRequest) (release : AgentRelease) (server : Server) : Handler :=
  let known := req.version ≠ "" ∧ release.desired ≠ ""
  let expire := attempt (updateTasks (expireTasks · server.id)) <|
    attempt (updateTasks (timeOutTasks · server.id)) <|
      .ask fun fails => if fails then .answer (.heartbeat []) else claimTasks server
  let queue :=
    if known ∧ compareAgentVersions req.version release.desired = .lt ∧
        compareAgentVersions req.version minimumAutomaticUpdateVersion ≠ .lt then
      attempt (queueAutomaticUpdate release server.id) expire
    else expire
  if known ∧ compareAgentVersions req.version release.desired = .eq then
    attempt (updateTasks (confirmAgentUpdate · server.id req.version)) queue
  else queue

/-- When the token is unknown but is the host's own monitor, the update is tried again once the host's
    record has been synchronised (a request of its own). -/
def heartbeat (p : Platform) (req : HeartbeatRequest) (release : AgentRelease) : Handler :=
  let mark (next : List (Uuid × Server) → Handler) : Handler :=
    .start fun now => update servers (fun _ => markOnline now req (p.sha256Hex req.agentToken)) fun marked =>
      .commit (next marked)
  mark fun
    | (_, server) :: _ => serveTasks req release server
    | [] => .ask fun selfMonitor =>
      if selfMonitor then mark fun
        | (_, server) :: _ => serveTasks req release server
        | [] => .answer .refused
      else .answer .refused

/-! ### ReportTaskResult and ConfirmUninstall -/

def reportTaskResult (p : Platform) (agentToken : String) (taskId : Uuid) (status : ReportStatus) (result : String) :
    Handler :=
  .start fun now =>
    update serverTasks (fun snapshot =>
      { where_ := fun t => (servers.rows snapshot).any fun s =>
          s.2.ownsToken agentToken (p.sha256Hex agentToken) && reportable taskId s.2.id t
        set := recordTaskResult now status result }) fun
    | [] => .rollback (.answer .refused)
    | (_, task) :: _ =>
      if task.type = .agentUninstall then
        update servers (fun _ => match status with
          | .completed => beginUninstalling now task.serverId
          | .failed => failUninstall now task.serverId (some result)) fun _ => .commit (.answer .accepted)
      else .commit (.answer .accepted)

/-- Delete the servers `ids`, and by cascade their tasks. -/
def deleteServers (ids : List Uuid) (next : Handler) : Handler :=
  delete servers (fun s => s.id ∈ ids) (delete serverTasks (fun t => t.serverId ∈ ids) next)

def confirmUninstall (p : Platform) (req : ConfirmUninstallRequest) : Handler :=
  .start fun now => .scan fun snapshot =>
    let isServer := confirmableServer now req (p.sha256Hex req.token)
    -- the join locks the server's row and the task's
    visit false none (on servers isServer some) ((matching servers isServer snapshot).map Prod.fst) []
        fun lockedServers =>
      visit false none (on serverTasks (confirmableTask req) some)
          ((matching serverTasks (confirmableTask req) snapshot).map Prod.fst) [] fun lockedTasks =>
        if lockedServers.isEmpty || lockedTasks.isEmpty then .rollback (.answer .refused)
        else match req.status with
          | .completed => deleteServers [req.serverId] (.commit (.answer .accepted))
          | .failed =>
            update servers (fun _ => failUninstall now req.serverId (nullIfEmpty req.error)) fun _ =>
              update serverTasks (fun _ => failUninstallTask now req.taskId req.error) fun _ =>
                .commit (.answer .accepted)

/-! ### The dashboard's handlers -/

/-- ExpireStaleAgentUninstalls, safe to call before every list/get operation. -/
def expireStaleAgentUninstalls (userId : Uuid) (next : Handler) : Handler :=
  .start fun now => .scan fun snapshot =>
    let ids := ((servers.rows snapshot).filter fun s => s.2.userId = userId).map fun s => s.2.id
    let stale := expireStaleTasks now ids
    visit false none (on serverTasks stale.where_ fun t => some (stale.set t))
        ((matching serverTasks stale.where_ snapshot).map Prod.fst) [] fun ended =>
      let failed := failStaleServers now ((serverTasks.rows ended).map fun t => t.2.serverId)
      visit false none (on servers failed.where_ fun s => some (failed.set s))
          ((matching servers failed.where_ snapshot).map Prod.fst) [] fun _ =>
        update servers (fun _ => expireConfirmations now userId) fun _ => .commit next

/-- GetServer: the sweep, then the server's row. -/
def getServer (id userId : Uuid) (next : Server → Handler) : Handler :=
  expireStaleAgentUninstalls userId <|
    select (fun _ snapshot => (servers.rows snapshot).find? fun s => owned id userId s.2) fun
      | some (_, server) => next server
      | none => .answer .refused

def expireStaleAgentUpdateTasks (serverId : Uuid) (next : Handler) : Handler :=
  attempt (updateTasks (expireStaleUpdates · serverId)) (attempt (updateTasks (timeOutStaleUpdates · serverId)) next)

/-- CancelTask of one task, or with no task named of the server's updates. -/
def cancelTask (userId serverId : Uuid) (taskId : Option Uuid) : Handler :=
  getServer serverId userId fun _ =>
    match taskId with
    | some taskId => updateTasks (cancelOne · taskId serverId) (.answer .accepted)
    | none => updateTasks (cancelUpdates · serverId) (.answer .accepted)

/-- CreateTask. Whether the server's inventory allows the task is asked outside. -/
def createTask (userId serverId : Uuid) (req : CreateTaskRequest) : Handler :=
  if req.valid then
    getServer serverId userId fun server =>
      if server.deleting then .answer .refused
      else .ask fun allowed =>
        if allowed then
          let queue := insertTask (fun now => .inserted now serverId req.type req.payload (some userId)
            (nullIfEmpty req.idempotencyKey) req.storedTimeout (24 * hour)) (.answer .accepted)
          if req.type = .agentUpdate then expireStaleAgentUpdateTasks serverId queue else queue
        else .answer .refused
  else .answer .refused

/-- The loop of UpdateAllAgents. Whether a server has an update available is asked outside. -/
def updateAgents (userId : Uuid) (payload : Jsonb) : List Server → Handler
  | [] => .answer .accepted
  | server :: rest =>
    if server.deleting then updateAgents userId payload rest
    else .ask fun updateAvailable =>
      if updateAvailable then
        expireStaleAgentUpdateTasks server.id <|
          insertTask (fun now => .inserted now server.id .agentUpdate payload (some userId) none 300 (24 * hour))
            (updateAgents userId payload rest)
      else updateAgents userId payload rest

def updateAllAgents (userId : Uuid) (payload : Jsonb) : Handler :=
  expireStaleAgentUninstalls userId <|
    select (fun _ snapshot => ((servers.rows snapshot).map Prod.snd).filter (·.userId = userId))
      (updateAgents userId payload)

def setAgentAutoUpdate (id userId : Uuid) (enabled : Bool) : Handler :=
  .start fun now => update servers (fun _ => setAutoUpdate now id userId enabled) fun
    | [] => .rollback (.answer .refused)
    | _ :: _ =>
      if enabled then .commit (.answer .accepted)
      else update serverTasks (fun _ => expireAutomaticUpdates now id) fun _ => .commit (.answer .accepted)

def requestAgentUninstall (p : Platform) (id userId : Uuid) (taskPayload : Jsonb) (tokenHash : String) : Handler :=
  .start fun now => selectForUpdate servers (owned id userId) (fun _ _ => true) false none fun
    | [] => .rollback (.answer .refused)
    | (_, server) :: _ =>
      if (uninstallRefusal p now server).isSome then .rollback (.answer .refused)
      else
        update servers (fun _ => markDeletionPending now id userId tokenHash) fun _ =>
          update serverTasks (fun _ => expireQueued now id) fun _ =>
            .insert (fun taskId => some (.task (uninstallTask now id userId taskPayload taskId)))
              (fun r => r.task?.any fun t => (uninstallTask now id userId taskPayload 0).conflicts t) fun
              | some _ => .commit (.answer .accepted)
              | none => .rollback (.answer .refused)

/-! ### The service -/

/-- The requests that touch tasks. The last two stand for every other handler that deletes servers or
    changes columns of theirs (force delete, enrollment, metadata, the host's own record). -/
inductive Request where
  | heartbeat (req : HeartbeatRequest) (release : AgentRelease)
  | reportTaskResult (agentToken : String) (taskId : Uuid) (status : ReportStatus) (result : String)
  | confirmUninstall (req : ConfirmUninstallRequest)
  | listServers (userId : Uuid)
  | cancelTask (userId serverId : Uuid) (taskId : Option Uuid)
  | createTask (userId serverId : Uuid) (req : CreateTaskRequest)
  | updateAllAgents (userId : Uuid) (payload : Jsonb)
  | setAgentAutoUpdate (id userId : Uuid) (enabled : Bool)
  | requestAgentUninstall (id userId : Uuid) (taskPayload : Jsonb) (tokenHash : String)
  | removeServers (which : Server → Bool)
  | editServers (which : Server → Bool) (edit : Server → Server)

def serve (p : Platform) : Request → Handler
  | .heartbeat req release => heartbeat p req release
  | .reportTaskResult token taskId status result => reportTaskResult p token taskId status result
  | .confirmUninstall req => confirmUninstall p req
  | .listServers userId => expireStaleAgentUninstalls userId (.answer .accepted)
  | .cancelTask userId serverId taskId => cancelTask userId serverId taskId
  | .createTask userId serverId req => createTask userId serverId req
  | .updateAllAgents userId payload => updateAllAgents userId payload
  | .setAgentAutoUpdate id userId enabled => setAgentAutoUpdate id userId enabled
  | .requestAgentUninstall id userId payload hash => requestAgentUninstall p id userId payload hash
  | .removeServers which =>
    .start fun _ => selectForUpdate servers which (fun _ _ => true) false none fun found =>
      deleteServers (found.map fun s => s.2.id) (.commit (.answer .accepted))
  | .editServers which edit =>
    .start fun _ => update servers (fun _ => { where_ := which, set := fun s => { edit s with id := s.id } }) fun _ =>
      .commit (.answer .accepted)

end DatrixOps
