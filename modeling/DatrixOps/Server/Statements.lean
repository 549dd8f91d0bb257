import DatrixOps.Server.Rows
import DatrixOps.Golang.Strings

/-! The SQL statements of the task and uninstall handlers, each under the name of what it does. `now` is
    the `NOW()` of the transaction. -/

namespace DatrixOps
open Postgres

/-- What the program takes from outside: the hash of credentials and tokens, how Go and the database
    lower-case text, and the text of an identifier (`id::text`). -/
structure Platform where
  sha256Hex : String → String
  toLower : Golang.CaseMap
  sqlLower : Golang.CaseMap
  uuidText : Uuid → String

/-! ### Heartbeat -/

/-- What an agent sends: its token and what the handler stores of its report. -/
structure HeartbeatRequest where
  agentToken : String
  version : String
  osInfo : Jsonb
  publicIP : String

/-- `UPDATE servers SET status = 'online', .. WHERE agent_token = $2 OR agent_token_hash = $6` -/
def markOnline (now : Time) (req : HeartbeatRequest) (agentTokenHash : String) : Update Server where
  where_ s := s.ownsToken req.agentToken agentTokenHash
  set s := { s with
    online := true
    osInfo := some req.osInfo
    ipAddress := if req.publicIP = "" then s.ipAddress else some req.publicIP
    bootstrapCompletedAt := some (s.bootstrapCompletedAt.getD now)
    bootstrapRollbackTokenHash := none
    bootstrapRollbackExpiresAt := none
    lastSeenAt := some now
    updatedAt := now }

/-- A task that ends: its status, what it says, and when. -/
def ServerTask.finish (t : ServerTask) (now : Time) (status : TaskStatus) (result : Option String) : ServerTask :=
  { t with status := status, result := result, completedAt := some now, updatedAt := now }

/-- The agent reports the desired version, so a running update is complete. -/
def confirmAgentUpdate (now : Time) (serverId : Uuid) (version : String) : Update ServerTask where
  where_ t := t.serverId = serverId && t.type = .agentUpdate && t.status = .processing
  set t := t.finish now .completed (some ("Agent heartbeat confirmed the new version: " ++ version))

/-- Expire tasks that were never claimed before their deadline. -/
def expireTasks (now : Time) (serverId : Uuid) : Update ServerTask where
  where_ t := t.serverId = serverId && t.status = .pending && t.overdue now
  set t := t.finish now .expired t.result

def timeOutTasks (now : Time) (serverId : Uuid) : Update ServerTask where
  where_ t := t.serverId = serverId && t.status = .processing && t.overran now
  set t := t.finish now .timedOut t.result

/-- The `WHERE` of the CTE `claimable`. -/
def claimable (now : Time) (serverId : Uuid) (t : ServerTask) : Bool :=
  t.serverId = serverId && t.status = .pending && !t.overdue now

/-- `ORDER BY CASE WHEN type = 'agent_uninstall' THEN 0 ELSE 1 END, created_at` -/
def claimOrder (a b : ServerTask) : Bool :=
  let rank (t : ServerTask) : Nat := if t.type = .agentUninstall then 0 else 1
  rank a < rank b || (rank a = rank b && a.createdAt ≤ b.createdAt)

def claimLimit : Nat := 5

/-- `UPDATE server_tasks AS task SET status = 'processing', .. FROM claimable WHERE task.id = claimable.id` -/
def startTasks (now : Time) (claimed : List Uuid) : Update ServerTask where
  where_ t := t.id ∈ claimed
  set t := { t with status := .processing, startedAt := some now, updatedAt := now }

/-- The automatic update of a server: whether `INSERT .. SELECT` finds the server, and no recent update. -/
def wantsAutomaticUpdate (now : Time) (serverId : Uuid) (targetVersion : String) (servers : List Server)
    (tasks : List ServerTask) : Bool :=
  servers.any (fun s => s.id = serverId && s.autoUpdateAgent && s.deletionStatus = .active) &&
    !tasks.any fun recent => recent.serverId = serverId && recent.type = .agentUpdate &&
      (recent.live || (recent.payload.text "target_version" = some targetVersion && now - hour ≤ recent.createdAt))

/-- A row of `INSERT INTO server_tasks`, with the defaults of the other columns. -/
def ServerTask.inserted (now : Time) (serverId : Uuid) (type : TaskType) (payload : Jsonb) (requestedBy : Option Uuid)
    (idempotencyKey : Option String) (timeoutSeconds : Int) (lifetime : Time) (id : Uuid) : ServerTask where
  id := id
  serverId := serverId
  type := type
  payload := payload
  status := .pending
  result := none
  requestedBy := requestedBy
  idempotencyKey := idempotencyKey
  timeoutSeconds := timeoutSeconds
  createdAt := now
  updatedAt := now
  startedAt := none
  completedAt := none
  expiresAt := some (now + lifetime)

/-! ### ReportTaskResult -/

/-- The statuses a report or a confirmation may carry. -/
inductive ReportStatus where
  | completed | failed
  deriving DecidableEq, Repr

def ReportStatus.toTask : ReportStatus → TaskStatus
  | .completed => .completed
  | .failed => .failed

/-- The task of a report: in processing, and of the server `owner` that the token belongs to. -/
def reportable (taskId owner : Uuid) (t : ServerTask) : Bool :=
  t.id = taskId && t.status = .processing && t.serverId = owner

/-- An agent update reported complete stays in processing until a heartbeat confirms it. -/
def recordTaskResult (now : Time) (status : ReportStatus) (result : String) (t : ServerTask) : ServerTask :=
  let waits := t.type = .agentUpdate ∧ status = .completed
  { t with
    status := if waits then .processing else status.toTask
    result := some result
    completedAt := if waits then none else some now
    updatedAt := now }

def beginUninstalling (now : Time) (serverId : Uuid) : Update Server where
  where_ s := s.id = serverId
  set s := { s with deletionStatus := .uninstalling, deletionError := none, updatedAt := now }

/-- A server whose uninstall ends without success. -/
def Server.failUninstall (s : Server) (now : Time) (error : Option String) : Server :=
  { s with
    deletionStatus := .failed
    deletionError := error
    uninstallTokenHash := none
    uninstallTokenExpiresAt := none
    updatedAt := now }

def failUninstall (now : Time) (serverId : Uuid) (error : Option String) : Update Server where
  where_ s := s.id = serverId
  set s := s.failUninstall now error

/-! ### ConfirmUninstall -/

structure ConfirmUninstallRequest where
  serverId : Uuid
  taskId : Uuid
  token : String
  status : ReportStatus
  error : String

/-- The server of a confirmation: the token is its unexpired one-time token and an uninstall is on. -/
def confirmableServer (now : Time) (req : ConfirmUninstallRequest) (tokenHash : String) (s : Server) : Bool :=
  s.id = req.serverId && s.uninstallTokenHash = some tokenHash && s.uninstallTokenExpiresAt.any (now < ·) && s.deleting

def confirmableTask (req : ConfirmUninstallRequest) (t : ServerTask) : Bool :=
  t.id = req.taskId && t.type = .agentUninstall && t.serverId = req.serverId

/-- The task of a failed confirmation, whatever its status was. -/
def failUninstallTask (now : Time) (taskId : Uuid) (error : String) : Update ServerTask where
  where_ t := t.id = taskId
  set t := t.finish now .failed (some error)

/-- `NULLIF(text, '')` -/
def nullIfEmpty (text : String) : Option String := if text = "" then none else some text

/-! ### CancelTask and CreateTask -/

def cancelOne (now : Time) (taskId serverId : Uuid) : Update ServerTask where
  where_ t := t.id = taskId && t.serverId = serverId && t.live
  set t := t.finish now .cancelled (some "Task cancelled by administrator")

/-- Cancel any pending or processing agent_update task for this server. -/
def cancelUpdates (now : Time) (serverId : Uuid) : Update ServerTask where
  where_ t := t.serverId = serverId && t.type = .agentUpdate && t.live
  set t := t.finish now .cancelled (some "Update task cancelled by administrator")

def expireStaleUpdates (now : Time) (serverId : Uuid) : Update ServerTask where
  where_ t := t.serverId = serverId && t.type = .agentUpdate && t.status = .pending &&
    (t.overdue now || t.createdAt ≤ now - 15 * minute)
  set t := t.finish now .expired (some "Stale update task expired")

def timeOutStaleUpdates (now : Time) (serverId : Uuid) : Update ServerTask where
  where_ t := t.serverId = serverId && t.type = .agentUpdate && t.status = .processing && t.overran now
  set t := t.finish now .timedOut (some "Update task timed out")

def allowedTaskTypes : List TaskType :=
  [.dockerStart, .dockerStop, .dockerRestart, .dockerLogs, .serviceStart, .serviceStop, .serviceRestart,
    .serviceReload, .agentUpdate, .agentRestart, .vpsReboot, .logRead]

/-- A request for a task, its payload already normalised. -/
structure CreateTaskRequest where
  type : TaskType
  payload : Jsonb
  idempotencyKey : String
  timeoutSeconds : Int

/-- The timeout in seconds that a request asks for, 60 when it leaves it out. -/
def CreateTaskRequest.timeout (req : CreateTaskRequest) : Int :=
  if req.timeoutSeconds = 0 then 60 else req.timeoutSeconds

/-- The checks of `CreateTask` on the request alone. -/
def CreateTaskRequest.valid (req : CreateTaskRequest) : Bool :=
  req.type ∈ allowedTaskTypes && (10 ≤ req.timeout && req.timeout ≤ 900) && req.idempotencyKey.utf8ByteSize ≤ 120

/-- The timeout stored: a log read is capped at two minutes. -/
def CreateTaskRequest.storedTimeout (req : CreateTaskRequest) : Int :=
  if req.type = .logRead ∧ 120 < req.timeout then 120 else req.timeout

/-! ### SetAgentAutoUpdate -/

def setAutoUpdate (now : Time) (id userId : Uuid) (enabled : Bool) : Update Server where
  where_ s := s.id = id && s.userId = userId
  set s := { s with autoUpdateAgent := enabled, updatedAt := now }

/-- Disabling the policy expires only automatic tasks that have not yet been claimed. -/
def expireAutomaticUpdates (now : Time) (id : Uuid) : Update ServerTask where
  where_ t := t.serverId = id && t.type = .agentUpdate && t.status = .pending &&
    t.payload.text "trigger" = some "automatic"
  set t := t.finish now .expired (some "Automatic Agent updates were disabled before this task was claimed.")

/-! ### RequestAgentUninstall -/

/-- isLinuxOSIdentity accepts both modern os_family=linux heartbeats and older Linux distro names that
    may only be present in os_name. -/
def isLinuxOSIdentity (p : Platform) (identity : List Char) : Bool :=
  let identity := p.toLower.toLower (Golang.trimSpace identity)
  identity = "linux".toList ||
    ["ubuntu", "debian", "centos", "rocky", "alma", "fedora", "alpine", "linux"].any fun marker =>
      Golang.contains identity marker.toList

/-- `LOWER(COALESCE(os_info->>'os_family', os_info->>'os_name', ''))` -/
def osIdentity (p : Platform) (s : Server) : List Char :=
  let info := s.osInfo.getD []
  p.sqlLower.toLower (((info.text "os_family").or (info.text "os_name")).getD "").toList

/-- Why an uninstall is not queued. -/
inductive UninstallError where
  | serverNotFound | agentOffline | unsupportedAgentOS | agentUninstallUnsupported | deletionInProgress
  deriving DecidableEq, Repr

/-- The checks on the locked server row, in order. -/
def uninstallRefusal (p : Platform) (now : Time) (s : Server) : Option UninstallError :=
  if !s.lastSeenAt.any (now - minute ≤ ·) then some .agentOffline
  else if !isLinuxOSIdentity p (osIdentity p s) then some .unsupportedAgentOS
  else if ((s.osInfo.getD []).text "remote_uninstall_supported").getD "false" ≠ "true" then
    some .agentUninstallUnsupported
  else if s.deleting then some .deletionInProgress
  else none

def owned (id userId : Uuid) (s : Server) : Bool := s.id = id && s.userId = userId

def markDeletionPending (now : Time) (id userId : Uuid) (tokenHash : String) : Update Server where
  where_ := owned id userId
  set s := { s with
    deletionStatus := .pending
    deletionRequestedAt := some now
    deletionError := none
    uninstallTokenHash := some tokenHash
    uninstallTokenExpiresAt := some (now + 15 * minute)
    updatedAt := now }

/-- Do not let non-destructive pending work run before an approved uninstall. -/
def expireQueued (now : Time) (id : Uuid) : Update ServerTask where
  where_ t := t.serverId = id && t.status = .pending
  set t := t.finish now .expired (some "Expired because Agent uninstall was requested.")

def uninstallTask (now : Time) (id userId : Uuid) (payload : Jsonb) : Uuid → ServerTask :=
  .inserted now id .agentUninstall payload (some userId) none 300 (15 * minute)

/-! ### ExpireStaleAgentUninstalls -/

/-- An uninstall task that was not claimed, or not finished, in time. -/
def staleUninstall (now : Time) (t : ServerTask) : Bool :=
  t.type = .agentUninstall &&
    ((t.status = .pending && t.overdue now) || (t.status = .processing && t.overran now))

def endStaleUninstall (now : Time) (t : ServerTask) : ServerTask :=
  t.finish now (if t.status = .pending then .expired else .timedOut) t.result

/-- The CTE `stale_tasks`, restricted to the tasks of the servers `ids`. -/
def expireStaleTasks (now : Time) (ids : List Uuid) : Update ServerTask where
  where_ t := t.serverId ∈ ids && staleUninstall now t
  set := endStaleUninstall now

def failStaleServers (now : Time) (ids : List Uuid) : Update Server where
  where_ s := s.id ∈ ids
  set s := s.failUninstall now (some "Agent uninstall task expired or timed out before completion.")

def expireConfirmations (now : Time) (userId : Uuid) : Update Server where
  where_ s := s.userId = userId && s.deletionStatus = .uninstalling && s.uninstallTokenExpiresAt.any (· ≤ now)
  set s := s.failUninstall now (some "Agent uninstall confirmation expired. The Agent may require manual cleanup.")

/-! ### A platform and a server to try things on -/

/-- A platform for examples: the hash is the identity and only ASCII has case. -/
def plainPlatform : Platform := ⟨id, .asciiOnly, .asciiOnly, toString⟩

/-- A Linux server of user 7, online at time 0. -/
def linuxServer : Server where
  id := 1
  userId := 7
  name := "web-1"
  agentToken := some "agent-token"
  agentTokenHash := none
  online := true
  ipAddress := none
  osInfo := some [("os_family", "linux"), ("remote_uninstall_supported", "true")]
  enrolledAt := some 0
  bootstrapCompletedAt := some 0
  bootstrapRollbackTokenHash := none
  bootstrapRollbackExpiresAt := none
  autoUpdateAgent := false
  lastSeenAt := some 0
  updatedAt := 0
  deletionStatus := .active
  deletionRequestedAt := none
  deletionError := none
  uninstallTokenHash := none
  uninstallTokenExpiresAt := none

end DatrixOps
