import DatrixOps.Postgres.Prog

/-! The `servers` and `server_tasks` tables: the columns the task and uninstall handlers read and
    write. Columns only shown to users are left out. -/

namespace DatrixOps
open Postgres

/-- A generated identifier. -/
abbrev Uuid := Nat

/-- A `jsonb` object as `->>` reads it: each key that is not null, with the text of its value. -/
abbrev Jsonb := List (String × String)

/-- `obj ->> key` -/
def Jsonb.text (obj : Jsonb) (key : String) : Option String := obj.lookup key

def second : Time := 1000000

def minute : Time := 60 * second

def hour : Time := 60 * minute

inductive TaskType where
  | dockerStart | dockerStop | dockerRestart | dockerLogs
  | serviceStart | serviceStop | serviceRestart | serviceReload
  | agentUpdate | agentRestart | vpsReboot | logRead
  | agentUninstall
  deriving DecidableEq, Repr

inductive TaskStatus where
  | pending | processing | completed | failed | expired | timedOut | cancelled
  deriving DecidableEq, Repr

inductive DeletionStatus where
  | active | pending | uninstalling | failed
  deriving DecidableEq, Repr

/-- A row of `server_tasks`. -/
structure ServerTask where
  id : Uuid
  serverId : Uuid
  type : TaskType
  payload : Jsonb
  status : TaskStatus
  result : Option String
  requestedBy : Option Uuid
  idempotencyKey : Option String
  timeoutSeconds : Int
  createdAt : Time
  updatedAt : Time
  startedAt : Option Time
  completedAt : Option Time
  expiresAt : Option Time
  deriving Repr

namespace ServerTask

/-- `status IN ('pending', 'processing')` -/
def live (t : ServerTask) : Bool := t.status = .pending || t.status = .processing

/-- A live task of type `agent_uninstall`: what the unique index
    `idx_server_tasks_active_agent_uninstall` allows one of per server. -/
def activeUninstall (t : ServerTask) : Bool := t.type = .agentUninstall && t.live

/-- What `idx_server_tasks_active_agent_update` allows one of per server. -/
def activeUpdate (t : ServerTask) : Bool := t.type = .agentUpdate && t.live

/-- `started_at + make_interval(secs => timeout_seconds) <= NOW()` -/
def overran (t : ServerTask) (now : Time) : Bool := t.startedAt.any fun at_ => at_ + t.timeoutSeconds * second ≤ now

/-- `expires_at <= NOW()` -/
def overdue (t : ServerTask) (now : Time) : Bool := t.expiresAt.any (· ≤ now)

/-- The unique indexes refuse `t` beside `new`. -/
def conflicts (new t : ServerTask) : Bool :=
  t.serverId = new.serverId &&
    ((t.idempotencyKey.isSome && t.idempotencyKey = new.idempotencyKey) ||
      (new.activeUpdate && t.activeUpdate) || (new.activeUninstall && t.activeUninstall))

end ServerTask

/-- A row of `servers`. -/
structure Server where
  id : Uuid
  userId : Uuid
  name : String
  agentToken : Option String
  agentTokenHash : Option String
  online : Bool
  ipAddress : Option String
  osInfo : Option Jsonb
  enrolledAt : Option Time
  bootstrapCompletedAt : Option Time
  bootstrapRollbackTokenHash : Option String
  bootstrapRollbackExpiresAt : Option Time
  autoUpdateAgent : Bool
  lastSeenAt : Option Time
  updatedAt : Time
  deletionStatus : DeletionStatus
  deletionRequestedAt : Option Time
  deletionError : Option String
  uninstallTokenHash : Option String
  uninstallTokenExpiresAt : Option Time
  deriving Repr

namespace Server

/-- `agent_token = $token OR agent_token_hash = $hash` -/
def ownsToken (s : Server) (token hash : String) : Bool := s.agentToken = some token || s.agentTokenHash = some hash

/-- `deletion_status IN ('pending', 'uninstalling')` -/
def deleting (s : Server) : Bool := s.deletionStatus = .pending || s.deletionStatus = .uninstalling

end Server

/-- A row of either table, for the interleaved semantics. -/
inductive Row where
  | server (s : Server)
  | task (t : ServerTask)
  deriving Repr

def Row.server? : Row → Option Server
  | .server s => some s
  | .task _ => none

def Row.task? : Row → Option ServerTask
  | .task t => some t
  | .server _ => none

def servers : Table Row Server where
  get := Row.server?
  put := .server
  get_put _ := rfl
  put_get r t h := by
    cases r with
    | server s => cases h; rfl
    | task _ => cases h

def serverTasks : Table Row ServerTask where
  get := Row.task?
  put := .task
  get_put _ := rfl
  put_get r t h := by
    cases r with
    | task s => cases h; rfl
    | server _ => cases h

@[simp] theorem servers_put (s : Server) : servers.put s = .server s := rfl

@[simp] theorem serverTasks_put (t : ServerTask) : serverTasks.put t = .task t := rfl

end DatrixOps
