import Mathlib.Data.List.DropRight
import DatrixOps.Server.Handlers
import DatrixOps.Server.Uninstall

/-! Which version the control plane wants agents to run, and the statements of a heartbeat that depend on it.
    The version wanted is configured, or a newer one that was discovered online. -/

namespace DatrixOps
open Postgres Golang

/-- The fields of the agent handler. -/
structure AgentApi where
  desiredAgentVersion : String
  agentReleaseURL : String
  agentReleaseLayout : String

namespace AgentApi

/-- NewHandler -/
def newHandler (desiredAgentVersion agentReleaseURL agentReleaseLayout : String) : AgentApi where
  desiredAgentVersion := desiredAgentVersion
  agentReleaseURL := String.ofList ((trimSpace agentReleaseURL.toList).rdropWhile (· = '/'))
  agentReleaseLayout := String.ofList (trimSpace agentReleaseLayout.toList)

/-- GetDesiredAgentVersion, `latestOnline` being the newest version that the scheduler has discovered. -/
def getDesiredAgentVersion (h : AgentApi) (latestOnline : String) : String :=
  if latestOnline ≠ "" ∧ compareAgentVersions latestOnline h.desiredAgentVersion ≠ .lt then latestOnline
  else h.desiredAgentVersion

/-- What a heartbeat queues an automatic update with. -/
def release (h : AgentApi) (latestOnline : String) : AgentRelease where
  desired := h.getDesiredAgentVersion latestOnline
  configured := String.ofList (trimSpace h.desiredAgentVersion.toList)
  payload := [("target_version", String.ofList (trimSpace (h.getDesiredAgentVersion latestOnline).toList)),
    ("release_base_url", h.agentReleaseURL), ("release_layout", h.agentReleaseLayout), ("trigger", "automatic")]

end AgentApi

/-- The `target_version` of a task. -/
def ServerTask.target (t : ServerTask) : Option String := t.payload.text "target_version"

/-- A heartbeat as far as updates go: the process that serves it, what it has discovered, the server found and
    the version reported. -/
structure Beat where
  api : AgentApi
  latestOnline : String
  serverId : Uuid
  version : String

namespace Beat

def desired (b : Beat) : String := b.api.getDesiredAgentVersion b.latestOnline

/-- The version reported and the version wanted are known and compare so. -/
def compares (b : Beat) (order : Ordering) : Bool :=
  b.version ≠ "" && b.desired ≠ "" && compareAgentVersions b.version b.desired = order

/-- `updateAvailable`, for an agent that may be updated automatically -/
def queues (b : Beat) : Bool := b.compares .lt && compareAgentVersions b.version minimumAutomaticUpdateVersion ≠ .lt

end Beat

/-! ### Runs -/

/-- The statements that a heartbeat sends or not by the version reported. -/
def Op.byVersion : Op → Bool
  | .confirmAgentUpdate .. | .queueAutomaticUpdate .. => true
  | _ => false

/-- One statement of a handler. A heartbeat's statements may have those of others in between. -/
inductive UpdateEvent where
  | confirm (beat : Beat)
  | queue (beat : Beat) (taskId : Uuid)
  | setAgentAutoUpdate (id userId : Uuid) (enabled : Bool)
  | other (op : Op) (plain : op.byVersion = false)

/-- The tables with their history: the updates that an agent has reported as staged, and the automatic updates
queued. -/
structure Updates where
  db : Db
  staged : List Uuid
  queued : List ServerTask

namespace Db

/-- The agent reports the desired version, so a running update is complete. -/
def confirm (db : Db) (b : Beat) : Db :=
  if b.compares .eq then db.updateTasks (confirmAgentUpdate db.now b.serverId b.version) else db

def queue (db : Db) (b : Beat) (taskId : Uuid) : Db :=
  if b.queues then
    db.queueAutomaticUpdate b.serverId (b.api.release b.latestOnline).payload
      (b.api.release b.latestOnline).configured taskId
  else db

def setAgentAutoUpdate (db : Db) (id userId : Uuid) (enabled : Bool) : Db :=
  if db.servers.any fun s => s.id = id && s.userId = userId then
    let set := db.updateServers (setAutoUpdate db.now id userId enabled)
    if enabled then set else set.updateTasks (expireAutomaticUpdates db.now id)
  else db

/-- The report is of an update in processing, which it says is staged. -/
def stages (p : Platform) (db : Db) : Op → Option Uuid
  | .reportTaskResult agentToken taskId .completed _ =>
    if db.tasks.any fun t => t.type = .agentUpdate && db.servers.any fun s =>
        s.ownsToken agentToken (p.sha256Hex agentToken) && reportable taskId s.id t then some taskId
    else none
  | _ => none

end Db

namespace UpdateEvent

def run (p : Platform) (db : Db) : UpdateEvent → Db
  | .confirm beat => db.confirm beat
  | .queue beat taskId => db.queue beat taskId
  | .setAgentAutoUpdate id userId enabled => db.setAgentAutoUpdate id userId enabled
  | .other op _ => db.step p op

def stages (p : Platform) (db : Db) : UpdateEvent → Option Uuid
  | .other op _ => db.stages p op
  | _ => none

/-- The automatic update that the statement inserts. -/
def queued (db : Db) : UpdateEvent → Option ServerTask
  | .queue beat taskId => (db.queue beat taskId).tasks[db.tasks.length]?
  | _ => none

end UpdateEvent

def Updates.step (p : Platform) (u : Updates) (e : UpdateEvent) : Updates where
  db := e.run p u.db
  staged := (e.stages p u.db).toList ++ u.staged
  queued := (e.queued u.db).toList ++ u.queued

def updateMachine (p : Platform) : Machine Updates UpdateEvent := ⟨Updates.step p⟩

/-- A run begins with what the tables hold. -/
def Updates.start (db : Db) : Updates := ⟨db, [], []⟩

end DatrixOps
