import DatrixOps.Postgres.Prog
import DatrixOps.Server.UpdateTarget

/-! The status that the update job publishes: what it finds online of the server's releases, beside the agent's. -/

namespace DatrixOps
namespace Scheduler
open Golang Release

/-! ### The release of the server -/

/-- The value of a line `DATRIXOPS_VERSION=..`. -/
def envVersion (rawLine : List Char) : Option String :=
  let line := trimSpace rawLine
  if "DATRIXOPS_VERSION=".toList <+: line then
    some (String.ofList (trimSpace (trim "\" '".toList (trimPrefix "DATRIXOPS_VERSION=".toList line))))
  else none

/-- The version in `version.json`, when it decodes. -/
def decodedVersion (payload : Json) : Option String :=
  Json.decodeStruct "" (fun fields => Json.field "version" Json.decodeString "" fields) payload

/-- fetchRemoteServerVersion, whose error is the empty text, by what `version.json` and `.env.example` answer. -/
def fetchRemoteServerVersion (versionJSON : Option Json) (env : Option String) : String :=
  match ((versionJSON.bind decodedVersion).map trimmed).filter (· ≠ "") with
  | some v => v
  | none => (env.bind fun body => (split '\n' body.toList).findSome? envVersion).getD ""

/-! ### The status -/

structure Config where
  agentVersion : String
  datrixopsVersion : String
  deploymentMode : String
  edition : String

structure UpdateStatus where
  currentVersion : String
  latestVersion : String
  latestAgentVersion : String
  updateAvailable : Bool
  agentUpdateAvailable : Bool
  lastCheckedAt : Postgres.Time
  upgradeScriptURL : String
  managed : Bool
  deriving DecidableEq

/-- A check: its time, what the server's sources answer, and what the agent's do. -/
structure Check where
  now : Postgres.Time
  versionJSON : Option Json
  env : Option String
  agent : Sources

section
variable (cfg : Config)

def currentAgentVersion : String := trimmed cfg.agentVersion

def currentServerVersion : String :=
  if trimmed cfg.datrixopsVersion = "" then currentAgentVersion cfg else trimmed cfg.datrixopsVersion

def isManaged : Bool := cfg.deploymentMode = "managed" ∨ cfg.edition = "cloud"

/-- The status of a new job. -/
def newUpdateJob (now : Postgres.Time) : UpdateStatus where
  currentVersion := currentServerVersion cfg
  latestVersion := currentServerVersion cfg
  latestAgentVersion := currentAgentVersion cfg
  updateAvailable := false
  agentUpdateAvailable := false
  lastCheckedAt := now
  upgradeScriptURL :=
    if isManaged cfg then "" else "https://raw.githubusercontent.com/luuvandien2604/DatrixOps/main/deploy/upgrade.sh"
  managed := isManaged cfg

/-- What is published of the server's version. -/
def publishServer (latestServerVer : String) (status : UpdateStatus) : UpdateStatus :=
  if latestServerVer = "" then status
  else { status with
    latestVersion := latestServerVer
    updateAvailable := compareSemVer latestServerVer (currentServerVersion cfg) = .gt }

/-- What is published of the agent's version. A flag that is set stays set. -/
def publishAgent (latestAgentVer : String) (status : UpdateStatus) : UpdateStatus :=
  if latestAgentVer = "" then status
  else { status with
    latestAgentVersion := latestAgentVer
    agentUpdateAvailable := compareSemVer latestAgentVer (currentAgentVersion cfg) = .gt ∨ status.agentUpdateAvailable }

/-- UpdateJob.run -/
def run (status : UpdateStatus) (check : Check) : UpdateStatus :=
  publishAgent cfg (fetchRemoteAgentVersion check.agent)
    (publishServer cfg (fetchRemoteServerVersion check.versionJSON check.env)
      { status with lastCheckedAt := check.now })

end

/-! ### The agent's version -/

variable {cfg : Config} {status : UpdateStatus} {latest : String}

@[simp] theorem publishServer_latestAgentVersion :
    (publishServer cfg latest status).latestAgentVersion = status.latestAgentVersion := by
  unfold publishServer
  split <;> rfl

@[simp] theorem publishServer_agentUpdateAvailable :
    (publishServer cfg latest status).agentUpdateAvailable = status.agentUpdateAvailable := by
  unfold publishServer
  split <;> rfl

end Scheduler
end DatrixOps
