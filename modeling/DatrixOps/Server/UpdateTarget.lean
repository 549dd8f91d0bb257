import DatrixOps.Golang.Json
import DatrixOps.Release.Manifest
import DatrixOps.Server.AgentUpdate

/-! How the control plane discovers the newest agent release, and the payloads of the update tasks that name it. -/

namespace DatrixOps
open Golang Release

/-! ### UpdateJob -/

/-- What the three requests of fetchRemoteAgentVersion are answered with status 200: the releases, the version file and
    version.json. -/
structure Sources where
  releases : Option Json
  versionFile : Option String
  versionJSON : Option Json

/-- The version that the tag of a release is for, if any. -/
def tagVersion (tagName : String) : Option String :=
  let tag := trimSpace tagName.toList
  let ver :=
    if "agent-v".toList <+: tag then trimPrefix "agent-v".toList tag
    else if "agent-".toList <+: tag then trimPrefix "agent-".toList tag
    else []
  if ver ≠ [] ∧ (semverPattern ver).isSome then some (String.ofList ver) else none

/-- The tags of a listing that decodes. -/
def Sources.tagNames (s : Sources) : List String :=
  let decode := Json.decodeSlice (Json.decodeStruct "" fun fields =>
    Json.field "tag_name" Json.decodeString "" fields) []
  ((s.releases.bind decode).getD [])

def Sources.tagVersions (s : Sources) : List String := s.tagNames.filterMap tagVersion

/-- The greatest of the versions, the first of equal ones; none is the empty text. -/
def maxVersion (maxAgentVer : String) : List String → String
  | [] => maxAgentVer
  | ver :: rest => maxVersion (if maxAgentVer = "" ∨ compareSemVer ver maxAgentVer = .gt then ver else maxAgentVer) rest

/-- A text that the pattern accepts, trimmed. -/
def acceptedText (text : String) : Option String :=
  if (semverPattern (trimmed text).toList).isSome then some (trimmed text) else none

def Sources.fileVersion (s : Sources) : Option String := s.versionFile.bind acceptedText

def Sources.jsonVersion (s : Sources) : Option String := do
  let payload ← s.versionJSON
  let v ← Json.decodeStruct "" (fun fields => Json.field "agent_version" Json.decodeString "" fields) payload
  acceptedText v

/-- The loop over the tags of a listing. -/
def selectRelease (tags : List String) : String := maxVersion "" (tags.filterMap tagVersion)

theorem selectRelease_tagNames (s : Sources) : selectRelease s.tagNames = maxVersion "" s.tagVersions := rfl

/-- fetchRemoteAgentVersion, whose error is the empty text. -/
def fetchRemoteAgentVersion (s : Sources) : String :=
  let maxAgentVer := selectRelease s.tagNames
  if maxAgentVer ≠ "" then maxAgentVer
  else (s.fileVersion.or s.jsonVersion).getD ""

/-- The update job, as far as agents go. -/
structure UpdateJob where
  latestAgentVersion : String

/-- NewUpdateJob -/
def newUpdateJob (agentVersion : String) : UpdateJob := ⟨trimmed agentVersion⟩

def UpdateJob.run (j : UpdateJob) (s : Sources) : UpdateJob :=
  let latestAgentVer := fetchRemoteAgentVersion s
  if latestAgentVer ≠ "" then ⟨latestAgentVer⟩ else j

/-- GetLatestAgentVersion; where the job does not run there is none. -/
def getLatestAgentVersion (job : Option UpdateJob) : String := (job.map (·.latestAgentVersion)).getD ""

/-! ### Payloads -/

/-- The server package's Service. -/
structure ServerService where
  desiredAgentVersion : String
  publicURL : String
  agentReleaseURL : String
  agentReleaseLayout : String

namespace ServerService

/-- NewService -/
def newService (desiredAgentVersion publicURL agentReleaseURL agentReleaseLayout : String) : ServerService where
  desiredAgentVersion := trimmed desiredAgentVersion
  publicURL := trimSlashes (trimmed publicURL)
  agentReleaseURL := trimSlashes (trimmed agentReleaseURL)
  agentReleaseLayout := trimmed agentReleaseLayout

def getDesiredAgentVersion (svc : ServerService) (latestOnline : String) : String :=
  if latestOnline ≠ "" ∧ compareVersions latestOnline svc.desiredAgentVersion ≠ .lt then latestOnline
    else svc.desiredAgentVersion

end ServerService

/-- `payload[key] = value` of a map, whose keys `encoding/json` writes in one order anyway. -/
def setMember (key : String) (value : Json) (payload : List (String × Json)) : List (String × Json) :=
  payload.filter (·.1 ≠ key) ++ [(key, value)]

/-- The map that an object decodes into: the last member of a name counts. -/
def decodeMap (fields : List (String × Json)) : List (String × Json) :=
  fields.foldl (fun payload kv => setMember kv.1 kv.2 payload) []

/-- normalizedTaskPayload of an agent_update, whose raw payload is JSON or not. -/
def normalizedUpdatePayload (svc : ServerService) (latestOnline : String) (rawPayload : Option Json) :
    Except String (List (String × Json)) :=
  match rawPayload.bind (Json.decodeStruct [] fun fields => some (decodeMap fields)) with
  | none => throw "Payload must be valid JSON"
  | some payload =>
    let desiredAgentVer := svc.getDesiredAgentVersion latestOnline
    if trimmed desiredAgentVer = "" then pure payload
    else
      let payload := setMember "target_version" (.str (trimmed desiredAgentVer)) payload
      let releaseBase :=
        if svc.publicURL ≠ "" then trimSlashes svc.publicURL ++ "/api/v1/agent-releases" else svc.agentReleaseURL
      let payload := setMember "release_base_url" (.str releaseBase) payload
      if svc.agentReleaseLayout ≠ "" then pure (setMember "release_layout" (.str svc.agentReleaseLayout) payload)
        else pure payload

/-- What the control plane is configured with, as far as updates go. -/
structure UpdateConfig where
  agentVersion : String
  publicURL : String
  agentReleaseURL : String
  agentReleaseLayout : String

namespace UpdateConfig

def service (c : UpdateConfig) :
    ServerService := .newService c.agentVersion c.publicURL c.agentReleaseURL c.agentReleaseLayout

def api (c : UpdateConfig) : AgentApi := .newHandler c.agentVersion c.agentReleaseURL c.agentReleaseLayout

end UpdateConfig

/-- The target versions of the agent_update payloads that the control plane builds. -/
inductive Issued (c : UpdateConfig) (latestOnline : String) : Option Json → Prop
  | createTask (rawPayload : Option Json) (payload : List (String × Json))
      (normalized : normalizedUpdatePayload c.service latestOnline rawPayload = .ok payload) :
      Issued c latestOnline (payload.lookup "target_version")
  | updateAllAgents (payload : List (String × Json))
      (normalized : normalizedUpdatePayload c.service latestOnline (some (.obj [])) = .ok payload) :
      Issued c latestOnline (payload.lookup "target_version")
  | heartbeat (serverId : Uuid) (version : String)
    (queues : Beat.queues ⟨c.api, latestOnline, serverId, version⟩ = true) :
      Issued c latestOnline (((c.api.release latestOnline).payload.text "target_version").map Json.str)

end DatrixOps
