import DatrixOps.Golang.Json
import DatrixOps.Host.Output
import DatrixOps.Server.Statements

/-! What CreateTask accepts of a request to read a log. -/

namespace DatrixOps
open Postgres Golang Host Release

structure LogReadTaskPayload where
  source : String
  unit : String
  grep : String
  since : String
  containerId : String
  lines : String
  deriving DecidableEq

/-- `json.Unmarshal` into the payload of a log_read task -/
def decodeLogRead : Json → Option LogReadTaskPayload :=
  Json.decodeStruct ⟨"", "", "", "", "", ""⟩ fun fields => do
    let source ← Json.field "source" Json.decodeString "" fields
    let unit ← Json.field "unit" Json.decodeString "" fields
    let grep ← Json.field "grep" Json.decodeString "" fields
    let since ← Json.field "since" Json.decodeString "" fields
    let containerId ← Json.field "container_id" Json.decodeString "" fields
    let lines ← Json.field "lines" Json.decodeString "" fields
    return ⟨source, unit, grep, since, containerId, lines⟩

/-- The family of the operating system that a server's agent reports, or the one that its name tells. -/
def osFamilyFromServer (p : Platform) (server : Server) : String :=
  match server.osInfo with
  | none => "unknown"
  | some info =>
    let family := p.toLower.toLower (trimSpace ((info.text "os_family").getD "").toList)
    if family ≠ [] then String.ofList family
    else
      let name := p.toLower.toLower ((info.text "os_name").getD "").toList
      if contains name "windows".toList then "windows"
      else if contains name "darwin".toList || contains name "mac".toList then "macos"
      else if contains name "linux".toList || contains name "ubuntu".toList ||
        contains name "debian".toList then "linux"
      else "unknown"

def logSources : List String := ["journal", "nginx_access", "nginx_error", "mysql_error", "docker"]

/-- The number of lines that is asked for. -/
def LogReadTaskPayload.lineCount (payload : LogReadTaskPayload) : Option Int := atoi (trimmed payload.lines).toList

def validateLogReadTask (p : Platform) (server : Server) (raw : Json) : Except String Unit := do
  if osFamilyFromServer p server ≠ "linux" then throw "read-only log viewer is currently supported only on Linux agents"
  match decodeLogRead raw with
  | none => throw "invalid log task payload"
  | some payload =>
    if payload.source ∉ logSources then throw "unsupported log source"
    if payload.source = "journal" ∧ trimmed payload.unit ≠ "" ∧
      !isServiceIdentifier payload.unit then throw "invalid journal unit"
    if payload.grep.utf8ByteSize > 200 then throw "grep filter must not exceed 200 characters"
    if payload.since.utf8ByteSize > 60 then throw "since filter must not exceed 60 characters"
    if payload.source = "docker" then
      if trimmed payload.containerId = "" then throw "container_id is required for Docker logs"
      if !isContainerIdentifier (trimmed payload.containerId) then throw "invalid container_id"
    if payload.lineCount.all fun lines => lines < 1 ∨ lines > 500 then throw "lines must be between 1 and 500"

end DatrixOps
