import DatrixOps.Host.SelfUpdate

/-! The tasks of an agent that change the agent or its host: what is prepared, the report of it, and what is
    done only once the control plane has acknowledged the report. -/

namespace DatrixOps
namespace Host
open Posix Release

/-- A task as the agent receives it, its payload read as texts. -/
structure Task where
  id : Uuid
  type : TaskType
  payload : String → String

/-! ### Uninstall -/

def validateRequest (req : UninstallRequest) : Except String Unit := do
  if trimmed req.serverId = "" then throw "uninstall server_id is required"
  if trimmed req.taskId = "" then throw "uninstall task_id is required"
  if trimmed req.confirmUrl = "" then throw "uninstall confirm_url is required"
  if trimmed req.confirmToken = "" then throw "uninstall confirm_token is required"

/-- `io.Copy` of an installed file into one of the helper's, `written` bytes of which are copied. -/
def copyBetween (source destination : Nat) : Nat → Nat → Fallible Unit
  | 0, _ => throw "input/output error"
  | reads + 1, written => do
    let chunk : Bytes ← perform (.read .installed source written (32 * 1024))
    if chunk = [] then pure ()
    else do
      perform (.write .helpers destination written chunk)
      copyBetween source destination reads (written + chunk.length)

/-- An executable temporary clone. -/
def copyExecutable (sourcePath destinationPath : String) : Fallible Unit := do
  let source ← (openRead .installed sourcePath).wrap "open Agent executable"
  let destination : Nat ← (perform (.createNew .helpers destinationPath)).wrap "create uninstall helper"
  let copied ← observe (copyBetween source.file destination source.reads 0)
  let closed ← observe (perform (.close .helpers destination))
  discarding .helpers destinationPath do
    ofExcept (Release.wrap "copy uninstall helper" copied)
    ofExcept (Release.wrap "close uninstall helper" closed)

def writeRequestFile (rt : Runtime) (path : String) (req : UninstallRequest) : Fallible Unit :=
  (perform (.writeFile .helpers path (rt.marshal [("server_id", req.serverId), ("task_id", req.taskId),
    ("confirm_url", req.confirmUrl), ("confirm_token", req.confirmToken),
    ("executable_path", req.executablePath)]))).wrap
      "write uninstall request file"

def helperDirectory : String := "/usr/local/libexec/datrixops"

def helperPath (rt : Runtime) (stamp : Nat) : String :=
  helperDirectory ++ "/datrixops-agent-uninstall-" ++ toString rt.pid ++ "-" ++ toString stamp

/-- The helper's binary and its request file. No destructive action is performed here. -/
def preparePlatform (rt : Runtime) (req : UninstallRequest) : Fallible Prepared := do
  if rt.goos ≠ "linux" then throw "remote Agent uninstall is currently supported only on Linux"
  (perform .resolveExecutable).wrap "resolve Agent executable"
  let stamp : Nat ← perform .unixNano
  (perform .makeHelperDirectory).wrap "create uninstall helper directory"
  (perform .makeHelperDirectory).wrap "secure uninstall helper directory"
  copyExecutable rt.executablePath (helperPath rt stamp)
  let req := { req with executablePath := rt.executablePath }
  discarding .helpers (helperPath rt stamp) (writeRequestFile rt (helperPath rt stamp ++ ".json") req)
  return ⟨req, helperPath rt stamp, helperPath rt stamp ++ ".json"⟩

def prepareUninstall (rt : Runtime) (req : UninstallRequest) : Fallible Prepared := do
  ofExcept (validateRequest req)
  preparePlatform rt req

/-- Remove the helper's files. -/
def cleanup (prepared : Prepared) : Program Unit := do
  let _ ← Process.perform (.remove .helpers prepared.requestPath)
  let _ ← Process.perform (.remove .helpers prepared.helperPath)
  return ()

/-! ### processTask -/

/-- What is deferred until the control plane has acknowledged the task's result. -/
inductive PostAction where
  | none | update | restart | reboot
  | uninstall (prepared : Prepared)

/-- The status and the text to report, and what is to follow. -/
structure Work where
  status : ReportStatus
  result : String
  postAction : PostAction

/-- A preparation that failed is reported as such. -/
def workOf {α : Type} (context : String) (x : Fallible α) (prepared : α → Work) : Program Work := do
  match ← x.run with
  | .ok a => return prepared a
  | .error e => return ⟨.failed, context ++ e, .none⟩

/-- The commands of the other tasks are run outside. -/
def executeTask : Program Work := do
  match ← (perform .execute).run with
  | .ok (status, result) => return ⟨status, result, .none⟩
  | .error e => return ⟨.failed, e, .none⟩

def prepareTask (rt : Runtime) (task : Task) : Program Work :=
  match task.type with
  | .agentUpdate =>
    workOf "Unable to stage agent update: "
      (prepareAgentUpdate rt ⟨task.payload "target_version", task.payload "release_base_url",
          task.payload "release_layout"⟩) fun _ =>
        ⟨.completed, "Agent update staged; activation requested. Waiting for the new version heartbeat.", .update⟩
  | .agentUninstall =>
    workOf "Unable to prepare Agent uninstall: "
      (prepareUninstall rt ⟨task.payload "server_id", toString task.id, task.payload "confirm_url",
        task.payload "confirm_token", ""⟩)
      fun prepared => ⟨.completed, "Detached Agent uninstall helper prepared", .uninstall prepared⟩
  | .agentRestart => pure ⟨.completed, "Agent restart initiated", .restart⟩
  | .vpsReboot => pure ⟨.completed, "Reboot initiated", .reboot⟩
  | _ => executeTask

/-- What follows a report that was acknowledged. An updated agent leaves for the service manager to start the
new binary. -/
def act : PostAction → Program Unit
  | .none => pure ()
  | .update | .restart => do
    let _ ← Process.perform .restart
    return ()
  | .reboot => do
    let _ ← Process.perform .reboot
    return ()
  | .uninstall prepared => do
    match ← Process.perform (.launch prepared) with
    | .ok _ => return ()
    | .error e =>
      cleanup prepared
      let _ ← Process.perform (.confirm prepared.request .failed e)
      return ()

/-- What follows a report that was not. -/
def skip : PostAction → Program Unit
  | .uninstall prepared => cleanup prepared
  | _ => pure ()

/-- The report, and what follows it. -/
def concludeTask (task : Task) (work : Work) : Program Unit := do
  match ← Process.perform (.report task.id work.status work.result) with
  | .ok _ => act work.postAction
  | .error _ => skip work.postAction

def processTask (rt : Runtime) (task : Task) : Program Unit := do
  let work ← prepareTask rt task
  concludeTask task work

end Host
end DatrixOps
