import DatrixOps.Host.Tasks
import DatrixOps.Server.Uninstall

/-! The uninstall helper beside the control plane. It removes the agent from its host and confirms that, with
    the one-time token of the task. Up to each of its calls the control plane may do anything and the agent
    writes its files as long as it runs; a confirmation may not get there, or its answer may not come back. -/

namespace DatrixOps
namespace Uninstall
open Postgres Host Release

def linuxServiceName : String := "datrixops-agent.service"
def linuxServiceFile : String := "/etc/systemd/system/datrixops-agent.service"
def linuxDropInDir : String := "/etc/systemd/system/datrixops-agent.service.d"

/-! ### The helper -/

/-- What the helper asks of its host and of the network. Removing what is not there is no failure. -/
inductive Call where
  | readFile (path : String)
  | remove (path : String)
  | removeAll (path : String)
  | sleep (seconds : Nat)
  | systemctl (args : List String)
  | post (req : UninstallRequest) (status : ReportStatus) (error : String)
  /-- A pause that the deadline of the confirmation may end. -/
  | pause (seconds : Nat)

/-- What a call returns when it succeeds: a request file what it decodes to, a request the status code and the
body of its answer. -/
def Call.Result : Call → Type
  | .readFile _ => Except String UninstallRequest
  | .post .. => Nat × String
  | .remove _ | .removeAll _ | .sleep _ | .systemctl _ | .pause _ => Unit

abbrev Call.Reply (c : Call) : Type := Except String c.Result

abbrev Program (α : Type) : Type := Process Call Call.Reply α

def ask (c : Call) : Program c.Reply := Process.perform c

/-- The failure of a step, which does not keep the later ones from being tried. -/
def failures : Except String Unit → List String
  | .ok _ => []
  | .error e => [e]

/-- One systemctl operation. Its error says which command failed. -/
def runSystemctl (args : List String) : Program (List String) := do
  let reply : Except String Unit ← ask (.systemctl args)
  return failures reply

def removeIfExists (path : String) : Program (List String) := do
  let reply : Except String Unit ← ask (.remove path)
  return failures (wrap ("remove " ++ path) reply)

/-- The loop over the files of the agent -/
def removeFiles : List String → Program (List String)
  | [] => return []
  | path :: paths => do
    if trimmed path = "" then removeFiles paths
    else do
      let failed ← removeIfExists path
      let others ← removeFiles paths
      return failed ++ others

def agentFiles (executablePath : String) : List String :=
  [linuxServiceFile, executablePath, executablePath ++ ".update", "/usr/local/bin/.datrixops-agent.update"]

/-- Stop and disable the service and remove the agent's files: the failures, in order. -/
def uninstallLinux (executablePath : String) : Program (List String) := do
  let disabled ← runSystemctl ["disable", linuxServiceName]
  let stopped ← runSystemctl ["stop", linuxServiceName]
  let removed ← removeFiles (agentFiles executablePath)
  let dropIn : Except String Unit ← ask (.removeAll linuxDropInDir)
  let reloaded ← runSystemctl ["daemon-reload"]
  let _ ← runSystemctl ["reset-failed", linuxServiceName]
  return disabled ++ stopped ++ removed ++ failures (wrap "remove systemd drop-in directory" dropIn) ++ reloaded

/-- The attempts that are left of five, and the last error. -/
def confirmAttempts (req : UninstallRequest) (status : ReportStatus) (error : String) :
    Nat → String → Program (Except String Unit)
  | 0, lastErr => return .error ("uninstall confirmation failed after retries: " ++ lastErr)
  | left + 1, _ => do
    let again (lastErr : String) : Program (Except String Unit) := do
      match (← ask (.pause (5 - left)) : Except String Unit) with
      | .error e => return .error ("uninstall confirmation canceled: " ++ e)
      | .ok _ => confirmAttempts req status error left lastErr
    match (← ask (.post req status error) : Except String (Nat × String)) with
    | .ok (code, body) =>
      if 200 ≤ code ∧ code < 300 then return .ok ()
      else again ("uninstall confirmation returned HTTP " ++ toString code ++ ": " ++ trimmed body)
    | .error e => again e

/-- The one-time callback, with bounded retries. -/
def confirmWithRetry (rt : Runtime) (req : UninstallRequest) (status : ReportStatus) (error : String) :
    Program (Except String Unit) :=
  match rt.parseURL req.confirmUrl with
  | .error e => return .error ("create uninstall confirmation request: " ++ e)
  | .ok _ => confirmAttempts req status error 5 ""

/-- What the helper returns, of the failures and the confirmation. -/
def outcome (failed : List String) (confirmed : Except String Unit) : Except String Unit :=
  let cleanupErr := "\n".intercalate failed
  match failed, confirmed with
  | [], .ok _ => .ok ()
  | [], .error e => .error ("confirm completed uninstall: " ++ e)
  | _ :: _, .ok _ => .error cleanupErr
  | _ :: _, .error e => .error ("uninstall failed: " ++ cleanupErr ++ "; confirmation failed: " ++ e)

/-- What the helper does with a request that it has read. -/
def uninstallAndConfirm (rt : Runtime) (req : UninstallRequest) : Program (Except String Unit) :=
  match validateRequest req with
  | .error e => return .error e
  | .ok _ => do
    -- The agent is given time to acknowledge its task.
    let _ ← ask (.sleep 2)
    let failed ← uninstallLinux req.executablePath
    let confirmed ← confirmWithRetry rt req (if failed = [] then .completed else .failed) ("\n".intercalate failed)
    return outcome failed confirmed

def readAndPerform (rt : Runtime) (requestPath : String) : Program (Except String Unit) := do
  match (← ask (.readFile requestPath) : Except String (Except String UninstallRequest)) with
  | .error e => return .error ("read uninstall request file: " ++ e)
  | .ok content =>
    let _ ← ask (.remove requestPath)
    match content with
    | .error e => return .error ("decode uninstall request file: " ++ e)
    | .ok req => uninstallAndConfirm rt req

/-- The helper removes the request and itself in the end. -/
def runPlatformHelper (rt : Runtime) (helperExecutable requestPath : String) : Program (Except String Unit) := do
  let result ← readAndPerform rt requestPath
  let _ ← ask (.remove requestPath)
  if helperExecutable = "" then return result
  else do
    let _ ← ask (.remove helperExecutable)
    let _ ← ask (.remove helperDirectory)
    return result

/-! ### The host and the control plane -/

/-- The agent on its host: its service, the files that are there, and what the request files decode to. -/
structure Installed where
  enabled : Bool
  running : Bool
  files : String → Bool
  requests : String → Option (Except String UninstallRequest)

namespace Installed

/-- What the agent writes, while it runs. -/
def write (h : Installed) (paths : List String) : Installed :=
  if h.running then { h with files := fun p => h.files p || paths.contains p } else h

def remove (h : Installed) (path : String) : Installed :=
  { h with files := fun p => p ≠ path && h.files p, requests := fun p => if p = path then none else h.requests p }

/-- The path is this directory or below it. -/
def under (directory path : String) : Bool := path = directory || (directory ++ "/").isPrefixOf path

def removeAll (h : Installed) (directory : String) : Installed :=
  { h with files := fun p => !under directory p && h.files p }

def systemctl (h : Installed) : List String → Installed
  | ["disable", _] => { h with enabled := false }
  | ["stop", _] => { h with running := false }
  | _ => h

end Installed

/-- What becomes of a confirmation: the control plane may refuse it unread or fail, and when it has dealt with
    it, its answer may not come back or not say so. -/
inductive Delivery where
  | lost (error : String)
  | refused (tooLong : Bool) (body : String)
  | taken
  | unheard (error : String)
  | unsure (body : String)

/-- What happens up to a call, how the call goes, and whether one that fails has done its work all the same. -/
structure Turn where
  before : List Op
  written : List String
  error : Option String
  effect : Bool
  delivery : Delivery

/-- How the control plane hashes tokens, and the database reads identifiers. -/
structure Site where
  platform : Platform
  uuidOf : String → Option Uuid

/-- The two tables and the host, and the confirmations that the control plane has accepted. -/
structure Removal where
  db : Db
  host : Installed
  accepted : List ReportStatus

def confirmable (p : Platform) (db : Db) (c : ConfirmUninstallRequest) : Bool :=
  db.servers.any (confirmableServer db.now c (p.sha256Hex c.token)) && db.tasks.any (confirmableTask c)

namespace Removal
variable (w : Site)

def controls (u : Removal) (ops : List Op) : Removal := { u with db := ops.foldl (Db.step w.platform) u.db }

/-- ConfirmUninstall, and whether it accepts. -/
def confirm (u : Removal) (req : UninstallRequest) (status : ReportStatus) (error : String) : Bool × Removal :=
  match w.uuidOf req.serverId, w.uuidOf req.taskId with
  | some serverId, some taskId =>
    let c : ConfirmUninstallRequest := ⟨serverId, taskId, req.confirmToken, status, error⟩
    if confirmable w.platform u.db c then
      (true, { u with db := u.db.confirmUninstall w.platform c, accepted := u.accepted ++ [status] })
    else (false, u)
  | _, _ => (false, u)

def post (u : Removal) (req : UninstallRequest) (status : ReportStatus) (error : String) :
    Delivery → Except String (Nat × String) × Removal
  | .lost e => (.error e, u)
  | .refused tooLong body => (.ok (if tooLong then 400 else 500, body), u)
  | .taken =>
    let (accepts, u) := u.confirm w req status error
    (.ok (if accepts then 200 else 401, ""), u)
  | .unheard e => (.error e, (u.confirm w req status error).2)
  | .unsure body => (.ok (500, body), (u.confirm w req status error).2)

/-- A step on the host. -/
def act (u : Removal) (turn : Turn) (after : Installed) : Except String Unit × Removal :=
  match turn.error with
  | none => (.ok (), { u with host := after })
  | some e => (.error e, if turn.effect then { u with host := after } else u)

def answer (c : Call) (turn : Turn) (u : Removal) : c.Reply × Removal :=
  let u := { u.controls w turn.before with host := u.host.write turn.written }
  match c with
  | .readFile path =>
    match turn.error, u.host.requests path with
    | none, some content => (.ok content, u)
    | none, none => (.error State.notFound, u)
    | some e, _ => (.error e, u)
  | .remove path => u.act turn (u.host.remove path)
  | .removeAll path => u.act turn (u.host.removeAll path)
  | .systemctl args => u.act turn (u.host.systemctl args)
  | .post req status error => u.post w req status error turn.delivery
  | .sleep _ | .pause _ => u.act turn u.host

end Removal

def removing (w : Site) : System Call Call.Reply Turn Removal := ⟨Removal.answer w⟩

end Uninstall
end DatrixOps
