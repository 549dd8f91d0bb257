import DatrixOps.Golang.Float
import DatrixOps.Golang.Json
import DatrixOps.Golang.JsonText
import DatrixOps.Host.Tasks

/-! What a task of an agent prints: its payload, the commands that it runs and the logs that it reads, and the
text that is reported. -/

namespace DatrixOps
namespace Host
open Posix Release Golang

/-- What the agent finds where it runs: what commands print, together or on the standard output alone, unless
    they do not start, and with which error; the files; the state of services, and how they are controlled
    elsewhere than on Linux; how preparing an update or an uninstall fails; what the processor makes of a
    number out of the range of int64. -/
structure Surroundings where
  goos : String
  run : List String → Bytes × Option Bytes
  start : List String → Except Bytes Bytes
  isFile : String → Bool
  inspect : String → Bytes
  control : String → String → Bytes × Option Bytes
  prepareUpdate : Option Bytes
  prepareUninstall : Option Bytes
  deadlineExceeded : Bool
  lower : Bytes → Bytes
  quote : String → String
  sprint : Json → String
  beyondInt64 : ℚ → Int

/-! ### The payload -/

/-- The value under a key of an object, the last one counting. -/
def valueOf (fields : List (String × Json)) (key : String) : Option Json := (fields.reverse.find? (·.1 = key)).map (·.2)

variable (h : Surroundings)

/-- `int64(x)`, towards zero -/
def toInt64 (x : ℚ) : Int :=
  let whole := x.num.tdiv x.den
  if -2 ^ 63 ≤ whole ∧ whole < 2 ^ 63 then whole else h.beyondInt64 x

/-- A number is read into a `float64`; one out of its range is not read at all. -/
def payloadValue (fields : List (String × Json)) (key : String) : String :=
  match valueOf fields key with
  | none | some .null => ""
  | some (.str s) => s
  | some (.num q) => if 2 ^ 1024 ≤ |float64 q| then "" else toString (toInt64 h (float64 q))
  | some (.bool b) => if b then "true" else "false"
  | some v => h.sprint v

/-- The fields that processTask takes over from a payload. -/
def copiedFields : List String :=
  ["container_id", "service_name", "service_manager", "script_id", "source", "unit", "lines", "target_version",
    "release_base_url",
    "release_layout", "server_id", "confirm_url", "confirm_token", "output_limit_bytes"]

/-- The payload as processTask hands it on; one that is no object has no fields. -/
def taskPayload (raw : Json) (key : String) : String :=
  if key ∈ copiedFields then payloadValue h (match raw with | .obj fields => fields | _ => []) key else ""

/-! ### Texts -/

def limitTaskOutput (output : Bytes) (limit : Int) : Bytes :=
  if limit ≤ 0 ∨ (output.length : Int) ≤ limit then output else output.take limit.toNat ++ textBytes "\n...[truncated]"

def parseTaskOutputLimit (raw : String) (fallback minLimit maxLimit : Int) : Int :=
  match atoi (trimmed raw).toList with
  | none => fallback
  | some limit => if limit < minLimit then minLimit else if limit > maxLimit then maxLimit else limit

/-- `strings.TrimSpace` -/
def trimBytes (s : Bytes) : Bytes :=
  let blank (r : Rune) : Bool := r.char.any isSpace
  ((((runes s).dropWhile blank).reverse.dropWhile blank).reverse).flatMap Rune.raw

/-- `strings.Split(s, "\n")` -/
def splitLines : Bytes → List Bytes
  | [] => [[]]
  | b :: rest =>
    match splitLines rest with
    | line :: lines => if b = 0x0A then [] :: line :: lines else (b :: line) :: lines
    | [] => []

def joinLines (lines : List Bytes) : Bytes := List.intercalate [0x0A] lines

def alphanumeric (c : Char) : Bool := ('a' ≤ c && c ≤ 'z') || ('A' ≤ c && c ≤ 'Z') || ('0' ≤ c && c ≤ '9')

/-- `^[a-zA-Z0-9][a-zA-Z0-9_.-]{0,127}$` -/
def isContainerIdentifier (s : String) : Bool :=
  match s.toList with
  | [] => false
  | c :: cs => alphanumeric c && cs.length ≤ 127 && cs.all fun c => alphanumeric c || c ∈ ['_', '.', '-']

/-- `^[a-zA-Z0-9*][a-zA-Z0-9_.@:$ *\-]{0,199}$` -/
def isServiceIdentifier (s : String) : Bool :=
  match s.toList with
  | [] => false
  | c :: cs => (alphanumeric c || c = '*') && cs.length ≤ 199 &&
      cs.all fun c => alphanumeric c || c ∈ ['_', '.', '@', ':', '$', ' ', '*', '-']

/-! ### Logs -/

/-- The lines of a scanner: without the carriage return before their end, up to one that is too long. -/
def scanLines (output : Bytes) : List Bytes :=
  let lines := splitLines output
  let lines := if lines.getLast? = some [] then lines.dropLast else lines
  (lines.takeWhile (·.length < 1024 * 1024)).map fun line => if line.getLast? = some 0x0D then line.dropLast else line

def hasKeyword (keyword : String) (line : Bytes) : Bool := decide (h.lower (textBytes keyword) <:+: h.lower line)

/-- The newest lines of the journal with the keyword, in their order. -/
def scanJournalctlWithKeyword (args : List String) (keyword : String) (maxLines : Nat) : Bytes × Option Bytes :=
  match h.start ("journalctl" :: "-r" :: args) with
  | .error e => ([], some e)
  | .ok stdout => (joinLines (((scanLines stdout).filter (hasKeyword h keyword)).take maxLines).reverse, none)

def filterLinesByKeyword (output : Bytes) (keyword : String) (maxLines : Nat) : Bytes :=
  joinLines (((splitLines output).filter (hasKeyword h keyword)).take maxLines)

/-- The units that journalctl is asked for. -/
def unitArgs (unit : String) : List String :=
  if '*' ∉ unit.toList ∧ ¬".service".toList <:+ unit.toList then ["-u", unit, "-u", unit ++ "*"] else ["-u", unit]

def readJournal (payload : String → String) (lines : Nat) : Bytes × Option Bytes :=
  let since := trimmed (payload "since")
  let unit := trimmed (payload "unit")
  let grep := trimmed (payload "grep")
  let args := ["--no-pager", "-o", "short-iso"] ++ if since ≠ "" then ["--since", since] else []
  if unit ≠ "" ∧ !isServiceIdentifier unit then ([], some (textBytes "invalid journal unit"))
  else
    let args := (if unit ≠ "" then unitArgs unit else []) ++ args
    let read := if grep ≠ "" then scanJournalctlWithKeyword h args grep lines
      else h.run ("journalctl" :: "-n" :: toString lines :: args)
    match read with
    | (out, some e) => if trimBytes out = [] then (textBytes "journalctl notice: " ++ e, none) else (out, none)
    | (out, none) => (out, none)

/-- The output of a command that prints the last lines of a log, so many that a keyword may be looked for in them. -/
def readTail (command : String → List String) (payload : String → String) (lines : Nat) : Bytes × Option Bytes :=
  let grep := trimmed (payload "grep")
  match h.run (command (if grep ≠ "" then "2000" else toString lines)) with
  | (out, none) => (if grep ≠ "" then filterLinesByKeyword h out grep lines else out, none)
  | (out, some e) => (out, some e)

def firstExistingLogPath (paths : List String) : Option String := paths.find? h.isFile

/-- The last lines of the first of these files that there is. -/
def readLogFile (paths : List String) (notice : String) (payload : String → String) (lines : Nat) :
    Bytes × Option Bytes :=
  match firstExistingLogPath h paths with
  | none => (textBytes notice, none)
  | some path => readTail h (fun n => ["tail", "-n", n, path]) payload lines

def nginxAccessPaths : List String := ["/var/log/nginx/access.log", "/var/log/nginx-access.log"]

def nginxErrorPaths : List String := ["/var/log/nginx/error.log", "/var/log/nginx-error.log"]

def mysqlErrorPaths : List String := ["/var/log/mysql/error.log", "/var/log/mysqld.log", "/var/log/mariadb/mariadb.log"]

/-- What is said of a log of Nginx that is not there. -/
def missing (log : String) : String :=
  "Notice: " ++ log ++ " not found on this server. Nginx may not be installed or is logging to a custom path."

/-- The number of lines asked for, 200 unless one is given. -/
def logLines (payload : String → String) : Option Nat :=
  let raw := trimmed (payload "lines")
  if raw = "" then some 200
  else match atoi raw.toList with
    | none => none
    | some parsed => if parsed < 1 ∨ parsed > 1000 then none else some parsed.toNat

def executeReadOnlyLog (payload : String → String) : Bytes × Option Bytes :=
  if h.goos ≠ "linux" then ([], some (textBytes "read-only log viewer is currently supported only on Linux"))
  else match logLines payload with
    | none => ([], some (textBytes "invalid lines parameter"))
    | some lines =>
      if payload "source" = "journal" then readJournal h payload lines
      else if payload "source" = "nginx_access" then
        readLogFile h nginxAccessPaths (missing "Nginx access log (/var/log/nginx/access.log)") payload lines
      else if payload "source" = "nginx_error" then
        readLogFile h nginxErrorPaths (missing "Nginx error log (/var/log/nginx/error.log)") payload lines
      else if payload "source" = "mysql_error" then
        readLogFile h mysqlErrorPaths ("Notice: No MySQL or MariaDB error log found in standard paths " ++
          "(/var/log/mysql/error.log, /var/log/mysqld.log, /var/log/mariadb/mariadb.log).") payload lines
      else if payload "source" = "docker" then
        if !isContainerIdentifier (payload "container_id") then
          ([], some (textBytes "invalid or missing container identifier"))
        else readTail h (fun n => ["docker", "logs", "--tail", n, payload "container_id"]) payload lines
      else ([], some (textBytes "unsupported read-only log source"))

/-! ### Services, scripts and containers -/

/-- The agent's own service under its names. -/
def ownServices : List String :=
  ["datrixops-agent", "datrixops-agent.service", "com.datrixops.agent", "datrixopsagent", "datrixops-self-monitor",
    "datrixops-self-monitor.service"]

def expectedManager (goos : String) : String :=
  if goos = "linux" then "systemd" else if goos = "darwin" then "launchd"
    else if goos = "windows" then "windows-scm" else ""

/-- `json.Marshal` of the result of a service's action. -/
def serviceResult (action : String) (message service : Bytes) : Bytes :=
  asciiBytes "\x7b\"action\":" ++ Golang.quote (textBytes action) ++ asciiBytes ",\"message\":" ++
    Golang.quote message ++
    asciiBytes ",\"service\":" ++ service ++ asciiBytes "\x7d"

def executeServiceAction (action serviceName manager : String) : Except Bytes Bytes :=
  if h.lower (textBytes serviceName) ∈ ownServices.map textBytes then
    .error (textBytes "the DatrixOps Agent cannot control its own service")
  else if expectedManager h.goos = "" ∨ manager ≠ expectedManager h.goos then
    .error (textBytes ("service manager " ++ h.quote manager ++ " is not valid on " ++ h.goos))
  else
    let controlled :=
      if h.goos = "darwin" ∨ h.goos = "windows" then h.control action serviceName
      else (h.run ["systemctl", action, "--", serviceName]).map trimBytes id
    match controlled with
    | (output, some e) => .error (if output = [] then e else e ++ textBytes ": " ++ output)
    | (output, none) =>
      .ok (serviceResult action (if output = [] then textBytes (action ++ " completed")
        else output) (h.inspect serviceName))

def executeAllowlistedScript (scriptId : String) : Bytes × Option Bytes :=
  if h.goos ≠ "linux" then ([], some (textBytes "script library is currently supported only on Linux"))
  else if scriptId = "system_health_summary" then
    h.run ["sh", "-c", "printf '== uptime ==\\n'; uptime; printf '\\n== disk ==\\n'; df -hT -x tmpfs -x devtmpfs; " ++
      "printf '\\n== memory ==\\n'; free -m; printf '\\n== top cpu ==\\n'; ps -eo pid,user,comm,%cpu,%mem --sort=-%cpu | head -n 12"]
  else if scriptId = "journal_errors_recent" then
    h.run ["journalctl", "-p", "warning..alert", "-n", "120", "--no-pager", "-o", "short-iso"]
  else if scriptId = "restart_nginx" then h.run ["systemctl", "restart", "nginx"]
  else ([], some (textBytes "script is not allowlisted"))

/-- The type of a task as an agent is sent it: one of the control plane's, or another. -/
inductive AgentTaskType where
  | known (type : TaskType)
  | scriptRun
  | unknown (name : String)

def dockerCommand (containerId : String) : TaskType → Option (List String)
  | .dockerStart => some ["docker", "start", containerId]
  | .dockerStop => some ["docker", "stop", containerId]
  | .dockerRestart => some ["docker", "restart", containerId]
  | .dockerLogs => some ["docker", "logs", "--tail", "100", containerId]
  | _ => none

def serviceAction : TaskType → Option String
  | .serviceStart => some "start"
  | .serviceStop => some "stop"
  | .serviceRestart => some "restart"
  | .serviceReload => some "reload"
  | _ => none

/-! ### What is reported -/

def errorText (e : Bytes) : Bytes := textBytes " Error: " ++ e

/-- The output of a command with its error. -/
def commandResult (printed : Bytes × Option Bytes) : ReportStatus × Bytes :=
  match printed with
  | (out, none) => (.completed, out)
  | (out, some e) => (.failed, out ++ errorText (if h.deadlineExceeded then textBytes "task timed out" else e))

/-- The output of a script or a log with its error, within a limit. -/
def limitedResult (limit : Int) (printed : Bytes × Option Bytes) : ReportStatus × Bytes :=
  match printed with
  | (out, none) => (.completed, limitTaskOutput out limit)
  | (out, some e) => (.failed, limitTaskOutput (out ++ errorText e) limit)

/-- A preparation that failed, or that is done. -/
def preparedResult (context : String) (failure : Option Bytes) (done : String) : ReportStatus × Bytes :=
  match failure with
  | some e => (.failed, textBytes context ++ e)
  | none => (.completed, textBytes done)

/-- The status and the text that processTask reports. -/
def taskResult (type : AgentTaskType) (payload : String → String) : ReportStatus × Bytes :=
  match type with
  | .unknown name => (.failed, textBytes ("Unknown task type: " ++ name))
  | .scriptRun =>
    limitedResult (parseTaskOutputLimit (payload "output_limit_bytes") 12000 1024 20000)
      (executeAllowlistedScript h (payload "script_id"))
  | .known type =>
    match dockerCommand (payload "container_id") type, serviceAction type with
    | some command, _ =>
      if !isContainerIdentifier (payload "container_id") then
        (.failed, textBytes "Invalid or missing container identifier")
      else commandResult h (h.run command)
    | none, some action =>
      if !isServiceIdentifier (payload "service_name") then (.failed, textBytes "Invalid or missing service identifier")
      else match executeServiceAction h action (payload "service_name") (payload "service_manager") with
        | .ok result => (.completed, result)
        | .error e => (.failed, e)
    | none, none =>
      match type with
      | .logRead => limitedResult 20000 (executeReadOnlyLog h payload)
      | .agentUpdate => preparedResult "Unable to stage agent update: " h.prepareUpdate
          "Agent update staged; activation requested. Waiting for the new version heartbeat."
      | .agentUninstall => preparedResult "Unable to prepare Agent uninstall: " h.prepareUninstall
          "Detached Agent uninstall helper prepared"
      | .agentRestart => (.completed, textBytes "Agent restart initiated")
      | _ => (.completed, textBytes "Reboot initiated")

end Host
end DatrixOps
