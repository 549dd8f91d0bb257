import DatrixOps.Process
import DatrixOps.Posix.Files
import DatrixOps.Server.Statements

/-! What the agent program asks of the host that it runs on and of the network, call by call. Every call may
    fail; a failed write may have written a part. -/

namespace DatrixOps
namespace Host
open Posix

/-- The answer to a GET request, its body as it arrives and the error that breaks it off. -/
structure HttpResponse where
  statusCode : Int
  status : String
  contentLength : Int
  body : List Bytes
  bodyError : Option String

/-- The first `n` bytes of a body. -/
def limitBody : Nat → List Bytes → List Bytes
  | _, [] => []
  | 0, _ => []
  | n + 1, chunk :: rest => chunk.take (n + 1) :: limitBody (n + 1 - chunk.length) rest

/-- `io.LimitReader`: what can be read, and the error that ends it before the limit. -/
def HttpResponse.limited (r : HttpResponse) (n : Nat) : List Bytes × Option String :=
  let body := limitBody n r.body
  (body, if body.flatten.length < n then r.bodyError else none)

/-- Where the executable is, and `/usr/local/libexec/datrixops`. -/
inductive Directory where
  | installed | helpers
  deriving DecidableEq

structure UninstallRequest where
  serverId : String
  taskId : String
  confirmUrl : String
  confirmToken : String
  executablePath : String
  deriving DecidableEq

structure Prepared where
  request : UninstallRequest
  helperPath : String
  requestPath : String
  deriving DecidableEq

/-- A file open for reading, which fails after so many reads. -/
structure Opened where
  file : Nat
  reads : Nat

/-- What a self-update has checked of the staged file. Nothing is asked of the host. -/
inductive Mark where
  | sized
  | verified (content : Bytes)

inductive Call where
  | resolveExecutable
  | fetch (url : String)
  | create (dir : Directory) (path : String)
  | createNew (dir : Directory) (path : String)
  | write (dir : Directory) (file offset : Nat) (bytes : Bytes)
  | writeFile (dir : Directory) (path : String) (bytes : Bytes)
  | close (dir : Directory) (file : Nat)
  | remove (dir : Directory) (path : String)
  | openRead (dir : Directory) (path : String)
  | read (dir : Directory) (file offset size : Nat)
  | chmod (dir : Directory) (path : String)
  | rename (dir : Directory) (source target : String)
  | makeHelperDirectory
  | unixNano
  | execute
  | report (taskId : Uuid) (status : ReportStatus) (result : String)
  | launch (prepared : Prepared)
  | confirm (request : UninstallRequest) (status : ReportStatus) (error : String)
  | restart
  | reboot
  | mark (m : Mark)

/-- What a call returns when it succeeds. -/
def Call.Result : Call → Type
  | .fetch _ => HttpResponse
  | .create .. | .createNew .. | .unixNano => Nat
  | .openRead .. => Opened
  | .read .. => Bytes
  | .execute => ReportStatus × String
  | .resolveExecutable | .write .. | .writeFile .. | .close .. | .remove .. | .chmod .. | .rename .. |
    .makeHelperDirectory | .report .. | .launch _
  | .confirm .. | .restart | .reboot | .mark _ => Unit

abbrev Call.Reply (c : Call) : Type := Except String c.Result

abbrev Program (α : Type) : Type := Process Call Call.Reply α

/-- A Go function that returns an error or a value. -/
abbrev Fallible (α : Type) : Type := ExceptT String (Process Call Call.Reply) α

def perform (c : Call) : Fallible c.Result := ExceptT.mk (Process.perform c)

def Fallible.wrap {α : Type} (context : String) (x : Fallible α) : Fallible α := x.adapt (context ++ ": " ++ ·)

def ofExcept {α : Type} (x : Except String α) : Fallible α := ExceptT.mk (.done x)

/-! ### The host -/

/-- What the environment chooses for a call. -/
structure Choice where
  error : Option String := none
  /-- a bound on the bytes that a read returns, less one; the bytes that a failed write has written; the reads
  that an open file allows -/
  amount : Nat := 0
  response : HttpResponse := ⟨200, "200 OK", -1, [], none⟩
  executed : ReportStatus × String := (.completed, "")

/-- The files, the uninstall helpers launched, how often the agent left to be restarted and the host was
    rebooted, the clock, and the staged files that a self-update has verified. -/
structure State where
  installed : Files
  helpers : Files
  launched : List UninstallRequest
  restarts : Nat
  reboots : Nat
  clock : Nat
  verified : List Bytes

namespace State

def files (s : State) : Directory → Files
  | .installed => s.installed
  | .helpers => s.helpers

def setFiles (s : State) (files : Files) : Directory → State
  | .installed => { s with installed := files }
  | .helpers => { s with helpers := files }

/-- The result of an operation that may not be possible. -/
def possible {α : Type} (s : State) (dir : Directory) (x : Option (α × Files)) (otherwise : String) :
    Except String α × State :=
  match x with
  | some (a, files) => (.ok a, s.setFiles files dir)
  | none => (.error otherwise, s)

def notFound : String := "no such file or directory"

/-- A call that succeeds. -/
def succeed (s : State) (o : Choice) : (c : Call) → c.Reply × State
  | .fetch _ => (.ok o.response, s)
  | .create dir path => (.ok ((s.files dir).create path).1, s.setFiles ((s.files dir).create path).2 dir)
  | .createNew dir path => s.possible dir ((s.files dir).createNew path true) "file exists"
  | .write dir file offset bytes => (.ok (), s.setFiles ((s.files dir).write file offset bytes) dir)
  | .writeFile dir path bytes => (.ok (), s.setFiles ((s.files dir).writeFile path bytes) dir)
  | .remove dir path => (.ok (), s.setFiles ((s.files dir).remove path) dir)
  | .openRead dir path => s.possible dir (((s.files dir).names path).map fun i => (⟨i, o.amount⟩, s.files dir)) notFound
  | .read dir file offset size => (.ok ((s.files dir).read file offset (min size (o.amount + 1))), s)
  | .chmod dir path => s.possible dir (((s.files dir).chmod path true).map fun files => ((), files)) notFound
  | .rename dir source target => s.possible dir (((s.files dir).rename source target).map fun files =>
    ((), files)) notFound
  | .unixNano => (.ok s.clock, { s with clock := s.clock + 1 })
  | .execute => (.ok o.executed, s)
  | .launch prepared => (.ok (), { s with launched := prepared.request :: s.launched })
  | .restart => (.ok (), { s with restarts := s.restarts + 1 })
  | .reboot => (.ok (), { s with reboots := s.reboots + 1 })
  | .mark (.verified content) => (.ok (), { s with verified := content :: s.verified })
  | .mark .sized | .resolveExecutable | .close .. | .makeHelperDirectory | .report .. | .confirm .. => (.ok (), s)

/-- A call that fails: a write may have done a part of its work. Reading the clock and leaving do not fail. -/
def fail (s : State) (o : Choice) (error : String) : (c : Call) → c.Reply × State
  | .unixNano => s.succeed o .unixNano
  | .restart => s.succeed o .restart
  | .mark m => s.succeed o (.mark m)
  | .write dir file offset bytes =>
    (.error error, s.setFiles ((s.files dir).write file offset (bytes.take o.amount)) dir)
  | .writeFile dir path bytes =>
    (.error error, if o.amount = 0 then s
      else s.setFiles ((s.files dir).writeFile path (bytes.take (o.amount - 1))) dir)
  | _ => (.error error, s)

def answer (c : Call) (o : Choice) (s : State) : c.Reply × State :=
  match o.error with
  | some error => s.fail o error c
  | none => s.succeed o c

end State

def system : System Call Call.Reply Choice State := ⟨State.answer⟩

end Host
end DatrixOps
