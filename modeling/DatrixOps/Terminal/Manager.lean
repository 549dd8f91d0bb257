import DatrixOps.Terminal.Message

/-! The session manager of an agent on one connection to the control plane. The goroutine that reads the
    connection goes on beside two goroutines for each shell: one waits for the shell to end, the other reads
    its PTY. -/

namespace DatrixOps
namespace Terminal
open Golang Host

def maxSessionDuration : Int := 30 * 60 * 1000000000

/-- Where the goroutine is that waits for the shell: waitProcess has returned; the exit is reported; `once` is
called; it has returned. -/
inductive Waiting where
  | waits
  | exited (reason : String)
  | told
  | released
  | finished
  deriving DecidableEq

/-- Where streamOutput is: it reads; it has read this; it cannot read; it has returned. -/
inductive Streaming where
  | reading
  | read (data : List UInt8)
  | failed (reason : String)
  | returned
  deriving DecidableEq

/-- `terminalSession`, with its shell, its PTY and its goroutines; `closed` once `once` has been called. -/
structure TerminalSession where
  id : String
  startedAt : Int
  cols : Int
  rows : Int
  typed : List UInt8
  alive : Bool
  closed : Bool
  waiting : Waiting
  streaming : Streaming
  deriving DecidableEq

/-- Where the goroutine is that reads the connection. What it types or closes a session for is the message
    with this number, or the session whose close it has read; none where the connection has ended. -/
inductive Doing where
  | reads
  | answers (m : Message)
  | types (session message : Nat) (data : List UInt8)
  | resizes (session message : Nat) (cols rows : Int)
  | closes (session : Nat) (sender : Option String)
  | returned
  deriving DecidableEq

/-- A message on its way to the hub, and the session whose PTY it was read from. -/
structure Sent where
  message : Message
  source : Option Nat
  deriving DecidableEq

/-- `sessionManager` with its socket: how many messages it has taken, all the sessions it has had, and what it
    has sent that is not yet read. It is kept besides whose start was refused for which session and whether
    its shell ran then, which message reached which PTY, whose close closed which session, and what was read
    from which PTY. -/
structure SessionManager where
  taken : Nat
  doing : Doing
  sessions : List TerminalSession
  current : Option Nat
  broken : Bool
  sent : List Sent
  refused : List (String × Nat × Bool)
  reached : List (Nat × Nat)
  terminated : List (String × Nat)
  printed : List (Nat × List UInt8)
  deriving DecidableEq

def newSessionManager : SessionManager := ⟨0, .reads, [], none, false, [], [], [], [], []⟩

def errorMessage (sessionId reason : String) : Message := ⟨"error", sessionId, "", 0, 0, reason⟩
def exitMessage (sessionId reason : String) : Message := ⟨"exit", sessionId, "", 0, 0, reason⟩

/-- `DecodeString` passes over line breaks. -/
def decodeString (value : String) : Option (List UInt8) :=
  decodeBase64 ((textBytes value).filter fun b => b ≠ 0x0A ∧ b ≠ 0x0D)

/-- What a shell has ended for, as waitProcess finds out. -/
inductive Cause where
  | exited (error : Option String)
  | deadline
  | canceled

/-- What comes of reading a PTY. An expected error is that of an end of file, a closed file, or `EIO`. -/
inductive ReadResult where
  | data (read : List UInt8)
  | expected
  | unexpected (reason : String)

namespace SessionManager

def edit (m : SessionManager) (k : Nat) (f : TerminalSession → TerminalSession) : SessionManager :=
  { m with sessions := m.sessions.modify k f }

/-- `m.socket.write`; its errors are ignored, and after one every write fails. -/
def write (m : SessionManager) (source : Option Nat) (message : Message) (ok : Bool) : SessionManager :=
  if ok && !m.broken then { m with sent := m.sent ++ [⟨message, source⟩] } else { m with broken := true }

/-- `start`; a shell is started, or it is not for this reason. -/
def start (m : SessionManager) (now : Int) (incoming : Message) (started : Except String Unit) : SessionManager :=
  match m.current with
  | some k =>
    let running := (m.sessions[k]?.map (·.alive)).getD false
    { m with
      doing := .answers (errorMessage incoming.sessionId "A terminal session is already active")
      refused := m.refused ++ [(incoming.sessionId, k, running)] }
  | none =>
    match started with
    | .error reason => { m with doing := .answers (errorMessage incoming.sessionId reason) }
    | .ok () =>
      let session : TerminalSession :=
        ⟨incoming.sessionId, now, clamp incoming.cols 20 400, clamp incoming.rows 5 200, [], true, false,
          .waits, .reading⟩
      { m with sessions := m.sessions ++ [session], current := some m.sessions.length }

/-- The current session, where it is the one that a message is for. -/
def currentOf (m : SessionManager) (sessionId : String) : Option Nat :=
  match m.current with
  | some k => if (m.sessions[k]?.map (·.id)) = some sessionId then some k else none
  | none => none

def input (m : SessionManager) (index : Nat) (incoming : Message) : SessionManager :=
  match decodeString incoming.data with
  | none => m
  | some data =>
    if data.length > maxMessageBytes then m
    else match m.currentOf incoming.sessionId with
      | some k => { m with doing := .types k index data }
      | none => m

def resize (m : SessionManager) (index : Nat) (incoming : Message) : SessionManager :=
  match m.currentOf incoming.sessionId with
  | some k => { m with doing := .resizes k index (clamp incoming.cols 20 400) (clamp incoming.rows 5 200) }
  | none => m

/-- `close` finds the current session; it does not look at its id. -/
def close (m : SessionManager) (sender : Option String) : SessionManager :=
  match m.current with
  | some k => { m with doing := .closes k sender }
  | none => m

def handle (m : SessionManager) (now : Int) (index : Nat) (incoming : Message) (started : Except String Unit) :
    SessionManager :=
  if incoming.type = "session_start" then m.start now incoming started
  else if incoming.type = "input" then m.input index incoming
  else if incoming.type = "resize" then m.resize index incoming
  else if incoming.type = "session_close" then m.close (some incoming.sessionId)
  else m

/-- The next message is read and handled. -/
def take (m : SessionManager) (now : Int) (incoming : Message) (started : Except String Unit) : SessionManager :=
  { m with taken := m.taken + 1 }.handle now m.taken incoming started

/-- The body of the `once` in `close` -/
def terminate (m : SessionManager) (k : Nat) (sender : Option String) : SessionManager :=
  match m.sessions[k]? with
  | some session =>
    if session.closed then m
    else
      let m := m.edit k ({ · with alive := false, closed := true })
      match sender with
      | some id => { m with terminated := m.terminated ++ [(id, k)] }
      | none => m
  | none => m

/-- The next step of the goroutine that reads; the PTY fails for a reason, and the connection takes a write if `ok`. -/
def act (m : SessionManager) (failure : Option String) (ok : Bool) : SessionManager :=
  match m.doing with
  | .answers message => { m.write none message ok with doing := .reads }
  | .types k index data =>
    match m.sessions[k]? with
    | some session =>
      match if session.closed then some (failure.getD "file already closed") else failure with
      | some reason => { m with doing := .answers (errorMessage session.id reason), reached := m.reached ++
        [(index, k)] }
      | none => { m.edit k fun s => { s with typed := s.typed ++ data } with doing := .reads, reached := m.reached ++
        [(index, k)] }
    | none => m
  | .resizes k index cols rows =>
    { m.edit k ({ · with cols := cols, rows := rows }) with doing := .reads, reached := m.reached ++ [(index, k)] }
  | .closes k (some id) => { m.terminate k (some id) with doing := .reads }
  | .closes k none => { m.terminate k none with doing := .returned, broken := true }
  | .reads | .returned => m

/-- Reading fails; the manager closes what is current before the connection is closed. -/
def hangUp (m : SessionManager) : SessionManager :=
  if m.current.isSome then m.close none else { m with doing := .returned, broken := true }

def exitReason : Cause → String
  | .exited none => "Shell exited"
  | .exited (some error) => "Shell exited: " ++ error
  | .deadline => "Maximum terminal duration reached"
  | .canceled => "Terminal session closed"

/-- Whether waitProcess returns for a cause. -/
def returns (now : Int) (session : TerminalSession) : Cause → Bool
  | .exited _ => !session.alive
  | .deadline => session.startedAt + maxSessionDuration ≤ now
  -- `close` cancels, and so does the end of the agent.
  | .canceled => true

/-- The next step of the goroutine that waits for the shell. -/
def wait (m : SessionManager) (now : Int) (k : Nat) (session : TerminalSession) (cause : Cause) (ok : Bool) :
    SessionManager :=
  match session.waiting with
  | .waits =>
    if returns now session cause then m.edit k ({ · with alive := false, waiting := .exited (exitReason cause) }) else m
  | .exited reason => (m.write none (exitMessage session.id reason) ok).edit k ({ · with waiting := .told })
  | .told => m.edit k ({ · with closed := true, waiting := .released })
  | .released => { m.edit k ({ · with waiting := .finished }) with current := if m.current = some k then none
    else m.current }
  | .finished => m

/-- The next step of streamOutput. -/
def streamOutput (m : SessionManager) (k : Nat) (session : TerminalSession) (result : ReadResult) (ok : Bool) :
    SessionManager :=
  match session.streaming with
  | .reading =>
    match if session.closed then .expected else result with
    | .data read =>
      let read := read.take (32 * 1024)
      { m.edit k ({ · with streaming := .read read }) with printed := m.printed ++ [(k, read)] }
    | .expected => m.edit k ({ · with streaming := .returned })
    | .unexpected reason => m.edit k ({ · with streaming := .failed reason })
  | .read data =>
    (if data = [] then m else m.write (some k) (outputMessage session.id data) ok).edit k
    ({ · with streaming := .reading })
  | .failed reason => (m.write none (errorMessage session.id reason) ok).edit k ({ · with streaming := .returned })
  | .returned => m

/-- The shell ends by itself. -/
def shellExits (m : SessionManager) (k : Nat) : SessionManager := m.edit k ({ · with alive := false })

end SessionManager

end Terminal
end DatrixOps
