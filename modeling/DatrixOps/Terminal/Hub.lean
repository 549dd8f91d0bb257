import DatrixOps.Machine
import DatrixOps.Terminal.Message

/-! The hub of the control plane's terminals, its rows in `terminal_sessions`, and the goroutines that serve
    the browsers and the agents. Between two locks of the hub, two writes to a connection or two statements of
    one goroutine the others go on. -/

namespace DatrixOps
namespace Terminal
open Golang Host

def ticketLifetime : Int := 30 * 1000000000
def sessionLifetime : Int := 30 * 60 * 1000000000

/-- `ticket` -/
structure Ticket where
  serverId : String
  userId : String
  expires : Int
  deriving DecidableEq

inductive Status where
  | active | closed | agentDisconnected | timedOut | failed
  deriving DecidableEq

/-- A row of `terminal_sessions` -/
structure SessionRow where
  id : String
  serverId : String
  userId : String
  status : Status
  closeReason : Option String
  bytesFromBrowser : Int
  bytesFromAgent : Int
  deriving DecidableEq

/-- What `auditClose` writes. -/
structure AuditClose where
  sessionId : String
  status : Status
  reason : String
  bytesFromBrowser : Int
  bytesFromAgent : Int
  deriving DecidableEq

/-- How far `endSession` has come. -/
inductive Stage where
  | cancelled
  | deleted
  | notified
  | disconnected
  | loaded (bytesFromBrowser : Int)
  | counted (bytesFromBrowser bytesFromAgent : Int)
  | stored (bytesFromBrowser bytesFromAgent : Int)
  | done
  deriving DecidableEq

structure Ending where
  status : Status
  reason : String
  notifyAgent : Bool
  stage : Stage
  deriving DecidableEq

/-- A session has its row; `h.sessions` has it; or `once` has been called for it. -/
inductive Phase where
  | created
  | listed
  | ending (e : Ending)
  deriving DecidableEq

/-- Where BrowserSocket is, once it has a session. -/
inductive Serving where
  | starting
  | reading
  | forwarding (m : Message)
  | checking
  | leaving
  | returned
  deriving DecidableEq

/-- `session`, with the place of its handler -/
structure Session where
  id : String
  serverId : String
  userId : String
  agent : Nat
  startedAt : Int
  bytesFromBrowser : Int
  bytesFromAgent : Int
  phase : Phase
  serving : Serving
  deriving DecidableEq

/-- Where CreateTicket is: the agent is there; no session is active. -/
inductive Asking where
  | found (serverId userId : String)
  | free (serverId userId : String)
  deriving DecidableEq

/-- Where BrowserSocket is, before it has a session. -/
inductive Visit where
  | admitted (t : Ticket)
  | reached (t : Ticket) (agent : Nat)
  | cleared (t : Ticket) (agent : Nat)
  deriving DecidableEq

/-- Where AgentSocket is: it reads; it has found the session of a message; it has passed the message on; it
    ends a session; the connection is closed; it ends the sessions of the connection. -/
inductive Reading where
  | reads
  | found (m : Message)
  | told (m : Message)
  | ends (sessionId : String)
  | hungUp
  | closes (affected : List String)
  deriving DecidableEq

/-- The connection of an agent. A failed write fails all that come after it. -/
structure Peer where
  serverId : String
  doing : Reading
  broken : Bool
  outbox : List Message
  deriving DecidableEq

/-- A message whose bytes have been counted. -/
structure Accounted where
  sessionId : String
  fromBrowser : Bool
  data : String
  deriving DecidableEq

/-- The hub, with the goroutines and the table. It is kept besides which tickets were issued and admitted,
    which ids were drawn, what the browsers were sent, and which messages were counted. -/
structure Hub where
  now : Int
  agents : List (String × Nat)
  peers : List Peer
  tickets : List (String × Ticket)
  asking : List Asking
  visits : List Visit
  sessions : List Session
  rows : List SessionRow
  audits : List AuditClose
  issued : List (String × Ticket)
  admitted : List (String × Ticket × Int)
  ids : List String
  shown : List (String × Message)
  accounted : List Accounted
  deriving DecidableEq

def NewHub : Hub := ⟨0, [], [], [], [], [], [], [], [], [], [], [], [], []⟩

/-- `strings.HasSuffix` -/
def hasSuffix (value suffix : String) : Bool := (textBytes suffix).isSuffixOf (textBytes value)

def decodedLength (value : String) : Int :=
  let decoded : Int := ((textBytes value).length * 3 / 4 : Nat)
  let padding : Int := if hasSuffix value "==" then 2 else if hasSuffix value "=" then 1 else 0
  if decoded < padding then 0 else decoded - padding

/-- Whether `h.sessions` has it. -/
def Session.listed (s : Session) : Bool :=
  match s.phase with
  | .created => false
  | .listed => true
  | .ending e => e.stage = .cancelled

/-- Whether its `endSession` is over. -/
def Session.ended (s : Session) : Bool :=
  match s.phase with
  | .ending e => e.stage = .done
  | _ => false

namespace Hub

def session? (hub : Hub) (id : String) : Option Session := hub.sessions.find? (·.id = id)

def edit (hub : Hub) (id : String) (f : Session → Session) : Hub :=
  { hub with sessions := hub.sessions.map fun s => if s.id = id then f s else s }

def serve (hub : Hub) (id : String) (serving : Serving) : Hub := hub.edit id fun s => { s with serving := serving }

def setPeer (hub : Hub) (peer : Nat) (doing : Reading) : Hub :=
  { hub with peers := hub.peers.modify peer ({ · with doing := doing }) }

def agentFor (hub : Hub) (serverId : String) : Option Nat := hub.agents.lookup serverId

def hasActiveSession (hub : Hub) (serverId : String) : Bool :=
  hub.sessions.any fun s => s.listed && s.serverId = serverId

/-! ### Writes to an agent -/

/-- Whether a write goes through, when the connection itself takes it. -/
def writes (hub : Hub) (peer : Nat) (ok : Bool) : Bool :=
  match hub.peers[peer]? with
  | some p => ok && !p.broken
  | none => false

/-- `peer.write` -/
def write (hub : Hub) (peer : Nat) (m : Message) (ok : Bool) : Hub :=
  { hub with peers := hub.peers.modify peer fun p => if ok && !p.broken then { p with outbox := p.outbox ++ [m] }
    else { p with broken := true } }

/-! ### The bytes of a session -/

def addBytes (s : Session) (fromBrowser : Bool) (length : Int) : Session :=
  if length ≤ 0 then s
  else if fromBrowser then { s with bytesFromBrowser := s.bytesFromBrowser + length }
  else { s with bytesFromAgent := s.bytesFromAgent + length }

def account (hub : Hub) (id : String) (fromBrowser : Bool) (data : String) : Hub :=
  { hub.edit id (addBytes · fromBrowser (decodedLength data)) with accounted := hub.accounted ++
    [⟨id, fromBrowser, data⟩] }

/-! ### The end of a session -/

/-- `endSession` is called; `once` lets the first caller in. -/
def endSession (hub : Hub) (id : String) (status : Status) (reason : String) (notifyAgent : Bool) : Hub :=
  hub.edit id fun s =>
    match s.phase with
    | .listed => { s with phase := .ending ⟨status, reason, notifyAgent, .cancelled⟩ }
    | _ => s

def closeSession (hub : Hub) (id : String) (status : Status) (reason : String)
    (bytesFromBrowser bytesFromAgent : Int) : Hub :=
  { hub with rows := hub.rows.map fun row =>
      if row.id = id ∧ row.status = .active then
        ⟨row.id, row.serverId, row.userId, status, some reason, bytesFromBrowser, bytesFromAgent⟩
      else row }

def auditClose (hub : Hub) (id : String) (status : Status) (reason : String)
    (bytesFromBrowser bytesFromAgent : Int) : Hub :=
  { hub with audits := hub.audits ++ [⟨id, status, reason, bytesFromBrowser, bytesFromAgent⟩] }

def reach (hub : Hub) (id : String) (e : Ending) (stage : Stage) : Hub :=
  hub.edit id fun s => { s with phase := .ending { e with stage := stage } }

/-- The next step of an `endSession`; its write or its statement is done if `ok`. -/
def proceed (hub : Hub) (s : Session) (e : Ending) (ok : Bool) : Hub :=
  match e.stage with
  | .cancelled => hub.reach s.id e .deleted
  | .deleted => (if e.notifyAgent then hub.write s.agent ⟨"session_close", s.id, "", 0, 0, e.reason⟩ ok
    else hub).reach s.id e .notified
  | .notified => hub.reach s.id e .disconnected
  | .disconnected => hub.reach s.id e (.loaded s.bytesFromBrowser)
  | .loaded n => hub.reach s.id e (.counted n s.bytesFromAgent)
  | .counted n m => (if ok then hub.closeSession s.id e.status e.reason n m else hub).reach s.id e (.stored n m)
  | .stored n m => (if ok then hub.auditClose s.id e.status e.reason n m else hub).reach s.id e .done
  | .done => hub

/-! ### Tickets -/

/-- CreateTicket, for a server of the user -/
def askTicket (hub : Hub) (serverId userId : String) : Hub :=
  if (hub.agentFor serverId).isSome then { hub with asking := hub.asking ++ [.found serverId userId] } else hub

def checkTicket (hub : Hub) (i : Nat) : Hub :=
  match hub.asking[i]? with
  | some (.found serverId userId) =>
    if hub.hasActiveSession serverId then { hub with asking := hub.asking.eraseIdx i }
    else { hub with asking := hub.asking.set i (.free serverId userId) }
  | _ => hub

/-- The ticket's value is 32 random bytes; it was never drawn before. -/
def issueTicket (hub : Hub) (i : Nat) (value : String) : Hub :=
  match hub.asking[i]? with
  | some (.free serverId userId) =>
    if value ∈ hub.issued.map (·.1) then hub
    else
      let kept := hub.tickets.filter fun entry =>
        !(entry.2.expires < hub.now || (entry.2.serverId = serverId && entry.2.userId = userId))
      let t : Ticket := ⟨serverId, userId, hub.now + ticketLifetime⟩
      { hub with asking := hub.asking.eraseIdx i, tickets := (value, t) :: kept, issued := hub.issued ++ [(value, t)] }
  | _ => hub

/-! ### BrowserSocket -/

def redeemTicket (hub : Hub) (value : String) : Hub :=
  match hub.tickets.lookup value with
  | some t =>
    let hub := { hub with tickets := hub.tickets.filter (·.1 ≠ value) }
    if t.expires < hub.now then hub
    else { hub with visits := hub.visits ++ [.admitted t], admitted := hub.admitted ++ [(value, t, hub.now)] }
  | none => hub

/-- The agent is looked up, and then whether the server has a session. -/
def visit (hub : Hub) (i : Nat) : Hub :=
  match hub.visits[i]? with
  | some (.admitted t) =>
    match hub.agentFor t.serverId with
    | some agent => { hub with visits := hub.visits.set i (.reached t agent) }
    | none => { hub with visits := hub.visits.eraseIdx i }
  | some (.reached t agent) =>
    if hub.hasActiveSession t.serverId then { hub with visits := hub.visits.eraseIdx i }
    else { hub with visits := hub.visits.set i (.cleared t agent) }
  | _ => hub

/-- The row of a session is written, and the session is made. -/
def openSession (hub : Hub) (t : Ticket) (agent : Nat) (id : String) : Hub :=
  { hub with
    ids := hub.ids ++ [id]
    rows := hub.rows ++ [⟨id, t.serverId, t.userId, .active, none, 0, 0⟩]
    sessions := hub.sessions ++ [⟨id, t.serverId, t.userId, agent, hub.now, 0, 0, .created, .starting⟩] }

/-- Whether the unique index stands in the way of a new session. -/
def occupied (hub : Hub) (serverId : String) : Bool :=
  hub.rows.any fun row => row.serverId = serverId && row.status = .active

/-- `createSession`, with an id that is drawn -/
def createSession (hub : Hub) (i : Nat) (id : String) (ok : Bool) : Hub :=
  match hub.visits[i]? with
  | some (.cleared t agent) =>
    let hub := { hub with visits := hub.visits.eraseIdx i }
    if ok ∧ id ∉ hub.ids ∧ hub.occupied t.serverId = false then hub.openSession t agent id else hub
  | _ => hub

/-- The next step of the handler of a session; its write is done if `ok`. -/
def handle (hub : Hub) (s : Session) (ok : Bool) : Hub :=
  match s.serving with
  | .starting =>
    if s.phase = .created then hub.edit s.id ({ · with phase := .listed })
    else
      let written := hub.write s.agent ⟨"session_start", s.id, "", 120, 32, ""⟩ ok
      if hub.writes s.agent ok then
        { written.serve s.id .reading with shown := hub.shown ++ [(s.id, ⟨"ready", s.id, "", 0, 0, ""⟩)] }
      else (written.endSession s.id .agentDisconnected "Unable to contact agent" false).serve s.id .returned
  | .forwarding m => (hub.write s.agent m ok).serve s.id (if hub.writes s.agent ok then .checking else .leaving)
  | .checking =>
    match s.phase with
    | .ending _ => hub.serve s.id .leaving
    | _ => hub.serve s.id .reading
  | .leaving => (hub.endSession s.id .closed "Browser disconnected" true).serve s.id .returned
  | .reading | .returned => hub

/-- A message of the browser, or none where reading fails. -/
def browserMessage (hub : Hub) (s : Session) (incoming : Option Message) : Hub :=
  if s.serving ≠ .reading then hub
  else match incoming with
    | none => hub.serve s.id .leaving
    | some m =>
      match relay s.id m with
      | .stop => hub.serve s.id .leaving
      | .skip => hub
      | .send m => (if m.type = "input" then hub.account s.id true m.data else hub).serve s.id (.forwarding m)

/-- The timer fires. -/
def timeout (hub : Hub) (s : Session) : Hub :=
  if s.serving = .starting ∨ hub.now < s.startedAt + sessionLifetime then hub
  else hub.endSession s.id .timedOut "Maximum terminal duration reached" true

/-! ### AgentSocket -/

/-- `registerAgent`. The connection it replaces is closed, as any connection may be at any time. -/
def registerAgent (hub : Hub) (serverId : String) : Hub :=
  { hub with
    agents := (serverId, hub.peers.length) :: hub.agents.filter (·.1 ≠ serverId)
    peers := hub.peers ++ [⟨serverId, .reads, false, []⟩] }

/-- A message of the agent, or none where reading fails; `dispatchAgentMessage` looks its session up. -/
def agentMessage (hub : Hub) (peer : Nat) (p : Peer) (incoming : Option Message) : Hub :=
  if p.doing ≠ .reads then hub
  else match incoming with
    | none => { hub with peers := hub.peers.modify peer ({ · with doing := .hungUp, broken := true }) }
    | some m =>
      if m.sessionId = "" then hub
      else match hub.session? m.sessionId with
        | some s => if s.listed && s.agent = peer then hub.setPeer peer (.found m) else hub
        | none => hub

/-- The next step of AgentSocket. -/
def dispatch (hub : Hub) (peer : Nat) (p : Peer) : Hub :=
  match p.doing with
  | .found m =>
    if m.type = "output" ∨ m.type = "error" ∨ m.type = "exit" then
      { hub.setPeer peer (.told m) with shown := hub.shown ++ [(m.sessionId, m)] }
    else hub.setPeer peer .reads
  | .told m =>
    if m.type = "output" then (hub.account m.sessionId false m.data).setPeer peer .reads
    else if m.type = "error" then (hub.endSession m.sessionId .failed m.reason false).setPeer peer (.ends m.sessionId)
    else (hub.endSession m.sessionId .closed m.reason false).setPeer peer (.ends m.sessionId)
  | .ends id => if (hub.session? id).all Session.ended then hub.setPeer peer .reads else hub
  | .hungUp =>
    let affected := hub.sessions.filter fun s => s.listed && s.serverId = p.serverId && s.agent = peer
    { hub.setPeer peer (.closes (affected.map (·.id))) with agents := hub.agents.filter (· ≠ (p.serverId, peer)) }
  | .closes (id :: rest) =>
    if (hub.session? id).all Session.ended then hub.setPeer peer (.closes rest)
    else hub.endSession id .agentDisconnected "Agent terminal channel disconnected" false
  | .reads | .closes [] => hub

/-! ### Steps -/

/-- The control plane starts anew; the table stays. -/
def restart (hub : Hub) : Hub :=
  { hub with
    agents := [], tickets := [], asking := [], visits := [], sessions := []
    peers := hub.peers.map fun p => { p with doing := .closes [], broken := true } }

end Hub

inductive Move where
  | wait (d : Nat)
  | askTicket (serverId userId : String)
  | checkTicket (i : Nat)
  | issueTicket (i : Nat) (value : String)
  | redeemTicket (value : String)
  | visit (i : Nat)
  | createSession (i : Nat) (id : String) (ok : Bool)
  | handle (id : String) (ok : Bool)
  | browserMessage (id : String) (incoming : Option Message)
  | timeout (id : String)
  | registerAgent (serverId : String)
  | agentMessage (peer : Nat) (incoming : Option Message)
  | dispatch (peer : Nat)
  | proceed (id : String) (ok : Bool)
  | restart

/-- What a move makes of the hub; one that cannot be made now leaves it. -/
def Hub.step (hub : Hub) : Move → Hub
  | .wait d => { hub with now := hub.now + d }
  | .askTicket serverId userId => hub.askTicket serverId userId
  | .checkTicket i => hub.checkTicket i
  | .issueTicket i value => hub.issueTicket i value
  | .redeemTicket value => hub.redeemTicket value
  | .visit i => hub.visit i
  | .createSession i id ok => hub.createSession i id ok
  | .handle id ok =>
    match hub.session? id with
    | some s => hub.handle s ok
    | none => hub
  | .browserMessage id incoming =>
    match hub.session? id with
    | some s => hub.browserMessage s incoming
    | none => hub
  | .timeout id =>
    match hub.session? id with
    | some s => hub.timeout s
    | none => hub
  | .registerAgent serverId => hub.registerAgent serverId
  | .agentMessage peer incoming =>
    match hub.peers[peer]? with
    | some p => hub.agentMessage peer p incoming
    | none => hub
  | .dispatch peer =>
    match hub.peers[peer]? with
    | some p => hub.dispatch peer p
    | none => hub
  | .proceed id ok =>
    match hub.session? id with
    | some s =>
      match s.phase with
      | .ending e => hub.proceed s e ok
      | _ => hub
    | none => hub
  | .restart => hub.restart

def hubMachine : Machine Hub Move := ⟨Hub.step⟩

end Terminal
end DatrixOps
