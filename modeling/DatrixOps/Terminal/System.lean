import DatrixOps.Terminal.Hub
import DatrixOps.Terminal.Manager

/-! The hub and the session managers of the agents, one for each connection. On a connection the messages
    arrive in the order in which they were written. -/

namespace DatrixOps
namespace Terminal
open Golang

inductive AgentMove where
  | take (started : Except String Unit)
  | act (failure : Option String) (ok : Bool)
  | hangUp
  | wait (session : Nat) (cause : Cause) (ok : Bool)
  | streamOutput (session : Nat) (result : ReadResult) (ok : Bool)
  | shellExits (session : Nat)

/-- What a move makes of a manager, at this instant and with these messages written to it. -/
def SessionManager.step (m : SessionManager) (now : Int) (outbox : List Message) : AgentMove → SessionManager
  | .take started =>
    match outbox[m.taken]? with
    | some incoming => if m.doing = .reads then m.take now incoming started else m
    | none => m
  | .act failure ok => m.act failure ok
  | .hangUp => if m.doing = .reads then m.hangUp else m
  | .wait k cause ok =>
    match m.sessions[k]? with
    | some session => m.wait now k session cause ok
    | none => m
  | .streamOutput k result ok =>
    match m.sessions[k]? with
    | some session => m.streamOutput k session result ok
    | none => m
  | .shellExits k => m.shellExits k

/-- A connection: the manager at its end. It is kept besides whose goroutine wrote each message to the agent,
    from whose PTY the message is that AgentSocket has in hand, and which browser was sent output of which
    PTY. -/
structure Connection where
  manager : SessionManager
  writers : List String
  held : Option Nat
  delivered : List (String × Nat)
  deriving DecidableEq

structure System where
  hub : Hub
  connections : List Connection
  deriving DecidableEq

def NewSystem : System := ⟨NewHub, []⟩

inductive SystemMove where
  | hub (move : Move)
  | receive (peer : Nat)
  | agent (peer : Nat) (move : AgentMove)

/-- What has been written to the agent of a connection. -/
def Hub.outbox (hub : Hub) (i : Nat) : List Message :=
  match hub.peers[i]? with
  | some p => p.outbox
  | none => []

/-- The output that AgentSocket passes on in its next step. -/
def Hub.passing (hub : Hub) (i : Nat) : Option Message :=
  match hub.peers[i]? with
  | some ⟨_, .found m, _, _⟩ => if m.type = "output" then some m else none
  | _ => none

/-- The session whose goroutine moves, where that may write to an agent. -/
def Move.writer : Move → List String
  | .handle id _ | .proceed id _ => [id]
  | _ => []

/-- What is kept of a step of the hub. -/
def Connection.follow (c : Connection) (i : Nat) (hub : Hub) (move : Move) : Connection :=
  { c with
    writers := if (hub.outbox i).length < ((hub.step move).outbox i).length then c.writers ++ move.writer else c.writers
    delivered :=
      match move, hub.passing i, c.held with
      | .dispatch peer, some m, some k => if peer = i then c.delivered ++ [(m.sessionId, k)] else c.delivered
      | _, _, _ => c.delivered }

namespace System

/-- A step of the hub. It does not start anew, and what it reads from an agent is what that has sent. -/
def stepHub (sys : System) (move : Move) : System :=
  match move with
  | .restart | .agentMessage _ (some _) => sys
  | .registerAgent serverId => ⟨sys.hub.step (.registerAgent serverId),
    sys.connections ++ [⟨newSessionManager, [], none, []⟩]⟩
  | move => ⟨sys.hub.step move, sys.connections.mapIdx fun i c => c.follow i sys.hub move⟩

/-- The hub reads the next message of an agent. -/
def receive (sys : System) (peer : Nat) : System :=
  match sys.connections[peer]?, sys.hub.peers[peer]? with
  | some c, some p =>
    match p.doing, c.manager.sent with
    | .reads, next :: rest =>
      ⟨sys.hub.step (.agentMessage peer (some next.message)),
        sys.connections.set peer { c with manager := { c.manager with sent := rest }, held := next.source }⟩
    | _, _ => sys
  | _, _ => sys

def step (sys : System) : SystemMove → System
  | .hub move => sys.stepHub move
  | .receive peer => sys.receive peer
  | .agent peer move =>
    match sys.connections[peer]? with
    | some c =>
      { sys with
        connections := sys.connections.set peer
          { c with manager := c.manager.step sys.hub.now (sys.hub.outbox peer) move } }
    | none => sys

end System

def systemMachine : Machine System SystemMove := ⟨System.step⟩

end Terminal
end DatrixOps
