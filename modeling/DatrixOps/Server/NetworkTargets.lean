import Mathlib.Data.List.Dedup
import DatrixOps.Postgres.Call
import DatrixOps.Postgres.Numeric
import DatrixOps.Postgres.Text
import DatrixOps.Diagnostics.Probe
import DatrixOps.Server.Rows

/-! CreateNetworkTargets: the targets of a batch are inserted one after the other, each by a statement of its own. -/

namespace DatrixOps
open Postgres Golang Call Diagnostics

/-- A target to create. Its id is not set yet. -/
structure NewNetworkTarget extends NetworkTarget where
  agentId : String
  name : List Char
  deriving DecidableEq

/-- A row of `network_targets`. -/
structure NetworkTargetRow where
  id : Uuid
  agentId : Uuid
  name : List Char
  host : List Char
  port : Int
  tag : List Char
  probeMethod : List Char
  probesPerRun : Int
  alertLatencyWarningMs : Option ℚ
  alertLatencyCriticalMs : Option ℚ
  alertLossCriticalPct : Option ℚ
  enabled : Bool
  isGateway : Bool
  deriving DecidableEq

namespace CreateNetworkTargets

section
-- how the driver reads the text of an identifier, and how it writes one
variable (parseUuid : String → Option Uuid) (uuidText : Uuid → String)

/-- The method that is stored of a target. -/
def storedMethod (t : NetworkTarget) : List Char := if isTCP t then tcp else icmp

/-- The row of the insert, where the database accepts it beside the servers there are. -/
def networkTargetRow (t : NewNetworkTarget) (servers : List Server) (id : Uuid) : Option NetworkTargetRow := do
  let agentId ← parseUuid t.agentId
  guard (servers.any (·.id = agentId))
  let name ← storedText 255 t.name
  let host ← storedText 255 t.host
  let port ← int4 t.port
  let tag ← storedText 100 (liveTag t.toNetworkTarget)
  let probesPerRun ← int4 (probesCount t.toNetworkTarget)
  return {
    id := id, agentId := agentId, name := name, host := host, port := port, tag := tag
    probeMethod := storedMethod t.toNetworkTarget, probesPerRun := probesPerRun
    alertLatencyWarningMs := t.alertLatencyWarningMs, alertLatencyCriticalMs := t.alertLatencyCriticalMs
    alertLossCriticalPct := t.alertLossCriticalPct, enabled := t.enabled, isGateway := t.isGateway }

/-- One round of the loop. -/
def createNetworkTarget (t : NewNetworkTarget) : Call (List Server) NetworkTargetRow String NewNetworkTarget := do
  let id ← insertAlone "insert network target" (networkTargetRow parseUuid t)
  return { t with
    id := uuidText id
    probesPerRun := probesCount t.toNetworkTarget
    probeMethod := storedMethod t.toNetworkTarget
    tag := liveTag t.toNetworkTarget }

/-- `SELECT COUNT(DISTINCT id) FROM servers WHERE id = ANY($1) AND user_id = $2` -/
def ownedCount (servers : List Server) (ids : List Uuid) (userId : Uuid) : Nat :=
  ((servers.filter fun s => s.id ∈ ids && s.userId = userId).map (·.id)).dedup.length

/-- Verify all target agent_ids belong to the user. -/
def verifyOwnership (targets : List NewNetworkTarget) (userId : Uuid) (servers : List Server) : Except String Unit :=
  match targets.mapM fun t => parseUuid t.agentId with
  | none => .error "verify servers ownership"
  | some ids =>
    if ownedCount servers ids userId ≠ (targets.map (·.agentId)).dedup.length then
      .error "one or more target servers not found or not owned by user"
    else .ok ()

def createNetworkTargets (targets : List NewNetworkTarget) (userId : Uuid) :
    Call (List Server) NetworkTargetRow String (List NewNetworkTarget) :=
  if targets = [] then pure []
  else do
    statement "verify servers ownership" (verifyOwnership parseUuid targets userId)
    each (createNetworkTarget parseUuid uuidText) targets

end

end CreateNetworkTargets
end DatrixOps
