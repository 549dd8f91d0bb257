import DatrixOps.Postgres.Text
import DatrixOps.Server.Rows

/-! SyncSelfHost on a table of servers with all their columns, and the heartbeat that triggers it. The columns
    that neither reads are one value of any type. -/

namespace DatrixOps
open Postgres

/-- What enrollment takes from outside: the digest of credentials, the two tokens made of the bytes drawn, how
    Go and the database lower-case text, which texts the database reads as a `uuid`, and whether
    `DATABASE_URL` asks for the simple query protocol, which writes the arguments into the statement. -/
structure Agent.Credentials where
  sha256Hex : String → String
  credential : Nat → String
  rollbackToken : Nat → String
  toLower : Golang.CaseMap
  sqlLower : Golang.CaseMap
  uuidIn : String → Option Uuid
  simpleProtocol : Bool

namespace SelfHost

/-! ### The self-monitor token -/

/-- The host the control plane runs on: /etc/datrixops/self-monitor.env, DATRIXOPS_SELF_MONITOR_TOKEN, and the user that
    signed up first. -/
structure Host where
  file : Option (List Char)
  env : List Char
  firstUser : Option Uuid

def tokenKey : List Char := "DATRIXOPS_AGENT_TOKEN=".toList

/-- What the file says after its first key, without quotes. -/
def tokenInFile (content : List Char) : List Char :=
  match ((Golang.split '\n' content).map Golang.trimSpace).find? (tokenKey.isPrefixOf ·) with
  | some line => Golang.trim ['"', '\''] (Golang.trimSpace (line.drop tokenKey.length))
  | none => []

/-- ReadSelfMonitorToken, without the digest -/
def Host.readSelfMonitorToken (host : Host) : Option String :=
  let inFile := (host.file.map tokenInFile).getD []
  let rawToken := if inFile = [] then Golang.trimSpace host.env else inFile
  if rawToken = [] then none else some (String.ofList rawToken)

def Host.checkSelfMonitorToken (host : Host) (providedToken : String) : Bool :=
  let providedToken := Golang.trimSpace providedToken.toList
  providedToken ≠ [] && (host.readSelfMonitorToken = some (String.ofList providedToken) || providedToken =
    Golang.trimSpace host.env)

/-! ### The table -/

/-- A row of `servers`. -/
structure Server (C : Type) where
  id : Uuid
  userId : Uuid
  name : String
  tags : Option (List String)
  status : Option String
  agentToken : Option String
  agentTokenHash : Option String
  enrolledAt : Option Time
  lastSeenAt : Option Time
  createdAt : Option Time
  updatedAt : Option Time
  rest : C
  deriving DecidableEq, Repr

/-- The rows of `servers`, in no particular order. -/
structure Servers (C : Type) where
  rows : List (Server C)
  nodup : (rows.map (·.id)).Nodup

variable {C : Type}

/-- `tags ? tag` -/
def Server.tagged (r : Server C) (tag : String) : Bool := r.tags.any (·.contains tag)

def Server.named (r : Server C) (p : Agent.Credentials) : Bool :=
  ilike p.sqlLower "%DatrixOps%".toList r.name.toList || ilike p.sqlLower "%Control Plane%".toList r.name.toList

/-- `tags ? 'self-host' OR tags ? 'control-plane' OR name ILIKE '%DatrixOps%' OR name ILIKE '%Control Plane%'` -/
def Server.selfHost (r : Server C) (p : Agent.Credentials) : Bool :=
  r.tagged "self-host" || r.tagged "control-plane" || r.named p

/-- `CASE WHEN agent_token_hash = $1 THEN 0 WHEN status = 'online' THEN 1 ELSE 2 END` -/
def Server.rank (r : Server C) (tokenHash : String) : Nat :=
  if r.agentTokenHash = some tokenHash then 0 else if r.status = some "online" then 1 else 2

/-- One time comes before another, and `NULL` last. -/
def nullsLast (before : Time → Time → Bool) : Option Time → Option Time → Bool
  | some t, some t' => before t t'
  | some _, none => true
  | none, _ => false

/-- `ORDER BY CASE .. END, last_seen_at DESC NULLS LAST, created_at ASC` -/
def Server.before (r r' : Server C) (tokenHash : String) : Bool :=
  r.rank tokenHash < r'.rank tokenHash || (r.rank tokenHash = r'.rank tokenHash &&
    (nullsLast (fun t t' => t' < t) r.lastSeenAt r'.lastSeenAt || (r.lastSeenAt = r'.lastSeenAt &&
      nullsLast (fun t t' => t < t') r.createdAt r'.createdAt)))

/-! ### SyncSelfHost -/

inductive Statement where
  | find | insert | update | delete
  deriving DecidableEq

/-- What a call meets: the time, the statements that fail, which of the first rows `LIMIT 1` takes, and for a
    new row its generated id and its other columns. -/
structure Circumstances (C : Type) where
  now : Time
  fails : Statement → Bool
  choice : Nat
  newId : Uuid
  defaults : C

/-- The rows that the `SELECT` may return. -/
def first (p : Agent.Credentials) (tokenHash : String) (rows : List (Server C)) : List (Server C) :=
  let found := rows.filter fun r => r.agentTokenHash = some tokenHash || r.selfHost p
  found.filter fun r => found.all fun r' => !r'.before r tokenHash

/-- The record that is inserted. -/
def controlPlane (newId : Uuid) (defaults : C) (now : Time) (userId : Uuid) (tokenHash : String) : Server C where
  id := newId
  userId := userId
  name := "Control Plane"
  tags := some ["self-host", "control-plane"]
  status := some "offline"
  agentToken := none
  agentTokenHash := some tokenHash
  enrolledAt := some now
  lastSeenAt := none
  createdAt := some now
  updatedAt := some now
  rest := defaults

/-- The `SET` of the `UPDATE`. -/
def Server.adopted (r : Server C) (userId : Uuid) (tokenHash : String) (now : Time) : Server C :=
  { r with
    userId := userId
    name := if r.name = "" then "Control Plane" else r.name
    tags := match r.tags with
      | none | some [] => some ["self-host", "control-plane"]
      | some tags => some <| if !r.tagged "self-host" && !r.tagged "control-plane" then
        tags ++ ["self-host", "control-plane"]
        else tags
    agentTokenHash := some tokenHash
    enrolledAt := some (r.enrolledAt.getD now)
    updatedAt := some now }

namespace Servers

/-- The insert fails on the primary key and on `idx_servers_agent_token_hash`. -/
def insert (t : Servers C) (r : Server C) : Servers C :=
  if h : r.id ∉ t.rows.map (·.id) ∧ ∀ r' ∈ t.rows, r'.agentTokenHash ≠ r.agentTokenHash then
    ⟨t.rows ++ [r], by
      rw [List.map_append]
      exact List.nodup_append.mpr ⟨t.nodup, List.nodup_singleton _, fun a ha b hb => by
        rw [List.mem_singleton.mp hb]
        rintro rfl
        exact h.1 ha⟩⟩
  else t

/-- An `UPDATE` that keeps the ids. -/
def update (t : Servers C) (where_ : Server C → Bool) (set : Server C → Server C)
    (h : ∀ r, (set r).id = r.id) : Servers C :=
  ⟨t.rows.map fun r => if where_ r then set r else r, by
    have same : (t.rows.map fun r => if where_ r then set r else r).map (·.id) = t.rows.map (·.id) := by
      rw [List.map_map]
      refine List.map_congr_left fun r _ => ?_
      simp only [Function.comp_apply]
      split <;> simp [h]
    rw [same]
    exact t.nodup⟩

def delete (t : Servers C) (where_ : Server C → Bool) : Servers C :=
  ⟨t.rows.filter fun r => !where_ r, t.nodup.sublist (List.filter_sublist.map _)⟩

end Servers

/-- SyncSelfHost ensures that the server record in the database matches the credentials configured in
    /etc/datrixops/self-monitor.env. -/
def syncSelfHost (p : Agent.Credentials) (host : Host) (c : Circumstances C) (t : Servers C) : Servers C :=
  match host.readSelfMonitorToken, host.firstUser with
  | some rawToken, some userId =>
    let tokenHash := p.sha256Hex rawToken
    let found := first p tokenHash t.rows
    match if c.fails .find then none else found[c.choice % found.length]? with
    | none => if c.fails .insert then t else t.insert (controlPlane c.newId c.defaults c.now userId tokenHash)
    | some existing =>
      if c.fails .update then t
      else
        let updated := t.update (fun r => r.id = existing.id) (fun r => r.adopted userId tokenHash c.now) fun _ => rfl
        if c.fails .delete then updated
        else updated.delete fun r => r.id ≠ existing.id && r.selfHost p && r.status = some "offline"
  | _, _ => t

/-! ### Heartbeat -/

/-- `agent_token = $2 OR agent_token_hash = $6` -/
def Server.accepts (r : Server C) (p : Agent.Credentials) (agentToken : String) : Bool :=
  r.agentToken = some agentToken || r.agentTokenHash = some (p.sha256Hex agentToken)

/-- The `UPDATE` of a heartbeat, `report` being what it does to the columns that it reports. -/
def recordHeartbeat (p : Agent.Credentials) (agentToken : String) (now : Time) (report : C → C)
    (t : Servers C) : Servers C :=
  t.update (fun r => r.accepts p agentToken)
    (fun r => { r with status := some "online", lastSeenAt := some now, updatedAt := some now, rest := report r.rest })
      fun _ => rfl

/-- The statements of Heartbeat on the servers. -/
def heartbeat (p : Agent.Credentials) (host : Host) (agentToken : String) (report : C → C) (c : Circumstances C)
    (t : Servers C) :
    Servers C :=
  if t.rows.any fun r => r.accepts p agentToken then recordHeartbeat p agentToken c.now report t
  else if host.checkSelfMonitorToken agentToken then recordHeartbeat p agentToken c.now report (syncSelfHost p host c t)
  else t

end SelfHost
end DatrixOps
