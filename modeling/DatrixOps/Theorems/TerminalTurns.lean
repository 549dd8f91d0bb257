import Mathlib.Data.List.Induction
import DatrixOps.Terminal.System
import DatrixOps.Theorems.SessionRows

/-! How the sessions of a server take turns. The unique index keeps two of them from being in hand at once, so
    on each connection a session is closed, or its agent has reported its end, before the next one is started.
    -/

namespace DatrixOps
namespace TerminalTurns
open Terminal Terminal.Hub SessionRows

/-! ### The sessions in hand -/

/-- The sessions in hand have the active rows, and a server has one active row. -/
structure Apart (hub : Hub) : Prop where
  ids : ∀ s ∈ hub.sessions, s.id ∈ hub.ids
  unique : (hub.sessions.map (·.id)).Nodup
  active : ∀ s ∈ hub.sessions, inHand s = true → ∃ row ∈ hub.rows, row.id = s.id ∧ row.serverId = s.serverId ∧
    row.status = .active
  index : ∀ row ∈ hub.rows, ∀ row' ∈ hub.rows, row.status = .active → row'.status = .active →
    row.serverId = row'.serverId → row.id = row'.id

namespace Apart
variable {hub : Hub}

theorem eq_of_id (h : Apart hub) {s s' : Session} (mem : s ∈ hub.sessions) (mem' : s' ∈ hub.sessions)
    (same : s.id = s'.id) : s = s' :=
  List.inj_on_of_nodup_map h.unique mem mem' same

/-- A server has one session in hand. -/
theorem eq_of_server (h : Apart hub) {s s' : Session} (mem : s ∈ hub.sessions) (mem' : s' ∈ hub.sessions)
    (hand : inHand s = true)
    (hand' : inHand s' = true) (same : s.serverId = s'.serverId) : s = s' := by
  obtain ⟨row, there, mine, server, active⟩ := h.active s mem hand
  obtain ⟨row', there', mine', server', active'⟩ := h.active s' mem' hand'
  have ids := h.index row there row' there' active active' (by rw [server, server', same])
  rw [mine, mine'] at ids
  exact h.eq_of_id mem mem' ids

theorem edit (h : Apart hub) {id : String} {f : Session → Session}
    (keeps : ∀ s ∈ hub.sessions, s.id = id → (f s).id = s.id ∧ (f s).serverId = s.serverId ∧
      (inHand (f s) = true → inHand s = true)) :
    Apart (hub.edit id f) := by
  have changed : ∀ s ∈ hub.sessions, (if s.id = id then f s else s).id = s.id ∧
    (if s.id = id then f s else s).serverId = s.serverId ∧
      (inHand (if s.id = id then f s else s) = true → inHand s = true) := by
    intro s mem
    by_cases mine : s.id = id
    · rw [if_pos mine]
      exact keeps s mem mine
    · rw [if_neg mine]
      exact ⟨rfl, rfl, fun hand => hand⟩
  refine ⟨?_, ?_, ?_, h.index⟩
  · intro s' mem
    obtain ⟨s, old, rfl⟩ := List.mem_map.mp mem
    rw [(changed s old).1]
    exact h.ids s old
  · have names : (hub.edit id f).sessions.map (·.id) = hub.sessions.map (·.id) := by
      rw [Hub.edit, List.map_map]
      exact List.map_congr_left fun s mem => (changed s mem).1
    rw [names]
    exact h.unique
  · intro s' mem hand
    obtain ⟨s, old, rfl⟩ := List.mem_map.mp mem
    obtain ⟨sameId, sameServer, sameHand⟩ := changed s old
    rw [sameId, sameServer]
    exact h.active s old (sameHand hand)

theorem beside {hub' : Hub} (b : Beside hub hub') (h : Apart hub) : Apart hub' := by
  obtain ⟨sessions, rows, -, ids, -, -⟩ := b
  constructor
  · rw [sessions, ids]
    exact h.ids
  · rw [sessions]
    exact h.unique
  · rw [sessions, rows]
    exact h.active
  · rw [rows]
    exact h.index

theorem openSession (t : Ticket) (agent : Nat) (id : String) (fresh : id ∉ hub.ids)
    (free : hub.occupied t.serverId = false)
    (h : Apart hub) : Apart (hub.openSession t agent id) := by
  have alone : ∀ row ∈ hub.rows, row.status = .active → row.serverId ≠ t.serverId := by
    intro row mem active same
    have taken := List.any_eq_false.mp free row mem
    exact taken (by simp [same, active])
  refine ⟨?_, ?_, ?_, ?_⟩
  · intro s mem
    rcases List.mem_append.mp mem with old | new
    · exact List.mem_append_left _ (h.ids s old)
    · rw [List.mem_singleton.mp new]
      exact List.mem_append_right _ (List.mem_singleton_self id)
  · rw [Hub.openSession, List.map_append, List.nodup_append]
    refine ⟨h.unique, List.nodup_singleton id, ?_⟩
    rintro other mem new mem' rfl
    obtain ⟨s, there, rfl⟩ := List.mem_map.mp mem
    have same : s.id = id := List.mem_singleton.mp mem'
    exact fresh (same ▸ h.ids s there)
  · intro s mem hand
    rcases List.mem_append.mp mem with old | new
    · obtain ⟨row, there, rest⟩ := h.active s old hand
      exact ⟨row, List.mem_append_left _ there, rest⟩
    · rw [List.mem_singleton.mp new]
      exact ⟨_, List.mem_append_right _ (List.mem_singleton_self _), rfl, rfl, rfl⟩
  · intro row mem row' mem' active active' same
    rcases List.mem_append.mp mem with old | new <;> rcases List.mem_append.mp mem' with old' | new'
    · exact h.index row old row' old' active active' same
    · rw [List.mem_singleton.mp new'] at same
      exact absurd same (alone row old active)
    · rw [List.mem_singleton.mp new] at same
      exact absurd same.symm (alone row' old' active')
    · rw [List.mem_singleton.mp new, List.mem_singleton.mp new']

theorem survives : Survives Apart where
  beside := beside
  serve _ _ h := h.edit fun _ _ _ => ⟨rfl, rfl, id⟩
  list s here created h := by
    refine h.edit fun s' mem mine => ⟨rfl, rfl, fun _ => ?_⟩
    rw [h.eq_of_id mem here mine, inHand, created]
  endSession id status reason notifyAgent _ h := by
    refine h.edit fun s _ _ => ?_
    rcases phase : s.phase with - | - | e
    · exact ⟨rfl, rfl, fun hand => hand⟩
    · exact ⟨rfl, rfl, fun _ => by rw [inHand, phase]⟩
    · exact ⟨rfl, rfl, fun hand => hand⟩
  account {hub} id fromBrowser data _ h := by
    have counted : Apart (hub.edit id (addBytes · fromBrowser (decodedLength data))) := by
      refine h.edit fun s _ _ => ?_
      obtain ⟨sameId, sameServer, samePhase⟩ := SessionRows.Inv.addBytes_same s fromBrowser (decodedLength data)
      exact ⟨sameId, sameServer, fun hand => by rwa [inHand, samePhase] at hand⟩
    exact ⟨counted.ids, counted.unique, counted.active, counted.index⟩
  openSession := openSession

/-- The row of a session out of hand is closed. -/
theorem closeSession (h : Apart hub) {id : String} (status : Status) (reason : String) (n m : Int)
    (out : ∀ s ∈ hub.sessions, s.id = id → inHand s = false) : Apart (hub.closeSession id status reason n m) := by
  have row_of {row' : SessionRow} (mem : row' ∈ (hub.closeSession id status reason n m).rows) :
      ∃ row ∈ hub.rows, row'.id = row.id ∧ row'.serverId = row.serverId ∧
        (row'.status = .active → row.status = .active) := by
    obtain ⟨row, old, rfl⟩ := List.mem_map.mp mem
    refine ⟨row, old, ?_⟩
    by_cases mine : row.id = id ∧ row.status = .active
    · rw [if_pos mine]
      exact ⟨rfl, rfl, fun _ => mine.2⟩
    · rw [if_neg mine]
      exact ⟨rfl, rfl, fun active => active⟩
  refine ⟨h.ids, h.unique, ?_, ?_⟩
  · intro s mem hand
    obtain ⟨row, there, mine, rest⟩ := h.active s mem hand
    refine ⟨row, List.mem_map.mpr ⟨row, there, if_neg fun both => ?_⟩, mine, rest⟩
    rw [out s mem (mine.symm.trans both.1)] at hand
    exact Bool.noConfusion hand
  · intro row mem row' mem' active active' same
    obtain ⟨old, there, sameId, sameServer, wasActive⟩ := row_of mem
    obtain ⟨old', there', sameId', sameServer', wasActive'⟩ := row_of mem'
    rw [sameId, sameId']
    exact h.index old there old' there' (wasActive active) (wasActive' active')
      (by rw [← sameServer, ← sameServer', same])

/-- A step of `endSession` that comes after the present one. -/
theorem reach (h : Apart hub) {s : Session} {e : Ending} {stage : Stage} (here : s ∈ hub.sessions)
    (same : inHand { s with phase := .ending { e with stage := stage } } = true → inHand s = true) :
      Apart (hub.reach s.id e stage) := by
  refine h.edit fun s' mem mine => ⟨rfl, rfl, fun hand => ?_⟩
  rw [h.eq_of_id mem here mine]
  exact same hand

theorem proceed (h : Apart hub) {s : Session} {e : Ending} (here : s ∈ hub.sessions)
    (phase : s.phase = .ending e) (ok : Bool) :
    Apart (hub.proceed s e ok) := by
  obtain ⟨status, reason, notify, stage⟩ := e
  unfold Hub.proceed
  cases stage with
  | deleted =>
    simp only
    split
    · exact (survives.write h _ _ _).reach here fun _ => by rw [inHand, phase]
    · exact h.reach here fun _ => by rw [inHand, phase]
  | counted n m =>
    have stored : Apart (hub.reach s.id ⟨status, reason, notify, .counted n m⟩ (.stored n m)) :=
      h.reach here Bool.noConfusion
    simp only
    split
    · refine stored.closeSession status reason n m fun s' mem mine => ?_
      obtain ⟨old, -, rfl⟩ := List.mem_map.mp mem
      by_cases it : old.id = s.id
      · rw [if_pos it]
        rfl
      · rw [if_neg it] at mine
        exact absurd mine it
    · exact stored
  | stored n m =>
    have audited : Apart (hub.auditClose s.id status reason n m) := ⟨h.ids, h.unique, h.active, h.index⟩
    simp only
    split
    · exact audited.reach here Bool.noConfusion
    · exact h.reach here Bool.noConfusion
  | done => exact h
  | cancelled | notified | disconnected | loaded n => exact h.reach here fun _ => by rw [inHand, phase]

theorem step (h : Apart hub) (move : Move) (stays : move ≠ .restart) : Apart (hub.step move) := by
  refine survives.step h move ?_ fun eq => absurd eq stays
  rintro id ok s e rfl here phase
  exact h.proceed (found here).1 phase ok

theorem newHub : Apart NewHub := by
  refine ⟨?_, List.nodup_nil, ?_, ?_⟩ <;> exact fun _ mem => absurd mem List.not_mem_nil

end Apart

/-! ### Starts and closes on a connection -/

/-- The session whose turn it is after a message: it has been started, and not closed since. -/
def turn (last : Option String) (m : Message) : Option String :=
  if m.type = "session_start" then some m.sessionId
  else if m.type = "session_close" ∧ last = some m.sessionId then none
  else last

/-- The session whose turn it is after these messages. -/
def startedOf (messages : List Message) : Option String := messages.foldl turn none

/-- The sessions that these messages start. -/
def starts (messages : List Message) : List String := (messages.filter (·.type = "session_start")).map (·.sessionId)

section
variable {messages : List Message} {m : Message}

theorem startedOf_append : startedOf (messages ++ [m]) = turn (startedOf messages) m := by
  rw [startedOf, startedOf, List.foldl_append]
  rfl

theorem turn_start {last : Option String} (type : m.type = "session_start") :
    turn last m = some m.sessionId := if_pos type

theorem turn_close (type : m.type = "session_close") : turn (some m.sessionId) m = none := by
  have other : m.type ≠ "session_start" := by simp [type]
  rw [turn, if_neg other, if_pos ⟨type, rfl⟩]

theorem turn_other {last : Option String} (notStart : m.type ≠ "session_start") (notClose : m.type ≠ "session_close") :
    turn last m = last := by
  rw [turn, if_neg notStart, if_neg fun both => notClose both.1]

theorem mem_starts {id : String} : id ∈ starts messages ↔ ∃ m ∈ messages, m.type = "session_start" ∧
    m.sessionId = id := by
  simp [starts, and_assoc]

theorem starts_append : starts (messages ++ [m]) = starts messages ++
    if m.type = "session_start" then [m.sessionId] else [] := by
  by_cases start : m.type = "session_start" <;> simp [starts, start]

/-- What stands before a message, when one more has been written. -/
theorem before_cases {j : Nat} {x : Message} (at_ : (messages ++ [m])[j]? = some x) :
    (messages[j]? = some x ∧ (messages ++ [m]).take j = messages.take j) ∨
    (x = m ∧ (messages ++ [m]).take j = messages) := by
  rcases Nat.lt_or_ge j messages.length with old | new
  · rw [List.getElem?_append_left old] at at_
    exact Or.inl ⟨at_, List.take_append_of_le_length (Nat.le_of_lt old)⟩
  · rw [List.getElem?_append_right new] at at_
    rw [List.getElem?_singleton] at at_
    split at at_
    · rename_i zero
      have last : j = messages.length := Nat.le_antisymm (Nat.sub_eq_zero_iff_le.mp zero) new
      rw [last]
      exact Or.inr ⟨(Option.some.inj at_).symm, List.take_left⟩
    · exact nomatch at_

/-- The session whose turn it is has been started. -/
theorem startedOf_mem {id : String} (now : startedOf messages = some id) : id ∈ starts messages := by
  induction messages using List.reverseRecOn with
  | nil => exact nomatch now
  | append_singleton messages m ih =>
    rw [startedOf_append] at now
    rw [starts_append]
    by_cases start : m.type = "session_start"
    · rw [turn_start start] at now
      rw [if_pos start, Option.some.inj now]
      exact List.mem_append_right _ (List.mem_singleton_self id)
    · refine List.mem_append_left _ (ih ?_)
      rw [turn, if_neg start] at now
      split at now
      · exact nomatch now
      · exact now

end

/-- A session in hand whose agent has not been told to close it. -/
def untold (s : Session) : Bool :=
  match s.phase with
  | .created | .listed => true
  | .ending e =>
    match e.stage with
    | .cancelled | .deleted => true
    | .stored .. | .done => false
    | _ => !e.notifyAgent

theorem inHand_of_untold {s : Session} (h : untold s = true) : inHand s = true := by
  rcases phase : s.phase with - | - | e
  · rw [inHand, phase]
  · rw [inHand, phase]
  · rw [untold, phase] at h
    rw [inHand, phase]
    rcases e with ⟨status, reason, notify, stage⟩
    cases stage with
    | stored n m => exact Bool.noConfusion h
    | done => exact Bool.noConfusion h
    | _ => rfl

/-! ### Sessions and their connections -/

/-- A session and its connection: while it lives it is the session's turn, and the turn passes on only when
    the agent has been told to close the session or has reported its end. -/
structure Agrees (s : Session) (p : Peer) : Prop where
  server : p.serverId = s.serverId
  forwards : ∀ m, s.serving = .forwarding m → m.sessionId = s.id ∧ m.type ≠ "session_start" ∧ m.type ≠ "session_close"
  created : s.phase = .created → s.serving = .starting
  notifies : ∀ e, s.phase = .ending e → e.notifyAgent = true → s.serving ≠ .starting
  early : ∀ e, s.phase = .ending e → s.serving = .starting → p.broken = true
  turns : s.serving ≠ .starting → untold s = true → p.broken = false → startedOf p.outbox = some s.id
  awaits : p.broken = false → startedOf p.outbox = some s.id →
    s.phase = .listed ∨ ∃ e, s.phase = .ending e ∧ (e.notifyAgent = false ∨ e.stage = .cancelled ∨ e.stage = .deleted)

/-- What stays of a session. -/
structure Kept (s s' : Session) : Prop where
  id : s'.id = s.id
  agent : s'.agent = s.agent
  started : s.serving ≠ .starting → s'.serving ≠ .starting
  ended : ∀ e, s.phase = .ending e → e.notifyAgent = false → ∃ e', s'.phase = .ending e' ∧ e'.notifyAgent = false

/-- What has been written to a connection, and what AgentSocket does with its sessions. -/
structure Written (sessions : List Session) (i : Nat) (p : Peer) : Prop where
  writers : ∀ m ∈ p.outbox, ∃ s ∈ sessions, s.id = m.sessionId ∧ s.agent = i ∧ s.serving ≠ .starting
  starts : (starts p.outbox).Nodup
  closes : ∀ j m, p.outbox[j]? = some m → m.type = "session_close" → startedOf (p.outbox.take j) = some m.sessionId
  follows : ∀ j m id, p.outbox[j]? = some m → m.type = "session_start" → startedOf (p.outbox.take j) = some id →
    ∃ s ∈ sessions, s.id = id ∧ ∃ e, s.phase = .ending e ∧ e.notifyAgent = false
  down : (p.doing = .hungUp ∨ ∃ ids, p.doing = .closes ids) → p.broken = true
  affected : ∀ ids, p.doing = .closes ids → ∀ id ∈ ids, ∃ s ∈ sessions, s.id = id ∧ s.agent = i

/-- The agent that a visit has reached is the server's. -/
def Meets (hub : Hub) : Visit → Prop
  | .admitted _ => True
  | .reached t a | .cleared t a => ∃ p, hub.peers[a]? = some p ∧ p.serverId = t.serverId

/-- The connections of the hub are in order, and sessions, agents and visits are of them. -/
structure Orderly (hub : Hub) : Prop where
  sits : ∀ s ∈ hub.sessions, ∃ p, hub.peers[s.agent]? = some p ∧ Agrees s p
  written : ∀ i p, hub.peers[i]? = some p → Written hub.sessions i p
  agents : ∀ entry ∈ hub.agents, ∃ p, hub.peers[entry.2]? = some p ∧ p.serverId = entry.1
  visits : ∀ v ∈ hub.visits, Meets hub v

theorem Kept.refl (s : Session) : Kept s s := ⟨rfl, rfl, fun h => h, fun e phase told => ⟨e, phase, told⟩⟩

theorem Agrees.later {s : Session} {p p' : Peer} (h : Agrees s p) (server : p'.serverId = p.serverId)
    (outbox : p'.outbox = p.outbox)
    (broken : p.broken = true → p'.broken = true) : Agrees s p' := by
  have up : p'.broken = false → p.broken = false := fun up => by
    by_contra down
    rw [broken (eq_true_of_ne_false down)] at up
    exact Bool.noConfusion up
  refine ⟨server.trans h.server, h.forwards, h.created, h.notifies,
    fun e phase starting => broken (h.early e phase starting), ?_, ?_⟩
  · rw [outbox]
    exact fun started untold intact => h.turns started untold (up intact)
  · rw [outbox]
    exact fun intact => h.awaits (up intact)

theorem Agrees.rewritten {s : Session} {p : Peer} (h : Agrees s p) {outbox : List Message}
    (turns : s.serving ≠ .starting → untold s = true → p.broken = false → startedOf outbox = some s.id)
    (awaits : p.broken = false → startedOf outbox = some s.id →
      s.phase = .listed ∨ ∃ e, s.phase = .ending e ∧
      (e.notifyAgent = false ∨ e.stage = .cancelled ∨ e.stage = .deleted)) :
    Agrees s { p with outbox := outbox } :=
  ⟨h.server, h.forwards, h.created, h.notifies, h.early, turns, awaits⟩

theorem Agrees.serve {s : Session} {p : Peer} (h : Agrees s p) {serving : Serving}
    (old : s.serving ≠ .starting ∨ s.phase ≠ .created ∧ p.broken = true) (new : serving ≠ .starting)
    (forwards : ∀ m, serving = .forwarding m → m.sessionId = s.id ∧ m.type ≠ "session_start" ∧
      m.type ≠ "session_close") :
    Agrees { s with serving := serving } p := by
  refine ⟨h.server, forwards, fun phase => ?_, fun _ _ _ => new, fun _ _ starting => absurd starting new,
    fun _ untold up => ?_, h.awaits⟩
  · rcases old with started | ⟨other, -⟩
    · exact absurd (h.created phase) started
    · exact absurd phase other
  · rcases old with started | ⟨-, broken⟩
    · exact h.turns started untold up
    · rw [up] at broken
      exact Bool.noConfusion broken

/-- A step of `endSession`. -/
theorem Agrees.reach {s : Session} {p : Peer} (h : Agrees s p) {e : Ending} {stage : Stage}
    (phase : s.phase = .ending e)
    (told : untold { s with phase := .ending { e with stage := stage } } = true → untold s = true)
    (passes : p.broken = false → startedOf p.outbox = some s.id → e.notifyAgent = false ∨ stage = .cancelled ∨
      stage = .deleted) :
    Agrees { s with phase := .ending { e with stage := stage } } p := by
  refine ⟨h.server, h.forwards, nofun, fun e' eq => ?_, fun _ _ => h.early e phase,
    fun started untold => h.turns started (told untold), ?_⟩
  · rw [← Phase.ending.inj eq]
    exact h.notifies e phase
  · exact fun up now => Or.inr ⟨_, rfl, passes up now⟩

theorem Written.kept {sessions sessions' : List Session} {i : Nat} {p : Peer} (h : Written sessions i p)
    (kept : ∀ s ∈ sessions, ∃ s' ∈ sessions', Kept s s') : Written sessions' i p := by
  refine ⟨fun m mem => ?_, h.starts, h.closes, fun j m id at_ start now => ?_, h.down, fun ids closes id mem => ?_⟩
  · obtain ⟨s, there, mine, agent, started⟩ := h.writers m mem
    obtain ⟨s', there', k⟩ := kept s there
    exact ⟨s', there', k.id.trans mine, k.agent.trans agent, k.started started⟩
  · obtain ⟨s, there, mine, e, phase, silent⟩ := h.follows j m id at_ start now
    obtain ⟨s', there', k⟩ := kept s there
    exact ⟨s', there', k.id.trans mine, k.ended e phase silent⟩
  · obtain ⟨s, there, mine, agent⟩ := h.affected ids closes id mem
    obtain ⟨s', there', k⟩ := kept s there
    exact ⟨s', there', k.id.trans mine, k.agent.trans agent⟩

theorem Written.later {sessions : List Session} {i : Nat} {p p' : Peer} (h : Written sessions i p)
    (outbox : p'.outbox = p.outbox)
    (down : (p'.doing = .hungUp ∨ ∃ ids, p'.doing = .closes ids) → p'.broken = true)
    (affected : ∀ ids, p'.doing = .closes ids → ∀ id ∈ ids, ∃ s ∈ sessions, s.id = id ∧ s.agent = i) :
      Written sessions i p' := by
  refine ⟨?_, ?_, ?_, ?_, down, affected⟩
  · rw [outbox]
    exact h.writers
  · rw [outbox]
    exact h.starts
  · rw [outbox]
    exact h.closes
  · rw [outbox]
    exact h.follows

/-- One more message is written. -/
theorem Written.append {sessions : List Session} {i : Nat} {p : Peer} (h : Written sessions i p) {m : Message}
    (writer : ∃ s ∈ sessions, s.id = m.sessionId ∧ s.agent = i ∧ s.serving ≠ .starting)
    (start : m.type = "session_start" → m.sessionId ∉ TerminalTurns.starts p.outbox ∧
      ∀ id, startedOf p.outbox = some id →
      ∃ s ∈ sessions, s.id = id ∧ ∃ e, s.phase = .ending e ∧ e.notifyAgent = false)
    (close : m.type = "session_close" → startedOf p.outbox = some m.sessionId) :
    Written sessions i { p with outbox := p.outbox ++ [m] } := by
  refine ⟨fun x mem => ?_, ?_, fun j x at_ type => ?_, fun j x id at_ type now => ?_, h.down, h.affected⟩
  · rcases List.mem_append.mp mem with old | new
    · exact h.writers x old
    · rw [List.mem_singleton.mp new]
      exact writer
  · rw [starts_append]
    by_cases type : m.type = "session_start"
    · rw [if_pos type]
      exact List.Nodup.append h.starts (List.nodup_singleton _) (List.disjoint_singleton.mpr (start type).1)
    · rw [if_neg type, List.append_nil]
      exact h.starts
  · rcases before_cases at_ with ⟨old, before⟩ | ⟨rfl, before⟩
    · rw [before]
      exact h.closes j x old type
    · rw [before]
      exact close type
  · rcases before_cases at_ with ⟨old, before⟩ | ⟨rfl, before⟩
    · rw [before] at now
      exact h.follows j x id old type now
    · rw [before] at now
      exact (start type).2 id now

theorem Meets.later {hub hub' : Hub} {v : Visit} (h : Meets hub v)
    (servers : ∀ (i : Nat) (p : Peer), hub.peers[i]? = some p → ∃ p' : Peer, hub'.peers[i]? = some p' ∧
      p'.serverId = p.serverId) : Meets hub' v := by
  rcases v with t | ⟨t, a⟩ | ⟨t, a⟩
  · trivial
  all_goals
    obtain ⟨p, at_, server⟩ := h
    obtain ⟨p', at', same⟩ := servers a p at_
    exact ⟨p', at', same.trans server⟩

namespace Orderly
variable {hub : Hub}

/-- The connection of a session, and what has been written to it. -/
theorem line (h : Orderly hub) {s : Session} (here : s ∈ hub.sessions) :
    ∃ p, hub.peers[s.agent]? = some p ∧ Agrees s p ∧ Written hub.sessions s.agent p := by
  obtain ⟨p, at_, agrees⟩ := h.sits s here
  exact ⟨p, at_, agrees, h.written s.agent p at_⟩

theorem edit (h : Orderly hub) {id : String} {f : Session → Session}
    (kept : ∀ s ∈ hub.sessions, s.id = id → Kept s (f s))
    (agrees : ∀ s ∈ hub.sessions, s.id = id → ∀ p, hub.peers[s.agent]? = some p → Agrees s p → Agrees (f s) p) :
      Orderly (hub.edit id f) := by
  refine ⟨fun s' mem => ?_, fun i p at_ => (h.written i p at_).kept fun s mem => ?_, h.agents, h.visits⟩
  · obtain ⟨s, old, rfl⟩ := List.mem_map.mp mem
    obtain ⟨p, at_, was⟩ := h.sits s old
    by_cases mine : s.id = id
    · rw [if_pos mine]
      exact ⟨p, by rw [(kept s old mine).agent]; exact at_, agrees s old mine p at_ was⟩
    · rw [if_neg mine]
      exact ⟨p, at_, was⟩
  · refine ⟨_, List.mem_map_of_mem mem, ?_⟩
    by_cases mine : s.id = id
    · rw [if_pos mine]
      exact kept s mem mine
    · rw [if_neg mine]
      exact .refl s

/-- A change of a connection that leaves what has been written to it. -/
theorem modify (h : Orderly hub) {j : Nat} {f : Peer → Peer} (server : ∀ p, (f p).serverId = p.serverId)
    (outbox : ∀ p, hub.peers[j]? = some p → (f p).outbox = p.outbox)
    (broken : ∀ p, hub.peers[j]? = some p → p.broken = true → (f p).broken = true)
    (down : ∀ p, hub.peers[j]? = some p → ((f p).doing = .hungUp ∨ ∃ ids, (f p).doing = .closes ids) →
      (f p).broken = true)
    (affected : ∀ p, hub.peers[j]? = some p → ∀ ids, (f p).doing = .closes ids →
      ∀ id ∈ ids, ∃ s ∈ hub.sessions, s.id = id ∧ s.agent = j) :
    Orderly { hub with peers := hub.peers.modify j f } := by
  have forward : ∀ i p, hub.peers[i]? = some p → (hub.peers.modify j f)[i]? = some (if j = i then f p else p) := by
    intro i p at_
    rw [List.getElem?_modify, at_]
    rfl
  have servers : ∀ (i : Nat) (p : Peer), hub.peers[i]? = some p → ∃ p' : Peer, (hub.peers.modify j f)[i]? = some p' ∧
      p'.serverId = p.serverId := by
    intro i p at_
    refine ⟨_, forward i p at_, ?_⟩
    split
    · exact server p
    · rfl
  refine ⟨fun s mem => ?_, fun i p' at' => ?_, fun entry mem => ?_, fun v mem => (h.visits v mem).later servers⟩
  · obtain ⟨p, at_, agrees⟩ := h.sits s mem
    refine ⟨_, forward s.agent p at_, ?_⟩
    split
    · rename_i mine
      rw [← mine] at at_
      exact agrees.later (server p) (outbox p at_) (broken p at_)
    · exact agrees
  · rw [List.getElem?_modify] at at'
    obtain ⟨p, at_, rfl⟩ := Option.map_eq_some_iff.mp at'
    by_cases mine : j = i
    · rw [if_pos mine]
      subst mine
      exact (h.written j p at_).later (outbox p at_) (down p at_) (affected p at_)
    · rw [if_neg mine]
      exact h.written i p at_
  · obtain ⟨p, at_, same⟩ := h.agents entry mem
    obtain ⟨p', at', server'⟩ := servers entry.2 p at_
    exact ⟨p', at', server'.trans same⟩

theorem same (h : Orderly hub) {hub' : Hub} (sessions : hub'.sessions = hub.sessions) (peers : hub'.peers = hub.peers)
    (agents : ∀ entry ∈ hub'.agents, entry ∈ hub.agents) (visits : ∀ v ∈ hub'.visits, v ∈ hub.visits ∨ Meets hub v) :
      Orderly hub' := by
  refine ⟨?_, ?_, fun entry mem => ?_, fun v mem => ?_⟩
  · rw [sessions, peers]
    exact h.sits
  · rw [sessions, peers]
    exact h.written
  · rw [peers]
    exact h.agents entry (agents entry mem)
  · suffices met : Meets hub v from met.later fun i p at_ => ⟨p, by rw [peers]; exact at_, rfl⟩
    exact (visits v mem).elim (h.visits v) id

/-- A session writes to its agent. -/
theorem send (h : Orderly hub) (apart : Apart hub) {s : Session} {p : Peer} {m : Message} {f : Session → Session}
    (here : s ∈ hub.sessions)
    (at_ : hub.peers[s.agent]? = some p) (up : p.broken = false) (mine : m.sessionId = s.id) (kept : Kept s (f s))
    (serves : (f s).serving ≠ .starting) (own : Agrees (f s) { p with outbox := p.outbox ++ [m] })
    (others : ∀ s' ∈ hub.sessions, s' ≠ s → Agrees s' p → Agrees s' { p with outbox := p.outbox ++ [m] })
    (start : m.type = "session_start" → s.serving = .starting ∧ ∀ id, startedOf p.outbox = some id →
      ∃ s' ∈ hub.sessions, s'.id = id ∧ ∃ e, s'.phase = .ending e ∧ e.notifyAgent = false)
    (close : m.type = "session_close" → startedOf p.outbox = some s.id) :
      Orderly ((hub.write s.agent m true).edit s.id f) := by
  have grown : (if (true && !p.broken) = true then { p with outbox := p.outbox ++ [m] }
    else { p with broken := true }) =
      { p with outbox := p.outbox ++ [m] } := if_pos (by rw [up]; rfl)
  have forward : ∀ (i : Nat) (q : Peer), hub.peers[i]? = some q →
      (hub.write s.agent m true).peers[i]? = some (if s.agent = i then
        { p with outbox := p.outbox ++ [m] } else q) := by
    intro i q there
    rw [Hub.write, List.getElem?_modify, there, Option.map_eq_map, Option.map_some]
    by_cases it : s.agent = i
    · rw [← it, at_] at there
      simp only [it, if_true, ← Option.some.inj there, grown]
    · simp only [it, if_false]
  have servers : ∀ (i : Nat) (q : Peer), hub.peers[i]? = some q →
      ∃ q' : Peer, (hub.write s.agent m true).peers[i]? = some q' ∧ q'.serverId = q.serverId := by
    intro i q there
    refine ⟨_, forward i q there, ?_⟩
    split
    · rename_i it
      rw [← it, at_] at there
      rw [← Option.some.inj there]
    · rfl
  have keeps : ∀ s' ∈ hub.sessions, ∃ s'' ∈ ((hub.write s.agent m true).edit s.id f).sessions, Kept s' s'' := by
    intro s' mem
    refine ⟨_, List.mem_map_of_mem mem, ?_⟩
    split
    · rename_i it
      rw [apart.eq_of_id mem here it]
      exact kept
    · exact .refl s'
  refine ⟨fun s' mem => ?_, fun i q there => ?_, fun entry mem => ?_, fun v mem => (h.visits v mem).later servers⟩
  · obtain ⟨old, there, rfl⟩ := List.mem_map.mp mem
    by_cases it : old.id = s.id
    · rw [apart.eq_of_id there here it, if_pos rfl]
      have line := forward s.agent p at_
      rw [if_pos rfl] at line
      exact ⟨_, by rw [kept.agent]; exact line, own⟩
    · rw [if_neg it]
      obtain ⟨q, line, agrees⟩ := h.sits old there
      refine ⟨_, forward _ q line, ?_⟩
      split
      · rename_i same
        rw [← same, at_] at line
        rw [← Option.some.inj line] at agrees
        exact others old there (fun eq => it (by rw [eq])) agrees
      · exact agrees
  · rw [Hub.edit, Hub.write, List.getElem?_modify] at there
    obtain ⟨old, line, rfl⟩ := Option.map_eq_some_iff.mp there
    by_cases it : s.agent = i
    · rw [← it, at_] at line
      rw [if_pos it, ← Option.some.inj line, grown, ← it]
      refine ((h.written s.agent p at_).kept keeps).append ?_ ?_ ?_
      · refine ⟨f s, List.mem_map.mpr ⟨s, here, if_pos rfl⟩, kept.id.trans mine.symm, kept.agent, serves⟩
      · intro type
        obtain ⟨starting, ended⟩ := start type
        refine ⟨fun again => ?_, fun id now => ?_⟩
        · obtain ⟨x, mem, -, same⟩ := mem_starts.mp again
          obtain ⟨s', there', sameId, -, started⟩ := (h.written s.agent p at_).writers x mem
          rw [apart.eq_of_id there' here (sameId.trans (same.trans mine))] at started
          exact started starting
        · obtain ⟨s', there', same, e, phase, silent⟩ := ended id now
          obtain ⟨s'', there'', k⟩ := keeps s' there'
          exact ⟨s'', there'', k.id.trans same, k.ended e phase silent⟩
      · rw [mine]
        exact close
    · rw [if_neg it]
      exact (h.written i old line).kept keeps
  · obtain ⟨q, line, same⟩ := h.agents entry mem
    obtain ⟨q', line', server⟩ := servers entry.2 q line
    exact ⟨q', line', server.trans same⟩

/-- A write that fails breaks the connection. -/
theorem unsent (h : Orderly hub) {a : Nat} {m : Message} {ok : Bool} (fails : hub.writes a ok = false) :
    Orderly (hub.write a m ok) := by
  have broken : ∀ p, hub.peers[a]? = some p → (ok && !p.broken) = false := by
    intro p at_
    rw [Hub.writes, at_] at fails
    exact fails
  refine h.modify (fun p => ?_) (fun p at_ => ?_) (fun p at_ _ => ?_) (fun p at_ _ => ?_) (fun p at_ ids closes => ?_)
  · split <;> rfl
  · rw [broken p at_]
    rfl
  · rw [broken p at_]
    rfl
  · rw [broken p at_]
    rfl
  · rw [broken p at_] at closes
    exact (h.written a p at_).affected ids closes

theorem serve (h : Orderly hub) {id : String} {serving : Serving}
    (old : ∀ s ∈ hub.sessions, s.id = id → s.serving ≠ .starting ∨ s.phase ≠ .created ∧
      ∀ p, hub.peers[s.agent]? = some p → p.broken = true)
    (new : serving ≠ .starting)
    (forwards : ∀ m, serving = .forwarding m → m.sessionId = id ∧ m.type ≠ "session_start" ∧ m.type ≠ "session_close") :
    Orderly (hub.serve id serving) := by
  refine h.edit (fun s _ _ => ⟨rfl, rfl, fun _ => new, fun e phase silent => ⟨e, phase, silent⟩⟩)
    fun s mem mine p at_ agrees => ?_
  refine agrees.serve ((old s mem mine).imp (fun started => started) fun both => ⟨both.1, both.2 p at_⟩) new ?_
  rw [mine]
  exact forwards

/-- A session that ends before it is started has lost its connection. -/
theorem endSession (h : Orderly hub) {id : String} (status : Status) (reason : String) {notifyAgent : Bool}
    (may : ∀ s ∈ hub.sessions, s.id = id → s.serving ≠ .starting ∨
      notifyAgent = false ∧ ∀ p, hub.peers[s.agent]? = some p →
      p.broken = true) : Orderly (hub.endSession id status reason notifyAgent) := by
  refine h.edit (fun s _ _ => ?_) fun s mem mine p at_ agrees => ?_
  · rcases phase : s.phase with - | - | e
    · exact .refl s
    · exact ⟨rfl, rfl, fun started => started, fun e eq => by simp [phase] at eq⟩
    · exact .refl s
  · rcases phase : s.phase with - | - | e
    · exact agrees
    · refine ⟨agrees.server, agrees.forwards, nofun, fun e eq told starting => ?_, fun e eq starting => ?_,
        fun started _ up => ?_, ?_⟩
      · rw [← Phase.ending.inj eq] at told
        rcases may s mem mine with started | ⟨silent, -⟩
        · exact started starting
        · rw [silent] at told
          exact Bool.noConfusion told
      · rcases may s mem mine with started | ⟨-, broken⟩
        · exact absurd starting started
        · exact broken p at_
      · exact agrees.turns started (by rw [untold, phase]) up
      · exact fun _ _ => Or.inr ⟨_, rfl, Or.inr (Or.inl rfl)⟩
    · exact agrees

theorem mem_edit {id : String} {f : Session → Session} {s' : Session} (mem : s' ∈ (hub.edit id f).sessions) :
    (∃ s ∈ hub.sessions, s.id = id ∧ s' = f s) ∨ s' ∈ hub.sessions ∧ s'.id ≠ id := by
  obtain ⟨s, there, rfl⟩ := List.mem_map.mp mem
  by_cases mine : s.id = id
  · exact Or.inl ⟨s, there, mine, if_pos mine⟩
  · rw [if_neg mine]
    exact Or.inr ⟨there, mine⟩

/-- The handler of a session ends it and returns. -/
theorem leave (h : Orderly hub) {id : String} (status : Status) (reason : String) {notifyAgent : Bool}
    (may : ∀ s ∈ hub.sessions, s.id = id → s.serving ≠ .starting ∨
      notifyAgent = false ∧ s.phase ≠ .created ∧ ∀ p, hub.peers[s.agent]? = some p → p.broken = true) :
    Orderly ((hub.endSession id status reason notifyAgent).serve id .returned) := by
  have ended : Orderly (hub.endSession id status reason notifyAgent) := by
    refine h.endSession status reason fun s mem mine => ?_
    exact (may s mem mine).imp (fun started => started) fun all => ⟨all.1, all.2.2⟩
  refine ended.serve (fun s' mem mine => ?_) nofun nofun
  rcases mem_edit mem with ⟨s, there, same, rfl⟩ | ⟨-, other⟩
  · have was := may s there same
    rcases phase : s.phase with - | - | e
    all_goals
      simp only [phase] at was ⊢
      exact was.imp (fun started => started) fun all => ⟨by simp_all, all.2.2⟩
  · exact absurd mine other

theorem addBytes_frame (s : Session) (fromBrowser : Bool) (length : Int) :
    ∃ n m, addBytes s fromBrowser length = { s with bytesFromBrowser := n, bytesFromAgent := m } := by
  unfold addBytes
  split
  · exact ⟨s.bytesFromBrowser, s.bytesFromAgent, rfl⟩
  · split
    · exact ⟨_, s.bytesFromAgent, rfl⟩
    · exact ⟨s.bytesFromBrowser, _, rfl⟩

theorem account (h : Orderly hub) (id : String) (fromBrowser : Bool) (data : String) :
    Orderly (hub.account id fromBrowser data) := by
  have counted : Orderly (hub.edit id (addBytes · fromBrowser (decodedLength data))) := by
    refine h.edit (fun s _ _ => ?_) fun s _ _ p _ agrees => ?_
    · obtain ⟨n, m, eq⟩ := addBytes_frame s fromBrowser (decodedLength data)
      rw [eq]
      exact ⟨rfl, rfl, fun started => started, fun e phase silent => ⟨e, phase, silent⟩⟩
    · obtain ⟨n, m, eq⟩ := addBytes_frame s fromBrowser (decodedLength data)
      rw [eq]
      exact ⟨agrees.server, agrees.forwards, agrees.created, agrees.notifies, agrees.early, agrees.turns, agrees.awaits⟩
  exact counted.same rfl rfl (fun _ mem => mem) fun _ mem => Or.inl mem

theorem reach (h : Orderly hub) (apart : Apart hub) {s : Session} {e : Ending} {stage : Stage} (here : s ∈ hub.sessions)
    (phase : s.phase = .ending e) (told : untold { s with phase := .ending { e with stage := stage } } = true →
      untold s = true)
    (passes : ∀ p, hub.peers[s.agent]? = some p → Agrees s p → p.broken = false → startedOf p.outbox = some s.id →
      e.notifyAgent = false ∨ stage = .cancelled ∨ stage = .deleted) : Orderly (hub.reach s.id e stage) := by
  refine h.edit (fun s' mem mine => ?_) fun s' mem mine p at_ agrees => ?_
  · rw [apart.eq_of_id mem here mine]
    refine ⟨rfl, rfl, fun started => started, fun e' eq silent => ⟨_, rfl, ?_⟩⟩
    rw [phase] at eq
    rw [← Phase.ending.inj eq] at silent
    exact silent
  · rw [apart.eq_of_id mem here mine] at agrees at_ ⊢
    exact agrees.reach phase told (passes p at_ agrees)

theorem writes_iff {a : Nat} {p : Peer} {ok : Bool} (at_ : hub.peers[a]? = some p) :
    hub.writes a ok = true ↔ ok = true ∧ p.broken = false := by
  rw [Hub.writes, at_]
  simp

/-- The connection of a session whose write has failed is broken. -/
theorem broken_of_unsent {a : Nat} {m : Message} {ok : Bool} (fails : hub.writes a ok = false) :
    ∀ p, (hub.write a m ok).peers[a]? = some p → p.broken = true := by
  intro p at_
  rw [Hub.write, List.getElem?_modify_eq] at at_
  obtain ⟨old, there, rfl⟩ := Option.map_eq_some_iff.mp at_
  have refused : (ok && !old.broken) = false := by
    rw [Hub.writes, there] at fails
    exact fails
  rw [refused]
  rfl

/-- The start of a session finds the connection's turn given up. -/
theorem handle_start (h : Orderly hub) (apart : Apart hub) {s : Session} (here : s ∈ hub.sessions)
    (serving : s.serving = .starting)
    (other : s.phase ≠ .created) (writes : hub.writes s.agent true = true) :
    Orderly ((hub.write s.agent ⟨"session_start", s.id, "", 120, 32, ""⟩ true).serve s.id .reading) := by
  obtain ⟨p, at_, agrees, written⟩ := h.line here
  have up := ((writes_iff at_).mp writes).2
  have listed : s.phase = .listed := by
    rcases phase : s.phase with - | - | e
    · exact absurd phase other
    · rfl
    · have broken := agrees.early e phase serving
      rw [up] at broken
      exact Bool.noConfusion broken
  have hand : inHand s = true := by rw [inHand, listed]
  -- Another session in hand on this connection would be of the same server.
  have alone : ∀ s' ∈ hub.sessions, s' ≠ s → p.serverId = s'.serverId → inHand s' = false := by
    intro s' mem ne server
    by_contra hand'
    exact ne (apart.eq_of_server mem here (eq_true_of_ne_false hand') hand (server.symm.trans agrees.server))
  have started : Serving.reading ≠ .starting := by simp
  have now : startedOf (p.outbox ++ [⟨"session_start", s.id, "", 120, 32, ""⟩]) = some s.id := by
    rw [startedOf_append]
    exact turn_start rfl
  refine h.send apart here at_ up rfl ⟨rfl, rfl, fun _ => started,
    fun e phase silent => ⟨e, phase, silent⟩⟩ started ?_ ?_ ?_ ?_
  · refine ⟨agrees.server, fun _ eq => (by cases eq), fun phase => absurd phase other, fun _ _ _ => started,
      fun _ _ starting => absurd starting started, fun _ _ _ => now, fun _ _ => Or.inl listed⟩
  · intro s' mem ne agrees'
    refine agrees'.rewritten (fun _ untold _ => ?_) fun _ mine => ?_
    · have hand' := inHand_of_untold untold
      rw [alone s' mem ne agrees'.server] at hand'
      exact Bool.noConfusion hand'
    · rw [now] at mine
      exact absurd (apart.eq_of_id mem here (Option.some.inj mine).symm) ne
  · refine fun _ => ⟨serving, fun id mine => ?_⟩
    obtain ⟨m, mem, -, same⟩ := mem_starts.mp (startedOf_mem mine)
    obtain ⟨s', there, sameId, agent, started⟩ := written.writers m mem
    have ne : s' ≠ s := fun eq => started (by rw [eq, serving])
    obtain ⟨p', at', agrees'⟩ := h.sits s' there
    rw [agent, at_] at at'
    rw [← Option.some.inj at'] at agrees'
    have idle := alone s' there ne agrees'.server
    refine ⟨s', there, sameId.trans same, ?_⟩
    rw [← sameId.trans same] at mine
    rcases agrees'.awaits up mine with listed' | ⟨e, phase, silent | cancelled | deleted⟩
    · rw [inHand, listed'] at idle
      exact Bool.noConfusion idle
    · exact ⟨e, phase, silent⟩
    · simp [inHand, phase, cancelled] at idle
    · simp [inHand, phase, deleted] at idle
  · have other : "session_start" ≠ "session_close" := by decide
    exact fun type => absurd type other

theorem handle (h : Orderly hub) (apart : Apart hub) {s : Session} (here : s ∈ hub.sessions) (ok : Bool) :
    Orderly (hub.handle s ok) := by
  have it : ∀ s' ∈ hub.sessions, s'.id = s.id → s' = s := fun s' mem mine => apart.eq_of_id mem here mine
  obtain ⟨p, at_, agrees, -⟩ := h.line here
  unfold Hub.handle
  split
  · rename_i serving
    split
    · rename_i created
      refine h.edit (fun s' mem mine => ?_) fun s' mem mine p _ agrees => ?_
      · rw [it s' mem mine]
        refine ⟨rfl, rfl, fun started => started, fun e phase => ?_⟩
        rw [created] at phase
        exact Phase.noConfusion phase
      · rw [it s' mem mine] at agrees ⊢
        refine ⟨agrees.server, agrees.forwards, nofun, nofun, nofun, ?_, fun _ _ => Or.inl rfl⟩
        exact fun started => absurd serving started
    · rename_i other
      simp only
      cases writes : hub.writes s.agent ok with
      | true =>
        obtain ⟨rfl, -⟩ := (writes_iff at_).mp writes
        rw [if_pos rfl]
        exact (h.handle_start apart here serving other writes).same rfl rfl (fun _ mem => mem) fun _ mem => Or.inl mem
      | false =>
        rw [if_neg Bool.false_ne_true]
        refine (h.unsent writes).leave _ _ fun s' mem mine => Or.inr ?_
        rw [it s' mem mine]
        exact ⟨rfl, other, broken_of_unsent writes⟩
  · rename_i m serving
    obtain ⟨mine, notStart, notClose⟩ := agrees.forwards m serving
    cases writes : hub.writes s.agent ok with
    | true =>
      obtain ⟨rfl, up⟩ := (writes_iff at_).mp writes
      rw [if_pos rfl]
      have now : startedOf (p.outbox ++ [m]) = startedOf p.outbox := by
        rw [startedOf_append, turn_other notStart notClose]
      have started : s.serving ≠ .starting := by
        rw [serving]
        exact nofun
      refine h.send apart here at_ up mine ⟨rfl, rfl, fun _ => nofun,
        fun e phase silent => ⟨e, phase, silent⟩⟩ nofun ?_ ?_
        (fun type => absurd type notStart) fun type => absurd type notClose
      · have served : Agrees { s with serving := .checking } p := agrees.serve (Or.inl started) nofun nofun
        refine served.rewritten ?_ ?_
        · rw [now]
          exact served.turns
        · rw [now]
          exact served.awaits
      · intro s' _ _ agrees'
        refine agrees'.rewritten ?_ ?_
        · rw [now]
          exact agrees'.turns
        · rw [now]
          exact agrees'.awaits
    | false =>
      rw [if_neg Bool.false_ne_true]
      refine (h.unsent writes).serve (fun s' mem same => Or.inl ?_) nofun nofun
      rw [it s' mem same, serving]
      exact nofun
  all_goals rename_i serving
  · split
    all_goals
      refine h.serve (fun s' mem mine => Or.inl ?_) nofun nofun
      rw [it s' mem mine, serving]
      exact nofun
  · refine h.leave _ _ fun s' mem mine => Or.inl ?_
    rw [it s' mem mine, serving]
    exact nofun
  · exact h
  · exact h

/-- What the browser sends is passed on with the id of its session, as input or as a resize. -/
theorem relay_send {id : String} {incoming m : Message} (sends : relay id incoming = .send m) :
    m.sessionId = id ∧ m.type ≠ "session_start" ∧ m.type ≠ "session_close" := by
  simp only [relay] at sends
  split at sends
  · rename_i type
    split at sends
    · exact nomatch sends
    · rw [← Relay.send.inj sends]
      simp [type]
  · split at sends
    · rename_i type
      rw [← Relay.send.inj sends]
      simp [type]
    · split at sends <;> exact nomatch sends

theorem browserMessage (h : Orderly hub) (apart : Apart hub) {s : Session} (here : s ∈ hub.sessions)
    (incoming : Option Message) :
    Orderly (hub.browserMessage s incoming) := by
  unfold Hub.browserMessage
  split
  · exact h
  · rename_i serving
    have old : ∀ s' ∈ hub.sessions, s'.id = s.id → s'.serving ≠ .starting := by
      intro s' mem mine
      rw [apart.eq_of_id mem here mine, not_not.mp serving]
      exact nofun
    split
    · exact h.serve (fun s' mem mine => Or.inl (old s' mem mine)) nofun nofun
    · rename_i incoming
      split
      · exact h.serve (fun s' mem mine => Or.inl (old s' mem mine)) nofun nofun
      · exact h
      · rename_i m sends
        have forwards : ∀ m', Serving.forwarding m = .forwarding m' →
            m'.sessionId = s.id ∧ m'.type ≠ "session_start" ∧ m'.type ≠ "session_close" := by
          intro m' eq
          rw [← Serving.forwarding.inj eq]
          exact relay_send sends
        split
        · refine (h.account s.id true m.data).serve (fun s' mem mine => Or.inl ?_) nofun forwards
          rcases mem_edit mem with ⟨before, there, same, rfl⟩ | ⟨-, other⟩
          · obtain ⟨n, m', eq⟩ := addBytes_frame before true (decodedLength m.data)
            simp only [eq]
            exact old before there same
          · exact absurd mine other
        · exact h.serve (fun s' mem mine => Or.inl (old s' mem mine)) nofun forwards

theorem timeout (h : Orderly hub) (apart : Apart hub) {s : Session} (here : s ∈ hub.sessions) :
    Orderly (hub.timeout s) := by
  unfold Hub.timeout
  split
  · exact h
  · rename_i late
    refine h.endSession _ _ fun s' mem mine => Or.inl fun starting => late (Or.inl ?_)
    rw [← apart.eq_of_id mem here mine]
    exact starting

/-- The agent is told to close a session while it is still the session's turn. -/
theorem proceed_close (h : Orderly hub) (apart : Apart hub) {s : Session} {status : Status} {reason : String}
    (here : s ∈ hub.sessions)
    (phase : s.phase = .ending ⟨status, reason, true, .deleted⟩) (ok : Bool) :
    Orderly ((hub.write s.agent ⟨"session_close", s.id, "", 0, 0, reason⟩ ok).reach s.id ⟨status, reason, true,
      .deleted⟩ .notified) := by
  obtain ⟨p, at_, agrees, written⟩ := h.line here
  cases writes : hub.writes s.agent ok with
  | true =>
    obtain ⟨rfl, up⟩ := (writes_iff at_).mp writes
    have started := agrees.notifies _ phase rfl
    have turn_ : startedOf p.outbox = some s.id := agrees.turns started (by rw [untold, phase]) up
    have past : startedOf (p.outbox ++ [⟨"session_close", s.id, "", 0, 0, reason⟩]) = none := by
      rw [startedOf_append, turn_]
      exact turn_close rfl
    refine h.send apart here at_ up rfl ⟨rfl, rfl, fun _ => started,
      fun e eq silent => ?_⟩ started ?_ (fun s' mem ne agrees' => ?_) ?_
      fun _ => turn_
    · rw [phase] at eq
      rw [← Phase.ending.inj eq] at silent
      exact Bool.noConfusion silent
    · refine ⟨agrees.server, agrees.forwards, nofun, fun _ _ _ => started, fun _ _ starting => absurd starting started,
        nofun, fun _ now => ?_⟩
      rw [past] at now
      exact nomatch now
    · refine agrees'.rewritten (fun started' untold' _ => ?_) fun _ now => ?_
      · have turn' := agrees'.turns started' untold' up
        rw [turn_] at turn'
        exact absurd (apart.eq_of_id mem here (Option.some.inj turn').symm) ne
      · rw [past] at now
        exact nomatch now
    · have other : "session_close" ≠ "session_start" := by decide
      exact fun type => absurd type other
  | false =>
    refine (h.unsent writes).reach (Apart.survives.write apart _ _ _) here phase ?_ fun p' at' _ up _ => ?_
    · exact fun _ => by rw [untold, phase]
    · rw [broken_of_unsent writes p' at'] at up
      exact Bool.noConfusion up

theorem proceed (h : Orderly hub) (apart : Apart hub) {s : Session} {e : Ending} (here : s ∈ hub.sessions)
    (phase : s.phase = .ending e)
    (ok : Bool) : Orderly (hub.proceed s e ok) := by
  -- Once the agent has been told, the turn is the session's only where it was not to be told.
  have late : e.stage ≠ .cancelled → e.stage ≠ .deleted → ∀ p, hub.peers[s.agent]? = some p → Agrees s p →
    p.broken = false →
      startedOf p.outbox = some s.id → e.notifyAgent = false := by
    intro notCancelled notDeleted p _ agrees up now
    rcases agrees.awaits up now with listed | ⟨e', phase', silent | stage | stage⟩
    · rw [phase] at listed
      exact Phase.noConfusion listed
    all_goals rw [phase] at phase'
    · rw [Phase.ending.inj phase']
      exact silent
    · rw [← Phase.ending.inj phase'] at stage
      exact absurd stage notCancelled
    · rw [← Phase.ending.inj phase'] at stage
      exact absurd stage notDeleted
  obtain ⟨status, reason, notify, stage⟩ := e
  unfold Hub.proceed
  cases stage with
  | cancelled => exact h.reach apart here phase (fun _ => by rw [untold, phase]) fun _ _ _ _ _ => Or.inr (Or.inr rfl)
  | deleted =>
    cases notify with
    | true => exact h.proceed_close apart here phase ok
    | false => exact h.reach apart here phase (fun _ => by rw [untold, phase]) fun _ _ _ _ _ => Or.inl rfl
  | counted n m =>
    have stored : Orderly (hub.reach s.id ⟨status, reason, notify, .counted n m⟩ (.stored n m)) :=
      h.reach apart here phase Bool.noConfusion fun p at_ agrees up now => Or.inl (late nofun nofun p at_ agrees up now)
    simp only
    split
    · exact stored.same rfl rfl (fun _ mem => mem) fun _ mem => Or.inl mem
    · exact stored
  | stored n m =>
    have done : Orderly (hub.reach s.id ⟨status, reason, notify, .stored n m⟩ .done) :=
      h.reach apart here phase Bool.noConfusion fun p at_ agrees up now => Or.inl (late nofun nofun p at_ agrees up now)
    simp only
    split
    · exact done.same rfl rfl (fun _ mem => mem) fun _ mem => Or.inl mem
    · exact done
  | done => exact h
  | notified | disconnected | loaded n =>
    refine h.reach apart here phase (fun same => ?_) fun p at_ agrees up now =>
      Or.inl (late nofun nofun p at_ agrees up now)
    rw [untold, phase]
    exact same

theorem setPeer (h : Orderly hub) {peer : Nat} {doing : Reading} (stays : doing ≠ .hungUp)
    (open_ : ∀ ids, doing ≠ .closes ids) :
    Orderly (hub.setPeer peer doing) := by
  refine h.modify (fun _ => rfl) (fun _ _ => rfl) (fun _ _ broken => broken) (fun p _ down => ?_) fun p _ ids closes =>
    absurd closes (open_ ids)
  rcases down with hungUp | ⟨ids, closes⟩
  · exact absurd hungUp stays
  · exact absurd closes (open_ ids)

theorem agentMessage (h : Orderly hub) (peer : Nat) (p : Peer) (incoming : Option Message) :
    Orderly (hub.agentMessage peer p incoming) := by
  unfold Hub.agentMessage
  split
  · exact h
  · split
    · refine h.modify (fun _ => rfl) (fun _ _ => rfl) (fun _ _ _ => rfl) (fun _ _ _ => rfl) fun _ _ _ => nofun
    · split
      · exact h
      · split
        · split
          · exact h.setPeer nofun nofun
          · exact h
        · exact h

/-- `heard`: what AgentSocket has been told of is a session that has been started. -/
theorem dispatch (h : Orderly hub) (apart : Apart hub) {peer : Nat} {p : Peer} (here : hub.peers[peer]? = some p)
    (heard : ∀ m, p.doing = .told m → ∀ s ∈ hub.sessions, s.id = m.sessionId → s.serving ≠ .starting) :
      Orderly (hub.dispatch peer p) := by
  have written := h.written peer p here
  unfold Hub.dispatch
  split
  · rename_i m _
    split
    · have told : Orderly (hub.setPeer peer (.told m)) := h.setPeer nofun nofun
      exact told.same rfl rfl (fun _ mem => mem) fun _ mem => Or.inl mem
    · exact h.setPeer nofun nofun
  · rename_i m doing
    split
    · exact (h.account m.sessionId false m.data).setPeer nofun nofun
    · split
      · exact (h.endSession .failed m.reason fun s mem mine => Or.inl (heard m doing s mem mine)).setPeer nofun nofun
      · exact (h.endSession .closed m.reason fun s mem mine => Or.inl (heard m doing s mem mine)).setPeer nofun nofun
  · split
    · exact h.setPeer nofun nofun
    · exact h
  · rename_i doing
    have broken := written.down (Or.inl doing)
    suffices closing : Orderly (hub.setPeer peer (.closes ((hub.sessions.filter fun s =>
        s.listed && s.serverId = p.serverId && s.agent = peer).map (·.id)))) from
      closing.same rfl rfl (fun _ mem => (List.mem_filter.mp mem).1) fun _ mem => Or.inl mem
    refine h.modify (fun _ => rfl) (fun _ _ => rfl) (fun _ _ broken => broken) (fun q at_ _ => ?_)
      fun q _ ids closes id mem => ?_
    · rw [here] at at_
      rw [← Option.some.inj at_]
      exact broken
    · rw [← Reading.closes.inj closes] at mem
      obtain ⟨s, there, rfl⟩ := List.mem_map.mp mem
      obtain ⟨mem, chosen⟩ := List.mem_filter.mp there
      simp only [Bool.and_eq_true, decide_eq_true_eq] at chosen
      exact ⟨s, mem, rfl, chosen.2⟩
  · rename_i id rest doing
    have broken := written.down (Or.inr ⟨_, doing⟩)
    split
    · refine h.modify (fun _ => rfl) (fun _ _ => rfl) (fun _ _ broken => broken) (fun q at_ _ => ?_)
        fun q _ ids closes id' mem => ?_
      · rw [here] at at_
        rw [← Option.some.inj at_]
        exact broken
      · rw [← Reading.closes.inj closes] at mem
        exact written.affected _ doing id' (List.mem_cons_of_mem id mem)
    · refine h.endSession _ _ fun s mem mine => Or.inr ⟨rfl, fun q at_ => ?_⟩
      obtain ⟨s', there, same, agent⟩ := written.affected _ doing id List.mem_cons_self
      rw [apart.eq_of_id mem there (mine.trans same.symm), agent, here] at at_
      rw [← Option.some.inj at_]
      exact broken
  · exact h
  · exact h

theorem registerAgent (h : Orderly hub) (serverId : String) : Orderly (hub.registerAgent serverId) := by
  have forward : ∀ (i : Nat) (p : Peer), hub.peers[i]? = some p →
      (hub.peers ++ [⟨serverId, .reads, false, []⟩])[i]? = some p := by
    intro i p at_
    rw [List.getElem?_append_left (List.getElem?_eq_some_iff.mp at_).1]
    exact at_
  refine ⟨fun s mem => ?_, fun i p at_ => ?_, fun entry mem => ?_, fun v mem => ?_⟩
  · obtain ⟨p, at_, agrees⟩ := h.sits s mem
    exact ⟨p, forward s.agent p at_, agrees⟩
  · rcases Nat.lt_or_ge i hub.peers.length with old | new
    · exact h.written i p (by rwa [Hub.registerAgent, List.getElem?_append_left old] at at_)
    · rw [Hub.registerAgent, List.getElem?_append_right new, List.getElem?_singleton] at at_
      split at at_
      · rw [← Option.some.inj at_]
        refine ⟨fun _ mem => absurd mem List.not_mem_nil, List.nodup_nil, nofun, nofun, nofun, nofun⟩
      · exact nomatch at_
  · rcases List.mem_cons.mp mem with rfl | old
    · refine ⟨⟨serverId, .reads, false, []⟩, ?_, rfl⟩
      rw [Hub.registerAgent, List.getElem?_append_right (Nat.le_refl _), Nat.sub_self]
      rfl
    · obtain ⟨p, at_, same⟩ := h.agents entry (List.mem_filter.mp old).1
      exact ⟨p, forward entry.2 p at_, same⟩
  · exact (h.visits v mem).later fun i p at_ => ⟨p, forward i p at_, rfl⟩

theorem createSession (h : Orderly hub) (apart : Apart hub) (i : Nat) (id : String) (ok : Bool) :
    Orderly (hub.createSession i id ok) := by
  unfold Hub.createSession
  split
  · rename_i t agent here
    have left : Orderly { hub with visits := hub.visits.eraseIdx i } :=
      h.same rfl rfl (fun _ mem => mem) fun _ mem => Or.inl (List.mem_of_mem_eraseIdx mem)
    simp only
    split
    · rename_i free
      obtain ⟨p, at_, server⟩ := h.visits _ (List.mem_of_getElem? here)
      have fresh : ∀ s ∈ hub.sessions, s.id ≠ id := fun s mem same => free.2.1 (same ▸ apart.ids s mem)
      refine ⟨fun s mem => ?_, fun j q line => (h.written j q line).kept fun s mem =>
        ⟨s, List.mem_append_left _ mem, .refl s⟩, h.agents, ?_⟩
      · rcases List.mem_append.mp mem with old | new
        · exact h.sits s old
        · rw [List.mem_singleton.mp new]
          refine ⟨p, at_, server, nofun, fun _ => rfl, nofun, nofun, fun started => absurd rfl started,
            fun _ mine => ?_⟩
          obtain ⟨m, mem, -, same⟩ := mem_starts.mp (startedOf_mem mine)
          obtain ⟨s', there, sameId, -⟩ := (h.written agent p at_).writers m mem
          exact absurd (sameId.trans same) (fresh s' there)
      · exact left.visits
    · exact left
  · exact h

theorem mem_of_lookup {α β : Type} [BEq α] [LawfulBEq α] {l : List (α × β)} {k : α} {b : β} (h : l.lookup k = some b) :
    (k, b) ∈ l := by
  obtain ⟨before, after, rfl, -⟩ := List.lookup_eq_some_iff.mp h
  exact List.mem_append_right _ List.mem_cons_self

theorem visit (h : Orderly hub) (i : Nat) : Orderly (hub.visit i) := by
  have fewer : Orderly { hub with visits := hub.visits.eraseIdx i } :=
    h.same rfl rfl (fun _ mem => mem) fun _ mem => Or.inl (List.mem_of_mem_eraseIdx mem)
  have goes {v : Visit} (meets : Meets hub v) : Orderly { hub with visits := hub.visits.set i v } := by
    refine h.same rfl rfl (fun _ mem => mem) fun v' mem => ?_
    rcases List.mem_or_eq_of_mem_set mem with old | rfl
    · exact Or.inl old
    · exact Or.inr meets
  unfold Hub.visit
  split
  · split
    · rename_i agent there
      exact goes (h.agents _ (mem_of_lookup there))
    · exact fewer
  · rename_i t agent here
    split
    · exact fewer
    · have met : Meets hub (.cleared t agent) := h.visits (.reached t agent) (List.mem_of_getElem? here)
      exact goes met
  · exact h

theorem step (h : Orderly hub) (apart : Apart hub) (move : Move) (stays : move ≠ .restart)
    (heard : ∀ peer p m, move = .dispatch peer → hub.peers[peer]? = some p → p.doing = .told m →
      ∀ s ∈ hub.sessions, s.id = m.sessionId → s.serving ≠ .starting) : Orderly (hub.step move) := by
  cases move with
  | wait d => exact h.same rfl rfl (fun _ mem => mem) fun _ mem => Or.inl mem
  | askTicket serverId userId =>
    simp only [Hub.step, Hub.askTicket]
    split
    · exact h.same rfl rfl (fun _ mem => mem) fun _ mem => Or.inl mem
    · exact h
  | checkTicket i =>
    simp only [Hub.step, Hub.checkTicket]
    split
    · split <;> exact h.same rfl rfl (fun _ mem => mem) fun _ mem => Or.inl mem
    · exact h
  | issueTicket i value =>
    simp only [Hub.step, Hub.issueTicket]
    split
    · split
      · exact h
      · exact h.same rfl rfl (fun _ mem => mem) fun _ mem => Or.inl mem
    · exact h
  | redeemTicket value =>
    simp only [Hub.step, Hub.redeemTicket]
    split
    · split
      · exact h.same rfl rfl (fun _ mem => mem) fun _ mem => Or.inl mem
      · refine h.same rfl rfl (fun _ mem => mem) fun v mem => ?_
        rcases List.mem_append.mp mem with old | new
        · exact Or.inl old
        · rw [List.mem_singleton.mp new]
          exact Or.inr trivial
    · exact h
  | visit i => exact h.visit i
  | createSession i id ok => exact h.createSession apart i id ok
  | handle id ok =>
    simp only [Hub.step]
    split
    · rename_i s here
      exact h.handle apart (found here).1 ok
    · exact h
  | browserMessage id incoming =>
    simp only [Hub.step]
    split
    · rename_i s here
      exact h.browserMessage apart (found here).1 incoming
    · exact h
  | timeout id =>
    simp only [Hub.step]
    split
    · rename_i s here
      exact h.timeout apart (found here).1
    · exact h
  | registerAgent serverId => exact h.registerAgent serverId
  | agentMessage peer incoming =>
    simp only [Hub.step]
    split
    · exact h.agentMessage peer _ incoming
    · exact h
  | dispatch peer =>
    simp only [Hub.step]
    split
    · rename_i p here
      exact h.dispatch apart here fun m doing => heard peer p m rfl here doing
    · exact h
  | proceed id ok =>
    simp only [Hub.step]
    split
    · rename_i s here
      split
      · rename_i e phase
        exact h.proceed apart (found here).1 phase ok
      · exact h
    · exact h
  | restart => exact absurd rfl stays

theorem newHub : Orderly NewHub := by
  refine ⟨?_, nofun, ?_, ?_⟩ <;> exact fun _ mem => absurd mem List.not_mem_nil

end Orderly

end TerminalTurns
end DatrixOps
