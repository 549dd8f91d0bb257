import DatrixOps.Theorems.TerminalLinks

/-! The isolation of terminal sessions. What the hub and the agents pass on stays with the session that it is
    of, in every interleaving; but an agent closes its current session without looking whose close it has
    read, and that is another's where it has refused to start that. -/

namespace DatrixOps
namespace TerminalIsolation
open Terminal SessionRows TerminalTurns TerminalTickets TerminalLinks

/-! ### The two ends together -/

/-- The manager at one end, and what AgentSocket has in hand at the other. -/
structure Linked (c : Connection) (p : Peer) : Prop where
  holds : Holds c.manager p.outbox
  writers : c.writers = p.outbox.map (·.sessionId)
  known : ∀ x, p.doing = .found x ∨ p.doing = .told x → x.sessionId ∈ starts (heard c.manager p.outbox)
  held : ∀ x, p.doing = .found x → x.type = "output" → ∃ k, c.held = some k ∧ (ids c.manager)[k]? = some x.sessionId
  delivered : ∀ d ∈ c.delivered, (ids c.manager)[d.2]? = some d.1

/-- The hub is in order, and each of its connections is linked to a manager. -/
structure Coheres (sys : System) : Prop where
  apart : Apart sys.hub
  orderly : Orderly sys.hub
  tickets : Tickets sys.hub
  length : sys.connections.length = sys.hub.peers.length
  linked : ∀ (i : Nat) (c : Connection) (p : Peer), sys.connections[i]? = some c →
    sys.hub.peers[i]? = some p → Linked c p

theorem outbox_eq {hub : Hub} {i : Nat} {p : Peer} (at_ : hub.peers[i]? = some p) : hub.outbox i = p.outbox := by
  rw [Hub.outbox, at_]

theorem Linked.agent {c : Connection} {p : Peer} (h : Linked c p) {m : SessionManager}
    (next : Holds m p.outbox ∧ Grows c.manager m) :
    Linked { c with manager := m } p := by
  obtain ⟨holds, g⟩ := next
  refine ⟨holds, h.writers, fun x doing => g.started (h.known x doing), fun x doing type => ?_,
    fun d mem => g.ids _ _ (h.delivered d mem)⟩
  obtain ⟨k, source, at_⟩ := h.held x doing type
  exact ⟨k, source, g.ids k _ at_⟩

/-- Output is delivered where it is in hand. -/
theorem mem_delivered {c : Connection} {i : Nat} {hub : Hub} {move : Move} {p : Peer} (at_ : hub.peers[i]? = some p) :
    ∀ d ∈ (c.follow i hub move).delivered,
      d ∈ c.delivered ∨ ∃ x, p.doing = .found x ∧ x.type = "output" ∧ c.held = some d.2 ∧ d.1 = x.sessionId := by
  intro d mem
  simp only [Connection.follow] at mem
  split at mem
  · rename_i m k passing held
    split at mem
    · rcases List.mem_append.mp mem with old | new
      · exact Or.inl old
      · rw [List.mem_singleton.mp new]
        unfold Hub.passing at passing
        rw [at_] at passing
        split at passing
        · rename_i serverId x broken outbox eq
          split at passing
          · rename_i type
            rw [← Option.some.inj passing]
            exact Or.inr ⟨x, by rw [Option.some.inj eq], type, held, rfl⟩
          · exact nomatch passing
        · exact nomatch passing
    · exact Or.inl mem
  · exact Or.inl mem

theorem Linked.follow {c : Connection} {i : Nat} {hub : Hub} {move : Move} {p p' : Peer} (h : Linked c p)
    (at_ : hub.peers[i]? = some p)
    (at' : (hub.step move).peers[i]? = some p') (turned : Turned move.writer p p') :
      Linked (c.follow i hub move) p' := by
  have grown : heard c.manager p'.outbox = heard c.manager p.outbox ∧ Holds c.manager p'.outbox ∧
      (c.follow i hub move).writers = p'.outbox.map (·.sessionId) := by
    simp only [Connection.follow, outbox_eq at_, outbox_eq at']
    rcases turned.outbox with same | ⟨-, x, more, writer⟩
    · rw [same, if_neg (Nat.lt_irrefl _)]
      exact ⟨rfl, h.holds, h.writers⟩
    · rw [more, if_pos (by simp), writer, h.writers, List.map_append]
      exact ⟨List.take_append_of_le_length h.holds.taken, h.holds.written x, rfl⟩
  obtain ⟨read, holds, writers⟩ := grown
  refine ⟨holds, writers, fun x doing => ?_, fun x doing => h.held x (turned.found x doing), fun d mem => ?_⟩
  · suffices before : p.doing = .found x ∨ p.doing = .told x by
      have known := h.known x before
      rw [← read] at known
      exact known
    rcases doing with found | told
    · exact Or.inl (turned.found x found)
    · exact (turned.told x told).symm
  · rcases mem_delivered at_ d mem with old | ⟨x, found, type, held, mine⟩
    · exact h.delivered d old
    · obtain ⟨k, held', at_⟩ := h.held x found type
      rw [held] at held'
      rw [mine, Option.some.inj held']
      exact at_

/-- A message that is read is in hand, if anything. -/
theorem peers_agentMessage {hub : Hub} {peer : Nat} {p : Peer} {x : Message} (at_ : hub.peers[peer]? = some p)
    (doing : p.doing = .reads)
    {i : Nat} {q : Peer} (at' : (hub.step (.agentMessage peer (some x))).peers[i]? = some q) :
    hub.peers[i]? = some q ∨ i = peer ∧ q = { p with doing := .found x } := by
  simp only [Hub.step, at_] at at'
  unfold Hub.agentMessage at at'
  rw [if_neg (not_not.mpr doing)] at at'
  simp only at at'
  split at at'
  · exact Or.inl at'
  · split at at'
    · split at at'
      · simp only [Hub.setPeer, List.getElem?_modify] at at'
        obtain ⟨r, old, rfl⟩ := Option.map_eq_some_iff.mp at'
        by_cases it : peer = i
        · rw [← it, at_] at old
          rw [if_pos it, ← Option.some.inj old]
          exact Or.inr ⟨it.symm, rfl⟩
        · rw [if_neg it]
          exact Or.inl old
      · exact Or.inl at'
    · exact Or.inl at'

namespace Coheres
variable {sys : System}

/-- What AgentSocket has been told is of a session that has been started. -/
theorem started (h : Coheres sys) {i : Nat} {p : Peer} {x : Message} (at_ : sys.hub.peers[i]? = some p)
    (doing : p.doing = .told x) :
    ∀ s ∈ sys.hub.sessions, s.id = x.sessionId → s.serving ≠ .starting := by
  intro s mem mine
  have within : i < sys.connections.length := by
    rw [h.length]
    exact (List.getElem?_eq_some_iff.mp at_).1
  have known := (h.linked i _ p (List.getElem?_eq_getElem within) at_).known x (Or.inr doing)
  obtain ⟨m, there, -, same⟩ := mem_starts.mp known
  obtain ⟨s', mem', sameId, -, started⟩ := (h.orderly.written i p at_).writers m (List.mem_of_mem_take there)
  rw [h.apart.eq_of_id mem mem' (mine.trans (sameId.trans same).symm)]
  exact started

theorem stepHub_own {move : Move} (o : own move) :
    sys.stepHub move = ⟨sys.hub.step move, sys.connections.mapIdx fun i c => c.follow i sys.hub move⟩ := by
  cases move with
  | restart | registerAgent serverId => exact o.elim
  | agentMessage peer incoming =>
    cases incoming with
    | none => rfl
    | some m => exact o.elim
  | _ => rfl

theorem stepOwn (h : Coheres sys) {move : Move} (o : own move) : Coheres (sys.stepHub move) := by
  have stays : move ≠ .restart := by
    rintro rfl
    exact o
  have beneath := beneath_step h.orderly o
  rw [stepHub_own o]
  refine ⟨h.apart.step move stays, h.orderly.step h.apart move stays fun peer p x _ at_ doing => h.started at_ doing,
    h.tickets.step move stays,
    ?_, fun i c p' at_ at' => ?_⟩
  · rw [List.length_mapIdx, beneath.length]
    exact h.length
  · rw [List.getElem?_mapIdx] at at_
    obtain ⟨c, there, rfl⟩ := Option.map_eq_some_iff.mp at_
    have within : i < sys.hub.peers.length := by
      rw [← h.length]
      exact (List.getElem?_eq_some_iff.mp there).1
    obtain ⟨q, at'', turned⟩ := beneath.turned i _ (List.getElem?_eq_getElem within)
    rw [at'] at at''
    rw [← Option.some.inj at''] at turned
    exact (h.linked i c _ there (List.getElem?_eq_getElem within)).follow (List.getElem?_eq_getElem within) at' turned

theorem connect (h : Coheres sys) (serverId : String) : Coheres (sys.stepHub (.registerAgent serverId)) := by
  have stays : Move.registerAgent serverId ≠ .restart := by simp
  refine ⟨h.apart.step _ stays, h.orderly.step h.apart _ stays (fun _ _ _ eq => (by cases eq)), h.tickets.step _ stays,
    ?_, fun i c p at_ at' => ?_⟩
  · rw [System.stepHub, List.length_append, Hub.step, Hub.registerAgent, List.length_append, h.length]
    rfl
  · rw [System.stepHub, List.getElem?_append] at at_
    rw [System.stepHub, Hub.step, Hub.registerAgent, List.getElem?_append] at at'
    simp only [h.length] at at_ at'
    split at at_
    · rename_i old
      rw [if_pos old] at at'
      exact h.linked i c p at_ at'
    · rename_i new
      rw [if_neg new] at at'
      rw [List.getElem?_singleton] at at_ at'
      split at at_
      · rename_i zero
        rw [if_pos zero] at at'
        rw [← Option.some.inj at_, ← Option.some.inj at']
        exact ⟨holds_new, rfl, fun _ found => (by rcases found with eq | eq <;> cases eq), fun _ eq => (by cases eq),
          fun _ mem => absurd mem List.not_mem_nil⟩
      · cases at_

theorem receive (h : Coheres sys) (peer : Nat) : Coheres (sys.receive peer) := by
  unfold System.receive
  split
  · rename_i c p there at_
    split
    · rename_i next rest doing sent
      have linked := h.linked peer c p there at_
      have spoken := linked.holds.sent next (by rw [sent]; exact List.mem_cons_self)
      have fewer : Holds { c.manager with sent := rest } p.outbox ∧
          Grows c.manager { c.manager with sent := rest } := by
        refine linked.holds.update rfl rfl rfl (fun x mem => Or.inl ?_) (Or.inl rfl) (fun _ now => now)
          (fun _ mem => Or.inl mem)
          fun _ mem => Or.inl mem
        rw [sent]
        exact List.mem_cons_of_mem next mem
      have taken := linked.agent fewer
      have stays : Move.agentMessage peer (some next.message) ≠ .restart := by simp
      have apart := h.apart.step _ stays
      have orderly := h.orderly.step h.apart _ stays fun _ _ _ eq => by cases eq
      have tickets := h.tickets.step _ stays
      refine ⟨apart, orderly, tickets, ?_, fun i c' q' at' line => ?_⟩
      · rw [List.length_set, h.length]
        simp only [Hub.step, at_, Hub.agentMessage]
        repeat' split
        all_goals first
          | rfl
          | exact (List.length_modify ..).symm
      · rw [List.getElem?_set] at at'
        split at at'
        · rename_i it
          split at at'
          · rw [← Option.some.inj at']
            rcases peers_agentMessage at_ doing line with same | ⟨-, rfl⟩
            · rw [← it, at_] at same
              rw [← Option.some.inj same]
              refine ⟨taken.holds, taken.writers, taken.known, fun x found => ?_, taken.delivered⟩
              rw [doing] at found
              cases found
            · refine ⟨taken.holds, taken.writers, fun x found => ?_, fun x found type => ?_, taken.delivered⟩
              · rcases found with eq | eq
                · rw [← Reading.found.inj eq]
                  exact spoken.started
                · cases eq
              · rw [← Reading.found.inj found] at type ⊢
                exact spoken.output type
          · cases at'
        · rename_i other
          rcases peers_agentMessage at_ doing line with same | ⟨it, -⟩
          · exact h.linked i c' q' at' same
          · exact absurd it.symm other
    · exact h
  · exact h

theorem agent (h : Coheres sys) (peer : Nat) (move : AgentMove) : Coheres (sys.step (.agent peer move)) := by
  simp only [System.step]
  split
  · rename_i c there
    have within : peer < sys.hub.peers.length := by
      rw [← h.length]
      exact (List.getElem?_eq_some_iff.mp there).1
    have at_ := List.getElem?_eq_getElem within
    have linked := h.linked peer c _ there at_
    have next := linked.holds.step (h.orderly.written peer _ at_) sys.hub.now move
    refine ⟨h.apart, h.orderly, h.tickets, ?_, fun i c' p at' line => ?_⟩
    · rw [List.length_set]
      exact h.length
    · rw [List.getElem?_set] at at'
      split at at'
      · rename_i it
        split at at'
        · rw [← it, at_] at line
          rw [← Option.some.inj at', ← Option.some.inj line, outbox_eq at_]
          exact linked.agent next
        · exact nomatch at'
      · exact h.linked i c' p at' line
  · exact h

theorem step (h : Coheres sys) (move : SystemMove) : Coheres (sys.step move) := by
  cases move with
  | hub move =>
    by_cases o : own move
    · exact h.stepOwn o
    · cases move with
      | restart => exact h
      | registerAgent serverId => exact h.connect serverId
      | agentMessage peer incoming =>
        cases incoming with
        | none => exact absurd trivial o
        | some m => exact h
      | _ => exact absurd trivial o
  | receive peer => exact h.receive peer
  | agent peer move => exact h.agent peer move

theorem newSystem : Coheres NewSystem :=
  ⟨.newHub, .newHub, .newHub, rfl, fun _ _ _ at_ => nomatch List.getElem?_nil.symm.trans at_⟩

end Coheres

/-! ### Isolation -/

/-- A ticket opens a session of the user that it was issued for; a server has one session alive, and a session
    one PTY; output goes to the browser of the session whose PTY it was read from, and what a browser sends to
    the PTY of its session; and a close closes the PTY of its session, or one for which the start of its
    session was refused. -/
structure Isolated (sys : System) : Prop where
  tickets : Admissions sys.hub
  single : ∀ s ∈ sys.hub.sessions, ∀ s' ∈ sys.hub.sessions, s.listed = true → s'.listed = true →
    s.serverId = s'.serverId → s = s'
  ptys : (sys.connections.flatMap fun c : Connection => ids c.manager).Nodup
  outputs : ∀ c ∈ sys.connections, ∀ d ∈ c.delivered, (ids c.manager)[d.2]? = some d.1
  inputs : ∀ c ∈ sys.connections, ∀ r ∈ c.manager.reached, ∃ id, c.writers[r.1]? = some id ∧
    (ids c.manager)[r.2]? = some id
  closes : ∀ c ∈ sys.connections, ∀ t ∈ c.manager.terminated, Closes c.manager t.1 t.2

theorem inHand_of_listed {s : Session} (listed : s.listed = true) : inHand s = true := by
  rcases phase : s.phase with - | - | e
  · rw [inHand, phase]
  · rw [inHand, phase]
  · rw [Session.listed, phase] at listed
    rw [inHand, phase]
    simp only [of_decide_eq_true listed]

namespace Coheres
variable {sys : System}

theorem connection (h : Coheres sys) {i : Nat} {c : Connection} (at_ : sys.connections[i]? = some c) :
    ∃ p, sys.hub.peers[i]? = some p ∧ Linked c p := by
  have within : i < sys.hub.peers.length := by
    rw [← h.length]
    exact (List.getElem?_eq_some_iff.mp at_).1
  exact ⟨_, List.getElem?_eq_getElem within, h.linked i c _ at_ (List.getElem?_eq_getElem within)⟩

/-- The sessions of a manager are sessions of the hub on its connection. -/
theorem session (h : Coheres sys) {i : Nat} {c : Connection} (at_ : sys.connections[i]? = some c) {id : String}
    (mem : id ∈ ids c.manager) :
    ∃ s ∈ sys.hub.sessions, s.id = id ∧ s.agent = i := by
  obtain ⟨p, line, linked⟩ := h.connection at_
  obtain ⟨m, there, -, same⟩ := mem_starts.mp (linked.holds.started id mem)
  obtain ⟨s, mem', sameId, agent, -⟩ := (h.orderly.written i p line).writers m (List.mem_of_mem_take there)
  exact ⟨s, mem', sameId.trans same, agent⟩

theorem isolated (h : Coheres sys) : Isolated sys := by
  refine ⟨h.tickets.admissions, fun s mem s' mem' listed listed' same => ?_, ?_, fun c mem => ?_,
    fun c mem r reached => ?_, fun c mem => ?_⟩
  · exact h.apart.eq_of_server mem mem' (inHand_of_listed listed) (inHand_of_listed listed') same
  · refine List.nodup_flatMap.mpr ⟨fun c mem => ?_, List.pairwise_iff_getElem.mpr fun i j hi hj lt => ?_⟩
    · obtain ⟨i, at_⟩ := List.mem_iff_getElem?.mp mem
      obtain ⟨p, -, linked⟩ := h.connection at_
      exact linked.holds.distinct
    · intro id first second
      obtain ⟨s, mem, same, agent⟩ := h.session (List.getElem?_eq_getElem hi) first
      obtain ⟨s', mem', same', agent'⟩ := h.session (List.getElem?_eq_getElem hj) second
      rw [h.apart.eq_of_id mem mem' (same.trans same'.symm), agent'] at agent
      exact Nat.lt_irrefl j (agent ▸ lt)
  all_goals
    obtain ⟨i, at_⟩ := List.mem_iff_getElem?.mp mem
    obtain ⟨p, -, linked⟩ := h.connection at_
  · exact linked.delivered
  · obtain ⟨x, at', mine⟩ := linked.holds.reached r reached
    refine ⟨x.sessionId, ?_, mine⟩
    rw [linked.writers, List.getElem?_map, at']
    rfl
  · exact linked.holds.terminated

end Coheres

/-- Terminal sessions are isolated all along every run of the hub and the agents. -/
theorem sessions_isolated (moves : List SystemMove) : systemMachine.Always Isolated NewSystem moves := by
  have coheres : systemMachine.Always Coheres NewSystem moves :=
    Machine.always_of_keep (fun _ move h => h.step move) Coheres.newSystem
  exact coheres.mono fun _ h => h.isolated

/-- What the hub writes to an agent: a session is started once; a close is that of the session whose turn it
    is; and a start comes in the turn of another only where the hub has ended that without telling the agent.
    -/
structure InTurn (sys : System) : Prop where
  once : ∀ p ∈ sys.hub.peers, (starts p.outbox).Nodup
  closes : ∀ p ∈ sys.hub.peers, ∀ before m, before ++ [m] <+: p.outbox → m.type = "session_close" →
    startedOf before = some m.sessionId
  follows : ∀ p ∈ sys.hub.peers, ∀ before m id, before ++ [m] <+: p.outbox → m.type = "session_start" →
    startedOf before = some id →
    ∃ s ∈ sys.hub.sessions, s.id = id ∧ ∃ e, s.phase = .ending e ∧ e.notifyAgent = false

theorem at_of_prefix {before outbox : List Message} {m : Message} (h : before ++ [m] <+: outbox) :
    outbox[before.length]? = some m ∧ outbox.take before.length = before := by
  obtain ⟨after, rfl⟩ := h
  rw [List.append_assoc]
  refine ⟨?_, List.take_left⟩
  rw [List.getElem?_append_right (Nat.le_refl _), Nat.sub_self]
  rfl

theorem Coheres.inTurn {sys : System} (h : Coheres sys) : InTurn sys := by
  have written : ∀ p ∈ sys.hub.peers, ∃ i, Written sys.hub.sessions i p := by
    intro p mem
    obtain ⟨i, at_⟩ := List.mem_iff_getElem?.mp mem
    exact ⟨i, h.orderly.written i p at_⟩
  refine ⟨fun p mem => ?_, fun p mem before m first type => ?_, fun p mem before m id first type now => ?_⟩
  all_goals obtain ⟨i, w⟩ := written p mem
  · exact w.starts
  · obtain ⟨at_, read⟩ := at_of_prefix first
    have turn := w.closes _ m at_ type
    rwa [read] at turn
  · obtain ⟨at_, read⟩ := at_of_prefix first
    exact w.follows _ m id at_ type (by rw [read]; exact now)

/-- The hub keeps the sessions of a connection in turn all along every run. -/
theorem sessions_in_turn (moves : List SystemMove) : systemMachine.Always InTurn NewSystem moves := by
  have coheres : systemMachine.Always Coheres NewSystem moves :=
    Machine.always_of_keep (fun _ move h => h.step move) Coheres.newSystem
  exact coheres.mono fun _ h => h.inTurn

/-! ### The closes of others -/

/-- A close closes the PTY of its session. -/
def OwnCloses (sys : System) :
    Prop := ∀ c ∈ sys.connections, ∀ t ∈ c.manager.terminated, (ids c.manager)[t.2]? = some t.1

/-- The goroutine that reads closes no session for one whose start was refused for it. -/
def Spares (sys : System) : SystemMove → Prop
  | .agent peer (.act _ _) => ∀ c k id session running, sys.connections[peer]? = some c →
    c.manager.doing = .closes k (some id) →
      c.manager.sessions[k]? = some session → session.closed = false → (id, k, running) ∉ c.manager.refused
  | _ => True

theorem terminate_none (m : SessionManager) (k : Nat) : (m.terminate k none).terminated = m.terminated := by
  unfold SessionManager.terminate
  split
  · split <;> rfl
  · rfl

theorem write_terminated (m : SessionManager) (source : Option Nat) (message : Message) (ok : Bool) :
    (m.write source message ok).terminated = m.terminated := by
  unfold SessionManager.write
  split <;> rfl

/-- Only the goroutine that reads closes a session for another message, and that once. -/
theorem terminated_step (m : SessionManager) (now : Int) (outbox : List Message) (move : AgentMove) :
    (m.step now outbox move).terminated = m.terminated ∨ ∃ failure ok k id session, move = .act failure ok ∧
      m.doing = .closes k (some id) ∧
      m.sessions[k]? = some session ∧ session.closed = false ∧
      (m.step now outbox move).terminated = m.terminated ++ [(id, k)] := by
  cases move with
  | take started =>
    left
    simp only [SessionManager.step, SessionManager.take, SessionManager.handle, SessionManager.start,
      SessionManager.input,
      SessionManager.resize, SessionManager.close]
    repeat' split
    all_goals rfl
  | act failure ok =>
    simp only [SessionManager.step]
    unfold SessionManager.act
    split
    · exact Or.inl (write_terminated ..)
    · left
      split
      · split <;> rfl
      · rfl
    · exact Or.inl rfl
    · rename_i k id doing
      unfold SessionManager.terminate
      cases at_ : m.sessions[k]? with
      | none => exact Or.inl rfl
      | some session =>
        cases closed : session.closed with
        | true =>
          left
          simp only [closed, if_true]
        | false => exact Or.inr ⟨failure, ok, k, id, session, rfl, doing, at_, closed,
          by simp [closed, SessionManager.edit]⟩
    · exact Or.inl (terminate_none ..)
    · exact Or.inl rfl
    · exact Or.inl rfl
  | hangUp =>
    left
    simp only [SessionManager.step, SessionManager.hangUp, SessionManager.close]
    repeat' split
    all_goals rfl
  | wait k cause ok =>
    left
    simp only [SessionManager.step, SessionManager.wait]
    repeat' split
    all_goals first
      | rfl
      | exact write_terminated ..
  | streamOutput k result ok =>
    left
    simp only [SessionManager.step, SessionManager.streamOutput]
    repeat' split
    all_goals first
      | rfl
      | exact write_terminated ..
  | shellExits k => exact Or.inl rfl

theorem OwnCloses.step {sys : System} (coheres : Coheres sys) (h : OwnCloses sys) (move : SystemMove)
    (spares : Spares sys move) :
    OwnCloses (sys.step move) := by
  cases move with
  | hub move =>
    by_cases o : own move
    · intro c' mem
      rw [System.step, Coheres.stepHub_own o] at mem
      obtain ⟨i, at_⟩ := List.mem_iff_getElem?.mp mem
      rw [List.getElem?_mapIdx] at at_
      obtain ⟨c, there, rfl⟩ := Option.map_eq_some_iff.mp at_
      exact h c (List.mem_of_getElem? there)
    · cases move with
      | restart => exact h
      | registerAgent serverId =>
        intro c mem
        rcases List.mem_append.mp mem with old | new
        · exact h c old
        · rw [List.mem_singleton.mp new]
          exact fun _ mem => absurd mem List.not_mem_nil
      | agentMessage peer incoming =>
        cases incoming with
        | none => exact absurd trivial o
        | some m => exact h
      | _ => exact absurd trivial o
  | receive peer =>
    simp only [System.step, System.receive]
    split
    · rename_i c p there _
      split
      · intro c' mem
        rcases List.mem_or_eq_of_mem_set mem with old | rfl
        · exact h c' old
        · exact h c (List.mem_of_getElem? there)
      · exact h
    · exact h
  | agent peer move =>
    simp only [System.step]
    split
    · rename_i c there
      obtain ⟨p, at_, linked⟩ := coheres.connection there
      obtain ⟨-, g⟩ := linked.holds.step (coheres.orderly.written peer p at_) sys.hub.now move
      intro c' mem
      rcases List.mem_or_eq_of_mem_set mem with old | rfl
      · exact h c' old
      · intro t mem'
        simp only [outbox_eq at_] at mem' ⊢
        rcases terminated_step c.manager sys.hub.now p.outbox move with same |
          ⟨failure, ok, k, id, session, rfl, doing, at', open_, more⟩
        · rw [same] at mem'
          exact g.ids _ _ (h c (List.mem_of_getElem? there) t mem')
        · rw [more] at mem'
          rcases List.mem_append.mp mem' with old | new
          · exact g.ids _ _ (h c (List.mem_of_getElem? there) t old)
          · rw [List.mem_singleton.mp new]
            have closes := linked.holds.doing
            rw [doing] at closes
            rcases closes with mine | ⟨running, refused⟩
            · exact g.ids _ _ mine
            · exact absurd refused (spares c k id session running there doing at' open_)
    · exact h

/-- What does not spare closes the PTY of another session. -/
theorem OwnCloses.spares {sys : System} (coheres : Coheres sys) (move : SystemMove)
    (after : OwnCloses (sys.step move)) : Spares sys move := by
  cases move with
  | hub move => trivial
  | receive peer => trivial
  | agent peer move =>
    cases move with
    | act failure ok =>
      intro c k id session running there doing at' open_ refused
      obtain ⟨p, at_, linked⟩ := coheres.connection there
      obtain ⟨-, g⟩ := linked.holds.step (coheres.orderly.written peer p at_) sys.hub.now (.act failure ok)
      have within := (List.getElem?_eq_some_iff.mp there).1
      have closed : (id, k) ∈ (c.manager.step sys.hub.now (sys.hub.outbox peer) (.act failure ok)).terminated := by
        simp only [SessionManager.step, SessionManager.act, doing, SessionManager.terminate, at', open_]
        exact List.mem_append_right _ (List.mem_singleton_self _)
      simp only [System.step, there] at after
      have mine := after _ (List.mem_of_getElem? (List.getElem?_set_self within)) (id, k) closed
      have was := ids_of_session at'
      rw [outbox_eq at_] at mine
      have now := g.ids k session.id was
      rw [now] at mine
      refine (linked.holds.refused _ refused).2 ?_
      rw [← Option.some.inj mine]
      exact List.mem_of_getElem? was
    | _ => trivial

/-- Every close closes the PTY of its own session all along exactly the runs in which no agent closes a
    session for one whose start it has refused for that session. -/
theorem own_closes_iff (moves : List SystemMove) :
    systemMachine.Always OwnCloses NewSystem moves ↔ systemMachine.Each Spares NewSystem moves := by
  have start : Coheres NewSystem ∧ OwnCloses NewSystem := ⟨.newSystem, fun _ mem => absurd mem List.not_mem_nil⟩
  have keep (sys : System) (move : SystemMove) (h : Coheres sys ∧ OwnCloses sys) (spares : Spares sys move) :
      Coheres (systemMachine.step sys move) ∧ OwnCloses (systemMachine.step sys move) :=
        ⟨h.1.step move, h.2.step h.1 move spares⟩
  have exact_ (sys : System) (move : SystemMove) (h : Coheres sys ∧
    OwnCloses sys) (after : OwnCloses (systemMachine.step sys move)) :
      Spares sys move := OwnCloses.spares h.1 move after
  exact Machine.always_iff_each (fun _ h => h.2) keep exact_ start

/-- A session that is opened with this ticket and this id. -/
def opening (ticket id : String) : List SystemMove :=
  List.map .hub [.askTicket "web-1" "alice", .checkTicket 0, .issueTicket 0 ticket, .redeemTicket ticket,
    .visit 0, .visit 0,
    .createSession 0 id true, .handle id true, .handle id true]

/-- The PTY of `a` cannot be read for a moment, and the hub ends `a`; the agent still has it when `b` is
started, and its browser leaves. -/
def crossed : List SystemMove :=
  [.hub (.registerAgent "web-1")] ++ opening "t1" "a" ++
    [.agent 0 (.take (.ok ())), .agent 0 (.streamOutput 0 (.unexpected "input/output error") true),
      .agent 0 (.streamOutput 0 .expected true), .receive 0] ++
    List.map .hub ([.dispatch 0, .dispatch 0] ++ List.replicate 7 (.proceed "a" true) ++ [.dispatch 0]) ++
    opening "t2" "b" ++
    [.agent 0 (.take (.ok ()))] ++
    List.map .hub [.browserMessage "b" none, .handle "b" true, .proceed "b" true, .proceed "b" true] ++
    [.agent 0 (.act none true), .agent 0 (.take (.ok ())), .agent 0 (.act none true)]

set_option maxRecDepth 8000 in
example : (systemMachine.exec NewSystem crossed).connections.map (·.manager.terminated) = [[("b", 0)]] ∧
    (systemMachine.exec NewSystem crossed).connections.map (ids ·.manager) = [["a"]] := by decide

end TerminalIsolation
end DatrixOps
