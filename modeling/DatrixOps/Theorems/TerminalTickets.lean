import Mathlib.Data.List.Perm.Subperm
import DatrixOps.Theorems.TerminalTurns

/-! Tickets to terminals. A ticket lets one browser in, and each session comes from a ticket of its own. -/

namespace DatrixOps
namespace TerminalTickets
open Terminal Terminal.Hub TerminalTurns

/-- The ticket of the visit. -/
def Visit.ticket : Visit → Ticket
  | .admitted t | .reached t _ | .cleared t _ => t

/-- The server and the user of a ticket. -/
def parties (t : Ticket) : String × String := (t.serverId, t.userId)

/-- A ticket is accepted once, before it expires; and every session comes from a ticket of its own, for the
    server and the user that the ticket was issued for. -/
structure Admissions (hub : Hub) : Prop where
  issuedOnce : (hub.issued.map (·.1)).Nodup
  once : (hub.admitted.map (·.1)).Nodup
  inTime : ∀ a ∈ hub.admitted, a.2.2 ≤ a.2.1.expires
  issued : ∀ a ∈ hub.admitted, (a.1, a.2.1) ∈ hub.issued
  sessions : (hub.sessions.map fun s => (s.serverId, s.userId)).Subperm (hub.admitted.map fun a => parties a.2.1)

/-- What is kept: a ticket in store was issued and not accepted yet, and sessions and visits come from
    tickets that were. -/
structure Tickets (hub : Hub) : Prop where
  issuedOnce : (hub.issued.map (·.1)).Nodup
  stored : ∀ entry ∈ hub.tickets, entry ∈ hub.issued
  once : (hub.admitted.map (·.1)).Nodup
  spent : ∀ a ∈ hub.admitted, ∀ entry ∈ hub.tickets, entry.1 ≠ a.1
  inTime : ∀ a ∈ hub.admitted, a.2.2 ≤ a.2.1.expires
  issued : ∀ a ∈ hub.admitted, (a.1, a.2.1) ∈ hub.issued
  sessions : (hub.sessions.map (fun s => (s.serverId, s.userId)) ++ hub.visits.map fun v =>
    parties (Visit.ticket v)).Subperm
    (hub.admitted.map fun a => parties a.2.1)

theorem Tickets.admissions {hub : Hub} (h : Tickets hub) : Admissions hub :=
  ⟨h.issuedOnce, h.once, h.inTime, h.issued, (List.sublist_append_left _ _).subperm.trans h.sessions⟩

/-- What happens once there is a session leaves the tickets as they are. -/
structure Aside (hub hub' : Hub) : Prop where
  tickets : hub'.tickets = hub.tickets
  issued : hub'.issued = hub.issued
  admitted : hub'.admitted = hub.admitted
  visits : hub'.visits = hub.visits
  sessions : hub'.sessions.map (fun s => (s.serverId, s.userId)) = hub.sessions.map fun s => (s.serverId, s.userId)

namespace Aside
variable {hub hub' : Hub}

theorem refl (hub : Hub) : Aside hub hub := ⟨rfl, rfl, rfl, rfl, rfl⟩

theorem trans {hub'' : Hub} (h : Aside hub hub') (h' : Aside hub' hub'') : Aside hub hub'' :=
  ⟨h'.tickets.trans h.tickets, h'.issued.trans h.issued, h'.admitted.trans h.admitted, h'.visits.trans h.visits,
    h'.sessions.trans h.sessions⟩

theorem edit (h : Aside hub hub') {id : String} {f : Session → Session}
    (keeps : ∀ s, (f s).serverId = s.serverId ∧ (f s).userId = s.userId) : Aside hub (hub'.edit id f) := by
  refine h.trans ⟨rfl, rfl, rfl, rfl, ?_⟩
  rw [Hub.edit, List.map_map]
  refine List.map_congr_left fun s _ => ?_
  simp only [Function.comp_apply]
  split
  · rw [(keeps s).1, (keeps s).2]
  · rfl

theorem serve (h : Aside hub hub') (id : String) (serving : Serving) : Aside hub (hub'.serve id serving) :=
  h.edit fun _ => ⟨rfl, rfl⟩

theorem endSession (h : Aside hub hub') (id : String) (status : Status) (reason : String) (notifyAgent : Bool) :
    Aside hub (hub'.endSession id status reason notifyAgent) := by
  refine h.edit fun s => ?_
  split <;> exact ⟨rfl, rfl⟩

theorem account (h : Aside hub hub') (id : String) (fromBrowser : Bool) (data : String) :
    Aside hub (hub'.account id fromBrowser data) := by
  suffices counted : Aside hub (hub'.edit id (addBytes · fromBrowser (decodedLength data))) from
    ⟨counted.tickets, counted.issued, counted.admitted, counted.visits, counted.sessions⟩
  refine h.edit fun s => ?_
  obtain ⟨n, m, eq⟩ := Orderly.addBytes_frame s fromBrowser (decodedLength data)
  rw [eq]
  exact ⟨rfl, rfl⟩

theorem write (h : Aside hub hub') (peer : Nat) (m : Message) (ok : Bool) : Aside hub (hub'.write peer m ok) :=
  ⟨h.tickets, h.issued, h.admitted, h.visits, h.sessions⟩

theorem setPeer (h : Aside hub hub') (peer : Nat) (doing : Reading) : Aside hub (hub'.setPeer peer doing) :=
  ⟨h.tickets, h.issued, h.admitted, h.visits, h.sessions⟩

theorem reach (h : Aside hub hub') (id : String) (e : Ending) (stage : Stage) : Aside hub (hub'.reach id e stage) :=
  h.edit fun _ => ⟨rfl, rfl⟩

theorem handle (hub : Hub) (s : Session) (ok : Bool) : Aside hub (hub.handle s ok) := by
  unfold Hub.handle
  split
  · split
    · exact (refl hub).edit fun _ => ⟨rfl, rfl⟩
    · have written := (refl hub).write s.agent ⟨"session_start", s.id, "", 120, 32, ""⟩ ok
      simp only
      split
      · have served := written.serve s.id .reading
        exact ⟨served.tickets, served.issued, served.admitted, served.visits, served.sessions⟩
      · exact (written.endSession _ _ _ _).serve _ _
  · exact ((refl hub).write _ _ _).serve _ _
  · split <;> exact (refl hub).serve _ _
  · exact ((refl hub).endSession _ _ _ _).serve _ _
  · exact refl hub
  · exact refl hub

theorem browserMessage (hub : Hub) (s : Session) (incoming : Option Message) :
    Aside hub (hub.browserMessage s incoming) := by
  unfold Hub.browserMessage
  split
  · exact refl hub
  · split
    · exact (refl hub).serve _ _
    · split
      · exact (refl hub).serve _ _
      · exact refl hub
      · split
        · exact ((refl hub).account _ _ _).serve _ _
        · exact (refl hub).serve _ _

theorem timeout (hub : Hub) (s : Session) : Aside hub (hub.timeout s) := by
  unfold Hub.timeout
  split
  · exact refl hub
  · exact (refl hub).endSession _ _ _ _

theorem agentMessage (hub : Hub) (peer : Nat) (p : Peer) (incoming : Option Message) :
    Aside hub (hub.agentMessage peer p incoming) := by
  unfold Hub.agentMessage
  split
  · exact refl hub
  · split
    · exact ⟨rfl, rfl, rfl, rfl, rfl⟩
    · split
      · exact refl hub
      · split
        · split
          · exact (refl hub).setPeer _ _
          · exact refl hub
        · exact refl hub

theorem dispatch (hub : Hub) (peer : Nat) (p : Peer) : Aside hub (hub.dispatch peer p) := by
  unfold Hub.dispatch
  split
  · split <;> exact ⟨rfl, rfl, rfl, rfl, rfl⟩
  · split
    · exact ((refl hub).account _ _ _).setPeer _ _
    · split <;> exact ((refl hub).endSession _ _ _ _).setPeer _ _
  · split
    · exact (refl hub).setPeer _ _
    · exact refl hub
  · exact ⟨rfl, rfl, rfl, rfl, rfl⟩
  · split
    · exact (refl hub).setPeer _ _
    · exact (refl hub).endSession _ _ _ _
  · exact refl hub
  · exact refl hub

theorem proceed (hub : Hub) (s : Session) (e : Ending) (ok : Bool) : Aside hub (hub.proceed s e ok) := by
  unfold Hub.proceed
  split
  case h_2 =>
    split
    · exact ((refl hub).write _ _ _).reach _ _ _
    · exact (refl hub).reach _ _ _
  case h_6 n m _ =>
    have closed : Aside hub (hub.closeSession s.id e.status e.reason n m) := ⟨rfl, rfl, rfl, rfl, rfl⟩
    split
    · exact closed.reach _ _ _
    · exact (refl hub).reach _ _ _
  case h_7 n m _ =>
    have audited : Aside hub (hub.auditClose s.id e.status e.reason n m) := ⟨rfl, rfl, rfl, rfl, rfl⟩
    split
    · exact audited.reach _ _ _
    · exact (refl hub).reach _ _ _
  case h_8 => exact refl hub
  all_goals exact (refl hub).reach _ _ _

end Aside

namespace Tickets
variable {hub : Hub}

theorem aside (h : Tickets hub) {hub' : Hub} (a : Aside hub hub') : Tickets hub' := by
  obtain ⟨tickets, issued, admitted, visits, sessions⟩ := a
  constructor
  · rw [issued]
    exact h.issuedOnce
  · rw [tickets, issued]
    exact h.stored
  · rw [admitted]
    exact h.once
  · rw [admitted, tickets]
    exact h.spent
  · rw [admitted]
    exact h.inTime
  · rw [admitted, issued]
    exact h.issued
  · rw [sessions, visits, admitted]
    exact h.sessions

theorem issueTicket (h : Tickets hub) (i : Nat) (value : String) : Tickets (hub.issueTicket i value) := by
  unfold Hub.issueTicket
  split
  · rename_i serverId userId _
    split
    · exact h
    · rename_i fresh
      have new : ∀ entry ∈ hub.issued, entry.1 ≠ value := fun entry mem same => fresh (same ▸ List.mem_map_of_mem mem)
      refine ⟨?_, fun entry mem => ?_, h.once, fun a mem entry mem' => ?_, h.inTime, fun a mem => ?_, h.sessions⟩
      · rw [List.map_append]
        refine List.Nodup.append h.issuedOnce (List.nodup_singleton _) (List.disjoint_singleton.mpr ?_)
        exact fresh
      · rcases List.mem_cons.mp mem with rfl | old
        · exact List.mem_append_right _ (List.mem_singleton_self _)
        · exact List.mem_append_left _ (h.stored entry (List.mem_filter.mp old).1)
      · rcases List.mem_cons.mp mem' with rfl | old
        · exact (new _ (h.issued a mem)).symm
        · exact h.spent a mem entry (List.mem_filter.mp old).1
      · exact List.mem_append_left _ (h.issued a mem)
  · exact h

theorem redeemTicket (h : Tickets hub) (value : String) : Tickets (hub.redeemTicket value) := by
  unfold Hub.redeemTicket
  split
  · rename_i t there
    have mem := Orderly.mem_of_lookup there
    have fewer : ∀ entry ∈ hub.tickets.filter (·.1 ≠ value), entry ∈ hub.tickets ∧ entry.1 ≠ value := by
      intro entry mem
      obtain ⟨old, ne⟩ := List.mem_filter.mp mem
      exact ⟨old, of_decide_eq_true ne⟩
    simp only
    split
    · exact ⟨h.issuedOnce, fun entry mem => h.stored entry (fewer entry mem).1, h.once,
        fun a mem entry mem' => h.spent a mem entry (fewer entry mem').1, h.inTime, h.issued, h.sessions⟩
    · rename_i timely
      refine ⟨h.issuedOnce, fun entry mem => h.stored entry (fewer entry mem).1, ?_, fun a mem' entry mem'' => ?_,
        fun a mem' => ?_,
        fun a mem' => ?_, ?_⟩
      · rw [List.map_append]
        refine List.Nodup.append h.once (List.nodup_singleton _) (List.disjoint_singleton.mpr fun again => ?_)
        obtain ⟨a, mem', same⟩ := List.mem_map.mp again
        exact h.spent a mem' _ mem same.symm
      · rcases List.mem_append.mp mem' with old | new
        · exact h.spent a old entry (fewer entry mem'').1
        · rw [List.mem_singleton.mp new]
          exact (fewer entry mem'').2
      · rcases List.mem_append.mp mem' with old | new
        · exact h.inTime a old
        · rw [List.mem_singleton.mp new]
          exact Int.not_lt.mp timely
      · rcases List.mem_append.mp mem' with old | new
        · exact h.issued a old
        · rw [List.mem_singleton.mp new]
          exact h.stored _ mem
      · rw [List.map_append, List.map_append, ← List.append_assoc]
        exact (List.subperm_append_right _).mpr h.sessions
  · exact h

theorem visit (h : Tickets hub) (i : Nat) : Tickets (hub.visit i) := by
  have fewer : Tickets { hub with visits := hub.visits.eraseIdx i } := by
    refine ⟨h.issuedOnce, h.stored, h.once, h.spent, h.inTime, h.issued, List.Subperm.trans ?_ h.sessions⟩
    exact (((List.eraseIdx_sublist hub.visits i).map _).append_left _).subperm
  have goes {v v' : Visit} (here : hub.visits[i]? = some v) (same : Visit.ticket v' = Visit.ticket v) :
      Tickets { hub with visits := hub.visits.set i v' } := by
    refine ⟨h.issuedOnce, h.stored, h.once, h.spent, h.inTime, h.issued, ?_⟩
    have unchanged : (hub.visits.set i v').map (fun v => parties (Visit.ticket v)) = hub.visits.map fun v =>
        parties (Visit.ticket v) := by
      obtain ⟨lt, rfl⟩ := List.getElem?_eq_some_iff.mp here
      have within : i < (hub.visits.map fun v => parties (Visit.ticket v)).length := by rwa [List.length_map]
      rw [List.map_set, same]
      simpa only [List.getElem_map] using List.set_getElem_self within
    rw [unchanged]
    exact h.sessions
  unfold Hub.visit
  split
  · rename_i t here
    split
    · exact goes here rfl
    · exact fewer
  · rename_i t agent here
    split
    · exact fewer
    · exact goes here rfl
  · exact h

theorem createSession (h : Tickets hub) (i : Nat) (id : String) (ok : Bool) : Tickets (hub.createSession i id ok) := by
  unfold Hub.createSession
  split
  · rename_i t agent here
    simp only
    split
    · refine ⟨h.issuedOnce, h.stored, h.once, h.spent, h.inTime, h.issued, List.Subperm.trans ?_ h.sessions⟩
      obtain ⟨lt, eq⟩ := List.getElem?_eq_some_iff.mp here
      have moved := (List.getElem_cons_eraseIdx_perm lt).map fun v => parties (Visit.ticket v)
      rw [List.map_cons, eq] at moved
      rw [Hub.openSession, List.map_append, List.append_assoc]
      exact (moved.append_left _).subperm
    · refine ⟨h.issuedOnce, h.stored, h.once, h.spent, h.inTime, h.issued, List.Subperm.trans ?_ h.sessions⟩
      exact (((List.eraseIdx_sublist hub.visits i).map _).append_left _).subperm
  · exact h

theorem step (h : Tickets hub) (move : Move) (stays : move ≠ .restart) : Tickets (hub.step move) := by
  cases move with
  | wait d => exact h.aside ⟨rfl, rfl, rfl, rfl, rfl⟩
  | askTicket serverId userId =>
    simp only [Hub.step, Hub.askTicket]
    split
    · exact h.aside ⟨rfl, rfl, rfl, rfl, rfl⟩
    · exact h
  | checkTicket i =>
    simp only [Hub.step, Hub.checkTicket]
    split
    · split <;> exact h.aside ⟨rfl, rfl, rfl, rfl, rfl⟩
    · exact h
  | issueTicket i value => exact h.issueTicket i value
  | redeemTicket value => exact h.redeemTicket value
  | visit i => exact h.visit i
  | createSession i id ok => exact h.createSession i id ok
  | handle id ok =>
    simp only [Hub.step]
    split
    · exact h.aside (.handle hub _ ok)
    · exact h
  | browserMessage id incoming =>
    simp only [Hub.step]
    split
    · exact h.aside (.browserMessage hub _ incoming)
    · exact h
  | timeout id =>
    simp only [Hub.step]
    split
    · exact h.aside (.timeout hub _)
    · exact h
  | registerAgent serverId => exact h.aside ⟨rfl, rfl, rfl, rfl, rfl⟩
  | agentMessage peer incoming =>
    simp only [Hub.step]
    split
    · exact h.aside (.agentMessage hub peer _ incoming)
    · exact h
  | dispatch peer =>
    simp only [Hub.step]
    split
    · exact h.aside (.dispatch hub peer _)
    · exact h
  | proceed id ok =>
    simp only [Hub.step]
    split
    · split
      · exact h.aside (.proceed hub _ _ ok)
      · exact h
    · exact h
  | restart => exact absurd rfl stays

theorem newHub : Tickets NewHub := by
  refine ⟨List.nodup_nil, ?_, List.nodup_nil, ?_, ?_, ?_, List.nil_subperm⟩ <;>
    exact fun _ mem => absurd mem List.not_mem_nil

end Tickets

end TerminalTickets
end DatrixOps
