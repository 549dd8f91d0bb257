import DatrixOps.Terminal.Hub

/-! What a step of the hub does to its sessions and to the table. An invariant that survives the elementary
    changes is kept by every step but those of `endSession` and a restart, which it is asked about by itself.
    -/

namespace DatrixOps
namespace Terminal
open Hub

/-- A message is in the hands of AgentSocket. -/
def Peer.Holds (p : Peer) (m : Message) : Prop := p.doing = .found m ∨ p.doing = .told m

/-- The message of a session there has been. -/
def Hub.Handed (hub : Hub) (id : String) : Prop :=
  (∃ p ∈ hub.peers, ∃ m, p.Holds m ∧ m.sessionId = id) ∨ ∃ s ∈ hub.sessions, s.id = id

/-- The sessions and the table are left as they are. -/
structure Beside (hub hub' : Hub) : Prop where
  sessions : hub'.sessions = hub.sessions
  rows : hub'.rows = hub.rows
  audits : hub'.audits = hub.audits
  ids : hub'.ids = hub.ids
  accounted : hub'.accounted = hub.accounted
  handed : ∀ p ∈ hub'.peers, ∀ m, p.Holds m → hub.Handed m.sessionId

/-- The elementary changes that `I` survives. -/
structure Survives (I : Hub → Prop) : Prop where
  beside : ∀ {hub hub'}, Beside hub hub' → I hub → I hub'
  serve : ∀ {hub} id serving, I hub → I (hub.serve id serving)
  list : ∀ {hub} s, s ∈ hub.sessions → s.phase = .created → I hub → I (hub.edit s.id ({ · with phase := .listed }))
  endSession : ∀ {hub} id status reason notifyAgent, status ≠ .active → I hub →
    I (hub.endSession id status reason notifyAgent)
  account : ∀ {hub} id fromBrowser data, hub.Handed id → I hub → I (hub.account id fromBrowser data)
  openSession : ∀ {hub} t agent id, id ∉ hub.ids → hub.occupied t.serverId = false → I hub →
    I (hub.openSession t agent id)

theorem mem_modify {α : Type} {l : List α} {i : Nat} {f : α → α} {x : α} (mem : x ∈ l.modify i f) :
    ∃ y ∈ l, x = y ∨ x = f y := by
  obtain ⟨j, at_⟩ := List.mem_iff_getElem?.mp mem
  rw [List.getElem?_modify] at at_
  obtain ⟨y, there, rfl⟩ := Option.map_eq_some_iff.mp at_
  refine ⟨y, List.mem_of_getElem? there, ?_⟩
  split
  · exact Or.inr rfl
  · exact Or.inl rfl

theorem found {hub : Hub} {id : String} {s : Session} (here : hub.session? id = some s) :
    s ∈ hub.sessions ∧ s.id = id := by
  unfold Hub.session? at here
  have mine := List.find?_some here
  exact ⟨List.mem_of_find?_eq_some here, of_decide_eq_true mine⟩

namespace Survives
variable {I : Hub → Prop} {hub : Hub} (v : Survives I)
include v

theorem modify (h : I hub) {peer : Nat} {f : Peer → Peer}
    (held : ∀ p ∈ hub.peers, ∀ m, (f p).Holds m → hub.Handed m.sessionId) :
    I { hub with peers := hub.peers.modify peer f } := by
  suffices beside : Beside hub { hub with peers := hub.peers.modify peer f } from v.beside beside h
  refine ⟨rfl, rfl, rfl, rfl, rfl, fun p mem m has => ?_⟩
  obtain ⟨q, old, rfl | rfl⟩ := mem_modify mem
  · exact Or.inl ⟨p, old, m, has, rfl⟩
  · exact held q old m has

theorem write (h : I hub) (peer : Nat) (m : Message) (ok : Bool) : I (hub.write peer m ok) :=
  v.modify h fun p mem m' has => Or.inl ⟨p, mem, m', by
    revert has
    split <;> exact id, rfl⟩

theorem setPeer (h : I hub) {peer : Nat} {doing : Reading}
    (held : ∀ m, doing = .found m ∨ doing = .told m → hub.Handed m.sessionId) :
    I (hub.setPeer peer doing) :=
  v.modify h fun _ _ m => held m

theorem idle (h : I hub) {peer : Nat} {doing : Reading} (none_ : ∀ m, doing ≠ .found m ∧ doing ≠ .told m) :
    I (hub.setPeer peer doing) :=
  v.setPeer h fun m held => held.elim (absurd · (none_ m).1) (absurd · (none_ m).2)

theorem same (h : I hub) {hub' : Hub} (peers : hub'.peers = hub.peers) (sessions : hub'.sessions = hub.sessions)
    (rows : hub'.rows = hub.rows) (audits : hub'.audits = hub.audits) (ids : hub'.ids = hub.ids)
    (accounted : hub'.accounted = hub.accounted) :
    I hub' :=
  v.beside ⟨sessions, rows, audits, ids, accounted, fun p mem m has => Or.inl ⟨p, peers ▸ mem, m, has, rfl⟩⟩ h

theorem createSession (h : I hub) (i : Nat) (id : String) (ok : Bool) : I (hub.createSession i id ok) := by
  unfold Hub.createSession
  split
  · rename_i t agent _
    simp only
    split
    · rename_i free
      exact v.openSession t agent id free.2.1 free.2.2 (v.same h rfl rfl rfl rfl rfl rfl)
    · exact v.same h rfl rfl rfl rfl rfl rfl
  · exact h

theorem handle (h : I hub) {s : Session} (here : s ∈ hub.sessions) (ok : Bool) : I (hub.handle s ok) := by
  unfold Hub.handle
  split
  · split
    · rename_i created
      exact v.list s here created h
    · simp only
      have written := v.write h s.agent ⟨"session_start", s.id, "", 120, 32, ""⟩ ok
      split
      · exact v.same (v.serve s.id .reading written) rfl rfl rfl rfl rfl rfl
      · exact v.serve _ _ (v.endSession _ _ _ _ nofun written)
  · rename_i m _
    exact v.serve _ _ (v.write h s.agent m ok)
  · split <;> exact v.serve _ _ h
  · exact v.serve _ _ (v.endSession _ _ _ _ nofun h)
  · exact h
  · exact h

theorem browserMessage (h : I hub) {s : Session} (here : s ∈ hub.sessions) (incoming : Option Message) :
    I (hub.browserMessage s incoming) := by
  unfold Hub.browserMessage
  split
  · exact h
  · split
    · exact v.serve _ _ h
    · split
      · exact v.serve _ _ h
      · exact h
      · split
        · exact v.serve _ _ (v.account s.id true _ (Or.inr ⟨s, here, rfl⟩) h)
        · exact v.serve _ _ h

theorem agentMessage (h : I hub) (peer : Nat) (p : Peer) (incoming : Option Message) :
    I (hub.agentMessage peer p incoming) := by
  unfold Hub.agentMessage
  split
  · exact h
  · split
    · exact v.modify h fun _ _ m held => held.elim nofun nofun
    · split
      · exact h
      · split
        · rename_i s here
          split
          · refine v.setPeer h fun m held => ?_
            rcases held with eq | eq
            · rw [← Reading.found.inj eq]
              exact Or.inr ⟨s, found here⟩
            · exact nomatch eq
          · exact h
        · exact h

theorem dispatch (h : I hub) {peer : Nat} {p : Peer} (here : p ∈ hub.peers) : I (hub.dispatch peer p) := by
  unfold Hub.dispatch
  split
  · rename_i m doing
    have known : hub.Handed m.sessionId := Or.inl ⟨p, here, m, Or.inl doing, rfl⟩
    split
    · refine v.same (v.setPeer h fun m' held => ?_) rfl rfl rfl rfl rfl rfl
      exact held.elim nofun fun eq => Reading.told.inj eq ▸ known
    · exact v.idle h fun _ => ⟨nofun, nofun⟩
  · rename_i m doing
    have known : hub.Handed m.sessionId := Or.inl ⟨p, here, m, Or.inr doing, rfl⟩
    split
    · exact v.idle (v.account _ _ _ known h) fun _ => ⟨nofun, nofun⟩
    · split
      · refine v.idle (v.endSession _ _ _ _ ?_ h) fun _ => ⟨nofun, nofun⟩
        exact nofun
      · refine v.idle (v.endSession _ _ _ _ ?_ h) fun _ => ⟨nofun, nofun⟩
        exact nofun
  · split
    · exact v.idle h fun _ => ⟨nofun, nofun⟩
    · exact h
  · refine v.same (v.idle h fun _ => ?_) rfl rfl rfl rfl rfl rfl
    exact ⟨nofun, nofun⟩
  · split
    · exact v.idle h fun _ => ⟨nofun, nofun⟩
    · exact v.endSession _ _ _ _ nofun h
  · exact h
  · exact h

theorem registerAgent (h : I hub) (serverId : String) : I (hub.registerAgent serverId) := by
  suffices beside : Beside hub (hub.registerAgent serverId) from v.beside beside h
  refine ⟨rfl, rfl, rfl, rfl, rfl, fun p mem m has => ?_⟩
  rcases List.mem_append.mp mem with old | new
  · exact Or.inl ⟨p, old, m, has, rfl⟩
  · rw [List.mem_singleton.mp new] at has
    exact has.elim nofun nofun

/-- Tickets and visits are beside the sessions. -/
theorem tickets (h : I hub) : (∀ serverId userId, I (hub.askTicket serverId userId)) ∧ (∀ i, I (hub.checkTicket i)) ∧
    (∀ i value, I (hub.issueTicket i value)) ∧ (∀ value, I (hub.redeemTicket value)) ∧ ∀ i, I (hub.visit i) := by
  refine ⟨fun serverId userId => ?_, fun i => ?_, fun i value => ?_, fun value => ?_, fun i => ?_⟩
  · unfold Hub.askTicket
    split
    · exact v.same h rfl rfl rfl rfl rfl rfl
    · exact h
  · unfold Hub.checkTicket
    split
    · split <;> exact v.same h rfl rfl rfl rfl rfl rfl
    · exact h
  · unfold Hub.issueTicket
    split
    · split
      · exact h
      · exact v.same h rfl rfl rfl rfl rfl rfl
    · exact h
  · unfold Hub.redeemTicket
    split
    · simp only
      split <;> exact v.same h rfl rfl rfl rfl rfl rfl
    · exact h
  · unfold Hub.visit
    split
    · split <;> exact v.same h rfl rfl rfl rfl rfl rfl
    · split <;> exact v.same h rfl rfl rfl rfl rfl rfl
    · exact h

theorem step (h : I hub) (move : Move)
    (proceed : ∀ id ok s e, move = .proceed id ok → hub.session? id = some s → s.phase = .ending e →
      I (hub.proceed s e ok))
    (restart : move = .restart → I hub.restart) : I (hub.step move) := by
  obtain ⟨ask, check, issue, redeem, visit⟩ := v.tickets h
  cases move with
  | wait d => exact v.same h rfl rfl rfl rfl rfl rfl
  | askTicket serverId userId => exact ask serverId userId
  | checkTicket i => exact check i
  | issueTicket i value => exact issue i value
  | redeemTicket value => exact redeem value
  | visit i => exact visit i
  | createSession i id ok => exact v.createSession h i id ok
  | handle id ok =>
    simp only [Hub.step]
    split
    · rename_i s here
      exact v.handle h (found here).1 ok
    · exact h
  | browserMessage id incoming =>
    simp only [Hub.step]
    split
    · rename_i s here
      exact v.browserMessage h (found here).1 incoming
    · exact h
  | timeout id =>
    simp only [Hub.step]
    split
    · unfold Hub.timeout
      split
      · exact h
      · exact v.endSession _ _ _ _ nofun h
    · exact h
  | registerAgent serverId => exact v.registerAgent h serverId
  | agentMessage peer incoming =>
    simp only [Hub.step]
    split
    · exact v.agentMessage h peer _ incoming
    · exact h
  | dispatch peer =>
    simp only [Hub.step]
    split
    · rename_i p here
      exact v.dispatch h (List.mem_of_getElem? here)
    · exact h
  | proceed id ok =>
    simp only [Hub.step]
    split
    · rename_i s here
      split
      · rename_i e phase
        exact proceed id ok s e rfl here phase
      · exact h
    · exact h
  | restart => exact restart rfl

end Survives

end Terminal
end DatrixOps
