import Mathlib.Data.List.Nodup
import DatrixOps.Terminal.Rules

/-! The rows of `terminal_sessions` and the sessions in hand. A row stays active when the statement that
    closes it fails, and when the control plane starts anew while its session is in hand; in all other runs
    every active row is that of a session that is being opened, lives, or is being closed. -/

namespace DatrixOps
namespace SessionRows
open Terminal Terminal.Hub

/-- A handler has the session in hand, and has not yet closed its row. -/
def inHand (s : Session) : Bool :=
  match s.phase with
  | .created | .listed => true
  | .ending e =>
    match e.stage with
    | .stored .. | .done => false
    | _ => true

/-- Every active row is that of a session in hand. -/
def Agree (hub : Hub) : Prop :=
  ∀ row ∈ hub.rows, row.status = .active → ∃ s ∈ hub.sessions, s.id = row.id ∧ s.serverId = row.serverId ∧
    inHand s = true

/-- A server without a session in hand can open one: `createSession` succeeds for whoever is let in. -/
def Opens (hub : Hub) : Prop :=
  ∀ i t agent id, hub.visits[i]? = some (.cleared t agent) →
    (∀ s ∈ hub.sessions, s.serverId = t.serverId → inHand s = false) →
    id ∉ hub.ids → ∃ s ∈ (hub.createSession i id true).sessions, s.id = id

theorem Agree.opens {hub : Hub} (h : Agree hub) : Opens hub := by
  intro i t agent id here idle fresh
  have free : hub.occupied t.serverId = false := by
    refine List.any_eq_false.mpr fun row mem taken => ?_
    simp only [Bool.and_eq_true, decide_eq_true_eq] at taken
    obtain ⟨s, there, -, server, hand⟩ := h row mem taken.2
    rw [idle s there (server.trans taken.1)] at hand
    exact Bool.noConfusion hand
  refine ⟨⟨id, t.serverId, t.userId, agent, hub.now, 0, 0, .created, .starting⟩, ?_, rfl⟩
  unfold Hub.createSession
  rw [here]
  simp only
  rw [if_pos ⟨trivial, fresh, free⟩]
  exact List.mem_append_right _ (List.mem_singleton_self _)

/-- The statement of `closeSession` is done, and the control plane starts anew only when it has no session in hand. -/
def Careful (hub : Hub) : Move → Prop
  | .proceed id ok => ∀ s status reason notifyAgent n m, hub.session? id = some s →
      s.phase = .ending ⟨status, reason, notifyAgent, .counted n m⟩ → ok = true
  | .restart => ∀ s ∈ hub.sessions, inHand s = false
  | _ => True

/-- What is kept: sessions and rows agree, and sessions in hand have active rows. -/
structure Inv (hub : Hub) : Prop where
  ids : ∀ s ∈ hub.sessions, s.id ∈ hub.ids
  unique : (hub.sessions.map (·.id)).Nodup
  agree : Agree hub
  active : ∀ s ∈ hub.sessions, inHand s = true → ∃ row ∈ hub.rows, row.id = s.id ∧ row.status = .active
  rowIds : ∀ row ∈ hub.rows, row.id ∈ hub.ids
  statuses : ∀ s ∈ hub.sessions, ∀ e, s.phase = .ending e → e.status ≠ .active

namespace Inv
variable {hub : Hub}

theorem eq_of_id (h : Inv hub) {s s' : Session} (mem : s ∈ hub.sessions) (mem' : s' ∈ hub.sessions)
    (same : s.id = s'.id) : s = s' :=
  List.inj_on_of_nodup_map h.unique mem mem' same

/-- A change of a session that leaves it in hand, or out of hand. -/
theorem edit (h : Inv hub) {id : String} {f : Session → Session}
    (keeps : ∀ s ∈ hub.sessions, s.id = id → (f s).id = s.id ∧ (f s).serverId = s.serverId ∧ inHand (f s) = inHand s)
    (ended : ∀ s ∈ hub.sessions, s.id = id → ∀ e, (f s).phase = .ending e → e.status ≠ .active) :
      Inv (hub.edit id f) := by
  have changed : ∀ s ∈ hub.sessions, (if s.id = id then f s else s).id = s.id ∧
    (if s.id = id then f s else s).serverId = s.serverId ∧
      inHand (if s.id = id then f s else s) = inHand s := by
    intro s mem
    by_cases mine : s.id = id
    · rw [if_pos mine]
      exact keeps s mem mine
    · rw [if_neg mine]
      exact ⟨rfl, rfl, rfl⟩
  refine ⟨?_, ?_, ?_, ?_, h.rowIds, ?_⟩
  · intro s' mem
    obtain ⟨s, old, rfl⟩ := List.mem_map.mp mem
    rw [(changed s old).1]
    exact h.ids s old
  · have names : (hub.edit id f).sessions.map (·.id) = hub.sessions.map (·.id) := by
      rw [Hub.edit, List.map_map]
      exact List.map_congr_left fun s mem => (changed s mem).1
    rw [names]
    exact h.unique
  · intro row mem active
    obtain ⟨s, there, mine, server, hand⟩ := h.agree row mem active
    obtain ⟨sameId, sameServer, sameHand⟩ := changed s there
    exact ⟨_, List.mem_map_of_mem there, sameId.trans mine, sameServer.trans server, sameHand.trans hand⟩
  · intro s' mem hand
    obtain ⟨s, old, rfl⟩ := List.mem_map.mp mem
    obtain ⟨sameId, -, sameHand⟩ := changed s old
    rw [sameId]
    exact h.active s old (sameHand ▸ hand)
  · intro s' mem
    obtain ⟨s, old, rfl⟩ := List.mem_map.mp mem
    by_cases mine : s.id = id
    · rw [if_pos mine]
      exact ended s old mine
    · rw [if_neg mine]
      exact h.statuses s old

theorem beside {hub' : Hub} (b : Beside hub hub') (h : Inv hub) : Inv hub' := by
  obtain ⟨sessions, rows, -, ids, -, -⟩ := b
  constructor
  · rw [sessions, ids]
    exact h.ids
  · rw [sessions]
    exact h.unique
  · rw [Agree, rows, sessions]
    exact h.agree
  · rw [sessions, rows]
    exact h.active
  · rw [rows, ids]
    exact h.rowIds
  · rw [sessions]
    exact h.statuses

theorem endSession (id : String) (status : Status) (reason : String) (notifyAgent : Bool) (notActive : status ≠ .active)
    (h : Inv hub) :
    Inv (hub.endSession id status reason notifyAgent) := by
  refine h.edit (fun s _ _ => ?_) fun s mem _ e => ?_
  · rcases phase : s.phase with - | - | e
    · exact ⟨rfl, rfl, rfl⟩
    · exact ⟨rfl, rfl, by rw [inHand, inHand, phase]⟩
    · exact ⟨rfl, rfl, rfl⟩
  · have old := h.statuses s mem e
    rcases phase : s.phase with - | - | e'
    · exact old
    · exact fun eq => Phase.ending.inj eq ▸ notActive
    · exact old

theorem addBytes_same (s : Session) (fromBrowser : Bool) (length : Int) : (addBytes s fromBrowser length).id = s.id ∧
    (addBytes s fromBrowser length).serverId = s.serverId ∧ (addBytes s fromBrowser length).phase = s.phase := by
  unfold addBytes
  split
  · exact ⟨rfl, rfl, rfl⟩
  · split <;> exact ⟨rfl, rfl, rfl⟩

theorem account (id : String) (fromBrowser : Bool) (data : String) (h : Inv hub) :
    Inv (hub.account id fromBrowser data) := by
  have counted : Inv (hub.edit id (addBytes · fromBrowser (decodedLength data))) := by
    refine h.edit (fun s _ _ => ?_) fun s mem _ => ?_
    · obtain ⟨sameId, sameServer, samePhase⟩ := addBytes_same s fromBrowser (decodedLength data)
      exact ⟨sameId, sameServer, by rw [inHand, inHand, samePhase]⟩
    · rw [(addBytes_same s fromBrowser (decodedLength data)).2.2]
      exact h.statuses s mem
  exact ⟨counted.ids, counted.unique, counted.agree, counted.active, counted.rowIds, counted.statuses⟩

theorem openSession (t : Ticket) (agent : Nat) (id : String) (fresh : id ∉ hub.ids) (h : Inv hub) :
    Inv (hub.openSession t agent id) := by
  refine ⟨?_, ?_, ?_, ?_, ?_, ?_⟩
  · intro s mem
    rcases List.mem_append.mp mem with old | new
    · exact List.mem_append_left _ (h.ids s old)
    · rw [List.mem_singleton.mp new]
      exact List.mem_append_right _ (List.mem_singleton_self id)
  · have alone : ∀ other ∈ hub.sessions.map (·.id), other ≠ id := by
      intro other mem same
      obtain ⟨s, there, rfl⟩ := List.mem_map.mp mem
      exact fresh (same ▸ h.ids s there)
    rw [Hub.openSession, List.map_append, List.nodup_append]
    refine ⟨h.unique, List.nodup_singleton id, fun other mem new mem' => ?_⟩
    rw [List.mem_singleton.mp mem']
    exact alone other mem
  · intro row mem active
    rcases List.mem_append.mp mem with old | new
    · obtain ⟨s, there, rest⟩ := h.agree row old active
      exact ⟨s, List.mem_append_left _ there, rest⟩
    · rw [List.mem_singleton.mp new]
      exact ⟨_, List.mem_append_right _ (List.mem_singleton_self _), rfl, rfl, rfl⟩
  · intro s mem hand
    rcases List.mem_append.mp mem with old | new
    · obtain ⟨row, there, rest⟩ := h.active s old hand
      exact ⟨row, List.mem_append_left _ there, rest⟩
    · rw [List.mem_singleton.mp new]
      exact ⟨_, List.mem_append_right _ (List.mem_singleton_self _), rfl, rfl⟩
  · intro row mem
    rcases List.mem_append.mp mem with old | new
    · exact List.mem_append_left _ (h.rowIds row old)
    · rw [List.mem_singleton.mp new]
      exact List.mem_append_right _ (List.mem_singleton_self id)
  · intro s mem
    rcases List.mem_append.mp mem with old | new
    · exact h.statuses s old
    · rw [List.mem_singleton.mp new]
      exact nofun

theorem survives : Survives Inv where
  beside := beside
  serve _ _ h := h.edit (fun _ _ _ => ⟨rfl, rfl, rfl⟩) fun s mem _ => h.statuses s mem
  list s here created h := by
    refine h.edit (fun s' mem mine => ?_) fun _ _ _ _ => nofun
    rw [h.eq_of_id mem here mine]
    exact ⟨rfl, rfl, by rw [inHand, inHand, created]⟩
  endSession := endSession
  account id fromBrowser data _ := account id fromBrowser data
  openSession t agent id fresh _ := openSession t agent id fresh

/-- A step of `endSession` that leaves the row alone. -/
theorem reach (h : Inv hub) {s : Session} {e : Ending} {stage : Stage} (here : s ∈ hub.sessions)
    (phase : s.phase = .ending e)
    (same : inHand { s with phase := .ending { e with stage := stage } } = inHand s) :
      Inv (hub.reach s.id e stage) := by
  refine h.edit (fun s' mem mine => ?_) fun _ _ _ e' eq => ?_
  · rw [h.eq_of_id mem here mine]
    exact ⟨rfl, rfl, same⟩
  · rw [← Phase.ending.inj eq]
    exact h.statuses s here e phase

/-- The row is closed, and the session is out of hand. -/
theorem closed (h : Inv hub) {s : Session} {e : Ending} {n m : Int} (here : s ∈ hub.sessions)
    (phase : s.phase = .ending e) :
    Inv ((hub.closeSession s.id e.status e.reason n m).reach s.id e (.stored n m)) := by
  have notActive := h.statuses s here e phase
  have row_of {row' : SessionRow} (mem : row' ∈ (hub.closeSession s.id e.status e.reason n m).rows) :
      (∃ row ∈ hub.rows, row.id = row'.id) ∧ (row'.status = .active → row' ∈ hub.rows ∧ row'.id ≠ s.id) := by
    obtain ⟨row, old, rfl⟩ := List.mem_map.mp mem
    by_cases mine : row.id = s.id ∧ row.status = .active
    · rw [if_pos mine]
      exact ⟨⟨row, old, rfl⟩, fun active => absurd active notActive⟩
    · rw [if_neg mine]
      exact ⟨⟨row, old, rfl⟩, fun active => ⟨old, fun same => mine ⟨same, active⟩⟩⟩
  have session_of {s' : Session}
    (mem : s' ∈ ((hub.closeSession s.id e.status e.reason n m).reach s.id e (.stored n m)).sessions) :
      ∃ old ∈ hub.sessions, s'.id = old.id ∧ ((inHand s' = true ∨ old.id ≠ s.id) → s' = old ∧ old.id ≠ s.id) ∧
        ∀ e', s'.phase = .ending e' → e'.status ≠ .active := by
    obtain ⟨old, there, rfl⟩ := List.mem_map.mp mem
    by_cases mine : old.id = s.id
    · rw [if_pos mine]
      refine ⟨old, there, rfl, fun either => ?_, fun e' eq => ?_⟩
      · exact either.elim (fun hand => Bool.noConfusion hand) (absurd mine)
      · rw [← Phase.ending.inj eq]
        exact notActive
    · rw [if_neg mine]
      exact ⟨old, there, rfl, fun _ => ⟨rfl, mine⟩, h.statuses old there⟩
  refine ⟨?_, ?_, ?_, ?_, ?_, ?_⟩
  · intro s' mem
    obtain ⟨old, there, same, -⟩ := session_of mem
    rw [same]
    exact h.ids old there
  · have names : ((hub.closeSession s.id e.status e.reason n m).reach s.id e (.stored n m)).sessions.map (·.id) =
        hub.sessions.map (·.id) := by
      rw [Hub.reach, Hub.edit, List.map_map]
      refine List.map_congr_left fun s' _ => ?_
      simp only [Function.comp_apply]
      split <;> rfl
    rw [names]
    exact h.unique
  · intro row mem active
    obtain ⟨old, other⟩ := (row_of mem).2 active
    obtain ⟨s', there, same, rest⟩ := h.agree row old active
    refine ⟨s', List.mem_map.mpr ⟨s', there, if_neg ?_⟩, same, rest⟩
    rw [same]
    exact other
  · intro s' mem hand
    obtain ⟨old, there, same, kept, -⟩ := session_of mem
    obtain ⟨rfl, other⟩ := kept (Or.inl hand)
    obtain ⟨row, mem', mine, active⟩ := h.active s' there hand
    refine ⟨row, List.mem_map.mpr ⟨row, mem', if_neg fun both => other ?_⟩, mine, active⟩
    exact mine.symm.trans both.1
  · intro row mem
    obtain ⟨⟨old, there, same⟩, -⟩ := row_of mem
    rw [← same]
    exact h.rowIds old there
  · intro s' mem
    obtain ⟨-, -, -, -, statuses⟩ := session_of mem
    exact statuses

/-- `endSession` keeps the agreement when its statement is done. -/
theorem proceed (h : Inv hub) {s : Session} {e : Ending} (here : s ∈ hub.sessions)
    (phase : s.phase = .ending e) (ok : Bool)
    (done : ∀ n m, e.stage = .counted n m → ok = true) : Inv (hub.proceed s e ok) := by
  obtain ⟨status, reason, notify, stage⟩ := e
  unfold Hub.proceed
  cases stage with
  | deleted =>
    simp only
    split
    · exact (survives.write h _ _ _).reach here phase (by rw [inHand, inHand, phase])
    · exact h.reach here phase (by rw [inHand, inHand, phase])
  | counted n m =>
    simp only
    rw [if_pos (done n m rfl)]
    exact h.closed here phase
  | stored n m =>
    have audited : Inv (hub.auditClose s.id status reason n m) :=
      ⟨h.ids, h.unique, h.agree, h.active, h.rowIds, h.statuses⟩
    simp only
    split
    · exact audited.reach here phase (by rw [inHand, inHand, phase])
    · exact h.reach here phase (by rw [inHand, inHand, phase])
  | done => exact h
  | cancelled | notified | disconnected | loaded n => exact h.reach here phase (by rw [inHand, inHand, phase])

/-- With no session in hand no row is active. -/
theorem restart (h : Inv hub) (idle : ∀ s ∈ hub.sessions, inHand s = false) : Inv hub.restart := by
  have none_ {P : Session → Prop} : ∀ s ∈ hub.restart.sessions, P s := fun s mem => absurd mem List.not_mem_nil
  refine ⟨none_, List.nodup_nil, ?_, none_, h.rowIds, none_⟩
  intro row mem active
  obtain ⟨s, there, -, -, hand⟩ := h.agree row mem active
  rw [idle s there] at hand
  exact Bool.noConfusion hand

theorem step (h : Inv hub) (move : Move) (careful : Careful hub move) : Inv (hub.step move) := by
  refine survives.step h move ?_ ?_
  · rintro id ok s e rfl here phase
    refine h.proceed (found here).1 phase ok fun n m counted => ?_
    refine careful s e.status e.reason e.notifyAgent n m here ?_
    rw [phase, ← counted]
  · rintro rfl
    exact h.restart careful

/-- What is not careful leaves a row active whose session is out of hand. -/
theorem careful (h : Inv hub) (move : Move) (agree : Agree (hub.step move)) : Careful hub move := by
  cases move with
  | proceed id ok =>
    intro s status reason notifyAgent n m here phase
    by_contra failed
    have stays : hub.step (.proceed id ok) = hub.reach s.id ⟨status, reason, notifyAgent,
        .counted n m⟩ (.stored n m) := by
      simp only [Hub.step, here, phase, Hub.proceed]
      rw [if_neg failed]
    obtain ⟨there, -⟩ := found here
    obtain ⟨row, mem, mine, active⟩ := h.active s there (by rw [inHand, phase])
    rw [stays] at agree
    obtain ⟨s', mem', same, -, hand⟩ := agree row mem active
    obtain ⟨old, -, rfl⟩ := List.mem_map.mp mem'
    by_cases it : old.id = s.id
    · rw [if_pos it] at hand
      exact Bool.noConfusion hand
    · rw [if_neg it] at same
      exact it (same.trans mine)
  | restart =>
    intro s there
    by_contra hand
    obtain ⟨row, mem, -, active⟩ := h.active s there (eq_true_of_ne_false hand)
    obtain ⟨s', none_, -⟩ := agree row mem active
    exact List.not_mem_nil none_
  | _ => trivial

theorem newHub : Inv NewHub := by
  refine ⟨?_, List.nodup_nil, ?_, ?_, ?_, ?_⟩ <;> exact fun _ mem => absurd mem List.not_mem_nil

end Inv

/-- The active rows are those of the sessions in hand, and a server without one can open one, all along
    exactly the runs in which the statement of `closeSession` never fails and every restart finds no session
    in hand. -/
theorem rows_agree_iff (moves : List Move) :
    hubMachine.Always (fun hub => Agree hub ∧ Opens hub) NewHub moves ↔ hubMachine.Each Careful NewHub moves :=
  Machine.always_iff_each (fun _ (h : Inv _) => ⟨h.agree, h.agree.opens⟩) (fun _ move h => h.step move)
    (fun _ move h after => h.careful move after.1) Inv.newHub

/-! ### Two sessions that leave their row behind -/

/-- Alice opens a session. -/
def opened : List Move :=
  [.registerAgent "web-1", .askTicket "web-1" "alice", .checkTicket 0, .issueTicket 0 "ticket", .redeemTicket "ticket",
    .visit 0, .visit 0,
    .createSession 0 "s1" true, .handle "s1" true, .handle "s1" true]

/-- She leaves, and the statement that closes the row fails; later she comes back. -/
def unclosed : List Move :=
  opened ++ [.browserMessage "s1" none, .handle "s1" true] ++ List.replicate 5 (.proceed "s1" true) ++
    [.proceed "s1" false, .proceed "s1" true,
    .askTicket "web-1" "alice", .checkTicket 0, .issueTicket 0 "again", .redeemTicket "again", .visit 0, .visit 0,
    .createSession 0 "s2" true]

/-- The control plane starts anew while the session lives. -/
def restarted : List Move := opened ++ [.restart]

set_option maxRecDepth 8000 in
/-- After the failure the row is active and no session can be opened; a restart leaves such a row as well. -/
theorem rows_left_active : ¬(∀ moves, hubMachine.Always (fun hub => Agree hub ∧ Opens hub) NewHub moves) ∧
    (∃ row ∈ (hubMachine.exec NewHub unclosed).rows, row.status = .active) ∧
    (hubMachine.exec NewHub unclosed).sessions.all Session.ended ∧
    (∃ row ∈ (hubMachine.exec NewHub restarted).rows, row.status = .active) ∧
    (hubMachine.exec NewHub restarted).sessions = [] := by
  have empty : (hubMachine.exec NewHub restarted).sessions = [] := by decide
  refine ⟨fun always => ?_, by decide, by decide, by decide, empty⟩
  obtain ⟨agree, -⟩ := (always restarted).last
  obtain ⟨s, mem, -⟩ := agree ⟨"s1", "web-1", "alice", .active, none, 0, 0⟩ (by decide) rfl
  rw [empty] at mem
  exact List.not_mem_nil mem

end SessionRows
end DatrixOps
