import DatrixOps.Theorems.TerminalTickets

/-! The two ends of a connection. A session manager has the sessions that it has read the starts of, and
    speaks of no others; its current session is the one whose turn it is, unless it has refused to start that.
    -/

namespace DatrixOps
namespace TerminalLinks
open Terminal TerminalTurns TerminalTickets

/-! ### A session manager and the messages written to it -/

/-- The sessions of a manager by their ids. -/
def ids (m : SessionManager) : List String := m.sessions.map (·.id)

/-- What a manager has read. -/
def heard (m : SessionManager) (outbox : List Message) : List Message := outbox.take m.taken

/-- A message sent is about a session whose start has been read, and output is read from the PTY of that session. -/
structure Spoken (m : SessionManager) (outbox : List Message) (x : Sent) : Prop where
  started : x.message.sessionId ∈ starts (heard m outbox)
  output : x.message.type = "output" → ∃ k, x.source = some k ∧ (ids m)[k]? = some x.message.sessionId

/-- A message is for the session whose PTY it reaches. -/
def Reaches (m : SessionManager) (outbox : List Message) (j k : Nat) : Prop :=
  ∃ x, outbox[j]? = some x ∧ (ids m)[k]? = some x.sessionId

/-- A session is closed by its own close, or by that of one whose start was refused for it. -/
def Closes (m : SessionManager) (id : String) (k : Nat) : Prop :=
  (ids m)[k]? = some id ∨ ∃ running, (id, k, running) ∈ m.refused

/-- What the goroutine does that reads the connection. -/
def Proper (m : SessionManager) (outbox : List Message) : Doing → Prop
  | .answers x => x.sessionId ∈ starts (heard m outbox) ∧ x.type ≠ "output"
  | .types k j _ | .resizes k j _ _ => Reaches m outbox j k
  | .closes k (some id) => Closes m id k
  | .closes _ none | .reads | .returned => True

/-- What a manager does is about the messages that it has taken and the sessions that they started. -/
structure Holds (m : SessionManager) (outbox : List Message) : Prop where
  taken : m.taken ≤ outbox.length
  started : ∀ id ∈ ids m, id ∈ starts (heard m outbox)
  distinct : (ids m).Nodup
  sent : ∀ x ∈ m.sent, Spoken m outbox x
  doing : Proper m outbox m.doing
  current : ∀ k, m.current = some k → ∃ id, (ids m)[k]? = some id
  turns : ∀ k id, m.current = some k → startedOf (heard m outbox) = some id → Closes m id k
  refused : ∀ r ∈ m.refused, r.1 ∈ starts (heard m outbox) ∧ r.1 ∉ ids m
  reached : ∀ r ∈ m.reached, Reaches m outbox r.1 r.2
  terminated : ∀ t ∈ m.terminated, Closes m t.1 t.2

/-- A manager takes more messages, and its sessions stay. -/
structure Grows (m m' : SessionManager) : Prop where
  taken : m.taken ≤ m'.taken
  ids : ∀ (k : Nat) (id : String), (ids m)[k]? = some id → (TerminalLinks.ids m')[k]? = some id
  refused : ∀ r ∈ m.refused, r ∈ m'.refused

theorem starts_mono {messages messages' : List Message} (h : messages <+: messages') :
    ∀ id ∈ starts messages, id ∈ starts messages' := by
  intro id mem
  obtain ⟨m, there, rest⟩ := mem_starts.mp mem
  exact mem_starts.mpr ⟨m, h.subset there, rest⟩

section
variable {m m' : SessionManager} {outbox : List Message}

theorem Grows.refl (m : SessionManager) : Grows m m := ⟨Nat.le_refl _, fun _ _ at_ => at_, fun _ mem => mem⟩

theorem Grows.started (g : Grows m m') {id : String} (mem : id ∈ starts (heard m outbox)) :
    id ∈ starts (heard m' outbox) :=
  starts_mono (List.take_prefix_take_left g.taken) id mem

theorem Spoken.grows {x : Sent} (h : Spoken m outbox x) (g : Grows m m') : Spoken m' outbox x := by
  refine ⟨g.started h.started, fun type => ?_⟩
  obtain ⟨k, source, at_⟩ := h.output type
  exact ⟨k, source, g.ids k _ at_⟩

theorem Reaches.grows {j k : Nat} (h : Reaches m outbox j k) (g : Grows m m') : Reaches m' outbox j k := by
  obtain ⟨x, at_, mine⟩ := h
  exact ⟨x, at_, g.ids k _ mine⟩

theorem Closes.grows {id : String} {k : Nat} (h : Closes m id k) (g : Grows m m') : Closes m' id k :=
  h.imp (g.ids k id) fun ⟨running, mem⟩ => ⟨running, g.refused _ mem⟩

theorem Proper.grows {doing : Doing} (h : Proper m outbox doing) (g : Grows m m') : Proper m' outbox doing := by
  rcases doing with - | x | ⟨k, j, data⟩ | ⟨k, j, cols, rows⟩ | ⟨k, _ | id⟩ | -
  · trivial
  · exact ⟨g.started h.1, h.2⟩
  · exact Reaches.grows h g
  · exact Reaches.grows h g
  · trivial
  · exact Closes.grows h g
  · trivial

/-- A step that takes no message and starts no session. -/
theorem Holds.update (h : Holds m outbox) (taken : m'.taken = m.taken) (same : ids m' = ids m)
    (refused : m'.refused = m.refused)
    (sent : ∀ x ∈ m'.sent, x ∈ m.sent ∨ Spoken m outbox x) (doing : m'.doing = m.doing ∨ Proper m outbox m'.doing)
    (current : ∀ k, m'.current = some k → m.current = some k)
    (reached : ∀ r ∈ m'.reached, r ∈ m.reached ∨ Reaches m outbox r.1 r.2)
    (terminated : ∀ t ∈ m'.terminated, t ∈ m.terminated ∨ Closes m t.1 t.2) : Holds m' outbox ∧ Grows m m' := by
  have g : Grows m m' :=
    ⟨Nat.le_of_eq taken.symm, fun k id at_ => by rw [same]; exact at_, fun r mem => by rw [refused]; exact mem⟩
  have read : heard m' outbox = heard m outbox := by rw [heard, taken, heard]
  refine ⟨⟨?_, ?_, ?_, fun x mem => ?_, ?_, fun k now => ?_, fun k id now turn => ?_, ?_, fun r mem => ?_,
    fun t mem => ?_⟩, g⟩
  · rw [taken]
    exact h.taken
  · rw [same, read]
    exact h.started
  · rw [same]
    exact h.distinct
  · exact ((sent x mem).elim (h.sent x) (fun new => new)).grows g
  · rcases doing with old | new
    · rw [old]
      exact h.doing.grows g
    · exact new.grows g
  · rw [same]
    exact h.current k (current k now)
  · rw [read] at turn
    exact (h.turns k id (current k now) turn).grows g
  · rw [read, same, refused]
    exact h.refused
  · exact ((reached r mem).elim (h.reached r) (fun new => new)).grows g
  · exact ((terminated t mem).elim (h.terminated t) fun new => new).grows g

theorem ids_edit {k : Nat} {f : TerminalSession → TerminalSession} (same : ∀ s, (f s).id = s.id) :
    ids (m.edit k f) = ids m := by
  refine List.ext_getElem? fun i => ?_
  rw [ids, ids, SessionManager.edit, List.getElem?_map, List.getElem?_map, List.getElem?_modify, Option.map_eq_map,
    Option.map_map]
  refine congrArg (Option.map · m.sessions[i]?) (funext fun s => ?_)
  simp only [Function.comp_apply]
  split
  · exact same s
  · rfl

/-- A write leaves all but what is sent and whether the connection takes more. -/
theorem write_frame (m : SessionManager) (source : Option Nat) (message : Message) (ok : Bool) : ∃ sent broken,
    m.write source message ok = { m with sent := sent, broken := broken } ∧ ∀ x ∈ sent, x ∈ m.sent ∨
    x = ⟨message, source⟩ := by
  unfold SessionManager.write
  split
  · refine ⟨_, m.broken, rfl, fun x mem => ?_⟩
    rcases List.mem_append.mp mem with old | new
    · exact Or.inl old
    · exact Or.inr (List.mem_singleton.mp new)
  · exact ⟨m.sent, true, rfl, fun x mem => Or.inl mem⟩

theorem ids_of_session {k : Nat} {session : TerminalSession} (at_ : m.sessions[k]? = some session) :
    (ids m)[k]? = some session.id := by
  rw [ids, List.getElem?_map, at_]
  rfl

/-- The sessions of a manager have been started. -/
theorem Holds.session (h : Holds m outbox) {k : Nat} {session : TerminalSession} (at_ : m.sessions[k]? = some session) :
    session.id ∈ starts (heard m outbox) := h.started session.id (List.mem_of_getElem? (ids_of_session at_))

theorem terminate_frame (m : SessionManager) (k : Nat) (sender : Option String) : ∃ sessions terminated,
    m.terminate k sender = { m with sessions := sessions, terminated := terminated } ∧ sessions.map (·.id) = ids m ∧
      ∀ t ∈ terminated, t ∈ m.terminated ∨ sender = some t.1 ∧ k = t.2 := by
  unfold SessionManager.terminate
  split
  · split
    · exact ⟨_, _, rfl, rfl, fun t mem => Or.inl mem⟩
    · have same : ids (m.edit k ({ · with alive := false, closed := true })) = ids m := ids_edit fun _ => rfl
      simp only
      split
      · refine ⟨_, _, rfl, same, fun t mem => ?_⟩
        rcases List.mem_append.mp mem with old | new
        · exact Or.inl old
        · rw [List.mem_singleton.mp new]
          exact Or.inr ⟨rfl, rfl⟩
      · exact ⟨_, _, rfl, same, fun t mem => Or.inl mem⟩
  · exact ⟨_, _, rfl, rfl, fun t mem => Or.inl mem⟩

theorem Holds.act (h : Holds m outbox) (failure : Option String) (ok : Bool) :
    Holds (m.act failure ok) outbox ∧ Grows m (m.act failure ok) := by
  have proper := h.doing
  unfold SessionManager.act
  split
  · rename_i message doing
    rw [doing] at proper
    obtain ⟨sent, broken, eq, new⟩ := write_frame m none message ok
    rw [eq]
    refine h.update rfl rfl rfl (fun x mem => ?_) (Or.inr trivial) (fun _ now => now) (fun _ mem => Or.inl mem)
      fun _ mem => Or.inl mem
    refine (new x mem).imp (fun old => old) fun mine => ?_
    rw [mine]
    exact ⟨proper.1, fun type => absurd type proper.2⟩
  · rename_i k j data doing
    rw [doing] at proper
    have reached : ∀ r ∈ m.reached ++ [(j, k)], r ∈ m.reached ∨ Reaches m outbox r.1 r.2 := by
      intro r mem
      rcases List.mem_append.mp mem with old | new
      · exact Or.inl old
      · rw [List.mem_singleton.mp new]
        exact Or.inr proper
    split
    · rename_i session at_
      split
      · rename_i reason _
        have answers : Proper m outbox (.answers (errorMessage session.id reason)) :=
          ⟨h.session at_, (by decide : "error" ≠ "output")⟩
        exact h.update rfl rfl rfl (fun _ mem => Or.inl mem) (Or.inr answers) (fun _ now => now) reached
          fun _ mem => Or.inl mem
      · have same : ids (m.edit k fun s => { s with typed := s.typed ++ data }) = ids m := ids_edit fun _ => rfl
        exact h.update rfl same rfl (fun _ mem => Or.inl mem) (Or.inr trivial) (fun _ now => now) reached
          fun _ mem => Or.inl mem
    · exact ⟨h, .refl m⟩
  · rename_i k j cols rows doing
    rw [doing] at proper
    have same : ids (m.edit k ({ · with cols := cols, rows := rows })) = ids m := ids_edit fun _ => rfl
    refine h.update rfl same rfl (fun _ mem => Or.inl mem) (Or.inr trivial) (fun _ now => now) (fun r mem => ?_)
      fun _ mem => Or.inl mem
    rcases List.mem_append.mp mem with old | new
    · exact Or.inl old
    · rw [List.mem_singleton.mp new]
      exact Or.inr proper
  · rename_i k id doing
    rw [doing] at proper
    obtain ⟨sessions, terminated, eq, same, new⟩ := terminate_frame m k (some id)
    rw [eq]
    refine h.update rfl same rfl (fun _ mem => Or.inl mem) (Or.inr trivial) (fun _ now => now) (fun _ mem => Or.inl mem)
      fun t mem => ?_
    refine (new t mem).imp (fun old => old) fun both => ?_
    rw [← Option.some.inj both.1, ← both.2]
    exact proper
  · rename_i k _
    obtain ⟨sessions, terminated, eq, same, new⟩ := terminate_frame m k none
    rw [eq]
    refine h.update rfl same rfl (fun _ mem => Or.inl mem) (Or.inr trivial) (fun _ now => now) (fun _ mem => Or.inl mem)
      fun t mem => ?_
    exact (new t mem).imp (fun old => old) fun both => nomatch both.1
  · exact ⟨h, .refl m⟩
  · exact ⟨h, .refl m⟩

theorem Holds.hangUp (h : Holds m outbox) : Holds m.hangUp outbox ∧ Grows m m.hangUp := by
  unfold SessionManager.hangUp
  split
  · unfold SessionManager.close
    split
    · exact h.update rfl rfl rfl (fun _ mem => Or.inl mem) (Or.inr trivial) (fun _ now => now) (fun _ mem => Or.inl mem)
        fun _ mem => Or.inl mem
    · exact ⟨h, .refl m⟩
  · exact h.update rfl rfl rfl (fun _ mem => Or.inl mem) (Or.inr trivial) (fun _ now => now) (fun _ mem => Or.inl mem)
      fun _ mem => Or.inl mem

theorem append_at {α : Type} {l : List α} {x y : α} {k : Nat} (at_ : (l ++ [x])[k]? = some y) :
    l[k]? = some y ∨ k = l.length ∧ y = x := by
  rcases Nat.lt_or_ge k l.length with old | new
  · rw [List.getElem?_append_left old] at at_
    exact Or.inl at_
  · rw [List.getElem?_append_right new, List.getElem?_singleton] at at_
    split at at_
    · rename_i zero
      exact Or.inr ⟨Nat.le_antisymm (Nat.sub_eq_zero_iff_le.mp zero) new, (Option.some.inj at_).symm⟩
    · cases at_

/-- The sessions after a change of one of them. -/
theorem edit_at {k j : Nat} {f : TerminalSession → TerminalSession} {s' : TerminalSession}
    (at' : (m.edit k f).sessions[j]? = some s') :
    ∃ s, m.sessions[j]? = some s ∧ (k = j ∧ s' = f s ∨ k ≠ j ∧ s' = s) := by
  rw [SessionManager.edit, List.getElem?_modify] at at'
  obtain ⟨s, at_, eq⟩ := Option.map_eq_some_iff.mp at'
  refine ⟨s, at_, ?_⟩
  by_cases it : k = j
  · rw [if_pos it] at eq
    exact Or.inl ⟨it, eq.symm⟩
  · rw [if_neg it] at eq
    exact Or.inr ⟨it, eq.symm⟩

theorem write_sessions (m : SessionManager) (source : Option Nat) (message : Message) (ok : Bool) :
    (m.write source message ok).sessions = m.sessions := by
  obtain ⟨sent, broken, eq, -⟩ := write_frame m source message ok
  rw [eq]

/-- A change of one session that keeps its id. -/
theorem Holds.edit (h : Holds m outbox) {k : Nat} {f : TerminalSession → TerminalSession}
    {printed : List (Nat × List UInt8)}
    (same : ∀ s, (f s).id = s.id) :
    Holds { m.edit k f with printed := printed } outbox ∧ Grows m { m.edit k f with printed := printed } :=
  h.update rfl (ids_edit same) rfl (fun _ mem => Or.inl mem) (Or.inl rfl) (fun _ now => now) (fun _ mem => Or.inl mem)
    fun _ mem => Or.inl mem

/-- A session is written about and changed. -/
theorem Holds.report (h : Holds m outbox) {k : Nat} {source : Option Nat} {message : Message} {ok : Bool}
    {f : TerminalSession → TerminalSession}
    (same : ∀ s, (f s).id = s.id) (spoken : Spoken m outbox ⟨message, source⟩) :
    Holds ((m.write source message ok).edit k f) outbox ∧ Grows m ((m.write source message ok).edit k f) := by
  obtain ⟨sent, broken, eq, new⟩ := write_frame m source message ok
  rw [eq]
  have edited : ids ({ m with sent := sent, broken := broken }.edit k f) = ids m := ids_edit same
  refine h.update rfl edited rfl (fun x mem => ?_) (Or.inl rfl) (fun _ now => now) (fun _ mem => Or.inl mem)
    fun _ mem => Or.inl mem
  refine (new x mem).imp (fun old => old) fun mine => ?_
  rw [mine]
  exact spoken

theorem Holds.wait (h : Holds m outbox) (now : Int) {k : Nat} {session : TerminalSession}
    (at_ : m.sessions[k]? = some session) (cause : Cause)
    (ok : Bool) : Holds (m.wait now k session cause ok) outbox ∧ Grows m (m.wait now k session cause ok) := by
  unfold SessionManager.wait
  split
  · split
    · exact h.edit fun _ => rfl
    · exact ⟨h, .refl m⟩
  · refine h.report (fun _ => rfl) ⟨h.session at_, fun type => ?_⟩
    exact absurd type (by decide : "exit" ≠ "output")
  · exact h.edit fun _ => rfl
  · have same : ids (m.edit k ({ · with waiting := .finished })) = ids m := ids_edit fun _ => rfl
    refine h.update rfl same rfl (fun _ mem => Or.inl mem) (Or.inl rfl) (fun j current => ?_) (fun _ mem => Or.inl mem)
      fun _ mem => Or.inl mem
    simp only at current
    split at current
    · exact nomatch current
    · exact current
  · exact ⟨h, .refl m⟩

theorem Holds.streamOutput (h : Holds m outbox) {k : Nat} {session : TerminalSession}
    (at_ : m.sessions[k]? = some session)
    (result : ReadResult) (ok : Bool) :
    Holds (m.streamOutput k session result ok) outbox ∧ Grows m (m.streamOutput k session result ok) := by
  unfold SessionManager.streamOutput
  split
  · split <;> exact h.edit fun _ => rfl
  · rename_i data _
    split
    · exact h.edit fun _ => rfl
    · exact h.report (fun _ => rfl) ⟨h.session at_, fun _ => ⟨k, rfl, ids_of_session at_⟩⟩
  · rename_i reason _
    refine h.report (fun _ => rfl) ⟨h.session at_, fun type => ?_⟩
    exact absurd type (by decide : "error" ≠ "output")
  · exact ⟨h, .refl m⟩

theorem heard_next {incoming : Message} (at_ : outbox[m.taken]? = some incoming) (taken : m'.taken = m.taken + 1) :
    heard m' outbox = heard m outbox ++ [incoming] := by
  rw [heard, taken, List.take_add_one, at_]
  rfl

/-- A message is taken that starts no session. -/
theorem Holds.next (h : Holds m outbox) {incoming : Message} (at_ : outbox[m.taken]? = some incoming)
    (taken : m'.taken = m.taken + 1)
    (same : ids m' = ids m) (sent : m'.sent = m.sent) (reached : m'.reached = m.reached)
    (terminated : m'.terminated = m.terminated)
    (keeps : ∀ r ∈ m.refused, r ∈ m'.refused)
    (refused : ∀ r ∈ m'.refused, r ∈ m.refused ∨ r.1 ∈ starts (heard m' outbox) ∧ r.1 ∉ ids m)
    (doing : Proper m' outbox m'.doing)
    (current : ∀ k, m'.current = some k → m.current = some k ∧
      ∀ z, turn (startedOf (heard m outbox)) incoming = some z →
      startedOf (heard m outbox) = some z ∨ ∃ running, (z, k, running) ∈ m'.refused) : Holds m' outbox ∧
        Grows m m' := by
  have g : Grows m m' := ⟨by rw [taken]; exact Nat.le_succ _, fun k id at_ => by rw [same]; exact at_, keeps⟩
  have within : m.taken < outbox.length := (List.getElem?_eq_some_iff.mp at_).1
  refine ⟨⟨?_, fun id mem => ?_, ?_, fun x mem => ?_, doing, fun k now => ?_, fun k id now turn => ?_, fun r mem => ?_,
    fun r mem => ?_,
    fun t mem => ?_⟩, g⟩
  · rw [taken]
    exact within
  · rw [same] at mem
    exact g.started (h.started id mem)
  · rw [same]
    exact h.distinct
  · rw [sent] at mem
    exact (h.sent x mem).grows g
  · rw [same]
    exact h.current k (current k now).1
  · rw [heard_next at_ taken, startedOf_append] at turn
    obtain ⟨was, turns⟩ := current k now
    rcases turns id turn with before | new
    · exact (h.turns k id was before).grows g
    · exact Or.inr new
  · rw [same]
    refine (refused r mem).elim (fun old => ?_) (fun new => new)
    exact ⟨g.started (h.refused r old).1, (h.refused r old).2⟩
  · rw [reached] at mem
    exact (h.reached r mem).grows g
  · rw [terminated] at mem
    exact (h.terminated t mem).grows g

theorem begun {incoming : Message} (at_ : outbox[m.taken]? = some incoming) (type : incoming.type = "session_start")
    (taken : m'.taken = m.taken + 1) : incoming.sessionId ∈ starts (heard m' outbox) := by
  rw [heard_next at_ taken, starts_append, if_pos type]
  exact List.mem_append_right _ (List.mem_singleton_self _)

/-- The start of a session comes once. -/
theorem first_start (nodup : (starts outbox).Nodup) {incoming : Message} (at_ : outbox[m.taken]? = some incoming)
    (type : incoming.type = "session_start") : incoming.sessionId ∉ starts (heard m outbox) := by
  intro before
  have both : (starts (heard m outbox ++ [incoming])).Nodup := by
    have next : heard { m with taken := m.taken + 1 } outbox = heard m outbox ++ [incoming] := heard_next at_ rfl
    have read : heard m outbox ++ [incoming] <+: outbox := by
      rw [← next]
      exact List.take_prefix _ _
    exact nodup.sublist ((read.sublist.filter _).map _)
  rw [starts_append, if_pos type] at both
  exact List.disjoint_of_nodup_append both before (List.mem_singleton_self _)

/-- A session is started. -/
theorem Holds.start (h : Holds m outbox) (nodup : (starts outbox).Nodup) {incoming : Message}
    (at_ : outbox[m.taken]? = some incoming)
    (type : incoming.type = "session_start") (reads : m.doing = .reads) (now : Int) (started : Except String Unit) :
    Holds ({ m with taken := m.taken + 1 }.start now incoming started) outbox ∧
      Grows m ({ m with taken := m.taken + 1 }.start now incoming started) := by
  have other : "error" ≠ "output" := by decide
  have first := first_start nodup at_ type
  have mine : ∀ m' : SessionManager, m'.taken = m.taken + 1 → incoming.sessionId ∈ starts (heard m' outbox) :=
    fun _ => begun at_ type
  have fresh : incoming.sessionId ∉ ids m := fun again => first (h.started _ again)
  unfold SessionManager.start
  split
  · rename_i k now'
    refine h.next at_ rfl rfl rfl rfl rfl (fun r mem => List.mem_append_left _ mem) (fun r mem => ?_)
      ⟨mine _ rfl, other⟩
      fun k' now'' => ⟨now'', fun z turns => ?_⟩
    · rcases List.mem_append.mp mem with old | new
      · exact Or.inl old
      · rw [List.mem_singleton.mp new]
        exact Or.inr ⟨mine _ rfl, fresh⟩
    · rw [turn_start type] at turns
      rw [← Option.some.inj turns, ← Option.some.inj (now'.symm.trans now'')]
      exact Or.inr ⟨_, List.mem_append_right _ (List.mem_singleton_self _)⟩
  · rename_i none_
    split
    · refine h.next at_ rfl rfl rfl rfl rfl (fun r mem => mem) (fun r mem => Or.inl mem) ⟨mine _ rfl, other⟩
        fun k' now'' => ?_
      rw [none_] at now''
      exact nomatch now''
    · have g : Grows m { m with
          taken := m.taken + 1
          sessions := m.sessions ++
            [⟨incoming.sessionId, now, clamp incoming.cols 20 400, clamp incoming.rows 5 200, [], true, false,
            .waits, .reading⟩]
          current := some m.sessions.length } := by
        refine ⟨Nat.le_succ _, fun k id at' => ?_, fun r mem => mem⟩
        have within : k < (m.sessions.map (·.id)).length := (List.getElem?_eq_some_iff.mp at').1
        rw [ids, List.map_append, List.getElem?_append_left within]
        exact at'
      have last : (m.sessions.map (·.id) ++ [incoming.sessionId])[m.sessions.length]? = some incoming.sessionId := by
        rw [List.getElem?_append_right (Nat.le_of_eq (List.length_map _)), List.length_map, Nat.sub_self]
        rfl
      refine ⟨⟨?_, fun id mem => ?_, ?_, fun x mem => (h.sent x mem).grows g, ?_, fun k now' => ?_,
        fun k id now' turns => ?_, fun r mem => ?_,
        fun r mem => (h.reached r mem).grows g, fun t mem => (h.terminated t mem).grows g⟩, g⟩
      · exact (List.getElem?_eq_some_iff.mp at_).1
      · rw [ids, List.map_append] at mem
        rcases List.mem_append.mp mem with old | new
        · exact g.started (h.started id old)
        · rw [List.mem_singleton.mp new]
          exact mine _ rfl
      · rw [ids, List.map_append]
        exact List.Nodup.append h.distinct (List.nodup_singleton _) (List.disjoint_singleton.mpr fresh)
      · simp only [reads]
        trivial
      · rw [← Option.some.inj now', ids, List.map_append]
        exact ⟨incoming.sessionId, last⟩
      · rw [heard_next at_ rfl, startedOf_append, turn_start type] at turns
        rw [Closes, ← Option.some.inj now', ← Option.some.inj turns, ids, List.map_append]
        exact Or.inl last
      · obtain ⟨before, other⟩ := h.refused r mem
        refine ⟨g.started before, fun again => ?_⟩
        rw [ids, List.map_append] at again
        rcases List.mem_append.mp again with old | new
        · exact other old
        · rw [List.mem_singleton.mp new] at before
          exact first before

theorem Holds.take {sessions : List Session} {i : Nat} {p : Peer} (h : Holds m p.outbox)
    (written : Written sessions i p) {incoming : Message}
    (at_ : p.outbox[m.taken]? = some incoming) (reads : m.doing = .reads) (now : Int) (started : Except String Unit) :
    Holds (m.take now incoming started) p.outbox ∧ Grows m (m.take now incoming started) := by
  unfold SessionManager.take SessionManager.handle
  split
  · rename_i type
    exact h.start written.starts at_ type reads now started
  · rename_i notStart
    -- A message that starts nothing leaves the turn or ends it.
    have turns : ∀ z, turn (startedOf (heard m p.outbox)) incoming = some z →
        startedOf (heard m p.outbox) = some z := by
      intro z now'
      rw [turn, if_neg notStart] at now'
      split at now'
      · cases now'
      · exact now'
    have moves {doing : Doing} (proper : Proper { m with taken := m.taken + 1, doing := doing } p.outbox doing) :
        Holds { m with taken := m.taken + 1, doing := doing } p.outbox ∧
          Grows m { m with taken := m.taken + 1, doing := doing } :=
      h.next at_ rfl rfl rfl rfl rfl (fun r mem => mem) (fun r mem => Or.inl mem) proper
        fun k now' => ⟨now', fun z turned => Or.inl (turns z turned)⟩
    have idle : Holds { m with taken := m.taken + 1 } p.outbox ∧ Grows m { m with taken := m.taken + 1 } := by
      refine h.next at_ rfl rfl rfl rfl rfl (fun r mem => mem) (fun r mem => Or.inl mem) ?_
        fun k now' => ⟨now', fun z turned => Or.inl (turns z turned)⟩
      simp only [reads]
      trivial
    have mine : ∀ k, { m with taken := m.taken + 1 }.currentOf incoming.sessionId = some k →
        (ids m)[k]? = some incoming.sessionId := by
      intro k chosen
      unfold SessionManager.currentOf at chosen
      split at chosen
      · split at chosen
        · rename_i same
          rw [← Option.some.inj chosen, ids, List.getElem?_map]
          exact same
        · cases chosen
      · cases chosen
    split
    · unfold SessionManager.input
      split
      · exact idle
      · split
        · exact idle
        · split
          · rename_i k chosen
            exact moves ⟨incoming, at_, mine k chosen⟩
          · exact idle
    · split
      · unfold SessionManager.resize
        split
        · rename_i k chosen
          exact moves ⟨incoming, at_, mine k chosen⟩
        · exact idle
      · split
        · rename_i type
          unfold SessionManager.close
          split
          · rename_i k current
            exact moves (h.turns k incoming.sessionId current (written.closes m.taken incoming at_ type))
          · exact idle
        · exact idle

theorem Holds.step {sessions : List Session} {i : Nat} {p : Peer} (h : Holds m p.outbox)
    (written : Written sessions i p) (now : Int)
    (move : AgentMove) :
    Holds (m.step now p.outbox move) p.outbox ∧ Grows m (m.step now p.outbox move) := by
  have stays : Holds m p.outbox ∧ Grows m m := ⟨h, .refl m⟩
  cases move with
  | take started =>
    simp only [SessionManager.step]
    split
    · rename_i incoming at_
      split
      · rename_i reads
        exact h.take written at_ reads now started
      · exact stays
    · exact stays
  | act failure ok => exact h.act failure ok
  | hangUp =>
    simp only [SessionManager.step]
    split
    · exact h.hangUp
    · exact stays
  | wait k cause ok =>
    simp only [SessionManager.step]
    split
    · rename_i session at_
      exact h.wait now at_ cause ok
    · exact stays
  | streamOutput k result ok =>
    simp only [SessionManager.step]
    split
    · rename_i session at_
      exact h.streamOutput at_ result ok
    · exact stays
  | shellExits k => exact h.edit fun _ => rfl

/-- A message more to read changes nothing for the manager. -/
theorem Holds.written (h : Holds m outbox) (x : Message) : Holds m (outbox ++ [x]) := by
  have read : heard m (outbox ++ [x]) = heard m outbox := List.take_append_of_le_length h.taken
  have reaches {j k : Nat} (r : Reaches m outbox j k) : Reaches m (outbox ++ [x]) j k := by
    obtain ⟨y, at_, mine⟩ := r
    exact ⟨y, by rw [List.getElem?_append_left (List.getElem?_eq_some_iff.mp at_).1]; exact at_, mine⟩
  refine ⟨?_, ?_, h.distinct, fun y mem => ⟨?_, (h.sent y mem).output⟩, ?_, h.current, ?_, ?_,
    fun r mem => reaches (h.reached r mem),
    h.terminated⟩
  · rw [List.length_append]
    exact Nat.le_add_right_of_le h.taken
  · rw [read]
    exact h.started
  · rw [read]
    exact (h.sent y mem).started
  · suffices keeps : ∀ doing, Proper m outbox doing → Proper m (outbox ++ [x]) doing from keeps _ h.doing
    intro doing proper
    rcases doing with - | y | ⟨k, j, data⟩ | ⟨k, j, cols, rows⟩ | ⟨k, _ | id⟩ | -
    · trivial
    · exact ⟨by rw [read]; exact proper.1, proper.2⟩
    · exact reaches proper
    · exact reaches proper
    · trivial
    · exact proper
    · trivial
  · rw [read]
    exact h.turns
  · rw [read]
    exact h.refused

theorem holds_new : Holds newSessionManager [] := by
  refine ⟨Nat.le_refl 0, ?_, List.nodup_nil, ?_, trivial, nofun, nofun, ?_, ?_, ?_⟩ <;>
    exact fun _ mem => absurd mem List.not_mem_nil

end

/-! ### What a step of the hub does to its connections -/

/-- A step of the hub writes at most one message to a connection, by the goroutine of the session it is of. -/
structure Turned (writer : List String) (p p' : Peer) : Prop where
  outbox : p'.outbox = p.outbox ∨ p'.broken = false ∧ ∃ x, p'.outbox = p.outbox ++ [x] ∧ writer = [x.sessionId]
  found : ∀ x, p'.doing = .found x → p.doing = .found x
  told : ∀ x, p'.doing = .told x → p.doing = .told x ∨ p.doing = .found x
  broken : p'.broken = false → p.broken = false

/-- A step of the hub turns each of its connections at most once. -/
structure Beneath (writer : List String) (hub hub' : Hub) : Prop where
  length : hub'.peers.length = hub.peers.length
  turned : ∀ (i : Nat) (p : Peer), hub.peers[i]? = some p → ∃ p' : Peer, hub'.peers[i]? = some p' ∧ Turned writer p p'

section
variable {writer : List String} {hub hub' : Hub}

theorem Turned.refl (p : Peer) : Turned writer p p :=
  ⟨Or.inl rfl, fun _ doing => doing, fun _ doing => Or.inl doing, fun up => up⟩

theorem Beneath.of_peers (same : hub'.peers = hub.peers) : Beneath writer hub hub' :=
  ⟨by rw [same], fun _ p at_ => ⟨p, by rw [same]; exact at_, .refl p⟩⟩

theorem Beneath.modify {j : Nat} {f : Peer → Peer} (peers : hub'.peers = hub.peers.modify j f)
    (turned : ∀ p, hub.peers[j]? = some p → Turned writer p (f p)) : Beneath writer hub hub' := by
  refine ⟨by rw [peers, List.length_modify], fun i p at_ => ?_⟩
  rw [peers, List.getElem?_modify, at_]
  refine ⟨if j = i then f p else p, rfl, ?_⟩
  by_cases it : j = i
  · rw [if_pos it]
    rw [← it] at at_
    exact turned p at_
  · rw [if_neg it]
    exact .refl p

theorem Beneath.write {a : Nat} {x : Message} {ok : Bool} (peers : hub'.peers = (hub.write a x ok).peers) :
    Beneath [x.sessionId] hub hub' := by
  refine .modify peers fun p _ => ?_
  split
  · rename_i up
    refine ⟨Or.inr ⟨?_, x, rfl, rfl⟩, fun _ doing => doing, fun _ doing => Or.inl doing, fun up => up⟩
    simpa using (Bool.and_eq_true_iff.mp up).2
  · exact ⟨Or.inl rfl, fun _ doing => doing, fun _ doing => Or.inl doing, Bool.noConfusion⟩

theorem Beneath.setPeer {peer : Nat} {p : Peer} (here : hub.peers[peer]? = some p) {doing : Reading}
    (peers : hub'.peers = (hub.setPeer peer doing).peers) (found : ∀ x, doing ≠ .found x)
    (told : ∀ x, doing = .told x → p.doing = .found x) :
    Beneath writer hub hub' := by
  refine .modify peers fun q at_ => ⟨Or.inl rfl, fun x is => absurd is (found x), fun x is => Or.inr ?_, fun up => up⟩
  rw [here] at at_
  rw [← Option.some.inj at_]
  exact told x is

theorem beneath_handle (orderly : Orderly hub) {s : Session} (here : s ∈ hub.sessions) (ok : Bool) :
    Beneath [s.id] hub (hub.handle s ok) := by
  unfold Hub.handle
  split
  · split
    · exact .of_peers rfl
    · simp only
      split
      · exact .write (x := ⟨"session_start", s.id, "", 120, 32, ""⟩) rfl
      · exact .write (x := ⟨"session_start", s.id, "", 120, 32, ""⟩) rfl
  · rename_i x serving
    obtain ⟨p, -, agrees⟩ := orderly.sits s here
    rw [← (agrees.forwards x serving).1]
    exact .write rfl
  all_goals first
    | exact .of_peers rfl
    | split <;> exact .of_peers rfl

theorem beneath_proceed (s : Session) (e : Ending) (ok : Bool) : Beneath [s.id] hub (hub.proceed s e ok) := by
  unfold Hub.proceed
  split
  case h_2 =>
    split
    · exact .write (x := ⟨"session_close", s.id, "", 0, 0, e.reason⟩) rfl
    · exact .of_peers rfl
  case h_6 | h_7 => split <;> exact .of_peers rfl
  all_goals exact .of_peers rfl

theorem beneath_dispatch {peer : Nat} {p : Peer} (here : hub.peers[peer]? = some p) :
    Beneath [] hub (hub.dispatch peer p) := by
  unfold Hub.dispatch
  split
  · rename_i x doing
    split
    · exact .setPeer here rfl nofun fun y eq => Reading.told.inj eq ▸ doing
    · exact .setPeer here rfl nofun nofun
  · split
    · exact .setPeer here rfl nofun nofun
    · split <;> exact .setPeer here rfl nofun nofun
  · split
    · exact .setPeer here rfl nofun nofun
    · exact .of_peers rfl
  · exact .setPeer here rfl nofun nofun
  · split
    · exact .setPeer here rfl nofun nofun
    · exact .of_peers rfl
  · exact .of_peers rfl
  · exact .of_peers rfl

/-- A move that the hub makes by itself on the connections that it has. -/
def own : Move → Prop
  | .restart | .agentMessage _ (some _) | .registerAgent _ => False
  | _ => True

theorem beneath_step (orderly : Orderly hub) {move : Move} (o : own move) :
    Beneath move.writer hub (hub.step move) := by
  cases move with
  | handle id ok =>
    simp only [Hub.step, Move.writer]
    split
    · rename_i s here
      rw [← (found here).2]
      exact beneath_handle orderly (found here).1 ok
    · exact .of_peers rfl
  | proceed id ok =>
    simp only [Hub.step, Move.writer]
    split
    · rename_i s here
      split
      · rw [← (found here).2]
        exact beneath_proceed s _ ok
      · exact .of_peers rfl
    · exact .of_peers rfl
  | dispatch peer =>
    simp only [Hub.step, Move.writer]
    split
    · rename_i p here
      exact beneath_dispatch here
    · exact .of_peers rfl
  | agentMessage peer incoming =>
    cases incoming with
    | some m => exact o.elim
    | none =>
      simp only [Hub.step, Move.writer, Hub.agentMessage]
      split
      · split
        · exact .of_peers rfl
        · exact .modify rfl fun _ _ => ⟨Or.inl rfl, fun _ eq => (by cases eq), fun _ eq => (by cases eq),
            Bool.noConfusion⟩
      · exact .of_peers rfl
  | restart | registerAgent serverId => exact o.elim
  | wait d => exact .of_peers rfl
  | browserMessage id incoming =>
    simp only [Hub.step, Hub.browserMessage]
    repeat' split
    all_goals exact .of_peers rfl
  | timeout id =>
    simp only [Hub.step, Hub.timeout]
    repeat' split
    all_goals exact .of_peers rfl
  | askTicket serverId userId =>
    simp only [Hub.step, Hub.askTicket]
    split <;> exact .of_peers rfl
  | checkTicket i =>
    simp only [Hub.step, Hub.checkTicket]
    repeat' split
    all_goals exact .of_peers rfl
  | issueTicket i value =>
    simp only [Hub.step, Hub.issueTicket]
    repeat' split
    all_goals exact .of_peers rfl
  | redeemTicket value =>
    simp only [Hub.step, Hub.redeemTicket]
    repeat' split
    all_goals exact .of_peers rfl
  | visit i =>
    simp only [Hub.step, Hub.visit]
    repeat' split
    all_goals exact .of_peers rfl
  | createSession i id ok =>
    simp only [Hub.step, Hub.createSession]
    repeat' split
    all_goals exact .of_peers rfl

end

end TerminalLinks
end DatrixOps
