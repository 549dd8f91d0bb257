import DatrixOps.Theorems.TerminalIsolation

/-! Shells that nobody has. As long as no PTY fails while its shell runs, the hub and an agent agree on what
    has ended: the hub gives no session up whose shell runs, except for one that the agent is told to close.
    -/

namespace DatrixOps
namespace TerminalOrphans
open Terminal SessionRows TerminalTurns TerminalLinks TerminalIsolation

/-! ### The shells of a manager -/

/-- A session has been started, and its shell does not run. -/
def Dead (m : SessionManager) (outbox : List Message) (id : String) : Prop :=
  id ∈ starts (heard m outbox) ∧ ∀ s ∈ m.sessions, s.id = id → s.alive = false

/-- The goroutines of a session do not run ahead of its shell. -/
structure Sober (s : TerminalSession) : Prop where
  waits : s.alive = true → s.waiting = .waits
  closed : s.closed = true → s.alive = false
  failed : ∀ reason, s.streaming = .failed reason → s.alive = false

/-- A manager has no shell but the current one, which is of the session whose turn it is, unless it is being
    closed. -/
structure Tends (m : SessionManager) (outbox : List Message) : Prop where
  sober : ∀ (k : Nat) (s : TerminalSession), m.sessions[k]? = some s → Sober s
  unfinished : ∀ (k : Nat) (s : TerminalSession), m.sessions[k]? = some s → s.waiting ≠ .finished → m.current = some k
  alive : ∀ (k : Nat) (s : TerminalSession), m.sessions[k]? = some s → s.alive = true →
    startedOf (heard m outbox) = some s.id ∨ ∃ sender, m.doing = .closes k sender
  follows : ∀ j x id, outbox[j]? = some x → x.type = "session_start" → startedOf (outbox.take j) = some id →
    Dead m outbox id
  sent : ∀ x ∈ m.sent, x.message.type ≠ "output" → Dead m outbox x.message.sessionId
  answers : ∀ x, m.doing = .answers x → Dead m outbox x.sessionId
  refused : ∀ r ∈ m.refused, r.2.2 = false

section
variable {m m' : SessionManager} {outbox : List Message}

theorem Sober.unfinished {s : TerminalSession} (h : Sober s) (alive : s.alive = true) : s.waiting ≠ .finished := by
  rw [h.waits alive]
  exact nofun

/-- The session of an ended shell is dead, for no other session has its id. -/
theorem dead_of_session (h : Holds m outbox) {k : Nat} {s : TerminalSession} (at_ : m.sessions[k]? = some s)
    (ended : s.alive = false) :
    Dead m outbox s.id := by
  refine ⟨h.session at_, fun s' mem same => ?_⟩
  have one : s' = s := List.inj_on_of_nodup_map h.distinct mem (List.mem_of_getElem? at_) same
  rw [one]
  exact ended

/-- A step that takes no message. -/
theorem Tends.update (h : Tends m outbox) (taken : m'.taken = m.taken)
    (sessions : ∀ (k : Nat) (s' : TerminalSession), m'.sessions[k]? = some s' → Sober s' ∧
      ∃ s : TerminalSession, m.sessions[k]? = some s ∧
      s'.id = s.id ∧ (s'.alive = true → s.alive = true) ∧
      (s'.waiting ≠ .finished → s.waiting ≠ .finished ∧ (m.current = some k → m'.current = some k)))
    (doing : ∀ k sender, m.doing = .closes k sender → (∃ sender', m'.doing = .closes k sender') ∨
      ∀ s' : TerminalSession, m'.sessions[k]? = some s' → s'.alive = false)
    (sent : ∀ x ∈ m'.sent, x ∈ m.sent ∨ (x.message.type ≠ "output" → Dead m' outbox x.message.sessionId))
    (answers : ∀ x, m'.doing = .answers x → m.doing = .answers x ∨ Dead m' outbox x.sessionId)
    (refused : m'.refused = m.refused) :
    Tends m' outbox := by
  have read : heard m' outbox = heard m outbox := by rw [heard, taken, heard]
  have dead {id : String} (was : Dead m outbox id) : Dead m' outbox id := by
    refine ⟨by rw [read]; exact was.1, fun s' mem same => ?_⟩
    obtain ⟨k, at'⟩ := List.mem_iff_getElem?.mp mem
    obtain ⟨-, s, at_, sameId, alive, -⟩ := sessions k s' at'
    by_contra runs
    have old := was.2 s (List.mem_of_getElem? at_) (sameId.symm.trans same)
    rw [alive (eq_true_of_ne_false runs)] at old
    exact Bool.noConfusion old
  refine ⟨fun k s' at' => (sessions k s' at').1, fun k s' at' waiting => ?_, fun k s' at' runs => ?_,
    fun j x id at_ type now => ?_,
    fun x mem type => ?_, fun x is => ?_, ?_⟩
  · obtain ⟨-, s, at_, -, -, unfinished⟩ := sessions k s' at'
    obtain ⟨was, stays⟩ := unfinished waiting
    exact stays (h.unfinished k s at_ was)
  · obtain ⟨-, s, at_, same, alive, -⟩ := sessions k s' at'
    rw [read, same]
    refine (h.alive k s at_ (alive runs)).imp (fun turn => turn) fun now => ?_
    obtain ⟨sender, closes⟩ := now
    rcases doing k sender closes with still | ended
    · exact still
    · rw [ended s' at'] at runs
      exact Bool.noConfusion runs
  · exact dead (h.follows j x id at_ type now)
  · exact (sent x mem).elim (fun old => dead (h.sent x old type)) fun new => new type
  · exact (answers x is).elim (fun old => dead (h.answers x old)) fun new => new
  · rw [refused]
    exact h.refused

theorem Tends.same (h : Tends m outbox) : ∀ (k : Nat) (s' : TerminalSession), m.sessions[k]? = some s' → Sober s' ∧
    ∃ s : TerminalSession,
    m.sessions[k]? = some s ∧ s'.id = s.id ∧ (s'.alive = true → s.alive = true) ∧
      (s'.waiting ≠ .finished → s.waiting ≠ .finished ∧ (m.current = some k → m.current = some k)) :=
  fun k s' at_ => ⟨h.sober k s' at_, s', at_, rfl, fun runs => runs, fun waiting => ⟨waiting, fun now => now⟩⟩

/-- A change of one session that starts nothing anew. -/
theorem Tends.edited (h : Tends m outbox) {k : Nat} {f : TerminalSession → TerminalSession}
    (changes : ∀ s, m.sessions[k]? = some s → Sober s →
      Sober (f s) ∧ (f s).id = s.id ∧ ((f s).alive = true → s.alive = true) ∧
      ((f s).waiting ≠ .finished → s.waiting ≠ .finished)) :
    ∀ (j : Nat) (s' : TerminalSession), (m.edit k f).sessions[j]? = some s' → Sober s' ∧
      ∃ s : TerminalSession, m.sessions[j]? = some s ∧
      s'.id = s.id ∧ (s'.alive = true → s.alive = true) ∧
        (s'.waiting ≠ .finished → s.waiting ≠ .finished ∧ (m.current = some j → m.current = some j)) := by
  intro j s' at'
  obtain ⟨s, at_, ⟨it, rfl⟩ | ⟨-, rfl⟩⟩ := edit_at at'
  · rw [← it] at at_
    obtain ⟨sober, same, alive, waiting⟩ := changes s at_ (h.sober k s at_)
    rw [← it]
    exact ⟨sober, s, at_, same, alive, fun unfinished => ⟨waiting unfinished, fun now => now⟩⟩
  · exact h.same j _ at_

/-- A change of one session, of which something may be reported. -/
theorem Tends.report (h : Tends m outbox) {k : Nat} {f : TerminalSession → TerminalSession} {sent : List Sent}
    {broken : Bool}
    (changes : ∀ s, m.sessions[k]? = some s → Sober s →
      Sober (f s) ∧ (f s).id = s.id ∧ ((f s).alive = true → s.alive = true) ∧
      ((f s).waiting ≠ .finished → s.waiting ≠ .finished))
    (new : ∀ x ∈ sent, x ∈ m.sent ∨ (x.message.type ≠ "output" → Dead (m.edit k f) outbox x.message.sessionId)) :
    Tends ({ m with sent := sent, broken := broken }.edit k f) outbox :=
  h.update rfl (h.edited changes) (fun _ sender closes => Or.inl ⟨sender, closes⟩) new (fun _ is => Or.inl is) rfl

theorem Tends.edit (h : Tends m outbox) {k : Nat} {f : TerminalSession → TerminalSession}
    {printed : List (Nat × List UInt8)}
    (changes : ∀ s, m.sessions[k]? = some s → Sober s →
      Sober (f s) ∧ (f s).id = s.id ∧ ((f s).alive = true → s.alive = true) ∧
      ((f s).waiting ≠ .finished → s.waiting ≠ .finished)) :
    Tends { m.edit k f with printed := printed } outbox :=
  h.update rfl (h.edited changes) (fun _ sender closes => Or.inl ⟨sender, closes⟩) (fun _ mem => Or.inl mem)
    (fun _ is => Or.inl is) rfl

theorem Dead.edit {id : String} (h : Dead m outbox id) {k : Nat} {f : TerminalSession → TerminalSession}
    (changes : ∀ s, (f s).id = s.id ∧ ((f s).alive = true → s.alive = true)) : Dead (m.edit k f) outbox id := by
  refine ⟨h.1, fun s' mem same => ?_⟩
  obtain ⟨j, at'⟩ := List.mem_iff_getElem?.mp mem
  obtain ⟨s, at_, ⟨-, rfl⟩ | ⟨-, rfl⟩⟩ := edit_at at'
  · by_contra runs
    have old := h.2 s (List.mem_of_getElem? at_) ((changes s).1.symm.trans same)
    rw [(changes s).2 (eq_true_of_ne_false runs)] at old
    exact Bool.noConfusion old
  · exact h.2 _ (List.mem_of_getElem? at_) same

/-- A session that is closed has no shell any more. -/
theorem terminate_alive (h : Tends m outbox) (k : Nat) (sender : Option String) :
    (∀ (j : Nat) (s' : TerminalSession), (m.terminate k sender).sessions[j]? = some s' → Sober s' ∧
      ∃ s : TerminalSession,
      m.sessions[j]? = some s ∧ s'.id = s.id ∧ (s'.alive = true → s.alive = true) ∧
        (s'.waiting ≠ .finished → s.waiting ≠ .finished ∧ (m.current = some j → m.current = some j))) ∧
      ∀ s' : TerminalSession, (m.terminate k sender).sessions[k]? = some s' → s'.alive = false := by
  unfold SessionManager.terminate
  split
  · rename_i session at_
    split
    · rename_i closed
      refine ⟨h.same, fun s' at' => ?_⟩
      rw [at_] at at'
      rw [← Option.some.inj at']
      exact (h.sober k session at_).closed closed
    · have killed := h.edited (k := k) (f := ({ · with alive := false, closed := true })) fun s _ _ =>
        ⟨⟨fun runs => Bool.noConfusion runs, fun _ => rfl, fun _ _ => rfl⟩, rfl, fun runs => Bool.noConfusion runs,
          fun waiting => waiting⟩
      have ended : ∀ s' : TerminalSession, (m.edit k ({ · with alive := false, closed := true })).sessions[k]? =
          some s' → s'.alive = false := by
        intro s' at'
        obtain ⟨s, -, ⟨-, rfl⟩ | ⟨other, -⟩⟩ := edit_at at'
        · rfl
        · exact absurd rfl other
      simp only
      split
      · exact ⟨killed, ended⟩
      · exact ⟨killed, ended⟩
  · rename_i none_
    refine ⟨h.same, fun s' at' => ?_⟩
    rw [none_] at at'
    exact nomatch at'

/-- `fair`: the PTY of a running shell takes what is typed. -/
theorem Tends.act (h : Tends m outbox) (holds : Holds m outbox) (failure : Option String) (ok : Bool)
    (fair : ∀ reason k j data s, failure = some reason → m.doing = .types k j data → m.sessions[k]? = some s →
      s.alive = false) :
    Tends (m.act failure ok) outbox := by
  unfold SessionManager.act
  split
  · rename_i message doing
    obtain ⟨sent, broken, eq, new⟩ := write_frame m none message ok
    rw [eq]
    refine h.update rfl h.same (fun k sender closes => ?_) (fun x mem =>
      (new x mem).imp (fun old => old) fun mine _ => ?_) nofun rfl
    · rw [doing] at closes
      exact nomatch closes
    · rw [mine]
      exact h.answers message doing
  · rename_i k j data doing
    have other : ∀ k' sender, m.doing ≠ .closes k' sender := by
      rw [doing]
      exact fun _ _ => nofun
    split
    · rename_i session at_
      split
      · rename_i reason fails
        have ended : session.alive = false := by
          split at fails
          · rename_i closed
            exact (h.sober k session at_).closed closed
          · exact fair reason k j data session fails doing at_
        refine h.update rfl h.same (fun k' sender closes => absurd closes (other k' sender)) (fun x mem => Or.inl mem)
          (fun x is => Or.inr ?_) rfl
        rw [← Doing.answers.inj is]
        exact dead_of_session holds at_ ended
      · refine h.update rfl (h.edited (k := k) (f := fun s => { s with typed := s.typed ++ data }) fun s _ sober => ?_)
          (fun k' sender closes => absurd closes (other k' sender)) (fun x mem => Or.inl mem) nofun rfl
        exact ⟨⟨sober.waits, sober.closed, sober.failed⟩, rfl, fun runs => runs, fun waiting => waiting⟩
    · exact h
  · rename_i k j cols rows doing
    refine h.update rfl (h.edited (k := k) (f := ({ · with cols := cols, rows := rows })) fun s _ sober => ?_)
      (fun k' sender closes => ?_)
      (fun x mem => Or.inl mem) nofun rfl
    · exact ⟨⟨sober.waits, sober.closed, sober.failed⟩, rfl, fun runs => runs, fun waiting => waiting⟩
    · rw [doing] at closes
      exact nomatch closes
  · rename_i k id doing
    obtain ⟨sessions, ended⟩ := terminate_alive h k (some id)
    obtain ⟨after, terminated, eq, -, -⟩ := terminate_frame m k (some id)
    rw [eq] at sessions ended ⊢
    refine h.update rfl sessions (fun k' sender closes => Or.inr ?_) (fun x mem => Or.inl mem) nofun rfl
    rw [doing] at closes
    rw [← (Doing.closes.inj closes).1]
    exact ended
  · rename_i k doing
    obtain ⟨sessions, ended⟩ := terminate_alive h k none
    obtain ⟨after, terminated, eq, -, -⟩ := terminate_frame m k none
    rw [eq] at sessions ended ⊢
    refine h.update rfl sessions (fun k' sender closes => Or.inr ?_) (fun x mem => Or.inl mem) nofun rfl
    rw [doing] at closes
    rw [← (Doing.closes.inj closes).1]
    exact ended
  · exact h
  · exact h

theorem Tends.hangUp (h : Tends m outbox) (reads : m.doing = .reads) : Tends m.hangUp outbox := by
  have other : ∀ k sender, m.doing ≠ .closes k sender := by
    rw [reads]
    exact fun _ _ => nofun
  unfold SessionManager.hangUp
  split
  · unfold SessionManager.close
    split
    · exact h.update rfl h.same (fun k sender closes => absurd closes (other k sender)) (fun x mem =>
        Or.inl mem) nofun rfl
    · exact h
  · exact h.update rfl h.same (fun k sender closes => absurd closes (other k sender)) (fun x mem =>
      Or.inl mem) nofun rfl

theorem Tends.wait (h : Tends m outbox) (holds : Holds m outbox) (now : Int) {k : Nat} {session : TerminalSession}
    (at_ : m.sessions[k]? = some session) (cause : Cause) (ok : Bool) :
      Tends (m.wait now k session cause ok) outbox := by
  have it : ∀ s, m.sessions[k]? = some s → s = session := fun s at' => Option.some.inj (at'.symm.trans at_)
  -- Past waitProcess the shell has ended.
  have ended : session.waiting ≠ .waits → session.alive = false := by
    intro past
    by_contra runs
    exact past ((h.sober k session at_).waits (eq_true_of_ne_false runs))
  unfold SessionManager.wait
  split
  · rename_i waits
    split
    · refine h.edit fun s at' _ => ⟨⟨fun runs => Bool.noConfusion runs, fun _ => rfl, fun _ _ => rfl⟩, rfl,
        fun runs => Bool.noConfusion runs, ?_⟩
      rw [it s at', waits]
      exact fun _ => nofun
    · exact h
  · rename_i reason exited
    have dead := dead_of_session holds at_ (ended (by rw [exited]; exact nofun))
    obtain ⟨sent, broken, eq, new⟩ := write_frame m none (exitMessage session.id reason) ok
    rw [eq]
    refine h.report (fun s at' sober => ?_) fun x mem => (new x mem).imp (fun old => old) fun mine _ => ?_
    · rw [it s at'] at sober ⊢
      refine ⟨⟨fun runs => ?_, sober.closed, sober.failed⟩, rfl, fun runs => runs, fun _ => by rw [exited]; exact nofun⟩
      rw [ended (by rw [exited]; exact nofun)] at runs
      exact Bool.noConfusion runs
    · rw [mine]
      exact dead.edit fun _ => ⟨rfl, fun runs => runs⟩
  · rename_i told
    refine h.edit fun s at' sober => ?_
    rw [it s at'] at sober ⊢
    have gone := ended (by rw [told]; exact nofun)
    refine ⟨⟨fun runs => ?_, fun _ => gone, sober.failed⟩, rfl, fun runs => runs, fun _ => by rw [told]; exact nofun⟩
    rw [gone] at runs
    exact Bool.noConfusion runs
  · rename_i released
    have gone := ended (by rw [released]; exact nofun)
    refine h.update rfl (fun j s' at' => ?_) (fun _ sender closes => Or.inl ⟨sender, closes⟩) (fun x mem => Or.inl mem)
      (fun x is => Or.inl is) rfl
    obtain ⟨s, there, ⟨same, rfl⟩ | ⟨other, rfl⟩⟩ := edit_at at'
    · rw [← same] at there ⊢
      rw [it s there]
      have sober := h.sober k session at_
      refine ⟨⟨fun runs => ?_, sober.closed, sober.failed⟩, session, at_, rfl, fun runs => runs,
        fun unfinished => absurd rfl unfinished⟩
      simp only [gone] at runs
      exact Bool.noConfusion runs
    · refine ⟨h.sober j _ there, _, there, rfl, fun runs => runs, fun unfinished => ⟨unfinished, fun now' => ?_⟩⟩
      simp only [now', Option.some.injEq, Ne.symm other, if_false]
  · exact h

/-- `fair`: the PTY of a running shell can be read. -/
theorem Tends.streamOutput (h : Tends m outbox) (holds : Holds m outbox) {k : Nat} {session : TerminalSession}
    (at_ : m.sessions[k]? = some session) (result : ReadResult) (ok : Bool)
    (fair : ∀ reason, result = .unexpected reason → session.streaming = .reading → session.alive = false) :
    Tends (m.streamOutput k session result ok) outbox := by
  have it : ∀ s, m.sessions[k]? = some s → s = session := fun s at' => Option.some.inj (at'.symm.trans at_)
  have quiet {streaming : Streaming} (other : ∀ reason, streaming ≠ .failed reason) :
    ∀ s, m.sessions[k]? = some s → Sober s →
      Sober { s with streaming := streaming } ∧ s.id = s.id ∧ (s.alive = true → s.alive = true) ∧
      (s.waiting ≠ .finished → s.waiting ≠ .finished) :=
    fun s _ sober => ⟨⟨sober.waits, sober.closed, fun reason is => absurd is (other reason)⟩, rfl, fun runs => runs,
      fun waiting => waiting⟩
  unfold SessionManager.streamOutput
  split
  · rename_i reading
    split
    · exact h.edit (quiet nofun)
    · exact h.edit (quiet nofun)
    · rename_i reason fails
      refine h.edit fun s at' sober => ?_
      rw [it s at'] at sober ⊢
      refine ⟨⟨sober.waits, sober.closed, fun _ _ => ?_⟩, rfl, fun runs => runs, fun waiting => waiting⟩
      split at fails
      · exact nomatch fails
      · exact fair reason fails reading
  · rename_i data _
    split
    · exact h.edit (quiet nofun)
    · obtain ⟨sent, broken, eq, new⟩ := write_frame m (some k) (outputMessage session.id data) ok
      rw [eq]
      refine h.report (quiet nofun) fun x mem => (new x mem).imp (fun old => old) fun mine type => ?_
      rw [mine] at type
      exact absurd rfl type
  · rename_i reason failed
    have dead := dead_of_session holds at_ ((h.sober k session at_).failed reason failed)
    obtain ⟨sent, broken, eq, new⟩ := write_frame m none (errorMessage session.id reason) ok
    rw [eq]
    refine h.report (quiet nofun) fun x mem => (new x mem).imp (fun old => old) fun mine _ => ?_
    rw [mine]
    exact dead.edit fun _ => ⟨rfl, fun runs => runs⟩
  · exact h

theorem Tends.shellExits (h : Tends m outbox) (k : Nat) : Tends (m.shellExits k) outbox :=
  h.edit fun _ _ _ => ⟨⟨fun runs => Bool.noConfusion runs, fun _ => rfl, fun _ _ => rfl⟩, rfl,
    fun runs => Bool.noConfusion runs, fun waiting => waiting⟩

/-- A message is taken, and no session is started. -/
theorem Tends.next (h : Tends m outbox) (g : Grows m m') (sessions : m'.sessions = m.sessions)
    (current : m'.current = m.current)
    (sent : m'.sent = m.sent) (alive : ∀ (k : Nat) (s : TerminalSession), m.sessions[k]? = some s → s.alive = true →
      startedOf (heard m' outbox) = some s.id ∨ ∃ sender, m'.doing = .closes k sender)
    (answers : ∀ x, m'.doing = .answers x → Dead m' outbox x.sessionId)
    (refused : ∀ r ∈ m'.refused, r ∈ m.refused ∨ r.2.2 = false) :
    Tends m' outbox := by
  have dead {id : String} (was : Dead m outbox id) : Dead m' outbox id :=
    ⟨g.started was.1, by rw [sessions]; exact was.2⟩
  refine ⟨?_, ?_, ?_, fun j x id at_ type now => dead (h.follows j x id at_ type now), fun x mem type => ?_, answers,
    fun r mem => ?_⟩
  · rw [sessions]
    exact h.sober
  · rw [sessions, current]
    exact h.unfinished
  · rw [sessions]
    exact alive
  · rw [sent] at mem
    exact dead (h.sent x mem type)
  · exact (refused r mem).elim (h.refused r) fun new => new

/-- A start is read only once the shells before have ended. -/
theorem Tends.idle (h : Tends m outbox) (reads : m.doing = .reads) {incoming : Message}
    (at_ : outbox[m.taken]? = some incoming)
    (type : incoming.type = "session_start") : ∀ s ∈ m.sessions, s.alive = false := by
  intro s mem
  by_contra runs
  obtain ⟨k, there⟩ := List.mem_iff_getElem?.mp mem
  rcases h.alive k s there (eq_true_of_ne_false runs) with turn | ⟨sender, closes⟩
  · exact runs ((h.follows m.taken incoming s.id at_ type turn).2 s mem rfl)
  · rw [reads] at closes
    exact nomatch closes

theorem Tends.start (h : Tends m outbox) (holds : Holds m outbox) (nodup : (starts outbox).Nodup) {incoming : Message}
    (at_ : outbox[m.taken]? = some incoming) (type : incoming.type = "session_start")
    (reads : m.doing = .reads) (now : Int)
    (started : Except String Unit) : Tends ({ m with taken := m.taken + 1 }.start now incoming started) outbox := by
  obtain ⟨-, g⟩ := holds.start nodup at_ type reads now started
  have idle := h.idle reads at_ type
  have mine : ∀ m' : SessionManager, m'.taken = m.taken + 1 → incoming.sessionId ∈ starts (heard m' outbox) :=
    fun _ => begun at_ type
  have gone {P : Prop} {k : Nat} {s : TerminalSession} (there : m.sessions[k]? = some s)
      (runs : s.alive = true) : P := by
    rw [idle s (List.mem_of_getElem? there)] at runs
    exact Bool.noConfusion runs
  revert g
  unfold SessionManager.start
  split
  · rename_i k _
    intro g
    refine h.next g rfl rfl rfl (fun k s there runs => gone there runs) (fun x is => ?_) fun r mem => ?_
    · rw [← Doing.answers.inj is]
      exact ⟨mine _ rfl, fun s mem _ => idle s mem⟩
    · rcases List.mem_append.mp mem with old | new
      · exact Or.inl old
      · rw [List.mem_singleton.mp new]
        rcases there : m.sessions[k]? with - | s
        · exact Or.inr rfl
        · exact Or.inr (idle s (List.mem_of_getElem? there))
  · rename_i none_
    split
    · intro g
      refine h.next g rfl rfl rfl (fun k s there runs => gone there runs) (fun x is => ?_) fun r mem => Or.inl mem
      rw [← Doing.answers.inj is]
      exact ⟨mine _ rfl, fun s mem _ => idle s mem⟩
    · intro g
      have first := first_start nodup at_ type
      have dead {m' : SessionManager} {id : String} (grows : Grows m m')
        (more : m'.sessions = m.sessions ++ [⟨incoming.sessionId, now,
          clamp incoming.cols 20 400, clamp incoming.rows 5 200, [], true, false, .waits,
          .reading⟩]) (was : Dead m outbox id) :
          Dead m' outbox id := by
        refine ⟨grows.started was.1, fun s mem same => ?_⟩
        rw [more] at mem
        rcases List.mem_append.mp mem with old | new
        · exact was.2 s old same
        · rw [List.mem_singleton.mp new] at same
          rw [← same] at was
          exact absurd was.1 first
      refine ⟨fun k s there => ?_, fun k s there waiting => ?_, fun k s there runs => ?_,
        fun j x id line type' now' => ?_,
        fun x mem type' => ?_, fun x is => ?_, h.refused⟩
      · rcases append_at there with old | ⟨-, rfl⟩
        · exact h.sober k s old
        · exact ⟨fun _ => rfl, Bool.noConfusion, fun _ => nofun⟩
      · rcases append_at there with old | ⟨rfl, -⟩
        · have was := h.unfinished k s old waiting
          rw [none_] at was
          exact nomatch was
        · rfl
      · rcases append_at there with old | ⟨-, rfl⟩
        · exact gone old runs
        · left
          rw [heard_next at_ rfl, startedOf_append]
          exact turn_start type
      · exact dead g rfl (h.follows j x id line type' now')
      · exact dead g rfl (h.sent x mem type')
      · simp only [reads] at is
        exact nomatch is

theorem Tends.take {sessions : List Session} {i : Nat} {p : Peer} (h : Tends m p.outbox) (holds : Holds m p.outbox)
    (written : Written sessions i p) {incoming : Message} (at_ : p.outbox[m.taken]? = some incoming)
    (reads : m.doing = .reads) (now : Int)
    (started : Except String Unit) : Tends (m.take now incoming started) p.outbox := by
  obtain ⟨-, g⟩ := holds.take written at_ reads now started
  have turns : ∀ (k : Nat) (s : TerminalSession), m.sessions[k]? = some s → s.alive = true →
      startedOf (heard m p.outbox) = some s.id ∧ m.current = some k := by
    intro k s there runs
    refine ⟨?_, h.unfinished k s there ((h.sober k s there).unfinished runs)⟩
    rcases h.alive k s there runs with turn | ⟨sender, closes⟩
    · exact turn
    · rw [reads] at closes
      exact nomatch closes
  revert g
  unfold SessionManager.take SessionManager.handle
  split
  · rename_i type
    intro _
    exact h.start holds written.starts at_ type reads now started
  · rename_i notStart
    -- Only its own close ends the turn of a session.
    have stays : incoming.type ≠ "session_close" → ∀ (k : Nat) (s : TerminalSession), m.sessions[k]? = some s →
      s.alive = true →
        startedOf (heard m p.outbox ++ [incoming]) = some s.id := by
      intro notClose k s there runs
      rw [startedOf_append, turn_other notStart notClose]
      exact (turns k s there runs).1
    have goes {doing : Doing} (g : Grows m { m with taken := m.taken + 1, doing := doing })
      (quiet : ∀ x, doing ≠ .answers x)
        (alive : ∀ (k : Nat) (s : TerminalSession), m.sessions[k]? = some s → s.alive = true →
          startedOf (heard m p.outbox ++ [incoming]) = some s.id ∨ ∃ sender, doing = .closes k sender) :
        Tends { m with taken := m.taken + 1, doing := doing } p.outbox := by
      refine h.next g rfl rfl rfl ?_ (fun x is => absurd is (quiet x)) fun r mem => Or.inl mem
      rw [heard_next at_ rfl]
      exact alive
    have idle (g : Grows m { m with taken := m.taken + 1 })
      (alive : ∀ (k : Nat) (s : TerminalSession), m.sessions[k]? = some s →
        s.alive = true → startedOf (heard m p.outbox ++ [incoming]) = some s.id) : Tends { m with taken :=
          m.taken + 1 } p.outbox := by
      have kept : Tends { m with taken := m.taken + 1, doing := m.doing } p.outbox := by
        refine goes g (fun x is => ?_) fun k s there runs => Or.inl (alive k s there runs)
        rw [reads] at is
        exact nomatch is
      exact kept
    split
    · rename_i type
      have other : incoming.type ≠ "session_close" := by simp [type]
      unfold SessionManager.input
      split
      · exact fun g => idle g (stays other)
      · split
        · exact fun g => idle g (stays other)
        · split
          · exact fun g => goes g nofun fun k s there runs => Or.inl (stays other k s there runs)
          · exact fun g => idle g (stays other)
    · split
      · rename_i type
        have other : incoming.type ≠ "session_close" := by simp [type]
        unfold SessionManager.resize
        split
        · exact fun g => goes g nofun fun k s there runs => Or.inl (stays other k s there runs)
        · exact fun g => idle g (stays other)
      · split
        · unfold SessionManager.close
          split
          · rename_i k current
            intro g
            refine goes g nofun fun k' s there runs => Or.inr ⟨some incoming.sessionId, ?_⟩
            rw [Option.some.inj (current.symm.trans (turns k' s there runs).2)]
          · rename_i none_
            intro g
            refine idle g fun k s there runs => ?_
            have now' := (turns k s there runs).2
            rw [none_] at now'
            exact nomatch now'
        · rename_i other
          exact fun g => idle g (stays other)

/-- No shell runs again, and a new one is of a session that is new. -/
def Falls (m m' : SessionManager) (outbox : List Message) : Prop :=
  ∀ s' ∈ m'.sessions, s'.alive = true → s'.id ∈ starts (heard m outbox) → ∃ s ∈ m.sessions, s.id = s'.id ∧
    s.alive = true

theorem Falls.of_same (same : m'.sessions = m.sessions) : Falls m m' outbox := by
  intro s' mem runs _
  rw [same] at mem
  exact ⟨s', mem, rfl, runs⟩

theorem Falls.edit {k : Nat} {f : TerminalSession → TerminalSession} (same : m'.sessions = (m.edit k f).sessions)
    (changes : ∀ s, (f s).id = s.id ∧ ((f s).alive = true → s.alive = true)) : Falls m m' outbox := by
  intro s' mem runs _
  rw [same] at mem
  obtain ⟨j, at'⟩ := List.mem_iff_getElem?.mp mem
  obtain ⟨s, at_, ⟨-, rfl⟩ | ⟨-, rfl⟩⟩ := edit_at at'
  · exact ⟨s, List.mem_of_getElem? at_, (changes s).1.symm, (changes s).2 runs⟩
  · exact ⟨_, List.mem_of_getElem? at_, rfl, runs⟩

theorem Dead.falls {id : String} (h : Dead m outbox id) (g : Grows m m') (falls : Falls m m' outbox) :
    Dead m' outbox id := by
  refine ⟨g.started h.1, fun s' mem same => ?_⟩
  by_contra runs
  obtain ⟨s, old, same', alive⟩ := falls s' mem (eq_true_of_ne_false runs) (same ▸ h.1)
  rw [h.2 s old (same'.trans same)] at alive
  exact Bool.noConfusion alive

theorem Falls.report {k : Nat} {f : TerminalSession → TerminalSession} (source : Option Nat)
    (message : Message) (ok : Bool)
    (changes : ∀ s, (f s).id = s.id ∧ ((f s).alive = true → s.alive = true)) :
      Falls m ((m.write source message ok).edit k f) outbox := by
  suffices same : ((m.write source message ok).edit k f).sessions = (m.edit k f).sessions from .edit same changes
  rw [SessionManager.edit, SessionManager.edit, write_sessions]

theorem falls_take (nodup : (starts outbox).Nodup) {incoming : Message}
    (at_ : outbox[m.taken]? = some incoming) (now : Int)
    (started : Except String Unit) : Falls m (m.take now incoming started) outbox := by
  unfold SessionManager.take SessionManager.handle
  split
  · rename_i type
    unfold SessionManager.start
    split
    · exact .of_same rfl
    · split
      · exact .of_same rfl
      · intro s' mem runs known
        rcases List.mem_append.mp mem with old | new
        · exact ⟨s', old, rfl, runs⟩
        · rw [List.mem_singleton.mp new] at known
          exact absurd known (first_start nodup at_ type)
  · simp only [SessionManager.input, SessionManager.resize, SessionManager.close]
    repeat' split
    all_goals exact .of_same rfl

theorem falls_terminate (k : Nat) (sender : Option String) {doing : Doing} {broken : Bool} :
    Falls m { m.terminate k sender with doing := doing, broken := broken } outbox := by
  unfold SessionManager.terminate
  split
  · split
    · exact .of_same rfl
    · simp only
      split <;> exact .edit rfl fun _ => ⟨rfl, Bool.noConfusion⟩
  · exact .of_same rfl

theorem falls_step (nodup : (starts outbox).Nodup) (now : Int) (move : AgentMove) :
    Falls m (m.step now outbox move) outbox := by
  cases move with
  | take started =>
    simp only [SessionManager.step]
    split
    · rename_i incoming at_
      split
      · exact falls_take nodup at_ now started
      · exact .of_same rfl
    · exact .of_same rfl
  | act failure ok =>
    simp only [SessionManager.step]
    unfold SessionManager.act
    split
    · exact .of_same (write_sessions ..)
    · split
      · split
        · exact .of_same rfl
        · exact .edit rfl fun _ => ⟨rfl, fun runs => runs⟩
      · exact .of_same rfl
    · exact .edit rfl fun _ => ⟨rfl, fun runs => runs⟩
    · exact falls_terminate _ _
    · exact falls_terminate _ _
    · exact .of_same rfl
    · exact .of_same rfl
  | hangUp =>
    simp only [SessionManager.step, SessionManager.hangUp, SessionManager.close]
    repeat' split
    all_goals exact .of_same rfl
  | wait k cause ok =>
    simp only [SessionManager.step, SessionManager.wait]
    split
    · split
      · split
        · exact .edit rfl fun _ => ⟨rfl, Bool.noConfusion⟩
        · exact .of_same rfl
      · exact .report _ _ _ fun _ => ⟨rfl, fun runs => runs⟩
      · exact .edit rfl fun _ => ⟨rfl, fun runs => runs⟩
      · exact .edit rfl fun _ => ⟨rfl, fun runs => runs⟩
      · exact .of_same rfl
    · exact .of_same rfl
  | streamOutput k result ok =>
    simp only [SessionManager.step, SessionManager.streamOutput]
    split
    · split
      · split <;> exact .edit rfl fun _ => ⟨rfl, fun runs => runs⟩
      · split
        · exact .edit rfl fun _ => ⟨rfl, fun runs => runs⟩
        · exact .report _ _ _ fun _ => ⟨rfl, fun runs => runs⟩
      · exact .report _ _ _ fun _ => ⟨rfl, fun runs => runs⟩
      · exact .of_same rfl
    · exact .of_same rfl
  | shellExits k => exact .edit rfl fun _ => ⟨rfl, Bool.noConfusion⟩

/-- The session whose PTY fails. -/
def failing (m : SessionManager) : AgentMove → Option TerminalSession
  | .act (some _) _ =>
    match m.doing with
    | .types k _ _ => m.sessions[k]?
    | _ => none
  | .streamOutput k (.unexpected _) _ => m.sessions[k]?.filter (·.streaming = .reading)
  | _ => none

/-- A PTY fails only for a shell that has ended. -/
def Fair (m : SessionManager) (move : AgentMove) : Prop := ∀ s ∈ failing m move, s.alive = false

theorem Tends.step {sessions : List Session} {i : Nat} {p : Peer} (h : Tends m p.outbox) (holds : Holds m p.outbox)
    (written : Written sessions i p) (now : Int) (move : AgentMove) (fair : Fair m move) :
      Tends (m.step now p.outbox move) p.outbox := by
  cases move with
  | take started =>
    simp only [SessionManager.step]
    split
    · rename_i incoming at_
      split
      · rename_i reads
        exact h.take holds written at_ reads now started
      · exact h
    · exact h
  | act failure ok =>
    refine h.act holds failure ok fun reason k j data s eq doing at_ => fair s ?_
    rw [eq, failing, doing]
    exact at_
  | hangUp =>
    simp only [SessionManager.step]
    split
    · rename_i reads
      exact h.hangUp reads
    · exact h
  | wait k cause ok =>
    simp only [SessionManager.step]
    split
    · rename_i session at_
      exact h.wait holds now at_ cause ok
    · exact h
  | streamOutput k result ok =>
    simp only [SessionManager.step]
    split
    · rename_i session at_
      refine h.streamOutput holds at_ result ok fun reason eq reading => fair session ?_
      rw [eq, failing, at_]
      exact Option.mem_filter_iff.mpr ⟨rfl, decide_eq_true reading⟩
    · exact h
  | shellExits k => exact h.shellExits k

theorem Dead.written {id : String} (h : Dead m outbox id) {outbox' : List Message}
    (read : heard m outbox' = heard m outbox) :
    Dead m outbox' id := by
  rw [Dead, read]
  exact h

theorem tends_new : Tends newSessionManager [] := by
  have none_ {α : Type} {P : Prop} {k : Nat} {s : α} (at_ : ([] : List α)[k]? = some s) : P :=
    nomatch List.getElem?_nil.symm.trans at_
  exact ⟨fun _ _ => none_, fun _ _ => none_, fun _ _ => none_, fun _ _ _ => none_,
    fun _ mem => absurd mem List.not_mem_nil, fun _ => nofun,
    fun _ mem => absurd mem List.not_mem_nil⟩

/-- One more message is written. A start comes only where the session before has no shell. -/
theorem Tends.written (h : Tends m outbox) {x : Message} (read : heard m (outbox ++ [x]) = heard m outbox)
    (follows : x.type = "session_start" → ∀ id, startedOf outbox = some id → Dead m outbox id) :
      Tends m (outbox ++ [x]) := by
  refine ⟨h.sober, h.unfinished, ?_, fun j y id at_ type now => ?_, fun y mem type => (h.sent y mem type).written read,
    fun y is => (h.answers y is).written read, h.refused⟩
  · rw [read]
    exact h.alive
  · rcases before_cases at_ with ⟨old, before⟩ | ⟨rfl, before⟩
    · rw [before] at now
      exact (h.follows j y id old type now).written read
    · rw [before] at now
      exact (follows type id now).written read

end

/-! ### The sessions that the hub ends without telling the agent -/

/-- The hub ends the session without telling the agent. -/
def Silent (s : Session) : Prop := ∃ e, s.phase = .ending e ∧ e.notifyAgent = false

/-- A session becomes silent for this reason only. -/
def Silences (reason : Session → Prop) (hub hub' : Hub) : Prop :=
  ∀ s' ∈ hub'.sessions, Silent s' → ∃ s ∈ hub.sessions, s.id = s'.id ∧ s.agent = s'.agent ∧ (Silent s ∨ reason s)

section
variable {hub hub' : Hub} {reason : Session → Prop}

theorem Silences.of_same (same : hub'.sessions = hub.sessions) : Silences reason hub hub' := by
  intro s mem silent
  rw [same] at mem
  exact ⟨s, mem, rfl, rfl, Or.inl silent⟩

theorem Silences.edit {id : String} {f : Session → Session} (same : hub'.sessions = (hub.edit id f).sessions)
    (changes : ∀ s ∈ hub.sessions, s.id = id → (f s).id = s.id ∧ (f s).agent = s.agent ∧
      (Silent (f s) → Silent s ∨ reason s)) :
    Silences reason hub hub' := by
  intro s' mem silent
  rw [same] at mem
  obtain ⟨s, old, rfl⟩ := List.mem_map.mp mem
  by_cases mine : s.id = id
  · rw [if_pos mine] at silent ⊢
    obtain ⟨sameId, agent, was⟩ := changes s old mine
    exact ⟨s, old, sameId.symm, agent.symm, was silent⟩
  · rw [if_neg mine] at silent ⊢
    exact ⟨s, old, rfl, rfl, Or.inl silent⟩

/-- A change of how a session is served, after others. -/
theorem Silences.serve {id : String} {serving : Serving} {between : Hub} (h : Silences reason hub between)
    (same : hub'.sessions = (between.serve id serving).sessions) : Silences reason hub hub' := by
  intro s' mem silent
  rw [same] at mem
  obtain ⟨s, old, rfl⟩ := List.mem_map.mp mem
  by_cases mine : s.id = id
  · rw [if_pos mine] at silent ⊢
    exact h s old silent
  · rw [if_neg mine] at silent ⊢
    exact h s old silent

theorem Silences.endSession {id : String} {status : Status} {why : String} {notifyAgent : Bool}
    (same : hub'.sessions = (hub.endSession id status why notifyAgent).sessions)
    (because : notifyAgent = false → ∀ s ∈ hub.sessions, s.id = id → reason s) : Silences reason hub hub' := by
  refine .edit same fun s mem mine => ?_
  split
  · refine ⟨rfl, rfl, fun ⟨e, eq, silent⟩ => Or.inr (because ?_ s mem mine)⟩
    rw [← Phase.ending.inj eq] at silent
    exact silent
  · exact ⟨rfl, rfl, Or.inl⟩

/-- The connection of a session has broken, or the agent has reported its end. -/
def Severed (hub hub' : Hub) (s : Session) : Prop :=
  (∃ p', hub'.peers[s.agent]? = some p' ∧ p'.broken = true) ∨
    ∃ (i : Nat) (p : Peer) (x : Message), hub.peers[i]? = some p ∧ p.doing = .told x ∧ x.type ≠ "output" ∧
    x.sessionId = s.id

theorem silences_handle (apart : Apart hub) (orderly : Orderly hub) {s : Session}
    (here : s ∈ hub.sessions) (ok : Bool) :
    Silences (Severed hub (hub.handle s ok)) hub (hub.handle s ok) := by
  unfold Hub.handle
  split
  · split
    · refine .edit rfl fun s' _ _ => ⟨rfl, rfl, fun ⟨e, eq, _⟩ => ?_⟩
      exact nomatch eq
    · simp only
      split
      · exact .serve (.of_same rfl) rfl
      · rename_i fails
        refine .serve (.endSession rfl fun _ s' mem mine => Or.inl ?_) rfl
        obtain ⟨p, at_, -⟩ := orderly.sits s here
        rw [apart.eq_of_id mem here mine]
        rw [Hub.writes, at_] at fails
        refine ⟨{ p with broken := true }, ?_, rfl⟩
        change (hub.peers.modify s.agent _)[s.agent]? = _
        rw [List.getElem?_modify, at_]
        simp only [if_true, Option.map_eq_map, Option.map_some, if_neg fails]
  · exact .serve (.of_same rfl) rfl
  · split <;> exact .serve (.of_same rfl) rfl
  · exact .serve (.endSession rfl Bool.noConfusion) rfl
  · exact .of_same rfl
  · exact .of_same rfl

theorem silences_account {id : String} {fromBrowser : Bool} {data : String}
    (same : hub'.sessions = (hub.account id fromBrowser data).sessions) : Silences reason hub hub' := by
  refine .edit (f := (Hub.addBytes · fromBrowser (decodedLength data))) same fun s _ _ => ?_
  obtain ⟨sameId, -, samePhase⟩ := SessionRows.Inv.addBytes_same s fromBrowser (decodedLength data)
  refine ⟨sameId, ?_, fun ⟨e, phase, silent⟩ => Or.inl ⟨e, samePhase ▸ phase, silent⟩⟩
  unfold Hub.addBytes
  split
  · rfl
  · split <;> rfl

theorem silences_dispatch (apart : Apart hub) (orderly : Orderly hub) {peer : Nat} {p : Peer}
    (here : hub.peers[peer]? = some p) :
    Silences (Severed hub (hub.dispatch peer p)) hub (hub.dispatch peer p) := by
  unfold Hub.dispatch
  split
  · split <;> exact .of_same rfl
  · rename_i x doing
    have reported (type : x.type ≠ "output") {hub' : Hub} :
        ∀ s ∈ hub.sessions, s.id = x.sessionId → Severed hub hub' s :=
      fun s _ mine => Or.inr ⟨peer, p, x, here, doing, type, mine.symm⟩
    split
    · exact silences_account rfl
    · rename_i type
      split <;> exact .endSession rfl fun _ => reported type
  · split <;> exact .of_same rfl
  · exact .of_same rfl
  · rename_i id rest doing
    split
    · exact .of_same rfl
    · refine .endSession rfl fun _ s mem mine => Or.inl ⟨p, ?_, (orderly.written peer p here).down (Or.inr ⟨_, doing⟩)⟩
      obtain ⟨s', mem', sameId, agent⟩ := (orderly.written peer p here).affected _ doing id List.mem_cons_self
      rw [apart.eq_of_id mem mem' (mine.trans sameId.symm), agent]
      exact here
  · exact .of_same rfl
  · exact .of_same rfl

theorem silences_proceed (apart : Apart hub) {s : Session} (here : s ∈ hub.sessions) {e : Ending}
    (phase : s.phase = .ending e) (ok : Bool) :
    Silences reason hub (hub.proceed s e ok) := by
  have reach {stage : Stage} {hub' : Hub} (same : hub'.sessions = (hub.reach s.id e stage).sessions) :
      Silences reason hub hub' := by
    refine .edit same fun s' mem mine => ⟨rfl, rfl, fun ⟨e', eq, silent⟩ => Or.inl ⟨e, ?_, ?_⟩⟩
    · rw [apart.eq_of_id mem here mine]
      exact phase
    · rw [← Phase.ending.inj eq] at silent
      exact silent
  unfold Hub.proceed
  split
  case h_2 | h_6 | h_7 => split <;> exact reach rfl
  case h_8 => exact .of_same rfl
  all_goals exact reach rfl

theorem silences_step (apart : Apart hub) (orderly : Orderly hub) {move : Move} (o : own move) :
    Silences (Severed hub (hub.step move)) hub (hub.step move) := by
  cases move with
  | handle id ok =>
    simp only [Hub.step]
    split
    · rename_i s here
      exact silences_handle apart orderly (found here).1 ok
    · exact .of_same rfl
  | browserMessage id incoming =>
    simp only [Hub.step, Hub.browserMessage]
    split
    · split
      · exact .of_same rfl
      · split
        · exact .serve (.of_same rfl) rfl
        · split
          · exact .serve (.of_same rfl) rfl
          · exact .of_same rfl
          · split
            · exact .serve (silences_account rfl) rfl
            · exact .serve (.of_same rfl) rfl
    · exact .of_same rfl
  | timeout id =>
    simp only [Hub.step, Hub.timeout]
    split
    · split
      · exact .of_same rfl
      · exact .endSession rfl Bool.noConfusion
    · exact .of_same rfl
  | dispatch peer =>
    simp only [Hub.step]
    split
    · rename_i p here
      exact silences_dispatch apart orderly here
    · exact .of_same rfl
  | proceed id ok =>
    simp only [Hub.step]
    split
    · rename_i s here
      split
      · rename_i e phase
        exact silences_proceed apart (found here).1 phase ok
      · exact .of_same rfl
    · exact .of_same rfl
  | agentMessage peer incoming =>
    cases incoming with
    | some m => exact o.elim
    | none =>
      simp only [Hub.step, Hub.agentMessage]
      repeat' split
      all_goals exact .of_same rfl
  | createSession i id ok =>
    simp only [Hub.step, Hub.createSession]
    split
    · split
      · rintro s mem ⟨e, phase, silent⟩
        rcases List.mem_append.mp mem with old | new
        · exact ⟨s, old, rfl, rfl, Or.inl ⟨e, phase, silent⟩⟩
        · rw [List.mem_singleton.mp new] at phase
          cases phase
      · exact .of_same rfl
    · exact .of_same rfl
  | restart | registerAgent serverId => exact o.elim
  | wait d => exact .of_same rfl
  | askTicket serverId userId =>
    simp only [Hub.step, Hub.askTicket]
    split <;> exact .of_same rfl
  | checkTicket i =>
    simp only [Hub.step, Hub.checkTicket]
    repeat' split
    all_goals exact .of_same rfl
  | issueTicket i value =>
    simp only [Hub.step, Hub.issueTicket]
    repeat' split
    all_goals exact .of_same rfl
  | redeemTicket value =>
    simp only [Hub.step, Hub.redeemTicket]
    repeat' split
    all_goals exact .of_same rfl
  | visit i =>
    simp only [Hub.step, Hub.visit]
    repeat' split
    all_goals exact .of_same rfl

end

/-! ### The two ends together -/

/-- The agent has no shell for what it reports the end of, nor for what the hub has silently ended. -/
structure Tended (sessions : List Session) (i : Nat) (c : Connection) (p : Peer) : Prop where
  tends : Tends c.manager p.outbox
  told : ∀ x, p.doing = .found x ∨ p.doing = .told x → x.type ≠ "output" → Dead c.manager p.outbox x.sessionId
  silent : ∀ s ∈ sessions, s.agent = i → Silent s → p.broken = false → Dead c.manager p.outbox s.id

/-- The two ends cohere, and each manager tends to its shells. -/
structure Cared (sys : System) : Prop where
  coheres : Coheres sys
  tended : ∀ (i : Nat) (c : Connection) (p : Peer), sys.connections[i]? = some c → sys.hub.peers[i]? = some p →
    Tended sys.hub.sessions i c p

/-- A session is of the connection that its start is written to. -/
theorem agent_of_start {sys : System} (h : Coheres sys) {i : Nat} {p : Peer}
    (at_ : sys.hub.peers[i]? = some p) {s : Session}
    (here : s ∈ sys.hub.sessions) (mem : s.id ∈ starts p.outbox) : s.agent = i := by
  obtain ⟨x, there, -, same⟩ := mem_starts.mp mem
  obtain ⟨s', mem', sameId, agent, -⟩ := (h.orderly.written i p at_).writers x there
  rw [h.apart.eq_of_id here mem' (same.symm.trans sameId.symm)]
  exact agent

theorem heard_turned {m : SessionManager} {writer : List String} {p p' : Peer} (turned : Turned writer p p')
    (holds : Holds m p.outbox) :
    heard m p'.outbox = heard m p.outbox := by
  rcases turned.outbox with same | ⟨-, x, more, -⟩
  · rw [same]
  · rw [more]
    exact List.take_append_of_le_length holds.taken

namespace Cared
variable {sys : System}

theorem stepOwn (h : Cared sys) {move : Move} (o : own move) : Cared (sys.stepHub move) := by
  refine ⟨h.coheres.stepOwn o, fun i c' p' at_ at' => ?_⟩
  have after := h.coheres.stepOwn o
  rw [Coheres.stepHub_own o] at after at_ at' ⊢
  rw [List.getElem?_mapIdx] at at_
  obtain ⟨c, there, rfl⟩ := Option.map_eq_some_iff.mp at_
  obtain ⟨p, line, linked⟩ := h.coheres.connection there
  obtain ⟨q, line', turned⟩ := (beneath_step h.coheres.orderly o).turned i p line
  rw [at'] at line'
  rw [← Option.some.inj line'] at turned
  have read := heard_turned turned linked.holds
  have tended := h.tended i c p there line
  have silent : ∀ s ∈ (sys.hub.step move).sessions, s.agent = i → Silent s → p'.broken = false →
      Dead c.manager p'.outbox s.id := by
    intro s' mem' agent silent up
    obtain ⟨s, mem, sameId, sameAgent, was | severed⟩ :=
      silences_step h.coheres.apart h.coheres.orderly o s' mem' silent
    · rw [← sameId]
      exact (tended.silent s mem (sameAgent.trans agent) was (turned.broken up)).written read
    · rcases severed with ⟨q, at'', broken⟩ | ⟨j, q, x, line', doing, type, mine⟩
      · rw [sameAgent, agent, at'] at at''
        rw [← Option.some.inj at'', up] at broken
        exact Bool.noConfusion broken
      · have within : j < sys.connections.length := by
          rw [h.coheres.length]
          exact (List.getElem?_eq_some_iff.mp line').1
        have known := (h.coheres.linked j _ q (List.getElem?_eq_getElem within) line').known x (Or.inr doing)
        have same : s.agent = j :=
          agent_of_start h.coheres line' mem (mine ▸ starts_mono (List.take_prefix _ _) _ known)
        rw [← same, sameAgent, agent, line] at line'
        rw [← Option.some.inj line'] at doing
        rw [← sameId, ← mine]
        exact (tended.told x (Or.inr doing) type).written read
  refine ⟨?_, fun x doing type => ?_, silent⟩
  · rcases turned.outbox with same | ⟨up, x, more, -⟩
    · rw [same]
      exact tended.tends
    · rw [more] at read ⊢
      refine tended.tends.written read fun type id now => ?_
      have last : p'.outbox[p.outbox.length]? = some x := by
        rw [more, List.getElem?_append_right (Nat.le_refl _), Nat.sub_self]
        rfl
      have before : p'.outbox.take p.outbox.length = p.outbox := by
        rw [more]
        exact List.take_left
      obtain ⟨s, mem, mine, phase⟩ :=
        (after.orderly.written i p' at').follows _ x id last type (by rw [before]; exact now)
      have agent := agent_of_start after at' mem (by
        rw [mine, more]
        exact starts_mono (List.prefix_append _ _) _ (startedOf_mem now))
      have dead := silent s mem agent phase up
      rw [mine, more] at dead
      exact dead.written read.symm
  · suffices before : p.doing = .found x ∨ p.doing = .told x from (tended.told x before type).written read
    rcases doing with found | told
    · exact Or.inl (turned.found x found)
    · exact (turned.told x told).symm

theorem connect (h : Cared sys) (serverId : String) : Cared (sys.stepHub (.registerAgent serverId)) := by
  refine ⟨h.coheres.connect serverId, fun i c p at_ at' => ?_⟩
  rw [System.stepHub, List.getElem?_append] at at_
  rw [System.stepHub, Hub.step, Hub.registerAgent, List.getElem?_append] at at'
  simp only [h.coheres.length] at at_ at'
  split at at_
  · rename_i old
    rw [if_pos old] at at'
    exact h.tended i c p at_ at'
  · rename_i new
    rw [if_neg new] at at'
    rw [List.getElem?_singleton] at at_ at'
    split at at_
    · rename_i zero
      rw [if_pos zero] at at'
      rw [← Option.some.inj at_, ← Option.some.inj at']
      refine ⟨tends_new, fun x found => (by rcases found with eq | eq <;> cases eq), fun s mem agent => ?_⟩
      obtain ⟨q, there, -⟩ := h.coheres.orderly.sits s mem
      rw [agent] at there
      exact absurd (List.getElem?_eq_some_iff.mp there).1 new
    · cases at_

theorem receive (h : Cared sys) (peer : Nat) : Cared (sys.receive peer) := by
  have after := h.coheres.receive peer
  revert after
  unfold System.receive
  split
  · rename_i c p there at_
    split
    · rename_i next rest doing sent
      intro after
      have sessions : (sys.hub.step (.agentMessage peer (some next.message))).sessions = sys.hub.sessions := by
        simp only [Hub.step, at_, Hub.agentMessage]
        repeat' split
        all_goals rfl
      refine ⟨after, fun i c' q at' line => ?_⟩
      simp only [sessions]
      rw [List.getElem?_set] at at'
      split at at'
      · rename_i it
        split at at'
        · have tended := h.tended peer c p there at_
          have tends : Tends { c.manager with sent := rest } p.outbox := by
            refine tended.tends.update rfl tended.tends.same (fun k sender closes => Or.inl ⟨sender, closes⟩)
              (fun x mem => Or.inl ?_)
              (fun x is => Or.inl is) rfl
            rw [sent]
            exact List.mem_cons_of_mem next mem
          rw [← Option.some.inj at', ← it]
          rcases peers_agentMessage at_ doing line with same | ⟨-, rfl⟩
          · rw [← it, at_] at same
            rw [← Option.some.inj same]
            exact ⟨tends, tended.told, tended.silent⟩
          · refine ⟨tends, fun x found type => ?_, tended.silent⟩
            rcases found with eq | eq
            · rw [← Reading.found.inj eq] at type ⊢
              exact tended.tends.sent next (by rw [sent]; exact List.mem_cons_self) type
            · cases eq
        · cases at'
      · rename_i other
        rcases peers_agentMessage at_ doing line with same | ⟨it, -⟩
        · exact h.tended i c' q at' same
        · exact absurd it.symm other
    · exact fun _ => h
  · exact fun _ => h

theorem agent (h : Cared sys) (peer : Nat) (move : AgentMove)
    (fair : ∀ c, sys.connections[peer]? = some c → Fair c.manager move) :
    Cared (sys.step (.agent peer move)) := by
  refine ⟨h.coheres.agent peer move, ?_⟩
  simp only [System.step]
  split
  · rename_i c there
    obtain ⟨p, at_, linked⟩ := h.coheres.connection there
    have written := h.coheres.orderly.written peer p at_
    have tended := h.tended peer c p there at_
    obtain ⟨-, g⟩ := linked.holds.step written sys.hub.now move
    have dead {id : String} (was : Dead c.manager p.outbox id) :
        Dead (c.manager.step sys.hub.now p.outbox move) p.outbox id :=
      was.falls g (falls_step written.starts sys.hub.now move)
    intro i c' q at' line
    rw [List.getElem?_set] at at'
    split at at'
    · rename_i it
      split at at'
      · rw [← it, at_] at line
        rw [← Option.some.inj at', ← Option.some.inj line, outbox_eq at_, ← it]
        exact ⟨tended.tends.step linked.holds written sys.hub.now move (fair c there),
          fun x doing type => dead (tended.told x doing type),
          fun s mem agent silent up => dead (tended.silent s mem agent silent up)⟩
      · cases at'
    · exact h.tended i c' q at' line
  · exact h.tended

end Cared

/-- The step of the agent meets no failure while a shell of it runs. -/
def Faultless (sys : System) : SystemMove → Prop
  | .agent peer move => ∀ c ∈ sys.connections[peer]?, Fair c.manager move
  | .hub _ | .receive _ => True

instance (sys : System) : DecidablePred (Faultless sys)
  | .agent peer move =>
    inferInstanceAs (Decidable (∀ c ∈ sys.connections[peer]?, ∀ s ∈ failing c.manager move, s.alive = false))
  | .hub _ | .receive _ => .isTrue trivial

theorem Cared.step {sys : System} (h : Cared sys) (move : SystemMove) (faultless : Faultless sys move) :
    Cared (sys.step move) := by
  cases move with
  | hub move =>
    by_cases o : own move
    · exact h.stepOwn o
    · cases move with
      | restart => exact h
      | registerAgent serverId => exact h.connect serverId
      | agentMessage peer incoming =>
        cases incoming with
        | none => exact absurd trivial o
        | some m => exact h
      | _ => exact absurd trivial o
  | receive peer => exact h.receive peer
  | agent peer move => exact h.agent peer move faultless

/-- Nobody's shells: an agent refuses a start only when none of its shells runs; the hub ends a session on a
    connection that stands without telling the agent only when its shell has ended; and the shell of a session
    that the hub has ended on such a connection does not run once the agent has handled what was written to
    it. -/
structure Tidy (sys : System) : Prop where
  refusals : ∀ c ∈ sys.connections, ∀ r ∈ c.manager.refused, r.2.2 = false
  silent : ∀ (i : Nat) (c : Connection) (p : Peer), sys.connections[i]? = some c → sys.hub.peers[i]? = some p →
    p.broken = false →
    ∀ s ∈ sys.hub.sessions, s.agent = i → Silent s → ∀ t ∈ c.manager.sessions, t.id = s.id → t.alive = false
  ended : ∀ (i : Nat) (c : Connection) (p : Peer), sys.connections[i]? = some c → sys.hub.peers[i]? = some p →
    p.broken = false →
    c.manager.doing = .reads → c.manager.taken = p.outbox.length →
    ∀ s ∈ sys.hub.sessions, s.agent = i → s.ended = true → ∀ t ∈ c.manager.sessions, t.id = s.id → t.alive = false

theorem Cared.tidy {sys : System} (h : Cared sys) : Tidy sys := by
  refine ⟨fun c mem => ?_, fun i c p at_ at' up s mem agent silent =>
    ((h.tended i c p at_ at').silent s mem agent silent up).2,
    fun i c p at_ at' up reads all s mem agent ended t there mine => ?_⟩
  · obtain ⟨i, at_⟩ := List.mem_iff_getElem?.mp mem
    obtain ⟨p, at', -⟩ := h.coheres.connection at_
    exact (h.tended i c p at_ at').tends.refused
  · have tended := h.tended i c p at_ at'
    obtain ⟨k, it⟩ := List.mem_iff_getElem?.mp there
    by_contra runs
    -- Its turn is not over, so the hub has told the agent nothing.
    have turn : startedOf p.outbox = some s.id := by
      rcases tended.tends.alive k t it (eq_true_of_ne_false runs) with turn | ⟨sender, closes⟩
      · rwa [heard, all, List.take_length, mine] at turn
      · rw [reads] at closes
        cases closes
    obtain ⟨q, line, agrees⟩ := h.coheres.orderly.sits s mem
    rw [agent, at'] at line
    rw [← Option.some.inj line] at agrees
    have silent : Silent s := by
      rcases agrees.awaits up turn with listed | ⟨e, phase, silent | stage | stage⟩
      · rw [Session.ended, listed] at ended
        exact Bool.noConfusion ended
      · exact ⟨e, phase, silent⟩
      · rw [Session.ended, phase] at ended
        simp [stage] at ended
      · rw [Session.ended, phase] at ended
        simp [stage] at ended
    exact runs ((tended.silent s mem agent silent up).2 t there mine)

/-- No shell is left to nobody all along every run in which no PTY fails while its shell runs. -/
theorem no_orphans (moves : List SystemMove) (faultless : systemMachine.Each Faultless NewSystem moves) :
    systemMachine.Always Tidy NewSystem moves := by
  have start : Cared NewSystem := ⟨.newSystem, fun _ _ _ at_ => nomatch List.getElem?_nil.symm.trans at_⟩
  have cared : systemMachine.Always Cared NewSystem moves :=
    Machine.always_of_each (fun _ move h => h.step move) start faultless
  exact cared.mono fun _ h => h.tidy

/-- The shell of `a` ends, and its PTY fails; the hub ends `a`, and `b` is started before the agent has given `a` up. -/
def succession : List SystemMove :=
  [.hub (.registerAgent "web-1")] ++ opening "t1" "a" ++
    [.agent 0 (.take (.ok ())), .agent 0 (.shellExits 0),
      .agent 0 (.streamOutput 0 (.unexpected "input/output error") true),
      .agent 0 (.streamOutput 0 .expected true), .receive 0] ++
    List.map .hub ([.dispatch 0, .dispatch 0] ++ List.replicate 7 (.proceed "a" true) ++ [.dispatch 0]) ++
    opening "t2" "b" ++
    [.agent 0 (.take (.ok ())), .agent 0 (.act none true)]

set_option maxRecDepth 8000 in
theorem no_orphans_succession : systemMachine.Always Tidy NewSystem succession ∧
    (systemMachine.exec NewSystem succession).connections.map (·.manager.refused) = [[("b", 0, false)]] :=
  ⟨no_orphans succession (by decide), by decide⟩

end TerminalOrphans
end DatrixOps
