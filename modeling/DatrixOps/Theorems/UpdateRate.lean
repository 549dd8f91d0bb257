import DatrixOps.Theorems.UpdateSteps

/-! How often a heartbeat queues an automatic update. It looks for a recent update to the version configured and queues
    one to the version wanted: where the two are one text, a server is queued none within an hour of another to the same
    version. -/

namespace DatrixOps
namespace UpdateRate
open Postgres

/-- When the statement queues an automatic update, no update of the server is pending or processing, and none
    to the same version was queued within the hour before. -/
def Limited (u : Updates) (e : UpdateEvent) : Prop :=
  ∀ t, e.queued u.db = some t →
    (∀ t₀ ∈ u.db.tasks, t₀.serverId = t.serverId → t₀.activeUpdate = false) ∧
    ∀ t₀ ∈ u.queued, t₀.serverId = t.serverId → t₀.target = t.target → t₀.createdAt + hour < t.createdAt

/-- A heartbeat that queues an update wants the version configured, or one discovered online of the same text. -/
def Settled (_ : Updates) : UpdateEvent → Prop
  | .queue b _ => b.queues = true → String.ofList (Golang.trimSpace b.desired.toList) =
      String.ofList (Golang.trimSpace b.api.desiredAgentVersion.toList)
  | _ => True

variable {p : Platform} {u : Updates} {db : Db} {b : Beat} {taskId : Uuid} {t : ServerTask} {e : UpdateEvent}

/-- What the heartbeat's `INSERT .. SELECT` queues, and what it has found. -/
theorem queued_queue (h : (UpdateEvent.queue b taskId).queued db = some t) : b.queues = true ∧
    t = .inserted db.now b.serverId .agentUpdate (b.api.release b.latestOnline).payload none none 300
    (24 * hour) taskId ∧
      (∃ s ∈ db.servers, s.id = b.serverId) ∧ ∀ recent ∈ db.tasks, recent.serverId = b.serverId →
      recent.type = .agentUpdate → recent.live = false ∧
        (recent.target = some (b.api.release b.latestOnline).configured → recent.createdAt < db.now - hour) := by
  have none_ : db.tasks[db.tasks.length]? = none := List.getElem?_eq_none (Nat.le_refl _)
  simp only [UpdateEvent.queued, Db.queue] at h
  split at h
  · rename_i queues
    unfold Db.queueAutomaticUpdate at h
    split at h
    · rename_i wants
      unfold Db.insertTask at h
      split at h
      · rw [Option.getD_some, List.getElem?_concat_length] at h
        obtain ⟨s, hs, hw⟩ := List.any_eq_true.mp (Bool.and_eq_true_iff.mp wants).1
        simp only [Bool.and_eq_true, decide_eq_true_eq] at hw
        refine ⟨queues, (Option.some.inj h).symm, ⟨s, hs, hw.1.1⟩, fun recent hr hs htype => ?_⟩
        have none_recent := (Bool.and_eq_true_iff.mp wants).2
        simp only [Bool.not_eq_true', List.any_eq_false] at none_recent
        have := none_recent recent hr
        simp only [hs, htype, decide_true, Bool.true_and, Bool.or_eq_true, Bool.and_eq_true, decide_eq_true_eq, not_or,
          Bool.not_eq_true, not_and, Int.not_le] at this
        exact this
      · cases h.symm.trans none_
    · cases h.symm.trans none_
  · cases h.symm.trans none_

/-- Every update queued is still there, unless its server is gone. -/
def Remembered (u : Updates) : Prop :=
  ∀ t₀ ∈ u.queued, (t₀.type = .agentUpdate ∧ ∃ t ∈ u.db.tasks, t₀.Same t) ∨ ∀ s ∈ u.db.servers, s.id ≠ t₀.serverId

/-- A task queued is one of the tasks that the statement leaves. -/
theorem mem_of_queued (h : e.queued db = some t) : t ∈ (e.run p db).tasks := by
  cases e with
  | queue b taskId => exact List.mem_of_getElem? h
  | _ => cases h

theorem Remembered.step (h : Remembered u) (e : UpdateEvent) : Remembered (u.step p e) := by
  intro t₀ ht₀
  rcases List.mem_append.mp ht₀ with new | old
  · have new := Option.mem_toList.mp new
    refine Or.inl ⟨?_, t₀, mem_of_queued new, .refl t₀⟩
    cases e with
    | queue b taskId =>
      rw [(queued_queue new).2.1]
      rfl
    | _ => cases new
  · have evolves : Evolves _ u.db (u.step p e).db := e.evolves
    rcases h t₀ old with ⟨htype, t, ht, same⟩ | gone
    · rcases evolves.kept t ht with ⟨t', ht', same'⟩ | gone
      · exact Or.inl ⟨htype, t', ht', same.trans same'⟩
      · exact Or.inr (same.serverId ▸ gone)
    · refine Or.inr fun s hs heq => ?_
      obtain ⟨s₀, hs₀, hid⟩ := evolves.servers s hs
      exact gone s₀ hs₀ (hid.trans heq)

theorem limited_of_settled (h : Remembered u) (settled : Settled u e) : Limited u e := by
  intro t ht
  cases e with
  | queue b taskId =>
    obtain ⟨queues, rfl, ⟨s, hs', hid⟩, found⟩ := queued_queue ht
    constructor
    · intro t₀ ht₀ hs
      cases htype : decide (t₀.type = .agentUpdate) with
      | false => simp [ServerTask.activeUpdate, of_decide_eq_false htype]
      | true => simp [ServerTask.activeUpdate, (found t₀ ht₀ hs (of_decide_eq_true htype)).1]
    · intro t₀ ht₀ hs htarget
      -- the payload's version is the one looked for
      have target : t₀.target = some (b.api.release b.latestOnline).configured :=
        htarget.trans (congrArg some (settled queues))
      rcases h t₀ ht₀ with ⟨htype, t, ht, same⟩ | gone
      · have recent := (found t ht (same.serverId.trans hs) (same.type.trans htype)).2 ?_
        · rw [same.createdAt] at recent
          exact Int.add_lt_of_lt_sub_right recent
        · rw [ServerTask.target, same.payload]
          exact target
      · exact absurd (hid.trans hs.symm) (gone s hs')
  | _ => cases ht

theorem rate_limited {run : List UpdateEvent} (settled : (updateMachine p).Each Settled (.start db) run) :
    (updateMachine p).Each Limited (.start db) run :=
  settled.imp (I := Remembered) (fun _ e h _ => h.step e) (fun _ _ h settled => limited_of_settled h settled)
    fun _ h => by cases h

/-! ### Two runs -/

/-- Server 1, updated automatically. -/
def followed : Db := ⟨0, [{ linuxServer with autoUpdateAgent := true }], []⟩

/-- A heartbeat of version 1.3.0. -/
def beat (desired latestOnline : String) :
    Beat := ⟨.newHandler desired "https://releases.example" "default", latestOnline, 1, "1.3.0"⟩

theorem claims_plain : (Op.claimTasks 1).byVersion = false := rfl

/-- An automatic update is queued, claimed and fails. -/
def failing (b : Beat) : List UpdateEvent :=
  [.queue b 100, .other (.claimTasks 1) claims_plain,
    .other (.reportTaskResult "agent-token" 100 .failed "checksum mismatch") rfl]

theorem rate_limited_followed : (updateMachine plainPlatform).Each Limited (.start followed)
    (failing (beat "1.5.0" "") ++ [.other (.tick (61 * 60 * 1000000)) rfl, .queue (beat "1.5.0" "") 101]) :=
  rate_limited ⟨fun _ => by decide +kernel, trivial, trivial, trivial, fun _ => by decide +kernel, trivial⟩

/-- For examples: the statement queues an update to the version of one queued less than an hour ago. -/
def again (u : Updates) (e : UpdateEvent) : Bool :=
  (e.queued u.db).any fun t => u.queued.any fun t₀ => t₀.serverId = t.serverId && t₀.target = t.target && t.createdAt ≤
    t₀.createdAt + hour

theorem not_limited_of_again (h : again u e = true) : ¬Limited u e := by
  intro limited
  cases ht : e.queued u.db with
  | none => simp [again, ht] at h
  | some t =>
    rw [again, ht, Option.any_some] at h
    obtain ⟨t₀, ht₀, h⟩ := List.any_eq_true.mp h
    simp only [Bool.and_eq_true, decide_eq_true_eq] at h
    exact absurd h.2 (Int.not_le.mpr ((limited t ht).2 t₀ ht₀ h.1.1 h.1.2))

/-- The version wanted was discovered online: a minute after its update has failed it is queued again. -/
theorem rate_exceeded : ¬∀ p db run, (updateMachine p).Each Limited (.start db) run := by
  intro claimed
  have limited := (claimed plainPlatform followed (failing (beat "1.4.0" "1.5.0") ++ [.other (.tick 60000000) rfl] ++
    [.queue (beat "1.4.0" "1.5.0") 101])).last
  exact not_limited_of_again (by decide +kernel) limited

end UpdateRate
end DatrixOps
