import DatrixOps.Postgres.Alone
import DatrixOps.Agent.Enrollment
import DatrixOps.Theorems.SelfHostFrame

/-! SyncSelfHost, statement by statement and served alone, leaves of the servers what it leaves of a table. -/

namespace DatrixOps
namespace SelfHostSync
open Postgres Prog SelfHost

/-- The table lists the servers among the rows, each of which is under its key. -/
structure Lists (t : Servers Unit) (rows : Agent.Key → Option Agent.Row) : Prop where
  keyed : ∀ {k r}, rows k = some (.server r) → k = .server r.id
  mem : ∀ {x}, x ∈ t.rows ↔ ∃ k r, rows k = some (.server r) ∧ r.toServer = x

/-- Every row has a key that has been given out. -/
def Known (s : Scene Agent.Key Agent.Row Empty) : Prop := ∀ k, s.rows k ≠ none → s.used k

variable {p : Agent.Credentials} {t : Servers Unit} {rows rows' : Agent.Key →
  Option Agent.Row} {now : Time} {a : Agent.Response}
  {s s' : Scene Agent.Key Agent.Row Empty} {tokenHash : String}

/-! ### The table and the rows -/

theorem Lists.row (h : Lists t rows) {x : SelfHost.Server Unit} (mem : x ∈ t.rows) :
    ∃ r, rows (.server x.id) = some (.server r) ∧ r.toServer = x := by
  obtain ⟨k, r, row, rfl⟩ := h.mem.mp mem
  exact ⟨r, h.keyed row ▸ row, rfl⟩

theorem Lists.found (h : Lists t rows) {tx : Tx Agent.Key Agent.Row Empty} {snapshot : List (Agent.Key × Agent.Row)}
    (fresh : tx = .empty now) (finds : tx.Finds rows snapshot) {x : SelfHost.Server Unit} :
    x ∈ (Agent.servers.rows snapshot).map (·.2.toServer) ↔ x ∈ t.rows := by
  subst fresh
  rw [h.mem, List.mem_map]
  constructor
  · rintro ⟨⟨k, r⟩, mem, rfl⟩
    exact ⟨k, r, (finds.2 _ _).mp (Table.mem_rows.mp mem), rfl⟩
  · rintro ⟨k, r, row, rfl⟩
    exact ⟨(k, r), Table.mem_rows.mpr ((finds.2 _ _).mpr row), rfl⟩

/-- `LIMIT 1` takes one of the first rows in the order of the snapshot, and so in that of the table. -/
theorem choice_congr {found found' : List (SelfHost.Server Unit)} (same : ∀ x, x ∈ found ↔ x ∈ found') (choice : Nat) :
    ∃ choice', (first p tokenHash found)[choice % (first p tokenHash found).length]? =
      (first p tokenHash found')[choice' % (first p tokenHash found').length]? := by
  have firsts : ∀ x, x ∈ first p tokenHash found ↔ x ∈ first p tokenHash found' := fun x => by
    simp only [mem_first, same]
  cases chosen : (first p tokenHash found)[choice % (first p tokenHash found).length]? with
  | some x =>
    obtain ⟨choice', chosen'⟩ := exists_choice ((firsts x).mp (List.mem_of_getElem? chosen))
    exact ⟨choice', chosen'.symm⟩
  | none =>
    have none_ : first p tokenHash found = [] := by
      by_contra some_
      have lt := Nat.mod_lt choice (List.length_pos_iff.mpr some_)
      exact absurd (List.getElem?_eq_none_iff.mp chosen) (by omega)
    have none' : first p tokenHash found' = [] := List.eq_nil_iff_forall_not_mem.mpr fun x mem => by
      rw [← firsts, none_] at mem
      cases mem
    exact ⟨0, by rw [none']; rfl⟩

theorem Lists.insert (h : Lists t rows) {id : Uuid} (new : rows (.server id) = none) {r : Agent.Server}
    (fresh : r.id = id) (free : ∀ x ∈ t.rows, x.agentTokenHash ≠ r.agentTokenHash) :
    Lists (t.insert r.toServer) (Function.update rows (.server id) (some (.server r))) := by
  have absent : r.id ∉ t.rows.map (·.id) := fun mem => by
    obtain ⟨x, mem, same⟩ := List.mem_map.mp mem
    obtain ⟨r', row, -⟩ := h.row mem
    rw [same, fresh, new] at row
    cases row
  have inserted : (t.insert r.toServer).rows = t.rows ++ [r.toServer] := by
    rw [Servers.insert, dif_pos ⟨absent, free⟩]
  constructor
  · intro k r' row
    by_cases same : k = .server id
    · subst same
      rw [Function.update_self] at row
      cases row
      rw [fresh]
    · exact h.keyed ((Function.update_of_ne same ..).symm.trans row)
  · intro x
    rw [inserted, List.mem_append, List.mem_singleton, h.mem]
    constructor
    · rintro (⟨k, r', row, rfl⟩ | rfl)
      · have other : k ≠ .server id := fun same => by
          rw [same, new] at row
          cases row
        exact ⟨k, r', (Function.update_of_ne other ..).trans row, rfl⟩
      · exact ⟨_, r, Function.update_self .., rfl⟩
    · rintro ⟨k, r', row, rfl⟩
      by_cases same : k = .server id
      · subst same
        rw [Function.update_self] at row
        cases row
        exact Or.inr rfl
      · rw [Function.update_of_ne same] at row
        exact Or.inl ⟨k, r', row, rfl⟩

theorem Lists.update (h : Lists t rows) {id : Uuid} {r r' : Agent.Server} (row : rows (.server id) = some (.server r))
    {set : SelfHost.Server Unit → SelfHost.Server Unit} (same : ∀ x, (set x).id = x.id)
    (left : r'.toServer = set r.toServer) :
    Lists (t.update (fun x => x.id = id) set same) (Function.update rows (.server id) (some (.server r'))) := by
  have here : r.id = id := (Agent.Key.server.inj (h.keyed row)).symm
  have unmatched {k : Agent.Key} {r' : Agent.Server} (row : rows k = some (.server r'))
      (other : k ≠ .server id) : r'.id ≠ id :=
    fun hid => other (h.keyed row ▸ hid ▸ rfl)
  constructor
  · intro k x at_
    by_cases hk : k = .server id
    · subst hk
      rw [Function.update_self] at at_
      cases at_
      have kept : r'.id = r.id := left ▸ same r.toServer
      rw [kept, here]
    · exact h.keyed ((Function.update_of_ne hk ..).symm.trans at_)
  · intro x
    constructor
    · intro listed
      obtain ⟨y, was, rfl⟩ := List.mem_map.mp listed
      obtain ⟨k, r₀, row₀, rfl⟩ := h.mem.mp was
      by_cases hk : k = .server id
      · subst hk
        cases row.symm.trans row₀
        exact ⟨_, r', Function.update_self .., by rw [left, if_pos (decide_eq_true here)]⟩
      · refine ⟨k, r₀, (Function.update_of_ne hk ..).trans row₀, ?_⟩
        exact (if_neg fun hid => unmatched row₀ hk (of_decide_eq_true hid)).symm
    · rintro ⟨k, r₀, at_, rfl⟩
      by_cases hk : k = .server id
      · subst hk
        rw [Function.update_self] at at_
        cases at_
        refine List.mem_map.mpr ⟨r.toServer, h.mem.mpr ⟨_, r, row, rfl⟩, ?_⟩
        rw [if_pos (decide_eq_true here), left]
      · rw [Function.update_of_ne hk] at at_
        exact mem_update_of_mem (h.mem.mpr ⟨k, r₀, at_, rfl⟩) (decide_eq_false (unmatched at_ hk))

theorem Lists.delete (h : Lists t rows) {where_ : SelfHost.Server Unit → Bool}
    (left : ∀ k, rows' k = (rows k).filter fun row => !(Agent.servers.get row).any fun r => where_ r.toServer) :
    Lists (t.delete where_) rows' := by
  have at_ {k : Agent.Key} {r : Agent.Server} :
      rows' k = some (.server r) ↔ rows k = some (.server r) ∧ where_ r.toServer = false := by
    rw [left, Option.filter_eq_some_iff]
    simp [Agent.servers, Agent.Row.server?]
  constructor
  · intro k r row
    exact h.keyed (at_.mp row).1
  · intro x
    rw [mem_delete, h.mem]
    constructor
    · rintro ⟨⟨k, r, row, rfl⟩, spared⟩
      exact ⟨k, r, at_.mpr ⟨row, spared⟩, rfl⟩
    · rintro ⟨k, r, row, rfl⟩
      exact ⟨⟨k, r, (at_.mp row).1, rfl⟩, (at_.mp row).2⟩

/-! ### The statements -/

theorem alone_findSelfHost (lists : Lists t s.rows) {next : Option (SelfHost.Server Unit) → Agent.Handler}
    (h : (Agent.findSelfHost p tokenHash next).Alone now none s a s') :
    ∃ fails : Bool, ∃ choice, (next (if fails then none else
      (first p tokenHash t.rows)[choice % (first p tokenHash t.rows).length]?)).Alone now none s a s' := by
  obtain ⟨o, h⟩ := h
  beta_reduce at h
  split at h
  · exact ⟨true, 0, h⟩
  · obtain ⟨snapshot, finds, h⟩ := Alone.select h
    obtain ⟨choice, same⟩ := choice_congr (p := p) (fun x => lists.found rfl finds (x := x)) o.choice
    exact ⟨false, choice, same ▸ h⟩

/-- A synchronisation that finds no record. -/
theorem syncSelfHost_of_none {host : Host} {c : Circumstances Unit} {rawToken : String} {userId : Uuid}
    (hread : host.readSelfMonitorToken = some rawToken) (huser : host.firstUser = some userId)
    (found : (if c.fails .find then none else
      (first p (p.sha256Hex rawToken) t.rows)[c.choice % (first p (p.sha256Hex rawToken) t.rows).length]?) = none) :
    SelfHost.syncSelfHost p host c t = if c.fails .insert then t
      else t.insert (SelfHost.controlPlane c.newId c.defaults c.now userId (p.sha256Hex rawToken)) := by
  simp only [SelfHost.syncSelfHost, hread, huser]
  rw [found]

/-- A synchronisation that takes the row `existing`. -/
theorem syncSelfHost_of_some {host : Host} {c : Circumstances Unit} {rawToken : String} {userId : Uuid}
    {existing : SelfHost.Server Unit} (hread : host.readSelfMonitorToken = some rawToken)
    (huser : host.firstUser = some userId)
    (found : (if c.fails .find then none else
      (first p (p.sha256Hex rawToken) t.rows)[c.choice % (first p (p.sha256Hex rawToken) t.rows).length]?) =
        some existing) :
    SelfHost.syncSelfHost p host c t = if c.fails .update then t
      else if c.fails .delete then
        t.update (fun r => r.id = existing.id) (fun r => r.adopted userId (p.sha256Hex rawToken) c.now) fun _ => rfl
      else (t.update (fun r => r.id = existing.id) (fun r => r.adopted userId (p.sha256Hex rawToken) c.now)
        fun _ => rfl).delete
        fun r => r.id ≠ existing.id && r.selfHost p && r.status = some "offline" := by
  simp only [SelfHost.syncSelfHost, hread, huser]
  rw [found]

/-- What a synchronisation meets, by the failures of its `SELECT`, of the statement that writes the record and of the
    `DELETE`. -/
def circumstances (now : Time) (find write delete : Bool) (choice : Nat) (newId : Uuid) : Circumstances Unit where
  now := now
  fails
    | .find => find
    | .insert | .update => write
    | .delete => delete
  choice := choice
  newId := newId
  defaults := ()

theorem Known.update (known : Known s) {k : Agent.Key} {row : Option Agent.Row} {announced : List Empty} :
    Known ⟨Function.update s.rows k row, fun k' => s.used k' ∨ k' = k, announced⟩ := by
  intro k' present
  by_cases same : k' = k
  · exact Or.inr same
  · exact Or.inl (known k' fun none_ => present ((Function.update_of_ne same ..).trans none_))

/-- The record that a handler inserts is the one that the table gets. -/
theorem Lists.inserted (lists : Lists t s.rows) (known : Known s) {userId : Uuid} {k : Agent.Key} {row : Agent.Row}
    (keyed : Agent.controlPlane userId tokenHash now k = some row) (new : ¬s.used k)
    (free : ∀ k' row, s.rows k' = some row → (row.server?.any fun r => r.agentTokenHash = some tokenHash) = false) :
    ∃ id, Lists (t.insert (SelfHost.controlPlane id () now userId tokenHash))
      (Function.update s.rows k (some row)) := by
  cases k with
  | draw n => cases keyed
  | server id =>
    obtain ⟨r, rfl, left⟩ : ∃ r, row = .server r ∧ r.toServer = SelfHost.controlPlane id () now userId tokenHash :=
      ⟨_, (Option.some.inj keyed).symm, rfl⟩
    have vacant : s.rows (.server id) = none := of_not_not fun present => new (known _ present)
    refine ⟨id, left ▸ lists.insert vacant (congrArg (·.id) left) fun x mem same => ?_⟩
    obtain ⟨r', there, rfl⟩ := lists.row mem
    refine Bool.eq_false_iff.mp (free _ _ there) (decide_eq_true ?_)
    rw [same, left]
    rfl

/-- The unique index refuses the record to the table too. -/
theorem Lists.refused (lists : Lists t s.rows) {userId id : Uuid} {k : Agent.Key} {row : Agent.Row}
    (there : s.rows k = some row)
    (conflicts : (row.server?.any fun r => r.agentTokenHash = some tokenHash) = true) :
    t.insert (SelfHost.controlPlane id () now userId tokenHash) = t := by
  cases row with
  | draw => cases conflicts
  | server r =>
    exact dif_neg fun free => free.2 _ (lists.mem.mpr ⟨k, r, there, rfl⟩) (of_decide_eq_true conflicts)

/-- Served alone, the handler does to the servers what SyncSelfHost does to a table. -/
theorem syncSelfHost_refines {next : Agent.Handler} (lists : Lists t s.rows) (known : Known s)
    (h : (Agent.syncSelfHost p next).Alone now none s a s') :
    ∃ host c s₁, c.now = now ∧ Lists (SelfHost.syncSelfHost p host c t) s₁.rows ∧ Known s₁ ∧
      next.Alone now none s₁ a s' := by
  obtain ⟨o, h⟩ := h
  beta_reduce at h
  refine ⟨o.host, ?_⟩
  split at h
  · rename_i rawToken userId hread huser
    obtain ⟨missing, choice, h⟩ := alone_findSelfHost lists h
    cases found : if missing then none else
        (first p (p.sha256Hex rawToken) t.rows)[choice % (first p (p.sha256Hex rawToken) t.rows).length]? with
    | none =>
      have synced (write : Bool) (newId : Uuid) :=
        syncSelfHost_of_none (c := circumstances now missing write false choice newId)
        hread huser found
      rw [found] at h
      obtain ⟨o', h⟩ := h
      beta_reduce at h
      split at h
      · exact ⟨circumstances now missing true false choice 0, s, rfl, (synced true 0).symm ▸ lists, known, h⟩
      rcases Alone.start h with ⟨k, row, keyed, new, free, h⟩ | ⟨⟨k, row, view, conflicts⟩, h⟩
      · obtain ⟨id, inserted⟩ := lists.inserted known keyed new free
        refine ⟨circumstances now missing false false choice id, _, rfl, ?_, ?_, h⟩
        · rw [synced false id, Tx.apply_create_empty]
          exact inserted
        · rw [Tx.apply_create_empty]
          exact known.update
      · refine ⟨circumstances now missing false false choice 0, s, rfl, ?_, known, h⟩
        rw [synced false 0]
        exact (lists.refused view conflicts).symm ▸ lists
    | some existing =>
      have synced (write delete : Bool) :=
        syncSelfHost_of_some (c := circumstances now missing write delete choice 0) hread huser found
      rw [found] at h
      obtain ⟨o', h⟩ := h
      beta_reduce at h
      split at h
      · exact ⟨circumstances now missing true false choice 0, s, rfl, (synced true false).symm ▸ lists, known, h⟩
      rcases Alone.byKey (Alone.start h) with ⟨r, view, -, h⟩ | ⟨missed, h⟩
      · have updated := @Lists.update _ _ lists existing.id r (r.adopted userId (p.sha256Hex rawToken) now) view
          (fun r => r.adopted userId (p.sha256Hex rawToken) now) (fun _ => rfl) rfl
        obtain ⟨o'', h⟩ := h
        beta_reduce at h
        rw [Tx.apply_write_empty] at h
        split at h
        · exact ⟨circumstances now missing false true choice 0, _, rfl, (synced false true).symm ▸ updated,
            known.update, h⟩
        · obtain ⟨tx, used, h, -, grows, view⟩ := Alone.delete (Alone.start h)
          refine ⟨circumstances now missing false false choice 0, _, rfl,
            (synced false false).symm ▸ updated.delete view, ?_, h⟩
          intro k present
          refine grows k (known.update k fun none_ => present ?_)
          exact (view k).trans (congrArg (Option.filter _) none_)
      · have chosen : existing ∈ t.rows := by
          split at found
          · cases found
          · exact (mem_first.mp (List.mem_of_getElem? found)).1.1
        obtain ⟨r, row, same⟩ := lists.row chosen
        exact absurd (decide_eq_true (congrArg (·.id) same)) (Bool.eq_false_iff.mp (missed r row))
  · rename_i none_
    have idle : SelfHost.syncSelfHost p o.host (circumstances now false false false 0 0) t = t := by
      unfold SelfHost.syncSelfHost
      split
      · rename_i hread huser
        cases none_ _ _ hread huser
      · rfl
    exact ⟨_, s, rfl, idle.symm ▸ lists, known, h⟩

end SelfHostSync
end DatrixOps
