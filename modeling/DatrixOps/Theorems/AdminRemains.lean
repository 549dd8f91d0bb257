import DatrixOps.Postgres.Schedule
import DatrixOps.Admin.Membership

/-! An administrator always remains, and setup happens once. Who takes an administrator away holds the membership lock
    while counting, so the other administrator counted is still there at the commit. A setup that waited for the lock
    counts in a snapshot older than the lock; what stops the second one is the row of the settings, changed since. -/

namespace DatrixOps
namespace Admin
open Postgres Prog Auth

/-- `e` creates the user under key `k`. -/
def Creates (e : Commit Request Key Row Empty) (k : Key) : Prop :=
  ∃ u, e.tx.changes k = some ⟨none, some (.user u), true⟩

/-- There is an administrator. -/
def HasAdmin (rows : Key → Option Row) : Prop := ∃ k u, rows k = some (.user u) ∧ isAdmin u.role = true

/-- What a call may do to one row. -/
inductive Lawful (q : Request) (k : Key) : Change Row → Prop
  | lock : Lawful q k ⟨none, none, false⟩
  | create (u : User) (asked : ∃ providedToken req salt, q = .complete providedToken req salt)
      (superadmin : u.role = .superadmin) : Lawful q k ⟨none, some (.user u), true⟩
  | settings (st st' : Settings) (later : st.version < st'.version) :
      Lawful q k ⟨some (.settings st), some (.settings st'), false⟩
  | member (u : User) (new : Option Row) (kept : ∀ r, new = some r → ∃ u', r = .user u') :
      Lawful q k ⟨some (.user u), new, false⟩

/-- Rows stand under their keys; a commit changes rows lawfully, and users only under the lock of the
    membership. -/
def spec : Spec Request Key Row Empty Response where
  row
    | .user id, .user u => u.id = id
    | .settings, .settings _ => True
    | _, _ => False
  commit q _ tx := (∀ k c, tx.changes k = some c → Lawful q k c) ∧
    ∀ k c u, tx.changes k = some c → c.base = some (.user u) → tx.changes .membership ≠ none
  answer _ _ _ := True

variable {p : Setup} {q : Request} {past : List (Tx Key Row Empty)} {tx : Tx Key Row Empty} {k : Key}
  {base : Option Row}

/-- The keys of advisory locks have no rows. -/
def IsLock (k : Key) : Prop := k = .setup ∨ k = .membership

theorem row_lock (hk : IsLock k) (valid : ∀ r, base = some r → spec.row k r) : base = none := by
  cases base with
  | none => rfl
  | some r =>
    have h := valid r rfl
    rcases hk with rfl | rfl <;> cases r <;> cases h

/-! ### Every call is lawful -/

/-- What the transaction of a change of membership has done so far. -/
structure Member (id : Uuid) (tx : Tx Key Row Empty) : Prop where
  locked : tx.changes .membership = some ⟨none, none, false⟩
  only : ∀ k c, tx.changes k = some c → k = .membership ∨ k = .user id
  member : ∀ c, tx.changes (.user id) = some c → ∃ u, c.base = some (.user u) ∧ c.fresh = false ∧
    ∀ r, c.new = some r → ∃ u', r = .user u'

theorem Member.lock {id : Uuid} {now : Time} : Member id ((Tx.empty now).write .membership none none) := by
  refine ⟨Tx.changes_write, fun k c hc => ?_, fun c hc => ?_⟩
  · by_cases hk : k = .membership
    · exact Or.inl hk
    · rw [Tx.changes_write_of_ne hk] at hc
      cases hc
  · rw [Tx.changes_write_of_ne (by simp)] at hc
    cases hc

theorem Member.write {id : Uuid} {u : User} {new : Option User} (h : Member id tx)
    (hv : tx.view (.user id) base = some (.user u)) :
    Member id (tx.write (.user id) base (new.map users.put)) := by
  have users_only : ∀ r, new.map users.put = some r → ∃ u', r = .user u' := by
    intro r hr
    obtain ⟨u', -, rfl⟩ := Option.map_eq_some_iff.mp hr
    exact ⟨u', rfl⟩
  refine ⟨by rw [Tx.changes_write_of_ne (by simp)]; exact h.locked, fun k c hc => ?_, fun c hc => ?_⟩
  · by_cases hk : k = .user id
    · exact Or.inr hk
    · rw [Tx.changes_write_of_ne hk] at hc
      exact h.only k c hc
  · rw [Tx.changes_write] at hc
    obtain rfl := Option.some.inj hc
    cases hold : tx.changes (.user id) with
    | none =>
      rw [Tx.view_of_unchanged hold] at hv
      exact ⟨u, hv, rfl, users_only⟩
    | some c =>
      obtain ⟨u', hb, hf, -⟩ := h.member c hold
      exact ⟨u', hb, hf, users_only⟩

theorem Member.commit {id : Uuid} (h : Member id tx) : spec.commit q past tx := by
  refine ⟨fun k c hc => ?_, fun _ _ _ _ _ => by rw [h.locked]; simp⟩
  rcases h.only k c hc with rfl | rfl
  · obtain rfl := Option.some.inj (h.locked.symm.trans hc)
    exact .lock
  · obtain ⟨b, new, fresh⟩ := c
    obtain ⟨u, rfl, rfl, kept⟩ := h.member _ hc
    exact .member u new kept

theorem safe_writeMember {id : Uuid} {change : User → Option User} (keeps : ∀ u u', change u = some u' → u'.id = u.id)
    (h : Member id tx) : (writeMember id change).Safe spec q past (some tx) :=
  safe_byKey trivial fun _ u hv valid _ => ⟨fun u' hu' => (keeps u u' hu').trans valid, (h.write hv).commit, trivial⟩

theorem safe_changeMember {id : Uuid} {endangers : Role → Bool} {change : User → Option User}
    (keeps : ∀ u u', change u = some u' → u'.id = u.id) : (changeMember id endangers change).Safe spec q past none := by
  intro now
  refine ⟨fun h => (by cases h), fun base valid => ⟨fun h => (by cases h), fun new hnew => ?_⟩⟩
  obtain rfl : base = none := row_lock (Or.inr rfl) fun r hr => valid r hr
  obtain rfl : new = none := (Option.some.inj hnew).symm
  refine ⟨fun r h => (by cases h), ?_⟩
  refine safe_byKey trivial fun base u hv valid hid => ⟨fun u' hu' => Option.some.inj hu' ▸ valid, ?_⟩
  have selected : Member id (((Tx.empty now).write .membership none none).write (.user id) base
      ((some u).map users.put)) :=
    Member.lock.write hv
  dsimp only
  split
  · intro snapshot _ _
    dsimp only
    split
    · exact trivial
    · exact safe_writeMember keeps selected
  · exact safe_writeMember keeps selected

/-- What the transaction of a setup has done before it comes to the settings. -/
def founding (now : Time) (k : Key) (r : Row) : Tx Key Row Empty := ((Tx.empty now).write .setup none none).create k r

theorem changes_founding {now : Time} {k k' : Key} {r : Row} {c : Change Row}
    (h : (founding now k r).changes k' = some c) :
    (k' = k ∧ c = ⟨none, some r, true⟩) ∨ k' = .setup ∧ c = ⟨none, none, false⟩ := by
  by_cases hk : k' = k
  · subst hk
    rw [founding, Tx.changes_create] at h
    exact Or.inl ⟨rfl, (Option.some.inj h).symm⟩
  · rw [founding, Tx.changes_create_of_ne hk] at h
    by_cases hl : k' = .setup
    · subst hl
      rw [Tx.changes_write] at h
      exact Or.inr ⟨rfl, (Option.some.inj h).symm⟩
    · rw [Tx.changes_write_of_ne hl] at h
      cases h

theorem lawful_founding {now : Time} {id : Uuid} {u : User} {k : Key} {c : Change Row}
    (asked : ∃ providedToken req salt, q = .complete providedToken req salt) (superadmin : u.role = .superadmin)
    (h : (founding now (.user id) (.user u)).changes k = some c) : Lawful q k c ∧ ∀ u, c.base ≠ some (.user u) := by
  rcases changes_founding h with ⟨rfl, rfl⟩ | ⟨rfl, rfl⟩
  · exact ⟨.create u asked superadmin, fun _ hb => by cases hb⟩
  · exact ⟨.lock, fun _ hb => by cases hb⟩

theorem administrator_eq {req : CompleteRequest} {salt : String} {k : Key} {r : Row}
    (h : administrator p req salt k = some r) :
      ∃ id u, k = .user id ∧ r = .user u ∧ u.id = id ∧ u.role = .superadmin := by
  cases k with
  | user id => exact ⟨id, _, rfl, (Option.some.inj h).symm, rfl, rfl⟩
  | _ => cases h

theorem safe_complete {providedToken salt : String} {req : CompleteRequest} :
    (complete p providedToken req salt).Safe spec (.complete providedToken req salt) past none := by
  unfold complete
  dsimp only
  split
  · exact trivial
  split
  · exact trivial
  intro now snapshot _ valid
  refine ⟨fun h => (by cases h), fun base valid' => ⟨fun h => (by cases h), fun new hnew => ?_⟩⟩
  obtain rfl : base = none := row_lock (Or.inl rfl) fun r hr => valid' r hr
  obtain rfl : new = none := (Option.some.inj hnew).symm
  refine ⟨fun r h => (by cases h), ?_⟩
  split
  · exact trivial
  refine ⟨trivial, fun k r keyed _ => ?_⟩
  obtain ⟨id, u, rfl, rfl, hid, superadmin⟩ := administrator_eq keyed
  have lawful : ∀ k c, (founding now (.user id) (.user u)).changes k = some c →
      Lawful (.complete providedToken req salt) k c ∧ ∀ u, c.base ≠ some (.user u) :=
    fun k c hc => lawful_founding ⟨_, _, _, rfl⟩ superadmin hc
  refine ⟨hid, ?_⟩
  split
  · exact ⟨⟨fun k c hc => (lawful k c hc).1, fun k c u hc hb => absurd hb ((lawful k c hc).2 u)⟩, trivial⟩
  · rename_i seen _
    refine ⟨fun h => (by cases h), fun base valid => ⟨fun _ => trivial, fun new hnew => ?_⟩⟩
    dsimp only at hnew
    split at hnew
    · rename_i hold
      obtain rfl : base = some (.settings seen) := hold
      obtain rfl := Option.some.inj hnew
      refine ⟨fun r hr => by obtain rfl := Option.some.inj hr; trivial, ⟨fun k c hc => ?_,
        fun k c u hc hb => ?_⟩, trivial⟩
      · by_cases hk : k = .settings
        · subst hk
          rw [Tx.changes_write] at hc
          obtain rfl := Option.some.inj hc
          exact .settings seen _ (Nat.lt_succ_self _)
        · rw [Tx.changes_write_of_ne hk] at hc
          exact (lawful k c hc).1
      · by_cases hk : k = .settings
        · subst hk
          rw [Tx.changes_write] at hc
          obtain rfl := Option.some.inj hc
          cases hb
        · rw [Tx.changes_write_of_ne hk] at hc
          exact absurd hb ((lawful k c hc).2 u)
    · cases hnew

theorem serves (q : Request) : (serve p q).Safe spec q [] none := by
  cases q with
  | complete providedToken req salt =>
    show (complete p providedToken req salt).Safe spec _ _ _
    exact safe_complete
  | updateUserRole id role =>
    show (updateUserRole id role).Safe spec _ _ _
    exact safe_changeMember fun u u' h => Option.some.inj h ▸ rfl
  | deleteUser id =>
    show (deleteUser id).Safe spec _ _ _
    exact safe_changeMember fun u u' h => by cases h

/-! ### What stays true between the statements -/

/-- The settings are there, users are created for one completed setup, and an administrator who was once there, or
    whom a setup has created, has left one behind. -/
structure Founded (rows₀ : Key → Option Row) (w : World Request Key Row Empty) : Prop where
  settings : ∃ st, w.rows .settings = some (.settings st)
  settles : ∀ e ∈ w.log, ∀ k, Creates e k → e.tx.changes .settings ≠ none
  once : ∀ e ∈ w.log, ∀ e' ∈ w.log, ∀ k k', Creates e k → Creates e' k' → e.session = e'.session ∧ k = k'
  admins : (HasAdmin rows₀ ∨ ∃ e ∈ w.log, ∃ k, Creates e k) → HasAdmin w.rows

/-- The contract of the calls: the founding and the administrators hold of every world. -/
def membership (rows₀ : Key → Option Row) : Contract Request Key Row Empty Bool Response where
  spec := spec
  inv := Founded rows₀
  admits _ _ := True
  rely _ _ _ := True
  reply _ _ := True
  answer _ _ _ _ := True

variable {rows₀ : Key → Option Row} {i : Nat} {w w' : World Request Key Row Empty}

theorem holds_answer {a : Response} {tx : Option (Tx Key Row Empty)} :
    (Prog.answer a : Handler).Holds (membership rows₀) i q tx w := fun _ _ _ _ => trivial

theorem holds_rollback {a : Response} :
    (Prog.rollback (.answer a) : Handler).Holds (membership rows₀) i q (some tx) w :=
  fun _ _ => holds_answer

/-- A commit that creates nobody, leaves the settings alone and takes no last administrator away. -/
theorem Founded.keep {e : Commit Request Key Row Empty} (h : Founded rows₀ w) (creates : ∀ k, ¬Creates e k)
    (settings : e.tx.changes .settings = none) (admins : HasAdmin w.rows → HasAdmin (w.commit e).rows) :
    Founded rows₀ (w.commit e) := by
  refine ⟨?_, fun e' he' k hk => ?_, fun e' he' e'' he'' k k' hk hk' => ?_,
    fun once => admins (h.admins (once.imp_right ?_))⟩
  · obtain ⟨st, hst⟩ := h.settings
    exact ⟨st, (World.rows_commit_of_unchanged settings).trans hst⟩
  · rcases List.mem_cons.mp he' with rfl | he'
    · exact absurd hk (creates k)
    · exact h.settles e' he' k hk
  · rcases List.mem_cons.mp he' with rfl | he'
    · exact absurd hk (creates k)
    · rcases List.mem_cons.mp he'' with rfl | he''
      · exact absurd hk' (creates k')
      · exact h.once e' he' e'' he'' k k' hk hk'
  · rintro ⟨e', he', k, hk⟩
    rcases List.mem_cons.mp he' with rfl | he'
    · exact absurd hk (creates k)
    · exact ⟨e', he', k, hk⟩

/-! ### Membership -/

/-- There is an administrator other than user `id`. -/
def OtherAdmin (id : Uuid) (w : World Request Key Row Empty) : Prop :=
  ∃ k u, k ≠ .user id ∧ w.rows k = some (.user u) ∧ isAdmin u.role = true

/-- Nobody else takes an administrator away while the lock is held. -/
theorem OtherAdmin.move {id : Uuid} (h : OtherAdmin id w) (locked : tx.changes .membership ≠ none)
    (move : (membership rows₀).Moves i (some tx) w w') : OtherAdmin id w' := by
  obtain ⟨k, u, hk, hu, hadmin⟩ := h
  cases move with
  | commit e other apart base ok =>
    cases hc : e.tx.changes k with
    | none => exact ⟨k, u, hk, (World.rows_commit_of_unchanged hc).trans hu, hadmin⟩
    | some c =>
      obtain ⟨c', hc'⟩ := Option.ne_none_iff_exists'.mp locked
      exact absurd (apart tx rfl .membership c' hc') (ok.2 k c u hc ((base k c hc).trans hu))

theorem exists_ne_of_nodup {K T : Type} {l : List (K × T)} (k : K) (nodup : (l.map Prod.fst).Nodup) (h : 1 < l.length) :
    ∃ x ∈ l, x.1 ≠ k := by
  match l, nodup, h with
  | x :: y :: rest, nodup, _ =>
    by_cases hx : x.1 = k
    · refine ⟨y, by simp, fun hy => ?_⟩
      exact (List.nodup_cons.mp nodup).1 (List.mem_map.mpr ⟨y, by simp, hy.trans hx.symm⟩)
    · exact ⟨x, by simp, hx⟩

/-- Who counts two administrators has seen another. -/
theorem Member.counted {id : Uuid} {snapshot : List (Key × Row)} (h : Member id tx) (seen : w.Snapshot tx snapshot)
    (count : 1 < ((users.rows snapshot).filter fun u => isAdmin u.2.role).length) : OtherAdmin id w := by
  have nodup : (((users.rows snapshot).filter fun u => isAdmin u.2.role).map Prod.fst).Nodup :=
    (Table.nodup_rows seen.1).sublist (List.filter_sublist.map Prod.fst)
  obtain ⟨⟨k, u⟩, hmem, hk⟩ := exists_ne_of_nodup (.user id) nodup count
  obtain ⟨hmem, hadmin⟩ := List.mem_filter.mp hmem
  have hv := (seen.2 k _).mp (Table.mem_rows.mp hmem)
  have untouched : tx.changes k = none := by
    refine Option.eq_none_iff_forall_ne_some.mpr fun c hc => ?_
    rcases h.only k c hc with rfl | rfl
    · rw [Tx.view_of_changes h.locked] at hv
      cases hv
    · exact hk rfl
  exact ⟨k, u, hk, (Tx.view_of_unchanged untouched).symm.trans hv, hadmin⟩

/-- The transaction has locked user `id`, and has made of the row what `new` says. -/
structure Locked (id : Uuid) (u : User) (new : Option User) (tx : Tx Key Row Empty) : Prop where
  member : Member id tx
  row : tx.changes (.user id) = some ⟨some (.user u), new.map users.put, false⟩

theorem Locked.first {id : Uuid} {now : Time} {u : User} {new : Option User} {base : Option Row}
    (hv : ((Tx.empty now).write .membership none none : Tx Key Row Empty).view (.user id) base = some (.user u)) :
    Locked id u new (((Tx.empty now).write .membership none none).write (.user id) base (new.map users.put)) := by
  have untouched : ((Tx.empty now).write .membership none none : Tx Key Row Empty).changes (.user id) = none :=
    Tx.changes_write_of_ne (by simp)
  refine ⟨Member.lock.write hv, ?_⟩
  rw [Tx.view_of_unchanged untouched] at hv
  rw [Tx.changes_write, untouched, hv]

theorem Locked.again {id : Uuid} {u u' : User} {base : Option Row} (new : Option User) (h : Locked id u (some u) tx)
    (hv : tx.view (.user id) base = some (.user u')) :
      u' = u ∧ Locked id u new (tx.write (.user id) base (new.map users.put)) := by
  have same : u' = u := by
    rw [Tx.view_of_changes h.row] at hv
    cases hv
    rfl
  refine ⟨same, h.member.write hv, ?_⟩
  rw [Tx.changes_write, h.row]

/-- The commit leaves an administrator: another one, or the user, who then was none or still is one. -/
theorem Locked.founded {id : Uuid} {u : User} {new : Option User} (h : Locked id u new tx) (founded : Founded rows₀ w)
    (base : ∀ k c, tx.changes k = some c → c.base = w.rows k)
    (spared : OtherAdmin id w ∨ (isAdmin u.role = true → ∃ u', new = some u' ∧ isAdmin u'.role = true)) :
    Founded rows₀ (w.commit ⟨i, q, tx⟩) := by
  refine founded.keep (fun k hk => ?_) ?_ fun had => ?_
  · obtain ⟨u', hc⟩ := hk
    rcases h.member.only k _ hc with rfl | rfl
    · cases h.member.locked.symm.trans hc
    · cases h.row.symm.trans hc
  · refine Option.eq_none_iff_forall_ne_some.mpr fun c hc => ?_
    rcases h.member.only _ c hc with hk | hk <;> cases hk
  · -- a row that holds a user and is not this one's is not changed
    have kept : ∀ k u, k ≠ .user id → w.rows k = some (.user u) → (w.commit ⟨i, q, tx⟩).rows k = some (.user u) := by
      intro k u hk hu
      refine (World.rows_commit_of_unchanged (Option.eq_none_iff_forall_ne_some.mpr fun c hc => ?_)).trans hu
      rcases h.member.only k c hc with rfl | rfl
      · have hb := base _ _ h.member.locked
        rw [hu] at hb
        cases hb
      · exact hk rfl
    rcases spared with ⟨k, u', hk, hu', hadmin⟩ | stays
    · exact ⟨k, u', kept k u' hk hu', hadmin⟩
    · obtain ⟨k, u', hu', hadmin⟩ := had
      by_cases hk : k = .user id
      · subst hk
        obtain rfl : u = u' := by
          have hb := base _ _ h.row
          rw [hu'] at hb
          cases hb
          rfl
        obtain ⟨new', rfl, hadmin'⟩ := stays hadmin
        exact ⟨.user id, new', World.rows_commit_of_changes (e := ⟨i, q, tx⟩) h.row, hadmin'⟩
      · exact ⟨k, u', kept k u' hk hu', hadmin⟩

theorem holds_writeMember {id : Uuid} {u : User} {change : User → Option User} (locked : Locked id u (some u) tx)
    (good : (membership rows₀).Good w)
    (spared : OtherAdmin id w ∨ (isAdmin u.role = true → ∃ u', change u = some u' ∧ isAdmin u'.role = true)) :
    (writeMember id change).Holds (membership rows₀) i q (some tx) w := by
  refine holds_byKey (J := fun w => OtherAdmin id w ∨ _) good spared
    (fun _ _ _ h move => h.imp_left fun h => h.move (by rw [locked.member.locked]; simp) move)
    (fun _ _ _ => holds_rollback) fun w u' good spared hv _ _ => ?_
  obtain ⟨rfl, written⟩ := locked.again (change u') hv
  refine Contract.always good spared (fun _ _ _ h move => h.imp_left fun h =>
    h.move (by rw [written.member.locked]; simp) move)
    fun w good spared base _ _ _ => ⟨written.founded good.2 base spared, holds_answer⟩

theorem holds_changeMember {id : Uuid} {endangers : Role → Bool} {change : User → Option User}
    (spares : ∀ u, endangers u.role = false → isAdmin u.role = true → ∃ u', change u = some u' ∧ isAdmin u'.role = true)
    (good : (membership rows₀).Good w) : (changeMember id endangers change).Holds (membership rows₀) i q none w := by
  refine Contract.always good trivial (fun _ _ _ _ _ => trivial) fun w good _ now => ?_
  refine Contract.always good trivial (fun _ _ _ _ _ => trivial) fun w good _ => ⟨fun h => (by cases h), fun valid =>
    ⟨fun h => (by cases h), fun new hnew => ?_⟩⟩
  have unlocked : w.rows .membership = none := row_lock (Or.inr rfl) fun r hr => good.1 _ r hr
  obtain rfl : new = none := (Option.some.inj hnew).symm.trans unlocked
  rw [unlocked]
  refine holds_byKey good trivial (fun _ _ _ _ _ => trivial) (fun _ _ _ => holds_rollback) fun w u good _ hv _ _ => ?_
  have locked : Locked id u (some u) (((Tx.empty now).write .membership none none).write (.user id) (w.rows (.user id))
      ((some u).map users.put)) := Locked.first hv
  dsimp only
  split
  · refine Contract.always good trivial (fun _ _ _ _ _ => trivial) fun w good _ snapshot seen _ => ?_
    dsimp only
    split
    · exact holds_rollback
    · rename_i count
      exact holds_writeMember locked good (Or.inl (locked.member.counted seen (Nat.not_le.mp count)))
  · rename_i spared
    exact holds_writeMember locked good (Or.inr (spares u (Bool.eq_false_iff.mpr spared)))

/-! ### Setup -/

/-- If the settings are still at version `v`, no setup has created a user. -/
def Awaiting (v : Nat) (w : World Request Key Row Empty) : Prop :=
  ∃ st, w.rows .settings = some (.settings st) ∧ v ≤ st.version ∧ (st.version = v → ∀ e ∈ w.log, ∀ k, ¬Creates e k)

theorem Awaiting.move {v : Nat} (h : Awaiting v w) (move : (membership rows₀).Moves i (some tx) w w') :
    Awaiting v w' := by
  obtain ⟨st, hst, hle, none_yet⟩ := h
  cases move with
  | commit e other apart base ok admitted known good =>
    cases hc : e.tx.changes .settings with
    | none =>
      refine ⟨st, (World.rows_commit_of_unchanged hc).trans hst, hle, fun hv e' he' k hk => ?_⟩
      rcases List.mem_cons.mp he' with rfl | he'
      · exact good.2.settles e' (List.mem_cons_self ..) k hk hc
      · exact none_yet hv e' he' k hk
    | some c =>
      -- who changes the settings leaves a later version
      have lawful := ok.1 .settings c hc
      have hb := base .settings c hc
      cases lawful with
      | settings st₀ st' later =>
        obtain rfl : st = st₀ := by
          rw [hst] at hb
          cases hb
          rfl
        exact ⟨st', World.rows_commit_of_changes hc, hle.trans later.le,
          fun hv => absurd (hv ▸ later) (Nat.not_lt.mpr hle)⟩
      | _ =>
        rw [hst] at hb
        cases hb

/-- The first snapshot of a setup that finds no users. -/
theorem Founded.awaiting {now : Time} {snapshot : List (Key × Row)} {st : Settings} (h : Founded rows₀ w)
    (seen : w.Snapshot (.empty now) snapshot) (hst : w.rows .settings = some (.settings st))
    (empty : (users.rows snapshot).length = 0) : Awaiting st.version w := by
  refine ⟨st, hst, Nat.le_refl _, fun _ e he k hk => ?_⟩
  obtain ⟨k', u, hu, -⟩ := h.admins (Or.inr ⟨e, he, k, hk⟩)
  have hmem : (k', u) ∈ users.rows snapshot := Table.mem_rows.mpr ((seen.2 k' _).mpr hu)
  rw [List.length_eq_zero_iff.mp empty] at hmem
  cases hmem

theorem Founded.first {now : Time} {id : Uuid} {u : User} {st st' : Settings}
    (hst : w.rows .settings = some (.settings st)) (awaiting : Awaiting st.version w)
    (superadmin : u.role = .superadmin) :
    Founded rows₀ (w.commit ⟨i, q, (founding now (.user id) (.user u)).write .settings (some (.settings st))
      (some (.settings st'))⟩) := by
  have none_yet : ∀ e ∈ w.log, ∀ k, ¬Creates e k := by
    obtain ⟨st₀, hst₀, -, none_yet⟩ := awaiting
    obtain rfl : st₀ = st := by
      rw [hst] at hst₀
      cases hst₀
      rfl
    exact none_yet rfl
  generalize htx : (founding now (.user id) (.user u)).write .settings (some (.settings st)) (some (.settings st')) = tx
  have settings : tx.changes .settings ≠ none := by
    rw [← htx, Tx.changes_write]
    exact Option.some_ne_none _
  have created : tx.changes (.user id) = some ⟨none, some (.user u), true⟩ := by
    rw [← htx, Tx.changes_write_of_ne (by simp), founding, Tx.changes_create]
  have only : ∀ k, Creates ⟨i, q, tx⟩ k → k = .user id := by
    rintro k ⟨u', hc⟩
    rw [← htx] at hc
    by_cases hk : k = .settings
    · subst hk
      rw [Tx.changes_write] at hc
      cases hc
    · rw [Tx.changes_write_of_ne hk] at hc
      rcases changes_founding hc with ⟨rfl, -⟩ | ⟨-, hc⟩
      · rfl
      · cases hc
  refine ⟨?_, fun e he k hk => ?_, fun e he e' he' k k' hk hk' => ?_, fun _ => ?_⟩
  · exact ⟨st', World.rows_commit_of_changes (e := ⟨i, q, tx⟩) (by rw [← htx, Tx.changes_write])⟩
  · rcases List.mem_cons.mp he with rfl | he
    · exact settings
    · exact absurd hk (none_yet e he k)
  · rcases List.mem_cons.mp he with rfl | he
    · rcases List.mem_cons.mp he' with rfl | he'
      · exact ⟨rfl, (only k hk).trans (only k' hk').symm⟩
      · exact absurd hk' (none_yet e' he' k')
    · exact absurd hk (none_yet e he k)
  · exact ⟨.user id, u, World.rows_commit_of_changes (e := ⟨i, q, tx⟩) created, by rw [superadmin]; rfl⟩

theorem lookup_of_snapshot {now : Time} {snapshot : List (Key × Row)} {st : Settings}
    (seen : w.Snapshot (.empty now) snapshot)
    (hst : w.rows .settings = some (.settings st)) : (Admin.settings.rows snapshot).lookup .settings = some st := by
  cases hl : (Admin.settings.rows snapshot).lookup .settings with
  | none =>
    have hmem : (Key.settings, st) ∈ Admin.settings.rows snapshot := Table.mem_rows.mpr ((seen.2 .settings _).mpr hst)
    simpa using List.lookup_eq_none_iff.mp hl _ hmem
  | some st' =>
    obtain ⟨l₁, l₂, hrows, -⟩ := List.lookup_eq_some_iff.mp hl
    have hmem : (Key.settings, st') ∈ Admin.settings.rows snapshot := by
      rw [hrows]
      simp
    have hst' : w.rows .settings = some (.settings st') := (seen.2 .settings _).mp (Table.mem_rows.mp hmem)
    rw [hst] at hst'
    cases hst'
    rfl

theorem holds_complete {providedToken salt : String} {req : CompleteRequest} (good : (membership rows₀).Good w) :
    (complete p providedToken req salt).Holds (membership rows₀) i q none w := by
  unfold complete
  dsimp only
  split
  · exact holds_answer
  split
  · exact holds_answer
  refine Contract.always good trivial (fun _ _ _ _ _ => trivial) fun w good _ now => ?_
  refine Contract.always good trivial (fun _ _ _ _ _ => trivial) fun w good _ snapshot seen _ => ?_
  obtain ⟨st, hst⟩ := good.2.settings
  have stable : ∀ {tx : Tx Key Row Empty} w w', (membership rows₀).Good w →
    ((users.rows snapshot).length = 0 → Awaiting st.version w) →
      (membership rows₀).Moves i (some tx) w w' → (users.rows snapshot).length = 0 → Awaiting st.version w' :=
    fun w w' _ h move empty => (h empty).move move
  refine Contract.always good (good.2.awaiting seen hst) stable fun w good awaiting => ⟨fun h => (by cases h), fun _ =>
    ⟨fun h => (by cases h), fun new hnew => ?_⟩⟩
  have unlocked : w.rows .setup = none := row_lock (Or.inl rfl) fun r hr => good.1 _ r hr
  obtain rfl : new = none := (Option.some.inj hnew).symm.trans unlocked
  rw [unlocked]
  split
  · exact holds_rollback
  rename_i some_users
  have awaiting := awaiting (Decidable.not_not.mp some_users)
  refine Contract.always good awaiting (fun _ _ _ h move => h.move move) fun w good awaiting =>
    ⟨holds_rollback, fun k r keyed _ _ _ => ?_⟩
  obtain ⟨id, u, rfl, rfl, -, superadmin⟩ := administrator_eq keyed
  rw [lookup_of_snapshot seen hst]
  refine Contract.always good awaiting (fun _ _ _ h move => h.move move) fun w good awaiting =>
      ⟨fun h => (by cases h), fun _ =>
    ⟨fun _ => holds_rollback, fun new hnew => ?_⟩⟩
  dsimp only at hnew
  split at hnew
  · rename_i same
    have same : w.rows .settings = some (.settings st) := same
    obtain rfl := Option.some.inj hnew
    rw [same]
    refine Contract.always good awaiting (fun _ _ _ h move => h.move move) fun w good awaiting base _ _ _ =>
      ⟨?_, holds_answer⟩
    have unchanged : some (.settings st) = w.rows .settings := base .settings _ Tx.changes_write
    exact .first unchanged.symm awaiting superadmin
  · cases hnew

theorem holds (i : Nat) (q : Request) (w : World Request Key Row Empty) (good : (membership rows₀).Good w)
    (_ : w.past i = []) : (serve p q).Holds (membership rows₀) i q none w := by
  cases q with
  | complete providedToken req salt =>
    show (complete p providedToken req salt).Holds _ _ _ _ _
    exact holds_complete good
  | updateUserRole id role =>
    show (updateUserRole id role).Holds _ _ _ _ _
    refine holds_changeMember (fun u spared hadmin => ⟨_, rfl, ?_⟩) good
    simpa [hadmin] using spared
  | deleteUser id =>
    show (deleteUser id).Holds _ _ _ _ _
    exact holds_changeMember (fun u spared hadmin => absurd hadmin (Bool.eq_false_iff.mp spared)) good

/-- A well-formed database with its row of settings, as the migrations leave it. -/
structure Installed (rows₀ : Key → Option Row) : Prop where
  valid : ∀ k r, rows₀ k = some r → spec.row k r
  settings : ∃ st, rows₀ .settings = some (.settings st)

/-- In every interleaving the setups together create at most one user, and once a setup has created one, or there has
    been an administrator, there is one in every state. -/
theorem admin_remains {s : State Request Key Row Empty Bool Response} (installed : Installed rows₀)
    (h : Reachable (serve p) rows₀ s) :
    (∀ e ∈ s.log, ∀ e' ∈ s.log, ∀ k k', Creates e k → Creates e' k' → e.session = e'.session ∧ k = k') ∧
    ((HasAdmin rows₀ ∨ ∃ e ∈ s.log, ∃ k, Creates e k) → HasAdmin s.rows) := by
  have founded : Founded rows₀ s.world := by
    refine (h.upheld (C := membership rows₀) serves holds (fun _ _ => trivial) (fun _ _ _ => trivial)
      (fun _ _ => trivial)
      installed.valid ⟨installed.settings, ?_, ?_, ?_⟩).2.inv
    · exact fun _ he => by cases he
    · exact fun _ he => by cases he
    · rintro (had | ⟨_, he, -⟩)
      · exact had
      · cases he
  exact ⟨founded.once, founded.admins⟩

/-! ### A run -/

/-- For examples: every time zone and public URL is valid, and only ASCII has case. -/
def plainSetup : Setup where
  setupToken := "0123456789abcdef0123456789abcdef"
  loadLocation _ := true
  validatePublicURL _ := none
  toLower := .asciiOnly
  sqlLower := .asciiOnly
  bcrypt password _ := password

/-- The settings of a new installation. -/
def freshSettings : Settings := ⟨"DatrixOps", "UTC", "", false, none, 0, 0⟩

/-- It has no other row. -/
def freshInstallation : List (Key × Row) := [(.settings, .settings freshSettings)]

theorem freshInstallation_installed : Installed fun k => freshInstallation.lookup k := by
  refine ⟨fun k r h => ?_, ⟨freshSettings, rfl⟩⟩
  simp only [freshInstallation, List.lookup_cons, List.lookup_nil] at h
  split at h
  · rename_i hk
    obtain rfl := Option.some.inj h
    obtain rfl := beq_iff_eq.mp hk
    trivial
  · cases h

/-- The setup that makes the first administrator. -/
def setupRequest (username : String) : Request :=
  .complete plainSetup.setupToken ⟨username, "", "twelve letters", "DatrixOps", "UTC", "https://example.org"⟩ ""

/-- Two setups take their snapshot before the first has the lock; then its administrator is to be deleted. -/
def setupTwice : List (Move Request Key Bool) :=
  [.arrive 0 (setupRequest "alice"), .arrive 1 (setupRequest "bob"), .next 0, .next 0, .next 1, .next 1,
    .next 0, .insert 0 (.user 1), .next 0, .next 0, .next 0, .next 1, .insert 1 (.user 2), .next 1, .next 1, .next 1,
    .arrive 2 (.deleteUser 1)] ++ List.replicate 7 (.next 2)

theorem admin_remains_fresh : ∃ s, Reachable (serve plainSetup) (fun k => freshInstallation.lookup k) s ∧
    (∃ tx, s.sessions 0 = some ⟨setupRequest "alice", .answered (.configured (.user 1)), tx⟩) ∧
    (∃ tx, s.sessions 1 = some ⟨setupRequest "bob", .answered .internalError, tx⟩) ∧
    (∃ tx, s.sessions 2 = some ⟨.deleteUser 1, .answered .errLastAdmin, tx⟩) ∧
    (∀ e ∈ s.log, ∀ e' ∈ s.log, ∀ k k', Creates e k → Creates e' k' → e.session = e'.session ∧ k = k') ∧
    ((HasAdmin (fun k => freshInstallation.lookup k) ∨ ∃ e ∈ s.log, ∃ k, Creates e k) → HasAdmin s.rows) := by
  obtain ⟨s, reachable, served⟩ := Listed.reachable_of_check (serve plainSetup) 0 freshInstallation setupTwice
    (fun s => s.served 0 = some (setupRequest "alice", .configured (.user 1)) ∧
      s.served 1 = some (setupRequest "bob", .internalError) ∧ s.served 2 = some (.deleteUser 1, .errLastAdmin))
    (by decide +kernel)
  obtain ⟨first, second, third⟩ := of_decide_eq_true served
  exact ⟨s.state, reachable, Listed.sessions_of_served first, Listed.sessions_of_served second,
    Listed.sessions_of_served third, admin_remains freshInstallation_installed reachable⟩

end Admin
end DatrixOps
