import DatrixOps.Postgres.ReadCommitted

/-! A request served while the other sessions rest. What a command does is then settled, but for what the
    outside answers, the order of the rows in a snapshot and the keys that are generated. -/

namespace Postgres
open Relation

/-- What all sessions see: the committed rows, the keys that have been given out, and what was announced,
    oldest first. -/
structure Scene (K R E : Type) where
  rows : K → Option R
  used : K → Prop
  announced : List E

variable {Q K R T E I A : Type}

def State.scene (s : State Q K R E I A) : Scene K R E :=
  ⟨s.rows, s.used, s.log.reverse.flatMap fun c => c.tx.events⟩

/-- A snapshot of the rows `rows` in the transaction. -/
def Tx.Finds (tx : Tx K R E) (rows : K → Option R) (snapshot : List (K × R)) : Prop :=
  (snapshot.map Prod.fst).Nodup ∧ ∀ k r, (k, r) ∈ snapshot ↔ tx.view k (rows k) = some r

/-- Every other session is at rest: it is over, or not begun, and has no transaction open. -/
structure State.Resting (s : State Q K R E I A) (i : Nat) : Prop where
  idle : ∀ {j q prog tx}, j ≠ i → ¬s.At j q prog tx
  closed : ∀ {j tx}, j ≠ i → ¬s.Open j tx

theorem State.Resting.not_locked {s : State Q K R E I A} {i : Nat} (h : s.Resting i) (k : K) : ¬s.Locked i k :=
  fun ⟨_, _, _, other, open_, _⟩ => h.closed other open_

theorem State.Resting.only {s : State Q K R E I A} {i j : Nat} {q : Q} {prog : Prog K R E I A} {tx : Option (Tx K R E)}
    (h : s.Resting i) (here : s.At j q prog tx) : j = i :=
  of_not_not fun other => h.idle other here

theorem State.Resting.put {s t : State Q K R E I A} {i : Nat} {session : Session Q K R E I A} (h : s.Resting i)
    (put : t.sessions = Function.update s.sessions i (some session)) : t.Resting i := by
  have kept {j : Nat} (other : j ≠ i) : t.sessions j = s.sessions j := put ▸ Function.update_of_ne other _ _
  constructor
  · intro j q prog tx other here
    exact h.idle other ((kept other).symm.trans here)
  · rintro j tx other ⟨session', here, open_⟩
    exact h.closed other ⟨session', (kept other).symm.trans here, open_⟩

theorem State.scene_commit {s : State Q K R E I A} {i : Nat} {q : Q} {tx : Tx K R E} {next : Prog K R E I A} :
    State.scene { s.put i ⟨q, .running next, none⟩ with rows := tx.apply s.rows, log := ⟨i, q, tx⟩ :: s.log } =
      ⟨tx.apply s.rows, s.used, s.scene.announced ++ tx.events⟩ := by
  simp only [scene, put, List.reverse_cons, List.flatMap_append, List.flatMap_singleton]

variable [DecidableEq K]

/-- Served alone at `now`, with the transaction open if any, the program may respond `a` and leave the
    scene `s'`. -/
def Prog.Alone (now : Time) : Prog K R E I A → Option (Tx K R E) → Scene K R E → A → Scene K R E → Prop
  | .answer a', _, s, a, s' => a' = a ∧ s = s'
  | .start next, none, s, a, s' => (next now).Alone now (some (.empty now)) s a s'
  | .clock next, tx, s, a, s' => (next now).Alone now tx s a s'
  | .ask next, tx, s, a, s' => ∃ reply, (next reply).Alone now tx s a s'
  | .scan next, some tx, s, a, s' => ∃ snapshot, tx.Finds s.rows snapshot ∧ (next snapshot).Alone now (some tx) s a s'
  | .access _ k f next, some tx, s, a, s' =>
    (f (tx.view k (s.rows k)) = none ∧ (next none).Alone now (some tx) s a s') ∨
      ∃ new, f (tx.view k (s.rows k)) = some new ∧ (next (some new)).Alone now (some (tx.write k (s.rows k) new))
        { s with used := fun k' => s.used k' ∨ k' = k } a s'
  | .insert row conflict next, some tx, s, a, s' =>
    (∃ k r, row k = some r ∧ ¬s.used k ∧ (∀ k' r', tx.view k' (s.rows k') = some r' → conflict r' = false) ∧
      (next (some k)).Alone now (some (tx.create k r)) { s with used := fun k' => s.used k' ∨ k' = k } a s') ∨
      ((∃ k r, tx.view k (s.rows k) = some r ∧ conflict r = true) ∧ (next none).Alone now (some tx) s a s')
  | .emit events next, some tx, s, a, s' => next.Alone now (some (tx.emit events)) s a s'
  | .commit next, some tx, s, a, s' =>
    next.Alone now none { s with rows := tx.apply s.rows, announced := s.announced ++ tx.events } a s'
  | .rollback next, some _, s, a, s' => next.Alone now none s a s'
  | _, _, _, _, _ => False

variable {serve : Q → Prog K R E I A} {s : State Q K R E I A} {i : Nat} {q : Q} {tx : Option (Tx K R E)}
  {prog : Prog K R E I A} {a : A} {s' : Scene K R E}

/-! ### The runs of one session

`Alone` says what such a run may come to, no more and no less. -/

/-- A step while the sessions but `i` rest, which takes no time. -/
structure StepAlone (serve : Q → Prog K R E I A) (i : Nat) (s t : State Q K R E I A) : Prop where
  step : Step serve s t
  now : t.now = s.now
  rests : t.Resting i

/-- By itself, session `i` may respond `a` to `q` and leave the scene `s'`. -/
def RespondsAlone (serve : Q → Prog K R E I A) (i : Nat) (q : Q) (a : A) (s' : Scene K R E)
    (s : State Q K R E I A) : Prop :=
  ∃ t, ReflTransGen (StepAlone serve i) s t ∧ t.scene = s' ∧ t.sessions i = some ⟨q, .answered a, none⟩

theorem RespondsAlone.head {t : State Q K R E I A} (step : Step serve s t) (now : t.now = s.now) (rests : t.Resting i)
    (h : RespondsAlone serve i q a s' t) : RespondsAlone serve i q a s' s :=
  let ⟨u, run, ends⟩ := h
  ⟨u, .head ⟨step, now, rests⟩ run, ends⟩

theorem Prog.Alone.responds (h : prog.Alone s.now tx s.scene a s') (here : s.At i q prog tx) (rests : s.Resting i) :
    RespondsAlone serve i q a s' s := by
  induction prog generalizing s tx with
  | answer a' =>
    obtain ⟨rfl, rfl⟩ := h
    exact ⟨_, .single ⟨.answer here, rfl, rests.put rfl⟩, rfl, Function.update_self ..⟩
  | start next ih =>
    cases tx with
    | none => exact .head (.start here) rfl (rests.put rfl) (ih _ h (Function.update_self ..) (rests.put rfl))
    | some tx => cases h
  | clock next ih => exact .head (.clock here) rfl (rests.put rfl) (ih _ h (Function.update_self ..) (rests.put rfl))
  | ask next ih =>
    obtain ⟨reply, h⟩ := h
    exact .head (.ask reply here) rfl (rests.put rfl) (ih _ h (Function.update_self ..) (rests.put rfl))
  | scan next ih =>
    cases tx with
    | none => cases h
    | some tx =>
      obtain ⟨snapshot, found, h⟩ := h
      exact .head (.scan snapshot here found) rfl (rests.put rfl) (ih _ h (Function.update_self ..) (rests.put rfl))
  | access skipLocked k f next ih =>
    cases tx with
    | none => cases h
    | some tx =>
      rcases h with ⟨no, h⟩ | ⟨new, yes, h⟩
      · exact .head (.miss here (rests.not_locked k) no) rfl (rests.put rfl)
          (ih _ h (Function.update_self ..) (rests.put rfl))
      · have hit : Step serve s _ := .hit here (rests.not_locked k) yes
        exact .head hit rfl (rests.put rfl) (ih _ h (Function.update_self ..) (rests.put rfl))
  | insert row conflict next ih =>
    cases tx with
    | none => cases h
    | some tx =>
      rcases h with ⟨k, r, keyed, new, free, h⟩ | ⟨⟨k, r, held, conflicts⟩, h⟩
      · have insert : Step serve s _ :=
          .insert k here keyed new ⟨free, fun _ _ _ _ _ other open_ => absurd open_ (rests.closed other)⟩
        exact .head insert rfl (rests.put rfl) (ih _ h (Function.update_self ..) (rests.put rfl))
      · exact .head (.duplicate here ⟨k, r, held, conflicts, rests.not_locked k⟩) rfl (rests.put rfl)
          (ih _ h (Function.update_self ..) (rests.put rfl))
  | emit events next ih =>
    cases tx with
    | none => cases h
    | some tx => exact .head (.emit here) rfl (rests.put rfl) (ih h (Function.update_self ..) (rests.put rfl))
  | commit next ih =>
    cases tx with
    | none => cases h
    | some tx =>
      have commit : Step serve s _ := .commit here
      exact .head commit rfl (rests.put rfl) (ih (State.scene_commit ▸ h) (Function.update_self ..) (rests.put rfl))
  | rollback next ih =>
    cases tx with
    | none => cases h
    | some tx => exact .head (.rollback here) rfl (rests.put rfl) (ih h (Function.update_self ..) (rests.put rfl))

/-- Where session `i` is over too, nothing happens any more. -/
theorem StepAlone.eq_of_over {t : State Q K R E I A} (h : StepAlone serve i s t) (rests : s.Resting i)
    {session : Session Q K R E I A} (there : s.sessions i = some session)
    (ended : ∀ q prog tx, ¬s.At i q prog tx) : t = s := by
  have still {j : Nat} {q : Q} {prog : Prog K R E I A} {tx : Option (Tx K R E)} : ¬s.At j q prog tx := fun here =>
    ended _ _ _ (rests.only here ▸ here)
  obtain ⟨step, now, restsAfter⟩ := h
  cases step with
  | tick now' _ =>
    obtain rfl : now' = s.now := now
    rfl
  | arrive j q new =>
    by_cases same : j = i
    · rw [same, there] at new
      cases new
    · have resting : ¬State.At _ j q (serve q) none := restsAfter.idle same
      exact absurd (Function.update_self ..) resting
  | start here | clock here | scan _ here _ | miss here _ _ | hit here _ _ | skip here _ | duplicate here _ | emit here
  | commit here | rollback here | answer here | crash here => exact absurd here still
  | ask _ here => exact absurd here still
  | insert _ here _ _ _ => exact absurd here still

theorem StepAlone.eq_of_run {t : State Q K R E I A} (run : ReflTransGen (StepAlone serve i) s t) (rests : s.Resting i)
    {session : Session Q K R E I A} (there : s.sessions i = some session)
    (ended : ∀ q prog tx, ¬s.At i q prog tx) : t = s := by
  induction run using ReflTransGen.head_induction_on with
  | refl => rfl
  | head step _ ih =>
    obtain rfl := step.eq_of_over rests there ended
    exact ih rests there ended

theorem RespondsAlone.alone (h : RespondsAlone serve i q a s' s) (here : s.At i q prog tx) (rests : s.Resting i) :
    prog.Alone s.now tx s.scene a s' := by
  obtain ⟨t, run, rfl, answered⟩ := h
  induction run using ReflTransGen.head_induction_on generalizing prog tx with
  | refl => cases here.symm.trans answered
  | @head s m step run ih =>
    obtain ⟨step, now, restsAfter⟩ := step
    cases step with
    | tick now' _ =>
      obtain rfl : now' = s.now := now
      exact ih here rests
    | arrive j q' new =>
      by_cases same : j = i
      · cases here.symm.trans (same ▸ new)
      · have resting : ¬State.At _ j q' (serve q') none := restsAfter.idle same
        exact absurd (Function.update_self ..) resting
    | start at_ =>
      obtain rfl := rests.only at_
      cases here.symm.trans at_
      exact (ih (Function.update_self ..) restsAfter :)
    | clock at_ =>
      obtain rfl := rests.only at_
      cases here.symm.trans at_
      exact (ih (Function.update_self ..) restsAfter :)
    | ask reply at_ =>
      obtain rfl := rests.only at_
      cases here.symm.trans at_
      exact ⟨reply, ih (Function.update_self ..) restsAfter⟩
    | scan snapshot at_ seen =>
      obtain rfl := rests.only at_
      cases here.symm.trans at_
      exact ⟨snapshot, seen, ih (Function.update_self ..) restsAfter⟩
    | miss at_ _ no =>
      obtain rfl := rests.only at_
      cases here.symm.trans at_
      exact Or.inl ⟨no, ih (Function.update_self ..) restsAfter⟩
    | hit at_ _ yes =>
      obtain rfl := rests.only at_
      cases here.symm.trans at_
      exact Or.inr ⟨_, yes, ih (Function.update_self ..) restsAfter⟩
    | skip at_ held =>
      obtain rfl := rests.only at_
      exact absurd held (rests.not_locked _)
    | insert k at_ keyed new free =>
      obtain rfl := rests.only at_
      cases here.symm.trans at_
      exact Or.inl ⟨k, _, keyed, new, free.1, ih (Function.update_self ..) restsAfter⟩
    | duplicate at_ held =>
      obtain rfl := rests.only at_
      cases here.symm.trans at_
      obtain ⟨k, r, view, conflicts, -⟩ := held
      exact Or.inr ⟨⟨k, r, view, conflicts⟩, ih (Function.update_self ..) restsAfter⟩
    | emit at_ =>
      obtain rfl := rests.only at_
      cases here.symm.trans at_
      exact (ih (Function.update_self ..) restsAfter :)
    | commit at_ =>
      obtain rfl := rests.only at_
      cases here.symm.trans at_
      have alone := ih (Function.update_self ..) restsAfter
      rw [State.scene_commit] at alone
      exact alone
    | rollback at_ =>
      obtain rfl := rests.only at_
      cases here.symm.trans at_
      exact (ih (Function.update_self ..) restsAfter :)
    | answer at_ =>
      obtain rfl := rests.only at_
      cases here.symm.trans at_
      obtain rfl := StepAlone.eq_of_run run restsAfter (Function.update_self ..) fun _ _ _ running => by
        cases (Function.update_self ..).symm.trans running
      cases (Function.update_self ..).symm.trans answered
      exact ⟨rfl, rfl⟩
    | crash at_ =>
      obtain rfl := rests.only at_
      obtain rfl := StepAlone.eq_of_run run restsAfter (Function.update_self ..) fun _ _ _ running => by
        cases (Function.update_self ..).symm.trans running
      cases (Function.update_self ..).symm.trans answered

/-- What a program served alone may come to is what it comes to in some run of the system. -/
theorem alone_iff (here : s.At i q prog tx) (rests : s.Resting i) :
    prog.Alone s.now tx s.scene a s' ↔ RespondsAlone serve i q a s' s :=
  ⟨fun h => h.responds here rests, fun h => h.alone here rests⟩

/-! ### What a statement does -/

theorem Tx.view_write {tx : Tx K R E} {rows : K → Option R} {k k' : K} {new : Option R} :
    (tx.write k (rows k) new).view k' (rows k') = if k' = k then new else tx.view k' (rows k') := by
  by_cases same : k' = k
  · subst same
    rw [if_pos rfl, view, changes_write]
    cases tx.changes k' <;> rfl
  · rw [if_neg same, view, view, changes_write_of_ne same]

theorem Tx.apply_write_empty {now : Time} {rows : K → Option R} {k : K} {new : Option R} :
    ((Tx.empty now : Tx K R E).write k (rows k) new).apply rows = Function.update rows k new := by
  funext k'
  rw [apply, view_write, Function.update_apply]
  rfl

theorem Tx.apply_create_empty {now : Time} {rows : K → Option R} {k : K} {r : R} :
    ((Tx.empty now : Tx K R E).create k r).apply rows = Function.update rows k (some r) := by
  funext k'
  by_cases same : k' = k
  · subst same
    rw [apply, view, changes_create, Function.update_self]
  · rw [apply, view, changes_create_of_ne same, Function.update_of_ne same]
    rfl

namespace Prog
variable {now : Time} {a : A} {s s' : Scene K R E} {tx : Tx K R E} {tab : Table R T} {k : K}

theorem Alone.start {next : Time → Prog K R E I A} (h : (start next).Alone now none s a s') :
    (next now).Alone now (some (.empty now)) s a s' := h

theorem Alone.select {α : Type} {read : Time → List (K × R) → α} {next : α → Prog K R E I A}
    (h : (select read next).Alone now none s a s') :
    ∃ snapshot, Tx.Finds (.empty now : Tx K R E) s.rows snapshot ∧
      (next (read now snapshot)).Alone now none s a s' := by
  obtain ⟨snapshot, found, h⟩ := h
  have same : s.announced ++ (.empty now : Tx K R E).events = s.announced := List.append_nil _
  refine ⟨snapshot, found, ?_⟩
  rw [Alone, same] at h
  exact h

/-- An `INSERT .. ON CONFLICT` leaves the row or nothing, as it says. -/
theorem Alone.upsert {f : Option T → Option T} {next : Option T → Prog K R E I A}
    (h : (upsert tab k f next).Alone now (some tx) s a s') :
    (f ((tx.view k (s.rows k)).bind tab.get) = none ∧ (next none).Alone now (some tx) s a s') ∨
      ∃ t, f ((tx.view k (s.rows k)).bind tab.get) = some t ∧
        (next (some t)).Alone now (some (tx.write k (s.rows k) (some (tab.put t))))
          { s with used := fun k' => s.used k' ∨ k' = k } a s' := by
  rcases h with ⟨none_, h⟩ | ⟨new, some_, h⟩
  · exact Or.inl ⟨Option.map_eq_none_iff.mp none_, h⟩
  · obtain ⟨t, left, rfl⟩ := Option.map_eq_some_iff.mp some_
    refine Or.inr ⟨t, left, ?_⟩
    simpa only [Option.bind_some, tab.get_put] using h

theorem on_eq_some_iff {p : T → Bool} {set : T → Option T} {r : R} {new : Option R} :
    on tab p set r = some new ↔ ∃ t, tab.get r = some t ∧ p t = true ∧ (set t).map tab.put = new := by
  simp only [on, Option.bind_eq_some_iff, Option.ite_none_right_eq_some, Option.some.injEq]

/-- A statement on the row of a key meets the row that the transaction has, where its `WHERE` matches. -/
theorem Alone.byKey {p : T → Bool} {set : T → Option T} {next : Option (Option T) → Prog K R E I A}
    (h : (byKey tab k p set next).Alone now (some tx) s a s') :
    (∃ t, tx.view k (s.rows k) = some (tab.put t) ∧ p t = true ∧
      (next (some (set t))).Alone now (some (tx.write k (s.rows k) ((set t).map tab.put)))
        { s with used := fun k' => s.used k' ∨ k' = k } a s') ∨
      ((∀ t, tx.view k (s.rows k) = some (tab.put t) → p t = false) ∧ (next none).Alone now (some tx) s a s') := by
  obtain ⟨snapshot, ⟨-, found⟩, h⟩ := h
  beta_reduce at h
  split at h
  · rename_i any
    obtain ⟨⟨k', t⟩, mem, here⟩ := List.any_eq_true.mp any
    obtain rfl : k' = k := of_decide_eq_true here
    obtain ⟨mem, holds⟩ := List.mem_filter.mp mem
    have view := (found _ _).mp (Table.mem_rows.mp mem)
    have acts : (tx.view k' (s.rows k')).bind (on tab p set) = some ((set t).map tab.put) := by
      rw [view]
      exact on_eq_some_iff.mpr ⟨t, tab.get_put t, holds, rfl⟩
    rcases h with ⟨no, -⟩ | ⟨new, yes, h⟩
    · cases acts.symm.trans no
    · obtain rfl := Option.some.inj (acts.symm.trans yes)
      refine Or.inl ⟨t, view, holds, ?_⟩
      have back : ((set t).map tab.put).bind tab.get = set t := by
        cases set t with
        | none => rfl
        | some t' => exact tab.get_put t'
      simpa only [Option.map_some, back] using h
  · rename_i none_
    refine Or.inr ⟨fun t view => Bool.eq_false_iff.mpr fun holds => none_ ?_, h⟩
    exact List.any_eq_true.mpr
      ⟨(k, t), List.mem_filter.mpr ⟨Table.mem_rows.mpr ((found _ _).mpr view), holds⟩, decide_eq_true rfl⟩

/-- Visiting rows changes those that match and no others. -/
theorem Alone.visit {f : R → Option (Option R)} {ks : List K} {seen : List (K × R)}
    {next : List (K × R) → Prog K R E I A}
    (h : (visit false none f ks seen next).Alone now (some tx) s a s') (nodup : ks.Nodup) :
    ∃ tx' used seen', (next seen').Alone now (some tx') { s with used := used } a s' ∧ tx'.events = tx.events ∧
      (∀ k, s.used k → used k) ∧
      ∀ k, tx'.view k (s.rows k) =
        if k ∈ ks then ((tx.view k (s.rows k)).bind f).getD (tx.view k (s.rows k)) else tx.view k (s.rows k) := by
  induction ks generalizing tx s seen with
  | nil => exact ⟨tx, s.used, seen, h, rfl, fun _ => id, fun _ => (if_neg List.not_mem_nil).symm⟩
  | cons k ks ih =>
    obtain ⟨notIn, nodup⟩ := List.nodup_cons.mp nodup
    simp only [visit, reduceCtorEq, if_false] at h
    rcases h with ⟨no, h⟩ | ⟨new, yes, h⟩
    · have no : (tx.view k (s.rows k)).bind f = none := no
      obtain ⟨tx', used, seen', h, events, grows, view⟩ := ih h nodup
      refine ⟨tx', used, seen', h, events, grows, fun k' => ?_⟩
      rw [view]
      by_cases same : k' = k
      · subst same
        rw [if_neg notIn, if_pos List.mem_cons_self, no, Option.getD_none]
      · simp only [List.mem_cons, same, false_or]
    · have yes : (tx.view k (s.rows k)).bind f = some new := yes
      have step : ∃ seen'', (visit false none f ks seen'' next).Alone now (some (tx.write k (s.rows k) new))
          { s with used := fun k' => s.used k' ∨ k' = k } a s' := by
        cases new with
        | none => exact ⟨_, h⟩
        | some row => exact ⟨_, h⟩
      obtain ⟨seen'', h⟩ := step
      obtain ⟨tx', used, seen', h, events, grows, view⟩ := ih h nodup
      refine ⟨tx', used, seen', h, events, fun k' was => grows k' (Or.inl was), fun k' => ?_⟩
      rw [view]
      simp only [Tx.view_write]
      by_cases same : k' = k
      · subst same
        rw [if_neg notIn, if_pos List.mem_cons_self, if_pos rfl, yes, Option.getD_some]
      · simp only [List.mem_cons, same, false_or, if_false]

/-- A `DELETE` removes the rows that match and no others. -/
theorem Alone.delete {p : T → Bool} {next : Prog K R E I A} (h : (delete tab p next).Alone now (some tx) s a s') :
    ∃ tx' used, next.Alone now (some tx') { s with used := used } a s' ∧ tx'.events = tx.events ∧
      (∀ k, s.used k → used k) ∧
      ∀ k, tx'.view k (s.rows k) = (tx.view k (s.rows k)).filter fun r => !(tab.get r).any p := by
  obtain ⟨snapshot, ⟨distinct, found⟩, h⟩ := h
  obtain ⟨tx', used, -, h, events, grows, view⟩ := Alone.visit h (nodup_matching distinct)
  refine ⟨tx', used, h, events, grows, fun k => ?_⟩
  rw [view]
  cases row : tx.view k (s.rows k) with
  | none => split <;> rfl
  | some r =>
    have matches_ : k ∈ (matching tab p snapshot).map Prod.fst ↔ (tab.get r).any p = true := by
      rw [List.mem_map, Option.any_eq_true]
      constructor
      · rintro ⟨⟨k', t⟩, mem, rfl⟩
        obtain ⟨mem, holds⟩ := List.mem_filter.mp mem
        have same := (found _ _).mp (Table.mem_rows.mp mem)
        rw [row] at same
        obtain rfl := Option.some.inj same
        exact ⟨t, tab.get_put t, holds⟩
      · rintro ⟨t, get, holds⟩
        obtain rfl := tab.put_get r t get
        exact ⟨(k, t), List.mem_filter.mpr ⟨Table.mem_rows.mpr ((found _ _).mpr row), holds⟩, rfl⟩
    by_cases any : (tab.get r).any p = true
    · obtain ⟨t, get, holds⟩ := (Option.any_eq_true ..).mp any
      have acts : on tab p (fun _ => none) r = some none := on_eq_some_iff.mpr ⟨t, get, holds, rfl⟩
      rw [if_pos (matches_.mpr any), Option.bind_some, acts, Option.filter_some, any]
      rfl
    · have spared : (tab.get r).any p = false := Bool.eq_false_iff.mpr any
      rw [if_neg (any ∘ matches_.mp), Option.filter_some, spared]
      rfl

end Prog
end Postgres
