import DatrixOps.Postgres.ReadCommitted

/-! Interleaved transactions as atomic ones. Since a transaction keeps the rows it changes locked until
    it commits, the versions it found are still the committed ones then: the commits, in their order,
    are a serial history. What each commit and each answer of a handler satisfies is a condition on
    the handler's program alone, computed by `Prog.Safe`. -/

namespace Postgres

variable {Q K R E I A : Type}

/-- What every stored row satisfies, and what the commits and the answer of a request satisfy. The
    list holds the transactions the session has committed before, newest first. -/
structure Spec (Q K R E A : Type) where
  row : K → R → Prop
  commit : Q → List (Tx K R E) → Tx K R E → Prop
  answer : Q → List (Tx K R E) → A → Prop

/-- The history of atomic commits: each finds the versions it changes, the keys it generated are new,
    and it satisfies the specification. The log is newest first. -/
inductive Serial (spec : Spec Q K R E A) (rows₀ : K → Option R) : List (Commit Q K R E) → (K → Option R) → Prop
  | nil : Serial spec rows₀ [] rows₀
  | cons {log rows e} (earlier : Serial spec rows₀ log rows)
      (ok : spec.commit e.request ((log.filter (·.session == e.session)).map (·.tx)) e.tx)
      (base : ∀ k c, e.tx.changes k = some c → c.base = rows k)
      (fresh : ∀ k c, e.tx.changes k = some c → c.fresh = true →
        rows₀ k = none ∧ ∀ e' ∈ log, e'.tx.changes k = none) :
      Serial spec rows₀ (e :: log) (e.tx.apply rows)

/-- What the commits of a log did to row `k`, newest first. -/
def changesOf (k : K) (log : List (Commit Q K R E)) : List (Q × Change R) :=
  log.filterMap fun e => (e.tx.changes k).map (e.request, ·)

/-- Each change starts from the version the one before it left, and the oldest from `first`. -/
def Linked (first : Option R) : List (Q × Change R) → Option R → Prop
  | [], last => last = first
  | (_, c) :: earlier, last => last = c.new ∧ Linked first earlier c.base

/-- In a serial history every row is linked from its first version to its current one. -/
theorem Serial.linked {spec : Spec Q K R E A} {rows₀ rows : K → Option R} {log : List (Commit Q K R E)}
    (h : Serial spec rows₀ log rows) (k : K) : Linked (rows₀ k) (changesOf k log) (rows k) := by
  induction h with
  | nil => rfl
  | @cons log rows e _ _ base _ ih =>
    cases hc : e.tx.changes k with
    | none =>
      simp only [changesOf, List.filterMap_cons, hc, Option.map_none, Tx.apply, Tx.view_of_unchanged hc]
      exact ih
    | some c =>
      simp only [changesOf, List.filterMap_cons, hc, Option.map_some, Tx.apply, Tx.view_of_changes hc]
      exact ⟨rfl, base k c hc ▸ ih⟩

/-- A serial history is one for any specification that says no more of its commits. -/
theorem Serial.mono {spec spec' : Spec Q K R E A} {rows₀ rows : K → Option R} {log : List (Commit Q K R E)}
    (commit : ∀ q past tx, spec.commit q past tx → spec'.commit q past tx) (h : Serial spec rows₀ log rows) :
    Serial spec' rows₀ log rows := by
  induction h with
  | nil => exact .nil
  | cons _ ok base fresh ih => exact .cons ih (commit _ _ _ ok) base fresh

/-- A commit of a serial history meets the rows that the commits before it left. -/
theorem Serial.before {spec : Spec Q K R E A} {rows₀ rows : K → Option R} {later earlier : List (Commit Q K R E)}
    {e : Commit Q K R E} (h : Serial spec rows₀ (later ++ e :: earlier) rows) :
      ∃ rows', Serial spec rows₀ earlier rows' ∧
      spec.commit e.request ((earlier.filter (·.session == e.session)).map (·.tx)) e.tx ∧
      ∀ k c, e.tx.changes k = some c → c.base = rows' k := by
  induction later generalizing rows with
  | nil =>
    cases h with
    | cons earlier ok base _ => exact ⟨_, earlier, ok, base⟩
  | cons _ later ih =>
    cases h with
    | cons earlier _ _ _ => exact ih earlier

/-- A commit of a serial history satisfies the specification, given commits of its session that the history has. -/
theorem Serial.ok {spec : Spec Q K R E A} {rows₀ rows : K → Option R} {log : List (Commit Q K R E)} {e : Commit Q K R E}
    (h : Serial spec rows₀ log rows) (he : e ∈ log) : ∃ past, spec.commit e.request past e.tx ∧
      ∀ tx ∈ past, ∃ e' ∈ log, e'.session = e.session ∧ e'.tx = tx := by
  obtain ⟨later, earlier, rfl⟩ := List.mem_iff_append.mp he
  obtain ⟨-, -, ok, -⟩ := h.before
  refine ⟨_, ok, fun tx htx => ?_⟩
  obtain ⟨e', hpast, rfl⟩ := List.mem_map.mp htx
  obtain ⟨he', hsession⟩ := List.mem_filter.mp hpast
  exact ⟨e', List.mem_append_right _ (List.mem_cons_of_mem _ he'), by simpa using hsession, rfl⟩

/-- A request that commits only what its session commits first commits once. -/
theorem Serial.commits_once {spec : Spec Q K R E A} {rows₀ rows : K → Option R} {log : List (Commit Q K R E)}
    {P : Q → Prop}
    (first : ∀ q past tx, spec.commit q past tx → P q → past = []) (h : Serial spec rows₀ log rows) :
    log.Pairwise fun e e' => e.session = e'.session → ¬P e.request := by
  induction h with
  | nil => exact .nil
  | @cons log rows e _ ok _ _ ih =>
    refine List.pairwise_cons.mpr ⟨fun e' he' same once => ?_, ih⟩
    have past := first _ _ _ ok once
    rw [List.map_eq_nil_iff, List.filter_eq_nil_iff] at past
    exact past e' he' (by simp [same])

/-- Of what stands at two places of a list, one is related to the other. -/
theorem split_unique {α : Type} {r : α → α → Prop} {l a b a' b' : List α} {x y : α} (h : l.Pairwise r)
    (hx : l = a ++ x :: b)
    (hy : l = a' ++ y :: b') (hxy : ¬r x y) (hyx : ¬r y x) : a = a' ∧ x = y ∧ b = b' := by
  subst hx
  rcases List.append_eq_append_iff.mp hy with ⟨m, rfl, hm⟩ | ⟨m, rfl, hm⟩
  · cases m with
    | nil =>
      obtain ⟨rfl, rfl⟩ := List.cons.inj hm
      exact ⟨(List.append_nil a).symm, rfl, rfl⟩
    | cons z m =>
      obtain ⟨rfl, rfl⟩ := List.cons.inj hm
      have tail := (List.pairwise_append.mp h).2.1
      exact absurd ((List.pairwise_cons.mp tail).1 y (by simp)) hxy
  · cases m with
    | nil =>
      obtain ⟨rfl, rfl⟩ := List.cons.inj hm
      exact ⟨List.append_nil a', rfl, rfl⟩
    | cons z m =>
      obtain ⟨rfl, rfl⟩ := List.cons.inj hm
      rw [List.append_assoc] at h
      have tail := (List.pairwise_append.mp h).2.1
      exact absurd ((List.pairwise_cons.mp tail).1 x (by simp)) hyx

/-- A row is inserted under a generated key by one commit only. -/
theorem Serial.creates_once {spec : Spec Q K R E A} {rows₀ rows : K → Option R}
    {later earlier later' earlier' : List (Commit Q K R E)}
    {e e' : Commit Q K R E} {k : K} {c c' : Change R} (h : Serial spec rows₀ (later ++ e :: earlier) rows)
    (same : later ++ e :: earlier = later' ++ e' :: earlier') (hc : e.tx.changes k = some c) (hf : c.fresh = true)
    (hc' : e'.tx.changes k = some c') (hf' : c'.fresh = true) : later = later' ∧ e = e' ∧ earlier = earlier' := by
  induction later generalizing later' rows with
  | nil =>
    cases later' with
    | nil =>
      obtain ⟨rfl, rfl⟩ := List.cons.inj same
      exact ⟨rfl, rfl, rfl⟩
    | cons x later' =>
      obtain ⟨rfl, rfl⟩ := List.cons.inj same
      cases h with
      | cons _ _ _ fresh =>
        rw [(fresh k c hc hf).2 e' (by simp)] at hc'
        cases hc'
  | cons x later ih =>
    cases later' with
    | nil =>
      obtain ⟨rfl, rfl⟩ := List.cons.inj same
      cases h with
      | cons _ _ _ fresh =>
        rw [(fresh k c' hc' hf').2 e (by simp)] at hc
        cases hc
    | cons x' later' =>
      obtain ⟨hx, rest⟩ := List.cons.inj same
      cases h with
      | cons before _ _ _ =>
        obtain ⟨hl, he, hs⟩ := ih before rest
        exact ⟨by rw [hx, hl], he, hs⟩

/-- A key that a commit of the history generated had no row before. -/
theorem Serial.unborn {spec : Spec Q K R E A} {rows₀ rows : K → Option R} {log : List (Commit Q K R E)}
    {e : Commit Q K R E} {k : K}
    {c : Change R} (h : Serial spec rows₀ log rows) (he : e ∈ log) (hc : e.tx.changes k = some c)
    (hf : c.fresh = true) :
    rows₀ k = none := by
  induction h with
  | nil => cases he
  | cons _ _ _ fresh ih =>
    rcases List.mem_cons.mp he with rfl | he
    · exact (fresh k c hc hf).1
    · exact ih he

theorem State.exists_of_mem_past {s : State Q K R E I A} {i : Nat} {tx : Tx K R E} (h : tx ∈ s.past i) :
    ∃ e ∈ s.log, e.session = i ∧ e.tx = tx := by
  obtain ⟨e, hpast, rfl⟩ := List.mem_map.mp h
  obtain ⟨he, hsession⟩ := List.mem_filter.mp hpast
  exact ⟨e, he, by simpa using hsession, rfl⟩

/-- A row whose key is only ever given out anew, and which is there now, has never been removed. -/
theorem Serial.present {spec : Spec Q K R E A} {rows₀ rows : K → Option R} {log : List (Commit Q K R E)} {k : K}
    (h : Serial spec rows₀ log rows) (born : ∀ e ∈ log, ∀ c, e.tx.changes k = some c → c.base = none → c.fresh = true)
    (there : rows k ≠ none) : ∀ e ∈ log, ∀ c, e.tx.changes k = some c → c.new ≠ none := by
  induction h with
  | nil => exact fun _ he => (by cases he)
  | @cons log rows e _ _ base fresh ih =>
    have ih := ih fun e' he' => born e' (List.mem_cons_of_mem _ he')
    intro e' he' c' hc'
    cases hc : e.tx.changes k with
    | none =>
      rw [Tx.apply, Tx.view_of_unchanged hc] at there
      rcases List.mem_cons.mp he' with rfl | he'
      · rw [hc] at hc'
        cases hc'
      · exact ih there e' he' c' hc'
    | some c =>
      rw [Tx.apply, Tx.view_of_changes hc] at there
      rcases List.mem_cons.mp he' with rfl | he'
      · obtain rfl := Option.some.inj (hc.symm.trans hc')
        exact there
      · refine ih (fun gone => ?_) e' he' c' hc'
        -- the key was not there before, so it is new, and no earlier commit changed it
        have isNew := born e (List.mem_cons_self ..) c hc ((base k c hc).trans gone)
        rw [(fresh k c hc isNew).2 e' he'] at hc'
        cases hc'

section
variable {s : State Q K R E I A} {i j : Nat} {session : Session Q K R E I A} {tx : Tx K R E}

theorem State.sessions_put : (s.put i session).sessions i = some session := Function.update_self _ _ _

theorem State.sessions_put_of_ne (h : j ≠ i) : (s.put i session).sessions j = s.sessions j :=
  Function.update_of_ne h _ _

theorem State.open_put (h : (s.put i session).Open j tx) : (j = i ∧ session.tx = some tx) ∨ (j ≠ i ∧ s.Open j tx) := by
  obtain ⟨x, hx, htx⟩ := h
  by_cases hj : j = i
  · subst hj
    rw [State.sessions_put] at hx
    exact Or.inl ⟨rfl, Option.some.inj hx ▸ htx⟩
  · rw [State.sessions_put_of_ne hj] at hx
    exact Or.inr ⟨hj, x, hx, htx⟩

theorem serial_unseen {spec : Spec Q K R E A} {rows₀ rows : K → Option R} {log : List (Commit Q K R E)} {k : K}
    (h : Serial spec rows₀ log rows) (hr : rows₀ k = none) (hl : ∀ e ∈ log, e.tx.changes k = none) :
    rows k = none := by
  induction h with
  | nil => exact hr
  | cons _ _ _ _ ih =>
    rw [Tx.apply, Tx.view_of_unchanged (hl _ (List.mem_cons_self ..))]
    exact ih fun e he => hl e (List.mem_cons_of_mem _ he)

theorem State.At.open_ {q : Q} {prog : Prog K R E I A} (h : s.At i q prog (some tx)) : s.Open i tx := ⟨_, h, rfl⟩

theorem State.Snapshot.sees {snapshot : List (K × R)} (h : s.Snapshot tx snapshot) : tx.Sees snapshot :=
  ⟨h.1, fun k c r hc => by rw [h.2 k r, Tx.view_of_changes hc]⟩

end

variable [DecidableEq K]

/-- The verification condition of a program serving `q`: whatever comes back, each row written, each
    commit and the answer satisfy the specification. -/
def Prog.Safe (spec : Spec Q K R E A) (q : Q) : Prog K R E I A → List (Tx K R E) → Option (Tx K R E) → Prop
  | .answer a, past, _ => spec.answer q past a
  | .start next, past, none => ∀ t, (next t).Safe spec q past (some (.empty t))
  | .clock next, past, tx => ∀ t, (next t).Safe spec q past tx
  | .ask next, past, tx => ∀ a, (next a).Safe spec q past tx
  | .scan next, past, some tx => ∀ snapshot, tx.Sees snapshot → (∀ k r, (k, r) ∈ snapshot → spec.row k r) →
      (next snapshot).Safe spec q past (some tx)
  | .access skip k f next, past, some tx => (skip = true → (next none).Safe spec q past (some tx)) ∧
      ∀ base, (∀ r, tx.view k base = some r → spec.row k r) →
        (f (tx.view k base) = none → (next none).Safe spec q past (some tx)) ∧
        ∀ new, f (tx.view k base) = some new →
          (∀ r, new = some r → spec.row k r) ∧ (next (some new)).Safe spec q past (some (tx.write k base new))
  | .insert row _ next, past, some tx => (next none).Safe spec q past (some tx) ∧
      ∀ k r, row k = some r → tx.changes k = none →
        spec.row k r ∧ (next (some k)).Safe spec q past (some (tx.create k r))
  | .emit events next, past, some tx => next.Safe spec q past (some (tx.emit events))
  | .commit next, past, some tx => spec.commit q past tx ∧ next.Safe spec q (tx :: past) none
  | .rollback next, past, some _ => next.Safe spec q past none
  | _, _, _ => False

/-- The specification that says what each of two says. -/
def Spec.both (spec spec' : Spec Q K R E A) : Spec Q K R E A where
  row k r := spec.row k r ∧ spec'.row k r
  commit q past tx := spec.commit q past tx ∧ spec'.commit q past tx
  answer q past a := spec.answer q past a ∧ spec'.answer q past a

/-- A program that satisfies two specifications satisfies both at once. -/
theorem Prog.Safe.both {spec spec' : Spec Q K R E A} {q : Q} {prog : Prog K R E I A} : ∀ {past tx},
    prog.Safe spec q past tx → prog.Safe spec' q past tx → prog.Safe (spec.both spec') q past tx := by
  induction prog with
  | answer a => exact fun h h' => ⟨h, h'⟩
  | start next ih =>
    intro past tx h h'
    cases tx with
    | none => exact fun t => ih t (h t) (h' t)
    | some _ => exact h
  | clock next ih => exact fun h h' t => ih t (h t) (h' t)
  | ask next ih => exact fun h h' a => ih a (h a) (h' a)
  | scan next ih =>
    intro past tx h h'
    cases tx with
    | none => exact h
    | some tx =>
      exact fun snapshot sees valid => ih snapshot (h snapshot sees fun k r hr => (valid k r hr).1)
        (h' snapshot sees fun k r hr => (valid k r hr).2)
  | access skip k f next ih =>
    intro past tx h h'
    cases tx with
    | none => exact h
    | some tx =>
      refine ⟨fun hs => ih none (h.1 hs) (h'.1 hs), fun base valid => ?_⟩
      have left := h.2 base fun r hr => (valid r hr).1
      have right := h'.2 base fun r hr => (valid r hr).2
      refine ⟨fun no => ih none (left.1 no) (right.1 no), fun new yes => ?_⟩
      exact ⟨fun r hr => ⟨(left.2 new yes).1 r hr, (right.2 new yes).1 r hr⟩,
        ih (some new) (left.2 new yes).2 (right.2 new yes).2⟩
  | insert row conflict next ih =>
    intro past tx h h'
    cases tx with
    | none => exact h
    | some tx =>
      refine ⟨ih none h.1 h'.1, fun k r keyed untouched => ?_⟩
      obtain ⟨valid, left⟩ := h.2 k r keyed untouched
      obtain ⟨valid', right⟩ := h'.2 k r keyed untouched
      exact ⟨⟨valid, valid'⟩, ih (some k) left right⟩
  | emit events next ih =>
    intro past tx h h'
    cases tx with
    | none => exact h
    | some tx => exact ih h h'
  | commit next ih =>
    intro past tx h h'
    cases tx with
    | none => exact h
    | some tx => exact ⟨⟨h.1, h'.1⟩, ih h.2 h'.2⟩
  | rollback next ih =>
    intro past tx h h'
    cases tx with
    | none => exact h
    | some tx => exact ih h h'

/-- A program that satisfies a specification satisfies one that says no more of its request. -/
theorem Prog.Safe.mono {spec spec' : Spec Q K R E A} {q : Q} (row : ∀ k r, spec.row k r ↔ spec'.row k r)
    (commit : ∀ past tx, spec.commit q past tx → spec'.commit q past tx)
    (answer : ∀ past a, spec.answer q past a → spec'.answer q past a) {prog : Prog K R E I A} : ∀ {past tx},
    prog.Safe spec q past tx → prog.Safe spec' q past tx := by
  induction prog with
  | answer a => exact fun h => answer _ _ h
  | start next ih =>
    intro past tx h
    cases tx with
    | none => exact fun t => ih t (h t)
    | some _ => exact h
  | clock next ih => exact fun h t => ih t (h t)
  | ask next ih => exact fun h a => ih a (h a)
  | scan next ih =>
    intro past tx h
    cases tx with
    | none => exact h
    | some tx =>
      exact fun snapshot sees valid =>
        ih snapshot (h snapshot sees fun k r hr => (row k r).mpr (valid k r hr))
  | access skip k f next ih =>
    intro past tx h
    cases tx with
    | none => exact h
    | some tx =>
      refine ⟨fun hs => ih none (h.1 hs), fun base valid => ?_⟩
      have met := h.2 base fun r hr => (row k r).mpr (valid r hr)
      exact ⟨fun no => ih none (met.1 no), fun new yes =>
        ⟨fun r hr => (row k r).mp ((met.2 new yes).1 r hr), ih (some new) (met.2 new yes).2⟩⟩
  | insert make conflict next ih =>
    intro past tx h
    cases tx with
    | none => exact h
    | some tx =>
      exact ⟨ih none h.1, fun k r keyed untouched =>
        ⟨(row k r).mp (h.2 k r keyed untouched).1, ih (some k) (h.2 k r keyed untouched).2⟩⟩
  | emit events next ih =>
    intro past tx h
    cases tx with
    | none => exact h
    | some tx => exact ih h
  | commit next ih =>
    intro past tx h
    cases tx with
    | none => exact h
    | some tx => exact ⟨commit _ _ h.1, ih h.2⟩
  | rollback next ih =>
    intro past tx h
    cases tx with
    | none => exact h
    | some tx => exact ih h

/-- What is left of a session's request satisfies the specification. -/
def Session.Safe (spec : Spec Q K R E A) (past : List (Tx K R E)) (session : Session Q K R E I A) : Prop :=
  match session.control with
  | .running prog => prog.Safe spec session.request past session.tx
  | .answered a => spec.answer session.request past a
  | .crashed => True

/-! ### The invariant -/

/-- Open transactions hold the newest versions and exclude each other, every session is still safe, and
    the log is a serial history. -/
structure Consistent (spec : Spec Q K R E A) (rows₀ : K → Option R) (s : State Q K R E I A) : Prop where
  safe : ∀ i session, s.sessions i = some session → session.Safe spec (s.past i)
  base : ∀ i tx k c, s.Open i tx → tx.changes k = some c → c.base = s.rows k
  exclusive : ∀ i j tx tx' k c c', s.Open i tx → s.Open j tx' → tx.changes k = some c → tx'.changes k = some c' → i = j
  fresh : ∀ i tx k c, s.Open i tx → tx.changes k = some c → c.fresh = true →
    rows₀ k = none ∧ ∀ e ∈ s.log, e.tx.changes k = none
  valid : ∀ k r, s.rows k = some r → spec.row k r
  validOpen : ∀ i tx k c r, s.Open i tx → tx.changes k = some c → c.new = some r → spec.row k r
  usedRows : ∀ k, rows₀ k ≠ none → s.used k
  usedOpen : ∀ i tx k c, s.Open i tx → tx.changes k = some c → s.used k
  usedLog : ∀ e ∈ s.log, ∀ k c, e.tx.changes k = some c → s.used k
  unborn : ∀ i, s.sessions i = none → s.past i = []
  history : Serial spec rows₀ s.log s.rows

variable {spec : Spec Q K R E A} {rows₀ : K → Option R} {s : State Q K R E I A} {i j : Nat}
  {session : Session Q K R E I A} {tx tx' : Tx K R E} {k : K} {q : Q}

namespace Consistent

theorem initial {now : Time} {used : K → Prop} (h : ∀ k, rows₀ k ≠ none → used k)
    (valid : ∀ k r, rows₀ k = some r → spec.row k r) :
    Consistent spec rows₀ (State.initial now rows₀ used : State Q K R E I A) where
  safe _ _ h := by cases h
  base _ _ _ _ h := by obtain ⟨_, h, _⟩ := h; cases h
  exclusive _ _ _ _ _ _ _ h := by obtain ⟨_, h, _⟩ := h; cases h
  fresh _ _ _ _ h := by obtain ⟨_, h, _⟩ := h; cases h
  valid := valid
  validOpen _ _ _ _ _ h := by obtain ⟨_, h, _⟩ := h; cases h
  usedRows := h
  usedOpen _ _ _ _ h := by obtain ⟨_, h, _⟩ := h; cases h
  usedLog _ h := by cases h
  unborn _ _ := rfl
  history := .nil

theorem tick (h : Consistent spec rows₀ s) (t : Time) : Consistent spec rows₀ { s with now := t } :=
  ⟨h.safe, h.base, h.exclusive, h.fresh, h.valid, h.validOpen, h.usedRows, h.usedOpen, h.usedLog, h.unborn, h.history⟩

theorem safe_put (h : Consistent spec rows₀ s) (safe : session.Safe spec (s.past i)) (x : Session Q K R E I A)
    (hx : (s.put i session).sessions j = some x) : x.Safe spec (s.past j) := by
  by_cases hj : j = i
  · subst hj
    rw [State.sessions_put] at hx
    exact Option.some.inj hx ▸ safe
  · rw [State.sessions_put_of_ne hj] at hx
    exact h.safe j x hx

theorem unborn_put (h : Consistent spec rows₀ s) (hj : (s.put i session).sessions j = none) : s.past j = [] := by
  by_cases hji : j = i
  · subst hji
    rw [State.sessions_put] at hj
    cases hj
  · rw [State.sessions_put_of_ne hji] at hj
    exact h.unborn j hj

/-- A session that goes on without touching rows, at most closing its transaction. -/
theorem put (h : Consistent spec rows₀ s) (safe : session.Safe spec (s.past i))
    (kept : ∀ tx, session.tx = some tx → ∀ k c, tx.changes k = some c →
      ∃ tx', s.Open i tx' ∧ tx'.changes k = some c) :
    Consistent spec rows₀ (s.put i session) := by
  -- every change open after the step was open before it, in the same session
  have back : ∀ j tx k c, (s.put i session).Open j tx → tx.changes k = some c →
      ∃ tx', s.Open j tx' ∧ tx'.changes k = some c := by
    intro j tx k c ho hc
    rcases State.open_put ho with ⟨rfl, htx⟩ | ⟨-, ho⟩
    · exact kept tx htx k c hc
    · exact ⟨tx, ho, hc⟩
  refine ⟨fun j x hx => h.safe_put safe x hx, ?_, ?_, ?_, h.valid, ?_, h.usedRows, ?_, h.usedLog,
    fun j hj => h.unborn_put hj, h.history⟩
  · intro j tx k c ho hc
    obtain ⟨tx', ho', hc'⟩ := back j tx k c ho hc
    exact h.base j tx' k c ho' hc'
  · intro j j' tx tx' k c c' ho ho' hc hc'
    obtain ⟨_, ho, hc⟩ := back j tx k c ho hc
    obtain ⟨_, ho', hc'⟩ := back j' tx' k c' ho' hc'
    exact h.exclusive j j' _ _ k c c' ho ho' hc hc'
  · intro j tx k c ho hc hf
    obtain ⟨tx', ho', hc'⟩ := back j tx k c ho hc
    exact h.fresh j tx' k c ho' hc' hf
  · intro j tx k c r ho hc hr
    obtain ⟨tx', ho', hc'⟩ := back j tx k c ho hc
    exact h.validOpen j tx' k c r ho' hc' hr
  · intro j tx k c ho hc
    obtain ⟨tx', ho', hc'⟩ := back j tx k c ho hc
    exact h.usedOpen j tx' k c ho' hc'

/-- A session that locks row `k`, which no other transaction holds. -/
theorem lock (h : Consistent spec rows₀ s) (ho : s.Open i tx) (free : ¬s.Locked i k)
    (safe : session.Safe spec (s.past i)) (htx : session.tx = some tx')
    (other : ∀ k', k' ≠ k → tx'.changes k' = tx.changes k') {c : Change R} (hc : tx'.changes k = some c)
    (hbase : c.base = s.rows k) (hvalid : ∀ r, c.new = some r → spec.row k r)
    (hfresh : c.fresh = true → rows₀ k = none ∧ ∀ e ∈ s.log, e.tx.changes k = none) :
    Consistent spec rows₀ { s.put i session with used := fun k' => s.used k' ∨ k' = k } := by
  -- a change open after the step is the new one, or was open before it in the same session
  have back : ∀ j t k' c', (s.put i session).Open j t → t.changes k' = some c' →
      (j = i ∧ k' = k ∧ c' = c) ∨ ((k' = k → j = i) ∧ ∃ t', s.Open j t' ∧ t'.changes k' = some c') := by
    intro j t k' c' hj hc'
    rcases State.open_put hj with ⟨rfl, ht⟩ | ⟨hne, hj⟩
    · obtain rfl : tx' = t := Option.some.inj (htx.symm.trans ht)
      by_cases hk : k' = k
      · subst hk
        exact Or.inl ⟨rfl, rfl, Option.some.inj (hc'.symm.trans hc)⟩
      · exact Or.inr ⟨fun h => absurd h hk, tx, ho, (other k' hk) ▸ hc'⟩
    · exact Or.inr ⟨fun hk => absurd ⟨j, t, c', hne, hj, hk ▸ hc'⟩ free, t, hj, hc'⟩
  refine ⟨fun j x hx => h.safe_put safe x hx, ?_, ?_, ?_, h.valid, ?_, fun k' hk' => Or.inl (h.usedRows k' hk'), ?_,
    fun e he k' c' hc' => Or.inl (h.usedLog e he k' c' hc'), fun j hj => h.unborn_put hj, h.history⟩
  · intro j t k' c' hj hc'
    rcases back j t k' c' hj hc' with ⟨-, rfl, rfl⟩ | ⟨-, t', hj', hc'⟩
    · exact hbase
    · exact h.base j t' k' c' hj' hc'
  · intro j j' t t' k' a b hj hj' ha hb
    rcases back j t k' a hj ha with ⟨rfl, hk, -⟩ | ⟨hji, u, hu, ha⟩ <;>
      rcases back j' t' k' b hj' hb with ⟨rfl, hk', -⟩ | ⟨hji', u', hu', hb⟩
    · rfl
    · exact (hji' hk).symm
    · exact hji hk'
    · exact h.exclusive j j' u u' k' a b hu hu' ha hb
  · intro j t k' c' hj hc' hf
    rcases back j t k' c' hj hc' with ⟨-, rfl, rfl⟩ | ⟨-, t', hj', hc'⟩
    · exact hfresh hf
    · exact h.fresh j t' k' c' hj' hc' hf
  · intro j t k' c' r hj hc' hr
    rcases back j t k' c' hj hc' with ⟨-, rfl, rfl⟩ | ⟨-, t', hj', hc'⟩
    · exact hvalid r hr
    · exact h.validOpen j t' k' c' r hj' hc' hr
  · intro j t k' c' hj hc'
    rcases back j t k' c' hj hc' with ⟨-, rfl, -⟩ | ⟨-, t', hj', hc'⟩
    · exact Or.inr rfl
    · exact Or.inl (h.usedOpen j t' k' c' hj' hc')

/-- A session that commits: its changes become the committed versions. -/
theorem commit (h : Consistent spec rows₀ s) (ho : s.Open i tx) (ok : spec.commit q (s.past i) tx)
    (safe : session.Safe spec (tx :: s.past i)) (htx : session.tx = none) :
    Consistent spec rows₀ { s.put i session with rows := tx.apply s.rows, log := ⟨i, q, tx⟩ :: s.log } := by
  have past : ∀ j, State.past { s.put i session with rows := tx.apply s.rows, log := ⟨i, q, tx⟩ :: s.log } j =
      if j = i then tx :: s.past i else s.past j := by
    intro j
    by_cases hj : j = i
    · subst hj
      simp [State.past]
    · simp [State.past, hj, Ne.symm hj]
  -- what another transaction holds, this one has not changed
  have others : ∀ j t, (s.put i session).Open j t → j ≠ i ∧ s.Open j t ∧
      ∀ k c, t.changes k = some c → tx.changes k = none := by
    intro j t hj
    rcases State.open_put hj with ⟨-, ht⟩ | ⟨hne, hj⟩
    · rw [htx] at ht
      cases ht
    · refine ⟨hne, hj, fun k c hc => ?_⟩
      cases hk : tx.changes k with
      | none => rfl
      | some c' => exact absurd (h.exclusive j i t tx k c c' hj ho hc hk) hne
  refine ⟨?_, ?_, ?_, ?_, ?_, ?_, h.usedRows, ?_, ?_, ?_, .cons h.history ok ?_ ?_⟩
  · intro j x hx
    rw [past]
    by_cases hj : j = i
    · subst hj
      rw [if_pos rfl]
      exact Option.some.inj ((State.sessions_put (s := s)).symm.trans hx) ▸ safe
    · rw [if_neg hj]
      exact h.safe j x ((State.sessions_put_of_ne hj).symm.trans hx)
  · intro j t k c hj hc
    obtain ⟨-, hj, hno⟩ := others j t hj
    exact (h.base j t k c hj hc).trans (Tx.view_of_unchanged (hno k c hc)).symm
  · intro j j' t t' k c c' hj hj' hc hc'
    exact h.exclusive j j' t t' k c c' (others j t hj).2.1 (others j' t' hj').2.1 hc hc'
  · intro j t k c hj hc hf
    obtain ⟨-, hj, hno⟩ := others j t hj
    refine ⟨(h.fresh j t k c hj hc hf).1, fun e he => ?_⟩
    rcases List.mem_cons.mp he with rfl | he
    · exact hno k c hc
    · exact (h.fresh j t k c hj hc hf).2 e he
  · intro k r hr
    cases hc : tx.changes k with
    | none => exact h.valid k r (by simpa only [Tx.apply, Tx.view_of_unchanged hc] using hr)
    | some c => exact h.validOpen i tx k c r ho hc (by simpa only [Tx.apply, Tx.view_of_changes hc] using hr)
  · exact fun j t k c r hj hc hr => h.validOpen j t k c r (others j t hj).2.1 hc hr
  · intro j t k c hj hc
    exact h.usedOpen j t k c (others j t hj).2.1 hc
  · intro e he k c hc
    rcases List.mem_cons.mp he with rfl | he
    · exact h.usedOpen i tx k c ho hc
    · exact h.usedLog e he k c hc
  · intro j hj
    rw [past]
    by_cases hji : j = i
    · subst hji
      exact absurd ((State.sessions_put (s := s)).symm.trans hj) (by simp)
    · rw [if_neg hji]
      exact h.unborn j ((State.sessions_put_of_ne hji).symm.trans hj)
  · exact fun k c hc => h.base i tx k c ho hc
  · exact fun k c hc hf => h.fresh i tx k c ho hc hf

/-- The key of every row is in use. -/
theorem used (h : Consistent spec rows₀ s) (hr : s.rows k ≠ none) : s.used k := by
  by_contra unused
  have first : rows₀ k = none := by_contra fun h₀ => unused (h.usedRows k h₀)
  refine hr (serial_unseen h.history first fun e he => ?_)
  exact Option.eq_none_iff_forall_ne_some.mpr fun c hc => unused (h.usedLog e he k c hc)

end Consistent

/-! ### Every step keeps it -/

variable {serve : Q → Prog K R E I A}

theorem Consistent.safe_at (h : Consistent spec rows₀ s) {prog : Prog K R E I A} {tx : Option (Tx K R E)}
    (here : s.At i q prog tx) : prog.Safe spec q (s.past i) tx :=
  h.safe i _ here

theorem Consistent.valid_view (h : Consistent spec rows₀ s) (ho : s.Open i tx) {r : R}
    (hr : tx.view k (s.rows k) = some r) : spec.row k r := by
  cases hc : tx.changes k with
  | none => exact h.valid k r (by rwa [Tx.view_of_unchanged hc] at hr)
  | some c => exact h.validOpen i tx k c r ho hc (by rwa [Tx.view_of_changes hc] at hr)

theorem Consistent.step (serves : ∀ q, (serve q).Safe spec q [] none)
    {s s' : State Q K R E I A} (h : Consistent spec rows₀ s) (step : Step serve s s') : Consistent spec rows₀ s' := by
  have keep : ∀ {i q prog} {tx : Option (Tx K R E)}, s.At i q prog tx → ∀ t, tx = some t →
      ∀ k c, t.changes k = some c → ∃ t', s.Open i t' ∧ t'.changes k = some c := by
    intro i q prog tx here t ht k c hc
    exact ⟨t, ⟨_, here, ht⟩, hc⟩
  cases step with
  | tick t later => exact h.tick t
  | arrive i q new => exact h.put (by rw [h.unborn i new]; exact serves q) (by rintro _ ⟨⟩)
  | start here => exact h.put (h.safe_at here _) (by rintro _ ⟨⟩ k c hc; simp at hc)
  | clock here => exact h.put (h.safe_at here _) (keep here)
  | ask a here => exact h.put (h.safe_at here a) (keep here)
  | scan snapshot here seen =>
    exact h.put (h.safe_at here snapshot seen.sees fun k r hr =>
      h.valid_view here.open_ ((seen.2 k r).mp hr)) (keep here)
  | miss here free no => exact h.put (((h.safe_at here).2 _ fun r hr => h.valid_view here.open_ hr).1 no) (keep here)
  | skip here held => exact h.put ((h.safe_at here).1 rfl) (keep here)
  | duplicate here held => exact h.put (h.safe_at here).1 (keep here)
  | @hit i q _ k f next tx new here free yes =>
    obtain ⟨hvalid, safe⟩ := ((h.safe_at here).2 _ fun r hr => h.valid_view here.open_ hr).2 new yes
    refine h.lock here.open_ free safe rfl (fun k' hk => Tx.changes_write_of_ne hk) Tx.changes_write ?_ ?_ ?_
    · cases hc : tx.changes k with
      | none => rfl
      | some c => exact h.base i tx k c here.open_ hc
    · cases hc : tx.changes k with
      | none => exact hvalid
      | some c => exact hvalid
    · cases hc : tx.changes k with
      | none => rintro ⟨⟩
      | some c => exact h.fresh i tx k c here.open_ hc
  | @insert i q row conflict next tx r k here keyed new free =>
    have unheld : ∀ j t c, s.Open j t → t.changes k = some c → False := fun j t c ho hc =>
      new (h.usedOpen j t k c ho hc)
    have untouched : tx.changes k = none := Option.eq_none_iff_forall_ne_some.mpr fun c hc =>
      unheld i tx c here.open_ hc
    have unseen : rows₀ k = none ∧ ∀ e ∈ s.log, e.tx.changes k = none :=
      ⟨by_contra fun hr => new (h.usedRows k hr),
        fun e he => Option.eq_none_iff_forall_ne_some.mpr fun c hc => new (h.usedLog e he k c hc)⟩
    exact h.lock here.open_ (fun ⟨j, t, c, _, ho, hc⟩ => unheld j t c ho hc)
      ((h.safe_at here).2 k r keyed untouched).2 rfl (fun k' hk => Tx.changes_create_of_ne hk) Tx.changes_create
      (serial_unseen h.history unseen.1 unseen.2).symm
      (fun _ hr => Option.some.inj hr ▸ ((h.safe_at here).2 k r keyed untouched).1) (fun _ => unseen)
  | emit here =>
    have safe := h.safe_at here
    exact h.put safe (by rintro _ ⟨⟩ k c hc; exact ⟨_, here.open_, hc⟩)
  | commit here => exact h.commit here.open_ (h.safe_at here).1 (h.safe_at here).2 rfl
  | rollback here =>
    have safe := h.safe_at here
    exact h.put safe (by rintro _ ⟨⟩)
  | answer here => exact h.put (h.safe_at here) (by rintro _ ⟨⟩)
  | crash here => exact h.put trivial (by rintro _ ⟨⟩)

/-- Interleaved transactions refine atomic ones: in every reachable state the log is a serial history
    of the committed rows. -/
theorem Reachable.consistent (serves : ∀ q, (serve q).Safe spec q [] none)
    (valid : ∀ k r, rows₀ k = some r → spec.row k r) (h : Reachable serve rows₀ s) : Consistent spec rows₀ s := by
  obtain ⟨now, used, hu, run⟩ := h
  induction run with
  | refl => exact .initial hu valid
  | tail _ step ih => exact ih.step serves step

/-! ### The log -/

/-- What is committed stays. -/
theorem log_suffix {s s' : State Q K R E I A} (h : Relation.ReflTransGen (Step serve) s s') : s.log <:+ s'.log := by
  induction h with
  | refl => exact List.suffix_rfl
  | tail _ step ih =>
    refine ih.trans ?_
    cases step with
    | commit here => exact List.suffix_cons ..
    | _ => exact List.suffix_rfl

/-! ### Whose commit it is -/

/-- Each commit belongs to a session serving its request. -/
def Attributed (s : State Q K R E I A) : Prop :=
  ∀ e ∈ s.log, ∃ session, s.sessions e.session = some session ∧ session.request = e.request

namespace Attributed
variable {s : State Q K R E I A} {i : Nat} {session : Session Q K R E I A}

omit [DecidableEq K] in
theorem put (h : Attributed s) (same : ∀ x, s.sessions i = some x → x.request = session.request) :
    Attributed (s.put i session) := by
  intro e he
  obtain ⟨x, hx, hq⟩ := h e he
  by_cases hi : e.session = i
  · refine ⟨session, by rw [hi]; exact State.sessions_put, ?_⟩
    exact (same x (hi ▸ hx)).symm.trans hq
  · exact ⟨x, (State.sessions_put_of_ne hi).trans hx, hq⟩

theorem step {s s' : State Q K R E I A} (h : Attributed s) (step : Step serve s s') : Attributed s' := by
  have same : ∀ {i q prog tx} (x : Session Q K R E I A), s.At i q prog tx → s.sessions i = some x → x.request = q := by
    intro i q prog tx x here hx
    rw [Option.some.inj (hx.symm.trans here)]
  cases step with
  | tick => exact h
  | arrive i q new => exact h.put fun x hx => by rw [new] at hx; cases hx
  | start here | clock here | scan _ here _ | miss here _ _ | skip here _ | duplicate here _ | emit here | rollback here
  | answer here | crash here => exact h.put fun x hx => same x here hx
  | ask _ here => exact h.put fun x hx => same x here hx
  | hit here _ _ => exact h.put fun x hx => same x here hx
  | insert _ here _ _ _ => exact h.put fun x hx => same x here hx
  | @commit i q next tx here =>
    have kept : Attributed (s.put i ⟨q, .running next, none⟩) := h.put fun x hx => same x here hx
    intro e he
    rcases List.mem_cons.mp he with rfl | he
    · exact ⟨_, State.sessions_put, rfl⟩
    · exact kept e he

omit [DecidableEq K] in
/-- A transaction that a session has committed is one of its request's. -/
theorem request {tx : Tx K R E} (h : Attributed s) (hs : s.sessions i = some session) (htx : tx ∈ s.past i) :
    ∃ e ∈ s.log, e.session = i ∧ e.tx = tx ∧ e.request = session.request := by
  obtain ⟨e, he, rfl, rfl⟩ := State.exists_of_mem_past htx
  obtain ⟨session', hs', hq⟩ := h e he
  obtain rfl := Option.some.inj (hs.symm.trans hs')
  exact ⟨e, he, rfl, rfl, hq.symm⟩

end Attributed

theorem Reachable.attributed (h : Reachable serve rows₀ s) : Attributed s := by
  obtain ⟨now, used, -, run⟩ := h
  induction run with
  | refl => exact fun _ he => by cases he
  | tail _ step ih => exact ih.step step

end Postgres
