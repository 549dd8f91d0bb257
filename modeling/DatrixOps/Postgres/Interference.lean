import DatrixOps.Postgres.Rules

/-! What a request keeps true of the committed rows while others commit beside it. Between two of its own
    commands any number of other transactions may commit: they leave the rows it holds alone and satisfy
    what it relies on. What it then owes is computed from its program by `Prog.Holds`. -/

namespace Postgres

variable {Q K R T E I A : Type}

/-- The committed rows and the commits that led to them, newest first. -/
structure World (Q K R E : Type) where
  rows : K → Option R
  log : List (Commit Q K R E)

namespace World

def commit (w : World Q K R E) (e : Commit Q K R E) : World Q K R E := ⟨e.tx.apply w.rows, e :: w.log⟩

/-- The transactions session `i` has committed, newest first. -/
def past (w : World Q K R E) (i : Nat) : List (Tx K R E) := (w.log.filter (·.session == i)).map (·.tx)

/-- What a statement of `tx` sees. -/
def Snapshot (w : World Q K R E) (tx : Tx K R E) (snapshot : List (K × R)) : Prop :=
  (snapshot.map Prod.fst).Nodup ∧ ∀ k r, (k, r) ∈ snapshot ↔ tx.view k (w.rows k) = some r

/-- A key that has never had a row. -/
def Unborn (w : World Q K R E) (k : K) : Prop := w.rows k = none ∧ ∀ e ∈ w.log, e.tx.changes k = none

def Valid (spec : Spec Q K R E A) (w : World Q K R E) : Prop := ∀ k r, w.rows k = some r → spec.row k r

variable {w : World Q K R E} {e : Commit Q K R E} {i : Nat} {k : K}

theorem rows_commit_of_changes {c : Change R} (h : e.tx.changes k = some c) : (w.commit e).rows k = c.new :=
  Tx.view_of_changes h

theorem rows_commit_of_unchanged (h : e.tx.changes k = none) : (w.commit e).rows k = w.rows k :=
  Tx.view_of_unchanged h

theorem past_commit_self : (w.commit e).past e.session = e.tx :: w.past e.session := by simp [past, commit]

theorem forall_past_commit {q : Q} {tx : Tx K R E} {P : Tx K R E → Prop} (h : ∀ tx' ∈ w.past i, P tx') (htx : P tx) :
    ∀ tx' ∈ (w.commit ⟨i, q, tx⟩).past i, P tx' := by
  rw [past_commit_self (e := ⟨i, q, tx⟩)]
  exact List.forall_mem_cons.mpr ⟨htx, h⟩

theorem past_commit_of_ne (h : e.session ≠ i) : (w.commit e).past i = w.past i := by simp [past, commit, h]

theorem Snapshot.sees {tx : Tx K R E} {snapshot : List (K × R)} (h : w.Snapshot tx snapshot) : tx.Sees snapshot :=
  ⟨h.1, fun k c r hc => by rw [h.2 k r, Tx.view_of_changes hc]⟩

end World

def State.world (s : State Q K R E I A) : World Q K R E := ⟨s.rows, s.log⟩

/-- What holds of the committed rows, the commits of the runs in question, what a session knows of those of others
    by the transaction it has open, what the outside may reply, and what an answer promises from then on. -/
structure Contract (Q K R E I A : Type) where
  spec : Spec Q K R E A
  inv : World Q K R E → Prop
  admits : World Q K R E → Commit Q K R E → Prop
  rely : Option (Tx K R E) → World Q K R E → Commit Q K R E → Prop
  reply : Q → I → Prop
  answer : Nat → Q → A → World Q K R E → Prop

namespace Contract

def Good (C : Contract Q K R E I A) (w : World Q K R E) : Prop := w.Valid C.spec ∧ C.inv w

/-- Another session commits while session `i` has `tx` open. -/
inductive Moves (C : Contract Q K R E I A) (i : Nat) (tx : Option (Tx K R E)) (w : World Q K R E) :
    World Q K R E → Prop
  | commit (e : Commit Q K R E) (other : e.session ≠ i)
      (apart : ∀ t, tx = some t → ∀ k c, t.changes k = some c → e.tx.changes k = none)
      (base : ∀ k c, e.tx.changes k = some c → c.base = w.rows k)
      (ok : C.spec.commit e.request (w.past e.session) e.tx) (admitted : C.admits w e) (known : C.rely tx w e)
      (good : C.Good (w.commit e)) : Moves C i tx w (w.commit e)

/-- `φ` holds now, and whatever the others commit. -/
def Always (C : Contract Q K R E I A) (i : Nat) (tx : Option (Tx K R E)) (φ : World Q K R E → Prop)
    (w : World Q K R E) : Prop :=
  ∀ w', Relation.ReflTransGen (C.Moves i tx) w w' → φ w'

variable {C : Contract Q K R E I A} {i : Nat} {tx : Option (Tx K R E)} {φ : World Q K R E → Prop} {w w' : World Q K R E}

theorem Moves.past (h : C.Moves i tx w w') : w'.past i = w.past i := by
  cases h with
  | commit e other => exact World.past_commit_of_ne other

theorem Always.now (h : C.Always i tx φ w) : φ w := h w .refl

theorem Always.move (h : C.Always i tx φ w) (move : C.Moves i tx w w') : C.Always i tx φ w' :=
  fun w'' run => h w'' (.head move run)

/-- What no commit of another session breaks holds always. -/
theorem always {J : World Q K R E → Prop} (good : C.Good w) (h : J w)
    (stable : ∀ w w', C.Good w → J w → C.Moves i tx w w' → J w') (out : ∀ w, C.Good w → J w → φ w) :
    C.Always i tx φ w := by
  intro w' run
  suffices C.Good w' ∧ J w' from out w' this.1 this.2
  induction run with
  | refl => exact ⟨good, h⟩
  | tail _ move ih =>
    refine ⟨?_, stable _ _ ih.1 ih.2 move⟩
    cases move with
    | commit e _ _ _ _ _ _ good => exact good

end Contract

section
variable [DecidableEq K]

/-- The verification condition of a program of session `i` serving `q`: whatever comes back and whatever the
    others commit in between, its commits keep the invariant and its answer keeps its promise. -/
def Prog.Holds (C : Contract Q K R E I A) (i : Nat) (q : Q) :
    Prog K R E I A → Option (Tx K R E) → World Q K R E → Prop
  | .answer a, tx => C.Always i tx (C.Always i none (C.answer i q a))
  | .start next, none => C.Always i none fun w => ∀ t, (next t).Holds C i q (some (.empty t)) w
  | .clock next, tx => C.Always i tx fun w => ∀ t, (next t).Holds C i q tx w
  | .ask next, tx => C.Always i tx fun w => ∀ a, C.reply q a → (next a).Holds C i q tx w
  | .scan next, some tx => C.Always i (some tx) fun w => ∀ snapshot, w.Snapshot tx snapshot →
      (∀ k r, (k, r) ∈ snapshot → C.spec.row k r) → (next snapshot).Holds C i q (some tx) w
  | .access skip k f next, some tx => C.Always i (some tx) fun w =>
      (skip = true → (next none).Holds C i q (some tx) w) ∧
      ((∀ r, tx.view k (w.rows k) = some r → C.spec.row k r) →
        (f (tx.view k (w.rows k)) = none → (next none).Holds C i q (some tx) w) ∧
        ∀ new, f (tx.view k (w.rows k)) = some new →
          (next (some new)).Holds C i q (some (tx.write k (w.rows k) new)) w)
  | .insert row conflict next, some tx => C.Always i (some tx) fun w => (next none).Holds C i q (some tx) w ∧
      ∀ k r, row k = some r → w.Unborn k → tx.changes k = none →
        (∀ k' r', tx.view k' (w.rows k') = some r' → conflict r' = false) →
        (next (some k)).Holds C i q (some (tx.create k r)) w
  | .emit events next, some tx => C.Always i (some tx) fun w => next.Holds C i q (some (tx.emit events)) w
  | .commit next, some tx => C.Always i (some tx) fun w =>
      (∀ k c, tx.changes k = some c → c.base = w.rows k) → C.spec.commit q (w.past i) tx →
      (w.commit ⟨i, q, tx⟩).Valid C.spec → C.admits w ⟨i, q, tx⟩ →
      C.inv (w.commit ⟨i, q, tx⟩) ∧ next.Holds C i q none (w.commit ⟨i, q, tx⟩)
  | .rollback next, some tx => C.Always i (some tx) fun w => next.Holds C i q none w
  | _, _ => fun _ => False

/-- What is left of a session's request, and what its answer promised. -/
def Session.Holds (C : Contract Q K R E I A) (i : Nat) (session : Session Q K R E I A) (w : World Q K R E) : Prop :=
  match session.control with
  | .running prog => prog.Holds C i session.request session.tx w
  | .answered a => C.Always i session.tx (C.answer i session.request a) w
  | .crashed => True

variable {C : Contract Q K R E I A} {i j : Nat} {q : Q} {tx : Tx K R E} {w w' : World Q K R E}

theorem Prog.Holds.move {prog : Prog K R E I A} {tx : Option (Tx K R E)} (h : prog.Holds C i q tx w)
    (move : C.Moves i tx w w') : prog.Holds C i q tx w' := by
  cases prog <;> cases tx <;> first | exact Contract.Always.move h move | exact h

theorem Session.Holds.move {session : Session Q K R E I A} (h : session.Holds C i w)
    (move : C.Moves i session.tx w w') : session.Holds C i w' := by
  obtain ⟨q, control, tx⟩ := session
  cases control with
  | running prog => exact Prog.Holds.move h move
  | answered a => exact Contract.Always.move h move
  | crashed => trivial

/-! ### Every step keeps it -/

/-- The invariant holds of the committed rows, and every session keeps to its contract. -/
structure Upheld (C : Contract Q K R E I A) (s : State Q K R E I A) : Prop where
  inv : C.inv s.world
  holds : ∀ i session, s.sessions i = some session → session.Holds C i s.world

variable {serve : Q → Prog K R E I A} {rows₀ : K → Option R} {s s' : State Q K R E I A}

namespace Upheld

theorem put {session : Session Q K R E I A} (h : Upheld C s) (hs : session.Holds C i s.world) :
    Upheld C (s.put i session) := by
  refine ⟨h.inv, fun j x hx => ?_⟩
  by_cases hj : j = i
  · subst hj
    rw [State.sessions_put] at hx
    exact Option.some.inj hx ▸ hs
  · rw [State.sessions_put_of_ne hj] at hx
    exact h.holds j x hx

theorem at_ (h : Upheld C s) {prog : Prog K R E I A} {tx : Option (Tx K R E)} (here : s.At i q prog tx) :
    prog.Holds C i q tx s.world := h.holds i _ here

/-- The state in which session `i` has committed `tx`. -/
def committed (s : State Q K R E I A) (i : Nat) (q : Q) (next : Prog K R E I A) (tx : Tx K R E) : State Q K R E I A :=
  { s.put i ⟨q, .running next, none⟩ with rows := tx.apply s.rows, log := ⟨i, q, tx⟩ :: s.log }

theorem commit (consistent : Consistent C.spec rows₀ s) (after : Consistent C.spec rows₀ s') {next : Prog K R E I A}
    (here : s.At i q (.commit next) (some tx)) (hs : s' = committed s i q next tx) (h : Upheld C s)
    (admitted : C.admits s.world ⟨i, q, tx⟩)
    (relies : ∀ j session, j ≠ i → s.sessions j = some session → C.rely session.tx s.world ⟨i, q, tx⟩) :
    Upheld C s' := by
  subst hs
  have base : ∀ k c, tx.changes k = some c → c.base = s.world.rows k :=
    fun k c hc => consistent.base i tx k c here.open_ hc
  have ok : C.spec.commit q (s.world.past i) tx := (consistent.safe_at here).1
  have holds := Contract.Always.now (h.at_ here) base ok after.valid admitted
  refine ⟨holds.1, fun j x hx => ?_⟩
  by_cases hj : j = i
  · subst hj
    obtain rfl := Option.some.inj ((State.sessions_put (s := s)).symm.trans hx)
    exact holds.2
  · have hx : s.sessions j = some x := (State.sessions_put_of_ne hj).symm.trans hx
    refine (h.holds j x hx).move (.commit ⟨i, q, tx⟩ (Ne.symm hj) (fun t ht k c hc => ?_) base ok
      admitted (relies j x hj hx) ⟨after.valid, holds.1⟩)
    -- a row held by session `j` is not one that session `i` has changed
    refine Option.eq_none_iff_forall_ne_some.mpr fun c' hc' => hj ?_
    exact consistent.exclusive j i t tx k c c' ⟨x, hx, ht⟩ here.open_ hc hc'

theorem step (serves : ∀ q, (serve q).Safe C.spec q [] none) (consistent : Consistent C.spec rows₀ s)
    (holds : ∀ i q w, C.Good w → w.past i = [] → (serve q).Holds C i q none w)
    (replies : ∀ i q next tx a, s.At i q (.ask next) tx → s' = s.put i ⟨q, .running (next a), tx⟩ → C.reply q a)
    (relies : ∀ i q next tx, s.At i q (.commit next) (some tx) → s' = committed s i q next tx →
      C.admits s.world ⟨i, q, tx⟩ ∧ ∀ j session, j ≠ i → s.sessions j = some session →
      C.rely session.tx s.world ⟨i, q, tx⟩)
    (h : Upheld C s) (step : Step serve s s') : Upheld C s' := by
  have after := consistent.step serves step
  cases step with
  | tick t later => exact ⟨h.inv, h.holds⟩
  | arrive i q new => exact h.put (holds i q s.world ⟨consistent.valid, h.inv⟩ (consistent.unborn i new))
  | start here => exact h.put (Contract.Always.now (h.at_ here) _)
  | clock here => exact h.put (Contract.Always.now (h.at_ here) _)
  | ask a here => exact h.put (Contract.Always.now (h.at_ here) a (replies _ _ _ _ a here rfl))
  | scan snapshot here seen =>
    exact h.put (Contract.Always.now (h.at_ here) snapshot seen fun k r hr =>
      consistent.valid_view here.open_ ((seen.2 k r).mp hr))
  | miss here free no =>
    exact h.put (((Contract.Always.now (h.at_ here)).2 fun r hr => consistent.valid_view here.open_ hr).1 no)
  | @hit i q _ k f next tx new here free yes =>
    have kept : Session.Holds C i ⟨q, .running (next (some new)), some (tx.write k (s.rows k) new)⟩ s.world :=
      ((Contract.Always.now (h.at_ here)).2 fun r hr => consistent.valid_view here.open_ hr).2 new yes
    exact ⟨(h.put kept).inv, (h.put kept).holds⟩
  | skip here held => exact h.put ((Contract.Always.now (h.at_ here)).1 rfl)
  | @insert i q row conflict next tx r k here keyed new free =>
    have untouched : tx.changes k = none := Option.eq_none_iff_forall_ne_some.mpr fun c hc =>
      new (consistent.usedOpen i tx k c here.open_ hc)
    have unseen : ∀ e ∈ s.log, e.tx.changes k = none := fun e he =>
      Option.eq_none_iff_forall_ne_some.mpr fun c hc => new (consistent.usedLog e he k c hc)
    have gone : s.rows k = none :=
      serial_unseen consistent.history (by_contra fun hr => new (consistent.usedRows k hr)) unseen
    have kept : Session.Holds C i ⟨q, .running (next (some k)), some (tx.create k r)⟩ s.world :=
      (Contract.Always.now (h.at_ here)).2 k r keyed ⟨gone, unseen⟩ untouched free.1
    exact ⟨(h.put kept).inv, (h.put kept).holds⟩
  | duplicate here held => exact h.put (Contract.Always.now (h.at_ here)).1
  | emit here => exact h.put (Contract.Always.now (h.at_ here))
  | commit here => exact commit consistent after here rfl h (relies _ _ _ _ here rfl).1 (relies _ _ _ _ here rfl).2
  | rollback here => exact h.put (Contract.Always.now (h.at_ here))
  | @answer i q a tx here => exact h.put (Contract.Always.now (h.at_ here))
  | @crash i q _ _ here =>
    have kept : Session.Holds C i ⟨q, .crashed, none⟩ s.world := trivial
    exact h.put kept

end Upheld

/-- The states of the runs from `rows₀` whose steps are all allowed. -/
def ReachableBy (serve : Q → Prog K R E I A) (allowed : State Q K R E I A → State Q K R E I A → Prop)
    (rows₀ : K → Option R) (s : State Q K R E I A) : Prop :=
  ∃ now used, (∀ k, rows₀ k ≠ none → used k) ∧
    Relation.ReflTransGen (fun s s' => Step serve s s' ∧ allowed s s') (.initial now rows₀ used) s

theorem ReachableBy.reachable {allowed : State Q K R E I A → State Q K R E I A → Prop}
    (h : ReachableBy serve allowed rows₀ s) : Reachable serve rows₀ s := by
  obtain ⟨now, used, hu, run⟩ := h
  exact ⟨now, used, hu, run.lift id fun _ _ step => step.1⟩

/-- Along a run whose allowed steps give the replies and the commits of others that the contract relies on, the
    contract stays upheld. -/
theorem Upheld.run {allowed : State Q K R E I A → State Q K R E I A → Prop}
    (serves : ∀ q, (serve q).Safe C.spec q [] none)
    (holds : ∀ i q w, C.Good w → w.past i = [] → (serve q).Holds C i q none w)
    (replies : ∀ s i q next tx a, allowed s (s.put i ⟨q, .running (next a), tx⟩) →
      s.At i q (.ask next) tx → C.reply q a)
    (relies : ∀ s i q next tx, Consistent C.spec rows₀ s → Upheld C s → s.At i q (.commit next) (some tx) →
      allowed s (Upheld.committed s i q next tx) → C.admits s.world ⟨i, q, tx⟩ ∧
        ∀ j session, j ≠ i → s.sessions j = some session → C.rely session.tx s.world ⟨i, q, tx⟩)
    (consistent : Consistent C.spec rows₀ s) (h : Upheld C s)
    (run : Relation.ReflTransGen (fun s s' => Step serve s s' ∧ allowed s s') s s') :
    Consistent C.spec rows₀ s' ∧ Upheld C s' := by
  induction run with
  | refl => exact ⟨consistent, h⟩
  | tail _ step ih =>
    refine ⟨ih.1.step serves step.1, ih.2.step serves ih.1 holds ?_ ?_ step.1⟩
    · rintro i q next tx a here rfl
      exact replies _ i q next tx a step.2 here
    · rintro i q next tx here rfl
      exact relies _ i q next tx ih.1 ih.2 here step.2

/-- Along such a run from the start the contract is upheld. -/
theorem ReachableBy.upheld {allowed : State Q K R E I A → State Q K R E I A → Prop}
    (serves : ∀ q, (serve q).Safe C.spec q [] none)
    (holds : ∀ i q w, C.Good w → w.past i = [] → (serve q).Holds C i q none w)
    (replies : ∀ s i q next tx a, allowed s (s.put i ⟨q, .running (next a), tx⟩) →
      s.At i q (.ask next) tx → C.reply q a)
    (relies : ∀ s i q next tx, Consistent C.spec rows₀ s → Upheld C s → s.At i q (.commit next) (some tx) →
      allowed s (Upheld.committed s i q next tx) → C.admits s.world ⟨i, q, tx⟩ ∧
        ∀ j session, j ≠ i → s.sessions j = some session → C.rely session.tx s.world ⟨i, q, tx⟩)
    (valid : ∀ k r, rows₀ k = some r → C.spec.row k r) (inv : C.inv ⟨rows₀, []⟩)
    (h : ReachableBy serve allowed rows₀ s) : Consistent C.spec rows₀ s ∧ Upheld C s := by
  obtain ⟨now, used, hu, run⟩ := h
  exact Upheld.run serves holds replies relies (.initial hu valid) ⟨inv, fun _ _ h => by cases h⟩ run

/-! ### Rules -/

namespace Prog

/-- A program whose safety alone gives what it owes. `spec` says more of its commits than the contract does of all. -/
theorem Safe.holds {spec : Spec Q K R E A} (row : spec.row = C.spec.row) (keeps : ∀ w tx, C.Good w →
      (∀ k c, tx.changes k = some c → c.base = w.rows k) → C.spec.commit q (w.past i) tx → spec.commit q (w.past i) tx →
      (w.commit ⟨i, q, tx⟩).Valid C.spec → C.admits w ⟨i, q, tx⟩ → C.inv (w.commit ⟨i, q, tx⟩))
    (answers : ∀ a w, C.answer i q a w) {prog : Prog K R E I A} : ∀ {tx past w}, C.Good w → w.past i = past →
      prog.Safe spec q past tx → prog.Holds C i q tx w := by
  have always : ∀ {φ : World Q K R E → Prop} {tx : Option (Tx K R E)} {past : List (Tx K R E)} {w : World Q K R E},
      C.Good w → w.past i = past → (∀ w, C.Good w → w.past i = past → φ w) → C.Always i tx φ w := by
    intro φ tx past w good hp out
    exact Contract.always good hp (fun _ _ _ hp move => move.past.trans hp) out
  induction prog with
  | answer a => exact fun good hp _ => always good hp fun w good hp => always good hp fun w _ _ => answers a w
  | start next ih =>
    intro tx past w good hp safe
    cases tx with
    | some _ => exact safe.elim
    | none => exact always good hp fun w good hp t => ih t good hp (safe t)
  | clock next ih => exact fun good hp safe => always good hp fun w good hp t => ih t good hp (safe t)
  | ask next ih => exact fun good hp safe => always good hp fun w good hp a _ => ih a good hp (safe a)
  | scan next ih =>
    intro tx past w good hp safe
    cases tx with
    | none => exact safe.elim
    | some tx =>
      exact always good hp fun w good hp snapshot seen valid =>
        ih snapshot good hp (safe snapshot seen.sees fun k r hr => row ▸ valid k r hr)
  | access skip k f next ih =>
    intro tx past w good hp safe
    cases tx with
    | none => exact safe.elim
    | some tx =>
      refine always good hp fun w good hp => ⟨fun hs => ih none good hp (safe.1 hs), fun valid => ?_⟩
      have valid : ∀ r, tx.view k (w.rows k) = some r → spec.row k r := fun r hr => row ▸ valid r hr
      exact ⟨fun no => ih none good hp ((safe.2 _ valid).1 no),
        fun new yes => ih (some new) good hp ((safe.2 _ valid).2 new yes).2⟩
  | insert row conflict next ih =>
    intro tx past w good hp safe
    cases tx with
    | none => exact safe.elim
    | some tx =>
      refine always good hp fun w good hp => ⟨ih none good hp safe.1, fun k r keyed _ untouched _ => ?_⟩
      exact ih (some k) good hp (safe.2 k r keyed untouched).2
  | emit events next ih =>
    intro tx past w good hp safe
    cases tx with
    | none => exact safe.elim
    | some tx => exact always good hp fun w good hp => ih good hp safe
  | commit next ih =>
    intro tx past w good hp safe
    cases tx with
    | none => exact safe.elim
    | some tx =>
      refine always good hp fun w good hp base ok valid admitted => ?_
      have kept := keeps w tx good base ok (hp ▸ safe.1) valid admitted
      refine ⟨kept, ih ⟨valid, kept⟩ ?_ safe.2⟩
      rw [← hp]
      exact World.past_commit_self
  | rollback next ih =>
    intro tx past w good hp safe
    cases tx with
    | none => exact safe.elim
    | some tx => exact always good hp fun w good hp => ih good hp safe

/-- Visiting rows: `J` speaks of the keys still to visit, the rows collected, the transaction and the committed
    rows. -/
theorem holds_visit {J : List K → List (K × R) → Tx K R E → World Q K R E → Prop} {skip : Bool} {limit : Option Nat}
    {f : R → Option (Option R)} {next : List (K × R) → Prog K R E I A}
    (stable : ∀ ks found tx w w', C.Good w → J ks found tx w → C.Moves i (some tx) w w' → J ks found tx w')
    (pass : ∀ k ks found tx w, J (k :: ks) found tx w → skip = true ∨ (tx.view k (w.rows k)).bind f = none →
      J ks found tx w)
    (hit : ∀ k ks found tx w row new, C.Good w → J (k :: ks) found tx w → tx.view k (w.rows k) = some row →
      C.spec.row k row → f row = some new →
        J ks (found ++ (new.map (k, ·)).toList) (tx.write k (w.rows k) new) w)
    (done : ∀ ks found tx w, C.Good w → J ks found tx w → ks = [] ∨ limit = some found.length →
      (next found).Holds C i q (some tx) w) :
    ∀ ks found tx w, C.Good w → J ks found tx w → (visit skip limit f ks found next).Holds C i q (some tx) w
  | [], found, tx, w, good, hJ => done [] found tx w good hJ (Or.inl rfl)
  | k :: ks, found, tx, w, good, hJ => by
    unfold visit
    split
    · rename_i hl
      exact done _ found tx w good hJ (Or.inr hl)
    · refine Contract.always good hJ (stable _ _ _) fun w good hJ =>
        ⟨fun hs => ?_, fun valid => ⟨fun no => ?_, fun new yes => ?_⟩⟩
      · exact holds_visit stable pass hit done ks found tx w good (pass k ks found tx w hJ (Or.inl hs))
      · exact holds_visit stable pass hit done ks found tx w good (pass k ks found tx w hJ (Or.inr no))
      · obtain ⟨row, hrow, yes⟩ := Option.bind_eq_some_iff.mp yes
        have hJ := hit k ks found tx w row new good hJ hrow (valid row hrow) yes
        cases new with
        | none =>
          simp only [Option.map_none, Option.toList_none, List.append_nil] at hJ
          exact holds_visit stable pass hit done ks found _ w good hJ
        | some r => exact holds_visit stable pass hit done ks _ _ w good hJ

/-- A statement on the row of one key. -/
theorem holds_byKey {tab : Table R T} {k : K} {p : T → Bool} {set : T → Option T}
    {next : Option (Option T) → Prog K R E I A}
    {J : World Q K R E → Prop} (good : C.Good w) (hJ : J w)
    (stable : ∀ w w', C.Good w → J w → C.Moves i (some tx) w w' → J w')
    (miss : ∀ w, C.Good w → J w → (next none).Holds C i q (some tx) w)
    (hit : ∀ w t, C.Good w → J w → tx.view k (w.rows k) = some (tab.put t) → C.spec.row k (tab.put t) → p t = true →
      (next (some (set t))).Holds C i q (some (tx.write k (w.rows k) ((set t).map tab.put))) w) :
    (byKey tab k p set next).Holds C i q (some tx) w := by
  refine Contract.always good hJ stable fun w good hJ snapshot _ _ => ?_
  dsimp only
  split
  · refine Contract.always good hJ stable fun w good hJ =>
      ⟨fun h => (by cases h), fun valid => ⟨fun _ => miss w good hJ,
      fun new hf => ?_⟩⟩
    obtain ⟨row, hrow, hf⟩ := Option.bind_eq_some_iff.mp hf
    obtain ⟨t, rfl, hp, rfl⟩ := on_eq_some hf
    have left : ((set t).map tab.put).bind tab.get = set t := by
      cases set t with
      | none => rfl
      | some t' => exact tab.get_put t'
    simpa only [Option.map_some, left] using hit w t good hJ hrow (valid _ hrow) hp
  · exact miss w good hJ

end Prog

/-- Every run is one whose steps are allowed when all are. -/
theorem Reachable.reachableBy (h : Reachable serve rows₀ s) : ReachableBy serve (fun _ _ => True) rows₀ s := by
  obtain ⟨now, used, hu, run⟩ := h
  exact ⟨now, used, hu, run.lift id fun _ _ step => ⟨step, trivial⟩⟩

/-- A contract that relies on nothing is upheld along every run. -/
theorem Reachable.upheld (serves : ∀ q, (serve q).Safe C.spec q [] none)
    (holds : ∀ i q w, C.Good w → w.past i = [] → (serve q).Holds C i q none w)
    (admits : ∀ w e, C.admits w e) (rely : ∀ tx w e, C.rely tx w e) (reply : ∀ q a, C.reply q a)
    (valid : ∀ k r, rows₀ k = some r → C.spec.row k r) (inv : C.inv ⟨rows₀, []⟩)
    (h : Reachable serve rows₀ s) : Consistent C.spec rows₀ s ∧ Upheld C s :=
  h.reachableBy.upheld serves holds (fun _ _ _ _ _ _ _ _ => reply _ _)
    (fun _ _ _ _ _ _ _ _ _ => ⟨admits _ _, fun _ _ _ _ => rely _ _ _⟩) valid inv

end

/-! ### Sweeps

A statement sweeps the rows `old` when it changes each of them. Those committed when it takes its snapshot it
visits, and no others turn up when nobody else makes rows `old`. -/

/-- The `old` rows not yet dealt with by `tx` are among `ks`. -/
def Remaining (old : R → Prop) (ks : List K) (tx : Tx K R E) (w : World Q K R E) : Prop :=
  ∀ k r, w.rows k = some r → old r → k ∈ ks ∨ ∃ c, tx.changes k = some c ∧ ∀ r', c.new = some r' → ¬old r'

namespace Remaining
variable {old : R → Prop} {ks : List K} {k : K} {tx : Tx K R E} {w w' : World Q K R E}

theorem move (h : Remaining old ks tx w)
    (none_new : ∀ k r', w'.rows k = some r' → old r' → ∃ r, w.rows k = some r ∧ old r) : Remaining old ks tx w' := by
  intro k r' hr' hold'
  obtain ⟨r, hr, hold⟩ := none_new k r' hr' hold'
  exact h k r hr hold

theorem pass [DecidableEq K] {f : R → Option (Option R)} (h : Remaining old (k :: ks) tx w)
    (no : (tx.view k (w.rows k)).bind f = none) (matched : ∀ r, old r → f r ≠ none) : Remaining old ks tx w := by
  intro k' r hr hold
  by_cases hk : k' = k
  · subst hk
    cases hc : tx.changes k' with
    | none =>
      rw [Tx.view_of_unchanged hc, hr] at no
      exact absurd no (matched r hold)
    | some c =>
      rw [Tx.view_of_changes hc] at no
      refine Or.inr ⟨c, rfl, fun r' hr' hold' => ?_⟩
      rw [hr'] at no
      exact matched r' hold' no
  · rcases h k' r hr hold with hmem | hdone
    · exact Or.inl ((List.mem_cons.mp hmem).resolve_left hk)
    · exact Or.inr hdone

theorem hit [DecidableEq K] {new : Option R} (h : Remaining old (k :: ks) tx w) (ends : ∀ r, new = some r → ¬old r) :
    Remaining old ks (tx.write k (w.rows k) new) w := by
  intro k' r hr hold
  by_cases hk : k' = k
  · subst hk
    refine Or.inr ⟨_, Tx.changes_write, ?_⟩
    split <;> exact ends
  · rcases h k' r hr hold with hmem | hdone
    · exact Or.inl ((List.mem_cons.mp hmem).resolve_left hk)
    · rw [Tx.changes_write_of_ne hk]
      exact Or.inr hdone

/-- When a statement takes its snapshot, the `old` rows it has to deal with are those it matches. -/
theorem of_snapshot {tab : Table R T} {p : T → Bool} {snapshot : List (K × R)} (seen : w.Snapshot tx snapshot)
    (matched : ∀ r, old r → ∃ t, r = tab.put t ∧ p t = true) :
    Remaining old ((Prog.matching tab p snapshot).map Prod.fst) tx w := by
  have mem : ∀ k r, tx.view k (w.rows k) = some r → old r → k ∈ (Prog.matching tab p snapshot).map Prod.fst := by
    intro k r hv hold
    obtain ⟨t, rfl, hp⟩ := matched r hold
    have inTable : (k, t) ∈ tab.rows snapshot := Table.mem_rows.mpr ((seen.2 k (tab.put t)).mpr hv)
    exact List.mem_map.mpr ⟨(k, t), List.mem_filter.mpr ⟨inTable, hp⟩, rfl⟩
  intro k r hr hold
  cases hc : tx.changes k with
  | none => exact Or.inl (mem k r (by rw [Tx.view_of_unchanged hc, hr]) hold)
  | some c =>
    by_cases hnew : ∀ r', c.new = some r' → ¬old r'
    · exact Or.inr ⟨c, rfl, hnew⟩
    · push Not at hnew
      obtain ⟨r', hr', hold'⟩ := hnew
      exact Or.inl (mem k r' (by rw [Tx.view_of_changes hc, hr']) hold')

/-- Once the sweep is committed there are no `old` rows. -/
theorem commit {e : Commit Q K R E} (h : Remaining old [] e.tx w) (made : ∀ k c r, e.tx.changes k = some c →
      c.new = some r → old r → ∃ r₀, w.rows k = some r₀ ∧ old r₀) {r : R} (hr : (w.commit e).rows k = some r) :
    ¬old r := by
  intro hold
  cases hc : e.tx.changes k with
  | none =>
    rw [World.rows_commit_of_unchanged hc] at hr
    rcases h k r hr hold with hmem | ⟨c, hc', -⟩
    · cases hmem
    · rw [hc] at hc'
      cases hc'
  | some c =>
    rw [World.rows_commit_of_changes hc] at hr
    obtain ⟨r₀, hr₀, hold₀⟩ := made k c r hc hr hold
    rcases h k r₀ hr₀ hold₀ with hmem | ⟨c', hc', hends⟩
    · cases hmem
    · obtain rfl := Option.some.inj (hc.symm.trans hc')
      exact hends r hr hold

end Remaining

end Postgres
