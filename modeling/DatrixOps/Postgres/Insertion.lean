import DatrixOps.Postgres.Schedule

/-! Inserts that give way to rows already there. A unique index keeps its entries apart over every interleaving; and
    what a request answers is promised along the runs in which nobody overtakes a waiting insert: no other
    transaction commits a row in conflict with one that a statement, its snapshot taken, is about to insert. -/

namespace Postgres

variable {Q K R T E I A X : Type}

/-! ### Unique indexes -/

/-- A program that leaves the index entry of every row as it is, and inserts a row with an entry only where
    its statement gives way to a row with the same. -/
def Prog.Respects (index : R → Option X) : Prog K R E I A → Prop
  | .answer _ => True
  | .start next => ∀ t, (next t).Respects index
  | .clock next => ∀ t, (next t).Respects index
  | .ask next => ∀ a, (next a).Respects index
  | .scan next => ∀ snapshot, (snapshot.map Prod.fst).Nodup → (next snapshot).Respects index
  | .access _ _ f next => (∀ new, f none = some new → new = none) ∧
      (∀ r new, f (some r) = some new → ∃ r', new = some r' ∧ index r' = index r) ∧ ∀ left, (next left).Respects index
  | .insert row conflict next => (∀ k r r', row k = some r → index r ≠ none → index r' = index r → conflict r' = true) ∧
      ∀ k, (next k).Respects index
  | .emit _ next => next.Respects index
  | .commit next => next.Respects index
  | .rollback next => next.Respects index

/-! ### Statements on tables -/

namespace Prog
variable {index : R → Option X}

theorem respects_visit {skip : Bool} {limit : Option Nat} {f : R → Option (Option R)}
    {next : List (K × R) → Prog K R E I A}
    (same : ∀ r new, f r = some new → ∃ r', new = some r' ∧ index r' = index r)
    (done : ∀ found, (next found).Respects index) :
    ∀ ks found, (visit skip limit f ks found next).Respects index
  | [], found => done found
  | k :: ks, found => by
    unfold visit
    split
    · exact done found
    · refine ⟨fun new hf => (by cases hf), fun r new hf => same r new hf, fun left => ?_⟩
      rcases left with - | - | r
      · exact respects_visit same done ks found
      · exact respects_visit same done ks found
      · exact respects_visit same done ks _

end Prog

/-! ### Every step keeps the entries apart -/

def Session.Respects (index : R → Option X) (session : Session Q K R E I A) : Prop :=
  match session.control with
  | .running prog => prog.Respects index
  | _ => True

/-- A committed version of row `k`, or one an open transaction has left. -/
def State.Version (s : State Q K R E I A) (k : K) (r : R) : Prop :=
  s.rows k = some r ∨ ∃ i tx c, s.Open i tx ∧ tx.changes k = some c ∧ c.new = some r

/-- An open transaction leaves the entries of the rows it changes, and no two rows have the same entry. -/
structure UniqueIn (index : R → Option X) (s : State Q K R E I A) : Prop where
  respects : ∀ i session, s.sessions i = some session → session.Respects index
  steady : ∀ i tx k c r, s.Open i tx → tx.changes k = some c → s.rows k = some r → ∃ r', c.new = some r' ∧
    index r' = index r
  one : ∀ k k' r r' x, s.Version k r → s.Version k' r' → index r = some x → index r' = some x → k = k'

namespace UniqueIn
variable {index : R → Option X} {s s' : State Q K R E I A} {i : Nat} {q : Q} {tx : Tx K R E}
  {session : Session Q K R E I A}

/-- A session goes on with no change that it had not made before. -/
theorem put (h : UniqueIn index s) (hs : session.Respects index)
    (keep : ∀ t, session.tx = some t → ∀ k c, t.changes k = some c → ∃ t', s.Open i t' ∧ t'.changes k = some c) :
    UniqueIn index (s.put i session) := by
  have old : ∀ j t k c, (s.put i session).Open j t → t.changes k = some c → ∃ t', s.Open j t' ∧
      t'.changes k = some c := by
    intro j t k c ho hc
    rcases State.open_put ho with ⟨rfl, ht⟩ | ⟨-, ho⟩
    · exact keep t ht k c hc
    · exact ⟨t, ho, hc⟩
  have version : ∀ k r, (s.put i session).Version k r → s.Version k r := by
    rintro k r (hr | ⟨j, t, c, ho, hc, hn⟩)
    · exact Or.inl hr
    · obtain ⟨t', ho', hc'⟩ := old j t k c ho hc
      exact Or.inr ⟨j, t', c, ho', hc', hn⟩
  refine ⟨fun j x hx => ?_, fun j t k c r ho hc hr => ?_, fun k k' r r' x hv hv' =>
    h.one k k' r r' x (version k r hv) (version k' r' hv')⟩
  · by_cases hj : j = i
    · subst hj
      rw [State.sessions_put] at hx
      exact Option.some.inj hx ▸ hs
    · rw [State.sessions_put_of_ne hj] at hx
      exact h.respects j x hx
  · obtain ⟨t', ho', hc'⟩ := old j t k c ho hc
    exact h.steady j t' k c r ho' hc' hr

theorem at_ (h : UniqueIn index s) {prog : Prog K R E I A} {tx : Option (Tx K R E)} (here : s.At i q prog tx) :
    prog.Respects index := h.respects i _ here

end UniqueIn

theorem State.At.eq_of_open {s : State Q K R E I A} {i : Nat} {q : Q} {prog : Prog K R E I A} {tx t : Tx K R E}
    (here : s.At i q prog (some tx)) (ho : s.Open i t) : t = tx := by
  obtain ⟨x, hx, ht⟩ := ho
  obtain rfl := Option.some.inj (hx.symm.trans here)
  exact (Option.some.inj ht).symm

section
variable [DecidableEq K] {index : R → Option X} {s s' : State Q K R E I A} {i : Nat} {q : Q} {tx tx' : Tx K R E}
  {used : K → Prop} {next : Prog K R E I A} {k : K} {r₁ : R}

/-- Session `i` leaves a version `new` of row `k` and its other changes as they were. -/
theorem UniqueIn.write (h : UniqueIn index s) (ho : s.Open i tx) (hs : next.Respects index)
    (others : ∀ k', k' ≠ k → tx'.changes k' = tx.changes k') {c : Change R} (hc : tx'.changes k = some c)
    (steady : ∀ r, s.rows k = some r → ∃ r', c.new = some r' ∧ index r' = index r)
    (one : ∀ r, c.new = some r → ∀ k' r' x, index r = some x → s.Version k' r' → index r' = some x → k' = k) :
    UniqueIn index { s.put i ⟨q, .running next, some tx'⟩ with used := used } := by
  have version : ∀ k' r, ({ s.put i ⟨q, .running next, some tx'⟩ with used := used } : State Q K R E I A).Version k' r →
      s.Version k' r ∨ (k' = k ∧ c.new = some r) := by
    rintro k' r (hr | ⟨j, t, c', ho', hc', hn⟩)
    · exact Or.inl (Or.inl hr)
    · rcases State.open_put ho' with ⟨rfl, ht⟩ | ⟨-, ho'⟩
      · obtain rfl := Option.some.inj ht
        by_cases hk : k' = k
        · subst hk
          obtain rfl := Option.some.inj (hc.symm.trans hc')
          exact Or.inr ⟨rfl, hn⟩
        · rw [others k' hk] at hc'
          exact Or.inl (Or.inr ⟨j, tx, c', ho, hc', hn⟩)
      · exact Or.inl (Or.inr ⟨j, t, c', ho', hc', hn⟩)
  refine ⟨fun j x hx => ?_, fun j t k' c' r ho' hc' hr => ?_, fun k₁ k₂ r r' x hv hv' hx hx' => ?_⟩
  · by_cases hj : j = i
    · subst hj
      obtain rfl := Option.some.inj ((State.sessions_put (s := s)).symm.trans hx)
      exact hs
    · exact h.respects j x ((State.sessions_put_of_ne hj).symm.trans hx)
  · rcases State.open_put ho' with ⟨rfl, ht⟩ | ⟨-, ho'⟩
    · obtain rfl := Option.some.inj ht
      by_cases hk : k' = k
      · subst hk
        obtain rfl := Option.some.inj (hc.symm.trans hc')
        exact steady r hr
      · rw [others k' hk] at hc'
        exact h.steady j tx k' c' r ho hc' hr
    · exact h.steady j t k' c' r ho' hc' hr
  · rcases version k₁ r hv with hv | ⟨rfl, hn⟩
    · rcases version k₂ r' hv' with hv' | ⟨rfl, hn'⟩
      · exact h.one k₁ k₂ r r' x hv hv' hx hx'
      · exact one r' hn' k₁ r x hx' hv hx
    · rcases version k₂ r' hv' with hv' | ⟨rfl, -⟩
      · exact (one r hn k₂ r' x hx hv' hx').symm
      · rfl

variable {serve : Q → Prog K R E I A} {spec : Spec Q K R E A} {rows₀ : K → Option R}

theorem UniqueIn.step (serves : ∀ q, (serve q).Respects index) (consistent : Consistent spec rows₀ s)
    (h : UniqueIn index s)
    (step : Step serve s s') : UniqueIn index s' := by
  have keep : ∀ {i q prog} {tx : Option (Tx K R E)}, s.At i q prog tx → ∀ t, tx = some t →
      ∀ k c, t.changes k = some c → ∃ t', s.Open i t' ∧ t'.changes k = some c :=
    fun here t ht k c hc => ⟨t, ⟨_, here, ht⟩, hc⟩
  cases step with
  | tick t later => exact ⟨h.respects, h.steady, h.one⟩
  | arrive i q new => exact h.put (serves q) (by rintro _ ⟨⟩)
  | start here => exact h.put (h.at_ here _) (by rintro _ ⟨⟩ k c hc; simp at hc)
  | clock here => exact h.put (h.at_ here _) (keep here)
  | ask a here => exact h.put (h.at_ here a) (keep here)
  | scan snapshot here seen => exact h.put (h.at_ here snapshot seen.1) (keep here)
  | miss here free no => exact h.put ((h.at_ here).2.2 none) (keep here)
  | skip here held => exact h.put ((h.at_ here).2.2 none) (keep here)
  | duplicate here held => exact h.put ((h.at_ here).2 none) (keep here)
  | @hit i q _ k f next tx new here free yes =>
    obtain ⟨absent, same, rest⟩ := h.at_ here
    have left : ∃ c, (tx.write k (s.rows k) new).changes k = some c ∧ c.new = new := by
      rw [Tx.changes_write]
      cases tx.changes k <;> exact ⟨_, rfl, rfl⟩
    obtain ⟨c, hc, rfl⟩ := left
    cases hv : tx.view k (s.rows k) with
    | none =>
      rw [hv] at yes
      have gone : s.rows k = none := by
        cases hc₀ : tx.changes k with
        | none => rwa [Tx.view_of_unchanged hc₀] at hv
        | some c₀ =>
          rw [Tx.view_of_changes hc₀] at hv
          refine Option.eq_none_iff_forall_ne_some.mpr fun r hr => ?_
          obtain ⟨r', hr', -⟩ := h.steady i tx k c₀ r here.open_ hc₀ hr
          rw [hv] at hr'
          cases hr'
      refine h.write here.open_ (rest _) (fun k' hk => Tx.changes_write_of_ne hk) hc (fun r hr => ?_) fun r hr => ?_
      · rw [gone] at hr
        cases hr
      · rw [absent _ yes] at hr
        cases hr
    | some r₀ =>
      rw [hv] at yes
      obtain ⟨r', hr', index_eq⟩ := same r₀ _ yes
      have known : s.Version k r₀ ∧ ∀ r, s.rows k = some r → index r₀ = index r := by
        cases hc₀ : tx.changes k with
        | none =>
          rw [Tx.view_of_unchanged hc₀] at hv
          exact ⟨Or.inl hv, fun r hr => by rw [Option.some.inj (hv.symm.trans hr)]⟩
        | some c₀ =>
          rw [Tx.view_of_changes hc₀] at hv
          refine ⟨Or.inr ⟨i, tx, c₀, here.open_, hc₀, hv⟩, fun r hr => ?_⟩
          obtain ⟨r'', hr'', heq⟩ := h.steady i tx k c₀ r here.open_ hc₀ hr
          rwa [Option.some.inj (hv.symm.trans hr'')]
      refine h.write here.open_ (rest _) (fun k' hk => Tx.changes_write_of_ne hk) hc
        (fun r hr => ⟨r', hr', index_eq.trans (known.2 r hr)⟩) fun r hr k' r'' x hx hv' hx' => ?_
      obtain rfl := Option.some.inj (hr.symm.trans hr')
      exact h.one k' k r'' r₀ x hv' known.1 hx' (index_eq ▸ hx)
  | @insert i q row conflict next tx r k here keyed new free =>
    obtain ⟨covers, rest⟩ := h.at_ here
    have gone : s.rows k = none := by_contra fun hr => new (consistent.used hr)
    refine h.write here.open_ (rest _) (fun k' hk => Tx.changes_create_of_ne hk) Tx.changes_create
      (fun r' hr' => by rw [gone] at hr'; cases hr') ?_
    rintro _ ⟨⟩ k' r' x hx hv hx'
    -- the statement would have given way to the other row with this entry
    have clash : ∀ r'', index r'' = some x → conflict r'' = true := fun r'' hr'' =>
      covers k r r'' keyed (by rw [hx]; exact Option.some_ne_none x) (hr''.trans hx.symm)
    exfalso
    rcases hv with hr | ⟨j, t, c, ho, hc, hn⟩
    · cases hc : tx.changes k' with
      | none =>
        have := free.1 k' r' ((Tx.view_of_unchanged hc).trans hr)
        rw [clash r' hx'] at this
        cases this
      | some c =>
        obtain ⟨r'', hn, heq⟩ := h.steady i tx k' c r' here.open_ hc hr
        have := free.1 k' r'' ((Tx.view_of_changes hc).trans hn)
        rw [clash r'' (heq.trans hx')] at this
        cases this
    · have : conflict r' = false := by
        by_cases hj : j = i
        · subst hj
          obtain rfl := here.eq_of_open ho
          exact free.1 k' r' ((Tx.view_of_changes hc).trans hn)
        · exact free.2 j t k' c r' hj ho hc hn
      rw [clash r' hx'] at this
      cases this
  | emit here =>
    have rest := h.at_ here
    exact h.put rest (by rintro _ ⟨⟩ k c hc; exact ⟨_, here.open_, hc⟩)
  | @commit i q next tx here =>
    have rest := h.at_ here
    have kept : UniqueIn index (s.put i ⟨q, .running next, none⟩) := h.put rest (by rintro _ ⟨⟩)
    have version : ∀ k r, ({ s.put i ⟨q, .running next, none⟩ with
        rows := tx.apply s.rows, log := ⟨i, q, tx⟩ :: s.log } : State Q K R E I A).Version k r → s.Version k r := by
      rintro k r (hr | ⟨j, t, c, ho, hc, hn⟩)
      · cases hc : tx.changes k with
        | none => exact Or.inl (by simpa only [Tx.apply, Tx.view_of_unchanged hc] using hr)
        | some c => exact Or.inr ⟨i, tx, c, here.open_, hc, by simpa only [Tx.apply, Tx.view_of_changes hc] using hr⟩
      · rcases State.open_put ho with ⟨-, ht⟩ | ⟨-, ho⟩
        · cases ht
        · exact Or.inr ⟨j, t, c, ho, hc, hn⟩
    refine ⟨kept.respects, fun j t k c r ho hc hr => ?_, fun k k' r r' x hv hv' =>
      h.one k k' r r' x (version k r hv) (version k' r' hv')⟩
    rcases State.open_put ho with ⟨-, ht⟩ | ⟨hj, ho⟩
    · cases ht
    · have apart : tx.changes k = none := Option.eq_none_iff_forall_ne_some.mpr fun c' hc' =>
        hj (consistent.exclusive j i t tx k c c' ho here.open_ hc hc')
      refine h.steady j t k c r ho hc ?_
      simpa only [Tx.apply, Tx.view_of_unchanged apart] using hr
  | rollback here =>
    have rest := h.at_ here
    exact h.put rest (by rintro _ ⟨⟩)
  | answer here => exact h.put trivial (by rintro _ ⟨⟩)
  | crash here => exact h.put trivial (by rintro _ ⟨⟩)

/-- In every reachable state no two rows have the same entry in the index. -/
theorem Reachable.uniqueIn (respects : ∀ q, (serve q).Respects index) (serves : ∀ q, (serve q).Safe spec q [] none)
    (valid : ∀ k r, rows₀ k = some r → spec.row k r)
    (one : ∀ k k' r r' x, rows₀ k = some r → rows₀ k' = some r' → index r = some x → index r' = some x → k = k')
    (h : Reachable serve rows₀ s) : UniqueIn index s := by
  obtain ⟨now, used, hu, run⟩ := h
  induction run with
  | refl =>
    have no_open : ∀ j t, ¬(State.initial now rows₀ used : State Q K R E I A).Open j t := by
      rintro j t ⟨x, hx, -⟩
      cases hx
    refine ⟨fun _ _ hx => (by cases hx), fun j t k c r ho => absurd ho (no_open j t), fun k k' r r' x hv hv' => ?_⟩
    rcases hv with hr | ⟨j, t, -, ho, -⟩
    · rcases hv' with hr' | ⟨j, t, -, ho, -⟩
      · exact one k k' r r' x hr hr'
      · exact absurd ho (no_open j t)
    · exact absurd ho (no_open j t)
  | tail run step ih => exact ih.step respects (Reachable.consistent serves valid ⟨now, used, hu, run⟩) step

end

/-! ### Promises

What the commits of others do to the committed rows is a relation `after`; what an answer promises of the rows
is to hold from then on. -/

/-- `φ` holds of the rows now, and after whatever the others commit. -/
def Onward (after : (K → Option R) → (K → Option R) → Prop) (φ : (K → Option R) → Prop) (rows : K → Option R) : Prop :=
  ∀ rows', Relation.ReflTransGen after rows rows' → φ rows'

/-- A row in conflict is none that was not in conflict before. -/
def NoneAdded (conflict : R → Bool) (rows rows' : K → Option R) : Prop :=
  ∀ k r, rows' k = some r → conflict r = true → ∃ r₀, rows k = some r₀ ∧ conflict r₀ = true

/-- A step that commits no row in conflict with one that a statement is waiting to insert. -/
def Unovertaken (s s' : State Q K R E I A) : Prop :=
  ∀ i q row conflict next tx, s.At i q (.insert row conflict next) tx → NoneAdded conflict s.rows s'.rows

namespace Onward
variable {after : (K → Option R) → (K → Option R) → Prop} {φ ψ : (K → Option R) → Prop} {rows rows' : K → Option R}

theorem now (h : Onward after φ rows) : φ rows := h rows .refl

theorem move (h : Onward after φ rows) (move : after rows rows') : Onward after φ rows' :=
  fun rows'' run => h rows'' (.head move run)

/-- What the others do not break holds onward. -/
theorem of_stable {J : (K → Option R) → Prop} (h : J rows) (stable : ∀ rows rows', J rows → after rows rows' → J rows')
    (out : ∀ rows, J rows → φ rows) : Onward after φ rows := by
  intro rows' run
  suffices J rows' from out rows' this
  induction run with
  | refl => exact h
  | tail _ move ih => exact stable _ _ ih move

theorem of_forall (h : ∀ rows, φ rows) : Onward after φ rows := fun rows' _ => h rows'

end Onward

section
variable [DecidableEq K]

/-- The verification condition of a program for what its answers promise: an insert gives way only to a row that is
    there, and nobody has overtaken it. -/
def Prog.Keeps (after : (K → Option R) → (K → Option R) → Prop) (promise : A → (K → Option R) → Prop) :
    Prog K R E I A → Option (Tx K R E) → (K → Option R) → Prop
  | .answer a, _ => Onward after (promise a)
  | .start next, _ => Onward after fun rows => ∀ t, (next t).Keeps after promise (some (.empty t)) rows
  | .clock next, tx => Onward after fun rows => ∀ t, (next t).Keeps after promise tx rows
  | .ask next, tx => Onward after fun rows => ∀ a, (next a).Keeps after promise tx rows
  | .scan next, some tx => Onward after fun rows => ∀ snapshot, (snapshot.map Prod.fst).Nodup →
      (∀ k r, (k, r) ∈ snapshot ↔ tx.view k (rows k) = some r) → (next snapshot).Keeps after promise (some tx) rows
  | .access _ k f next, some tx => Onward after fun rows => (next none).Keeps after promise (some tx) rows ∧
      ∀ new, f (tx.view k (rows k)) = some new →
        (next (some new)).Keeps after promise (some (tx.write k (rows k) new)) rows
  | .insert row conflict next, some tx => Onward (fun rows rows' => after rows rows' ∧
        NoneAdded conflict rows rows') fun rows =>
      ((∃ k r, tx.view k (rows k) = some r ∧ conflict r = true) → (next none).Keeps after promise (some tx) rows) ∧
      ∀ k r, row k = some r → rows k = none → tx.changes k = none →
        (next (some k)).Keeps after promise (some (tx.create k r)) rows
  | .emit events next, some tx => Onward after fun rows => next.Keeps after promise (some (tx.emit events)) rows
  | .commit next, some tx => Onward after fun rows => next.Keeps after promise none (tx.apply rows)
  | .rollback next, some _ => Onward after fun rows => next.Keeps after promise none rows
  | _, none => fun _ => True

def Session.Keeps (after : (K → Option R) → (K → Option R) → Prop) (promise : Q → A → (K → Option R) → Prop)
    (session : Session Q K R E I A) (rows : K → Option R) : Prop :=
  match session.control with
  | .running prog => prog.Keeps after (promise session.request) session.tx rows
  | .answered a => Onward after (promise session.request a) rows
  | .crashed => True

variable {after : (K → Option R) → (K → Option R) → Prop} {promise : Q → A → (K → Option R) → Prop}
  {serve : Q → Prog K R E I A} {spec : Spec Q K R E A} {rows₀ rows rows' : K → Option R} {s s' : State Q K R E I A}

theorem Prog.Keeps.move {promise : A → (K → Option R) → Prop} {prog : Prog K R E I A} {tx : Option (Tx K R E)}
    (h : prog.Keeps after promise tx rows) (move : after rows rows')
    (calm : ∀ row conflict next, prog = .insert row conflict next → NoneAdded conflict rows rows') :
    prog.Keeps after promise tx rows' := by
  cases prog with
  | insert row conflict next =>
    cases tx with
    | none => exact h
    | some tx => exact Onward.move h ⟨move, calm row conflict next rfl⟩
  | answer | start | clock | ask => exact Onward.move h move
  | scan | access | emit | commit | rollback =>
    cases tx with
    | none => exact h
    | some tx => exact Onward.move h move

/-- Every session keeps to what it will promise. -/
def Promised (after : (K → Option R) → (K → Option R) → Prop) (promise : Q → A → (K → Option R) → Prop)
    (s : State Q K R E I A) : Prop :=
  ∀ i session, s.sessions i = some session → session.Keeps after promise s.rows

namespace Promised
variable {i : Nat} {q : Q} {session : Session Q K R E I A}

theorem put (h : Promised after promise s) (hs : session.Keeps after promise s.rows) :
    Promised after promise (s.put i session) := by
  intro j x hx
  by_cases hj : j = i
  · subst hj
    rw [State.sessions_put] at hx
    exact Option.some.inj hx ▸ hs
  · rw [State.sessions_put_of_ne hj] at hx
    exact h j x hx

theorem at_ (h : Promised after promise s) {prog : Prog K R E I A} {tx : Option (Tx K R E)} (here : s.At i q prog tx) :
    prog.Keeps after (promise q) tx s.rows := h i _ here

theorem step (holds : ∀ q rows, (serve q).Keeps after (promise q) none rows)
    (commits : ∀ q past tx rows, spec.commit q past tx → (∀ k c, tx.changes k = some c → c.base = rows k) →
      after rows (tx.apply rows))
    (consistent : Consistent spec rows₀ s) (h : Promised after promise s) (step : Step serve s s')
    (calm : Unovertaken s s') :
    Promised after promise s' := by
  cases step with
  | tick t later => exact h
  | arrive i q new => exact h.put (holds q s.rows)
  | start here => exact h.put (Onward.now (h.at_ here) _)
  | clock here => exact h.put (Onward.now (h.at_ here) _)
  | ask a here => exact h.put (Onward.now (h.at_ here) a)
  | scan snapshot here seen => exact h.put (Onward.now (h.at_ here) snapshot seen.1 seen.2)
  | miss here free no => exact h.put (Onward.now (h.at_ here)).1
  | skip here held => exact h.put (Onward.now (h.at_ here)).1
  | @hit i q _ k f next tx new here free yes =>
    have kept : Session.Keeps after promise ⟨q, .running (next (some new)), some (tx.write k (s.rows k) new)⟩ s.rows :=
      (Onward.now (h.at_ here)).2 new yes
    exact h.put kept
  | @insert i q row conflict next tx r k here keyed new free =>
    have gone : s.rows k = none := by_contra fun hr => new (consistent.used hr)
    have untouched : tx.changes k = none := Option.eq_none_iff_forall_ne_some.mpr fun c hc =>
      new (consistent.usedOpen i tx k c here.open_ hc)
    have kept : Session.Keeps after promise ⟨q, .running (next (some k)), some (tx.create k r)⟩ s.rows :=
      (Onward.now (h.at_ here)).2 k r keyed gone untouched
    exact h.put kept
  | duplicate here held =>
    obtain ⟨k, r, hr, hconflict, -⟩ := held
    exact h.put ((Onward.now (h.at_ here)).1 ⟨k, r, hr, hconflict⟩)
  | emit here => exact h.put (Onward.now (h.at_ here))
  | @commit i q next tx here =>
    have moved : after s.rows (tx.apply s.rows) :=
      commits q _ tx s.rows (consistent.safe_at here).1 fun k c hc => consistent.base i tx k c here.open_ hc
    intro j x hx
    by_cases hj : j = i
    · subst hj
      obtain rfl := Option.some.inj ((State.sessions_put (s := s)).symm.trans hx)
      have kept : Prog.Keeps after (promise q) next none (tx.apply s.rows) := h.at_ here s.rows .refl
      exact kept
    · have hx : s.sessions j = some x := (State.sessions_put_of_ne hj).symm.trans hx
      have kept := h j x hx
      obtain ⟨q', control, t⟩ := x
      cases control with
      | running prog =>
        exact Prog.Keeps.move kept moved fun row conflict next hp =>
          calm j q' row conflict next t (hp ▸ hx)
      | answered a => exact Onward.move kept moved
      | crashed => trivial
  | rollback here => exact h.put (Onward.now (h.at_ here))
  | @answer i q a tx here => exact h.put (h.at_ here)
  | @crash i q _ _ here =>
    have kept : Session.Keeps after promise (⟨q, .crashed, none⟩ : Session Q K R E I A) s.rows := trivial
    exact h.put kept

end Promised

/-- Along the runs in which no waiting insert is overtaken, what the answers promise holds. -/
theorem ReachableBy.promised (serves : ∀ q, (serve q).Safe spec q [] none)
    (holds : ∀ q rows, (serve q).Keeps after (promise q) none rows)
    (commits : ∀ q past tx rows, spec.commit q past tx → (∀ k c, tx.changes k = some c → c.base = rows k) →
      after rows (tx.apply rows))
    (valid : ∀ k r, rows₀ k = some r → spec.row k r) (h : ReachableBy serve Unovertaken rows₀ s) :
    Promised after promise s := by
  obtain ⟨now, used, hu, run⟩ := h
  induction run with
  | refl => exact fun _ _ hx => by cases hx
  | tail run step ih =>
    have reached : ReachableBy serve Unovertaken rows₀ _ := ⟨now, used, hu, run⟩
    exact ih.step holds commits (Reachable.consistent serves valid reached.reachable) step.1 step.2

/-- Whether a step of a schedule overtakes no waiting insert. -/
def Listed.unovertaken (s s' : Listed Q K R E I A) : Bool :=
  (s.sessions.map Prod.fst).all fun i => match s.sessions.lookup i with
    | some ⟨_, .running (.insert _ conflict _), _⟩ =>
      s'.keys.all fun k => (s'.rows k).all fun r => !conflict r || (s.rows k).any conflict
    | _ => true

omit [DecidableEq K] in
theorem Listed.unovertaken_of_check {s s' : Listed Q K R E I A} (listed : ∀ k, s'.rows k ≠ none → k ∈ s'.keys)
    (ok : s.unovertaken s' = true) : Unovertaken s.state s'.state := by
  intro i q row conflict next tx here k r hr hconflict
  have here : s.sessions.lookup i = some ⟨q, .running (.insert row conflict next), tx⟩ := here
  have hr : s'.rows k = some r := hr
  obtain ⟨l₁, l₂, hl, -⟩ := List.lookup_eq_some_iff.mp here
  have known := List.all_eq_true.mp ok i (hl ▸ List.mem_map.mpr ⟨_,
    List.mem_append_right l₁ (List.mem_cons_self ..), rfl⟩)
  rw [here] at known
  have known := List.all_eq_true.mp known k (listed k (hr ▸ Option.some_ne_none r))
  simp only [hr, Option.all_some, hconflict, Bool.not_true, Bool.false_or, Option.any_eq_true] at known
  exact known

/-! ### Programs that promise whatever they find -/

namespace Prog
variable {promise : A → (K → Option R) → Prop}

theorem keeps_visit {skip : Bool} {limit : Option Nat} {f : R → Option (Option R)}
    {next : List (K × R) → Prog K R E I A}
    (done : ∀ found tx rows, (next found).Keeps after promise (some tx) rows) :
    ∀ ks found tx rows, (visit skip limit f ks found next).Keeps after promise (some tx) rows
  | [], found, tx, rows => done found tx rows
  | k :: ks, found, tx, rows => by
    unfold visit
    split
    · exact done found tx rows
    · refine Onward.of_forall fun rows => ⟨keeps_visit done ks found tx rows, fun new _ => ?_⟩
      cases new with
      | none => exact keeps_visit done ks found _ rows
      | some r => exact keeps_visit done ks _ _ rows

end Prog
end

end Postgres
