import Mathlib.Data.List.Dedup
import DatrixOps.Postgres.Interference

/-! Runs computed from a schedule. Which session goes next, what the outside replies and which keys are generated
    is given; the rest of a run follows, and each of its states is reachable. -/

namespace Postgres

variable {Q K R E I A : Type}

/-- What happens next: time passes, a request arrives, the outside replies to session `i`, a key is generated for
    its insert, or it takes its next step. -/
inductive Move (Q K I : Type) where
  | tick (t : Time)
  | arrive (i : Nat) (q : Q)
  | reply (i : Nat) (a : I)
  | insert (i : Nat) (k : K)
  | next (i : Nat)

/-- A state whose keys and sessions are listed. -/
structure Listed (Q K R E I A : Type) where
  now : Time
  keys : List K
  rows : K → Option R
  sessions : List (Nat × Session Q K R E I A)
  log : List (Commit Q K R E)

namespace Listed

def state (s : Listed Q K R E I A) : State Q K R E I A := 
  ⟨s.now, s.rows, (· ∈ s.keys), fun i => s.sessions.lookup i, s.log⟩

def put (s : Listed Q K R E I A) (i : Nat) (session : Session Q K R E I A) : Listed Q K R E I A :=
  { s with sessions := (i, session) :: s.sessions }

/-- The open transaction of session `i`. -/
def tx (s : Listed Q K R E I A) (i : Nat) : Option (Tx K R E) := (s.sessions.lookup i).bind (·.tx)

def others (s : Listed Q K R E I A) (i : Nat) : List (Tx K R E) :=
  ((s.sessions.map Prod.fst).filter (· ≠ i)).filterMap s.tx

def locked (s : Listed Q K R E I A) (i : Nat) (k : K) : Bool := (s.others i).any fun t => (t.changes k).isSome

def snapshot (s : Listed Q K R E I A) (t : Tx K R E) : List (K × R) :=
  s.keys.filterMap fun k => (t.view k (s.rows k)).map (k, ·)

def free (s : Listed Q K R E I A) (i : Nat) (t : Tx K R E) (conflict : R → Bool) : Bool :=
  s.keys.all fun k => (t.view k (s.rows k)).all (!conflict ·) &&
    (s.others i).all fun t' => (t'.changes k).all fun c => c.new.all (!conflict ·)

/-- The insert has a row to give way to. -/
def duplicate (s : Listed Q K R E I A) (i : Nat) (t : Tx K R E) (conflict : R → Bool) : Bool :=
  s.keys.any fun k => (t.view k (s.rows k)).any conflict && !s.locked i k

section
variable [DecidableEq K]

/-- The next step of a session, where it needs nothing from outside and waits for no one. -/
def advance (s : Listed Q K R E I A) (i : Nat) (q : Q) :
    Prog K R E I A → Option (Tx K R E) → Option (Listed Q K R E I A)
  | .answer a, _ => some (s.put i ⟨q, .answered a, none⟩)
  | .start next, none => some (s.put i ⟨q, .running (next s.now), some (.empty s.now)⟩)
  | .clock next, tx => some (s.put i ⟨q, .running (next s.now), tx⟩)
  | .scan next, some tx => some (s.put i ⟨q, .running (next (s.snapshot tx)), some tx⟩)
  | .access skip k f next, some tx =>
    if s.locked i k then if skip then some (s.put i ⟨q, .running (next none), some tx⟩) else none
    else match f (tx.view k (s.rows k)) with
      | none => some (s.put i ⟨q, .running (next none), some tx⟩)
      | some new => some { s.put i ⟨q, .running (next (some new)), some (tx.write k (s.rows k) new)⟩ with
          keys := s.keys.insert k }
  | .insert _ conflict next, some tx =>
    if s.duplicate i tx conflict then some (s.put i ⟨q, .running (next none), some tx⟩) else none
  | .emit events next, some tx => some (s.put i ⟨q, .running next, some (tx.emit events)⟩)
  | .commit next, some tx => some { s.put i ⟨q, .running next, none⟩ with
      rows := tx.apply s.rows, log := ⟨i, q, tx⟩ :: s.log }
  | .rollback next, some _ => some (s.put i ⟨q, .running next, none⟩)
  | _, _ => none

/-- One move, unless it is not possible. -/
def move (serve : Q → Prog K R E I A) (s : Listed Q K R E I A) : Move Q K I → Option (Listed Q K R E I A)
  | .tick t => if s.now ≤ t then some { s with now := t } else none
  | .arrive i q => if (s.sessions.lookup i).isNone then some (s.put i ⟨q, .running (serve q), none⟩) else none
  | .reply i a => match s.sessions.lookup i with
    | some ⟨q, .running (.ask next), tx⟩ => some (s.put i ⟨q, .running (next a), tx⟩)
    | _ => none
  | .insert i k => match s.sessions.lookup i with
    | some ⟨q, .running (.insert row conflict next), some tx⟩ => match row k with
      | some r => if k ∉ s.keys ∧ s.free i tx conflict then
          some { s.put i ⟨q, .running (next (some k)), some (tx.create k r)⟩ with keys := s.keys.insert k }
        else none
      | none => none
    | _ => none
  | .next i => match s.sessions.lookup i with
    | some ⟨q, .running prog, tx⟩ => s.advance i q prog tx
    | _ => none

def run (serve : Q → Prog K R E I A) (s : Listed Q K R E I A) : List (Move Q K I) → Option (Listed Q K R E I A)
  | [] => some s
  | m :: ms => (s.move serve m).bind (·.run serve ms)

end

/-! ### Each move is a step -/

/-- Every row that is there, or that a transaction has changed, is under a listed key. -/
structure Covered (s : Listed Q K R E I A) : Prop where
  nodup : s.keys.Nodup
  rows : ∀ k, s.rows k ≠ none → k ∈ s.keys
  changes : ∀ i q control t k c, s.sessions.lookup i = some ⟨q, control, some t⟩ → t.changes k = some c → k ∈ s.keys

variable {s s' : Listed Q K R E I A} {i j : Nat} {q : Q} {session : Session Q K R E I A} {k : K} {t : Tx K R E}
  {serve : Q → Prog K R E I A}

theorem state_put : (s.put i session).state = s.state.put i session := by
  have sessions : (fun j => List.lookup j ((i, session) :: s.sessions)) =
      Function.update (fun j => s.sessions.lookup j) i (some session) := by
    funext j
    by_cases hj : j = i
    · subst hj
      simp
    · rw [Function.update_of_ne hj]
      simp [List.lookup_cons, beq_false_of_ne hj]
  simp only [state, put, State.put, sessions]

theorem used_insert [DecidableEq K] : (fun k' => k' ∈ s.keys.insert k) = fun k' => k' ∈ s.keys ∨ k' = k := by
  funext k'
  simp [or_comm]

theorem mem_others {t : Tx K R E} : t ∈ s.others i ↔ ∃ j, j ≠ i ∧ s.state.Open j t := by
  have mem_of : ∀ {j x}, s.sessions.lookup j = some x → j ∈ s.sessions.map Prod.fst := by
    intro j x h
    obtain ⟨l₁, l₂, hl, -⟩ := List.lookup_eq_some_iff.mp h
    rw [hl]
    simp
  simp only [others, tx, List.mem_filterMap, List.mem_filter, Option.bind_eq_some_iff, decide_eq_true_eq]
  constructor
  · rintro ⟨j, ⟨-, hj⟩, x, hx, htx⟩
    exact ⟨j, hj, x, hx, htx⟩
  · rintro ⟨j, hj, x, hx, htx⟩
    exact ⟨j, ⟨mem_of hx, hj⟩, x, hx, htx⟩

theorem locked_iff : s.locked i k = true ↔ s.state.Locked i k := by
  simp only [locked, List.any_eq_true, mem_others, Option.isSome_iff_exists, State.Locked]
  constructor
  · rintro ⟨t, ⟨j, hj, ho⟩, c, hc⟩
    exact ⟨j, t, c, hj, ho, hc⟩
  · rintro ⟨j, t, c, hj, ho, hc⟩
    exact ⟨t, ⟨j, hj, ho⟩, c, hc⟩

theorem duplicate_of_listed {conflict : R → Bool} (h : s.duplicate i t conflict = true) :
    s.state.Duplicate i t conflict := by
  obtain ⟨k, -, h⟩ := List.any_eq_true.mp h
  obtain ⟨there, free⟩ := Bool.and_eq_true_iff.mp h
  obtain ⟨r, hr, hconflict⟩ := (Option.any_eq_true ..).mp there
  refine ⟨k, r, hr, hconflict, fun held => ?_⟩
  rw [locked_iff.mpr held] at free
  cases free

theorem Covered.view (h : s.Covered) {control : Control K R E I A}
    (here : s.sessions.lookup i = some ⟨q, control, some t⟩)
    (hv : t.view k (s.rows k) ≠ none) : k ∈ s.keys := by
  cases hc : t.changes k with
  | none => exact h.rows k (by rwa [Tx.view_of_unchanged hc] at hv)
  | some c => exact h.changes i q control t k c here hc

theorem Covered.snapshot (h : s.Covered) {control : Control K R E I A}
    (here : s.sessions.lookup i = some ⟨q, control, some t⟩) : s.state.Snapshot t (s.snapshot t) := by
  have keys : (s.snapshot t).map Prod.fst = s.keys.filter fun k => (t.view k (s.rows k)).isSome := by
    simp only [Listed.snapshot]
    induction s.keys with
    | nil => rfl
    | cons k ks ih => cases hv : t.view k (s.rows k) <;> simp [hv, ih]
  refine ⟨keys ▸ h.nodup.filter _, fun k r => ?_⟩
  simp only [Listed.snapshot, List.mem_filterMap, Option.map_eq_some_iff, Prod.mk.injEq]
  constructor
  · rintro ⟨_, -, _, hr, rfl, rfl⟩
    exact hr
  · intro hr
    have hv : t.view k (s.rows k) = some r := hr
    exact ⟨k, h.view here (hv ▸ Option.some_ne_none r), r, hr, rfl, rfl⟩

/-- A session that goes on, its changed rows being listed. -/
theorem Covered.put (h : s.Covered) {control : Control K R E I A} {tx : Option (Tx K R E)} {keys : List K}
    (nodup : keys.Nodup) (more : ∀ k ∈ s.keys, k ∈ keys)
    (hc : ∀ t, tx = some t → ∀ k c, t.changes k = some c → k ∈ keys) :
    Covered { s.put i ⟨q, control, tx⟩ with keys := keys } := by
  refine ⟨nodup, fun k hk => more k (h.rows k hk), fun j q' control' t k c here hk => ?_⟩
  rw [Listed.put, List.lookup_cons] at here
  split at here
  · cases here
    exact hc t rfl k c hk
  · exact more k (h.changes j q' control' t k c here hk)

theorem Covered.go (h : s.Covered) {control : Control K R E I A} {tx : Option (Tx K R E)}
    (hc : ∀ t, tx = some t → ∀ k c, t.changes k = some c → k ∈ s.keys) : (s.put i ⟨q, control, tx⟩).Covered :=
  h.put h.nodup (fun _ hk => hk) hc

section
variable [DecidableEq K]

theorem Covered.advance (h : s.Covered) {prog : Prog K R E I A} {tx : Option (Tx K R E)}
    (here : s.sessions.lookup i = some ⟨q, .running prog, tx⟩) (hs : s.advance i q prog tx = some s') :
    Step serve s.state s'.state ∧ s'.Covered := by
  have at_ : s.state.At i q prog tx := here
  have own : ∀ t, tx = some t → ∀ k c, t.changes k = some c → k ∈ s.keys := by
    rintro t rfl k c hc
    exact h.changes i q _ t k c here hc
  have none_open : ∀ t, (none : Option (Tx K R E)) = some t → ∀ k c, t.changes k = some c → k ∈ s.keys := by
    rintro t ⟨⟩
  cases prog with
  | answer a =>
    obtain rfl := Option.some.inj hs
    exact ⟨state_put ▸ .answer at_, h.go none_open⟩
  | start next =>
    cases tx with
    | some _ => cases hs
    | none =>
      obtain rfl := Option.some.inj hs
      refine ⟨state_put ▸ .start at_, h.go ?_⟩
      rintro _ ⟨⟩ k c hc
      cases hc
  | clock next =>
    obtain rfl := Option.some.inj hs
    exact ⟨state_put ▸ .clock at_, h.go own⟩
  | ask next => cases hs
  | scan next =>
    cases tx with
    | none => cases hs
    | some tx =>
      obtain rfl := Option.some.inj hs
      exact ⟨state_put ▸ .scan _ at_ (h.snapshot here), h.go own⟩
  | access skip k f next =>
    cases tx with
    | none => cases hs
    | some tx =>
      rw [Listed.advance] at hs
      split at hs
      · rename_i hl
        split at hs
        · rename_i hskip
          subst hskip
          obtain rfl := Option.some.inj hs
          exact ⟨state_put ▸ .skip at_ (locked_iff.mp hl), h.go own⟩
        · cases hs
      · rename_i hl
        have free : ¬s.state.Locked i k := fun hlocked => hl (locked_iff.mpr hlocked)
        cases hf : f (tx.view k (s.rows k)) with
        | none =>
          rw [hf] at hs
          obtain rfl := Option.some.inj hs
          exact ⟨state_put ▸ .miss at_ free hf, h.go own⟩
        | some new =>
          rw [hf] at hs
          obtain rfl := Option.some.inj hs
          refine ⟨?_, h.put (h.nodup.insert ..) (fun _ hk => List.mem_insert_of_mem hk) ?_⟩
          · have step : Step serve s.state _ := .hit at_ free hf
            simp only [← state_put] at step
            simpa only [state, Listed.put, ← used_insert] using step
          · rintro _ ⟨⟩ k' c hc
            by_cases hk : k' = k
            · subst hk
              exact List.mem_insert_self ..
            · rw [Tx.changes_write_of_ne hk] at hc
              exact List.mem_insert_of_mem (own tx rfl k' c hc)
  | insert row conflict next =>
    cases tx with
    | none => cases hs
    | some tx =>
      rw [Listed.advance] at hs
      split at hs
      · rename_i held
        obtain rfl := Option.some.inj hs
        exact ⟨state_put ▸ .duplicate at_ (duplicate_of_listed held), h.go own⟩
      · cases hs
  | emit events next =>
    cases tx with
    | none => cases hs
    | some tx =>
      obtain rfl := Option.some.inj hs
      refine ⟨state_put ▸ .emit at_, h.go ?_⟩
      rintro _ ⟨⟩
      exact own tx rfl
  | commit next =>
    cases tx with
    | none => cases hs
    | some tx =>
      obtain rfl := Option.some.inj hs
      have gone : (s.put i ⟨q, .running next, none⟩).Covered := h.go none_open
      refine ⟨?_, gone.nodup, fun k hk => ?_, gone.changes⟩
      · have step : Step serve s.state _ := .commit at_
        simp only [← state_put] at step
        exact step
      · have hv : tx.view k (s.rows k) ≠ none := hk
        exact h.view here hv
  | rollback next =>
    cases tx with
    | none => cases hs
    | some tx =>
      obtain rfl := Option.some.inj hs
      exact ⟨state_put ▸ .rollback at_, h.go none_open⟩

theorem Covered.move (h : s.Covered) {m : Move Q K I} (hs : s.move serve m = some s') :
    Step serve s.state s'.state ∧ s'.Covered := by
  cases m with
  | tick t =>
    rw [Listed.move] at hs
    split at hs
    · rename_i later
      obtain rfl := Option.some.inj hs
      exact ⟨.tick t later, h.nodup, h.rows, h.changes⟩
    · cases hs
  | arrive i q =>
    rw [Listed.move] at hs
    split at hs
    · rename_i new
      obtain rfl := Option.some.inj hs
      refine ⟨state_put ▸ .arrive i q (Option.isNone_iff_eq_none.mp new), h.go ?_⟩
      rintro t ⟨⟩
    · cases hs
  | reply i a =>
    rw [Listed.move] at hs
    split at hs
    · rename_i q next tx here
      obtain rfl := Option.some.inj hs
      refine ⟨state_put ▸ .ask a here, h.go ?_⟩
      rintro t rfl k c hc
      exact h.changes i q _ t k c here hc
    · cases hs
  | insert i k =>
    rw [Listed.move] at hs
    split at hs
    · rename_i q row conflict next tx here
      split at hs
      · rename_i r keyed
        split at hs
        · rename_i hfree
          obtain rfl := Option.some.inj hs
          have own : ∀ k c, tx.changes k = some c → k ∈ s.keys := fun k c hc => h.changes i q _ tx k c here hc
          have unseen : ∀ k, k ∉ s.keys → s.rows k = none := fun k hk => by_contra fun hr => hk (h.rows k hr)
          have all := List.all_eq_true.mp hfree.2
          have free : s.state.NoConflict i tx conflict := by
            refine ⟨fun k r hr => ?_, fun j t k c r hj ho hc hr => ?_⟩
            · have hv : tx.view k (s.rows k) = some r := hr
              have hk := h.view here (hv ▸ Option.some_ne_none r)
              have := (Bool.and_eq_true_iff.mp (all k hk)).1
              simpa [hv] using this
            · obtain ⟨⟨q', control, tx'⟩, hx, ht⟩ := ho
              obtain rfl : tx' = some t := ht
              have hk := h.changes j q' control t k c hx hc
              have := List.all_eq_true.mp (Bool.and_eq_true_iff.mp (all k hk)).2 t
                (mem_others.mpr ⟨j, hj, _, hx, rfl⟩)
              simpa [hc, hr] using this
          refine ⟨?_, h.put (h.nodup.insert ..) (fun _ hk => List.mem_insert_of_mem hk) ?_⟩
          · have at_ : s.state.At i q (.insert row conflict next) (some tx) := here
            have step : Step serve s.state _ := .insert k at_ keyed hfree.1 free
            simp only [← state_put] at step
            simpa only [state, Listed.put, ← used_insert] using step
          · rintro _ ⟨⟩ k' c hc
            by_cases hk : k' = k
            · subst hk
              exact List.mem_insert_self ..
            · rw [Tx.changes_create_of_ne hk] at hc
              exact List.mem_insert_of_mem (own k' c hc)
        · cases hs
      · cases hs
    · cases hs
  | next i =>
    rw [Listed.move] at hs
    split at hs
    · rename_i q prog tx here
      exact h.advance here hs
    · cases hs

/-- The start of a run over the rows listed, every key of them in use. -/
def initial (now : Time) (rows : List (K × R)) : Listed Q K R E I A where
  now := now
  keys := (rows.map Prod.fst).dedup
  rows k := rows.lookup k
  sessions := []
  log := []

theorem covered_initial {now : Time} {rows : List (K × R)} : (initial now rows : Listed Q K R E I A).Covered := by
  refine ⟨List.nodup_dedup _, fun k hk => ?_, fun i q control t k c here => by cases here⟩
  obtain ⟨r, hr⟩ := Option.ne_none_iff_exists'.mp hk
  obtain ⟨l₁, l₂, hl, -⟩ := List.lookup_eq_some_iff.mp hr
  refine List.mem_dedup.mpr ?_
  rw [hl]
  simp

theorem Covered.run (h : s.Covered) {ms : List (Move Q K I)} (hs : s.run serve ms = some s') :
    Relation.ReflTransGen (Step serve) s.state s'.state := by
  induction ms generalizing s with
  | nil =>
    obtain rfl := Option.some.inj hs
    exact .refl
  | cons m ms ih =>
    obtain ⟨s₁, hm, hs⟩ := Option.bind_eq_some_iff.mp hs
    obtain ⟨step, h⟩ := h.move hm
    exact .head step (ih h hs)

theorem Covered.of_run (h : s.Covered) {ms : List (Move Q K I)} (hs : s.run serve ms = some s') : s'.Covered := by
  induction ms generalizing s with
  | nil => exact Option.some.inj hs ▸ h
  | cons m ms ih =>
    obtain ⟨s₁, hm, hs⟩ := Option.bind_eq_some_iff.mp hs
    exact ih (h.move hm).2 hs

/-- A schedule that can be followed from the rows listed leads to a reachable state. -/
theorem reachable {now : Time} {rows : List (K × R)} {ms : List (Move Q K I)}
    (hs : (initial now rows).run serve ms = some s') : Reachable serve (fun k => rows.lookup k) s'.state := by
  have start : (initial now rows : Listed Q K R E I A).Covered := covered_initial
  exact ⟨now, (· ∈ (rows.map Prod.fst).dedup), start.rows, start.run hs⟩

/-- A schedule followed as long as `ok` allows each state after the one before it. -/
def runWhile (serve : Q → Prog K R E I A) (ok : Listed Q K R E I A → Listed Q K R E I A → Bool)
    (s : Listed Q K R E I A) : List (Move Q K I) → Option (Listed Q K R E I A)
  | [] => some s
  | m :: ms => (s.move serve m).bind fun s' => if ok s s' then s'.runWhile serve ok ms else none

/-- The request of session `i` and its answer, once it has one. -/
def served (s : Listed Q K R E I A) (i : Nat) : Option (Q × A) :=
  match s.sessions.lookup i with
  | some ⟨q, .answered a, _⟩ => some (q, a)
  | _ => none

omit [DecidableEq K] in
theorem sessions_of_served {a : A} (h : s.served i = some (q, a)) :
    ∃ tx, s.state.sessions i = some ⟨q, .answered a, tx⟩ := by
  rw [served] at h
  split at h
  · rename_i here
    cases h
    exact ⟨_, here⟩
  · cases h

/-- So does a schedule whose outcome is seen to satisfy `check`. -/
theorem reachable_of_check (serve : Q → Prog K R E I A) (now : Time) (rows : List (K × R)) (ms : List (Move Q K I))
    (check : Listed Q K R E I A → Bool) (hs : ((initial now rows).run serve ms).any check = true) :
    ∃ s, Reachable serve (fun k => rows.lookup k) s.state ∧ check s = true := by
  cases hr : (initial now rows).run serve ms with
  | none =>
    rw [hr] at hs
    cases hs
  | some s =>
    rw [hr] at hs
    exact ⟨s, reachable hr, hs⟩

/-- And one that goes on from there leads on to another. -/
theorem reaches_of_check (serve : Q → Prog K R E I A) (now : Time) (rows : List (K × R)) (ms ms' : List (Move Q K I))
    (check check' : Listed Q K R E I A → Bool)
    (hs : ((initial now rows).run serve ms).any (fun s => check s && (s.run serve ms').any check') = true) :
    ∃ s s', Reachable serve (fun k => rows.lookup k) s.state ∧ check s = true ∧
      Relation.ReflTransGen (Step serve) s.state s'.state ∧ check' s' = true := by
  have start : (initial now rows : Listed Q K R E I A).Covered := covered_initial
  obtain ⟨s, reachable, covered, hs⟩ : ∃ s : Listed Q K R E I A,
      Reachable serve (fun k => rows.lookup k) s.state ∧ s.Covered ∧
      (check s && (s.run serve ms').any check') = true := by
    cases hr : (initial now rows).run serve ms with
    | none =>
      rw [hr] at hs
      cases hs
    | some s =>
      rw [hr] at hs
      exact ⟨s, reachable hr, start.of_run hr, hs⟩
  obtain ⟨hcheck, hs⟩ := Bool.and_eq_true_iff.mp hs
  cases hr : s.run serve ms' with
  | none =>
    rw [hr] at hs
    cases hs
  | some s' =>
    rw [hr] at hs
    exact ⟨s, s', reachable, hcheck, covered.run hr, hs⟩

/-- A schedule each of whose states `ok` allows, where what `ok` allows is allowed, is a run of allowed steps. -/
theorem reachableBy_of_check (serve : Q → Prog K R E I A) (now : Time) (rows : List (K × R)) (ms : List (Move Q K I))
    (allowed : State Q K R E I A → State Q K R E I A → Prop) (ok : Listed Q K R E I A → Listed Q K R E I A → Bool)
    (of_ok : ∀ s s', Reachable serve (fun k => rows.lookup k) s.state → Step serve s.state s'.state → s.Covered →
      ok s s' = true → allowed s.state s'.state)
    (check : Listed Q K R E I A → Bool) (hs : ((initial now rows).runWhile serve ok ms).any check = true) :
    ∃ s, ReachableBy serve allowed (fun k => rows.lookup k) s.state ∧ check s = true := by
  have start : (initial now rows : Listed Q K R E I A).Covered := covered_initial
  suffices ∀ s : Listed Q K R E I A, s.Covered → Reachable serve (fun k => rows.lookup k) s.state →
      ReachableBy serve allowed (fun k => rows.lookup k) s.state → (s.runWhile serve ok ms).any check = true →
      ∃ s, ReachableBy serve allowed (fun k => rows.lookup k) s.state ∧ check s = true from
    this _ start ⟨now, _, start.rows, .refl⟩ ⟨now, _, start.rows, .refl⟩ hs
  clear hs start
  induction ms with
  | nil => exact fun s _ _ reached hs => ⟨s, reached, hs⟩
  | cons m ms ih =>
    intro s covered reachable reached hs
    rw [runWhile] at hs
    cases hm : s.move serve m with
    | none =>
      rw [hm] at hs
      cases hs
    | some s' =>
      rw [hm, Option.bind_some] at hs
      split at hs
      · rename_i hok
        obtain ⟨step, covered'⟩ := covered.move hm
        refine ih s' covered' ?_ ?_ hs
        · obtain ⟨now, used, hu, run⟩ := reachable
          exact ⟨now, used, hu, run.tail step⟩
        · obtain ⟨now, used, hu, run⟩ := reached
          exact ⟨now, used, hu, run.tail ⟨step, of_ok s s' reachable step covered hok⟩⟩
      · cases hs

end

end Listed
end Postgres
