import Mathlib.Data.List.Basic
import Mathlib.Data.List.Forall2

/-! The statements of one call, one after the other, on a database that others change between them. What each statement
    meets is given: the rows it finds, the key it would generate and how it goes. A loop of creations, each of which
    stores its rows in a transaction of its own, is all or nothing only where every creation is completed or the first
    one stores nothing. -/

namespace Postgres

/-- How a statement goes: it is done; it fails without effect; or it takes effect and its answer is lost, so that the
    call is told that it failed. -/
inductive Fate where
  | done | failed | lost
  deriving DecidableEq, Repr

/-- What a statement meets. `D` is what statements read of the database. -/
structure Meeting (D : Type) where
  found : D
  generated : Nat
  fate : Fate

/-- A call underway: what its next statements meet, the rows of its open transaction, and those of the transactions it
    has committed, in order. -/
structure Course (D W : Type) where
  meetings : Nat → Meeting D
  pending : List W
  committed : List (List W)

namespace Course
variable {D W : Type}

def start (meetings : Nat → Meeting D) : Course D W := ⟨meetings, [], []⟩

/-- The statement after the next `n` statements is the next one. -/
def skip (c : Course D W) (n : Nat) : Course D W := { c with meetings := fun i => c.meetings (n + i) }

@[simp] theorem pending_skip (c : Course D W) (n : Nat) : (c.skip n).pending = c.pending := rfl

@[simp] theorem committed_skip (c : Course D W) (n : Nat) : (c.skip n).committed = c.committed := rfl

@[simp] theorem meetings_skip (c : Course D W) (n i : Nat) : (c.skip n).meetings i = c.meetings (n + i) := rfl

end Course

/-- A call that returns an `A` or fails with an `E`. What it has stored stays when it fails. -/
def Call (D W E A : Type) : Type := Course D W → Except E A × Course D W

namespace Call
variable {D W E F A B S : Type}

instance : Monad (Call D W E) where
  pure a c := (.ok a, c)
  bind x next c :=
    match x c with
    | (.ok a, c) => next a c
    | (.error e, c) => (.error e, c)

theorem bind_of_ok {x : Call D W E A} {next : A → Call D W E B} {a : A} {c c' : Course D W} (h : x c = (.ok a, c')) :
    (x >>= next) c = next a c' := by
  change (match x c with | (.ok a, c) => next a c | (.error e, c) => (.error e, c)) = next a c'
  rw [h]

theorem bind_of_error {x : Call D W E A} {next : A → Call D W E B} {e : E} {c c' : Course D W}
    (h : x c = (.error e, c')) :
    (x >>= next) c = (.error e, c') := by
  change (match x c with | (.ok a, c) => next a c | (.error e, c) => (.error e, c)) = (.error e, c')
  rw [h]

def fail (e : E) : Call D W E A := fun c => (.error e, c)

/-- What the caller makes of an error. -/
def mapError (f : E → F) (x : Call D W E A) : Call D W F A := fun c =>
  match x c with
  | (.ok a, c) => (.ok a, c)
  | (.error e, c) => (.error (f e), c)

/-- A statement that stores nothing for good: `error` is what the call says where it is not done. -/
def statement (error : E) (run : D → Except E A) : Call D W E A := fun c =>
  let m := c.meetings 0
  (if m.fate = .done then run m.found else .error error, c.skip 1)

/-- An `INSERT` in the open transaction, of the row that `row` makes with the generated key. There is none where the
    database refuses it. -/
def insert (error : E) (row : D → Nat → Option W) : Call D W E Nat := fun c =>
  let m := c.meetings 0
  match row m.found m.generated with
  | some w => if m.fate = .done then (.ok m.generated, { c.skip 1 with pending := c.pending ++ [w] })
    else (.error error, c.skip 1)
  | none => (.error error, c.skip 1)

def begin_ (error : E) : Call D W E Unit := fun c =>
  let m := c.meetings 0
  (if m.fate = .done then .ok () else .error error, { c.skip 1 with pending := [] })

def commit (error : E) : Call D W E Unit := fun c =>
  match (c.meetings 0).fate with
  | .done => (.ok (), { c.skip 1 with committed := c.committed ++ [c.pending] })
  | .failed => (.error error, c.skip 1)
  | .lost => (.error error, { c.skip 1 with committed := c.committed ++ [c.pending] })

/-- An `INSERT` of a row without a generated key, which the database accepts where `accept` says so. -/
def insertRow (error : E) (accept : D → Bool) (w : W) : Call D W E Unit := do
  let _ ← insert error fun found _ => if accept found then some w else none

/-- An `INSERT` that is a transaction of its own. -/
def insertAlone (error : E) (row : D → Nat → Option W) : Call D W E Nat := fun c =>
  let m := c.meetings 0
  match row m.found m.generated, m.fate with
  | some w, .done => (.ok m.generated, { c.skip 1 with committed := c.committed ++ [[w]] })
  | some w, .lost => (.error error, { c.skip 1 with committed := c.committed ++ [[w]] })
  | _, _ => (.error error, c.skip 1)

/-- The creations of a batch, in order. The first that fails ends it. -/
def each (create : S → Call D W E A) : List S → Call D W E (List A)
  | [] => pure []
  | s :: rest => do
    let a ← create s
    let as ← each create rest
    return a :: as

/-! ### All or nothing -/

/-- Either the rows that each of `l` asks for are stored, in order, and the call reports success, or nothing
    is stored and it reports an error. -/
def AllOrNothing (rows : S → List W → Prop) (l : List S) (result : Except E B × Course D W) : Prop :=
  (∃ b, result.1 = .ok b) ∧ List.Forall₂ rows l result.2.committed ∨ (∃ e, result.1 = .error e) ∧
    result.2.committed = []

theorem not_allOrNothing {rows : S → List W → Prop} {l : List S} {result : Except E B × Course D W} {e : E}
    (failed : result.1 = .error e) (stored : result.2.committed ≠ []) : ¬AllOrNothing rows l result := by
  rintro (⟨⟨b, hb⟩, -⟩ | ⟨-, nothing⟩)
  · rw [failed] at hb
    cases hb
  · exact stored nothing

/-! ### The statements before the commit -/

/-- What the statements of an open transaction do: where `post` says that the `n` statements they meet give a value and
    rows, the call goes on with that value and those rows, and otherwise it fails. -/
structure Prepares (x : Call D W E A) (n : Nat) (post : (Nat → Meeting D) → A → List W → Prop) : Prop where
  ok : ∀ (c : Course D W) a ws, post c.meetings a ws → x c = (.ok a, { c.skip n with pending := c.pending ++ ws })
  error : ∀ c : Course D W, (∀ a ws, ¬post c.meetings a ws) → ∃ e c', x c = (.error e, c') ∧ c'.committed = c.committed

namespace Prepares
variable {x : Call D W E A} {next : A → Call D W E B} {n n' : Nat} {post : (Nat → Meeting D) → A → List W → Prop}
  {post' : A → (Nat → Meeting D) → B → List W → Prop}

theorem pure (a : A) : Prepares (pure a : Call D W E A) 0 fun _ a' ws => a' = a ∧ ws = [] where
  ok c a' ws h := by
    obtain ⟨rfl, rfl⟩ := h
    simp only [List.append_nil, Course.skip, Nat.zero_add]
    rfl
  error c h := absurd ⟨rfl, rfl⟩ (h a [])

theorem fail (e : E) : Prepares (Call.fail e : Call D W E A) n fun _ _ _ => False where
  ok _ _ _ h := h.elim
  error c _ := ⟨e, c, rfl, rfl⟩

theorem congr {post' : (Nat → Meeting D) → A → List W → Prop} (h : Prepares x n post) (length : n = n')
    (same : ∀ m a ws, post m a ws ↔ post' m a ws) : Prepares x n' post' := by
  have eq : post = post' := funext fun m => funext fun a => funext fun ws => propext (same m a ws)
  exact length ▸ eq ▸ h

theorem bind (hx : Prepares x n post) (hnext : ∀ a, Prepares (next a) n' (post' a)) :
    Prepares (x >>= next) (n + n') fun m b ws =>
      ∃ a ws₁ ws₂, post m a ws₁ ∧ post' a (fun i => m (n + i)) b ws₂ ∧ ws = ws₁ ++ ws₂ where
  ok c b ws h := by
    obtain ⟨a, ws₁, ws₂, first, second, rfl⟩ := h
    rw [bind_of_ok (hx.ok c a ws₁ first), (hnext a).ok _ b ws₂ second]
    simp [Course.skip, List.append_assoc, Nat.add_assoc]
  error c h := by
    by_cases first : ∃ a ws, post c.meetings a ws
    · obtain ⟨a, ws₁, first⟩ := first
      obtain ⟨e, c', run, committed⟩ := (hnext a).error { c.skip n with pending := c.pending ++ ws₁ }
          fun b ws₂ second =>
        h b _ ⟨a, ws₁, ws₂, first, second, rfl⟩
      exact ⟨e, c', by rw [bind_of_ok (hx.ok c a ws₁ first), run], committed⟩
    · push Not at first
      obtain ⟨e, c', run, committed⟩ := hx.error c first
      exact ⟨e, c', bind_of_error run, committed⟩

theorem statement (error : E) (run : D → Except E A) :
    Prepares (Call.statement error run : Call D W E A) 1 fun m a ws =>
    (m 0).fate = .done ∧ run (m 0).found = .ok a ∧ ws = [] where
  ok c a ws h := by
    obtain ⟨done, value, rfl⟩ := h
    simp [Call.statement, Course.skip, done, value]
  error c h := by
    by_cases done : (c.meetings 0).fate = .done
    · cases value : run (c.meetings 0).found with
      | ok a => exact absurd ⟨done, value, rfl⟩ (h a [])
      | error e => exact ⟨e, c.skip 1, by simp [Call.statement, done, value], rfl⟩
    · exact ⟨error, c.skip 1, by simp [Call.statement, done], rfl⟩

theorem insert (error : E) (row : D → Nat → Option W) : Prepares (Call.insert error row) 1 fun m id ws =>
    (m 0).fate = .done ∧ ∃ w, row (m 0).found (m 0).generated = some w ∧ id = (m 0).generated ∧ ws = [w] where
  ok c id ws h := by
    obtain ⟨done, w, hrow, rfl, rfl⟩ := h
    simp [Call.insert, done, hrow]
  error c h := by
    refine ⟨error, c.skip 1, ?_, rfl⟩
    cases hrow : row (c.meetings 0).found (c.meetings 0).generated with
    | none => simp [Call.insert, hrow]
    | some w =>
      have broken : (c.meetings 0).fate ≠ .done := fun done => h _ [w] ⟨done, w, hrow, rfl, rfl⟩
      simp [Call.insert, hrow, broken]

theorem insertRow (error : E) (accept : D → Bool) (w : W) : Prepares (Call.insertRow error accept w) 1 fun m _ ws =>
    (m 0).fate = .done ∧ accept (m 0).found = true ∧ ws = [w] :=
  ((insert error _).bind fun _ => pure ()).congr rfl fun m u ws => by
    constructor
    · rintro ⟨id, ws₁, ws₂, ⟨done, w', hrow, -, rfl⟩, ⟨-, rfl⟩, rfl⟩
      obtain ⟨accepted, same⟩ := Option.ite_none_right_eq_some.mp hrow
      obtain rfl := Option.some.inj same
      exact ⟨done, accepted, rfl⟩
    · rintro ⟨done, accepted, rfl⟩
      exact ⟨_, [w], [], ⟨done, w, by rw [if_pos accepted], rfl, rfl⟩, ⟨rfl, rfl⟩, rfl⟩

/-- The loop of inserts of one transaction. -/
theorem inserts (error : E) (accept : S → D → Bool) (w : S → W) (l : List S) :
    Prepares (each (fun s => Call.insertRow error (accept s) (w s)) l) l.length fun m us ws =>
      us = l.map (fun _ => ()) ∧ ws = l.map w ∧ ∀ i (hi : i < l.length), (m i).fate = .done ∧
        accept l[i] (m i).found = true := by
  induction l with
  | nil => exact (pure []).congr rfl fun m us ws => by simp
  | cons s rest ih =>
    have step := (insertRow error (accept s) (w s)).bind fun u => ih.bind fun us => pure (u :: us)
    refine step.congr (Nat.add_comm 1 rest.length) fun m us ws => ?_
    constructor
    · rintro ⟨u, ws₁, ws₂, ⟨done, accepted, rfl⟩, ⟨us', ws₃, ws₄, ⟨rfl, rfl, all⟩, ⟨rfl, rfl⟩, rfl⟩, rfl⟩
      refine ⟨rfl, by simp, fun i hi => ?_⟩
      cases i with
      | zero => exact ⟨done, accepted⟩
      | succ i =>
        have later := all i (Nat.lt_of_succ_lt_succ hi)
        simp only [Nat.add_comm 1 i] at later
        exact later
    · rintro ⟨rfl, rfl, all⟩
      refine ⟨(), [w s], rest.map w, ⟨(all 0 (Nat.succ_pos _)).1, (all 0 (Nat.succ_pos _)).2, rfl⟩,
        ⟨rest.map fun _ => (), rest.map w, [], ⟨rfl, rfl, fun i hi => ?_⟩, ⟨rfl, rfl⟩, (List.append_nil _).symm⟩, rfl⟩
      simp only [Nat.add_comm 1 i]
      exact all (i + 1) (Nat.succ_lt_succ hi)

end Prepares

/-- What a creation does, by what its `n` statements meet: it stores its rows and returns, or stores rows and
    fails all the same, or stores nothing and fails. -/
structure Creates (create : Call D W E A) (stores completes : (Nat → Meeting D) → Prop) (n : Nat)
    (rows : List W → Prop) :
    Prop where
  within : ∀ m, completes m → stores m
  completed : ∀ c : Course D W, completes c.meetings → ∃ a c', create c = (.ok a, c') ∧
    c'.meetings = (c.skip n).meetings ∧
    ∃ block, rows block ∧ c'.committed = c.committed ++ [block]
  broken : ∀ c : Course D W, stores c.meetings → ¬completes c.meetings → ∃ e c', create c = (.error e, c') ∧
    ∃ block, c'.committed = c.committed ++ [block]
  refused : ∀ c : Course D W, ¬stores c.meetings → ∃ e c', create c = (.error e, c') ∧ c'.committed = c.committed

/-- A transaction that stores the rows of `body`, and a statement after it that returns what the call returns. -/
theorem Creates.transaction (error error' : E) {body : Call D W E A} {after : A → Call D W E B} {n n' : Nat}
    {post : (Nat → Meeting D) → A → List W → Prop} {post' : A → (Nat → Meeting D) → B → List W → Prop}
    {rows : List W → Prop}
    (hrows : ∀ m a ws, post m a ws → rows ws) (hbody : Prepares body n post)
    (hafter : ∀ a, Prepares (after a) n' (post' a)) :
    Creates (do begin_ error; let a ← body; commit error'; after a)
      (fun m => (m 0).fate = .done ∧ (∃ a ws, post (fun i => m (1 + i)) a ws) ∧ (m (1 + n)).fate ≠ .failed)
      (fun m => (m 0).fate = .done ∧ (m (1 + n)).fate = .done ∧
        ∃ a ws, post (fun i => m (1 + i)) a ws ∧ ∃ b ws', post' a (fun i => m (1 + n + 1 + i)) b ws')
      (1 + n + 1 + n') rows := by
  have opened (c : Course D W) (done : (c.meetings 0).fate = .done) :
      begin_ error c = (.ok (), { c.skip 1 with pending := [] }) := by simp [begin_, done]
  have through (c : Course D W) (done : (c.meetings 0).fate = .done) {a : A} {ws : List W}
      (h : post (fun i => c.meetings (1 + i)) a ws) :
      (do begin_ error; let a ← body; commit error'; after a) c =
        (do commit error'; after a) { (c.skip 1).skip n with pending := ws } := by
    rw [bind_of_ok (opened c done), bind_of_ok (hbody.ok _ a ws h)]
    rfl
  refine ⟨?_, ?_, ?_, ?_⟩
  · rintro m ⟨done, committed, a, ws, h, -⟩
    exact ⟨done, ⟨a, ws, h⟩, by rw [committed]; decide⟩
  · rintro c ⟨done, committed, a, ws, h, b, ws', h'⟩
    have stored : commit error' { (c.skip 1).skip n with pending := ws } =
        (.ok (), { ((c.skip 1).skip n).skip 1 with pending := ws, committed := c.committed ++ [ws] }) := by
      simp [commit, Course.skip, committed]
    refine ⟨b, _, by rw [through c done h, bind_of_ok stored,
      (hafter a).ok _ b ws' (by simpa [Course.skip, Nat.add_assoc] using h')], ?_,
      ws, hrows _ a ws h, rfl⟩
    simp [Course.skip, Nat.add_assoc]
  · rintro c ⟨done, ⟨a, ws, h⟩, notFailed⟩ broken
    rw [through c done h]
    cases fate : (c.meetings (1 + n)).fate with
    | failed => exact absurd fate notFailed
    | lost =>
      have stored : commit error' { (c.skip 1).skip n with pending := ws } =
          (.error error', { ((c.skip 1).skip n).skip 1 with pending := ws, committed := c.committed ++ [ws] }) := by
        simp [commit, Course.skip, fate]
      exact ⟨error', _, bind_of_error stored, ws, rfl⟩
    | done =>
      have stored : commit error' { (c.skip 1).skip n with pending := ws } =
          (.ok (), { ((c.skip 1).skip n).skip 1 with pending := ws, committed := c.committed ++ [ws] }) := by
        simp [commit, Course.skip, fate]
      obtain ⟨e, c', run, committed⟩ := (hafter a).error
          { ((c.skip 1).skip n).skip 1 with pending := ws, committed := c.committed ++ [ws] } fun b ws' h' =>
        broken ⟨done, fate, a, ws, h, b, ws', by simpa [Course.skip, Nat.add_assoc] using h'⟩
      exact ⟨e, c', by rw [bind_of_ok stored, run], ws, committed⟩
  · rintro c refused
    by_cases done : (c.meetings 0).fate = .done
    · by_cases prepared : ∃ a ws, post (fun i => c.meetings (1 + i)) a ws
      · obtain ⟨a, ws, h⟩ := prepared
        have failed : (c.meetings (1 + n)).fate = .failed := by
          by_contra other
          exact refused ⟨done, ⟨a, ws, h⟩, other⟩
        have lost : commit error' { (c.skip 1).skip n with pending := ws } =
            (.error error', { ((c.skip 1).skip n).skip 1 with pending := ws }) := by simp [commit, Course.skip, failed]
        rw [through c done h]
        exact ⟨error', _, bind_of_error lost, rfl⟩
      · push Not at prepared
        obtain ⟨e, c', run, committed⟩ := hbody.error { c.skip 1 with pending := [] } prepared
        exact ⟨e, c', by rw [bind_of_ok (opened c done), bind_of_error run], committed⟩
    · have failed : begin_ error c = (.error error, { c.skip 1 with pending := [] }) := by simp [begin_, done]
      exact ⟨error, _, bind_of_error failed, rfl⟩

/-- An insert that is a transaction of its own. -/
theorem Creates.insertAlone {error : E} {row : D → Nat → Option W} {value : Nat → A} {rows : List W → Prop}
    (hrows : ∀ found id w, row found id = some w → rows [w]) :
    Creates (do let id ← Call.insertAlone error row; return value id)
      (fun m => (m 0).fate ≠ .failed ∧ (row (m 0).found (m 0).generated).isSome = true)
      (fun m => (m 0).fate = .done ∧ (row (m 0).found (m 0).generated).isSome = true) 1 rows := by
  refine ⟨fun m h => ⟨by rw [h.1]; decide, h.2⟩, ?_, ?_, ?_⟩
  · rintro c ⟨done, accepted⟩
    obtain ⟨w, hw⟩ := Option.isSome_iff_exists.mp accepted
    have run : Call.insertAlone error row c =
        (.ok (c.meetings 0).generated, { c.skip 1 with committed := c.committed ++ [[w]] }) := by
          simp [Call.insertAlone, hw, done]
    exact ⟨_, _, bind_of_ok run, rfl, [w], hrows _ _ w hw, rfl⟩
  · rintro c ⟨notFailed, accepted⟩ broken
    obtain ⟨w, hw⟩ := Option.isSome_iff_exists.mp accepted
    have lost : (c.meetings 0).fate = .lost := by
      cases fate : (c.meetings 0).fate with
      | done => exact absurd ⟨fate, accepted⟩ broken
      | failed => exact absurd fate notFailed
      | lost => rfl
    have run : Call.insertAlone error row c = (.error error, { c.skip 1 with committed := c.committed ++ [[w]] }) := by
      simp [Call.insertAlone, hw, lost]
    exact ⟨error, _, bind_of_error run, [w], rfl⟩
  · intro c refused
    have run : Call.insertAlone error row c = (.error error, c.skip 1) := by
      cases hw : row (c.meetings 0).found (c.meetings 0).generated with
      | none => simp [Call.insertAlone, hw]
      | some w =>
        have failed : (c.meetings 0).fate = .failed := by
          by_contra other
          exact refused ⟨other, by rw [hw]; rfl⟩
        simp [Call.insertAlone, hw, failed]
    exact ⟨error, _, bind_of_error run, rfl⟩

theorem Creates.mapError {x : Call D W E A} {stores completes : (Nat → Meeting D) → Prop} {n : Nat}
    {rows : List W → Prop}
    (h : Creates x stores completes n rows) (f : E → F) : Creates (Call.mapError f x) stores completes n rows := by
  refine ⟨h.within, fun c done => ?_, fun c stored broken => ?_, fun c refused => ?_⟩
  · obtain ⟨a, c', run, rest⟩ := h.completed c done
    exact ⟨a, c', by simp [Call.mapError, run], rest⟩
  · obtain ⟨e, c', run, rest⟩ := h.broken c stored broken
    exact ⟨f e, c', by simp [Call.mapError, run], rest⟩
  · obtain ⟨e, c', run, rest⟩ := h.refused c refused
    exact ⟨f e, c', by simp [Call.mapError, run], rest⟩

theorem Creates.congr {x : Call D W E A} {stores stores' completes completes' : (Nat → Meeting D) → Prop} {n n' : Nat}
    {rows : List W → Prop} (h : Creates x stores completes n rows) (length : n = n') (hs : ∀ m, stores m ↔ stores' m)
    (hc : ∀ m, completes m ↔ completes' m) : Creates x stores' completes' n' rows := by
  obtain rfl : stores = stores' := funext fun m => propext (hs m)
  obtain rfl : completes = completes' := funext fun m => propext (hc m)
  exact length ▸ h

section
variable {create : S → Call D W E A} {stores completes : S → (Nat → Meeting D) → Prop} {n : Nat} {rows : S →
  List W → Prop}
  {l : List S} {c c' : Course D W}

theorem each_of_ok {s : S} {rest : List S} {a : A} (h : create s c = (.ok a, c')) :
    each create (s :: rest) c = (each create rest >>= fun as => pure (a :: as)) c' := bind_of_ok h

theorem each_of_error {s : S} {rest : List S} {e : E} (h : create s c = (.error e, c')) :
    each create (s :: rest) c = (.error e, c') := bind_of_error h

theorem skip_succ (same : c'.meetings = (c.skip n).meetings) (k : Nat) :
    (c'.skip (k * n)).meetings = (c.skip ((k + 1) * n)).meetings := by
  funext i
  rw [Course.meetings_skip, same, Course.meetings_skip, Course.meetings_skip, Nat.succ_mul]
  congr 1
  omega

/-- Where the creations are all completed, all the rows are stored. -/
theorem each_completed (creates : ∀ s ∈ l, Creates (create s) (stores s) (completes s) n (rows s))
    (h : ∀ k (hk : k < l.length), completes l[k] (c.skip (k * n)).meetings) :
    ∃ as c', each create l c = (.ok as, c') ∧ ∃ blocks, List.Forall₂ rows l blocks ∧
      c'.committed = c.committed ++ blocks := by
  induction l generalizing c with
  | nil => exact ⟨[], c, rfl, [], .nil, (List.append_nil _).symm⟩
  | cons s rest ih =>
    have first : completes s c.meetings := by simpa [Course.skip] using h 0 (Nat.succ_pos _)
    obtain ⟨a, c', created, same, block, hblock, committed⟩ := (creates s List.mem_cons_self).completed c first
    have later : ∀ k (hk : k < rest.length), completes rest[k] (c'.skip (k * n)).meetings := fun k hk =>
      skip_succ same k ▸ h (k + 1) (Nat.succ_lt_succ hk)
    obtain ⟨as, c'', all, blocks, hblocks, committed'⟩ := ih (fun s hs => creates s (List.mem_cons_of_mem _ hs)) later
    refine ⟨a :: as, c'', ?_, block :: blocks, .cons hblock hblocks, ?_⟩
    · rw [each_of_ok created, bind_of_ok all]
      rfl
    · rw [committed', committed, List.append_assoc]
      rfl

/-- Where one of them is not completed the batch fails, and unless the first one has stored nothing, something
is stored. -/
theorem each_failed (creates : ∀ s ∈ l, Creates (create s) (stores s) (completes s) n (rows s))
    (h : ∃ k, ∃ hk : k < l.length, ¬completes l[k] (c.skip (k * n)).meetings) :
    ∃ e c', each create l c = (.error e, c') ∧ ∃ blocks, c'.committed = c.committed ++ blocks ∧
      (blocks = [] ↔ ∃ hl : 0 < l.length, ¬stores l[0] c.meetings) := by
  induction l generalizing c with
  | nil =>
    obtain ⟨k, hk, -⟩ := h
    exact absurd hk (Nat.not_lt_zero k)
  | cons s rest ih =>
    have own := creates s List.mem_cons_self
    by_cases first : completes s c.meetings
    · obtain ⟨a, c', created, same, block, -, committed⟩ := own.completed c first
      have later : ∃ k, ∃ hk : k < rest.length, ¬completes rest[k] (c'.skip (k * n)).meetings := by
        obtain ⟨k, hk, cut⟩ := h
        cases k with
        | zero => exact absurd (by simpa [Course.skip] using first) cut
        | succ k => exact ⟨k, Nat.lt_of_succ_lt_succ hk, fun done => cut (skip_succ same k ▸ done)⟩
      obtain ⟨e, c'', failed, blocks, committed', -⟩ := ih (fun s hs => creates s (List.mem_cons_of_mem _ hs)) later
      refine ⟨e, c'', ?_, block :: blocks, ?_, ?_⟩
      · rw [each_of_ok created, bind_of_error failed]
      · rw [committed', committed, List.append_assoc]
        rfl
      · simp [own.within _ first]
    · by_cases stored : stores s c.meetings
      · obtain ⟨e, c', failed, block, committed⟩ := own.broken c stored first
        exact ⟨e, c', each_of_error failed, [block], committed, by simp [stored]⟩
      · obtain ⟨e, c', failed, committed⟩ := own.refused c stored
        exact ⟨e, c', each_of_error failed, [], by rw [committed, List.append_nil], by simp [stored]⟩

/-- A batch is all or nothing exactly where every creation is completed or the first one stores nothing. -/
theorem each_allOrNothing_iff (creates : ∀ s ∈ l, Creates (create s) (stores s) (completes s) n (rows s))
    (h : c.committed = []) : AllOrNothing rows l (each create l c) ↔
      (∀ k (hk : k < l.length), completes l[k] (c.skip (k * n)).meetings) ∨
      ∃ hl : 0 < l.length, ¬stores l[0] c.meetings := by
  by_cases all : ∀ k (hk : k < l.length), completes l[k] (c.skip (k * n)).meetings
  · obtain ⟨as, c', run, blocks, hblocks, committed⟩ := each_completed creates all
    rw [h, List.nil_append] at committed
    exact iff_of_true (Or.inl ⟨⟨as, by rw [run]⟩, by rw [run, committed]; exact hblocks⟩) (Or.inl all)
  · have cut : ∃ k, ∃ hk : k < l.length, ¬completes l[k] (c.skip (k * n)).meetings := by push Not at all; exact all
    obtain ⟨e, c', run, blocks, committed, none_iff⟩ := each_failed creates cut
    rw [h, List.nil_append] at committed
    rw [or_iff_right all, ← none_iff, ← committed, run]
    exact ⟨fun all => by_contra fun stored => not_allOrNothing rfl stored all,
      fun nothing => Or.inr ⟨⟨e, rfl⟩, nothing⟩⟩

end

end Call
end Postgres
