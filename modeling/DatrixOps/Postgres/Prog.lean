import Mathlib.Data.List.Sort
import Mathlib.Logic.Function.Basic
import DatrixOps.Postgres.Update

/-! Request handlers as programs over a PostgreSQL database. A program is the tree of commands a
    handler may send, branching on what comes back. What can come back is said by the interleaved
    semantics; here are only the commands and the SQL statements built from them. -/

namespace Postgres

/-- An instant in microseconds, the resolution of `timestamptz`. -/
abbrev Time := Int

/-- What an open transaction did to one row: the committed version it found when it locked the row,
    the version it leaves, and whether the row's key was generated by it. -/
structure Change (R : Type) where
  base : Option R
  new : Option R
  fresh : Bool

/-- An open transaction: its `NOW()`, the rows it has locked, and the events it announces once it
    commits. -/
structure Tx (K R E : Type) where
  start : Time
  changes : K → Option (Change R)
  events : List E

namespace Tx
variable {K R E : Type}

def empty (start : Time) : Tx K R E := ⟨start, fun _ => none, []⟩

/-- The version of row `k` that the transaction sees, `committed` being the newest committed one. -/
def view (tx : Tx K R E) (k : K) (committed : Option R) : Option R :=
  match tx.changes k with
  | some c => c.new
  | none => committed

/-- The committed rows once the transaction has committed over `rows`. -/
def apply (tx : Tx K R E) (rows : K → Option R) : K → Option R := fun k => tx.view k (rows k)

def emit (tx : Tx K R E) (events : List E) : Tx K R E := { tx with events := tx.events ++ events }

/-- A snapshot holds each row once, and the transaction's own changes in place of what they replace. -/
structure Sees (tx : Tx K R E) (rows : List (K × R)) : Prop where
  nodup : (rows.map Prod.fst).Nodup
  own : ∀ k c r, tx.changes k = some c → ((k, r) ∈ rows ↔ c.new = some r)

variable {tx : Tx K R E} {k k' : K} {base new : Option R} {row : R} {t : Time} {es : List E}

@[simp] theorem changes_empty : (empty t : Tx K R E).changes k = none := rfl

@[simp] theorem events_empty : (empty t : Tx K R E).events = [] := rfl

@[simp] theorem start_empty : (empty t : Tx K R E).start = t := rfl

@[simp] theorem changes_emit : (tx.emit es).changes = tx.changes := rfl

@[simp] theorem start_emit : (tx.emit es).start = tx.start := rfl

@[simp] theorem events_emit : (tx.emit es).events = tx.events ++ es := rfl

theorem view_of_changes {c : Change R} (h : tx.changes k = some c) : tx.view k base = c.new := by simp [view, h]

theorem view_of_unchanged (h : tx.changes k = none) : tx.view k base = base := by simp [view, h]

variable [DecidableEq K]

/-- Lock row `k`, whose committed version is `base`, and leave `new`. -/
def write (tx : Tx K R E) (k : K) (base new : Option R) : Tx K R E :=
  { tx with changes := Function.update tx.changes k <| some <|
      match tx.changes k with
      | some c => { c with new := new }
      | none => ⟨base, new, false⟩ }

/-- Insert a row under a newly generated key. -/
def create (tx : Tx K R E) (k : K) (row : R) : Tx K R E :=
  { tx with changes := Function.update tx.changes k (some ⟨none, some row, true⟩) }

@[simp] theorem events_write : (tx.write k base new).events = tx.events := rfl

@[simp] theorem start_write : (tx.write k base new).start = tx.start := rfl

@[simp] theorem events_create : (tx.create k row).events = tx.events := rfl

@[simp] theorem start_create : (tx.create k row).start = tx.start := rfl

theorem changes_write_of_ne (h : k' ≠ k) : (tx.write k base new).changes k' = tx.changes k' :=
  Function.update_of_ne h _ _

theorem changes_create_of_ne (h : k' ≠ k) : (tx.create k row).changes k' = tx.changes k' :=
  Function.update_of_ne h _ _

@[simp] theorem changes_create : (tx.create k row).changes k = some ⟨none, some row, true⟩ :=
  Function.update_self _ _ _

/-- The one row a transaction has inserted. -/
theorem changes_create_empty {c : Change R} (h : ((empty t : Tx K R E).create k row).changes k' = some c) :
    k' = k ∧ c = ⟨none, some row, true⟩ := by
  by_cases hk : k' = k
  · subst hk
    rw [changes_create] at h
    exact ⟨rfl, (Option.some.inj h).symm⟩
  · rw [changes_create_of_ne hk] at h
    cases h

theorem changes_write : (tx.write k base new).changes k =
    some (match tx.changes k with
      | some c => { c with new := new }
      | none => ⟨base, new, false⟩) :=
  Function.update_self _ _ _

theorem write_write {base' new' : Option R} : (tx.write k base new).write k base' new' = tx.write k base new' := by
  simp only [write, Function.update_self, Function.update_idem]
  cases tx.changes k <;> rfl

end Tx

/-- The commands of a handler. `K` keys the rows `R`, `E` are the events of a transaction, `I` what
    the outside answers when asked (a statement fails, a value is read elsewhere) and `A` the
    response. -/
inductive Prog (K R E I A : Type) where
  /-- send the response; an open transaction is rolled back -/
  | answer (a : A)
  /-- begin a transaction and read its `NOW()` -/
  | start (next : Time → Prog K R E I A)
  /-- read the clock of the process -/
  | clock (next : Time → Prog K R E I A)
  /-- ask the outside -/
  | ask (next : I → Prog K R E I A)
  /-- take the snapshot of a statement -/
  | scan (next : List (K × R) → Prog K R E I A)
  /-- wait until no other transaction holds row `k` (or go on without it, for `SKIP LOCKED`), evaluate
      `f` on its newest version, and where `f` matches lock the row and leave what `f` says -/
  | access (skipLocked : Bool) (k : K) (f : Option R → Option (Option R))
      (next : Option (Option R) → Prog K R E I A)
  /-- insert a row under a generated key, one that `row` has a row for, unless a row in `conflict` is there (a
      unique index) -/
  | insert (row : K → Option R) (conflict : R → Bool) (next : Option K → Prog K R E I A)
  /-- announce events -/
  | emit (events : List E) (next : Prog K R E I A)
  | commit (next : Prog K R E I A)
  | rollback (next : Prog K R E I A)

/-- A table among the rows of a database. -/
structure Table (R T : Type) where
  get : R → Option T
  put : T → R
  get_put : ∀ t, get (put t) = some t
  put_get : ∀ r t, get r = some t → put t = r

namespace Table
variable {R T : Type}

/-- The table that is the whole database. -/
def whole (T : Type) : Table T T := ⟨some, id, fun _ => rfl, fun _ _ h => (Option.some.inj h).symm⟩

/-- The keyed rows of the table in a snapshot. -/
def rows {K : Type} (tab : Table R T) (snapshot : List (K × R)) : List (K × T) :=
  snapshot.filterMap fun (k, r) => (tab.get r).map (k, ·)

theorem mem_rows {K : Type} {tab : Table R T} {snapshot : List (K × R)} {k : K} {t : T} :
    (k, t) ∈ tab.rows snapshot ↔ (k, tab.put t) ∈ snapshot := by
  simp only [rows, List.mem_filterMap, Option.map_eq_some_iff]
  constructor
  · rintro ⟨⟨k', r⟩, hmem, t', ht', heq⟩
    simp only [Prod.mk.injEq] at heq
    rw [← heq.1, ← heq.2, tab.put_get _ _ ht']
    exact hmem
  · intro hmem
    exact ⟨(k, tab.put t), hmem, t, tab.get_put t, rfl⟩

theorem nodup_rows {K : Type} {tab : Table R T} {snapshot : List (K × R)}
    (h : (snapshot.map Prod.fst).Nodup) : ((tab.rows snapshot).map Prod.fst).Nodup := by
  refine h.sublist ?_
  induction snapshot with
  | nil => exact List.Sublist.refl _
  | cons kr rest ih =>
    have ih := ih (List.nodup_cons.mp h).2
    obtain ⟨k, r⟩ := kr
    cases hr : tab.get r with
    | none =>
      simp only [rows, List.filterMap_cons, hr, Option.map_none]
      exact ih.cons _
    | some t =>
      simp only [rows, List.filterMap_cons, hr, Option.map_some, List.map_cons]
      exact ih.cons_cons _

theorem rows_append_put {K : Type} {tab : Table R T} {found : List (K × R)} {k : K} {t : T} :
    tab.rows (found ++ [(k, tab.put t)]) = tab.rows found ++ [(k, t)] := by
  simp [Table.rows, tab.get_put]

end Table

namespace Prog
variable {K R T E I A : Type}

/-- Visit the rows `ks` a snapshot has chosen, at most `limit` of them. Each is locked in turn and `f` is
    evaluated again on its newest version; the versions left in the matched rows are collected. -/
def visit (skipLocked : Bool) (limit : Option Nat) (f : R → Option (Option R)) :
    List K → List (K × R) → (List (K × R) → Prog K R E I A) → Prog K R E I A
  | [], found, next => next found
  | k :: ks, found, next =>
    if limit = some found.length then next found
    else .access skipLocked k (fun old => old.bind f) fun
      | some (some row) => visit skipLocked limit f ks (found ++ [(k, row)]) next
      | _ => visit skipLocked limit f ks found next

/-- What a statement does to a row of the table, and to rows of other tables nothing. -/
def on (tab : Table R T) (p : T → Bool) (set : T → Option T) (r : R) : Option (Option R) :=
  (tab.get r).bind fun t => if p t then some ((set t).map tab.put) else none

/-- The rows of a snapshot that a `WHERE` matches. -/
def matching (tab : Table R T) (p : T → Bool) (snapshot : List (K × R)) : List (K × T) :=
  (tab.rows snapshot).filter fun kt => p kt.2

theorem nodup_matching {tab : Table R T} {p : T → Bool} {snapshot : List (K × R)} (h : (snapshot.map Prod.fst).Nodup) :
    ((matching tab p snapshot).map Prod.fst).Nodup :=
  (Table.nodup_rows h).sublist (List.filter_sublist.map Prod.fst)

/-- `UPDATE .. SET .. FROM .. WHERE .. RETURNING *`. What the statement reads of other rows it reads in its
    snapshot, also when a row it waited for is evaluated again. -/
def update (tab : Table R T) (u : List (K × R) → Update T) (next : List (K × T) → Prog K R E I A) :
    Prog K R E I A :=
  .scan fun snapshot =>
    visit false none (on tab (u snapshot).where_ fun t => some ((u snapshot).set t))
      ((matching tab (u snapshot).where_ snapshot).map Prod.fst) [] fun found => next (tab.rows found)

/-- `SELECT * .. WHERE .. ORDER BY .. FOR UPDATE` with or without `SKIP LOCKED` and `LIMIT` -/
def selectForUpdate (tab : Table R T) (p : T → Bool) (orderBy : T → T → Bool) (skipLocked : Bool)
    (limit : Option Nat) (next : List (K × T) → Prog K R E I A) : Prog K R E I A :=
  .scan fun snapshot =>
    visit skipLocked limit (on tab p some)
      (((matching tab p snapshot).mergeSort fun a b => orderBy a.2 b.2).map Prod.fst) []
      fun found => next (tab.rows found)

/-- `DELETE .. WHERE ..` -/
def delete (tab : Table R T) (p : T → Bool) (next : Prog K R E I A) : Prog K R E I A :=
  .scan fun snapshot =>
    visit false none (on tab p fun _ => none) ((matching tab p snapshot).map Prod.fst) [] fun _ => next

/-- Remove the rows `ks` a snapshot has chosen, each locked and evaluated again first, and collect them. -/
def remove (p : R → Bool) : List K → List (K × R) → (List (K × R) → Prog K R E I A) → Prog K R E I A
  | [], found, next => next found
  | k :: ks, found, next =>
    .access false k (fun old => old.bind fun r => if p r then some (some r) else none) fun
      | some (some row) => .access false k (fun _ => some none) fun _ => remove p ks (found ++ [(k, row)]) next
      | _ => remove p ks found next

/-- `DELETE .. WHERE .. RETURNING *` -/
def deleteReturning (tab : Table R T) (p : T → Bool) (next : List (K × T) → Prog K R E I A) : Prog K R E I A :=
  .scan fun snapshot =>
    remove (fun r => (tab.get r).any p) ((matching tab p snapshot).map Prod.fst) [] fun found => next (tab.rows found)

/-- A statement on the row of one primary key: `UPDATE`, `SELECT .. FOR UPDATE` or `DELETE`, `set` saying what it
    leaves of the row. What comes back is nothing when no row matched, and else what is left. -/
def byKey (tab : Table R T) (k : K) (p : T → Bool) (set : T → Option T) (next : Option (Option T) → Prog K R E I A)
    [DecidableEq K] : Prog K R E I A :=
  .scan fun snapshot =>
    if (matching tab p snapshot).any fun kt => kt.1 = k then
      .access false k (fun old => old.bind (on tab p set)) fun left => next (left.map fun new => new.bind tab.get)
    else next none

/-- `INSERT .. ON CONFLICT (key) DO UPDATE .. WHERE .. RETURNING *`. `f` says what row it leaves, and none where the
    `WHERE` does not match. It meets the newest version of the row, whether its snapshot has the row or not. -/
def upsert (tab : Table R T) (k : K) (f : Option T → Option T) (next : Option T → Prog K R E I A) : Prog K R E I A :=
  .access false k (fun old => (f (old.bind tab.get)).map fun new => some (tab.put new)) fun left =>
    next (left.bind fun new => new.bind tab.get)

/-- A `SELECT` by itself. -/
def select {α : Type} (read : Time → List (K × R) → α) (next : α → Prog K R E I A) : Prog K R E I A :=
  .start fun now => .scan fun snapshot => .commit (next (read now snapshot))

end Prog
end Postgres
