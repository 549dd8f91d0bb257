import Mathlib.Logic.Relation
import DatrixOps.Postgres.Prog

/-! Any number of requests served at once, over rows that only row locks protect. Each command of
    each session is one step, so every interleaving of statements is a run. A statement takes its
    snapshot of the committed rows when it starts; a row it wants to change it re-reads at its
    newest version once no other transaction holds it (READ COMMITTED). -/

namespace Postgres

/-- Where a session stands. A crash is any failure that ends the request: a lost connection, a
    deadlock victim, a statement error the handler returns on. -/
inductive Control (K R E I A : Type) where
  | running (prog : Prog K R E I A)
  | answered (a : A)
  | crashed

/-- One request being served. -/
structure Session (Q K R E I A : Type) where
  request : Q
  control : Control K R E I A
  tx : Option (Tx K R E)

/-- A committed transaction and the session it belongs to. -/
structure Commit (Q K R E : Type) where
  session : Nat
  request : Q
  tx : Tx K R E

/-- The database and its sessions. `rows` are the newest committed versions, `used` the keys that
    have ever been given out, and `log` the commits, newest first. -/
structure State (Q K R E I A : Type) where
  now : Time
  rows : K → Option R
  used : K → Prop
  sessions : Nat → Option (Session Q K R E I A)
  log : List (Commit Q K R E)

namespace State
variable {Q K R E I A : Type}

def initial (now : Time) (rows : K → Option R) (used : K → Prop) : State Q K R E I A :=
  ⟨now, rows, used, fun _ => none, []⟩

def put (s : State Q K R E I A) (i : Nat) (session : Session Q K R E I A) : State Q K R E I A :=
  { s with sessions := Function.update s.sessions i (some session) }

/-- Session `i` serves `request`, is about to run `prog`, and has `tx` open. -/
def At (s : State Q K R E I A) (i : Nat) (request : Q) (prog : Prog K R E I A) (tx : Option (Tx K R E)) : Prop :=
  s.sessions i = some ⟨request, .running prog, tx⟩

/-- Session `i` has the transaction `tx` open. -/
def Open (s : State Q K R E I A) (i : Nat) (tx : Tx K R E) : Prop :=
  ∃ session, s.sessions i = some session ∧ session.tx = some tx

/-- A transaction other than that of session `i` holds row `k`. -/
def Locked (s : State Q K R E I A) (i : Nat) (k : K) : Prop :=
  ∃ j tx c, j ≠ i ∧ s.Open j tx ∧ tx.changes k = some c

/-- The rows a statement of `tx` sees: the committed ones and its own changes, in any order. -/
def Snapshot (s : State Q K R E I A) (tx : Tx K R E) (snapshot : List (K × R)) : Prop :=
  (snapshot.map Prod.fst).Nodup ∧ ∀ k r, (k, r) ∈ snapshot ↔ tx.view k (s.rows k) = some r

/-- No row a unique index would have to wait for or to refuse: neither a committed or own version nor
    an uncommitted version of another transaction is in `conflict`. -/
def NoConflict (s : State Q K R E I A) (i : Nat) (tx : Tx K R E) (conflict : R → Bool) : Prop :=
  (∀ k r, tx.view k (s.rows k) = some r → conflict r = false) ∧
  ∀ j tx' k c r, j ≠ i → s.Open j tx' → tx'.changes k = some c → c.new = some r → conflict r = false

/-- A row that a unique index refuses another of: in `conflict`, and no transaction is changing it. -/
def Duplicate (s : State Q K R E I A) (i : Nat) (tx : Tx K R E) (conflict : R → Bool) : Prop :=
  ∃ k r, tx.view k (s.rows k) = some r ∧ conflict r = true ∧ ¬s.Locked i k

/-- The transactions session `i` has committed, newest first. -/
def past (s : State Q K R E I A) (i : Nat) : List (Tx K R E) :=
  (s.log.filter (·.session == i)).map (·.tx)

end State

variable {Q K R E I A : Type} [DecidableEq K]

open State in
/-- One step of the system, `serve` being the handler of each request. -/
inductive Step (serve : Q → Prog K R E I A) : State Q K R E I A → State Q K R E I A → Prop
  | tick {s} (t : Time) (later : s.now ≤ t) : Step serve s { s with now := t }
  | arrive {s} (i : Nat) (q : Q) (new : s.sessions i = none) :
      Step serve s (s.put i ⟨q, .running (serve q), none⟩)
  | start {s i q next} (here : s.At i q (.start next) none) :
      Step serve s (s.put i ⟨q, .running (next s.now), some (.empty s.now)⟩)
  | clock {s i q next tx} (here : s.At i q (.clock next) tx) :
      Step serve s (s.put i ⟨q, .running (next s.now), tx⟩)
  | ask {s i q next tx} (a : I) (here : s.At i q (.ask next) tx) :
      Step serve s (s.put i ⟨q, .running (next a), tx⟩)
  | scan {s i q next tx} (snapshot : List (K × R)) (here : s.At i q (.scan next) (some tx))
      (seen : s.Snapshot tx snapshot) :
      Step serve s (s.put i ⟨q, .running (next snapshot), some tx⟩)
  | miss {s i q skip k f next tx} (here : s.At i q (.access skip k f next) (some tx))
      (free : ¬s.Locked i k) (no : f (tx.view k (s.rows k)) = none) :
      Step serve s (s.put i ⟨q, .running (next none), some tx⟩)
  | hit {s i q skip k f next tx new} (here : s.At i q (.access skip k f next) (some tx))
      (free : ¬s.Locked i k) (yes : f (tx.view k (s.rows k)) = some new) :
      Step serve s { s.put i ⟨q, .running (next (some new)), some (tx.write k (s.rows k) new)⟩ with
        used := fun k' => s.used k' ∨ k' = k }
  | skip {s i q k f next tx} (here : s.At i q (.access true k f next) (some tx)) (held : s.Locked i k) :
      Step serve s (s.put i ⟨q, .running (next none), some tx⟩)
  | insert {s i q row conflict next tx r} (k : K) (here : s.At i q (.insert row conflict next) (some tx))
      (keyed : row k = some r) (new : ¬s.used k) (free : s.NoConflict i tx conflict) :
      Step serve s { s.put i ⟨q, .running (next (some k)), some (tx.create k r)⟩ with
        used := fun k' => s.used k' ∨ k' = k }
  | duplicate {s i q row conflict next tx} (here : s.At i q (.insert row conflict next) (some tx))
      (held : s.Duplicate i tx conflict) :
      Step serve s (s.put i ⟨q, .running (next none), some tx⟩)
  | emit {s i q events next tx} (here : s.At i q (.emit events next) (some tx)) :
      Step serve s (s.put i ⟨q, .running next, some (tx.emit events)⟩)
  | commit {s i q next tx} (here : s.At i q (.commit next) (some tx)) :
      Step serve s { s.put i ⟨q, .running next, none⟩ with
        rows := tx.apply s.rows, log := ⟨i, q, tx⟩ :: s.log }
  | rollback {s i q next tx} (here : s.At i q (.rollback next) (some tx)) :
      Step serve s (s.put i ⟨q, .running next, none⟩)
  | answer {s i q a tx} (here : s.At i q (.answer a) tx) : Step serve s (s.put i ⟨q, .answered a, none⟩)
  | crash {s i q prog tx} (here : s.At i q prog tx) : Step serve s (s.put i ⟨q, .crashed, none⟩)

/-- The states of the runs that start from `rows`, every key of which is in use. -/
def Reachable (serve : Q → Prog K R E I A) (rows : K → Option R) (s : State Q K R E I A) : Prop :=
  ∃ now used, (∀ k, rows k ≠ none → used k) ∧ Relation.ReflTransGen (Step serve) (.initial now rows used) s

end Postgres
