import DatrixOps.Postgres.Atomic

/-! Applying the migration files when a process starts, command by command for any number of processes at once. What
    a file does to the schema and to the other tables is what the server makes of its text, statement by statement. -/

namespace DatrixOps
namespace Database
open Postgres

/-- What a row is found by: the table `schema_migrations` itself by its name, its rows by the version, and whatever
    else there is, a table's definition or a row of one, by a number of its own. -/
inductive Key where
  | table
  | version (name : String)
  | object (n : Nat)
  deriving DecidableEq

/-- The table `schema_migrations`, one of its rows, or another object of the database. -/
inductive Row (O : Type) where
  | table
  | record (checksum : String)
  | object (o : O)
  deriving DecidableEq

def Row.object? {O : Type} : Row O → Option O
  | .object o => some o
  | _ => none

/-- What a process gets from AutoMigrate: nothing, or an error with this context. -/
inductive Result where
  | done
  | failed (context : String)
  deriving DecidableEq

/-- The commands a file comes to. There are none that end the transaction, and none on `schema_migrations`. -/
inductive Script (O : Type) where
  | done
  | fail
  | ask (next : Bool → Script O)
  | scan (next : List (Key × Row O) → Script O)
  | access (n : Nat) (f : Option O → Option (Option O)) (next : Option (Option O) → Script O)
  | insert (object : Nat → Option O) (conflict : O → Bool) (next : Option Nat → Script O)

abbrev Handler (O : Type) := Prog Key (Row O) Empty Bool Result

variable {O : Type}

/-- The commands of a script, going on with `done` or with `fail`. -/
def Script.run (done fail : Handler O) : Script O → Handler O
  | .done => done
  | .fail => fail
  | .ask next => .ask fun a => (next a).run done fail
  | .scan next => .scan fun snapshot => (next snapshot).run done fail
  | .access n f next => .access false (.object n) (fun old => (f (old.bind Row.object?)).map fun new =>
        new.map .object) fun left =>
      (next (left.map fun new => new.bind Row.object?)).run done fail
  | .insert object conflict next => .insert (fun
      | .object n => (object n).map .object
      | _ => none) (fun r => r.object?.any conflict) fun
      | some (.object n) => (next (some n)).run done fail
      | _ => (next none).run done fail

/-- The hash of a file and what the server makes of its text. -/
structure Server (O : Type) where
  sha256Hex : List UInt8 → String
  script : List UInt8 → Script O

/-- An entry of the directory `migrations`; the content is missing where it cannot be read. -/
structure Entry where
  name : String
  isDir : Bool
  content : Option (List UInt8)
  deriving DecidableEq

/-- What `os.ReadDir` returns, sorted by name. -/
structure Directory where
  entries : List Entry
  sorted : entries.Pairwise fun a b => a.name < b.name
  deriving DecidableEq

def isMigrationFile (name : String) : Bool := !(['.'].isPrefixOf name.toList) && ".sql".toList.isSuffixOf name.toList

/-- `CREATE TABLE IF NOT EXISTS schema_migrations`. Of two processes that create it at once the second fails. -/
def createTable (next : Handler O) : Handler O :=
  .start fun _ => .scan fun snapshot =>
    if snapshot.any fun kr => kr.1 = .table then .commit next
    else .access false .table (fun old => if old.isNone then some (some .table) else none) fun
      | some _ => .commit next
      | none => .rollback (.answer (.failed "create schema_migrations"))

/-- `SELECT checksum FROM schema_migrations WHERE version = $1` -/
def selectChecksum (name : String) (snapshot : List (Key × Row O)) : Option String :=
  snapshot.findSome? fun
    | (.version v, .record checksum) => if v = name then some checksum else none
    | _ => none

def recordedChecksum (name : String) (next : Option String → Handler O) : Handler O :=
  Prog.select (fun _ snapshot => selectChecksum name snapshot) next

/-- One file, in a transaction with its record: `INSERT INTO schema_migrations (version, checksum)`, which waits for
    another transaction that inserts the same version. -/
def applyMigration (server : Server O) (name : String) (content : List UInt8) (next : Handler O) : Handler O :=
  .start fun _ => (server.script content).run
    (.access false (.version name) (fun old => if old.isNone then some (some (.record (server.sha256Hex content)))
      else none) fun
      | some _ => .commit next
      | none => .rollback (.answer (.failed ("record migration " ++ name))))
    (.rollback (.answer (.failed ("execute migration " ++ name))))

def applyMigrations (server : Server O) : List Entry → Handler O
  | [] => .answer .done
  | file :: files =>
    if file.isDir || !isMigrationFile file.name then applyMigrations server files
    else match file.content with
      | none => .answer (.failed ("read migration " ++ file.name))
      | some content => recordedChecksum file.name fun
        | some recorded =>
          if recorded ≠ server.sha256Hex content then
            .answer (.failed ("migration " ++ file.name ++ " checksum changed after it was applied"))
          else applyMigrations server files
        | none => applyMigration server file.name content (applyMigrations server files)

/-- AutoMigrate, with what it finds as the directory `migrations`. -/
def autoMigrate (server : Server O) (dir : Option Directory) : Handler O :=
  createTable <| match dir with
    | none => .answer .done
    | some dir => applyMigrations server dir.entries

end Database
end DatrixOps
