import DatrixOps.Database.AutoMigrate
import DatrixOps.Postgres.Schedule

/-! Migrations under any interleaving of processes and any crash. A commit is empty, creates the bookkeeping table, or
    is one whole file with its record; the record's key keeps a second process from committing the file again. -/

namespace DatrixOps
namespace Migrations
open Postgres Prog Database

variable {O : Type}

/-- `tx'` is what a whole run of the script may make of the transaction `tx`. -/
inductive Ran : Script O → Tx Key (Database.Row O) Empty → Tx Key (Database.Row O) Empty → Prop
  | done {tx} : Ran .done tx tx
  | ask {next tx tx'} (a : Bool) (rest : Ran (next a) tx tx') : Ran (.ask next) tx tx'
  | scan {next tx tx'} (snapshot : List (Key × Database.Row O)) (rest : Ran (next snapshot) tx tx') :
    Ran (.scan next) tx tx'
  | miss {n f next tx tx'} (rest : Ran (next none) tx tx') : Ran (.access n f next) tx tx'
  | hit {n f next tx tx'} (base : Option (Database.Row O)) (new : Option O)
      (yes : f ((tx.view (.object n) base).bind Database.Row.object?) = some new)
      (rest : Ran (next (some new)) (tx.write (.object n) base (new.map .object)) tx') : Ran (.access n f next) tx tx'
  | duplicate {object conflict next tx tx'} (rest : Ran (next none) tx tx') : Ran (.insert object conflict next) tx tx'
  | insert {object conflict next tx tx'} (n : Nat) (o : O) (made : object n = some o)
      (rest : Ran (next (some n)) (tx.create (.object n) (.object o)) tx') : Ran (.insert object conflict next) tx tx'

/-- The commits of the processes that migrate, newest first. -/
abbrev Log (O : Type) := List (Commit (Option Directory) Key (Database.Row O) Empty)

/-- The transaction is a whole run of the file and its record. -/
def AppliesIn (server : Database.Server O) (tx : Tx Key (Database.Row O) Empty) (file : Database.Entry) : Prop :=
  file.isDir = false ∧ isMigrationFile file.name = true ∧ ∃ content, file.content = some content ∧
    ∃ tx₁, Ran (server.script content) (.empty tx.start) tx₁ ∧
      tx = tx₁.write (.version file.name) none (some (.record (server.sha256Hex content)))

/-- The transaction changes nothing, or creates `schema_migrations`. -/
def Preparing (tx : Tx Key (Database.Row O) Empty) : Prop :=
  ∀ k c, tx.changes k = some c → k = .table ∧ c = ⟨none, some .table, false⟩

/-- The commit is a whole run of the file and its record. -/
def Applies (server : Database.Server O) (e : Commit (Option Directory) Key (Database.Row O) Empty)
    (file : Database.Entry) : Prop :=
  AppliesIn server e.tx file

/-- The commit changes nothing. -/
def Idle (e : Commit (Option Directory) Key (Database.Row O) Empty) : Prop := ∀ k, e.tx.changes k = none

/-- The rows of a kind are under the keys of that kind; every commit prepares or applies one file of the directory,
    later than those its process has applied. -/
def migration (server : Database.Server O) : Spec (Option Directory) Key (Database.Row O) Empty Result where
  row k r := match k, r with
    | .table, .table => True
    | .version _, .record _ => True
    | .object _, .object _ => True
    | _, _ => False
  commit dir past tx := Preparing tx ∨ ∃ d file, dir = some d ∧ file ∈ d.entries ∧ AppliesIn server tx file ∧
    ∀ tx' ∈ past, ∀ name c, tx'.changes (.version name) = some c → name < file.name
  answer _ _ _ := True

/-! ### Scripts -/

variable {server : Database.Server O} {dir : Option Directory} {past : List (Tx Key (Database.Row O) Empty)}
  {tx tx' : Tx Key (Database.Row O) Empty}

/-- The changes of a transaction that has only run a script. -/
def Objects (tx : Tx Key (Database.Row O) Empty) : Prop := ∀ k c, tx.changes k = some c → ∃ n, k = .object n

theorem Ran.objects {script : Script O} (h : Ran script tx tx') (ho : Objects tx) :
    Objects tx' ∧ tx'.start = tx.start := by
  induction h with
  | done => exact ⟨ho, rfl⟩
  | ask _ _ ih => exact ih ho
  | scan _ _ ih => exact ih ho
  | miss _ ih => exact ih ho
  | hit _ _ _ _ ih =>
    refine ih fun k c hc => ?_
    by_contra other
    rw [Tx.changes_write_of_ne fun h => other ⟨_, h⟩] at hc
    exact other (ho k c hc)
  | duplicate _ ih => exact ih ho
  | insert _ _ _ _ ih =>
    refine ih fun k c hc => ?_
    by_contra other
    rw [Tx.changes_create_of_ne fun h => other ⟨_, h⟩] at hc
    exact other (ho k c hc)

theorem safe_run {done fail : Database.Handler O} (failed : ∀ tx, fail.Safe (migration server) dir past (some tx))
    (script : Script O) :
    ∀ tx, (∀ tx', Ran script tx tx' → done.Safe (migration server) dir past (some tx')) →
      (script.run done fail).Safe (migration server) dir past (some tx) := by
  induction script with
  | done => exact fun tx h => h tx .done
  | fail => exact fun tx _ => failed tx
  | ask next ih => exact fun tx h a => ih a tx fun tx' ran => h tx' (.ask a ran)
  | scan next ih => exact fun tx h snapshot _ _ => ih snapshot tx fun tx' ran => h tx' (.scan snapshot ran)
  | access n f next ih =>
    intro tx h
    have missed := ih none tx fun tx' ran => h tx' (.miss ran)
    refine ⟨fun hs => (by cases hs), fun base valid => ⟨fun _ => missed, fun new yes => ?_⟩⟩
    obtain ⟨left, met, rfl⟩ := Option.map_eq_some_iff.mp yes
    refine ⟨fun r hr => ?_, ?_⟩
    · obtain ⟨o, -, rfl⟩ := Option.map_eq_some_iff.mp hr
      trivial
    · have same : (left.map Database.Row.object).bind Database.Row.object? = left := by cases left <;> rfl
      simp only [Option.map_some, same]
      exact ih (some left) _ fun tx' ran => h tx' (.hit base left met ran)
  | insert object conflict next ih =>
    intro tx h
    rw [Script.run]
    refine ⟨ih none tx fun tx' ran => h tx' (.duplicate ran), fun k r hr _ => ?_⟩
    cases k with
    | object n =>
      obtain ⟨o, made, rfl⟩ := Option.map_eq_some_iff.mp hr
      exact ⟨trivial, ih (some n) _ fun tx' ran => h tx' (.insert n o made ran)⟩
    | _ => cases hr

/-! ### What a process commits -/

theorem preparing_empty {t : Time} : Preparing (.empty t : Tx Key (Database.Row O) Empty) := fun _ _ h => by cases h

theorem safe_createTable {next : Database.Handler O}
    (hn : ∀ tx, Preparing tx → next.Safe (migration server) dir (tx :: past) none) :
    (createTable next).Safe (migration server) dir past none := by
  intro now snapshot _ _
  dsimp only
  split
  · exact ⟨Or.inl preparing_empty, hn _ preparing_empty⟩
  · refine ⟨fun h => (by cases h), fun base _ => ⟨fun _ => trivial, fun new yes => ?_⟩⟩
    simp only [Tx.view_of_unchanged Tx.changes_empty] at yes
    split at yes
    · rename_i absent
      obtain rfl := Option.some.inj yes
      have preparing : Preparing ((Tx.empty now : Tx Key (Database.Row O) Empty).write .table base (some .table)) := by
        intro k c hc
        rcases eq_or_ne k .table with rfl | hk
        · rw [Tx.changes_write] at hc
          exact ⟨rfl, by rw [← Option.some.inj hc, Option.isNone_iff_eq_none.mp absent]; rfl⟩
        · rw [Tx.changes_write_of_ne hk] at hc
          cases hc
      exact ⟨fun r hr => Option.some.inj hr ▸ trivial, Or.inl preparing, hn _ preparing⟩
    · cases yes

theorem AppliesIn.version (h : AppliesIn server tx file) {name : String} {c : Change (Database.Row O)}
    (hc : tx.changes (.version name) = some c) :
      name = file.name ∧ c.base = none ∧ ∃ content, file.content = some content ∧
      c.new = some (.record (server.sha256Hex content)) := by
  obtain ⟨-, -, content, hcontent, tx₁, ran, htx⟩ := h
  have objects := (ran.objects fun _ _ h => by cases h).1
  have untouched : ∀ name, tx₁.changes (.version name) = none := fun name =>
    Option.eq_none_iff_forall_ne_some.mpr fun c hc => by
      obtain ⟨n, hn⟩ := objects _ c hc
      cases hn
  rw [htx] at hc
  rcases eq_or_ne name file.name with rfl | hne
  · rw [Tx.changes_write, untouched] at hc
    obtain rfl := Option.some.inj hc
    exact ⟨rfl, rfl, content, hcontent, rfl⟩
  · rw [Tx.changes_write_of_ne fun h => hne (Key.version.inj h), untouched] at hc
    cases hc

theorem safe_applyMigrations {d : Directory} :
    ∀ (files : List Database.Entry) (past : List (Tx Key (Database.Row O) Empty)),
    (∀ file ∈ files, file ∈ d.entries) → files.Pairwise (fun a b => a.name < b.name) →
    (∀ tx ∈ past, ∀ name c, tx.changes (.version name) = some c → ∀ file ∈ files, name < file.name) →
      (applyMigrations server files).Safe (migration server) (some d) past none
  | [], _, _, _, _ => trivial
  | file :: files, past, listed, sorted, before => by
    obtain ⟨first, sorted⟩ := List.pairwise_cons.mp sorted
    have listed' : ∀ file ∈ files, file ∈ d.entries := fun f hf => listed f (List.mem_cons_of_mem _ hf)
    have rest : ∀ {tx}, (∀ name c, tx.changes (.version name) = some c → name = file.name) →
        ∀ tx' ∈ tx :: past, ∀ name c, tx'.changes (.version name) = some c → ∀ f ∈ files, name < f.name := by
      intro tx own tx' htx' name c hc f hf
      rcases List.mem_cons.mp htx' with rfl | htx'
      · exact own name c hc ▸ first f hf
      · exact before tx' htx' name c hc f (List.mem_cons_of_mem _ hf)
    unfold applyMigrations
    split
    · exact safe_applyMigrations files past listed' sorted fun tx htx name c hc f hf =>
        before tx htx name c hc f (List.mem_cons_of_mem _ hf)
    · rename_i kind
      cases content : file.content with
      | none => exact trivial
      | some bytes =>
        intro now snapshot _ _
        refine ⟨Or.inl preparing_empty, ?_⟩
        have quiet := @rest (.empty now) fun _ _ h => by cases h
        dsimp only
        split
        · split
          · exact trivial
          · exact safe_applyMigrations files _ listed' sorted quiet
        · intro now'
          refine safe_run ?_ _ _ fun tx₁ ran => ?_
          · exact fun _ => trivial
          have objects := ran.objects fun _ _ h => by cases h
          have untouched : tx₁.changes (.version file.name) = none :=
              Option.eq_none_iff_forall_ne_some.mpr fun c hc => by
            obtain ⟨n, hn⟩ := objects.1 _ c hc
            cases hn
          refine ⟨fun h => (by cases h), fun base _ => ⟨fun _ => trivial, fun new yes => ?_⟩⟩
          rw [Tx.view_of_unchanged untouched] at yes
          dsimp only at yes
          split at yes
          · rename_i absent
            obtain rfl := Option.some.inj yes
            obtain rfl := Option.isNone_iff_eq_none.mp absent
            have kinds : file.isDir = false ∧ isMigrationFile file.name = true := by simpa using kind
            have applies : AppliesIn server
                (tx₁.write (.version file.name) none (some (.record (server.sha256Hex bytes)))) file :=
              ⟨kinds.1, kinds.2, bytes, content, tx₁, by rw [Tx.start_write, objects.2]; exact ran, rfl⟩
            refine ⟨fun r hr => Option.some.inj hr ▸ trivial,
              Or.inr ⟨d, file, rfl, listed file (List.mem_cons_self ..), applies,
              fun tx htx name c hc => ?_⟩, safe_applyMigrations files _ listed' sorted ?_⟩
            · rcases List.mem_cons.mp htx with rfl | htx
              · cases hc
              · exact before tx htx name c hc file (List.mem_cons_self ..)
            · intro tx htx name c hc f hf
              rcases List.mem_cons.mp htx with rfl | htx
              · exact (applies.version hc).1 ▸ first f hf
              · exact quiet tx htx name c hc f hf
          · cases yes

theorem migrates (dir : Option Directory) : (autoMigrate server dir).Safe (migration server) dir [] none := by
  refine safe_createTable fun tx preparing => ?_
  cases dir with
  | none => exact trivial
  | some d =>
    refine safe_applyMigrations d.entries _ (fun _ h => h) d.sorted fun tx' htx' name c hc => ?_
    obtain rfl := List.mem_singleton.mp htx'
    cases (preparing _ c hc).1

/-! ### The history -/

section
variable {rows₀ rows : Key → Option (Database.Row O)} {log : Log O} {e e' : Commit (Option Directory) Key
  (Database.Row O) Empty}
  {file file' : Database.Entry} {k : Key}

/-- The keys of the bookkeeping. -/
def Booked : Key → Prop
  | .object _ => False
  | _ => True

/-- What is booked is not changed again. -/
theorem base_none (ok : (migration server).commit dir past tx) (booked : Booked k) {c : Change (Database.Row O)}
    (hc : tx.changes k = some c) : c.base = none := by
  rcases ok with preparing | ⟨d, file, -, -, applies, -⟩
  · rw [(preparing k c hc).2]
  · cases k with
    | version name => exact (applies.version hc).2.1
    | object n => exact booked.elim
    | table =>
      obtain ⟨-, -, content, -, tx₁, ran, htx⟩ := applies
      rw [htx, Tx.changes_write_of_ne (by simp)] at hc
      obtain ⟨n, hn⟩ := (ran.objects fun _ _ h => by cases h).1 _ c hc
      cases hn

theorem kept_commit (ok : (migration server).commit dir past tx) (base : ∀ k c, tx.changes k = some c → c.base = rows k)
    (booked : Booked k) {r : Database.Row O} (hr : rows k = some r) : tx.changes k = none := by
  refine Option.eq_none_iff_forall_ne_some.mpr fun c hc => ?_
  rw [(base k c hc).symm.trans (base_none ok booked hc)] at hr
  cases hr

theorem AppliesIn.recorded (h : AppliesIn server tx file) : ∃ content, file.content = some content ∧
    ∃ c, tx.changes (.version file.name) = some c ∧ c.new = some (.record (server.sha256Hex content)) := by
  obtain ⟨-, -, content, hcontent, tx₁, -, htx⟩ := id h
  have changed : tx.changes (.version file.name) ≠ none := by
    rw [htx, Tx.changes_write]
    exact Option.some_ne_none _
  obtain ⟨c, hc⟩ := Option.ne_none_iff_exists'.mp changed
  obtain ⟨-, -, content', hcontent', hn⟩ := h.version hc
  exact ⟨content', hcontent', c, hc, hn⟩

/-- A record is there when it was at the start or its file has been applied. -/
theorem recorded_iff (h : Serial (migration server) rows₀ log rows) {name : String} :
    rows (.version name) ≠ none ↔ rows₀ (.version name) ≠ none ∨ ∃ e ∈ log, ∃ file, Applies server e file ∧
      file.name = name := by
  induction h with
  | nil => simp
  | @cons log rows e earlier ok base fresh ih =>
    constructor
    · intro there
      by_cases before : rows (.version name) = none
      · obtain ⟨c, hc⟩ : ∃ c, e.tx.changes (.version name) = some c := by
          refine Option.ne_none_iff_exists'.mp fun unchanged => there ?_
          rw [Tx.apply, Tx.view_of_unchanged unchanged, before]
        rcases ok with preparing | ⟨d, file, -, -, applies, -⟩
        · cases (preparing _ c hc).1
        · exact Or.inr ⟨e, List.mem_cons_self .., file, applies, (applies.version hc).1.symm⟩
      · rcases ih.mp before with first | ⟨e', he', applied⟩
        · exact Or.inl first
        · exact Or.inr ⟨e', List.mem_cons_of_mem _ he', applied⟩
    · intro h
      have old : rows (.version name) ≠ none → e.tx.apply rows (.version name) ≠ none := fun there => by
        obtain ⟨r, hr⟩ := Option.ne_none_iff_exists'.mp there
        rw [Tx.apply, Tx.view_of_unchanged (kept_commit ok base (k := .version name) trivial hr)]
        exact there
      rcases h with first | ⟨e', he', file, applies, rfl⟩
      · exact old (ih.mpr (Or.inl first))
      · rcases List.mem_cons.mp he' with rfl | he'
        · obtain ⟨content, -, c, hc, hn⟩ := AppliesIn.recorded applies
          rw [Tx.apply, Tx.view_of_changes hc, hn]
          exact Option.some_ne_none _
        · exact old (ih.mpr (Or.inr ⟨e', he', file, applies, rfl⟩))

/-- A file is applied where it is not recorded. -/
theorem unrecorded_of_applies (base : ∀ k c, e.tx.changes k = some c → c.base = rows k) (h : Applies server e file) :
    rows (.version file.name) = none := by
  obtain ⟨content, -, c, hc, -⟩ := AppliesIn.recorded h
  exact (base _ c hc).symm.trans (AppliesIn.version h hc).2.1

theorem applied_once (h : Serial (migration server) rows₀ log rows) :
    log.Pairwise fun e e' => ∀ file file', Applies server e file → Applies server e' file' →
      file.name ≠ file'.name := by
  induction h with
  | nil => exact .nil
  | @cons log rows e earlier ok base fresh ih =>
    refine List.pairwise_cons.mpr ⟨fun e' he' file file' applies applies' same => ?_, ih⟩
    exact (recorded_iff earlier).mpr (Or.inr ⟨e', he', file', applies', rfl⟩)
      (same ▸ unrecorded_of_applies base applies)

theorem applied_in_order (h : Serial (migration server) rows₀ log rows) : log.Pairwise fun e e' =>
    e'.session = e.session → ∀ file file', Applies server e file → Applies server e' file' →
      file'.name < file.name := by
  induction h with
  | nil => exact .nil
  | @cons log rows e earlier ok base fresh ih =>
    refine List.pairwise_cons.mpr ⟨fun e' he' same file file' applies applies' => ?_, ih⟩
    obtain ⟨-, -, c, hc, -⟩ := AppliesIn.recorded applies
    obtain ⟨-, -, c', hc', -⟩ := AppliesIn.recorded applies'
    rcases ok with preparing | ⟨d, f, -, -, applies₁, before⟩
    · cases (preparing _ c hc).1
    · rw [(applies₁.version hc).1]
      exact before e'.tx (List.mem_map.mpr ⟨e', List.mem_filter.mpr ⟨he', by simp [same]⟩, rfl⟩) _ c' hc'

end

/-! ### A run that has succeeded -/

section
variable {rows rows' : Key → Option (Database.Row O)} {w w' : World (Option Directory) Key (Database.Row O) Empty}
  {e : Commit (Option Directory) Key (Database.Row O) Empty} {i j : Nat} {q : Option Directory} {d : Directory}

/-- The file is one that AutoMigrate passes over, or it is recorded with the checksum of what it holds. -/
def FileRecorded (server : Database.Server O) (rows : Key → Option (Database.Row O)) (file : Database.Entry) : Prop :=
  (file.isDir || !isMigrationFile file.name) = true ∨
    ∃ content, file.content = some content ∧ rows (.version file.name) = some (.record (server.sha256Hex content))

/-- `schema_migrations` is there and all files of the directory are recorded. -/
def Recorded (server : Database.Server O) (dir : Option Directory) (rows : Key → Option (Database.Row O)) : Prop :=
  rows .table = some .table ∧ ∀ d, dir = some d → ∀ file ∈ d.entries, FileRecorded server rows file

/-- What is booked before is booked after. -/
def Grows (rows rows' : Key → Option (Database.Row O)) : Prop := ∀ k r, Booked k → rows k = some r → rows' k = some r

theorem FileRecorded.grows {file : Database.Entry} (h : FileRecorded server rows file) (grows : Grows rows rows') :
    FileRecorded server rows' file :=
  h.imp id fun ⟨content, hc, hr⟩ => ⟨content, hc, grows _ _ trivial hr⟩

theorem Recorded.grows (h : Recorded server dir rows) (grows : Grows rows rows') : Recorded server dir rows' :=
  ⟨grows _ _ trivial h.1, fun d hd file hf => (h.2 d hd file hf).grows grows⟩

theorem grows_commit (ok : (migration server).commit q past e.tx)
    (base : ∀ k c, e.tx.changes k = some c → c.base = w.rows k) :
    Grows w.rows (w.commit e).rows := fun _ _ booked hr => by
  rwa [World.rows_commit_of_unchanged (kept_commit ok base booked hr)]

/-- AutoMigrate returns no error only once everything is recorded. -/
def success (server : Database.Server O) : Contract (Option Directory) Key (Database.Row O) Empty Bool Result where
  spec := migration server
  inv _ := True
  admits _ _ := True
  rely _ _ _ := True
  reply _ _ := True
  answer _ dir a w := a = .done → Recorded server dir w.rows

theorem success_moves {tx : Option (Tx Key (Database.Row O) Empty)} (move : (success server).Moves i tx w w') :
    Grows w.rows w'.rows := by
  cases move with
  | commit e other apart base ok => exact grows_commit ok base

/-- What grows along with the bookkeeping holds always. -/
theorem success_always {tx : Option (Tx Key (Database.Row O) Empty)} {J : (Key → Option (Database.Row O)) → Prop}
    {φ : World (Option Directory) Key (Database.Row O) Empty → Prop} (good : (success server).Good w) (h : J w.rows)
    (grows : ∀ {rows rows'}, J rows → Grows rows rows' → J rows')
    (out : ∀ w, (success server).Good w → J w.rows → φ w) : (success server).Always i tx φ w :=
  Contract.always (J := fun w => J w.rows) good h (fun _ _ _ h move => grows h (success_moves move)) out

theorem holds_failed {context : String} {tx : Option (Tx Key (Database.Row O) Empty)} :
    (Prog.answer (.failed context) : Database.Handler O).Holds (success server) i q tx w := fun _ _ _ _ h => nomatch h

theorem holds_createTable {next : Database.Handler O} (good : (success server).Good w)
    (hn : ∀ w, (success server).Good w → w.rows .table = some .table → next.Holds (success server) i q none w) :
    (createTable next).Holds (success server) i q none w := by
  refine success_always (J := fun _ => True) good trivial (fun _ _ => trivial) fun w good _ now => ?_
  refine success_always (J := fun _ => True) good trivial (fun _ _ => trivial) fun w good _ snapshot seen _ => ?_
  have kind : ∀ {w : World (Option Directory) Key (Database.Row O) Empty}, (success server).Good w →
    w.rows .table ≠ none →
      w.rows .table = some .table := fun {w} good there => by
    obtain ⟨r, hr⟩ := Option.ne_none_iff_exists'.mp there
    have valid := good.1 .table r hr
    cases r with
    | table => exact hr
    | _ => exact valid.elim
  dsimp only
  split
  · rename_i found
    obtain ⟨⟨k, r⟩, hmem, hk⟩ := List.any_eq_true.mp found
    obtain rfl : k = .table := of_decide_eq_true hk
    have there : w.rows .table ≠ none := by
      have hr := (seen.2 _ _).mp hmem
      rw [Tx.view_of_unchanged Tx.changes_empty] at hr
      exact hr ▸ Option.some_ne_none _
    refine success_always (J := fun rows => rows .table = some .table) good (kind good there) (fun h grows =>
      grows _ _ trivial h)
      fun w good h _ _ valid _ => ⟨trivial, hn _ ⟨valid, trivial⟩ ?_⟩
    rwa [World.rows_commit_of_unchanged Tx.changes_empty]
  · refine success_always (J := fun _ => True) good trivial (fun _ _ => trivial) fun w good _ =>
      ⟨fun h => (by cases h), fun _ => ⟨fun _ _ _ => holds_failed, fun new yes => ?_⟩⟩
    dsimp only at yes
    split at yes
    · obtain rfl := Option.some.inj yes
      refine success_always (J := fun _ => True) ⟨good.1, trivial⟩ trivial (fun _ _ => trivial)
          fun w' good' _ _ _ valid _ =>
        ⟨trivial, hn _ ⟨valid, trivial⟩ (kind ⟨valid, trivial⟩ ?_)⟩
      rw [World.rows_commit_of_changes Tx.changes_write]
      exact Option.some_ne_none _
    · cases yes

theorem holds_run {J : (Key → Option (Database.Row O)) → Prop} {done fail : Database.Handler O}
    (grows : ∀ {rows rows'}, J rows → Grows rows rows' → J rows')
    (failed : ∀ tx w, (success server).Good w → fail.Holds (success server) i q (some tx) w)
    (done_ : ∀ tx w, (success server).Good w → J w.rows → done.Holds (success server) i q (some tx) w)
    (script : Script O) :
    ∀ tx w, (success server).Good w → J w.rows → (script.run done fail).Holds (success server) i q (some tx) w := by
  induction script with
  | done => exact done_
  | fail => exact fun tx w good _ => failed tx w good
  | ask next ih => exact fun tx w good h => success_always good h grows fun w good h a _ => ih a tx w good h
  | scan next ih =>
    exact fun tx w good h => success_always good h grows fun w good h snapshot _ _ =>
      ih snapshot tx w good h
  | access n f next ih =>
    refine fun tx w good h => success_always good h grows fun w good h =>
      ⟨fun hs => (by cases hs), fun _ => ⟨fun _ => ih _ tx w good h, fun new _ => ?_⟩⟩
    exact ih _ _ w good h
  | insert object conflict next ih =>
    intro tx w good h
    rw [Script.run]
    refine success_always good h grows fun w good h => ⟨ih none tx w good h, fun k r hr _ _ _ => ?_⟩
    cases k with
    | object n => exact ih (some n) _ w good h
    | _ => cases hr

/-- What the lookup of a version returns is what is recorded under it. -/
theorem lookup_eq {name : String} {snapshot : List (Key × Database.Row O)} {t : Time}
    (seen : w.Snapshot (.empty t) snapshot)
    {checksum : String} :
    selectChecksum name snapshot = some checksum ↔ w.rows (.version name) = some (.record checksum) := by
  have mem : ∀ {k r}, (k, r) ∈ snapshot ↔ w.rows k = some r := fun {k r} => by
    rw [seen.2 k r, Tx.view_of_unchanged Tx.changes_empty]
  have of_some : ∀ {checksum}, selectChecksum name snapshot = some checksum →
      w.rows (.version name) = some (.record checksum) := by
    intro checksum found
    obtain ⟨⟨k, r⟩, hmem, hkr⟩ := List.exists_of_findSome?_eq_some found
    split at hkr
    · rename_i v recorded heq
      obtain ⟨rfl, rfl⟩ := Prod.mk.inj heq
      split at hkr
      · rename_i same
        obtain rfl := Option.some.inj hkr
        exact same ▸ mem.mp hmem
      · cases hkr
    · cases hkr
  refine ⟨of_some, fun hr => ?_⟩
  cases found : selectChecksum name snapshot with
  | some recorded => rw [of_some found] at hr; rw [Database.Row.record.inj (Option.some.inj hr)]
  | none =>
    have none_ := List.findSome?_eq_none_iff.mp found _ (mem.mpr hr)
    simp at none_

theorem holds_applyMigrations :
    ∀ (files pre : List Database.Entry) (w : World (Option Directory) Key (Database.Row O) Empty),
    d.entries = pre ++ files → (success server).Good w → w.rows .table = some .table →
    (∀ file ∈ pre, FileRecorded server w.rows file) →
    (applyMigrations server files).Holds (success server) i (some d) none w
  | [], pre, w, all, good, table, recorded => by
    rw [List.append_nil] at all
    have whole : Recorded server (some d) w.rows := ⟨table, fun d' hd => by
      obtain rfl := Option.some.inj hd
      exact all ▸ recorded⟩
    refine success_always good whole Recorded.grows fun w good whole => ?_
    exact success_always good whole Recorded.grows fun w _ whole _ => whole
  | file :: files, pre, w, all, good, table, recorded => by
    have all' : d.entries = (pre ++ [file]) ++ files := by rw [all, List.append_assoc]; rfl
    let J (rows : Key → Option (Database.Row O)) : Prop :=
      rows .table = some .table ∧ ∀ file ∈ pre, FileRecorded server rows file
    have grows : ∀ {rows rows'}, J rows → Grows rows rows' → J rows' := fun h grows =>
      ⟨grows _ _ trivial h.1, fun f hf => (h.2 f hf).grows grows⟩
    have go_on : ∀ w, (success server).Good w → J w.rows → FileRecorded server w.rows file →
        (applyMigrations server files).Holds (success server) i (some d) none w := fun w good h own =>
      holds_applyMigrations files (pre ++ [file]) w all' good h.1 fun f hf => by
        rcases List.mem_append.mp hf with hf | hf
        · exact h.2 f hf
        · exact List.mem_singleton.mp hf ▸ own
    unfold applyMigrations
    split
    · rename_i skipped
      exact go_on w good ⟨table, recorded⟩ (Or.inl skipped)
    · cases content : file.content with
      | none => exact holds_failed
      | some bytes =>
        refine success_always (J := J) good ⟨table, recorded⟩ grows fun w good h now => ?_
        refine success_always (J := J) good h grows fun w good h snapshot seen _ => ?_
        cases found : selectChecksum file.name snapshot with
        | some sum =>
          have there : w.rows (.version file.name) = some (.record sum) := (lookup_eq seen).mp found
          refine success_always (J := fun rows => J rows ∧ rows (.version file.name) =
            some (.record sum)) good ⟨h, there⟩
            (fun h more => ⟨grows h.1 more, more _ _ trivial h.2⟩) fun w good h base ok valid _ => ⟨trivial, ?_⟩
          have more : Grows w.rows (w.commit ⟨i, some d, .empty now⟩).rows := grows_commit ok base
          dsimp only
          rw [found]
          dsimp only
          split
          · exact holds_failed
          · rename_i same
            refine go_on _ ⟨valid, trivial⟩ (grows h.1 more) (Or.inr ⟨bytes, content, ?_⟩)
            exact (not_not.mp same) ▸ more _ _ trivial h.2
        | none =>
          refine success_always (J := J) good h grows fun w good h base ok valid _ => ⟨trivial, ?_⟩
          dsimp only
          rw [found]
          refine success_always (J := J) ⟨valid, trivial⟩ (grows h (grows_commit ok base)) grows fun w good h now' => ?_
          refine holds_run grows (fun tx w good => ?_) (fun tx w good h => ?_) _ _ w good h
          · exact success_always (J := fun _ => True) good trivial (fun _ _ => trivial) fun _ _ _ => holds_failed
          · refine success_always (J := J) good h grows fun w good h =>
              ⟨fun hs => (by cases hs), fun _ => ⟨fun _ => ?_, fun new yes => ?_⟩⟩
            · exact success_always (J := fun _ => True) good trivial (fun _ _ => trivial) fun _ _ _ => holds_failed
            · dsimp only at yes
              split at yes
              · obtain rfl := Option.some.inj yes
                refine success_always (J := J) good h grows fun w' good' h' base ok valid _ =>
                  ⟨trivial, go_on _ ⟨valid, trivial⟩ (grows h' (grows_commit ok base)) (Or.inr ⟨bytes, content, ?_⟩)⟩
                rw [World.rows_commit_of_changes Tx.changes_write]
                split <;> rfl
              · cases yes

theorem holds_success (i : Nat) (dir : Option Directory) (w : World (Option Directory) Key (Database.Row O) Empty)
    (good : (success server).Good w) : (autoMigrate server dir).Holds (success server) i dir none w := by
  refine holds_createTable good fun w good table => ?_
  cases dir with
  | none =>
    have whole : Recorded server none w.rows := ⟨table, fun _ hd => nomatch hd⟩
    refine success_always good whole Recorded.grows fun w good whole => ?_
    exact success_always good whole Recorded.grows fun w _ whole _ => whole
  | some d => exact holds_applyMigrations d.entries [] w rfl good table fun _ hf => nomatch hf

/-! ### The next run -/

/-- Everything is recorded, and session `j` leaves it at that. -/
def rerun (server : Database.Server O) (j : Nat) (dir : Option Directory) :
    Contract (Option Directory) Key (Database.Row O) Empty Bool Result where
  spec := migration server
  inv w := Recorded server dir w.rows ∧ ∀ e ∈ w.log, e.session = j → e.request = dir → Idle e
  admits _ _ := True
  rely _ _ _ := True
  reply _ _ := True
  answer i q a _ := i = j → q = dir → a = .done

theorem rerun_always {tx : Option (Tx Key (Database.Row O) Empty)}
    {φ : World (Option Directory) Key (Database.Row O) Empty → Prop}
    (good : (rerun server j dir).Good w) (out : ∀ w, (rerun server j dir).Good w → φ w) :
    (rerun server j dir).Always i tx φ w :=
  Contract.always (J := fun _ => True) good trivial (fun _ _ _ _ _ => trivial) fun w good _ => out w good

theorem rerun_commit (good : (rerun server j dir).Good w) (ok : (migration server).commit q past e.tx)
    (base : ∀ k c, e.tx.changes k = some c → c.base = w.rows k) (idle : e.session = j → e.request = dir → Idle e) :
    (rerun server j dir).inv (w.commit e) := by
  refine ⟨good.2.1.grows (grows_commit ok base), fun e' he' => ?_⟩
  rcases List.mem_cons.mp he' with rfl | he'
  · exact idle
  · exact good.2.2 e' he'

/-- A statement by itself that changes nothing. -/
theorem holds_read {next : Database.Handler O} {t : Time} (good : (rerun server j dir).Good w)
    (hn : ∀ w, (rerun server j dir).Good w → next.Holds (rerun server j dir) j dir none w) :
    (Prog.commit next).Holds (rerun server j dir) j dir (some (.empty t)) w :=
  rerun_always good fun w good base ok valid _ => by
    have inv := rerun_commit (e := ⟨j, dir, .empty t⟩) good ok base fun _ _ _ => rfl
    exact ⟨inv, hn _ ⟨valid, inv⟩⟩

theorem holds_reapply : ∀ (files : List Database.Entry) (w : World (Option Directory) Key (Database.Row O) Empty),
    (∀ file ∈ files, file ∈ d.entries) → (rerun server j (some d)).Good w →
    (applyMigrations server files).Holds (rerun server j (some d)) j (some d) none w
  | [], _, _, good => rerun_always good fun _ good => rerun_always good fun _ _ _ _ => rfl
  | file :: files, w, listed, good => by
    have rest : ∀ w, (rerun server j (some d)).Good w → _ := fun w good =>
      holds_reapply files w (fun f hf => listed f (List.mem_cons_of_mem _ hf)) good
    unfold applyMigrations
    split
    · exact rest w good
    · rename_i kind
      have recorded : ∀ w, (rerun server j (some d)).Good w → ∃ content, file.content = some content ∧
          w.rows (.version file.name) = some (.record (server.sha256Hex content)) := fun w good =>
        (good.2.1.2 d rfl file (listed file (List.mem_cons_self ..))).resolve_left kind
      obtain ⟨content, hcontent, -⟩ := recorded w good
      rw [hcontent]
      refine rerun_always good fun w good now => rerun_always good fun w good snapshot seen _ => ?_
      obtain ⟨content', hcontent', there⟩ := recorded w good
      obtain rfl := Option.some.inj (hcontent'.symm.trans hcontent)
      dsimp only
      rw [(lookup_eq seen).mpr there]
      refine holds_read good fun w good => ?_
      dsimp only
      rw [if_neg (not_not.mpr rfl)]
      exact rest w good

theorem holds_rerun (good : (rerun server j dir).Good w) :
    (autoMigrate server dir).Holds (rerun server j dir) j dir none w := by
  refine rerun_always good fun w good now => rerun_always good fun w good snapshot seen _ => ?_
  have found : snapshot.any (fun kr => kr.1 = .table) = true := by
    refine List.any_eq_true.mpr ⟨(.table, .table), (seen.2 _ _).mpr ?_, by simp⟩
    rw [Tx.view_of_unchanged Tx.changes_empty]
    exact good.2.1.1
  dsimp only
  rw [if_pos found]
  refine holds_read good fun w good => ?_
  cases dir with
  | none => exact rerun_always good fun _ good => rerun_always good fun _ _ _ _ => rfl
  | some d => exact holds_reapply d.entries w (fun _ h => h) good

theorem holds_apart (other : ¬(i = j ∧ q = dir)) {prog : Database.Handler O}
    {tx : Option (Tx Key (Database.Row O) Empty)}
    (good : (rerun server j dir).Good w) (safe : prog.Safe (migration server) q (w.past i) tx) :
    prog.Holds (rerun server j dir) i q tx w := by
  refine Safe.holds rfl (fun w tx good base ok _ _ _ => ?_) (fun a w hi hq => absurd ⟨hi, hq⟩ other) good rfl safe
  exact rerun_commit (e := ⟨i, q, tx⟩) good ok base fun hi hq => absurd ⟨hi, hq⟩ other

theorem holds_all (i : Nat) (q : Option Directory) (w : World (Option Directory) Key (Database.Row O) Empty)
    (good : (rerun server j dir).Good w) (new : w.past i = []) :
    (autoMigrate server q).Holds (rerun server j dir) i q none w := by
  by_cases own : i = j ∧ q = dir
  · obtain ⟨rfl, rfl⟩ := own
    exact holds_rerun good
  · exact holds_apart own good (new ▸ migrates q)

end

/-! ### Whole runs -/

section
variable {rows₀ : Key → Option (Database.Row O)} {s s' : State (Option Directory) Key
  (Database.Row O) Empty Bool Result} {i j : Nat}

theorem recorded_of_done (valid : ∀ k r, rows₀ k = some r → (migration server).row k r)
    (h : Reachable (autoMigrate server) rows₀ s) {tx : Option (Tx Key (Database.Row O) Empty)}
    (done : s.sessions i = some ⟨dir, .answered .done, tx⟩) : Recorded server dir s.rows := by
  have upheld := (h.upheld (C := success server) migrates (fun i q w good _ => holds_success i q w good)
    (fun _ _ => trivial)
    (fun _ _ _ => trivial) (fun _ _ => trivial) valid trivial).2
  exact Contract.Always.now (upheld.holds i _ done) rfl

theorem rerun_upheld (valid : ∀ k r, rows₀ k = some r → (migration server).row k r)
    (h : Reachable (autoMigrate server) rows₀ s)
    (recorded : Recorded server dir s.rows) (new : s.sessions j = none)
    (run : Relation.ReflTransGen (Step (autoMigrate server)) s s') : Upheld (rerun server j dir) s' := by
  have consistent : Consistent (migration server) rows₀ s := h.consistent migrates valid
  have inv : (rerun server j dir).inv s.world := by
    refine ⟨recorded, fun e he hj => ?_⟩
    have none_ := consistent.unborn j new
    rw [State.past, List.map_eq_nil_iff, List.filter_eq_nil_iff] at none_
    exact absurd (by simp [hj]) (none_ e he)
  have free : Relation.ReflTransGen (fun s s' => Step (autoMigrate server) s s' ∧ True) s s' :=
    run.lift id fun _ _ step => ⟨step, trivial⟩
  refine (Upheld.run (C := rerun server j dir) migrates holds_all (fun _ _ _ _ _ _ _ _ => trivial)
    (fun _ _ _ _ _ _ _ _ _ => ⟨trivial, fun _ _ _ _ => trivial⟩) consistent ⟨inv, fun i session hi => ?_⟩ free).2
  have other : i ≠ j := by
    rintro rfl
    rw [new] at hi
    cases hi
  obtain ⟨q, control, tx⟩ := session
  cases control with
  | running prog => exact holds_apart (fun h => other h.1) ⟨consistent.valid, inv⟩ (consistent.safe i _ hi)
  | answered a => exact fun _ _ hij _ => absurd hij other
  | crashed => trivial

/-- Every commit is a whole file with its record, but for the empty ones and that of the bookkeeping table; what is
    recorded has been applied, once; each process applies its files in their order; and once a process has succeeded,
    the next run over the same files changes nothing and succeeds. -/
theorem migrations_atomic (valid : ∀ k r, rows₀ k = some r → (migration server).row k r)
    (h : Reachable (autoMigrate server) rows₀ s) :
    (∀ e ∈ s.log, Preparing e.tx ∨ ∃ d file, e.request = some d ∧ file ∈ d.entries ∧ Applies server e file) ∧
    (∀ name, s.rows (.version name) ≠ none ↔
      rows₀ (.version name) ≠ none ∨ ∃ e ∈ s.log, ∃ file, Applies server e file ∧ file.name = name) ∧
    (∀ e ∈ s.log, ∀ file, Applies server e file → rows₀ (.version file.name) = none) ∧
    (s.log.Pairwise fun e e' => ∀ file file', Applies server e file → Applies server e' file' →
      file.name ≠ file'.name) ∧
    (s.log.Pairwise fun e e' => e'.session = e.session →
      ∀ file file', Applies server e file → Applies server e' file' → file'.name < file.name) ∧
    ∀ i dir tx, s.sessions i = some ⟨dir, .answered .done, tx⟩ → ∀ j s', s.sessions j = none →
      Relation.ReflTransGen (Step (autoMigrate server)) s s' →
        (∀ e ∈ s'.log, e.session = j → e.request = dir → Idle e) ∧
        ∀ a tx, s'.sessions j = some ⟨dir, .answered a, tx⟩ → a = .done := by
  have history := (h.consistent migrates valid).history
  refine ⟨fun e he => ?_, fun name => recorded_iff history, fun e he file applies => ?_, applied_once history,
    applied_in_order history, fun i dir tx done j s' new run => ?_⟩
  · obtain ⟨past, ok, -⟩ := history.ok he
    rcases ok with preparing | ⟨d, file, hd, hf, applies, -⟩
    · exact Or.inl preparing
    · exact Or.inr ⟨d, file, hd, hf, applies⟩
  · obtain ⟨later, earlier, hlog⟩ := List.mem_iff_append.mp he
    rw [hlog] at history
    obtain ⟨before, serial, -, base⟩ := history.before
    by_contra first
    exact (recorded_iff serial).mpr (Or.inl first) (unrecorded_of_applies base applies)
  · have upheld := rerun_upheld valid h (recorded_of_done valid h done) new run
    exact ⟨upheld.inv.2, fun a tx hj => Contract.Always.now (upheld.holds j _ hj) rfl rfl⟩

end

/-! ### Two processes and a file -/

/-- A file that creates one object. -/
def plainServer : Database.Server Nat where
  sha256Hex _ := "checksum"
  script _ := .insert some (fun _ => false) fun _ => .done

/-- A directory with one file. -/
def plainDirectory : Directory where
  entries := [⟨"001_users.sql", false, some []⟩]
  sorted := List.pairwise_singleton ..

/-- The first process applies the file. -/
def applyingSchedule : List (Move (Option Directory) Key Bool) :=
  .arrive 0 (some plainDirectory) :: List.replicate 8 (.next 0) ++ .insert 0 (.object 1) :: List.replicate 3 (.next 0)

theorem migrations_atomic_plain :
    ∃ s, Reachable (autoMigrate plainServer) (fun k => ([] : List (Key × Database.Row Nat)).lookup k) s ∧
    s.rows (.version "001_users.sql") = some (.record "checksum") ∧
    (∃ e ∈ s.log, ∃ file, Applies plainServer e file ∧ file.name = "001_users.sql") ∧
    ∀ j s', s.sessions j = none → Relation.ReflTransGen (Step (autoMigrate plainServer)) s s' →
      ∀ e ∈ s'.log, e.session = j → e.request = some plainDirectory → Idle e := by
  obtain ⟨s, reachable, checked⟩ := Listed.reachable_of_check (autoMigrate plainServer) 0 [] applyingSchedule
    (fun s => s.served 0 = some (some plainDirectory, .done) && s.rows (.version "001_users.sql") =
      some (.record "checksum"))
    (by decide +kernel)
  simp only [Bool.and_eq_true, decide_eq_true_eq] at checked
  have atomic := @migrations_atomic Nat plainServer _ s.state (fun k r hr => by cases hr) reachable
  have recorded := (atomic.2.1 "001_users.sql").mp (show s.rows _ ≠ none from checked.2 ▸ Option.some_ne_none _)
  refine ⟨s.state, reachable, checked.2, recorded.resolve_left fun first => first rfl, fun j s' new run => ?_⟩
  obtain ⟨tx, answered⟩ := Listed.sessions_of_served checked.1
  exact (atomic.2.2.2.2.2 0 _ tx answered j s' new run).1

end Migrations
end DatrixOps
