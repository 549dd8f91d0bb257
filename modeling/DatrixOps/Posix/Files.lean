import Mathlib.Logic.Function.Basic
import Mathlib.Tactic.SplitIfs

/-! Files and their names. A file that is open stays what it is when its name is removed or given to another;
    a rename puts one file in the place of another at once. -/

namespace Posix

abbrev Bytes := List UInt8

instance : LawfulBEq Bytes := inferInstance

structure File where
  content : Bytes
  executable : Bool
  deriving DecidableEq, Repr

/-- The files of a system without hard links, the numbers from `next` on being free. -/
structure Files where
  names : String → Option Nat
  file : Nat → File
  next : Nat
  allocated : ∀ {path i}, names path = some i → i < next
  single : ∀ {p q i}, names p = some i → names q = some i → p = q

/-- A file system with nothing in it. -/
def Files.empty : Files := ⟨fun _ => none, fun _ => ⟨[], false⟩, 0, by simp, by simp⟩

namespace Files
variable (f : Files)

/-- The file that a name stands for. -/
def look (path : String) : Option File := (f.names path).map f.file

def content (path : String) : Option Bytes := (f.look path).map File.content

def edit (i : Nat) (change : File → File) : Files := { f with file := Function.update f.file i (change (f.file i)) }

/-- A new file under a name. -/
def add (path : String) (new : File) : Files where
  names := Function.update f.names path (some f.next)
  file := Function.update f.file f.next new
  next := f.next + 1
  allocated {p i} h := by
    rw [Function.update_apply] at h
    split_ifs at h
    · exact Option.some.inj h ▸ Nat.lt_succ_self _
    · exact Nat.lt_succ_of_lt (f.allocated h)
  single {p q i} hp hq := by
    rw [Function.update_apply] at hp hq
    split_ifs at hp hq with h h' h'
    · exact h.trans h'.symm
    · exact absurd (f.allocated hq) (Option.some.inj hp ▸ Nat.lt_irrefl _)
    · exact absurd (f.allocated hp) (Option.some.inj hq ▸ Nat.lt_irrefl _)
    · exact f.single hp hq

/-- `open` with `O_CREAT | O_TRUNC`, and the file opened. -/
def create (path : String) : Nat × Files :=
  match f.names path with
  | some i => (i, f.edit i fun file => { file with content := [] })
  | none => (f.next, f.add path ⟨[], false⟩)

/-- `open` with `O_CREAT | O_EXCL` -/
def createNew (path : String) (executable : Bool) : Option (Nat × Files) :=
  match f.names path with
  | some _ => none
  | none => some (f.next, f.add path ⟨[], executable⟩)

/-- Write at an offset; a hole before it reads as zeros. -/
def write (i offset : Nat) (bytes : Bytes) : Files :=
  f.edit i fun file => { file with
    content := file.content.take offset ++ List.replicate (offset - file.content.length) 0 ++ bytes ++
      file.content.drop (offset + bytes.length) }

/-- The file of a name, created where there is none, gets this content. -/
def writeFile (path : String) (bytes : Bytes) : Files := (f.create path).2.write (f.create path).1 0 bytes

/-- Read at most `n` bytes at an offset. -/
def read (i offset n : Nat) : Bytes := ((f.file i).content.drop offset).take n

def remove (path : String) : Files where
  names := Function.update f.names path none
  file := f.file
  next := f.next
  allocated {p i} h := by
    rw [Function.update_apply] at h
    split_ifs at h
    exact f.allocated h
  single {p q i} hp hq := by
    rw [Function.update_apply] at hp hq
    split_ifs at hp hq
    exact f.single hp hq

/-- `rename`: the file that `to` stood for loses its name. -/
def rename (source target : String) : Option Files :=
  match h : f.names source with
  | none => none
  | some i => some {
      names := Function.update (Function.update f.names source none) target (some i)
      file := f.file
      next := f.next
      allocated {p j} hp := by
        simp only [Function.update_apply] at hp
        split_ifs at hp
        · exact Option.some.inj hp ▸ f.allocated h
        · exact f.allocated hp
      single {p q j} hp hq := by
        simp only [Function.update_apply] at hp hq
        split_ifs at hp hq with h₁ h₂ h₃ h₄
        · exact h₁.trans h₂.symm
        · exact absurd (f.single (Option.some.inj hp ▸ hq) h) h₃
        · exact absurd (f.single (Option.some.inj hq ▸ hp) h) h₄
        · exact f.single hp hq }

def chmod (path : String) (executable : Bool) : Option Files :=
  (f.names path).map fun i => f.edit i fun file => { file with executable := executable }

/-! ### What an operation leaves -/

variable {f} {path other source target : String} {i offset : Nat} {bytes : Bytes} {new : File} {change : File → File}

@[simp] theorem names_edit : (f.edit i change).names = f.names := rfl

@[simp] theorem names_write : (f.write i offset bytes).names = f.names := rfl

@[simp] theorem file_remove : (f.remove path).file = f.file := rfl

@[simp] theorem file_edit : (f.edit i change).file i = change (f.file i) := Function.update_self ..

@[simp] theorem look_remove : (f.remove path).look path = none := by simp [look, remove]

theorem look_remove_of_ne (h : other ≠ path) : (f.remove path).look other = f.look other := by
  simp [look, remove, Function.update_of_ne h]

/-- Writing where the file ends appends. -/
theorem content_write_end (h : (f.file i).content.length = offset) :
    ((f.write i offset bytes).file i).content = (f.file i).content ++ bytes := by
  rw [write, file_edit]
  subst h
  simp

theorem look_edit_of_ne (h : f.names path ≠ some i) : (f.edit i change).look path = f.look path := by
  cases hp : f.names path with
  | none => simp [look, hp]
  | some j =>
    have hne : j ≠ i := fun heq => h (heq ▸ hp)
    simp [look, hp, edit, Function.update_of_ne hne]

theorem look_add_of_ne (h : other ≠ path) : (f.add path new).look other = f.look other := by
  cases ho : f.names other with
  | none => simp [look, add, Function.update_of_ne h, ho]
  | some j =>
    have hne : j ≠ f.next := Nat.ne_of_lt (f.allocated ho)
    simp [look, add, Function.update_of_ne h, ho, Function.update_of_ne hne]

/-- A file created is empty and the only one to change. -/
theorem create_spec (f : Files) (path : String) : ((f.create path).2.names path = some (f.create path).1) ∧
    ((f.create path).2.file (f.create path).1).content = [] ∧
      ∀ other, other ≠ path → (f.create path).2.look other = f.look other := by
  unfold create
  split
  · rename_i i hi
    refine ⟨hi, by simp, fun other hne => look_edit_of_ne fun ho => hne (f.single ho hi)⟩
  · refine ⟨Function.update_self .., ?_, fun other hne => look_add_of_ne hne⟩
    simp [add]

/-- A file is only created anew under a free name. -/
theorem createNew_spec {executable : Bool} {g : Files} (h : f.createNew path executable = some (i, g)) :
    f.look path = none ∧ g.names path = some i ∧ ∀ other, other ≠ path → g.look other = f.look other := by
  unfold createNew at h
  split at h
  · cases h
  · rename_i free
    cases h
    exact ⟨by simp [look, free], Function.update_self .., fun other hne => look_add_of_ne hne⟩

theorem look_writeFile_of_ne (h : other ≠ path) : (f.writeFile path bytes).look other = f.look other := by
  obtain ⟨named, -, others⟩ := create_spec f path
  exact (look_edit_of_ne fun hother => h ((f.create path).2.single hother named)).trans (others other h)

theorem look_rename {g : Files} (h : f.rename source target = some g) : g.look target = f.look source ∧
    (source ≠ target → g.look source = none) ∧ ∀ other, other ≠ source → other ≠ target →
    g.look other = f.look other := by
  unfold rename at h
  split at h
  · cases h
  · rename_i i hi
    obtain rfl := Option.some.inj h
    refine ⟨by simp [look, hi], fun hne => ?_, fun other hs ht => ?_⟩
    · simp [look, Function.update_of_ne hne]
    · simp [look, Function.update_of_ne ht, Function.update_of_ne hs]

end Files
end Posix
