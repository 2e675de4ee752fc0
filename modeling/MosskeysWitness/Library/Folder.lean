import Mathlib.Logic.Function.Basic
import Mathlib.Tactic

/-! Names that stand for files or, as symbolic links, for other names: what is found behind a
name, and exclusive creation, which does not look behind it. -/

inductive Entry (Name File : Type) where
  | file (file : File)
  | link (target : Name)

abbrev Folder (Name File : Type) := Name → Option (Entry Name File)

namespace Folder

variable {Name File : Type}

/-- The file behind a name, through so many links at most. -/
def follow (folder : Folder Name File) : Nat → Name → Option File
  | limit, name =>
      match folder name with
      | none => none
      | some (.file file) => some file
      | some (.link target) =>
          match limit with
          | 0 => none
          | limit + 1 => follow folder limit target

/-- Longer chains are taken for loops. -/
def maxLinks : Nat := 40

def resolve (folder : Folder Name File) (name : Name) : Option File := folder.follow maxLinks name

def Dangling (folder : Folder Name File) (name : Name) : Prop :=
  (∃ target, folder name = some (.link target)) ∧ folder.resolve name = none

/-- Every name of the first folder is in the second as it was. -/
def Keeps (before after : Folder Name File) : Prop :=
  ∀ name entry, before name = some entry → after name = some entry

def put [DecidableEq Name] (folder : Folder Name File) (name : Name) (file : File) :
    Folder Name File :=
  Function.update folder name (some (.file file))

/-- Exclusive creation fails on any name that is there, a dangling link included. -/
def createNew [DecidableEq Name] (folder : Folder Name File) (name : Name) (file : File) :
    Option (Folder Name File) :=
  match folder name with
  | none => some (folder.put name file)
  | some _ => none

variable {folder before after : Folder Name File} {name : Name} {file : File}

theorem Keeps.refl (folder : Folder Name File) : Keeps folder folder := fun _ _ found => found

theorem Keeps.trans {last : Folder Name File} (first : Keeps before after)
    (second : Keeps after last) : Keeps before last :=
  fun name entry found => second name entry (first name entry found)

theorem Keeps.follow (kept : Keeps before after) {limit : Nat} {name : Name}
    (found : before.follow limit name = some file) : after.follow limit name = some file := by
  induction limit generalizing name with
  | zero =>
      unfold Folder.follow at found ⊢
      cases entry : before name with
      | none => simp [entry] at found
      | some entry' =>
          rw [entry] at found
          rw [kept name entry' entry]
          exact found
  | succ limit ih =>
      unfold Folder.follow at found ⊢
      cases entry : before name with
      | none => simp [entry] at found
      | some entry' =>
          rw [entry] at found
          rw [kept name entry' entry]
          cases entry' with
          | file file' => exact found
          | link target => exact ih found

theorem Keeps.resolve (kept : Keeps before after) (found : before.resolve name = some file) :
    after.resolve name = some file :=
  Keeps.follow kept found

theorem Keeps.unresolved (kept : Keeps before after) (missing : after.resolve name = none) :
    before.resolve name = none := by
  by_contra found
  obtain ⟨file, found⟩ := Option.ne_none_iff_exists'.mp found
  rw [kept.resolve found] at missing
  cases missing

@[simp] theorem resolve_absent (absent : folder name = none) : folder.resolve name = none := by
  simp [resolve, follow, absent]

theorem resolve_file (found : folder name = some (.file file)) :
    folder.resolve name = some file := by
  simp [resolve, follow, found]

theorem dangling_of_unresolved (missing : folder.resolve name = none) (entry : folder name ≠ none) :
    folder.Dangling name := by
  obtain ⟨found, linked⟩ := Option.ne_none_iff_exists'.mp entry
  cases found with
  | file file =>
      rw [resolve_file linked] at missing
      cases missing
  | link target => exact ⟨⟨target, linked⟩, missing⟩

section Put

variable [DecidableEq Name]

@[simp] theorem put_self : folder.put name file name = some (.file file) :=
  Function.update_self _ _ _

theorem put_of_ne {other : Name} (apart : other ≠ name) :
    folder.put name file other = folder other :=
  Function.update_of_ne apart _ _

@[simp] theorem put_put (file' : File) :
    (folder.put name file).put name file' = folder.put name file' :=
  Function.update_idem _ _ _

@[simp] theorem resolve_put : (folder.put name file).resolve name = some file :=
  resolve_file put_self

theorem Keeps.put (kept : Keeps before after) (fresh : before name = none) :
    Keeps before (after.put name file) := by
  intro other entry found
  have apart : other ≠ name := by
    intro same
    rw [same, fresh] at found
    cases found
  rw [put_of_ne apart]
  exact kept other entry found

theorem createNew_eq_some {made : Folder Name File} :
    folder.createNew name file = some made ↔ folder name = none ∧ made = folder.put name file := by
  unfold createNew
  cases folder name with
  | none => simp [eq_comm]
  | some entry => simp

theorem createNew_eq_none : folder.createNew name file = none ↔ folder name ≠ none := by
  unfold createNew
  cases folder name <;> simp

end Put

end Folder
