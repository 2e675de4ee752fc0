import Mathlib.Data.List.Basic
import Mathlib.Tactic

/-! A file behind a write-back cache. What is done to it is seen at once by everyone who reads it
and reaches the device in order, but only a sync waits for that; a power loss leaves what has
reached the device. -/

inductive FileOp where
  | append (chunk : List UInt8)
  | truncate (length : Nat)

namespace FileOp

def apply (bytes : List UInt8) : FileOp → List UInt8
  | append chunk => bytes ++ chunk
  | truncate length => bytes.take length ++ List.replicate (length - bytes.length) 0

end FileOp

/-- `unsynced` are the operations since the last sync, oldest first. -/
structure WriteBack where
  stored : List UInt8
  unsynced : List FileOp

namespace WriteBack

def contents (file : WriteBack) : List UInt8 := file.unsynced.foldl FileOp.apply file.stored

def perform (file : WriteBack) (op : FileOp) : WriteBack :=
  { file with unsynced := file.unsynced ++ [op] }

def sync (file : WriteBack) : WriteBack := ⟨file.contents, []⟩

/-- What a power loss can leave: some of the operations have reached the device, and of an append
that comes next perhaps a part has. -/
inductive Leaves (file : WriteBack) : List UInt8 → Prop
  | between {done rest} : file.unsynced = done ++ rest →
      Leaves file (done.foldl FileOp.apply file.stored)
  | within {done chunk rest} (count : Nat) : file.unsynced = done ++ .append chunk :: rest →
      Leaves file (done.foldl FileOp.apply file.stored ++ chunk.take count)

variable {file : WriteBack} {bytes : List UInt8}

@[simp] theorem contents_perform (op : FileOp) :
    (file.perform op).contents = op.apply file.contents := by
  simp [contents, perform]

theorem leaves_contents (file : WriteBack) : file.Leaves file.contents :=
  .between (List.append_nil _).symm

theorem leaves_stored {stored : List UInt8} :
    (⟨stored, []⟩ : WriteBack).Leaves bytes ↔ bytes = stored := by
  constructor
  · intro left
    cases left with
    | between whole =>
        rcases List.append_eq_nil_iff.mp whole.symm with ⟨rfl, -⟩
        rfl
    | within count whole => exact absurd whole.symm (by simp)
  · intro same
    rw [same]
    exact leaves_contents ⟨stored, []⟩

theorem leaves_sync : file.sync.Leaves bytes ↔ bytes = file.contents := leaves_stored

/-- One more operation adds what it does, whole or in part, to what a power loss can leave. -/
theorem Leaves.perform {op : FileOp} (left : (file.perform op).Leaves bytes) :
    file.Leaves bytes ∨ bytes = op.apply file.contents ∨
      ∃ chunk count, op = .append chunk ∧ bytes = file.contents ++ chunk.take count := by
  cases left with
  | between whole =>
      rename_i done rest
      rcases rest.eq_nil_or_concat' with rfl | ⟨before, last, rfl⟩
      · rw [List.append_nil] at whole
        subst whole
        refine Or.inr (Or.inl ?_)
        simp [WriteBack.perform, contents]
      · rw [← List.append_assoc] at whole
        exact Or.inl (.between (List.append_inj' whole rfl).1)
  | within count whole =>
      rename_i done chunk rest
      rcases rest.eq_nil_or_concat' with rfl | ⟨before, last, rfl⟩
      · rcases List.append_inj' whole rfl with ⟨same, last⟩
        subst same
        exact Or.inr (Or.inr ⟨chunk, count, List.singleton_inj.mp last, rfl⟩)
      · rw [← List.cons_append, ← List.append_assoc] at whole
        exact Or.inl (.within count (List.append_inj' whole rfl).1)

end WriteBack
