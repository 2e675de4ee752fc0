import Mathlib

/-! Reports of what a change of a finite map did to its keys, and journals of such reports. -/

/-- The keys that came, the keys that went, and the keys with another value. -/
structure Delta (α : Type*) where
  added : List α
  removed : List α
  changed : List α

namespace Delta

variable {α β : Type*}

def Names (delta : Delta α) (key : α) : Prop :=
  key ∈ delta.added ∨ key ∈ delta.removed ∨ key ∈ delta.changed

variable [DecidableEq α]

def apply (keys : Finset α) (delta : Delta α) : Finset α :=
  (keys \ delta.removed.toFinset) ∪ delta.added.toFinset

/-- The report is complete and has nothing else in it. -/
structure Reports (before : Finmap fun _ : α => β) (delta : Delta α)
    (after : Finmap fun _ : α => β) : Prop where
  added : ∀ key, key ∈ delta.added ↔ key ∉ before ∧ key ∈ after
  removed : ∀ key, key ∈ delta.removed ↔ key ∈ before ∧ key ∉ after
  changed : ∀ key, key ∈ delta.changed ↔
    key ∈ before ∧ key ∈ after ∧ before.lookup key ≠ after.lookup key
  nodup : delta.added.Nodup ∧ delta.removed.Nodup ∧ delta.changed.Nodup

namespace Reports

variable {before after : Finmap fun _ : α => β} {delta : Delta α}

theorem names_iff (reports : Reports before delta after) {key : α} :
    delta.Names key ↔ before.lookup key ≠ after.lookup key := by
  rw [Names, reports.added, reports.removed, reports.changed]
  by_cases old : key ∈ before <;> by_cases new : key ∈ after
  · simp [old, new]
  · rcases Finmap.mem_iff.mp old with ⟨value, found⟩
    simp [old, new, found, Finmap.lookup_eq_none.mpr new]
  · rcases Finmap.mem_iff.mp new with ⟨value, found⟩
    simp [old, new, found, Finmap.lookup_eq_none.mpr old]
  · simp [old, new, Finmap.lookup_eq_none.mpr old, Finmap.lookup_eq_none.mpr new]

theorem apply_keys (reports : Reports before delta after) :
    delta.apply before.keys = after.keys := by
  ext key
  rw [apply, Finset.mem_union, Finset.mem_sdiff, List.mem_toFinset, List.mem_toFinset,
    reports.added, reports.removed, Finmap.mem_keys, Finmap.mem_keys]
  tauto

theorem card (reports : Reports before delta after) :
    after.keys.card + delta.removed.length = before.keys.card + delta.added.length := by
  have gone : delta.removed.toFinset = before.keys \ after.keys := by
    ext key
    rw [List.mem_toFinset, reports.removed, Finset.mem_sdiff, Finmap.mem_keys, Finmap.mem_keys]
  have come : delta.added.toFinset = after.keys \ before.keys := by
    ext key
    rw [List.mem_toFinset, reports.added, Finset.mem_sdiff, Finmap.mem_keys, Finmap.mem_keys]
    tauto
  rw [← List.toFinset_card_of_nodup reports.nodup.2.1,
    ← List.toFinset_card_of_nodup reports.nodup.1, gone, come]
  have left := Finset.card_sdiff_add_card_inter after.keys before.keys
  have right := Finset.card_sdiff_add_card_inter before.keys after.keys
  rw [Finset.inter_comm] at right
  omega

end Reports

/-- The reports of one change after the other. -/
inductive Journal : (Finmap fun _ : α => β) → List (Delta α) → (Finmap fun _ : α => β) → Prop
  | nil (map) : Journal map [] map
  | cons {first next last delta rest} : Reports first delta next → Journal next rest last →
      Journal first (delta :: rest) last

namespace Journal

variable {first last : Finmap fun _ : α => β} {deltas : List (Delta α)}

/-- The keys in force, told from the first ones and the reports alone. -/
theorem keys (journal : Journal first deltas last) :
    deltas.foldl apply first.keys = last.keys := by
  induction journal with
  | nil => rfl
  | cons reports _ ih => rw [List.foldl_cons, reports.apply_keys, ih]

theorem card (journal : Journal first deltas last) :
    last.keys.card + (deltas.map fun delta => delta.removed.length).sum =
      first.keys.card + (deltas.map fun delta => delta.added.length).sum := by
  induction journal with
  | nil => rfl
  | cons reports _ ih =>
      have step := reports.card
      rw [List.map_cons, List.sum_cons, List.map_cons, List.sum_cons]
      omega

theorem lookup_of_unnamed (journal : Journal first deltas last) {key : α}
    (unnamed : ∀ delta ∈ deltas, ¬ delta.Names key) : last.lookup key = first.lookup key := by
  induction journal with
  | nil => rfl
  | cons reports _ ih =>
      rw [List.forall_mem_cons, reports.names_iff, not_not] at unnamed
      exact (ih unnamed.2).trans unnamed.1.symm

end Journal

end Delta
