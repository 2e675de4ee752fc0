import Mathlib.Data.Finmap
import Mathlib.Tactic

/-! The finite map a list of keyed entries folds to, where a later entry replaces an earlier
one of the same key. -/

namespace LastWins

variable {κ ν : Type} [DecidableEq κ]

def extend (key : ν → κ) (map : Finmap fun _ : κ => ν) (entries : List ν) :
    Finmap fun _ : κ => ν :=
  entries.foldl (fun map entry => map.insert (key entry) entry) map

def fold (key : ν → κ) (entries : List ν) : Finmap fun _ : κ => ν := extend key ∅ entries

variable {key : ν → κ}

@[simp] theorem fold_nil : fold key [] = ∅ := rfl

theorem fold_concat (entries : List ν) (entry : ν) :
    fold key (entries ++ [entry]) = (fold key entries).insert (key entry) entry := by
  simp [fold, extend]

theorem lookup_fold_concat (entries : List ν) (entry : ν) (k : κ) :
    (fold key (entries ++ [entry])).lookup k =
      if key entry = k then some entry else (fold key entries).lookup k := by
  rw [fold_concat]
  by_cases same : key entry = k
  · subst same
    simp
  · rw [if_neg same]
    exact Finmap.lookup_insert_of_ne _ (Ne.symm same)

theorem lookup_fold (entries : List ν) (k : κ) :
    (fold key entries).lookup k = entries.reverse.find? (fun entry => key entry = k) := by
  induction entries using List.reverseRecOn with
  | nil => simp
  | append_singleton entries entry ih =>
      rw [lookup_fold_concat, ih, List.reverse_append, List.reverse_singleton,
        List.singleton_append, List.find?_cons]
      by_cases same : key entry = k <;> simp [same]

theorem key_of_lookup {entries : List ν} {k : κ} {entry : ν}
    (found : (fold key entries).lookup k = some entry) : key entry = k := by
  rw [lookup_fold] at found
  simpa using List.find?_some found

theorem mem_of_lookup {entries : List ν} {k : κ} {entry : ν}
    (found : (fold key entries).lookup k = some entry) : entry ∈ entries := by
  rw [lookup_fold] at found
  exact List.mem_reverse.mp (List.mem_of_find?_eq_some found)

theorem lookup_isSome_of_mem {entries : List ν} {entry : ν} (member : entry ∈ entries) :
    ((fold key entries).lookup (key entry)).isSome := by
  rw [lookup_fold, List.find?_isSome]
  exact ⟨entry, List.mem_reverse.mpr member, by simp⟩

theorem sublist_of_lookup {entries : List ν} {k : κ} {entry last : ν}
    (found : (fold key entries).lookup k = some last) (member : entry ∈ entries)
    (keyed : key entry = k) : entry = last ∨ [entry, last].Sublist entries := by
  induction entries using List.reverseRecOn with
  | nil => cases member
  | append_singleton entries newest ih =>
      rw [lookup_fold_concat] at found
      by_cases same : key newest = k
      · rw [if_pos same] at found
        rw [← Option.some.inj found]
        rcases List.mem_append.mp member with inside | end_
        · exact Or.inr ((List.singleton_sublist.mpr inside).append (List.Sublist.refl [newest]))
        · exact Or.inl (List.mem_singleton.mp end_)
      · rw [if_neg same] at found
        rcases List.mem_append.mp member with inside | end_
        · exact (ih found inside).imp_right fun part =>
            part.trans (List.sublist_append_left entries [newest])
        · rw [List.mem_singleton.mp end_] at keyed
          exact absurd keyed same

end LastWins
