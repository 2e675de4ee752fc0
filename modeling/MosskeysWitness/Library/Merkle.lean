import Mathlib.Data.List.Basic
import Mathlib.Tactic

/-! The Merkle tree hash and the consistency proofs of RFC 6962, section 2.1, over any leaves
and hashes. -/

namespace Merkle

structure Hasher (α β : Type) where
  empty : β
  leaf : α → β
  node : β → β → β

variable {α β : Type}

/-- The largest power of two below `n`, for `n` at least 2. -/
def split (n : Nat) : Nat := 2 ^ (n - 1).log2

theorem split_pos (n : Nat) : 0 < split n := Nat.two_pow_pos _

theorem split_lt {n : Nat} (two : 2 ≤ n) : split n < n := by
  have bound : split n ≤ n - 1 := Nat.log2_self_le (by omega)
  omega

def root (hasher : Hasher α β) (leaves : List α) : β :=
  match leaves with
  | [] => hasher.empty
  | [leaf] => hasher.leaf leaf
  | first :: second :: rest =>
      let all := first :: second :: rest
      hasher.node (root hasher (all.take (split all.length)))
        (root hasher (all.drop (split all.length)))
termination_by leaves.length
decreasing_by
  · have shorter := split_lt (n := (first :: second :: rest).length) (by simp)
    rw [List.length_take]
    omega
  · have positive : 0 < (first :: second :: rest).length := by simp
    have some := split_pos (first :: second :: rest).length
    rw [List.length_drop]
    omega

/-- `SUBPROOF(old, D[n], complete)`. -/
def subproof (hasher : Hasher α β) (old : Nat) (leaves : List α) (complete : Bool) : List β :=
  if old = leaves.length then if complete then [] else [root hasher leaves]
  else if _two : 2 ≤ leaves.length then
    let k := split leaves.length
    if old ≤ k then
      subproof hasher old (leaves.take k) complete ++ [root hasher (leaves.drop k)]
    else subproof hasher (old - k) (leaves.drop k) false ++ [root hasher (leaves.take k)]
  else []
termination_by leaves.length
decreasing_by
  · have shorter := split_lt _two
    rw [List.length_take]
    omega
  · have some := split_pos leaves.length
    rw [List.length_drop]
    omega

/-- `PROOF(old, D[n])`. -/
def consistencyProof (hasher : Hasher α β) (old : Nat) (leaves : List α) : List β :=
  subproof hasher old leaves true

theorem clog_split {n : Nat} (two : 2 ≤ n) :
    Nat.clog 2 (split n) < Nat.clog 2 n ∧ Nat.clog 2 (n - split n) < Nat.clog 2 n := by
  have below : split n < n := split_lt two
  have above : n - 1 < 2 ^ ((n - 1).log2 + 1) := Nat.lt_log2_self
  have level : (n - 1).log2 < Nat.clog 2 n :=
    (Nat.lt_clog_iff_pow_lt (by decide)).mpr below
  have rest : n - split n ≤ 2 ^ (n - 1).log2 := by
    rw [pow_succ] at above
    rw [split]
    omega
  constructor
  · calc
      Nat.clog 2 (split n) = (n - 1).log2 := Nat.clog_pow 2 _ (by decide)
      _ < Nat.clog 2 n := level
  · calc
      Nat.clog 2 (n - split n) ≤ (n - 1).log2 := Nat.clog_le_of_le_pow rest
      _ < Nat.clog 2 n := level

/-- A proof has one hash a level, and one more for the node it starts from. -/
theorem subproof_length (hasher : Hasher α β) (old : Nat) (leaves : List α) (complete : Bool) :
    (subproof hasher old leaves complete).length ≤ Nat.clog 2 leaves.length + 1 := by
  induction old, leaves, complete using subproof.induct with
  | case1 leaves =>
      rw [subproof, if_pos rfl, if_pos rfl]
      simp
  | case2 leaves complete other =>
      rw [subproof, if_pos rfl, if_neg other]
      simp
  | case3 old leaves complete other two k inside ih =>
      have lower : Nat.clog 2 k < Nat.clog 2 leaves.length := (clog_split two).1
      have size : (leaves.take k).length = k := by
        rw [List.length_take]
        exact Nat.min_eq_left (Nat.le_of_lt (split_lt two))
      rw [size] at ih
      rw [subproof, if_neg other, dif_pos two, if_pos inside, List.length_append,
        List.length_singleton]
      change (subproof hasher old (leaves.take k) complete).length + 1 ≤ _
      omega
  | case4 old leaves complete other two k outside ih =>
      have lower : Nat.clog 2 (leaves.length - k) < Nat.clog 2 leaves.length := (clog_split two).2
      rw [List.length_drop] at ih
      rw [subproof, if_neg other, dif_pos two, if_neg outside, List.length_append,
        List.length_singleton]
      change (subproof hasher (old - k) (leaves.drop k) false).length + 1 ≤ _
      omega
  | case5 old leaves complete other small =>
      rw [subproof, if_neg other, dif_neg small]
      simp

@[simp] theorem root_nil (hasher : Hasher α β) : root hasher [] = hasher.empty := by
  rw [root]

theorem consistencyProof_length (hasher : Hasher α β) (old : Nat) (leaves : List α) :
    (consistencyProof hasher old leaves).length ≤ Nat.clog 2 leaves.length + 1 :=
  subproof_length hasher old leaves true

theorem consistencyProof_self (hasher : Hasher α β) (leaves : List α) :
    consistencyProof hasher leaves.length leaves = [] := by
  rw [consistencyProof, subproof, if_pos rfl, if_pos rfl]

end Merkle
