import Mathlib.Logic.Relation
import Mathlib.Data.List.Basic

/-! Transition systems: what every step keeps every run keeps, and a system whose steps another
system can follow has no other runs than that one. -/

namespace Transition

open Relation (ReflTransGen)

variable {Concrete Abstract : Type}

theorem run_keeps {step : Concrete → Concrete → Prop} {motive : Concrete → Prop}
    (keeps : ∀ state next, motive state → step state next → motive next)
    {start state : Concrete} (run : ReflTransGen step start state) (holds : motive start) :
    motive state := by
  induction run with
  | refl => exact holds
  | tail _ last ih => exact keeps _ _ ih last

/-- A relation to an abstract state is kept by every concrete step, with some abstract steps, or
none, on the other side. -/
def Follows (step : Concrete → Concrete → Prop) (abstractStep : Abstract → Abstract → Prop)
    (related : Concrete → Abstract → Prop) : Prop :=
  ∀ state next image, related state image → step state next →
    ∃ image', related next image' ∧ ReflTransGen abstractStep image image'

theorem Follows.run {step : Concrete → Concrete → Prop}
    {abstractStep : Abstract → Abstract → Prop} {related : Concrete → Abstract → Prop}
    (follows : Follows step abstractStep related) {start state : Concrete} {image : Abstract}
    (run : ReflTransGen step start state) (first : related start image) :
    ∃ image', related state image' ∧ ReflTransGen abstractStep image image' := by
  induction run with
  | refl => exact ⟨image, first, .refl⟩
  | tail _ last ih =>
      rcases ih with ⟨reached, same, before⟩
      rcases follows _ _ reached same last with ⟨image', same', after⟩
      exact ⟨image', same', before.trans after⟩

end Transition
