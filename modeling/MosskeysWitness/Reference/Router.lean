import MosskeysWitness.Routing

/-! A router that keeps its routes in a list. -/

namespace MosskeysWitness.Reference

namespace Router

/-- The segments that `route` refuses. -/
def Refused (path : Text) : Prop :=
  ∃ segment ∈ path.splitOn '/', segment.head? = some ':' ∨ segment.head? = some '*'

instance (path : Text) : Decidable (Refused path) := inferInstanceAs (Decidable (∃ _ ∈ _, _ ∨ _))

def route (routes : List Route) (added : Route) : Option (List Route) :=
  if Refused added.path ∨ ∃ served ∈ routes, served.path = added.path then none
  else some (routes ++ [added])

def fits (pattern segment : Text) : Bool :=
  pattern = segment ∨ pattern = Axum.capture (pattern.tail.dropLast) ∧ segment ≠ []

def call (routes : List Route) (method : Method) (target : Text) : Option Handler :=
  if Axum.maxTarget < target.length then none
  else
    let served := routes.filter fun route => route.method.Answers method
    match served.find? fun route => route.path = target with
    | some route => some route.handler
    | none => (served.find? fun route =>
        List.Forall₂ (fits · ·) (Uri.segments route.path) (Uri.segments target)).map Route.handler

theorem fits_sound {pattern segment : Text} (fit : fits pattern segment = true) :
    Axum.Fits pattern segment := by
  rcases of_decide_eq_true fit with same | ⟨braces, nonempty⟩
  · exact Or.inl same
  · exact Or.inr ⟨⟨_, braces⟩, nonempty⟩

variable {routes : List Route}

theorem accepted {path : Text} {segments : List Text} (whole : path = Uri.join segments)
    (regular : ∀ segment ∈ segments, Axum.IsStatic segment ∨ segment = Axum.capture param) :
    ¬ Refused path := by
  have opens : ∀ segment ∈ segments, segment.head? ≠ some ':' ∧ segment.head? ≠ some '*' := by
    intro segment member
    rcases regular segment member with fixed | rfl
    · refine ⟨fixed.2.1, ?_⟩
      intro star
      exact fixed.2.2 '*' (List.mem_of_head? star) (by decide)
    · decide
  intro refused
  rcases refused with ⟨segment, member, syntactic⟩
  have split := Uri.splitOn_join (List.not_mem_nil (a := '/')) fun part inside =>
    Axum.segment_slashless (by decide) (regular part inside)
  rw [whole, ← List.nil_append (Uri.join segments), split] at member
  rcases List.mem_cons.mp member with rfl | member
  · simp at syntactic
  · exact syntactic.elim (opens segment member).1 (opens segment member).2

theorem build_eq (regular : Axum.Regular param routes) : routes.foldlM route [] = some routes := by
  have kept : ∀ rest done, done ++ rest = routes →
      rest.foldlM route done = some (done ++ rest) := by
    intro rest
    induction rest with
    | nil =>
        intro done _
        rw [List.append_nil]
        rfl
    | cons next rest ih =>
        intro done split
        have member : next ∈ routes := by simp [← split]
        obtain ⟨segments, -, whole, plain⟩ := regular.segments next member
        have fresh : ¬ ∃ served ∈ done, served.path = next.path := by
          have distinct := regular.distinct
          rw [← split, List.map_append, List.nodup_append] at distinct
          intro known
          rcases known with ⟨served, inside, same⟩
          exact distinct.2.2 _ (List.mem_map_of_mem inside) _
            (List.mem_map_of_mem List.mem_cons_self) same
        have step : route done next = some (done ++ [next]) :=
          if_neg (not_or.mpr ⟨accepted whole plain, fresh⟩)
        rw [List.append_cons] at split
        calc
          _ = rest.foldlM route (done ++ [next]) := by rw [List.foldlM_cons, step]; rfl
          _ = some (done ++ [next] ++ rest) := ih _ split
          _ = some (done ++ next :: rest) := by rw [List.append_assoc, List.singleton_append]
  exact kept routes [] rfl

theorem call_exact (regular : Axum.Regular param routes) {served : Route}
    (member : served ∈ routes) (short : served.path.length ≤ Axum.maxTarget) :
    call routes served.method served.path = some served.handler := by
  rw [call, if_neg (Nat.not_lt.mpr short)]
  dsimp only
  split
  · rename_i found known
    have inside := (List.mem_filter.mp (List.mem_of_find?_eq_some known)).1
    have path : found.path = served.path := by simpa using List.find?_some known
    rw [List.inj_on_of_nodup_map regular.distinct inside member path]
  · rename_i unknown
    rw [List.find?_eq_none] at unknown
    exact absurd (decide_eq_true rfl)
      (unknown served (List.mem_filter.mpr ⟨member, decide_eq_true (Or.inl rfl)⟩))

theorem call_short {method : Method} {target : Text} {handler : Handler}
    (reached : call routes method target = some handler) : target.length ≤ Axum.maxTarget := by
  by_contra long
  rw [call, if_pos (Nat.not_le.mp long)] at reached
  cases reached

theorem call_fits {method : Method} {target : Text} {handler : Handler}
    (reached : call routes method target = some handler) :
    ∃ route ∈ routes, route.method.Answers method ∧ route.handler = handler ∧
      List.Forall₂ Axum.Fits (Uri.segments route.path) (Uri.segments target) := by
  rw [call, if_neg (Nat.not_lt.mpr (call_short reached))] at reached
  dsimp only at reached
  split at reached
  · rename_i found known
    obtain ⟨inside, suits⟩ := List.mem_filter.mp (List.mem_of_find?_eq_some known)
    have path : found.path = target := by simpa using List.find?_some known
    refine ⟨found, inside, of_decide_eq_true suits, Option.some.inj reached, ?_⟩
    rw [path, List.forall₂_same]
    intro segment _
    exact Or.inl rfl
  · obtain ⟨found, known, handles⟩ := Option.map_eq_some_iff.mp reached
    obtain ⟨inside, suits⟩ := List.mem_filter.mp (List.mem_of_find?_eq_some known)
    have path := List.find?_some known
    rw [decide_eq_true_eq] at path
    exact ⟨found, inside, of_decide_eq_true suits, handles, path.imp fun _ _ => fits_sound⟩

end Router

def axum : Axum where
  Router := List Route
  new := []
  route := Router.route
  call := Router.call

theorem axum_laws : axum.Laws param where
  refuses := fun _ _ refused => if_pos (Or.inl refused)
  builds := fun routes regular => ⟨routes, Router.build_eq regular⟩
  exact := by
    intro routes router regular built route member _ sent
    have same : routes = router := Option.some.inj ((Router.build_eq regular).symm.trans built)
    subst same
    exact Router.call_exact regular member sent.short
  only := by
    intro routes router regular built method target handler reached
    have same : routes = router := Option.some.inj ((Router.build_eq regular).symm.trans built)
    subst same
    exact Router.call_fits reached
  short := fun _ _ _ _ reached => Router.call_short reached

end MosskeysWitness.Reference
