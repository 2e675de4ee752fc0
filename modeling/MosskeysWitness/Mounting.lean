import MosskeysWitness.Reference.Feed
import MosskeysWitness.Reference.Router

/-! The submission endpoint under the name of a witness, as requests find it. -/

namespace MosskeysWitness

/-- The prefix is plain, the router is built with it, and the URL of the name leads to the
submission endpoint. -/
structure Served (axum : Axum) (name apiPrefix : Text) : Prop where
  plain : PlainPath apiPrefix
  routed : ∃ app target, routerShared axum apiPrefix = some app ∧
    Uri.target (submissionUrl name) = some target ∧
      axum.call app .post target = some .addCheckpoint

section Mounted

variable {axum : Axum} {name apiPrefix host : Text} {parts : List Text}

theorem Split.regular (split : Split name apiPrefix host parts)
    (colons : ∀ part ∈ parts, part.head? ≠ some ':') :
    Axum.Regular param (servedRoutes apiPrefix) := by
  rw [split.derived]
  apply served_regular
  intro part member
  exact ⟨(split.solid part member).1, colons part member, (split.solid part member).2⟩

theorem Split.refused (laws : axum.Laws param) (split : Split name apiPrefix host parts)
    (colon : ∃ part ∈ parts, part.head? = some ':') : routerShared axum apiPrefix = none := by
  obtain ⟨part, member, opens⟩ := colon
  have slashless : ∀ segment ∈ parts ++ ["add-checkpoint".toList], '/' ∉ segment := by
    rw [List.forall_mem_append, List.forall_mem_singleton]
    exact ⟨split.slashless, by decide⟩
  have path : apiPrefix ++ "/add-checkpoint".toList =
      [] ++ Uri.join (parts ++ ["add-checkpoint".toList]) := by
    rw [split.derived, Uri.join_append]
    rfl
  have mounted : ∀ router, mountApi axum router apiPrefix = none := by
    intro router
    have refused : axum.route router
        ⟨apiPrefix ++ "/add-checkpoint".toList, .post, .addCheckpoint⟩ = none := by
      apply laws.refuses
      refine ⟨part, ?_, Or.inl opens⟩
      rw [path, Uri.splitOn_join List.not_mem_nil slashless]
      exact List.mem_cons_of_mem _ (List.mem_append_left _ member)
    rw [mountApi, refused]
    rfl
  have named : apiPrefix ≠ [] := by
    rw [split.derived, ne_eq, Uri.join_eq_nil_iff]
    exact List.ne_nil_of_mem member
  rw [routerShared]
  cases mountApi axum axum.new [] with
  | none => rfl
  | some app =>
      rw [Option.bind_eq_bind, Option.bind_some, if_pos named]
      exact mounted app

theorem root_unserved (laws : axum.Laws param) {app : axum.Router} {method : Method}
    {handler : Handler} (regular : Axum.Regular param (servedRoutes apiPrefix))
    (built : axum.build (servedRoutes apiPrefix) = some app) :
    axum.call app method ['/'] ≠ some handler := by
  intro reached
  obtain ⟨route, member, -, -, fits⟩ := laws.only _ _ regular built _ _ _ reached
  obtain ⟨segments, nonempty, whole, plain⟩ := regular.segments route member
  have slashless : ∀ segment ∈ segments, '/' ∉ segment := by
    intro segment inside
    exact Axum.segment_slashless (by decide) (plain segment inside)
  have root : Uri.segments ['/'] = [[]] := by decide
  rw [root, whole, Uri.segments_join slashless, List.forall₂_cons_right_iff] at fits
  obtain ⟨segment, rest, fit, -, rfl⟩ := fits
  rcases fit with empty | captured
  · rcases plain segment List.mem_cons_self with static | rfl
    · exact static.1 empty
    · cases empty
  · exact captured.2 rfl

theorem Axum.IsStatic.eq_of_fits {pattern segment : Text} (static : Axum.IsStatic pattern)
    (fits : Axum.Fits pattern segment) : pattern = segment := by
  rcases fits with same | ⟨⟨name, rfl⟩, -⟩
  · exact same
  · exact absurd (static.2.2 '{' List.mem_cons_self) (by decide)

theorem Split.reached (laws : axum.Laws param) (split : Split name apiPrefix host parts)
    (colons : ∀ part ∈ parts, part.head? ≠ some ':') {app : axum.Router}
    (built : axum.build (servedRoutes apiPrefix) = some app) {handler : Handler}
    {segments : List Text} (slashless : ∀ segment ∈ segments, '/' ∉ segment)
    (reached : axum.call app .post (Uri.join (segments ++ ["add-checkpoint".toList])) =
      some handler) : segments = [] ∨ segments = parts := by
  obtain ⟨route, member, answers, -, fits⟩ :=
    laws.only _ _ (split.regular colons) built _ _ _ reached
  rw [split.derived] at member
  obtain ⟨front, either, mounted⟩ := mem_servedRoutes member
  have static : ∀ part ∈ front ++ ["add-checkpoint".toList], Axum.IsStatic part := by
    rw [List.forall_mem_append, List.forall_mem_singleton]
    refine ⟨?_, by decide⟩
    rcases either with rfl | rfl
    · simp
    · exact fun part inside => ⟨(split.solid part inside).1, colons part inside,
        (split.solid part inside).2⟩
  have ends : ∀ segment ∈ segments ++ ["add-checkpoint".toList], '/' ∉ segment := by
    rw [List.forall_mem_append, List.forall_mem_singleton]
    exact ⟨slashless, by decide⟩
  have posted : route.path = Uri.join (front ++ ["add-checkpoint".toList]) := by
    rw [apiRoutes_join] at mounted
    rcases List.mem_cons.mp mounted with rfl | monitoring
    · rfl
    · rw [List.mem_singleton] at monitoring
      subst monitoring
      rcases answers with same | ⟨-, same⟩ <;> cases same
  rw [posted, Uri.segments_join fun part inside slash =>
    (static part inside).2.2 '/' slash List.mem_cons_self, Uri.segments_join ends] at fits
  have same : front ++ ["add-checkpoint".toList] = segments ++ ["add-checkpoint".toList] := by
    rw [← List.forall₂_eq_eq_eq]
    refine List.forall₂_iff_zip.mpr ⟨fits.length_eq, ?_⟩
    intro pattern segment inside
    exact (static pattern (List.of_mem_zip inside).1).eq_of_fits
      ((List.forall₂_iff_zip.mp fits).2 inside)
  rw [List.append_left_inj] at same
  exact same ▸ either

theorem Split.served_iff (laws : axum.Laws param) (split : Split name apiPrefix host parts) :
    Served axum name apiPrefix ↔ PlainName name := by
  have slashless : ∀ segment ∈ Uri.walk parts, '/' ∉ segment := fun segment member =>
    split.slashless segment (Uri.mem_walk member)
  have endpoint : Uri.join (Uri.walk parts) ++ "/add-checkpoint".toList =
      Uri.join (Uri.walk parts ++ ["add-checkpoint".toList]) := by
    rw [Uri.join_append]
    rfl
  constructor
  · intro served
    obtain ⟨app, target, built, sent, routed⟩ := served.routed
    have inside := split.plainPath_iff.mp served.plain
    have colons : ∀ part ∈ parts, part.head? ≠ some ':' := fun part member => (inside part member).1
    have free : ∀ part ∈ parts, ∀ scalar ∈ part, Uri.endsPath scalar = false :=
      fun part member => (inside part member).2
    rw [routerShared_eq] at built
    have outside : ∀ scalar ∈ host, Uri.endsPath scalar = false := by
      intro scalar member
      by_contra ends
      rw [Bool.not_eq_false] at ends
      rw [split.target_of_ended ⟨scalar, member, ends⟩ sent] at routed
      exact root_unserved laws (split.regular colons) built routed
    rw [split.target_eq outside free] at sent
    split_ifs at sent with legal
    cases sent
    have short := laws.short _ _ _ _ routed
    rw [endpoint] at routed
    have leads := split.reached laws colons built slashless routed
    rw [List.length_append] at short
    exact
      { unended := split.unended_iff.mpr ⟨outside, free⟩
        host := split.host_eq ▸ legal.1
        segments := split.segments_eq ▸ legal.2
        colons := split.segments_eq ▸ colons
        leads := split.segments_eq ▸ leads.symm
        short := split.segments_eq ▸ short }
  · intro plain
    obtain ⟨outside, free⟩ := split.unended_iff.mp plain.unended
    have legal := plain.segments
    have colons := plain.colons
    have leads := plain.leads
    have short := plain.short
    rw [split.segments_eq] at legal colons leads short
    have regular := split.regular colons
    obtain ⟨app, built⟩ := laws.builds _ regular
    have sent : Uri.target (submissionUrl name) =
        some (Uri.join (Uri.walk parts) ++ "/add-checkpoint".toList) := by
      rw [split.target_eq outside free]
      exact if_pos ⟨split.host_eq ▸ plain.host, legal⟩
    refine ⟨split.plainPath_iff.mpr fun part member => ⟨colons part member, free part member⟩,
      app, _, (routerShared_eq axum apiPrefix).trans built, sent, ?_⟩
    have served : (⟨Uri.join (Uri.walk parts) ++ "/add-checkpoint".toList, .post,
        .addCheckpoint⟩ : Route) ∈ servedRoutes apiPrefix := by
      rcases leads with same | root
      · rw [same, ← split.derived]
        exact submission_served apiPrefix
      · rw [root]
        exact List.mem_append_left _ List.mem_cons_self
    refine laws.exact _ _ regular built _ served ?_ ⟨?_, ?_⟩
    · intro brace
      rcases List.mem_append.mp brace with brace | last
      · rw [Uri.mem_join] at brace
        rcases brace with ⟨-, slash⟩ | ⟨part, member, brace⟩
        · cases slash
        · exact (split.solid part (Uri.mem_walk member)).2 '{' brace (by decide)
      · revert last
        decide
    · have ends : ∀ segment ∈ Uri.walk parts ++ ["add-checkpoint".toList], '/' ∉ segment := by
        rw [List.forall_mem_append, List.forall_mem_singleton]
        exact ⟨slashless, by decide⟩
      rw [endpoint, Uri.segments_join ends, List.all_append, Bool.and_eq_true, List.all_eq_true]
      exact ⟨fun part member => legal part (Uri.mem_walk member), by decide⟩
    · rw [List.length_append]
      exact short

end Mounted

/-- A name that a config is loaded with serves its prefix exactly when it is plain, and no config
loads with a name that has no prefix. -/
theorem name_served_iff {axum : Axum} (laws : axum.Laws param) (crates : ConfigCrates)
    (name : Text) :
    (∀ apiPrefix, validateName name = .ok () → prefixFromName name = .ok apiPrefix →
      (Served axum name apiPrefix ↔ PlainName name)) ∧
    ((∀ apiPrefix, ¬ (validateName name = .ok () ∧ prefixFromName name = .ok apiPrefix)) →
      ∀ path file managed text raw, readToString file = .ok text →
        crates.readConfig text = .ok raw → raw.name = name →
          load crates path file managed = .error (.invalidName (.invalidName name)) ∨
            load crates path file managed = .error (.badNamePrefix name)) := by
  constructor
  · intro apiPrefix _ derived
    obtain ⟨host, parts, split⟩ := prefixFromName_ok derived
    exact split.served_iff laws
  · intro refused path file managed text raw read parsed same
    subst same
    rw [load, read]
    simp only [parsed]
    exact validate_refuses managed refused

theorem router_panics_iff {axum : Axum} (laws : axum.Laws param) {name apiPrefix : Text}
    (derived : prefixFromName name = .ok apiPrefix) :
    routerShared axum apiPrefix = none ↔ ['/', ':'] <:+: name := by
  obtain ⟨host, parts, split⟩ := prefixFromName_ok derived
  rw [split.slashed (by decide)]
  constructor
  · intro panics
    by_contra colons
    have regular := split.regular fun part member opens => colons ⟨part, member, opens⟩
    obtain ⟨app, built⟩ := laws.builds _ regular
    rw [routerShared_eq, built] at panics
    cases panics
  · exact split.refused laws

/-- A witness that starts is served under its name exactly when the name in its config is plain. -/
theorem started_served_iff {axum : Axum} (laws : axum.Laws param) {crates : ConfigCrates}
    {raw : RawConfig} {managed : File} {config : LoadedConfig crates.toWitnessCrates}
    (accepted : validate crates raw managed = .ok config) {κ : Type}
    {ed25519 mldsa44 : Except κ LoadedKey} {locked : Bool} {file after : List UInt8}
    {witness : Witness crates.toWitnessCrates}
    (started : Witness.fromConfig crates.toWitnessCrates config.toConfig ed25519 mldsa44 locked
      file = (.ok witness, after)) :
    Served axum witness.name witness.apiPrefix ↔ PlainName raw.name := by
  obtain ⟨entries, accepted⟩ := validate_accepted accepted
  have starts := Witness.fromConfig_starts started
  obtain ⟨host, parts, split⟩ := prefixFromName_ok accepted.derived
  rw [starts.name, starts.apiPrefix, accepted.name]
  exact split.served_iff laws

section Examples

open Reference

/-- `add-checkpoint` is reached under the path of this name. -/
theorem named_path_served : Served axum "witness.example/w1".toList "/w1".toList :=
  ((name_served_iff axum_laws (syncCrates fun _ => []).toConfigCrates _).1 _ (by decide)
    (by decide)).mpr ⟨by decide, by decide, by decide, by decide, by decide, by decide⟩

example : ¬ PlainName "witness.example/<x>".toList := fun plain =>
  absurd (plain.segments "<x>".toList (by decide)) (by decide)

/-- The name is accepted, and the router panics. -/
theorem colon_path_panics :
    validateName "witness.example/:w1".toList = .ok () ∧
      prefixFromName "witness.example/:w1".toList = .ok "/:w1".toList ∧
      routerShared axum "/:w1".toList = none ∧
      ¬ Served axum "witness.example/:w1".toList "/:w1".toList := by
  have panics : routerShared axum "/:w1".toList = none := by decide
  refine ⟨by decide, by decide, panics, ?_⟩
  intro served
  obtain ⟨app, target, built, -⟩ := served.routed
  rw [panics] at built
  cases built

end Examples

end MosskeysWitness
