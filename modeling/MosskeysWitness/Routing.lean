import MosskeysWitness.Config
import MosskeysWitness.Library.Uri

/-! The routes of the service, and the path of its name they are mounted under. -/

namespace MosskeysWitness

inductive Method where
  | get
  | head
  | post
  | other (name : Text)
  deriving DecidableEq

/-- A route for `GET` answers `HEAD` too. -/
def Method.Answers (method request : Method) : Prop :=
  method = request ∨ method = .get ∧ request = .head

instance (method request : Method) : Decidable (method.Answers request) :=
  inferInstanceAs (Decidable (_ ∨ _))

inductive Handler where
  | addCheckpoint
  | latestCheckpoint
  deriving DecidableEq

structure Route where
  path : Text
  method : Method
  handler : Handler
  deriving DecidableEq

/-- `axum::Router`; `route` is `none` where it panics, and `call` where no handler is reached. -/
structure Axum where
  Router : Type
  new : Router
  route : Router → Route → Option Router
  call : Router → Method → Text → Option Handler

namespace Axum

/-- A segment in braces captures one of a request. -/
def capture (name : Text) : Text := '{' :: (name ++ ['}'])

def IsStatic (segment : Text) : Prop :=
  segment ≠ [] ∧ segment.head? ≠ some ':' ∧ ∀ scalar ∈ segment, scalar ∉ ['/', '{', '}', '*']

/-- Routes that no other one of them can conflict with. -/
structure Regular (param : Text) (routes : List Route) : Prop where
  distinct : (routes.map Route.path).Nodup
  segments : ∀ route ∈ routes, ∃ segments ≠ [], route.path = Uri.join segments ∧
    ∀ segment ∈ segments, IsStatic segment ∨ segment = capture param

/-- A request may have the segment where the route has the other one. -/
def Fits (pattern segment : Text) : Prop :=
  pattern = segment ∨ (∃ name, pattern = capture name) ∧ segment ≠ []

instance : DecidablePred IsStatic := fun segment =>
  have : Decidable (∀ scalar ∈ segment, scalar ∉ ['/', '{', '}', '*']) :=
    List.decidableBAll _ segment
  inferInstanceAs (Decidable (_ ∧ _ ∧ _))

theorem segment_slashless {param segment : Text} (named : '/' ∉ param)
    (regular : IsStatic segment ∨ segment = capture param) : '/' ∉ segment := by
  rcases regular with fixed | rfl
  · intro slash
    exact fixed.2.2 '/' slash List.mem_cons_self
  · simp [capture, named]

def build (axum : Axum) (routes : List Route) : Option axum.Router :=
  routes.foldlM axum.route axum.new

/-- The longest target of a request, in bytes. -/
def maxTarget : Nat := 65534

/-- A path that a request can have. -/
structure Sent (path : Text) : Prop where
  legal : (Uri.segments path).all Uri.isSegment = true
  short : path.length ≤ maxTarget

/-- What the crate and the server under it document of their routes, for a parameter with the name
`param`. -/
structure Laws (axum : Axum) (param : Text) : Prop where
  refuses : ∀ router route, (∃ segment ∈ route.path.splitOn '/',
    segment.head? = some ':' ∨ segment.head? = some '*') → axum.route router route = none
  builds : ∀ routes, Regular param routes → ∃ router, axum.build routes = some router
  /-- A route without captures is found by its path, before any route with one. -/
  exact : ∀ routes router, Regular param routes → axum.build routes = some router →
    ∀ route ∈ routes, '{' ∉ route.path → Sent route.path →
      axum.call router route.method route.path = some route.handler
  /-- A handler is only reached through a route that the request fits. -/
  only : ∀ routes router, Regular param routes → axum.build routes = some router →
    ∀ method target handler, axum.call router method target = some handler →
      ∃ route ∈ routes, route.method.Answers method ∧ route.handler = handler ∧
        List.Forall₂ Fits (Uri.segments route.path) (Uri.segments target)
  short : ∀ router method target handler, axum.call router method target = some handler →
    target.length ≤ maxTarget

end Axum

section Mounts

variable (axum : Axum)

def mountApi (router : axum.Router) (base : Text) : Option axum.Router := do
  let router ← axum.route router ⟨base ++ "/add-checkpoint".toList, .post, .addCheckpoint⟩
  axum.route router ⟨base ++ "/{origin_hash}/checkpoint".toList, .get, .latestCheckpoint⟩

/-- `router_shared`, of a witness with this prefix. -/
def routerShared (apiPrefix : Text) : Option axum.Router := do
  let app ← mountApi axum axum.new []
  if apiPrefix ≠ [] then mountApi axum app apiPrefix else pure app

end Mounts

/-- Segments behind slashes, none of them empty or with syntax of a route or the end of a path. -/
def PlainPath (path : Text) : Prop :=
  ∃ segments, path = Uri.join segments ∧ ∀ segment ∈ segments, segment ≠ [] ∧
    segment.head? ≠ some ':' ∧ ∀ scalar ∈ segment, scalar ∉ ['/', '{', '}', '*', '?', '#']

def submissionUrl (name : Text) : Text :=
  "https://".toList ++ name.rdropWhile (· = '/') ++ "/add-checkpoint".toList

def apiRoutes (base : Text) : List Route :=
  [⟨base ++ "/add-checkpoint".toList, .post, .addCheckpoint⟩,
    ⟨base ++ "/{origin_hash}/checkpoint".toList, .get, .latestCheckpoint⟩]

def servedRoutes (apiPrefix : Text) : List Route :=
  apiRoutes [] ++ if apiPrefix ≠ [] then apiRoutes apiPrefix else []

theorem mountApi_eq (axum : Axum) (router : axum.Router) (base : Text) :
    mountApi axum router base = (apiRoutes base).foldlM axum.route router := by
  simp [mountApi, apiRoutes]

theorem routerShared_eq (axum : Axum) (apiPrefix : Text) :
    routerShared axum apiPrefix = axum.build (servedRoutes apiPrefix) := by
  rw [routerShared, Axum.build, servedRoutes, List.foldlM_append, mountApi_eq]
  congr 1
  funext app
  split
  · exact mountApi_eq axum app apiPrefix
  · rfl

section Names

variable {name apiPrefix host : Text} {parts : List Text}

/-- A name as its host, the segments of its path, and the slashes it may end with. -/
structure Split (name apiPrefix host : Text) (parts : List Text) : Prop where
  rootless : '/' ∉ host
  solid : ∀ part ∈ parts, part ≠ [] ∧ ∀ scalar ∈ part, scalar ∉ ['/', '{', '}', '*']
  derived : apiPrefix = Uri.join parts
  ends : apiPrefix.getLast? ≠ some '/'
  whole : ∃ slashes, name = host ++ Uri.join (parts ++ List.replicate slashes [])

theorem prefixFromName_ok (derived : prefixFromName name = .ok apiPrefix) :
    ∃ host parts, Split name apiPrefix host parts := by
  obtain ⟨host, whole, rfl, rootless, -⟩ := Uri.exists_join name
  obtain ⟨parts, slashes, trimmed, plain, ends, cut⟩ := Uri.rdropWhile_join whole
  have accepted : apiPrefix = Uri.join parts ∧ (parts = [] ∨ ¬ ['/', '/'] <:+: Uri.join parts ∧
      ∀ scalar ∈ Uri.join parts, scalar ∉ ['{', '}', '*']) := by
    unfold prefixFromName at derived
    simp only [Uri.dropWhile_join rootless, trimmed] at derived
    split at derived
    · rename_i empty
      rw [Uri.join_eq_nil_iff] at empty
      subst empty
      exact ⟨(Except.ok.inj derived).symm, Or.inl rfl⟩
    · split at derived
      · cases derived
      · rename_i passed
        rw [not_or, List.any_eq_true, not_exists] at passed
        refine ⟨(Except.ok.inj derived).symm, Or.inr ⟨passed.1, ?_⟩⟩
        intro scalar member syntactic
        exact passed.2 scalar ⟨member, decide_eq_true syntactic⟩
  refine ⟨host, parts, rootless, ?_, accepted.1, accepted.1 ▸ ends, slashes, congrArg _ cut⟩
  intro part member
  rcases accepted.2 with rfl | ⟨single, free⟩
  · cases member
  · refine ⟨Uri.segments_nonempty single ends part member, ?_⟩
    intro scalar inside
    have outside := free scalar (Uri.mem_join.mpr (Or.inr ⟨part, member, inside⟩))
    rw [List.mem_cons, not_or]
    exact ⟨ne_of_mem_of_not_mem inside (plain part member), outside⟩

theorem Split.slashless (split : Split name apiPrefix host parts) :
    ∀ part ∈ parts, '/' ∉ part := by
  intro part member slash
  exact (split.solid part member).2 '/' slash List.mem_cons_self

theorem Split.trimmed (split : Split name apiPrefix host parts) :
    name.rdropWhile (· = '/') = host ++ apiPrefix := by
  obtain ⟨slashes, rfl⟩ := split.whole
  have trailing : ∀ scalar ∈ (List.replicate slashes '/').reverse, decide (scalar = '/') := by
    simp
  rw [Uri.join_append, Uri.join_empty, ← List.append_assoc, ← split.derived, List.rdropWhile,
    List.reverse_append, List.dropWhile_append_of_pos trailing]
  change (host ++ apiPrefix).rdropWhile (· = '/') = host ++ apiPrefix
  rw [List.rdropWhile_eq_self_iff]
  intro nonempty slash
  have last : (host ++ apiPrefix).getLast? = some '/' := by
    rw [List.getLast?_eq_some_getLast nonempty, of_decide_eq_true slash]
  rw [List.getLast?_append, Option.or_eq_some_iff] at last
  rcases last with ends | ⟨-, ends⟩
  · exact split.ends ends
  · exact split.rootless (List.mem_of_getLast? ends)

theorem Split.mem_iff (split : Split name apiPrefix host parts) {scalar : Char}
    (other : scalar ≠ '/') :
    scalar ∈ name ↔ scalar ∈ host ∨ ∃ part ∈ parts, scalar ∈ part := by
  obtain ⟨slashes, rfl⟩ := split.whole
  simp [Uri.mem_join, other, Uri.join_empty]

theorem Split.slashed (split : Split name apiPrefix host parts) {scalar : Char}
    (other : scalar ≠ '/') :
    ['/', scalar] <:+: name ↔ ∃ part ∈ parts, part.head? = some scalar := by
  have plain : ∀ slashes, ∀ part ∈ parts ++ List.replicate slashes [], '/' ∉ part := by
    intro slashes part member
    rcases List.mem_append.mp member with member | trailing
    · exact split.slashless part member
    · rw [List.eq_of_mem_replicate trailing]
      exact List.not_mem_nil
  obtain ⟨slashes, rfl⟩ := split.whole
  rw [Uri.slash_infix_append split.rootless, Uri.slash_infix_join other (plain slashes)]
  constructor
  · intro found
    rcases found with ⟨part, member, opens⟩
    rcases List.mem_append.mp member with member | trailing
    · exact ⟨part, member, opens⟩
    · rw [List.eq_of_mem_replicate trailing] at opens
      cases opens
  · intro found
    rcases found with ⟨part, member, opens⟩
    exact ⟨part, List.mem_append_left _ member, opens⟩

end Names

/-- The host in front of the path of a name, and the segments of that path. -/
def nameHost (name : Text) : Text := name.takeWhile (· ≠ '/')

def nameSegments (name : Text) : List Text :=
  Uri.segments ((name.dropWhile (· ≠ '/')).rdropWhile (· = '/'))

/-- The name is the authority of a URI and a path that leads to itself or back to the root, with
nothing in it that ends a path, no segment that starts with a colon, and room for the endpoint. -/
structure PlainName (name : Text) : Prop where
  unended : '?' ∉ name ∧ '#' ∉ name
  host : Uri.isAuthority (nameHost name) = true
  segments : ∀ segment ∈ nameSegments name, Uri.isSegment segment = true
  colons : ∀ segment ∈ nameSegments name, segment.head? ≠ some ':'
  leads : Uri.walk (nameSegments name) = nameSegments name ∨ Uri.walk (nameSegments name) = []
  short : (Uri.join (Uri.walk (nameSegments name))).length + "/add-checkpoint".length ≤
    Axum.maxTarget

section Names

variable {name apiPrefix host : Text} {parts : List Text}

theorem Split.host_eq (split : Split name apiPrefix host parts) : nameHost name = host := by
  obtain ⟨slashes, rfl⟩ := split.whole
  have kept : ∀ scalar ∈ host, decide (scalar ≠ '/') = true := by
    intro scalar member
    simpa using ne_of_mem_of_not_mem member split.rootless
  rw [nameHost, List.takeWhile_append_of_pos kept]
  cases whole : parts ++ List.replicate slashes [] with
  | nil => simp
  | cons first rest => simp

theorem Split.path (split : Split name apiPrefix host parts) :
    (name.dropWhile (· ≠ '/')).rdropWhile (· = '/') = apiPrefix := by
  rcases split.whole with ⟨slashes, rfl⟩
  have trailing : ∀ scalar ∈ (List.replicate slashes '/').reverse, decide (scalar = '/') := by
    simp
  rw [Uri.dropWhile_join split.rootless, Uri.join_append, Uri.join_empty, ← split.derived,
    List.rdropWhile, List.reverse_append, List.dropWhile_append_of_pos trailing]
  change apiPrefix.rdropWhile (· = '/') = apiPrefix
  rw [List.rdropWhile_eq_self_iff]
  intro nonempty slash
  apply split.ends
  rw [List.getLast?_eq_some_getLast nonempty, of_decide_eq_true slash]

theorem Split.segments_eq (split : Split name apiPrefix host parts) :
    nameSegments name = parts := by
  rw [nameSegments, split.path, split.derived, Uri.segments_join split.slashless]

theorem Split.unended_iff (split : Split name apiPrefix host parts) :
    ('?' ∉ name ∧ '#' ∉ name) ↔ (∀ scalar ∈ host, Uri.endsPath scalar = false) ∧
      ∀ part ∈ parts, ∀ scalar ∈ part, Uri.endsPath scalar = false := by
  have free : ∀ text : Text, (∀ scalar ∈ text, Uri.endsPath scalar = false) ↔
      '?' ∉ text ∧ '#' ∉ text := by
    intro text
    constructor
    · intro outside
      constructor
      · intro member
        exact absurd (outside '?' member) (by decide)
      · intro member
        exact absurd (outside '#' member) (by decide)
    · intro absent scalar member
      simp [Uri.endsPath, ne_of_mem_of_not_mem member absent.1,
        ne_of_mem_of_not_mem member absent.2]
  rw [split.mem_iff (by decide), split.mem_iff (by decide)]
  simp only [free, not_or, not_exists, not_and]
  constructor
  · intro plain
    rcases plain with ⟨⟨question, questions⟩, hash, hashes⟩
    exact ⟨⟨question, hash⟩, fun part member => ⟨questions part member, hashes part member⟩⟩
  · intro plain
    rcases plain with ⟨⟨question, hash⟩, inside⟩
    exact ⟨⟨question, fun part member => (inside part member).1⟩,
      hash, fun part member => (inside part member).2⟩

theorem Split.plainPath_iff (split : Split name apiPrefix host parts) :
    PlainPath apiPrefix ↔
      ∀ part ∈ parts, part.head? ≠ some ':' ∧ ∀ scalar ∈ part, Uri.endsPath scalar = false := by
  constructor
  · intro plain
    rcases plain with ⟨segments, same, plain⟩
    have apart : ∀ segment ∈ segments, '/' ∉ segment := by
      intro segment member slash
      exact (plain segment member).2.2 '/' slash List.mem_cons_self
    have equal : parts = segments := by
      rw [← Uri.segments_join split.slashless, ← split.derived, same, Uri.segments_join apart]
    subst equal
    intro part member
    refine ⟨(plain part member).2.1, ?_⟩
    intro scalar inside
    have outside := (plain part member).2.2 scalar inside
    simp only [List.mem_cons, not_or] at outside
    simp [Uri.endsPath, outside]
  · intro plain
    refine ⟨parts, split.derived, ?_⟩
    intro part member
    refine ⟨(split.solid part member).1, (plain part member).1, ?_⟩
    intro scalar inside
    have outside := (split.solid part member).2 scalar inside
    have ends := (plain part member).2 scalar inside
    simp only [Uri.endsPath, List.mem_cons, decide_eq_false_iff_not, not_or] at ends outside ⊢
    simp [outside, ends]

theorem Split.url_eq (split : Split name apiPrefix host parts) :
    submissionUrl name = "https".toList ++ ':' :: '/' :: '/' ::
      (host ++ Uri.join (parts ++ ["add-checkpoint".toList])) := by
  have scheme : "https://".toList = "https".toList ++ [':', '/', '/'] := by decide
  have route : "/add-checkpoint".toList = Uri.join ["add-checkpoint".toList] := by decide
  unfold submissionUrl
  rw [split.trimmed, split.derived, Uri.join_append, scheme, route]
  simp only [List.append_assoc, List.cons_append, List.nil_append]

theorem Split.url_parts (split : Split name apiPrefix host parts)
    (outside : ∀ scalar ∈ host, Uri.endsPath scalar = false)
    (inside : ∀ part ∈ parts, ∀ scalar ∈ part, Uri.endsPath scalar = false) :
    Uri.authority (submissionUrl name) = host ∧
      Uri.path (submissionUrl name) = Uri.join (parts ++ ["add-checkpoint".toList]) ∧
      Uri.behindPath (submissionUrl name) = [] := by
  have rooted : ∀ scalar ∈ host, Uri.endsAuthority scalar = false := by
    intro scalar member
    have slash := ne_of_mem_of_not_mem member split.rootless
    have ends := outside scalar member
    simp only [Uri.endsPath, Uri.endsAuthority, List.mem_cons, decide_eq_false_iff_not] at ends ⊢
    exact not_or.mpr ⟨slash, ends⟩
  have opens : (Uri.join (parts ++ ["add-checkpoint".toList])).head? = some '/' := by
    cases parts <;> rfl
  have free : ∀ scalar ∈ Uri.join (parts ++ ["add-checkpoint".toList]),
      Uri.endsPath scalar = false := by
    intro scalar member
    rw [Uri.mem_join] at member
    rcases member with ⟨-, rfl⟩ | ⟨part, member, inner⟩
    · rfl
    · rcases List.mem_append.mp member with member | last
      · exact inside part member scalar inner
      · have free : ("add-checkpoint".toList.all fun scalar => !Uri.endsPath scalar) = true := by
          decide
        rw [List.mem_singleton] at last
        subst last
        simpa using List.all_eq_true.mp free scalar inner
  rw [split.url_eq]
  exact Uri.parts_of_host (by decide) (by decide) rooted opens free

/-- The request for the URL of a legal name goes where the segments of the name lead. -/
theorem Split.target_eq (split : Split name apiPrefix host parts)
    (outside : ∀ scalar ∈ host, Uri.endsPath scalar = false)
    (inside : ∀ part ∈ parts, ∀ scalar ∈ part, Uri.endsPath scalar = false) :
    Uri.target (submissionUrl name) =
      if Uri.isAuthority host ∧ ∀ part ∈ parts, Uri.isSegment part then
        some (Uri.join (Uri.walk parts) ++ "/add-checkpoint".toList)
      else none := by
  obtain ⟨authority, path, behind⟩ := split.url_parts outside inside
  have slashless : ∀ segment ∈ parts ++ ["add-checkpoint".toList], '/' ∉ segment := by
    rw [List.forall_mem_append, List.forall_mem_singleton]
    exact ⟨split.slashless, by decide⟩
  have scheme : (submissionUrl name).takeWhile (· ≠ ':') = "https".toList := by
    have letters : "https".toList.all (fun scalar => decide (scalar ≠ ':')) = true := by decide
    rw [split.url_eq, List.takeWhile_append_of_pos (List.all_eq_true.mp letters),
      List.takeWhile_cons_of_neg (by simp), List.append_nil]
  have legal : Uri.isUri (submissionUrl name) = true ↔
      Uri.isAuthority host = true ∧ ∀ part ∈ parts, Uri.isSegment part = true := by
    have schemes : Uri.isScheme "https".toList = true := by decide
    have endpoint : Uri.isSegment "add-checkpoint".toList = true := by decide
    rw [Uri.isUri, scheme, authority, path, behind, Uri.segments_join slashless, schemes,
      List.all_append, List.all_cons, endpoint]
    simp [Uri.isTail]
  have absent : Uri.join (parts ++ ["add-checkpoint".toList]) ≠ [] := by simp
  rw [Uri.target, path, Uri.segments_join slashless,
    Uri.resolve_concat (by decide) (by decide), if_neg absent, Uri.join_append]
  simp only [legal]
  rfl

/-- What ends a path in the host leaves the request at the root. -/
theorem Split.target_of_ended (split : Split name apiPrefix host parts)
    (ended : ∃ scalar ∈ host, Uri.endsPath scalar = true) {target : Text}
    (sent : Uri.target (submissionUrl name) = some target) : target = ['/'] := by
  have path : Uri.path (submissionUrl name) = [] := by
    rw [split.url_eq, Uri.path_of_host (by decide) (by decide)]
    exact Uri.path_absent split.rootless ended
  rw [Uri.target, path] at sent
  split at sent
  · exact (Option.some.inj sent).symm
  · cases sent

end Names

section Served

variable {axum : Axum} {apiPrefix : Text} {parts : List Text}

def param : Text := "origin_hash".toList

theorem apiRoutes_join (parts : List Text) : apiRoutes (Uri.join parts) =
    [⟨Uri.join (parts ++ ["add-checkpoint".toList]), .post, .addCheckpoint⟩,
      ⟨Uri.join (parts ++ [Axum.capture param, "checkpoint".toList]), .get,
        .latestCheckpoint⟩] := by
  rw [Uri.join_append, Uri.join_append]
  rfl

theorem mem_servedRoutes {route : Route} (served : route ∈ servedRoutes (Uri.join parts)) :
    ∃ front, (front = [] ∨ front = parts) ∧ route ∈ apiRoutes (Uri.join front) := by
  rw [servedRoutes, List.mem_append] at served
  rcases served with root | named
  · exact ⟨[], Or.inl rfl, root⟩
  · split at named
    · exact ⟨parts, Or.inr rfl, named⟩
    · cases named

theorem submission_served (apiPrefix : Text) :
    ⟨apiPrefix ++ "/add-checkpoint".toList, .post, .addCheckpoint⟩ ∈ servedRoutes apiPrefix := by
  rw [servedRoutes, List.mem_append]
  by_cases rooted : apiPrefix = []
  · subst rooted
    exact Or.inl List.mem_cons_self
  · rw [if_pos rooted]
    exact Or.inr List.mem_cons_self

theorem nodup_mounts {submission monitoring base : Text} (named : base ≠ [])
    (left : ¬ submission <:+ monitoring) (right : ¬ monitoring <:+ submission) :
    [submission, monitoring, base ++ submission, base ++ monitoring].Nodup := by
  have apart : ∀ {front back : Text}, ¬ front <:+ back → back ≠ base ++ front := by
    intro front back outside same
    exact outside ⟨base, same.symm⟩
  have longer : ∀ path : Text, path ≠ base ++ path := by
    intro path same
    exact named (List.append_left_eq_self.mp same.symm)
  have ends : submission ≠ monitoring := by
    intro same
    exact left (same ▸ List.suffix_rfl)
  simp only [List.nodup_cons, List.mem_cons, List.not_mem_nil, or_false, not_or,
    List.append_right_inj, not_false_eq_true, List.nodup_nil, and_true]
  exact ⟨⟨ends, longer submission, apart right⟩, ⟨apart left, longer monitoring⟩, ends⟩

theorem served_regular (fixed : ∀ part ∈ parts, Axum.IsStatic part) :
    Axum.Regular param (servedRoutes (Uri.join parts)) := by
  constructor
  · by_cases rooted : Uri.join parts = []
    · rw [rooted]
      decide
    · rw [servedRoutes, if_pos rooted]
      exact nodup_mounts rooted (by decide) (by decide)
  · intro route served
    obtain ⟨front, either, mounted⟩ := mem_servedRoutes served
    have static : ∀ part ∈ front, Axum.IsStatic part := by
      rcases either with rfl | rfl
      · simp
      · exact fixed
    rw [apiRoutes_join] at mounted
    rcases List.mem_cons.mp mounted with rfl | mounted
    · refine ⟨_, by simp, rfl, ?_⟩
      rw [List.forall_mem_append, List.forall_mem_singleton]
      exact ⟨fun part member => Or.inl (static part member), Or.inl (by decide)⟩
    · rw [List.mem_singleton] at mounted
      subst mounted
      refine ⟨_, by simp, rfl, ?_⟩
      rw [List.forall_mem_append, List.forall_mem_cons, List.forall_mem_singleton]
      exact ⟨fun part member => Or.inl (static part member), Or.inr rfl, Or.inl (by decide)⟩

end Served

end MosskeysWitness
