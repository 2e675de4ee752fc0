import Mathlib.Data.List.DropRight
import Mathlib.Data.List.Infix
import Mathlib.Tactic

/-! The grammar of a URI with an authority, where it has its path, and the segments of a path. -/

namespace Uri

def endsAuthority (scalar : Char) : Bool := scalar ∈ ['/', '?', '#']

def endsPath (scalar : Char) : Bool := scalar ∈ ['?', '#']

/-- A scheme is what a colon ends before any other delimiter. -/
def afterScheme (uri : List Char) : List Char :=
  match uri.dropWhile fun scalar => !(scalar = ':' || endsAuthority scalar) with
  | ':' :: rest => if uri.head? = some ':' then uri else rest
  | _ => uri

/-- An authority is what two slashes open. -/
def afterAuthority : List Char → List Char
  | '/' :: '/' :: rest => rest.dropWhile fun scalar => !endsAuthority scalar
  | rest => rest

def path (uri : List Char) : List Char :=
  (afterAuthority (afterScheme uri)).takeWhile fun scalar => !endsPath scalar

def authority (uri : List Char) : List Char :=
  match afterScheme uri with
  | '/' :: '/' :: rest => rest.takeWhile fun scalar => !endsAuthority scalar
  | _ => []

def behindPath (uri : List Char) : List Char :=
  (afterAuthority (afterScheme uri)).dropWhile fun scalar => !endsPath scalar

section Grammar

def isHex (scalar : Char) : Bool :=
  scalar.isDigit || ('a' ≤ scalar && scalar ≤ 'f') || ('A' ≤ scalar && scalar ≤ 'F')

def isUnreserved (scalar : Char) : Bool := scalar.isAlphanum || scalar ∈ ['-', '.', '_', '~']

def isSubDelim (scalar : Char) : Bool :=
  scalar ∈ ['!', '$', '&', '(', ')', '*', '+', ',', ';', '='] || scalar.toNat = 39

def isPchar (scalar : Char) : Bool :=
  isUnreserved scalar || isSubDelim scalar || scalar ∈ [':', '@']

/-- Characters that are allowed, and percent escapes. -/
def isEscaped (allowed : Char → Bool) : List Char → Bool
  | [] => true
  | '%' :: high :: low :: rest => isHex high && isHex low && isEscaped allowed rest
  | scalar :: rest => scalar ≠ '%' && allowed scalar && isEscaped allowed rest

def isSegment : List Char → Bool := isEscaped isPchar

def isScheme : List Char → Bool
  | [] => false
  | first :: rest => first.isAlpha &&
      rest.all fun scalar => scalar.isAlphanum || scalar ∈ ['+', '-', '.']

def isDecOctet (text : List Char) : Bool :=
  text ≠ [] && text.all Char.isDigit && (text.length = 1 || text.head? ≠ some '0') &&
    Nat.ofDigitChars 10 text 0 ≤ 255

def isIpv4 (text : List Char) : Bool :=
  (text.splitOn '.').length = 4 && (text.splitOn '.').all isDecOctet

def isHextet (text : List Char) : Bool := text ≠ [] && text.length ≤ 4 && text.all isHex

/-- How many groups of 16 bits the text has; an IPv4 address may stand for the last two. -/
def hextets (atEnd : Bool) (text : List Char) : Option Nat :=
  if text = [] then some 0
  else
    let pieces := text.splitOn ':'
    if pieces.all isHextet then some pieces.length
    else if atEnd && pieces.dropLast.all isHextet && pieces.getLast?.any isIpv4 then
      some (pieces.length + 1)
    else none

/-- The text around its first two colons in a row. -/
def splitColons : List Char → Option (List Char × List Char)
  | [] => none
  | ':' :: ':' :: rest => some ([], rest)
  | scalar :: rest => (splitColons rest).map fun halves => (scalar :: halves.1, halves.2)

/-- Two colons stand for one group of zeros or more. -/
def isIpv6 (text : List Char) : Bool :=
  match splitColons text with
  | none => hextets true text = some 8
  | some (front, back) =>
      match hextets false front, hextets true back with
      | some first, some rest => first + rest ≤ 7
      | _, _ => false

def isIpFuture : List Char → Bool
  | 'v' :: rest =>
      let version := rest.takeWhile (· ≠ '.')
      let address := (rest.dropWhile (· ≠ '.')).drop 1
      version ≠ [] && version.all isHex && address ≠ [] &&
        address.all fun scalar => isUnreserved scalar || isSubDelim scalar || scalar = ':'
  | _ => false

def isPort : List Char → Bool
  | [] => true
  | ':' :: digits => digits.all Char.isDigit
  | _ => false

/-- A host that is not empty, and a port. -/
def isHostPort : List Char → Bool
  | '[' :: rest =>
      let literal := rest.takeWhile (· ≠ ']')
      ']' ∈ rest && (isIpv6 literal || isIpFuture literal) &&
        isPort ((rest.dropWhile (· ≠ ']')).drop 1)
  | text =>
      let host := text.takeWhile (· ≠ ':')
      host ≠ [] && isEscaped (fun scalar => isUnreserved scalar || isSubDelim scalar) host &&
        isPort (text.dropWhile (· ≠ ':'))

def isAuthority (text : List Char) : Bool :=
  if '@' ∈ text then
    isEscaped (fun scalar => isUnreserved scalar || isSubDelim scalar || scalar = ':')
        (text.takeWhile (· ≠ '@')) &&
      isHostPort ((text.dropWhile (· ≠ '@')).drop 1)
  else isHostPort text

def isQuery : List Char → Bool :=
  isEscaped fun scalar => isPchar scalar || scalar ∈ ['/', '?']

def isTail : List Char → Bool
  | [] => true
  | '?' :: rest =>
      isQuery (rest.takeWhile (· ≠ '#')) && isQuery ((rest.dropWhile (· ≠ '#')).drop 1)
  | _ :: fragment => isQuery fragment

/-- The segment a path stays at, also in its escaped spellings. -/
def dots : List (List Char) := [['.'], ['%', '2', 'e'], ['%', '2', 'E']]

def isDot (segment : List Char) : Bool := dots.contains segment

def isDoubleDot (segment : List Char) : Bool :=
  (dots.flatMap fun first => dots.map (first ++ ·)).contains segment

end Grammar

section Paths

variable {host tail : List Char}

theorem afterScheme_eq {scheme : List Char} (named : scheme ≠ [])
    (plain : (scheme.all fun scalar => !(scalar = ':' || endsAuthority scalar)) = true)
    (rest : List Char) :
    afterScheme (scheme ++ ':' :: '/' :: '/' :: rest) = '/' :: '/' :: rest := by
  have kept : ∀ scalar ∈ scheme, !(scalar = ':' || endsAuthority scalar) := by
    exact List.all_eq_true.mp plain
  have opens : (scheme ++ ':' :: '/' :: '/' :: rest).head? ≠ some ':' := by
    cases scheme with
    | nil => exact absurd rfl named
    | cons first others =>
        intro colon
        have stays := kept first List.mem_cons_self
        rw [Option.some.inj colon] at stays
        cases stays
  rw [afterScheme, List.dropWhile_append_of_pos kept,
    List.dropWhile_cons_of_neg (by simp)]
  exact if_neg opens

theorem path_of_host {scheme : List Char} (named : scheme ≠ [])
    (plain : (scheme.all fun scalar => !(scalar = ':' || endsAuthority scalar)) = true)
    (rest : List Char) :
    path (scheme ++ ':' :: '/' :: '/' :: rest) =
      (rest.dropWhile fun scalar => !endsAuthority scalar).takeWhile fun scalar =>
        !endsPath scalar := by
  rw [path, afterScheme_eq named plain, afterAuthority]

theorem authority_cut (free : ∀ scalar ∈ host, endsAuthority scalar = false)
    (opens : tail.head? = some '/') :
    ((host ++ tail).dropWhile fun scalar => !endsAuthority scalar) = tail := by
  have kept : ∀ scalar ∈ host, !endsAuthority scalar := by
    intro scalar member
    simp [free scalar member]
  rw [List.dropWhile_append_of_pos kept]
  cases tail with
  | nil => rfl
  | cons first rest =>
      rw [List.head?_cons, Option.some.injEq] at opens
      subst opens
      exact List.dropWhile_cons_of_neg (by decide)

theorem path_absent (rootless : '/' ∉ host) (ended : ∃ scalar ∈ host, endsPath scalar = true) :
    (((host ++ tail).dropWhile fun scalar => !endsAuthority scalar).takeWhile fun scalar =>
      !endsPath scalar) = [] := by
  induction host with
  | nil =>
      rcases ended with ⟨scalar, member, -⟩
      cases member
  | cons first rest ih =>
      rw [List.mem_cons, not_or] at rootless
      by_cases stops : endsPath first = true
      · have authority : endsAuthority first = true := by
          simp only [endsPath, endsAuthority, List.mem_cons, decide_eq_true_eq] at stops ⊢
          exact Or.inr stops
        rw [List.cons_append, List.dropWhile_cons_of_neg (by simp [authority]),
          List.takeWhile_cons_of_neg (by simp [stops])]
      · have inside : endsAuthority first = false := by
          simp only [endsPath, endsAuthority, List.mem_cons, decide_eq_true_eq,
            decide_eq_false_iff_not] at stops ⊢
          exact not_or.mpr ⟨Ne.symm rootless.1, stops⟩
        have later : ∃ scalar ∈ rest, endsPath scalar = true := by
          rcases ended with ⟨scalar, member, ends⟩
          rcases List.mem_cons.mp member with rfl | member
          · exact absurd ends stops
          · exact ⟨scalar, member, ends⟩
        rw [List.cons_append, List.dropWhile_cons_of_pos (by simp [inside])]
        exact ih rootless.2 later

theorem parts_of_host {scheme : List Char} (named : scheme ≠ [])
    (plain : (scheme.all fun scalar => !(scalar = ':' || endsAuthority scalar)) = true)
    (rooted : ∀ scalar ∈ host, endsAuthority scalar = false) (opens : tail.head? = some '/')
    (free : ∀ scalar ∈ tail, endsPath scalar = false) :
    authority (scheme ++ ':' :: '/' :: '/' :: (host ++ tail)) = host ∧
      path (scheme ++ ':' :: '/' :: '/' :: (host ++ tail)) = tail ∧
      behindPath (scheme ++ ':' :: '/' :: '/' :: (host ++ tail)) = [] := by
  have kept : ∀ scalar ∈ host, !endsAuthority scalar := by
    intro scalar member
    simp [rooted scalar member]
  have stays : ∀ scalar ∈ tail, !endsPath scalar := by
    intro scalar member
    simp [free scalar member]
  refine ⟨?_, ?_, ?_⟩
  · rw [authority, afterScheme_eq named plain]
    change (host ++ tail).takeWhile (fun scalar => !endsAuthority scalar) = host
    rw [List.takeWhile_append_of_pos kept]
    cases tail with
    | nil => cases opens
    | cons first rest =>
        cases opens
        rw [List.takeWhile_cons_of_neg (by decide), List.append_nil]
  · rw [path_of_host named plain, authority_cut rooted opens]
    exact List.takeWhile_eq_self_iff.mpr stays
  · rw [behindPath, afterScheme_eq named plain, afterAuthority, authority_cut rooted opens]
    exact List.dropWhile_eq_nil_iff.mpr stays

end Paths

def join (segments : List (List Char)) : List Char :=
  segments.flatMap fun segment => '/' :: segment

def segments (path : List Char) : List (List Char) := (path.splitOn '/').tail

/-- One segment further, or one back. -/
def climb (front : List (List Char)) (segment : List Char) : List (List Char) :=
  if isDoubleDot segment then front.dropLast
  else if isDot segment then front
  else front ++ [segment]

/-- Where the segments lead, with the dot segments walked. -/
def walk (segments : List (List Char)) : List (List Char) := segments.foldl climb []

/-- The segments without the dot segments. One at the end leaves its slash. -/
def resolve (segments : List (List Char)) : List (List Char) :=
  match segments.getLast? with
  | some last => if isDot last || isDoubleDot last then walk segments ++ [[]] else walk segments
  | none => []

def isUri (uri : List Char) : Bool :=
  isScheme (uri.takeWhile (· ≠ ':')) && isAuthority (authority uri) &&
    (segments (path uri)).all isSegment && isTail (behindPath uri)

/-- The path that a request for the URI names. An absent one is the root. -/
def target (uri : List Char) : Option (List Char) :=
  if isUri uri then
    some (if path uri = [] then ['/'] else join (resolve (segments (path uri))))
  else none

theorem resolve_concat {parts : List (List Char)} {last : List Char} (single : isDot last = false)
    (double : isDoubleDot last = false) : resolve (parts ++ [last]) = walk parts ++ [last] := by
  simp [resolve, walk, climb, single, double]

theorem mem_foldl_climb {parts front : List (List Char)} {segment : List Char}
    (member : segment ∈ parts.foldl climb front) : segment ∈ front ∨ segment ∈ parts := by
  induction parts generalizing front with
  | nil => exact Or.inl member
  | cons next rest ih =>
      rcases ih member with before | later
      · rw [climb] at before
        split_ifs at before
        · exact Or.inl (List.mem_of_mem_dropLast before)
        · exact Or.inl before
        · rcases List.mem_append.mp before with before | last
          · exact Or.inl before
          · exact Or.inr (List.mem_singleton.mp last ▸ List.mem_cons_self)
      · exact Or.inr (List.mem_cons_of_mem _ later)

theorem mem_walk {parts : List (List Char)} {segment : List Char} (member : segment ∈ walk parts) :
    segment ∈ parts := (mem_foldl_climb member).resolve_left List.not_mem_nil

@[simp] theorem join_nil : join [] = [] := rfl

@[simp] theorem join_cons (segment : List Char) (rest : List (List Char)) :
    join (segment :: rest) = '/' :: (segment ++ join rest) := rfl

@[simp] theorem join_append (front back : List (List Char)) :
    join (front ++ back) = join front ++ join back := List.flatMap_append

@[simp] theorem join_eq_nil_iff {parts : List (List Char)} : join parts = [] ↔ parts = [] := by
  cases parts with
  | nil => simp
  | cons => simp

theorem mem_join {scalar : Char} {parts : List (List Char)} :
    scalar ∈ join parts ↔ parts ≠ [] ∧ scalar = '/' ∨ ∃ segment ∈ parts, scalar ∈ segment := by
  induction parts with
  | nil => simp
  | cons segment rest ih =>
      rw [join_cons, List.mem_cons, List.mem_append, ih]
      simp only [ne_eq, reduceCtorEq, not_false_eq_true, true_and, List.exists_mem_cons_iff]
      tauto

theorem splitOn_join {first : List Char} {parts : List (List Char)} (free : '/' ∉ first)
    (plain : ∀ segment ∈ parts, '/' ∉ segment) :
    (first ++ join parts).splitOn '/' = first :: parts := by
  induction parts generalizing first with
  | nil => rw [join_nil, List.append_nil, List.splitOn_eq_singleton free]
  | cons segment rest ih =>
      rw [List.forall_mem_cons] at plain
      rw [join_cons, List.splitOn_append_cons_self_of_not_mem free, ih plain.1 plain.2]

theorem segments_join {parts : List (List Char)} (plain : ∀ segment ∈ parts, '/' ∉ segment) :
    segments (join parts) = parts := by
  have split := splitOn_join (List.not_mem_nil (a := '/')) plain
  rw [List.nil_append] at split
  rw [segments, split, List.tail_cons]

theorem exists_join (text : List Char) :
    ∃ first parts, text = first ++ join parts ∧ '/' ∉ first ∧ ∀ segment ∈ parts, '/' ∉ segment := by
  induction text with
  | nil => exact ⟨[], [], by simp⟩
  | cons scalar rest ih =>
      obtain ⟨first, parts, rfl, free, plain⟩ := ih
      by_cases slash : scalar = '/'
      · subst slash
        refine ⟨[], first :: parts, by simp, by simp, ?_⟩
        rw [List.forall_mem_cons]
        exact ⟨free, plain⟩
      · refine ⟨scalar :: first, parts, rfl, ?_, plain⟩
        rw [List.mem_cons, not_or]
        exact ⟨Ne.symm slash, free⟩

theorem join_of_isPrefix {text : List Char} {parts : List (List Char)}
    (front : text <+: join parts) : ∃ front,
      text = join front ∧ ∀ segment ∈ front, '/' ∉ segment := by
  obtain ⟨first, segments, rfl, free, plain⟩ := exists_join text
  cases first with
  | nil => exact ⟨segments, rfl, plain⟩
  | cons scalar rest =>
      rw [List.mem_cons, not_or] at free
      cases parts with
      | nil => simp at front
      | cons segment others =>
          rw [join_cons, List.cons_append, List.cons_prefix_cons] at front
          exact absurd front.1.symm free.1

theorem slash_infix_append {text front back : List Char} (free : '/' ∉ front) :
    '/' :: text <:+: front ++ back ↔ '/' :: text <:+: back := by
  induction front with
  | nil => rfl
  | cons first rest ih =>
      rw [List.mem_cons, not_or] at free
      rw [List.cons_append, List.infix_cons_iff, List.cons_prefix_cons, ih free.2]
      simp [free.1]

theorem slash_infix_join {scalar : Char} {parts : List (List Char)} (other : scalar ≠ '/')
    (plain : ∀ segment ∈ parts, '/' ∉ segment) :
    ['/', scalar] <:+: join parts ↔ ∃ segment ∈ parts, segment.head? = some scalar := by
  induction parts with
  | nil => simp
  | cons segment rest ih =>
      rw [List.forall_mem_cons] at plain
      have opens : [scalar] <+: segment ++ join rest ↔ segment.head? = some scalar := by
        cases segment with
        | nil => cases rest <;> simp [other]
        | cons first others => simp [eq_comm]
      rw [join_cons, List.infix_cons_iff, List.cons_prefix_cons, slash_infix_append plain.1,
        ih plain.2, opens, List.exists_mem_cons_iff]
      simp

/-- Slashes stand together in a path only where a segment is empty. -/
theorem single_join {parts : List (List Char)} (solid : ∀ part ∈ parts, part ≠ [] ∧ '/' ∉ part) :
    ¬ ['/', '/'] <:+: join parts := by
  induction parts with
  | nil => simp
  | cons part parts ih =>
      rw [List.forall_mem_cons] at solid
      rcases solid with ⟨⟨nonempty, free⟩, others⟩
      rw [join_cons, List.infix_cons_iff, slash_infix_append free]
      rintro (opens | later)
      · rcases opens with ⟨rest, whole⟩
        have head := congrArg List.head? (List.cons.inj whole).2
        cases part with
        | nil => exact nonempty rfl
        | cons scalar part =>
            cases head
            exact free List.mem_cons_self
      · exact ih others later

theorem segments_nonempty {parts : List (List Char)} (single : ¬ ['/', '/'] <:+: join parts)
    (ends : (join parts).getLast? ≠ some '/') : ∀ segment ∈ parts, segment ≠ [] := by
  intro segment member empty
  subst empty
  obtain ⟨front, back, rfl⟩ := List.append_of_mem member
  cases back with
  | nil =>
      apply ends
      rw [join_append, join_cons, join_nil, List.append_nil, List.getLast?_concat]
  | cons next rest =>
      apply single
      rw [join_append, join_cons, List.nil_append, join_cons]
      exact ⟨join front, next ++ join rest, by simp⟩

theorem join_empty (slashes : Nat) :
    join (List.replicate slashes []) = List.replicate slashes '/' := by
  induction slashes with
  | zero => rfl
  | succ slashes ih =>
      rw [List.replicate_succ, join_cons, ih, List.nil_append, List.replicate_succ]

theorem dropWhile_join {host : List Char} (rootless : '/' ∉ host) (parts : List (List Char)) :
    (host ++ join parts).dropWhile (· ≠ '/') = join parts := by
  have kept : ∀ scalar ∈ host, decide (scalar ≠ '/') := by
    intro scalar member
    simpa using ne_of_mem_of_not_mem member rootless
  rw [List.dropWhile_append_of_pos kept]
  cases parts with
  | nil => rfl
  | cons => exact List.dropWhile_cons_of_neg (by simp)

/-- A path is another one that ends with no slash, and empty segments. -/
theorem rdropWhile_join (whole : List (List Char)) :
    ∃ parts slashes, (join whole).rdropWhile (· = '/') = join parts ∧
      (∀ segment ∈ parts, '/' ∉ segment) ∧ (join parts).getLast? ≠ some '/' ∧
      join whole = join (parts ++ List.replicate slashes []) := by
  obtain ⟨parts, trimmed, plain⟩ := join_of_isPrefix (List.rdropWhile_prefix (· = '/') (join whole))
  obtain ⟨slashes, trailing⟩ :
      ∃ slashes, (join whole).rtakeWhile (· = '/') = List.replicate slashes '/' := by
    refine ⟨_, List.eq_replicate_length.mpr ?_⟩
    intro scalar member
    simpa using List.mem_rtakeWhile_imp member
  have ends : (join parts).getLast? ≠ some '/' := by
    rw [← trimmed]
    intro last
    obtain ⟨front, final⟩ := List.getLast?_eq_some_iff.mp last
    have nonempty : (join whole).rdropWhile (· = '/') ≠ [] := by simp [final]
    have stays := List.rdropWhile_last_not (· = '/') (join whole) nonempty
    simp [final] at stays
  refine ⟨parts, slashes, trimmed, plain, ends, ?_⟩
  calc
    _ = (join whole).rdropWhile (· = '/') ++ (join whole).rtakeWhile (· = '/') :=
      List.rdropWhile_append_rtakeWhile.symm
    _ = join parts ++ join (List.replicate slashes []) := by rw [trimmed, trailing, join_empty]
    _ = _ := (join_append _ _).symm

end Uri
