import Mathlib.Data.List.DropRight
import Mathlib.Tactic
import MosskeysWitness.Library.Lines

/-! String operations of the Rust standard library, on lists of scalar values. -/

namespace Strings

/-- `char::is_whitespace`: the Unicode property `White_Space`. -/
def isWhitespace (scalar : Char) : Bool :=
  (9 ≤ scalar.toNat && scalar.toNat ≤ 13) || (0x2000 ≤ scalar.toNat && scalar.toNat ≤ 0x200A) ||
    scalar.toNat ∈ [0x20, 0x85, 0xA0, 0x1680, 0x2028, 0x2029, 0x202F, 0x205F, 0x3000]

/-- The control characters C0. -/
def isControl (scalar : Char) : Bool := scalar.toNat < 0x20

theorem isWhitespace_alphanum {scalar : Char} (letter : scalar.isAlphanum = true) :
    isWhitespace scalar = false := by
  have ranges : (65 ≤ scalar.toNat ∧ scalar.toNat ≤ 90) ∨ (97 ≤ scalar.toNat ∧ scalar.toNat ≤ 122) ∨
      (48 ≤ scalar.toNat ∧ scalar.toNat ≤ 57) := by
    have value : scalar.val.toNat = scalar.toNat := rfl
    delta Char.isAlphanum Char.isAlpha Char.isUpper Char.isLower Char.isDigit at letter
    simp only [Bool.or_eq_true, Bool.and_eq_true, decide_eq_true_eq, ge_iff_le,
      UInt32.le_iff_toNat_le, Char.reduceVal, UInt32.reduceToNat, value] at letter
    omega
  simp only [isWhitespace, List.mem_cons, List.not_mem_nil, or_false, Bool.or_eq_false_iff,
    Bool.and_eq_false_iff, decide_eq_false_iff_not]
  omega

def trimEnd (text : List Char) : List Char := text.rdropWhile isWhitespace

def trim (text : List Char) : List Char := (trimEnd text).dropWhile isWhitespace

theorem trimEnd_prefix (text : List Char) : trimEnd text <+: text :=
  List.rdropWhile_prefix isWhitespace text

theorem trimEnd_eq_self {text : List Char} {last : Char} (ends : text.getLast? = some last)
    (solid : isWhitespace last = false) : trimEnd text = text := by
  rw [trimEnd, List.rdropWhile_eq_self_iff]
  intro nonempty
  rw [List.getLast?_eq_some_getLast nonempty, Option.some.injEq] at ends
  simp [ends, solid]

theorem trimEnd_newline (text : List Char) : trimEnd (text ++ ['\n']) = trimEnd text :=
  List.rdropWhile_concat_pos isWhitespace text '\n' (by decide)

/-- `str::split_once` at one scalar. -/
def splitOnce (separator : Char) : List Char → Option (List Char × List Char)
  | [] => none
  | scalar :: rest =>
      if scalar = separator then some ([], rest)
      else (splitOnce separator rest).map fun (line, tail) => (scalar :: line, tail)

theorem splitOnce_eq_some_iff {separator : Char} {text line tail : List Char} :
    splitOnce separator text = some (line, tail) ↔
      text = line ++ separator :: tail ∧ separator ∉ line := by
  induction text generalizing line with
  | nil => simp [splitOnce]
  | cons scalar rest ih =>
      by_cases same : scalar = separator
      · subst same
        cases line with
        | nil => simp [splitOnce]
        | cons head line =>
            simp only [splitOnce, if_true, Option.some.injEq, Prod.mk.injEq, List.cons_append,
              List.cons.injEq, List.mem_cons, not_or]
            constructor
            · intro impossible
              cases impossible.1
            · intro free
              exact absurd free.1.1 free.2.1
      · cases line with
        | nil => simp [splitOnce, same]
        | cons head line =>
            have other : ¬ separator = scalar := Ne.symm same
            simp only [splitOnce, if_neg same, Option.map_eq_some_iff, Prod.exists, Prod.mk.injEq,
              List.cons.injEq, List.cons_append, List.mem_cons, not_or]
            constructor
            · intro found
              rcases found with ⟨front, back, part, ⟨rfl, rfl⟩, rfl⟩
              have whole := (ih.mp part).1
              have free := (ih.mp part).2
              exact ⟨⟨rfl, whole⟩, other, free⟩
            · intro found
              rcases found with ⟨⟨rfl, whole⟩, -, free⟩
              exact ⟨line, tail, ih.mpr ⟨whole, free⟩, ⟨rfl, rfl⟩, rfl⟩

theorem splitOnce_append {separator : Char} {line : List Char} (free : separator ∉ line)
    (tail : List Char) : splitOnce separator (line ++ separator :: tail) = some (line, tail) :=
  splitOnce_eq_some_iff.mpr ⟨rfl, free⟩

/-- The end of a line goes: a line feed, and a carriage return right in front of it. -/
def chomp (line : List Char) : List Char :=
  if line.getLast? = some '\n' then
    if line.dropLast.getLast? = some '\r' then line.dropLast.dropLast else line.dropLast
  else line

def lines (text : List Char) : List (List Char) := (Lines.split '\n' text).map chomp

theorem chomp_newline {line : List Char} (plain : line.getLast? ≠ some '\r') :
    chomp (line ++ ['\n']) = line := by
  simp [chomp, plain]

/-- Lines that hold no line feed, and no carriage return at their end, are read as written. -/
theorem lines_flatMap {texts : List (List Char)}
    (plain : ∀ line ∈ texts, '\n' ∉ line ∧ line.getLast? ≠ some '\r') :
    lines (texts.flatMap fun line => line ++ ['\n']) = texts := by
  have ended : ∀ line ∈ texts.map (fun line => line ++ ['\n']), Lines.Terminated '\n' line := by
    intro line member
    obtain ⟨body, inside, rfl⟩ := List.mem_map.mp member
    exact ⟨body, (plain body inside).1, rfl⟩
  have cut := Lines.split_flatten_append ended []
  rw [List.append_nil, Lines.split_nil, List.append_nil] at cut
  rw [lines, List.flatMap_def, cut, List.map_map]
  calc
    _ = texts.map id := by
      apply List.map_congr_left
      intro line member
      exact chomp_newline (plain line member).2
    _ = texts := List.map_id texts

theorem lines_flatMap_append {texts : List (List Char)} {tail : List Char}
    (plain : ∀ line ∈ texts, '\n' ∉ line ∧ line.getLast? ≠ some '\r') (unended : '\n' ∉ tail) :
    lines ((texts.flatMap fun line => line ++ ['\n']) ++ tail) =
      texts ++ if tail = [] then [] else [tail] := by
  have ended : ∀ line ∈ texts.map (fun line => line ++ ['\n']), Lines.Terminated '\n' line := by
    intro line member
    obtain ⟨body, inside, rfl⟩ := List.mem_map.mp member
    exact ⟨body, (plain body inside).1, rfl⟩
  have cut : lines ((texts.flatMap fun line => line ++ ['\n']) ++ tail) =
      lines (texts.flatMap fun line => line ++ ['\n']) ++ lines tail := by
    have front := Lines.split_flatten_append ended []
    rw [List.append_nil, Lines.split_nil, List.append_nil] at front
    rw [lines, lines, lines, List.flatMap_def, Lines.split_flatten_append ended tail, front,
      List.map_append]
  rw [cut, lines_flatMap plain]
  split_ifs with empty
  · rw [empty]
    rfl
  · have last : tail.getLast? ≠ some '\n' := fun last => unended (List.mem_of_getLast? last)
    rw [lines, Lines.split_unterminated unended empty, List.map_singleton, chomp, if_neg last]

theorem prefix_flatMap {texts : List (List Char)} {text : List Char}
    (starts : text <+: texts.flatMap fun line => line ++ ['\n']) :
    ∃ whole rest tail, texts = whole ++ rest ∧
      text = (whole.flatMap fun line => line ++ ['\n']) ++ tail ∧
      (tail = [] ∨ ∃ line more, rest = line :: more ∧ tail <+: line) := by
  induction texts generalizing text with
  | nil =>
      have empty := List.prefix_nil.mp starts
      exact ⟨[], [], [], rfl, empty, Or.inl rfl⟩
  | cons line texts ih =>
      rw [List.flatMap_cons] at starts
      rcases List.prefix_or_prefix_of_prefix starts (List.prefix_append _ _) with
        inside | ⟨behind, rfl⟩
      · rcases List.prefix_concat_iff.mp inside with rfl | part
        · exact ⟨[line], texts, [], rfl, by simp, Or.inl rfl⟩
        · exact ⟨[], line :: texts, text, rfl, rfl, Or.inr ⟨line, texts, rfl, part⟩⟩
      · obtain ⟨whole, rest, tail, rfl, rfl, cut⟩ :=
          ih ((List.prefix_append_right_inj _).mp starts)
        exact ⟨line :: whole, rest, tail, rfl, by simp, cut⟩

def stripPrefix (front text : List Char) : Option (List Char) :=
  if front.isPrefixOf text then some (text.drop front.length) else none

@[simp] theorem stripPrefix_append (front text : List Char) :
    stripPrefix front (front ++ text) = some text := by
  simp [stripPrefix]

theorem stripPrefix_eq_some_iff {front text rest : List Char} :
    stripPrefix front text = some rest ↔ text = front ++ rest := by
  constructor
  · intro stripped
    unfold stripPrefix at stripped
    split at stripped
    · rename_i opens
      obtain ⟨tail, rfl⟩ := List.isPrefixOf_iff_prefix.mp opens
      simpa [eq_comm] using stripped
    · cases stripped
  · rintro rfl
    exact stripPrefix_append front rest

theorem trim_head {text : List Char} {first : Char} (opens : text.head? = some first)
    (solid : isWhitespace first = false) : (trim text).head? = some first := by
  cases text with
  | nil => cases opens
  | cons head tail =>
      have same : head = first := Option.some.inj opens
      subst same
      have kept : trimEnd (head :: tail) ≠ [] := by
        rw [trimEnd, ne_eq, List.rdropWhile_eq_nil_iff]
        intro blank
        have white := blank head List.mem_cons_self
        rw [solid] at white
        cases white
      obtain ⟨rest, cut⟩ := trimEnd_prefix (head :: tail)
      cases front : trimEnd (head :: tail) with
      | nil => exact absurd front kept
      | cons head' rest' =>
          rw [front, List.cons_append, List.cons.injEq] at cut
          rw [trim, front, cut.1, List.dropWhile_cons_of_neg (by simp [solid])]
          rfl

theorem trim_eq_self {text : List Char} (solid : ∀ scalar ∈ text, isWhitespace scalar = false) :
    trim text = text := by
  have back : trimEnd text = text := by
    rw [trimEnd, List.rdropWhile_eq_self_iff]
    intro nonempty
    simp [solid _ (List.getLast_mem nonempty)]
  rw [trim, back]
  cases text with
  | nil => rfl
  | cons head tail =>
      exact List.dropWhile_cons_of_neg (by simp [solid head List.mem_cons_self])

end Strings
