import Mathlib.Data.List.Basic
import Mathlib.Data.List.Infix
import Mathlib.Tactic

/-! Lists cut after every separator: a line keeps the separator that ends it, and only
the last one may lack it. -/

namespace Lines

variable {α : Type} {separator : α}

def Terminated (separator : α) (line : List α) : Prop :=
  ∃ body, separator ∉ body ∧ line = body ++ [separator]

theorem Terminated.ne_nil {line : List α} (ended : Terminated separator line) : line ≠ [] := by
  rcases ended with ⟨body, _, rfl⟩
  simp

variable [DecidableEq α]

def split (separator : α) : List α → List (List α)
  | [] => []
  | head :: tail =>
      if head = separator then [head] :: split separator tail
      else match split separator tail with
        | [] => [[head]]
        | line :: lines => (head :: line) :: lines

@[simp] theorem split_nil : split separator [] = [] := rfl

@[simp] theorem split_eq_nil_iff {text : List α} : split separator text = [] ↔ text = [] := by
  cases text with
  | nil => simp
  | cons head tail =>
      rw [split]
      split
      · simp
      · split <;> simp

theorem split_flatten (separator : α) (text : List α) : (split separator text).flatten = text := by
  induction text with
  | nil => rfl
  | cons head tail ih =>
      rw [split]
      split
      · simp [ih]
      · split
        · rename_i empty
          rw [empty] at ih
          simpa using ih
        · rename_i line lines found
          rw [found] at ih
          simpa using ih

theorem split_body (body rest : List α) (free : separator ∉ body) :
    split separator (body ++ separator :: rest) =
      (body ++ [separator]) :: split separator rest := by
  induction body with
  | nil => simp [split]
  | cons head tail ih =>
      rw [List.mem_cons, not_or] at free
      have other : head ≠ separator := Ne.symm free.1
      simp only [List.cons_append, split, if_neg other, ih free.2]

theorem split_terminated {line : List α} (ended : Terminated separator line) (rest : List α) :
    split separator (line ++ rest) = line :: split separator rest := by
  rcases ended with ⟨body, free, rfl⟩
  simpa using split_body body rest free

theorem split_unterminated {text : List α} (free : separator ∉ text) (nonempty : text ≠ []) :
    split separator text = [text] := by
  induction text with
  | nil => exact absurd rfl nonempty
  | cons head tail ih =>
      rw [List.mem_cons, not_or] at free
      have other : head ≠ separator := Ne.symm free.1
      cases tail with
      | nil => simp [split, other]
      | cons next more => rw [split, if_neg other, ih free.2 (by simp)]

theorem split_flatten_append {lines : List (List α)}
    (ended : ∀ line ∈ lines, Terminated separator line) (rest : List α) :
    split separator (lines.flatten ++ rest) = lines ++ split separator rest := by
  induction lines with
  | nil => rfl
  | cons line lines ih =>
      simp only [List.flatten_cons, List.append_assoc, List.cons_append]
      rw [split_terminated (ended line (by simp)),
        ih (fun other member => ended other (by simp [member]))]

/-- Every line is terminated, but for an unterminated last one. -/
theorem split_shape (separator : α) (text : List α) :
    ∃ lines tail, (∀ line ∈ lines, Terminated separator line) ∧ separator ∉ tail ∧
      text = lines.flatten ++ tail ∧
      split separator text = lines ++ (if tail = [] then [] else [tail]) := by
  induction text with
  | nil => exact ⟨[], [], by simp, by simp, rfl, rfl⟩
  | cons head tail ih =>
      rcases ih with ⟨lines, last, ended, free, whole, cut⟩
      by_cases same : head = separator
      · subst same
        refine ⟨[head] :: lines, last, ?_, free, by simp [whole], by simp [split, cut]⟩
        intro line member
        rcases List.mem_cons.mp member with rfl | inside
        · exact ⟨[], by simp, rfl⟩
        · exact ended line inside
      · cases lines with
        | nil =>
            simp only [List.flatten_nil, List.nil_append] at whole
            subst whole
            have clean : separator ∉ head :: tail := by simp [free, Ne.symm same]
            refine ⟨[], head :: tail, by simp, clean, by simp, ?_⟩
            simp [split_unterminated clean]
        | cons line lines =>
            refine ⟨(head :: line) :: lines, last, ?_, free, by simp [whole],
              by simp [split, same, cut]⟩
            intro other member
            rcases List.mem_cons.mp member with rfl | inside
            · obtain ⟨body, clean, rfl⟩ := ended line (by simp)
              exact ⟨head :: body, by simp [clean, Ne.symm same], rfl⟩
            · exact ended other (by simp [inside])

theorem split_cons_cases {text line : List α} {lines : List (List α)}
    (cut : split separator text = line :: lines) :
    Terminated separator line ∨ (separator ∉ line ∧ lines = [] ∧ text = line) := by
  obtain ⟨front, tail, ended, free, whole, shape⟩ := split_shape separator text
  rw [cut] at shape
  cases front with
  | nil =>
      by_cases empty : tail = []
      · simp [empty] at shape
      · simp only [if_neg empty, List.nil_append, List.cons.injEq] at shape
        rw [shape.1]
        exact Or.inr ⟨free, shape.2, by simpa using whole⟩
  | cons head front =>
      simp only [List.cons_append, List.cons.injEq] at shape
      rw [shape.1]
      exact Or.inl (ended head (by simp))

theorem split_single {text : List α} (ended : Terminated separator text) :
    split separator text = [text] := by
  have single := split_terminated ended []
  rwa [List.append_nil, split_nil] at single

theorem split_append_of_ends {text : List α} (ends : text.getLast? = some separator)
    (rest : List α) :
    split separator (text ++ rest) = split separator text ++ split separator rest := by
  obtain ⟨lines, tail, ended, free, whole, cut⟩ := split_shape separator text
  have bare : tail = [] := by
    by_contra nonempty
    rw [whole, List.getLast?_append_of_ne_nil _ nonempty] at ends
    exact free (List.mem_of_getLast? ends)
  rw [cut, whole, bare, List.append_nil, split_flatten_append ended]
  simp

/-- Where a text is cut is told by how many separators are in front. -/
theorem cut_unique {left right back back' : List α}
    (same : left ++ separator :: back = right ++ separator :: back')
    (counts : left.count separator = right.count separator) : left = right ∧ back = back' := by
  induction left generalizing right with
  | nil =>
      cases right with
      | nil => simpa using same
      | cons head right =>
          simp only [List.nil_append, List.cons_append, List.cons.injEq] at same
          rw [← same.1, List.count_cons_self] at counts
          simp at counts
  | cons head left ih =>
      cases right with
      | nil =>
          simp only [List.nil_append, List.cons_append, List.cons.injEq] at same
          rw [same.1, List.count_cons_self] at counts
          simp at counts
      | cons head' right =>
          simp only [List.cons_append, List.cons.injEq] at same
          obtain ⟨rfl, same⟩ := same
          rw [List.count_cons, List.count_cons, Nat.add_right_cancel_iff] at counts
          obtain ⟨rfl, rfl⟩ := ih same counts
          exact ⟨rfl, rfl⟩

/-- The last `count` lines. -/
def lastLines (separator : α) (count : Nat) (text : List α) : List α :=
  ((split separator text).drop ((split separator text).length - count)).flatten

theorem lastLines_append {text : List α} (ends : text.getLast? = some separator)
    {lines : List (List α)} (ended : ∀ line ∈ lines, Terminated separator line) :
    lastLines separator lines.length (text ++ lines.flatten) = lines.flatten := by
  have cut : split separator lines.flatten = lines := by
    have alone := split_flatten_append ended []
    rwa [List.append_nil, split_nil, List.append_nil] at alone
  rw [lastLines, split_append_of_ends ends, cut, List.length_append, Nat.add_sub_cancel,
    List.drop_left]

end Lines
