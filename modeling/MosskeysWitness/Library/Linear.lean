import Mathlib.Tactic

/-! Histories of operations on an object that may die and come back, and what it means that such a
history looks as if the operations had taken effect one at a time. -/

namespace Linear

/-- A sequential object, which may have several answers to an operation. -/
structure Object (σ ω ρ : Type*) where
  initial : σ
  Applies : σ → ω → ρ → σ → Prop

inductive Event (ι ω ρ : Type*) where
  | invoked (id : ι) (op : ω)
  | answered (id : ι) (result : ρ)
  | died

/-- An operation that took effect, with its result. -/
structure Effect (ι ω ρ : Type*) where
  id : ι
  op : ω
  result : ρ

variable {σ ω ρ ι : Type*}

inductive Object.Runs (object : Object σ ω ρ) : List (Effect ι ω ρ) → σ → Prop
  | nil : Runs object [] object.initial
  | concat {order state next} (effect : Effect ι ω ρ) : Runs object order state →
      object.Applies state effect.op effect.result next → Runs object (order ++ [effect]) next

/-- What ends the operation `id`: its answer, or the death of the object it was invoked on. -/
def Ends (earlier : List (Event ι ω ρ)) (id : ι) : Event ι ω ρ → Prop
  | .invoked _ _ => False
  | .answered other _ => other = id
  | .died => ∃ op, .invoked id op ∈ earlier

def Ended (history : List (Event ι ω ρ)) (id : ι) : Prop :=
  ∃ earlier ending later, history = earlier ++ ending :: later ∧ Ends earlier id ending

/-- In real time the operation `first` has ended before `second` is invoked. -/
def Precedes (history : List (Event ι ω ρ)) (first second : ι) : Prop :=
  ∃ earlier ending later op, history = earlier ++ ending :: later ∧ Ends earlier first ending ∧
    .invoked second op ∈ later

/-- The history looks as if the operations of `order` had taken effect in this order and no others
had: the object allows it, each was invoked, every answer is the one it gives, and none takes
effect before one that had ended when it was invoked. -/
structure Linearization (object : Object σ ω ρ) (history : List (Event ι ω ρ))
    (order : List (Effect ι ω ρ)) (state : σ) : Prop where
  legal : object.Runs order state
  once : (order.map Effect.id).Nodup
  invoked : ∀ effect ∈ order, .invoked effect.id effect.op ∈ history
  answered : ∀ id result, .answered id result ∈ history →
    ∃ effect ∈ order, effect.id = id ∧ effect.result = result
  inOrder : order.Pairwise fun first second => ¬ Precedes history second.id first.id

section Append

variable {history : List (Event ι ω ρ)} {event : Event ι ω ρ} {first second id : ι}

theorem ended_concat :
    Ended (history ++ [event]) id ↔ Ended history id ∨ Ends history id event := by
  constructor
  · rintro ⟨earlier, ending, later, whole, ends⟩
    rcases List.eq_nil_or_concat later with rfl | ⟨later, last, rfl⟩
    · rcases List.append_inj' whole rfl with ⟨rfl, same⟩
      cases same
      exact Or.inr ends
    · rw [List.concat_eq_append, ← List.cons_append, ← List.append_assoc] at whole
      rcases List.append_inj' whole rfl with ⟨front, -⟩
      exact Or.inl ⟨earlier, ending, later, front, ends⟩
  · rintro (⟨earlier, ending, later, rfl, ends⟩ | ends)
    · exact ⟨earlier, ending, later ++ [event], by simp, ends⟩
    · exact ⟨history, event, [], rfl, ends⟩

theorem precedes_concat :
    Precedes (history ++ [event]) first second ↔
      Precedes history first second ∨ Ended history first ∧ ∃ op, event = .invoked second op := by
  constructor
  · rintro ⟨earlier, ending, later, op, whole, ends, invoked⟩
    rcases List.eq_nil_or_concat later with rfl | ⟨later, last, rfl⟩
    · cases invoked
    · rw [List.concat_eq_append, ← List.cons_append, ← List.append_assoc] at whole
      rcases List.append_inj' whole rfl with ⟨front, same⟩
      cases same
      rw [List.concat_eq_append, List.mem_append, List.mem_singleton] at invoked
      rcases invoked with before | now
      · exact Or.inl ⟨earlier, ending, later, op, front, ends, before⟩
      · exact Or.inr ⟨⟨earlier, ending, later, front, ends⟩, op, now.symm⟩
  · rintro (⟨earlier, ending, later, op, rfl, ends, invoked⟩ |
      ⟨⟨earlier, ending, later, rfl, ends⟩, op, rfl⟩)
    · exact ⟨earlier, ending, later ++ [event], op, by simp, ends,
        List.mem_append_left _ invoked⟩
    · exact ⟨earlier, ending, later ++ [.invoked second op], op, by simp, ends, by simp⟩

theorem Precedes.ended (precedes : Precedes history first second) : Ended history first := by
  rcases precedes with ⟨earlier, ending, later, -, whole, ends, -⟩
  exact ⟨earlier, ending, later, whole, ends⟩

end Append

/-- A linearization so far, with the operations that may still take effect. -/
structure Standing (object : Object σ ω ρ) (history : List (Event ι ω ρ))
    (order : List (Effect ι ω ρ)) (state : σ) (pending : ι → ω → Prop) : Prop extends
    Linearization object history order state where
  waiting : ∀ id op, pending id op → .invoked id op ∈ history
  untaken : ∀ id op, pending id op → ∀ effect ∈ order, effect.id ≠ id
  running : ∀ id op, pending id op → ¬ Ended history id

namespace Standing

variable {object : Object σ ω ρ} {history : List (Event ι ω ρ)} {order : List (Effect ι ω ρ)}
  {state next : σ} {pending fewer : ι → ω → Prop} {id : ι} {op : ω} {result : ρ}

theorem start : Standing object ([] : List (Event ι ω ρ)) [] object.initial
    fun _ _ => False where
  legal := .nil
  once := List.nodup_nil
  invoked := by simp
  answered := by simp
  inOrder := List.Pairwise.nil
  waiting := by simp
  untaken := by simp
  running := by simp

theorem drop (standing : Standing object history order state pending)
    (kept : ∀ id op, fewer id op → pending id op) :
    Standing object history order state fewer where
  toLinearization := standing.toLinearization
  waiting := fun id op waits => standing.waiting id op (kept id op waits)
  untaken := fun id op waits => standing.untaken id op (kept id op waits)
  running := fun id op waits => standing.running id op (kept id op waits)

theorem fresh_ended (fresh : ∀ op, .invoked id op ∉ history)
    (standing : Standing object history order state pending) : ¬ Ended history id := by
  rintro ⟨earlier, ending, later, rfl, ends⟩
  cases ending with
  | invoked => exact ends
  | answered other result =>
      cases (ends : other = id)
      rcases standing.answered id result (by simp) with ⟨effect, member, named, -⟩
      exact fresh effect.op (named ▸ standing.invoked effect member)
  | died =>
      rcases ends with ⟨op, invoked⟩
      exact fresh op (List.mem_append_left _ invoked)

theorem invoke (standing : Standing object history order state pending)
    (fresh : ∀ op, .invoked id op ∉ history) (op : ω) :
    Standing object (history ++ [.invoked id op]) order state
      fun other op' => pending other op' ∨ other = id ∧ op' = op where
  legal := standing.legal
  once := standing.once
  invoked := fun effect member => List.mem_append_left _ (standing.invoked effect member)
  answered := by
    intro other result answered
    rw [List.mem_append, List.mem_singleton] at answered
    rcases answered with before | now
    · exact standing.answered other result before
    · cases now
  inOrder := by
    refine standing.inOrder.imp_of_mem ?_
    intro first second member _ unordered precedes
    rcases precedes_concat.mp precedes with before | ⟨-, op', now⟩
    · exact unordered before
    · cases now
      exact fresh _ (standing.invoked first member)
  waiting := by
    rintro other op' (waits | ⟨rfl, rfl⟩)
    · exact List.mem_append_left _ (standing.waiting other op' waits)
    · simp
  untaken := by
    rintro other op' (waits | ⟨rfl, rfl⟩) effect member
    · exact standing.untaken other op' waits effect member
    · rintro rfl
      exact fresh _ (standing.invoked effect member)
  running := by
    rintro other op' (waits | ⟨rfl, rfl⟩) ended
    · rcases ended_concat.mp ended with before | now
      · exact standing.running other op' waits before
      · exact now
    · rcases ended_concat.mp ended with before | now
      · exact standing.fresh_ended fresh before
      · exact now

theorem effect (standing : Standing object history order state pending) (waits : pending id op)
    (applies : object.Applies state op result next) :
    Standing object history (order ++ [⟨id, op, result⟩]) next
      fun other op' => pending other op' ∧ other ≠ id where
  legal := .concat ⟨id, op, result⟩ standing.legal applies
  once := by
    rw [List.map_append, List.map_singleton, List.nodup_append]
    refine ⟨standing.once, List.nodup_singleton _, ?_⟩
    intro other member own new
    rcases List.mem_map.mp member with ⟨effect, inside, rfl⟩
    rw [List.mem_singleton.mp new]
    exact standing.untaken id op waits effect inside
  invoked := by
    rw [List.forall_mem_append, List.forall_mem_singleton]
    exact ⟨standing.invoked, standing.waiting id op waits⟩
  answered := by
    intro other result' answered
    rcases standing.answered other result' answered with ⟨effect, member, same⟩
    exact ⟨effect, List.mem_append_left _ member, same⟩
  inOrder := by
    rw [List.pairwise_append]
    refine ⟨standing.inOrder, List.pairwise_singleton _ _, ?_⟩
    intro first _ second new precedes
    rw [List.mem_singleton.mp new] at precedes
    exact standing.running id op waits precedes.ended
  waiting := fun other op' waits => standing.waiting other op' waits.1
  untaken := by
    intro other op' waits effect member
    rcases List.mem_append.mp member with before | new
    · exact standing.untaken other op' waits.1 effect before
    · rw [List.mem_singleton.mp new]
      exact waits.2.symm
  running := fun other op' waits => standing.running other op' waits.1

theorem answer (standing : Standing object history order state pending)
    (taken : ⟨id, op, result⟩ ∈ order) :
    Standing object (history ++ [.answered id result]) order state pending where
  legal := standing.legal
  once := standing.once
  invoked := fun effect member => List.mem_append_left _ (standing.invoked effect member)
  answered := by
    intro other result' answered
    rw [List.mem_append, List.mem_singleton] at answered
    rcases answered with before | now
    · exact standing.answered other result' before
    · cases now
      exact ⟨_, taken, rfl, rfl⟩
  inOrder := by
    refine standing.inOrder.imp ?_
    intro first second unordered precedes
    rcases precedes_concat.mp precedes with before | ⟨-, op', now⟩
    · exact unordered before
    · cases now
  waiting := fun other op' waits => List.mem_append_left _ (standing.waiting other op' waits)
  untaken := standing.untaken
  running := by
    intro other op' waits ended
    rcases ended_concat.mp ended with before | now
    · exact standing.running other op' waits before
    · exact standing.untaken other op' waits _ taken now

theorem die (standing : Standing object history order state pending) :
    Standing object (history ++ [.died]) order state fun _ _ => False where
  legal := standing.legal
  once := standing.once
  invoked := fun effect member => List.mem_append_left _ (standing.invoked effect member)
  answered := by
    intro other result answered
    rw [List.mem_append, List.mem_singleton] at answered
    rcases answered with before | now
    · exact standing.answered other result before
    · cases now
  inOrder := by
    refine standing.inOrder.imp ?_
    intro first second unordered precedes
    rcases precedes_concat.mp precedes with before | ⟨-, op', now⟩
    · exact unordered before
    · cases now
  waiting := by simp
  untaken := by simp
  running := by simp

end Standing

end Linear
