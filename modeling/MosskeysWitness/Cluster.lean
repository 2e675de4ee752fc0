import MosskeysWitness.Library.Transition
import MosskeysWitness.Chain
import MosskeysWitness.Durability

/-! Several instances of one witness, started by hand or by a supervisor, over one state file.
Each has its own memory; the file is shared, and an exclusive lock on it, taken at open and
released by the system when its holder is gone, is all that keeps them apart. -/

namespace MosskeysWitness

structure Cluster (Instance : Type) (crates : WitnessCrates) where
  file : List UInt8
  holder : Option Instance
  processes : Instance → Option (Process crates)
  nextId : Nat
  history : History crates

namespace Cluster

variable {Instance : Type} {crates : WitnessCrates}

def initial : Cluster Instance crates := ⟨[], none, fun _ => none, 0, []⟩

def onFile (process : Process crates) (file : List UInt8) : Process crates :=
  { process with witness.store.inner.file := file }

/-- One step of one of the instances of the witness `identity`. -/
inductive Step [DecidableEq Instance] (identity : Identity) :
    Cluster Instance crates → Cluster Instance crates → Prop
  | started {file holder processes nextId history config witness after} (self : Instance) :
      processes self = none → config.name = identity.name →
      Witness.fromConfig crates config (.ok identity.ed25519 : Except Empty LoadedKey)
        (.ok identity.mldsa44) holder.isSome file = (.ok witness, after) →
      Step identity ⟨file, holder, processes, nextId, history⟩
        ⟨after, some self, Function.update processes self (some ⟨witness, [], []⟩), nextId, history⟩
  | refused {file holder processes nextId history config error after} (self : Instance) :
      processes self = none → config.name = identity.name →
      Witness.fromConfig crates config (.ok identity.ed25519 : Except Empty LoadedKey)
        (.ok identity.mldsa44) holder.isSome file = (.error error, after) →
      Step identity ⟨file, holder, processes, nextId, history⟩
        ⟨after, holder, processes, nextId, history⟩
  | acted {file holder processes nextId history process next nextId' history'} (self : Instance) :
      processes self = some process →
      MosskeysWitness.Step identity ⟨.up (onFile process file), nextId, history⟩
        ⟨.up next, nextId', history'⟩ →
      Step identity ⟨file, holder, processes, nextId, history⟩
        ⟨next.witness.store.inner.file, holder, Function.update processes self (some next), nextId',
          history'⟩
  | ended {file holder processes nextId history process after nextId' history'}
      (self : Instance) :
      processes self = some process →
      MosskeysWitness.Step identity ⟨.up (onFile process file), nextId, history⟩
        ⟨.down after, nextId', history'⟩ →
      Step identity ⟨file, holder, processes, nextId, history⟩
        ⟨after, if holder = some self then none else holder, Function.update processes self none,
          nextId', history'⟩

def Reachable [DecidableEq Instance] (identity : Identity) (cluster : Cluster Instance crates) :
    Prop :=
  Relation.ReflTransGen (Step identity) initial cluster

/-- The single witness that the instances amount to: the one that has the lock, or none. -/
inductive Amounts : Cluster Instance crates → World crates → Prop
  | idle {file processes nextId history} : (∀ other, processes other = none) →
      Amounts ⟨file, none, processes, nextId, history⟩ ⟨.down file, nextId, history⟩
  | running {processes nextId history process} (self : Instance) :
      processes self = some process → (∀ other, other ≠ self → processes other = none) →
      Amounts ⟨process.witness.store.inner.file, some self, processes, nextId, history⟩
        ⟨.up process, nextId, history⟩

section Start

variable {κ : Type} {config : Config crates} {ed25519 mldsa44 : Except κ LoadedKey}
  {file after : List UInt8}

theorem fromConfig_locked {witness : Witness crates} :
    Witness.fromConfig crates config ed25519 mldsa44 true file ≠ (.ok witness, after) := by
  intro started
  have opened := (Witness.fromConfig_starts started).store
  rw [Store.open, if_pos rfl] at opened
  cases opened

theorem fromConfig_error {locked : Bool} {error : StartupError κ}
    (failed : Witness.fromConfig crates config ed25519 mldsa44 locked file =
      (.error error, after)) :
    after = file := by
  unfold Witness.fromConfig at failed
  split_ifs at failed
  · cases failed
    rfl
  · split at failed
    · cases failed
      rfl
    · split at failed
      · cases failed
        rfl
      · cases locked with
        | true =>
            rw [Store.open, if_pos rfl] at failed
            cases failed
            rfl
        | false =>
            have outcome := opens crates.toStoreCrates config.stateFile file
            cases opened : Store.open crates.toStoreCrates config.stateFile false file with
            | mk result left =>
                rw [opened] at failed outcome
                cases outcome with
                | refused =>
                    cases failed
                    rfl
                | clean | unterminated | torn | damaged => cases failed

end Start

variable [DecidableEq Instance] {identity : Identity}

theorem amounts_updated {processes : Instance → Option (Process crates)} {self : Instance}
    (alone : ∀ other, other ≠ self → processes other = none) (process : Process crates)
    (nextId : Nat) (history : History crates) :
    Amounts ⟨process.witness.store.inner.file, some self,
      Function.update processes self (some process), nextId, history⟩
      ⟨.up process, nextId, history⟩ := by
  refine .running self (Function.update_self _ _ _) ?_
  intro other apart
  rw [Function.update_of_ne apart]
  exact alone other apart

/-- Every step of an instance is a step of the single witness, or none of it. -/
theorem amounts_follows : Transition.Follows (Step identity) (MosskeysWitness.Step identity)
    (Amounts : Cluster Instance crates → World crates → Prop) := by
  intro cluster next world amounts step
  cases step with
  | started self absent named started =>
      rename_i file holder processes nextId history config witness after
      cases amounts with
      | idle none_ =>
          rcases open_ok (fromConfig_ok started).1 with ⟨-, journal, -, -, -, opened⟩
          have held : witness.store.inner.file = after := congrArg (·.inner.file) opened
          have image := amounts_updated (fun other (_ : other ≠ self) => none_ other)
            ⟨witness, [], []⟩ nextId history
          rw [held] at image
          exact ⟨_, image, .single (.boot named started)⟩
      | running other up alone => exact absurd started fromConfig_locked
  | refused self absent named failed =>
      rw [fromConfig_error failed]
      exact ⟨world, amounts, .refl⟩
  | acted self up acted =>
      rename_i file holder processes nextId history process next nextId' history'
      cases amounts with
      | idle none_ => simp [none_ self] at up
      | @running _ _ _ running other held alone =>
          have same : self = other := by
            by_contra apart
            simp [alone self apart] at up
          subst same
          rw [held] at up
          cases up
          exact ⟨_, amounts_updated alone next nextId' history', .single acted⟩
  | ended self up ended =>
      rename_i file holder processes nextId history process after nextId' history'
      cases amounts with
      | idle none_ => simp [none_ self] at up
      | @running _ _ _ running other held alone =>
          have same : self = other := by
            by_contra apart
            simp [alone self apart] at up
          subst same
          rw [held] at up
          cases up
          refine ⟨⟨.down after, nextId', history'⟩, ?_, .single ended⟩
          rw [if_pos rfl]
          refine .idle ?_
          intro other
          by_cases apart : other = self
          · rw [apart, Function.update_self]
          · rw [Function.update_of_ne apart]
            exact alone other apart

/-- However many instances are started on the file, and whatever they do together, one runs at
a time, the lock turns every other start away without a trace, and the whole is a run of a single
witness, in whose memory and file the running instance is. -/
theorem instances_are_one_witness (faithful : crates.toStoreCrates.Faithful)
    {cluster : Cluster Instance crates} (reachable : Reachable identity cluster) :
    ∃ world : World crates, MosskeysWitness.Reachable identity world ∧
      world.history = cluster.history ∧
      ∀ self process, cluster.processes self = some process →
        world.machine = .up process ∧
        (∀ other, cluster.processes other ≠ none → other = self) ∧
        (∀ path, Store.open crates.toStoreCrates path cluster.holder.isSome cluster.file =
          (.error (.locked path), cluster.file)) ∧
        process.witness.store.inner.file = cluster.file ∧
        ∀ origin, process.witness.latest origin = latestCommitted cluster.history origin := by
  have start : Amounts (initial : Cluster Instance crates) World.initial := .idle fun _ => rfl
  rcases amounts_follows.run reachable start with ⟨world, amounts, run⟩
  have sound := sound_of_reachable faithful run
  refine ⟨world, run, ?_, ?_⟩
  · cases amounts <;> rfl
  · intro self process up
    cases amounts with
    | idle none_ => simp [none_ self] at up
    | @running _ _ _ running holder held alone =>
        have same : self = holder := by
          by_contra apart
          simp [alone self apart] at up
        subst same
        have one := held.symm.trans up
        cases one
        refine ⟨rfl, ?_, ?_, rfl, fun origin => sound.latest rfl origin⟩
        · intro other runs
          by_contra apart
          exact runs (alone other apart)
        · intro path
          rw [Store.open, Option.isSome_some, if_pos rfl]

open Reference in
theorem second_instance_locked_out : ∃ cluster : Cluster Bool witnessCrates,
    Reachable Reference.identity cluster ∧ cluster.processes true = none ∧
      (cluster.processes false).isSome ∧
      Store.open storeCrates "state.jsonl" cluster.holder.isSome cluster.file =
        (.error (.locked "state.jsonl"), cluster.file) := by
  rcases config_starts with ⟨witness, started, -⟩
  have step : Step Reference.identity (initial : Cluster Bool witnessCrates) _ :=
    .started false rfl rfl started
  have reachable := Relation.ReflTransGen.single step
  rcases instances_are_one_witness storeCrates_faithful reachable with ⟨world, -, -, one⟩
  rcases one false ⟨witness, [], []⟩ rfl with ⟨-, -, locked, -⟩
  exact ⟨_, reachable, rfl, rfl, locked "state.jsonl"⟩

end Cluster

end MosskeysWitness
