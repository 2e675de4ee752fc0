import MosskeysWitness.Chain
import MosskeysWitness.Kinship
import MosskeysWitness.Library.Transition

/-! One witness beside another with its own name, keys and clock. Every run of the one is a run of
the other, event for event: what a witness decides has nothing to do with who it is or what time
it is. -/

namespace MosskeysWitness

open MetamorphicLog (Head)
open Relation (ReflTransGen)

variable {crates : WitnessCrates}

namespace Peers

/-- The clock of the other witness, by request. -/
abbrev Clock := Nat → {timestamp : UInt64 // timestamp ≠ 0}

structure SameCommit (clock : Clock) (commit commit' : Commit crates) : Prop where
  id : commit.id = commit'.id
  vetted : commit.vetted = commit'.vetted
  timed : commit'.timestamp = (clock commit.id).val
  head : SameHead crates commit.state commit'.state

inductive SameEvent (clock : Clock) : Event crates → Event crates → Prop
  | vetted (id vetted) : SameEvent clock (.vetted id vetted) (.vetted id vetted)
  | refused (error) : SameEvent clock (.refused error) (.refused error)
  | clockRead (id timestamp) :
      SameEvent clock (.clockRead id timestamp) (.clockRead id (clock id).val)
  | committed {commit commit'} : SameCommit clock commit commit' →
      SameEvent clock (.committed commit) (.committed commit')
  | rejected (id vetted error) :
      SameEvent clock (.rejected id vetted error) (.rejected id vetted error)
  | responded {commit commit'} : SameCommit clock commit commit' →
      SameEvent clock (.responded commit) (.responded commit')
  | served {state state'} : SameHead crates state state' →
      SameEvent clock (.served state) (.served state')

abbrev SameHistory (clock : Clock) (history history' : History crates) : Prop :=
  List.Forall₂ (SameEvent clock) history history'

def retimed (clock : Clock) (request : Pending crates) : Pending crates :=
  { request with timestamp := request.timestamp.map fun _ => clock request.id }

/-- The two are in the same place. The other one never leaves a torn record. -/
inductive Matches (clock : Clock) : World crates → World crates → Prop
  | down {file nextId history history'} : SameHistory clock history history' →
      Matches clock ⟨.down file, nextId, history⟩
        ⟨.down (journalFile crates.toStoreCrates (journal history')), nextId, history'⟩
  | up {process process' nextId history history'} : SameHistory clock history history' →
      process'.witness.logs = process.witness.logs →
      process'.witness.manualLogs = process.witness.manualLogs →
      process'.pending = process.pending.map (retimed clock) →
      List.Forall₂ (SameCommit clock) process.replies process'.replies →
      Matches clock ⟨.up process, nextId, history⟩ ⟨.up process', nextId, history'⟩

section Histories

variable {clock : Clock} {history history' : History crates}

theorem Matches.request {witness : Witness crates} {front back : List (Pending crates)}
    {request : Pending crates} {replies : List (Commit crates)} {nextId : Nat}
    {world' : World crates}
    (same : Matches clock ⟨.up ⟨witness, front ++ request :: back, replies⟩, nextId, history⟩
      world') :
    ∃ witness' replies' history',
      world' = ⟨.up ⟨witness', front.map (retimed clock) ++
        retimed clock request :: back.map (retimed clock), replies'⟩, nextId, history'⟩ ∧
      SameHistory clock history history' ∧ witness'.logs = witness.logs ∧
      witness'.manualLogs = witness.manualLogs ∧
      List.Forall₂ (SameCommit clock) replies replies' := by
  cases same with
  | @up _ process' _ _ history' histories logs manual pending others =>
      rcases process' with ⟨witness', pending', replies'⟩
      dsimp only at pending
      rw [List.map_append, List.map_cons] at pending
      rw [pending]
      exact ⟨witness', replies', history', rfl, histories, logs, manual, others⟩

theorem SameHistory.latest (same : SameHistory clock history history') (origin : Text) :
    Option.Rel (SameHead crates) (latestCommitted history origin)
      (latestCommitted history' origin) := by
  induction same with
  | nil => exact .none
  | cons event _ ih =>
      cases event with
      | committed commit =>
          rw [latestCommitted_committed, latestCommitted_committed, ← commit.head.origin]
          split
          · exact .some commit.head
          · exact ih
      | vetted | refused | clockRead | rejected | responded | served => exact ih

/-- A pairing, taken apart at an item of the one side. -/
theorem split_forall₂ {α β : Type} {related : α → β → Prop} {front back : List α} {item : α}
    {others : List β} (paired : List.Forall₂ related (front ++ item :: back) others) :
    ∃ front' item' back', others = front' ++ item' :: back' ∧ related item item' ∧
      List.Forall₂ related (front ++ back) (front' ++ back') := by
  induction front generalizing others with
  | nil =>
      cases paired with
      | cons first rest => exact ⟨[], _, _, rfl, first, rest⟩
  | cons _ front ih =>
      cases paired with
      | cons first rest =>
          rcases ih rest with ⟨front', item', back', rfl, same, left⟩
          exact ⟨_ :: front', item', back', rfl, same, .cons first left⟩

end Histories

section Decisions

variable {identity identity' : Identity}

/-- Under both names the origin's checkpoints can be signed. -/
def BothSign (identity identity' : Identity) (crates : WitnessCrates) (origin : Text) : Prop :=
  crates.log.SignersSucceed identity.name identity.ed25519.seed identity.mldsa44.seed origin ∧
    crates.log.SignersSucceed identity'.name identity'.ed25519.seed identity'.mldsa44.seed origin

/-- Two witnesses decide on a request alike if they store the same head, whatever their clocks
say. -/
theorem settle_alike (accepts : crates.log.NewNoteAccepts) {vetted : Vetted crates}
    (sign : BothSign identity identity' crates vetted.origin) {current current' : Option LogState}
    (same : Option.Rel (SameHead crates) current current')
    {timestamp timestamp' : UInt64} (timed : timestamp ≠ 0) (timed' : timestamp' ≠ 0) :
    SameDecision (SameHead crates) (settle identity vetted timestamp current)
      (settle identity' vetted timestamp' current') := by
  rcases cosign_succeeds sign.1 accepts timed with ⟨state, body, signed⟩
  rcases cosign_succeeds sign.2 accepts timed' with ⟨state', body', signed'⟩
  apply settle_same same
  rw [signed, signed']
  exact .ok ((cosign_ok signed).sameHead (cosign_ok signed'))

end Decisions

section Signing

variable {identity identity' : Identity}

/-- Under both names every request of the run can be signed. -/
def RequestsSign (identity identity' : Identity) (history : History crates) : Prop :=
  ∀ id vetted, Event.vetted id vetted ∈ history → BothSign identity identity' crates vetted.origin

def SignedStep (identity identity' : Identity) (world next : World crates) : Prop :=
  Step identity world next ∧ RequestsSign identity identity' world.history

theorem RequestsSign.before {world next : World crates}
    (sign : RequestsSign identity identity' next.history) (step : Step identity world next) :
    RequestsSign identity identity' world.history := by
  intro id vetted member
  apply sign id vetted
  cases step with
  | boot | swap | stop => exact member
  | crash =>
      dsimp only
      split
      · exact List.mem_cons_of_mem _ member
      · exact member
  | accept | refuse | readClock | clockFails | commit | reject | respond | monitor =>
      exact List.mem_cons_of_mem _ member

theorem signed_run {start world : World crates} (run : ReflTransGen (Step identity) start world)
    (sign : RequestsSign identity identity' world.history) :
    ReflTransGen (SignedStep identity identity') start world := by
  induction run with
  | refl => exact .refl
  | tail _ step ih => exact (ih (sign.before step)).tail ⟨step, sign.before step⟩

end Signing

section Steps

variable {identity identity' : Identity} {clock : Clock}

/-- A run of each of them, and the same place at the end. -/
structure Beside (identity identity' : Identity) (clock : Clock) (world world' : World crates) :
    Prop where
  first : Reachable identity world
  second : Reachable identity' world'
  same : Matches clock world world'

theorem Beside.next {world next world' next' : World crates}
    (beside : Beside identity identity' clock world world') (reached : Reachable identity next)
    (run : ReflTransGen (Step identity') world' next') (same : Matches clock next next') :
    ∃ image, Beside identity identity' clock next image ∧
      ReflTransGen (Step identity') world' image :=
  ⟨next', ⟨reached, beside.second.trans run, same⟩, run⟩

variable (faithful : crates.toStoreCrates.Faithful)
include faithful

theorem boots_on_journal {config : Config crates} (listed : config.logs ≠ [])
    {journal : List LogState} (named : ∀ state ∈ journal, state.origin ≠ [])
    (identity : Identity) :
    ∃ witness, Witness.fromConfig crates { config with name := identity.name }
        (.ok identity.ed25519 : Except Empty LoadedKey) (.ok identity.mldsa44) false
        (journalFile crates.toStoreCrates journal) =
          (.ok witness, journalFile crates.toStoreCrates journal) ∧
      witness.logs = .collect config.logs ∧ witness.manualLogs = .collect config.manualLogs := by
  have opens := open_journalFile faithful config.stateFile named
  simp only [Witness.fromConfig, if_neg listed, opens]
  exact ⟨_, rfl, rfl, rfl⟩

theorem file_of_reachable {process : Process crates} {nextId : Nat} {history : History crates}
    (reachable : Reachable identity ⟨.up process, nextId, history⟩) :
    process.witness.store.inner =
      ⟨journalFile crates.toStoreCrates (journal history), latestStates (journal history)⟩ :=
  (sound_of_reachable faithful reachable).durable.2

theorem stops_on_journal {process : Process crates} {nextId : Nat} {history : History crates}
    (reachable : Reachable identity ⟨.up process, nextId, history⟩) :
    Step identity ⟨.up process, nextId, history⟩
      ⟨.down (journalFile crates.toStoreCrates (journal history)), nextId, history⟩ := by
  have file := congrArg Inner.file (file_of_reachable faithful reachable)
  dsimp only at file
  rw [← file]
  exact .stop

theorem Beside.monitored {process process' : Process crates} {nextId : Nat}
    {history history' : History crates}
    (beside : Beside identity identity' clock ⟨.up process, nextId, history⟩
      ⟨.up process', nextId, history'⟩) (same : SameHistory clock history history') {hash : Text}
    {state : LogState}
    (found : process.witness.store.FindsByOriginHash crates.toStoreCrates hash state) :
    ∃ state', process'.witness.store.FindsByOriginHash crates.toStoreCrates hash state' ∧
      SameHead crates state state' := by
  rcases found with ⟨⟨origin, held⟩, hashed⟩
  have heads := SameHistory.latest same origin
  rw [file_of_reachable faithful beside.first] at held
  rw [latestCommitted, held] at heads
  generalize stored : latestCommitted history' origin = other at heads
  cases heads with
  | @some _ state' head =>
      refine ⟨state', ⟨⟨origin, ?_⟩, ?_⟩, head⟩
      · rw [file_of_reachable faithful beside.second]
        exact stored
      · rw [← head.origin]
        exact hashed

variable (accepts : crates.log.NewNoteAccepts)

section Turns

variable {witness witness' : Witness crates} {front front' back back' : List (Pending crates)}
  {replies replies' : List (Commit crates)} {nextId id : Nat} {vetted : Vetted crates}
  {history history' : History crates} {timestamp timestamp' : {timestamp : UInt64 // timestamp ≠ 0}}

include accepts in
theorem Beside.decided
    (beside : Beside identity identity' clock
      ⟨.up ⟨witness, front ++ ⟨id, vetted, some timestamp⟩ :: back, replies⟩, nextId, history⟩
      ⟨.up ⟨witness', front' ++ ⟨id, vetted, some timestamp'⟩ :: back', replies'⟩, nextId,
        history'⟩)
    (sign : RequestsSign identity identity' history) (same : SameHistory clock history history') :
    SameDecision (SameHead crates)
      (settle witness.toIdentity vetted timestamp.val (witness.latest vetted.origin))
      (settle witness'.toIdentity vetted timestamp'.val (witness'.latest vetted.origin)) := by
  have turn := (sound_of_reachable faithful beside.first).turn
  have turn' := (sound_of_reachable faithful beside.second).turn
  rw [turn.1, turn'.1, turn.2.1, turn'.2.1]
  exact settle_alike accepts (sign id vetted turn.2.2.1) (SameHistory.latest same vetted.origin)
    timestamp.property timestamp'.property

theorem commits_approved {state : LogState} {body : Text}
    (approved : settle witness'.toIdentity vetted timestamp'.val (witness'.latest vetted.origin) =
      .ok (state, body)) :
    ∃ next, Step identity'
        ⟨.up ⟨witness', front' ++ ⟨id, vetted, some timestamp'⟩ :: back', replies'⟩, nextId,
          history'⟩
        ⟨.up ⟨next, front' ++ back', ⟨id, vetted, timestamp'.val, state, body⟩ :: replies'⟩,
          nextId, .committed ⟨id, vetted, timestamp'.val, state, body⟩ :: history'⟩ ∧
      next.logs = witness'.logs ∧ next.manualLogs = witness'.manualLogs :=
  ⟨_, .commit approved (submit_ok faithful approved), rfl, rfl⟩

end Turns

include accepts in
theorem beside_follows : Transition.Follows (SignedStep identity identity')
    (Step identity') (Beside identity identity' clock : World crates → World crates → Prop) := by
  intro world next world' beside signed
  rcases signed with ⟨step, sign⟩
  have same := beside.same
  have reached : Reachable identity next := beside.first.tail step
  cases step with
  | boot named started =>
      rename_i config file after witness nextId history
      cases same with
      | @down _ _ _ history' histories =>
          have starts := Witness.fromConfig_starts started
          have named' := (sound_of_reachable faithful beside.second).named
          obtain ⟨witness', started', logs, manual⟩ :=
            boots_on_journal faithful starts.nonempty named' identity'
          have boots : Step identity'
              ⟨.down (journalFile crates.toStoreCrates (journal history')), nextId, history'⟩
              ⟨.up ⟨witness', [], []⟩, nextId, history'⟩ := .boot rfl started'
          refine beside.next reached (.single boots) ?_
          exact .up histories (logs.trans starts.logs.symm) (manual.trans starts.manualLogs.symm)
            rfl .nil
  | swap managed =>
      cases same with
      | up histories logs manual pending replies =>
          refine beside.next reached (.single (.swap managed)) ?_
          exact .up histories (congrArg (fun front => front.merge managed) manual) manual pending
            replies
  | accept passed =>
      rename_i process nextId history body vetted
      cases same with
      | up histories logs manual pending replies =>
          have passed' := passed
          rw [← logs] at passed'
          refine beside.next reached (.single (.accept passed')) ?_
          refine .up (.cons (.vetted nextId vetted) histories) logs manual ?_ replies
          rw [pending]
          simp [retimed]
  | refuse failed =>
      cases same with
      | up histories logs manual pending replies =>
          have failed' := failed
          rw [← logs] at failed'
          refine beside.next reached (.single (.refuse failed')) ?_
          exact .up (.cons (.refused _) histories) logs manual pending replies
  | @readClock witness front back replies nextId history id vetted now timestamp read =>
      rcases same.request with ⟨witness', replies', history', rfl, histories, logs, manual, others⟩
      refine beside.next reached
        (.single (.readClock (stamp_nonzero (clock id).property))) ?_
      refine .up (.cons (.clockRead id timestamp.val) histories) logs manual ?_ others
      simp [retimed]
  | @clockFails witness front back replies nextId history id vetted now error failed =>
      rcases same.request with ⟨witness', replies', history', rfl, histories, logs, manual, others⟩
      refine beside.next reached (.single (.clockFails failed)) ?_
      refine .up (.cons (.rejected id vetted error) histories) logs manual ?_ others
      simp
  | @commit witness front back replies nextId history id vetted timestamp state body next
      approved submitted =>
      rcases same.request with ⟨witness', replies', history', rfl, histories, logs, manual, others⟩
      have decided := beside.decided faithful accepts sign histories
      rw [approved] at decided
      generalize also : settle witness'.toIdentity vetted (clock id).val _ = other at decided
      cases decided with
      | @ok _ state' _ body' head =>
        rcases commits_approved faithful also with ⟨next', committed, logs', manual'⟩
        refine beside.next reached (.single committed) ?_
        have commit : SameCommit clock ⟨id, vetted, timestamp.val, state, body⟩
            ⟨id, vetted, (clock id).val, state', body'⟩ := ⟨rfl, rfl, rfl, head⟩
        refine .up (.cons (.committed commit) histories) ?_ ?_ ?_ (.cons commit others)
        · have kept := submit_logs witness vetted timestamp.val none
          rw [submitted] at kept
          exact logs'.trans (logs.trans kept.symm)
        · have kept := submit_manualLogs witness vetted timestamp.val none
          rw [submitted] at kept
          exact manual'.trans (manual.trans kept.symm)
        · simp
  | @reject witness front back replies nextId history id vetted timestamp error next failed =>
      rcases same.request with ⟨witness', replies', history', rfl, histories, logs, manual, others⟩
      rcases settle_of_submit_error faithful failed with ⟨refused, rfl⟩
      have decided := beside.decided faithful accepts sign histories
      rw [refused] at decided
      generalize also : settle witness'.toIdentity vetted (clock id).val _ = other at decided
      cases decided with
      | error =>
          refine beside.next reached (.single (.reject (submit_error none also))) ?_
          refine .up (.cons (.rejected id vetted error) histories) logs manual ?_ others
          simp
  | @respond witness pending front back nextId history commit =>
      cases same with
      | @up _ process' _ _ history' histories logs manual waiting others =>
          rcases process' with ⟨witness', pending', replies'⟩
          rcases split_forall₂ others with ⟨front', commit', back', same', sent, left⟩
          dsimp only at same'
          subst same'
          refine beside.next reached (.single .respond) ?_
          exact .up (.cons (.responded sent) histories) logs manual waiting left
  | monitor found =>
      cases same with
      | up histories logs manual pending replies =>
          rcases beside.monitored faithful histories found with ⟨state', found', head⟩
          refine beside.next reached (.single (.monitor found')) ?_
          exact .up (.cons (.served head) histories) logs manual pending replies
  | stop =>
      cases same with
      | @up _ process' _ _ history' histories logs manual pending replies =>
          have stopped := stops_on_journal faithful beside.second
          exact beside.next reached (.single stopped) (.down histories)
  | @crash witness front back replies nextId history id vetted timestamp state body count
      approved =>
      rcases same.request with ⟨witness', replies', history', rfl, histories, logs, manual, others⟩
      have decided := beside.decided faithful accepts sign histories
      rw [approved] at decided
      generalize also : settle witness'.toIdentity vetted (clock id).val _ = other at decided
      cases decided with
      | @ok _ state' _ body' head =>
        by_cases whole : Whole crates state count
        · rcases commits_approved faithful also with ⟨next', committed, -, -⟩
          have stopped := stops_on_journal faithful (beside.second.tail committed)
          have commit : SameCommit clock ⟨id, vetted, timestamp.val, state, body⟩
              ⟨id, vetted, (clock id).val, state', body'⟩ := ⟨rfl, rfl, rfl, head⟩
          rw [if_pos whole] at reached ⊢
          refine beside.next reached ((ReflTransGen.single committed).tail stopped) ?_
          exact .down (.cons (.committed commit) histories)
        · have stopped := stops_on_journal faithful beside.second
          rw [if_neg whole] at reached ⊢
          exact beside.next reached (.single stopped) (.down histories)

include accepts in
/-- What one witness does, any other that can sign the same may do at the same requests: let in and
turn away the same with the same errors, commit and serve the same heads, under its own name and
keys and at whatever time its clock tells. -/
theorem every_witness_decides_alike (clock : Clock) {world : World crates}
    (reachable : Reachable identity world)
    (sign : RequestsSign identity identity' world.history) :
    ∃ world', Reachable identity' world' ∧ Matches clock world world' ∧
      ∀ origin, Option.Rel (SameHead crates) (latestCommitted world.history origin)
        (latestCommitted world'.history origin) := by
  have start : Beside identity identity' clock (World.initial : World crates) World.initial :=
    ⟨.refl, .refl, .down .nil⟩
  rcases (beside_follows faithful accepts).run (signed_run reachable sign) start with
    ⟨world', beside, -⟩
  refine ⟨world', beside.second, beside.same, ?_⟩
  cases beside.same with
  | down histories => exact SameHistory.latest histories
  | up histories => exact SameHistory.latest histories

end Steps

open Reference

def otherName : Text := ['o', 't', 'h', 'e', 'r']

def otherIdentity : Identity := ⟨otherName, ⟨seed 5, otherName⟩, ⟨seed 6, otherName⟩⟩

/-- The log that had a head cosigned by one witness has it cosigned by the other. -/
theorem two_witnesses_decide_alike : ∃ (world world' : World witnessCrates) (state : LogState),
    Reachable identity world ∧ Reachable otherIdentity world' ∧
      Matches (fun _ => ⟨7, by decide⟩) world world' ∧
      latestCommitted world'.history origin = some state ∧
      state.head = treeHead storeCrates entries 2 := by
  rcases two_records with ⟨witness, first, second, idle, -, extended, latest⟩
  have sign : RequestsSign identity otherIdentity (exchange second ++ exchange first) :=
    fun _ _ _ => ⟨signersSucceed entries (by decide) _ _, signersSucceed entries (by decide) _ _⟩
  obtain ⟨world', reachable, same, heads⟩ := every_witness_decides_alike witnessCrates_faithful
    (newNoteAccepts entries) (fun _ => ⟨7, by decide⟩) idle.reachable sign
  have head := heads origin
  rw [← (sound_of_reachable witnessCrates_faithful idle.reachable).latest rfl, latest] at head
  generalize stored : latestCommitted world'.history origin = other at head
  cases head with
  | @some _ state alike =>
      refine ⟨_, world', state, idle.reachable, reachable, same, stored, ?_⟩
      rw [← extended.head]
      exact Head.ext alike.size.symm alike.root.symm

end Peers

end MosskeysWitness
