import MosskeysWitness.Recovery

/-! Runs of one store over one file: opens, accepted and rejected updates, storage errors and
restarts, and what of it the next open finds. -/

namespace MosskeysWitness

variable {crates : StoreCrates} {τ ε : Type}

/-- One `update`: its check, which must not move origins, and how the append fares. -/
structure Call (τ ε : Type) where
  origin : Text
  check : Option LogState → Except ε (LogState × τ)
  keeps : ∀ current state payload, check current = .ok (state, payload) → state.origin = origin
  fault : Option AppendFault

/-- An update that got past its check, and whether it returned `Ok`. -/
structure Attempt where
  state : LogState
  acknowledged : Bool
  deriving DecidableEq

namespace Store

/-- The state the check approves, if it does. -/
def approved (store : Store) (call : Call τ ε) : Option LogState :=
  match call.check (store.inner.states.lookup call.origin) with
  | .error _ => none
  | .ok (state, _) => some state

def perform (crates : StoreCrates) (store : Store) (call : Call τ ε) : Store :=
  (store.update crates call.origin call.check call.fault).2

def attempt (crates : StoreCrates) (store : Store) (call : Call τ ε) : List Attempt :=
  (store.approved call).toList.map fun state =>
    ⟨state, (store.update crates call.origin call.check call.fault).1.isOk⟩

def appended (crates : StoreCrates) (store : Store) (call : Call τ ε) : List UInt8 :=
  match store.approved call with
  | none => []
  | some state => written crates state call.fault

end Store

/-- A run on the file `start`: an open, then calls that `allowed` admits, and reopens. With it
come the attempts made so far, oldest first. -/
inductive Session (crates : StoreCrates) (path : String)
    (allowed : Store → Call τ ε → Prop) (start : List UInt8) : Store → List Attempt → Prop
  | started {store after} :
      Store.open crates path false start = (.ok store, after) →
      Session crates path allowed start store []
  | updated {store attempts} (call : Call τ ε) :
      Session crates path allowed start store attempts → allowed store call →
      Session crates path allowed start (store.perform crates call)
        (attempts ++ store.attempt crates call)
  | reopened {store attempts next after} :
      Session crates path allowed start store attempts →
      Store.open crates path false store.inner.file = (.ok next, after) →
      Session crates path allowed start next attempts

section Update

variable {store : Store} {call : Call τ ε}

theorem rejected_changes_nothing (crates : StoreCrates) (rejected : store.approved call = none) :
    store.perform crates call = store ∧ store.attempt crates call = [] ∧
      store.appended crates call = [] := by
  have outcome : ∃ e, call.check (store.inner.states.lookup call.origin) = .error e := by
    rw [Store.approved] at rejected
    split at rejected
    · rename_i e failed
      exact ⟨e, failed⟩
    · cases rejected
  rcases outcome with ⟨e, failed⟩
  refine ⟨?_, by simp [Store.attempt, rejected], by simp [Store.appended, rejected]⟩
  simp [Store.perform, Store.update, failed]

theorem approved_origin {state : LogState} (accepted : store.approved call = some state) :
    state.origin = call.origin := by
  rw [Store.approved] at accepted
  split at accepted
  · cases accepted
  · rename_i other payload passed
    cases accepted
    exact call.keeps _ _ _ passed

theorem perform_approved (faithful : crates.Faithful) {state : LogState}
    (accepted : store.approved call = some state) :
    store.perform crates call =
        { store with
          inner :=
            { file := store.inner.file ++ written crates state call.fault
              states :=
                if call.fault = none then store.inner.states.insert state.origin state
                else store.inner.states } } ∧
      store.attempt crates call = [⟨state, decide (call.fault = none)⟩] := by
  have kept := approved_origin accepted
  have passed : ∃ payload,
      call.check (store.inner.states.lookup call.origin) = .ok (state, payload) := by
    rw [Store.approved] at accepted
    split at accepted
    · cases accepted
    · rename_i other payload passed
      cases accepted
      exact ⟨payload, passed⟩
  rcases passed with ⟨payload, passed⟩
  have file := append_file faithful store.inner state store.path call.fault
  have result := append_ok_iff faithful store.inner state store.path call.fault
  cases outcome : store.inner.append crates state store.path call.fault with
  | mk status inner =>
      rw [outcome] at file result
      cases file
      cases status with
      | error e =>
          have faulty : call.fault ≠ none := by simpa using result
          simp [Store.perform, Store.attempt, Store.update, accepted, passed, outcome, faulty,
            Except.isOk, Except.toBool]
      | ok done =>
          have clean : call.fault = none := by simpa using result
          rw [clean] at outcome
          simp [Store.perform, Store.attempt, Store.update, accepted, passed, outcome, clean,
            Except.isOk, Except.toBool, kept]

end Update

section Reopen

variable {path : String} {file after : List UInt8} {store : Store}

theorem Reads.terminated {raw : List UInt8} {state : LogState} (read : Reads crates raw state) :
    Reads crates (raw ++ [newline]) state := by
  rcases read with ⟨line, decoded, found⟩
  have bytes := Utf8.encode_of_decode decoded
  refine ⟨line ++ ['\n'], ?_, ?_⟩
  · rw [Utf8.decode_eq_some_iff, Utf8.encode_append, bytes, Utf8.encode_newline]
    rfl
  · rw [readRecord, Strings.trimEnd_newline]
    exact found

/-- A successful open leaves a file of readable terminated lines and the map they stand for. -/
theorem open_ok (succeeded : Store.open crates path false file = (.ok store, after)) :
    ∃ raws journal, List.Forall₂ (Reads crates) raws journal ∧
      (∀ raw ∈ raws, Lines.Terminated newline raw) ∧ after = raws.flatten ∧
      store = opened path after journal := by
  have outcome := opens crates path file
  rw [succeeded] at outcome
  cases outcome with
  | clean reads ended => exact ⟨_, _, reads, ended, rfl, rfl⟩
  | unterminated reads ended free read =>
      rename_i raws journal last state
      refine ⟨raws ++ [last ++ [newline]], journal ++ [state], ?_, ?_, by simp, rfl⟩
      · exact List.rel_append reads (.cons read.terminated .nil)
      · intro other member
        rcases List.mem_append.mp member with inside | final
        · exact ended other inside
        · exact List.mem_singleton.mp final ▸ ⟨last, free, rfl⟩
  | torn reads ended free unreadable => exact ⟨_, _, reads, ended, rfl, rfl⟩
  | damaged reads ended terminated unreadable => exact ⟨_, _, reads, ended, rfl, rfl⟩

theorem open_idempotent (succeeded : Store.open crates path false file = (.ok store, after)) :
    Store.open crates path false after = (.ok store, after) := by
  obtain ⟨raws, journal, reads, ended, rfl, rfl⟩ := open_ok succeeded
  exact open_clean path reads ended

end Reopen

section Fixture

open Reference

def freshStore : Store := ⟨"state.jsonl", ⟨[], ∅⟩⟩

def recordDashed (fault : Option AppendFault) : Call Unit Unit where
  origin := dashed.origin
  check := fun _ => .ok (dashed, ())
  keeps := by
    intro current state payload passed
    cases passed
    rfl
  fault := fault

theorem open_fresh :
    Store.open storeCrates "state.jsonl" false [] = (.ok freshStore, []) := rfl

theorem perform_recordDashed (store : Store) (fault : Option AppendFault) :
    store.perform storeCrates (recordDashed fault) =
        { store with
          inner :=
            { file := store.inner.file ++ written storeCrates dashed fault
              states :=
                if fault = none then store.inner.states.insert dashed.origin dashed
                else store.inner.states } } ∧
      store.attempt storeCrates (recordDashed fault) = [⟨dashed, decide (fault = none)⟩] := by
  have approved : store.approved (recordDashed fault) = some dashed := rfl
  exact perform_approved storeCrates_faithful approved

end Fixture

section MemoryAndDisk

/-- No storage error, and no record without an origin. -/
def Undisturbed (_ : Store) (call : Call τ ε) : Prop := call.fault = none ∧ call.origin ≠ []

variable {path : String} {store : Store} {attempts : List Attempt}

def accepted (attempts : List Attempt) : List LogState :=
  (attempts.filter (·.acknowledged)).map (·.state)

structure Mirrors (crates : StoreCrates) (path : String) (store : Store)
    (journal : List LogState) : Prop where
  named : ∀ state ∈ journal, state.origin ≠ []
  same : store = opened path (journalFile crates journal) journal

theorem Mirrors.replayed (faithful : crates.Faithful) {journal : List LogState}
    (mirrors : Mirrors crates path store journal) :
    Store.open crates path false store.inner.file = (.ok store, store.inner.file) := by
  rcases mirrors with ⟨named, rfl⟩
  exact open_journalFile faithful path named

theorem Mirrors.appended (faithful : crates.Faithful) {journal : List LogState}
    (mirrors : Mirrors crates path store journal) {call : Call τ ε} {state : LogState}
    (clean : Undisturbed store call) (approved : store.approved call = some state) :
    Mirrors crates path (store.perform crates call) (journal ++ [state]) := by
  rcases mirrors with ⟨named, rfl⟩
  have faultless := clean.1
  have origin := clean.2
  have fresh : state.origin ≠ [] := approved_origin approved ▸ origin
  constructor
  · intro other member
    rcases List.mem_append.mp member with inside | last
    · exact named other inside
    · exact List.mem_singleton.mp last ▸ fresh
  · rw [(perform_approved faithful approved).1, faultless]
    simp [opened, written, journalFile, latestStates, LastWins.fold_concat]

/-- The run invariant: file and map stand for the accepted updates. -/
theorem session_mirrors (faithful : crates.Faithful)
    (run : Session crates path (Undisturbed : Store → Call τ ε → Prop) [] store attempts) :
    Mirrors crates path store (accepted attempts) := by
  induction run with
  | started begun =>
      have empty := open_journalFile faithful path (List.forall_mem_nil _)
      rw [journalFile, List.flatMap_nil, begun] at empty
      cases empty
      exact ⟨by simp [accepted], rfl⟩
  | updated call run clean ih =>
      rename_i store attempts
      cases outcome : store.approved call with
      | none =>
          obtain ⟨same, none, -⟩ := rejected_changes_nothing crates outcome
          rw [same, none, List.append_nil]
          exact ih
      | some state =>
          have next := ih.appended faithful clean outcome
          rw [(perform_approved faithful outcome).2, clean.1]
          simpa [accepted] using next
  | reopened run again ih =>
      have replayed := ih.replayed faithful
      rw [again] at replayed
      cases replayed
      exact ih

/-- After every step the file is one line for each accepted update, the map is what those
records fold to, and replaying the file gives the store back unchanged; and whatever a file
holds, a second open finds what the first one left. -/
theorem memory_is_disk (faithful : crates.Faithful)
    (run : Session crates path (Undisturbed : Store → Call τ ε → Prop) [] store attempts) :
    Lines.split newline store.inner.file = (accepted attempts).map (recordLine crates) ∧
      (∀ line ∈ Lines.split newline store.inner.file, Lines.Terminated newline line) ∧
      store.inner.states = latestStates (accepted attempts) ∧
      (∀ state ∈ accepted attempts, (store.latest state.origin).isSome) ∧
      (∀ origin state, store.latest origin = some state → state.origin = origin) ∧
      Store.open crates path false store.inner.file = (.ok store, store.inner.file) ∧
      ∀ file first after, Store.open crates path false file = (.ok first, after) →
        Store.open crates path false after = (.ok first, after) := by
  have mirrors := session_mirrors faithful run
  have file : store.inner.file = journalFile crates (accepted attempts) :=
    congrArg (·.inner.file) mirrors.same
  have states : store.inner.states = latestStates (accepted attempts) :=
    congrArg (·.inner.states) mirrors.same
  have ended := recordLines_terminated faithful (accepted attempts)
  have lines : Lines.split newline store.inner.file =
      (accepted attempts).map (recordLine crates) := by
    have cut := Lines.split_flatten_append ended []
    rw [List.append_nil, Lines.split_nil, List.append_nil] at cut
    rw [file, journalFile_eq_flatten, cut]
  refine ⟨lines, lines ▸ ended, states, ?_, ?_, mirrors.replayed faithful, ?_⟩
  · intro state member
    rw [Store.latest, states]
    exact LastWins.lookup_isSome_of_mem member
  · intro origin state found
    rw [Store.latest, states] at found
    exact LastWins.key_of_lookup found
  · intro file first after succeeded
    exact open_idempotent succeeded

section Example

open Reference

def recordFirst (state : LogState) : Call Unit Unit where
  origin := state.origin
  check := fun current => if current.isSome then .error () else .ok (state, ())
  keeps := by
    intro current other payload passed
    split_ifs at passed
    cases passed
    rfl
  fault := none

theorem perform_recordFirst {state : LogState} (absent : store.latest state.origin = none) :
    (store.perform storeCrates (recordFirst state)).inner.states =
        store.inner.states.insert state.origin state ∧
      store.attempt storeCrates (recordFirst state) = [⟨state, true⟩] := by
  have lookup : store.inner.states.lookup state.origin = none := absent
  have approved : store.approved (recordFirst state) = some state := by
    simp [Store.approved, recordFirst, lookup]
  obtain ⟨performed, made⟩ := perform_approved storeCrates_faithful approved
  rw [performed, made]
  exact ⟨rfl, rfl⟩

def otherDashed : LogState := { dashed with origin := ['m'] }

/-- Two origins have a record each, a third update is rejected, and the file is opened again. -/
theorem two_records_are_on_disk : ∃ store attempts,
    Session storeCrates "state.jsonl" (Undisturbed : Store → Call Unit Unit → Prop) [] store
      attempts ∧
    Lines.split newline store.inner.file =
      [recordLine storeCrates dashed, recordLine storeCrates otherDashed] ∧
    (store.latest dashed.origin).isSome ∧ (store.latest otherDashed.origin).isSome := by
  have undisturbed : ∀ store state, state.origin ≠ [] → Undisturbed store (recordFirst state) :=
    fun _ _ named => ⟨rfl, named⟩
  obtain ⟨first, made⟩ := @perform_recordFirst freshStore dashed rfl
  let second := freshStore.perform storeCrates (recordFirst dashed)
  have absent : second.latest otherDashed.origin = none := by
    rw [Store.latest, first, Finmap.lookup_insert_of_ne _ (by decide)]
    rfl
  obtain ⟨third, made'⟩ := perform_recordFirst absent
  let last := second.perform storeCrates (recordFirst otherDashed)
  have held : last.inner.states.lookup dashed.origin = some dashed := by
    rw [third, Finmap.lookup_insert_of_ne _ (by decide), first, Finmap.lookup_insert]
  have rejected : last.approved (recordFirst dashed) = none := by
    simp [Store.approved, recordFirst, held]
  obtain ⟨same, nothing, -⟩ := rejected_changes_nothing storeCrates rejected
  have run := Session.updated (recordFirst dashed)
    (Session.updated (recordFirst otherDashed)
      (Session.updated (recordFirst dashed) (.started open_fresh)
        (undisturbed _ _ (by decide))) (undisturbed _ _ (by decide)))
    (undisturbed _ _ (by decide))
  rw [same, nothing, made, made'] at run
  have again := (memory_is_disk storeCrates_faithful run).2.2.2.2.2.1
  have reopened := run.reopened again
  obtain ⟨lines, -, -, present, -⟩ := memory_is_disk storeCrates_faithful reopened
  exact ⟨last, _, reopened, lines, present dashed (by simp [accepted]),
    present otherDashed (by simp [accepted])⟩

end Example

end MemoryAndDisk

section StorageErrors

/-- What a file holds when every append met it at a line boundary: readable lines and at most
one more line, cut short between two characters or left without an origin. The journal is what the
next open brings. -/
inductive Layout (crates : StoreCrates) : List UInt8 → List LogState → Prop
  | lines {raws journal} :
      List.Forall₂ (Reads crates) raws journal →
      (∀ raw ∈ raws, Lines.Terminated newline raw) → Layout crates raws.flatten journal
  | torn {raws journal} (state : LogState) (start : Text) :
      List.Forall₂ (Reads crates) raws journal →
      (∀ raw ∈ raws, Lines.Terminated newline raw) → start ≠ [] →
      start <+: recordText crates state →
      start ≠ recordText crates state ∨ state.origin = [] →
      Layout crates (raws.flatten ++ Utf8.encode start) journal
  | bare {raws journal} (state : LogState) :
      List.Forall₂ (Reads crates) raws journal →
      (∀ raw ∈ raws, Lines.Terminated newline raw) → state.origin ≠ [] →
      Layout crates (raws.flatten ++ Utf8.encode (recordText crates state)) (journal ++ [state])

def AtBoundary (file : List UInt8) : Prop := file = [] ∨ file.getLast? = some newline

def Unrestricted (_ : Store) (_ : Call τ ε) : Prop := True

/-- The calls that keep the layout: one that writes nothing, or one that meets the file at a line
boundary, leaves off between two characters if it fails, and is on a named origin if it gets to the
end of its line. -/
def Framed (crates : StoreCrates) (store : Store) (call : Call τ ε) : Prop :=
  store.appended crates call = [] ∨
    ((AtBoundary (store.appended crates call) → call.origin ≠ []) ∧
      AtBoundary store.inner.file ∧ ∃ text, Utf8.encode text = store.appended crates call)

/-- For the last acknowledged update of an origin, `states` has its state or the state of an
update of that origin attempted after it. -/
def Covers (attempts : List Attempt) (states : States) : Prop :=
  ∀ front attempt back, attempts = front ++ attempt :: back → attempt.acknowledged = true →
    (∀ later ∈ back, later.state.origin = attempt.state.origin → later.acknowledged = false) →
    ∃ recovered ∈ attempt :: back, recovered.state.origin = attempt.state.origin ∧
      states.lookup attempt.state.origin = some recovered.state

/-- The promise at a point of a run: were the process to stop here, open would succeed and cover
every acknowledged update. -/
def AcknowledgedSurvive (crates : StoreCrates) (path : String) (store : Store)
    (attempts : List Attempt) : Prop :=
  ∃ recovered after, Store.open crates path false store.inner.file = (.ok recovered, after) ∧
    Covers attempts recovered.inner.states

private theorem concat_cases {attempts front back : List Attempt} {attempt last : Attempt}
    (whole : attempts ++ [attempt] = front ++ last :: back) :
    (back = [] ∧ last = attempt) ∨
      ∃ between, back = between ++ [attempt] ∧ attempts = front ++ last :: between := by
  rcases back.eq_nil_or_concat' with rfl | ⟨between, newest, rfl⟩
  · obtain ⟨-, rest⟩ := List.append_inj' whole rfl
    cases rest
    exact Or.inl ⟨rfl, rfl⟩
  · rw [← List.cons_append, ← List.append_assoc] at whole
    have earlier := (List.append_inj' whole rfl).1
    have rest := (List.append_inj' whole rfl).2
    cases rest
    exact Or.inr ⟨between, rfl, earlier⟩

theorem Covers.recorded {attempts : List Attempt} {journal : List LogState}
    (covers : Covers attempts (latestStates journal)) (attempt : Attempt) :
    Covers (attempts ++ [attempt]) (latestStates (journal ++ [attempt.state])) := by
  intro front last back whole acknowledged final
  rw [latestStates, LastWins.lookup_fold_concat]
  rcases concat_cases whole with ⟨rfl, rfl⟩ | ⟨between, rfl, earlier⟩
  · exact ⟨last, by simp, rfl, by simp⟩
  · by_cases same : attempt.state.origin = last.state.origin
    · exact ⟨attempt, by simp, same, by simp [same]⟩
    · have before : ∀ later ∈ between, later.state.origin = last.state.origin →
          later.acknowledged = false := by
        intro later member
        exact final later (by simp [member])
      obtain ⟨recovered, member, origin, found⟩ := covers front last between earlier acknowledged
        before
      refine ⟨recovered, ?_, origin, ?_⟩
      · rcases List.mem_cons.mp member with first | inside
        · simp [first]
        · simp [inside]
      · rw [if_neg same]
        exact found

theorem Covers.lost {attempts : List Attempt} {states : States}
    (covers : Covers attempts states) {attempt : Attempt}
    (failed : attempt.acknowledged = false) : Covers (attempts ++ [attempt]) states := by
  intro front last back whole acknowledged final
  rcases concat_cases whole with ⟨rfl, rfl⟩ | ⟨between, rfl, earlier⟩
  · rw [failed] at acknowledged
    cases acknowledged
  · have before : ∀ later ∈ between, later.state.origin = last.state.origin →
        later.acknowledged = false := by
      intro later member
      exact final later (by simp [member])
    obtain ⟨recovered, member, origin, found⟩ := covers front last between earlier acknowledged
      before
    refine ⟨recovered, ?_, origin, found⟩
    rcases List.mem_cons.mp member with first | inside
    · simp [first]
    · simp [inside]

variable {path : String} {store : Store} {attempts : List Attempt}

theorem not_atBoundary {front : List UInt8} {text : Text} (nonempty : text ≠ [])
    (free : '\n' ∉ text) : ¬ AtBoundary (front ++ Utf8.encode text) := by
  have bytes : Utf8.encode text ≠ [] := by simp [nonempty]
  intro boundary
  rcases boundary with empty | ends
  · exact bytes (List.append_eq_nil_iff.mp empty).2
  · rw [List.getLast?_append_of_ne_nil _ bytes] at ends
    exact free (Utf8.newline_mem_encode_iff.mp (List.mem_of_getLast? ends))

section Laws

variable (faithful : crates.Faithful)
include faithful

theorem Layout.opens {file : List UInt8} {journal : List LogState}
    (layout : Layout crates file journal) (path : String) :
    ∃ after, Store.open crates path false file = (.ok (opened path after journal), after) := by
  cases layout with
  | lines reads ended => exact ⟨_, open_clean path reads ended⟩
  | torn state start reads ended nonempty part broken =>
      have free : newline ∉ Utf8.encode start := by
        intro member
        exact newline_not_mem_recordText faithful
          (part.subset (Utf8.newline_mem_encode_iff.mp member))
      have single := Lines.split_unterminated free (by simp [nonempty])
      have unreadable : Unreadable crates (Utf8.encode start) := by
        by_cases whole : start = recordText crates state
        · rw [whole]
          exact unreadable_unnamed faithful (broken.resolve_left (not_not_intro whole))
        · exact unreadable_cut faithful part whole
      exact ⟨_, open_dropped path reads ended single unreadable⟩
  | bare state reads ended named =>
      exact ⟨_, open_unterminated path reads ended (by simp [recordText_ne_nil faithful])
        (newline_not_mem_recordBytes faithful) (reads_recordText faithful named)⟩

theorem Layout.lines_of_atBoundary {file : List UInt8} {journal : List LogState}
    (layout : Layout crates file journal) (boundary : AtBoundary file) :
    ∃ raws, file = raws.flatten ∧ List.Forall₂ (Reads crates) raws journal ∧
      ∀ raw ∈ raws, Lines.Terminated newline raw := by
  cases layout with
  | lines reads ended => exact ⟨_, rfl, reads, ended⟩
  | torn state start reads ended nonempty part broken =>
      have free : '\n' ∉ start := fun member =>
        newline_not_mem_recordText faithful (part.subset member)
      exact absurd boundary (not_atBoundary nonempty free)
  | bare state reads ended named =>
      exact absurd boundary
        (not_atBoundary (recordText_ne_nil faithful) (newline_not_mem_recordText faithful))

/-- A framed append keeps the layout. Its record is in the journal after it, or the append
failed and the journal is as before. -/
theorem Layout.append {file : List UInt8} {journal : List LogState}
    (layout : Layout crates file journal) {state : LogState} {fault : Option AppendFault}
    (named : AtBoundary (written crates state fault) → state.origin ≠ [])
    (boundary : AtBoundary file) {text : Text}
    (between : Utf8.encode text = written crates state fault) :
    Layout crates (file ++ written crates state fault) (journal ++ [state]) ∨
      (fault ≠ none ∧ Layout crates (file ++ written crates state fault) journal) := by
  obtain ⟨raws, rfl, reads, ended⟩ := layout.lines_of_atBoundary faithful boundary
  have ends : AtBoundary (recordLine crates state) := by
    obtain ⟨body, -, line⟩ := recordLine_terminated faithful state
    exact Or.inr (by simp [line])
  have whole : state.origin ≠ [] →
      Layout crates (raws.flatten ++ recordLine crates state) (journal ++ [state]) := by
    intro named
    have extended : List.Forall₂ (Reads crates) (raws ++ [recordLine crates state])
        (journal ++ [state]) :=
      List.rel_append reads (.cons (reads_recordLine faithful named) .nil)
    have all : ∀ raw ∈ raws ++ [recordLine crates state], Lines.Terminated newline raw := by
      intro raw member
      rcases List.mem_append.mp member with inside | last
      · exact ended raw inside
      · exact List.mem_singleton.mp last ▸ recordLine_terminated faithful state
    simpa using Layout.lines extended all
  rcases fault with _ | count | _
  · exact Or.inl (whole (named ends))
  · simp only [written] at between named ⊢
    rcases cut_cases between with full | ⟨exact, rfl⟩ | ⟨short, part, proper⟩
    · rw [List.take_of_length_le full] at named ⊢
      exact Or.inl (whole (named ends))
    · rw [← between]
      by_cases unnamed : state.origin = []
      · exact Or.inr ⟨by simp, .torn state _ reads ended (recordText_ne_nil faithful)
          List.prefix_rfl (Or.inr unnamed)⟩
      · exact Or.inl (.bare state reads ended unnamed)
    · rw [← between]
      refine Or.inr ⟨by simp, ?_⟩
      by_cases empty : text = []
      · subst empty
        simpa using Layout.lines reads ended
      · exact .torn state text reads ended empty part (Or.inl proper)
  · exact Or.inl (whole (named ends))

/-- The run invariant: the file keeps the layout, and its journal covers the attempts. -/
theorem session_layout {start : List UInt8}
    (run : Session crates path (Framed crates : Store → Call τ ε → Prop) start store attempts) :
    ∃ journal, Layout crates store.inner.file journal ∧ Covers attempts (latestStates journal) := by
  induction run with
  | started begun =>
      obtain ⟨raws, journal, reads, ended, rfl, rfl⟩ := open_ok begun
      refine ⟨journal, .lines reads ended, ?_⟩
      intro front attempt back whole
      simp at whole
  | updated call run framed ih =>
      rename_i store attempts
      rcases ih with ⟨journal, layout, covers⟩
      cases outcome : store.approved call with
      | none =>
          obtain ⟨same, none, -⟩ := rejected_changes_nothing crates outcome
          rw [same, none, List.append_nil]
          exact ⟨journal, layout, covers⟩
      | some state =>
          have performed := (perform_approved faithful outcome).1
          have made := (perform_approved faithful outcome).2
          have bytes : store.appended crates call = written crates state call.fault := by
            simp [Store.appended, outcome]
          rw [performed, made]
          rcases framed with silent | ⟨named, boundary, text, between⟩
          · -- nothing was written, so the append failed
            have failed : call.fault ≠ none := by
              intro clean
              have terminated := recordLine_terminated faithful state
              rw [bytes, clean] at silent
              exact terminated.ne_nil silent
            refine ⟨journal, ?_, covers.lost (by simp [failed])⟩
            rw [bytes] at silent
            simpa [silent] using layout
          · rw [← approved_origin outcome] at named
            rw [bytes] at named between
            rcases layout.append faithful named boundary between with recorded | ⟨failed, lost⟩
            · exact ⟨journal ++ [state], recorded, covers.recorded _⟩
            · exact ⟨journal, lost, covers.lost (by simp [failed])⟩
  | reopened run again ih =>
      rename_i store attempts next after
      rcases ih with ⟨journal, layout, covers⟩
      obtain ⟨left, opens⟩ := layout.opens faithful path
      rw [again] at opens
      cases opens
      obtain ⟨raws, other, reads, ended, rfl, same⟩ := open_ok again
      have states : latestStates journal = latestStates other :=
        congrArg (·.inner.states) same
      exact ⟨other, .lines reads ended, states ▸ covers⟩

/-- In every run whose appends are framed, stopping at any point and opening the file succeeds
and brings back every acknowledged update or one attempted after it. -/
theorem acknowledged_survive {start : List UInt8}
    (run : Session crates path (Framed crates : Store → Call τ ε → Prop) start store attempts) :
    AcknowledgedSurvive crates path store attempts := by
  obtain ⟨journal, layout, covers⟩ := session_layout faithful run
  obtain ⟨after, opens⟩ := layout.opens faithful path
  exact ⟨opened path after journal, after, opens, covers⟩

end Laws

section Fused

open Reference

/-- The store after an append that left one byte behind. -/
def brokenOff : Store := freshStore.perform storeCrates (recordDashed (some (.write 1)))

theorem written_one : written storeCrates dashed (some (.write 1)) = Utf8.encode ['{'] :=
  recordLine_brace dashed

theorem brokenOff_file : brokenOff.inner.file = Utf8.encode ['{'] := by
  rw [brokenOff, (perform_recordDashed _ _).1, written_one]
  rfl

theorem broken_off_survives :
    AcknowledgedSurvive storeCrates "state.jsonl"
      ((freshStore.perform storeCrates (recordDashed none)).perform storeCrates
        (recordDashed (some (.write 1))))
      [⟨dashed, true⟩, ⟨dashed, false⟩] := by
  let recorded := freshStore.perform storeCrates (recordDashed none)
  have file : recorded.inner.file = recordLine storeCrates dashed := by
    change (freshStore.perform storeCrates (recordDashed none)).inner.file = _
    rw [(perform_recordDashed _ _).1]
    rfl
  have first : Framed storeCrates freshStore (recordDashed none) := by
    have bytes : freshStore.appended storeCrates (recordDashed none) =
        recordLine storeCrates dashed := rfl
    exact Or.inr ⟨fun _ => by decide, Or.inl rfl, _, bytes.symm⟩
  have second : Framed storeCrates recorded (recordDashed (some (.write 1))) := by
    have bytes : recorded.appended storeCrates (recordDashed (some (.write 1))) =
        Utf8.encode ['{'] := written_one
    obtain ⟨body, -, line⟩ := recordLine_terminated storeCrates_faithful dashed
    have boundary : AtBoundary recorded.inner.file := by
      rw [file, line]
      exact Or.inr (by simp)
    exact Or.inr ⟨fun _ => by decide, boundary, ['{'], bytes.symm⟩
  have run := Session.updated _ (Session.updated _ (.started open_fresh) first) second
  rw [(perform_recordDashed _ _).2, (perform_recordDashed _ _).2] at run
  exact acknowledged_survive storeCrates_faithful run

/-- The file of the next, acknowledged update is one line that is no record. -/
theorem fused_unreadable :
    Unreadable storeCrates (Utf8.encode ['{'] ++ recordLine storeCrates dashed) := by
  let record := Record.fromState storeCrates dashed
  have solid : Strings.trimEnd ('{' :: Json.write record) = '{' :: Json.write record := by
    have ends : ('{' :: Json.write record).getLast? = some '}' := by
      rw [List.getLast?_cons, json_faithful.object record _ rfl]
      rfl
    exact Strings.trimEnd_eq_self ends (by decide)
  have doubled : ∀ other, Json.write other ≠ '{' :: Json.write record := by
    intro other same
    have second := congrArg (fun text => text[1]?) same
    simp [Json.write, Json.versionKey] at second
  refine ⟨'{' :: (Json.write record ++ ['\n']), ?_⟩
  cases read : Json.fromStr ('{' :: Json.write record) with
  | ok other => exact absurd (Json.write_of_fromStr read) (doubled other)
  | error message =>
      refine ⟨message, ?_, ?_⟩
      · rw [Utf8.decode_eq_some_iff, ← List.singleton_append, Utf8.encode_append]
        rfl
      · have failed : storeCrates.json.fromStr ('{' :: Json.write record) = .error message := read
        rw [readRecord, ← List.cons_append, Strings.trimEnd_newline, solid, failed]

theorem fused_record_lost :
    ¬ ∀ store attempts,
      Session storeCrates "state.jsonl" (Unrestricted : Store → Call Unit Unit → Prop) []
        store attempts → AcknowledgedSurvive storeCrates "state.jsonl" store attempts := by
  intro survive
  have started : Session storeCrates "state.jsonl"
      (Unrestricted : Store → Call Unit Unit → Prop) [] freshStore [] := .started open_fresh
  have run := Session.updated (recordDashed none)
    (Session.updated (recordDashed (some (.write 1))) started trivial) trivial
  obtain ⟨recovered, after, opens, covers⟩ := survive _ _ run
  change Store.open storeCrates "state.jsonl" false
    (brokenOff.perform storeCrates (recordDashed none)).inner.file = _ at opens
  rw [(perform_recordDashed _ _).2, (perform_recordDashed _ _).2] at covers
  rw [(perform_recordDashed _ _).1, brokenOff_file] at opens
  have terminated : Lines.Terminated newline
      (Utf8.encode ['{'] ++ recordLine storeCrates dashed) := by
    obtain ⟨body, free, line⟩ := recordLine_terminated storeCrates_faithful dashed
    have brace : newline ∉ Utf8.encode ['{'] := by decide
    exact ⟨Utf8.encode ['{'] ++ body, by simp [brace, free], by rw [line]; simp⟩
  have dropped := open_dropped "state.jsonl" .nil (by simp) (Lines.split_single terminated)
    fused_unreadable
  have opened := opens.symm.trans dropped
  cases opened
  obtain ⟨other, member, origin, found⟩ :=
    covers [⟨dashed, false⟩] ⟨dashed, true⟩ [] rfl rfl (by simp)
  simp [opened, latestStates] at found

end Fused

end StorageErrors

end MosskeysWitness
