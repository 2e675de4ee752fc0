import MosskeysWitness.Library.WriteBack
import MosskeysWitness.Library.Transition
import MosskeysWitness.Durability
import MosskeysWitness.SplitView

/-! The store on a machine that can lose power. The state file sits behind a write-back cache,
`open` and `append` are taken apart into their writes and syncs, and at every point between two of
them the process may die or the whole machine go down. -/

namespace MosskeysWitness

/-- Where the process is that holds the state file. -/
inductive Device.Phase where
  | down
  /-- `set_len` has cut off a torn tail; its `sync_all` comes next. -/
  | cutting (states : States) (needsNewline : Bool)
  /-- The missing newline is written; its `sync_all` comes next. -/
  | framing (states : States)
  | serving (states : States)
  /-- Inside `append`, under the lock, with the bytes of the line that are still to be written. -/
  | appending (states : States) (state : LogState) (left : List UInt8)

/-- Beside the file and the process, the updates that got past their check, oldest first. -/
structure Device where
  file : WriteBack
  phase : Device.Phase
  attempts : List Attempt

namespace Device

/-- The state file is empty, and its directory entry is on the disk: `open` creates the file without
syncing the directory, so that the entry has to be there before the first power loss. -/
def initial : Device := ⟨⟨[], []⟩, .down, []⟩

def Phase.unfinished : Phase → List Attempt
  | .appending _ state _ => [⟨state, false⟩]
  | _ => []

def framed (file : WriteBack) (attempts : List Attempt) (states : States) (needsNewline : Bool) :
    Device :=
  if needsNewline then ⟨file.perform (.append [newline]), .framing states, attempts⟩
  else ⟨file, .serving states, attempts⟩

/-- `decides current state`: a check that sees `current` may approve `state`. -/
abbrev Decision := Option LogState → LogState → Prop

/-- One step. No write or sync reports an error; `dies` says in which phases the process may end
while the machine stays up. -/
inductive Step (crates : StoreCrates) (path : String) (decides : Decision)
    (dies : Phase → Prop) : Device → Device → Prop
  | opened {file attempts states needsNewline} :
      replay crates path file.contents = (.ok (states, needsNewline), file.contents) →
      Step crates path decides dies ⟨file, .down, attempts⟩
        (framed file attempts states needsNewline)
  | torn {file attempts states needsNewline kept} :
      replay crates path file.contents = (.ok (states, needsNewline), kept) →
      kept ≠ file.contents →
      Step crates path decides dies ⟨file, .down, attempts⟩
        ⟨file.perform (.truncate kept.length), .cutting states needsNewline, attempts⟩
  | cut {file attempts states needsNewline} :
      Step crates path decides dies ⟨file, .cutting states needsNewline, attempts⟩
        (framed file.sync attempts states needsNewline)
  | framed {file attempts states} :
      Step crates path decides dies ⟨file, .framing states, attempts⟩
        ⟨file.sync, .serving states, attempts⟩
  | approve {file attempts states state text} :
      decides (states.lookup state.origin) state → state.origin ≠ [] →
      crates.json.toString (Record.fromState crates state) = .ok text →
      Step crates path decides dies ⟨file, .serving states, attempts⟩
        ⟨file, .appending states state (Utf8.encode (text ++ ['\n'])), attempts⟩
  | write {file attempts states state left} (chunk : List UInt8) :
      Step crates path decides dies ⟨file, .appending states state (chunk ++ left), attempts⟩
        ⟨file.perform (.append chunk), .appending states state left, attempts⟩
  | synced {file attempts states state} :
      Step crates path decides dies ⟨file, .appending states state [], attempts⟩
        ⟨file.sync, .serving (states.insert state.origin state), attempts ++ [⟨state, true⟩]⟩
  | killed {file attempts phase} : dies phase →
      Step crates path decides dies ⟨file, phase, attempts⟩
        ⟨file, .down, attempts ++ phase.unfinished⟩
  | powerLoss {file attempts phase bytes} : file.Leaves bytes →
      Step crates path decides dies ⟨file, phase, attempts⟩
        ⟨⟨bytes, []⟩, .down, attempts ++ phase.unfinished⟩

def Reachable (crates : StoreCrates) (path : String) (decides : Decision) (dies : Phase → Prop)
    (device : Device) : Prop :=
  Relation.ReflTransGen (Step crates path decides dies) initial device

def AnyTime (_ : Phase) : Prop := True

def AtRest : Phase → Prop
  | .down | .serving _ => True
  | .cutting _ _ | .framing _ | .appending _ _ _ => False

section Records

variable {decides : Decision}

/-- `journal` has every acknowledged attempt and some of the others, in order, each decided on the
latest record of its origin before it. -/
inductive Records (decides : Decision) : List Attempt → List LogState → Prop
  | none : Records decides [] []
  | recorded {attempts journal} (attempt : Attempt) :
      Records decides attempts journal → attempt.state.origin ≠ [] →
      decides ((latestStates journal).lookup attempt.state.origin) attempt.state →
      Records decides (attempts ++ [attempt]) (journal ++ [attempt.state])
  | lost {attempts journal} {attempt : Attempt} :
      Records decides attempts journal → attempt.acknowledged = false →
      Records decides (attempts ++ [attempt]) journal

variable {attempts : List Attempt} {journal : List LogState}

theorem Records.named (records : Records decides attempts journal) :
    ∀ state ∈ journal, state.origin ≠ [] := by
  induction records with
  | none => exact List.forall_mem_nil _
  | recorded attempt _ fresh _ ih =>
      intro state member
      rcases List.mem_append.mp member with inside | last
      · exact ih state inside
      · exact List.mem_singleton.mp last ▸ fresh
  | lost _ _ ih => exact ih

theorem Records.covers (records : Records decides attempts journal) :
    Covers attempts (latestStates journal) := by
  induction records with
  | none =>
      intro front attempt back whole
      simp at whole
  | recorded attempt _ _ _ ih => exact ih.recorded attempt
  | lost _ failed ih => exact ih.lost failed

theorem Records.sublist (records : Records decides attempts journal) :
    (accepted attempts).Sublist journal := by
  induction records with
  | none => exact List.Sublist.slnil
  | recorded attempt _ _ _ ih =>
      cases acknowledged : attempt.acknowledged with
      | true => simpa [accepted, acknowledged] using ih
      | false =>
          have shorter : (accepted _).Sublist _ :=
            ih.trans (List.sublist_append_left _ [attempt.state])
          simpa [accepted, acknowledged] using shorter
  | lost _ failed ih => simpa [accepted, failed] using ih

end Records

section Invariant

variable {decides : Decision} {attempts : List Attempt} {journal : List LogState}

/-- A content of the file that stands for a journal of the attempts. -/
def Possible (crates : StoreCrates) (decides : Decision) (attempts : List Attempt)
    (bytes : List UInt8) : Prop :=
  ∃ journal, Records decides attempts journal ∧ Disk crates bytes journal

/-- What a process in memory goes by, given what it sees of the file. -/
def Stands (crates : StoreCrates) (decides : Decision) (attempts : List Attempt)
    (contents : List UInt8) : Phase → Prop
  | .down => True
  | .cutting states needsNewline =>
      ∃ journal, Records decides attempts journal ∧ states = latestStates journal ∧
        contents ++ (if needsNewline then [newline] else []) = journalFile crates journal
  | .framing states | .serving states =>
      ∃ journal, Records decides attempts journal ∧ states = latestStates journal ∧
        contents = journalFile crates journal
  | .appending states state left =>
      ∃ journal part, Records decides attempts journal ∧ states = latestStates journal ∧
        decides ((latestStates journal).lookup state.origin) state ∧ state.origin ≠ [] ∧
        contents = journalFile crates journal ++ part ∧ part ++ left = recordLine crates state

structure Safe (crates : StoreCrates) (decides : Decision) (device : Device) : Prop where
  left : ∀ bytes, device.file.Leaves bytes →
    Possible crates decides (device.attempts ++ device.phase.unfinished) bytes
  stands : Stands crates decides device.attempts device.file.contents device.phase

section Replay

variable {crates : StoreCrates} {path : String}

theorem replayLines_prefix (file : List UInt8) (lines : List (List UInt8)) (offset recordNo : Nat)
    (states : States) (needsNewline : Bool) :
    (replayLines crates path file lines offset recordNo states needsNewline).2 <+: file := by
  induction lines generalizing offset recordNo states needsNewline with
  | nil => exact List.prefix_rfl
  | cons raw more ih =>
      rw [replayLines]
      split
      · exact List.prefix_rfl
      · split
        · exact ih _ _ _ _
        · split
          · exact List.take_prefix _ _
          · split <;> exact List.prefix_rfl

theorem replay_prefix {bytes kept : List UInt8} {result : Except StoreError (States × Bool)}
    (replayed : replay crates path bytes = (result, kept)) : kept <+: bytes := by
  have part : (replayLines crates path bytes (Lines.split newline bytes) 0 0 ∅ false).2 <+: bytes :=
    replayLines_prefix bytes _ 0 0 ∅ false
  rw [replay] at replayed
  rwa [replayed] at part

end Replay

section Preservation

variable {crates : WitnessCrates} (faithful : crates.toStoreCrates.Faithful) {path : String}
  {dies : Phase → Prop}
include faithful

/-- A replay that gets through finds the journal, up to a newline that is still missing. -/
theorem replays {bytes kept : List UInt8} {states : States} {needsNewline : Bool}
    (disk : Disk crates.toStoreCrates bytes journal) (named : ∀ state ∈ journal, state.origin ≠ [])
    (replayed : replay crates.toStoreCrates path bytes = (.ok (states, needsNewline), kept)) :
    states = latestStates journal ∧
      kept ++ (if needsNewline then [newline] else []) =
        journalFile crates.toStoreCrates journal := by
  let file := if needsNewline then kept ++ [newline] else kept
  have succeeded : Store.open crates.toStoreCrates path false bytes =
      (.ok ⟨path, ⟨file, states⟩⟩, file) := by
    simp [Store.open, replayed, file]
  have inner := disk.opens faithful named succeeded
  have whole : file = journalFile crates.toStoreCrates journal := congrArg Inner.file inner
  refine ⟨congrArg Inner.states inner, ?_⟩
  rw [← whole]
  cases needsNewline <;> simp [file]

omit faithful in
theorem disk_of_newline {bytes : List UInt8}
    (whole : bytes ++ [newline] = journalFile crates.toStoreCrates journal)
    (named : ∀ state ∈ journal, state.origin ≠ []) : Disk crates.toStoreCrates bytes journal := by
  rcases journal.eq_nil_or_concat' with rfl | ⟨front, last, rfl⟩
  · simp [journalFile] at whole
  · have line : journalFile crates.toStoreCrates (front ++ [last]) =
        (journalFile crates.toStoreCrates front ++
          Utf8.encode (recordText crates.toStoreCrates last)) ++ [newline] := by
      simp [journalFile, recordLine, newline]
    rw [line] at whole
    have length := recordLine_length crates.toStoreCrates last
    have cut : bytes = tornFile crates.toStoreCrates front last
        (Utf8.encode (recordText crates.toStoreCrates last)).length := by
      rw [(List.append_inj' whole rfl).1, tornFile, recordLine, Utf8.encode_append,
        List.take_left]
    have recovered : recoveredJournal crates.toStoreCrates front last
        (Utf8.encode (recordText crates.toStoreCrates last)).length = front ++ [last] :=
      if_pos (Nat.le_refl _)
    rw [cut, ← recovered]
    exact .torn front last _ (named last (by simp))

omit faithful in
/-- Whatever part of the new line is there, the file stands for a journal with or without it. -/
theorem possible_part {state : LogState} {part : List UInt8}
    (records : Records decides attempts journal) (fresh : state.origin ≠ [])
    (decided : decides ((latestStates journal).lookup state.origin) state)
    (start : part <+: recordLine crates.toStoreCrates state) :
    Possible crates.toStoreCrates decides (attempts ++ [⟨state, false⟩])
      (journalFile crates.toStoreCrates journal ++ part) := by
  have torn : journalFile crates.toStoreCrates journal ++ part =
      tornFile crates.toStoreCrates journal state part.length := by
    rw [tornFile, ← List.prefix_iff_eq_take.mp start]
  rw [torn]
  refine ⟨_, ?_, .torn journal state part.length fresh⟩
  rw [recoveredJournal]
  split
  · exact records.recorded ⟨state, false⟩ fresh decided
  · exact records.lost rfl

omit faithful in
/-- The end of `open`: everything the file may come down to is a journal of the attempts. -/
theorem safe_framed {file : WriteBack} {states : States} {needsNewline : Bool}
    (left : ∀ bytes, file.Leaves bytes → Possible crates.toStoreCrates decides attempts bytes)
    (records : Records decides attempts journal) (replayed : states = latestStates journal)
    (whole : file.contents ++ (if needsNewline then [newline] else []) =
      journalFile crates.toStoreCrates journal) :
    Safe crates.toStoreCrates decides (framed file attempts states needsNewline) := by
  cases needsNewline with
  | false =>
      rw [if_neg (by simp), List.append_nil] at whole
      refine ⟨?_, journal, records, replayed, whole⟩
      intro bytes after
      simpa [framed, Phase.unfinished] using left bytes after
  | true =>
      rw [if_pos rfl] at whole
      have appended : (file.perform (.append [newline])).contents =
          journalFile crates.toStoreCrates journal := by
        simpa [FileOp.apply] using whole
      refine ⟨?_, journal, records, replayed, appended⟩
      intro bytes after
      suffices Possible crates.toStoreCrates decides attempts bytes by
        simpa [framed, Phase.unfinished] using this
      rcases WriteBack.Leaves.perform after with before | same | ⟨chunk, count, same, cut⟩
      · exact left bytes before
      · refine ⟨journal, records, ?_⟩
        rw [same, ← WriteBack.contents_perform, appended]
        exact .clean journal
      · cases same
        cases count with
        | zero => simpa [cut] using left _ (WriteBack.leaves_contents file)
        | succ count =>
            refine ⟨journal, records, ?_⟩
            rw [cut, List.take_of_length_le (by simp), whole]
            exact .clean journal

omit faithful in
theorem safe_initial : Safe crates.toStoreCrates decides initial := by
  refine ⟨?_, trivial⟩
  intro bytes left
  have empty : bytes = [] := WriteBack.leaves_stored.mp left
  rw [empty]
  exact ⟨[], .none, .clean []⟩

theorem safe_step {device next : Device} (safe : Safe crates.toStoreCrates decides device)
    (step : Step crates.toStoreCrates path decides dies device next) :
    Safe crates.toStoreCrates decides next := by
  have left := safe.left
  cases step with
  | opened replayed =>
      rename_i file attempts states needsNewline
      simp only [Phase.unfinished, List.append_nil] at left
      rcases left _ (WriteBack.leaves_contents file) with ⟨journal, records, disk⟩
      rcases replays faithful disk records.named replayed with ⟨same, whole⟩
      exact safe_framed left records same whole
  | torn replayed shorter =>
      rename_i file attempts states needsNewline kept
      simp only [Phase.unfinished, List.append_nil] at left
      rcases left _ (WriteBack.leaves_contents file) with ⟨journal, records, disk⟩
      rcases replays faithful disk records.named replayed with ⟨same, whole⟩
      have start := replay_prefix replayed
      have cut : FileOp.apply file.contents (.truncate kept.length) = kept := by
        have within := start.length_le
        rw [FileOp.apply, ← List.prefix_iff_eq_take.mp start, Nat.sub_eq_zero_of_le within]
        simp
      have after : (file.perform (.truncate kept.length)).contents = kept := by
        rw [WriteBack.contents_perform, cut]
      refine ⟨?_, journal, records, same, by rwa [after]⟩
      intro bytes possible
      simp only [Phase.unfinished, List.append_nil]
      rcases possible.perform with before | last | ⟨chunk, count, other, -⟩
      · exact left bytes before
      · rw [last, cut]
        refine ⟨journal, records, ?_⟩
        cases needsNewline with
        | false =>
            rw [if_neg (by simp), List.append_nil] at whole
            rw [whole]
            exact .clean journal
        | true => exact disk_of_newline whole records.named
      · cases other
  | cut =>
      rename_i file attempts states needsNewline
      rcases safe.stands with ⟨journal, records, same, whole⟩
      simp only [Phase.unfinished, List.append_nil] at left
      refine safe_framed ?_ records same whole
      intro bytes after
      rw [WriteBack.leaves_sync.mp after]
      exact left _ (WriteBack.leaves_contents file)
  | framed =>
      rename_i file attempts states
      rcases safe.stands with ⟨journal, records, same, whole⟩
      refine ⟨?_, journal, records, same, whole⟩
      intro bytes after
      rw [WriteBack.leaves_sync.mp after]
      exact left _ (WriteBack.leaves_contents file)
  | approve decided fresh written =>
      rename_i file attempts states state text
      rcases safe.stands with ⟨journal, records, same, whole⟩
      rw [toString_fromState faithful] at written
      cases written
      refine ⟨?_, journal, [], records, same, same ▸ decided, fresh, by simpa using whole, rfl⟩
      intro bytes after
      simp only [Phase.unfinished, List.append_nil] at left
      rcases left bytes after with ⟨journal, records, disk⟩
      exact ⟨journal, records.lost rfl, disk⟩
  | write chunk =>
      rename_i file attempts states state rest
      rcases safe.stands with ⟨journal, part, records, same, decided, fresh, whole, line⟩
      have longer : (part ++ chunk) ++ rest = recordLine crates.toStoreCrates state := by
        rw [List.append_assoc, line]
      have appended : (file.perform (.append chunk)).contents =
          journalFile crates.toStoreCrates journal ++ (part ++ chunk) := by
        rw [WriteBack.contents_perform, FileOp.apply, whole, List.append_assoc]
      refine ⟨?_, journal, part ++ chunk, records, same, decided, fresh, appended, longer⟩
      intro bytes after
      rcases WriteBack.Leaves.perform after with before | last | ⟨other, count, same, cut⟩
      · exact left bytes before
      · rw [last, ← WriteBack.contents_perform, appended]
        exact possible_part records fresh decided ⟨rest, longer⟩
      · cases same
        rw [cut, whole, List.append_assoc]
        refine possible_part records fresh decided ?_
        have shorter : part ++ chunk.take count <+: part ++ chunk :=
          (List.prefix_append_right_inj part).mpr (List.take_prefix count chunk)
        exact shorter.trans ⟨rest, longer⟩
  | synced =>
      rename_i file attempts states state
      rcases safe.stands with ⟨journal, part, records, same, decided, fresh, whole, line⟩
      rw [List.append_nil] at line
      have extended : file.contents = journalFile crates.toStoreCrates (journal ++ [state]) := by
        rw [whole, line]
        simp [journalFile]
      have recorded := records.recorded ⟨state, true⟩ fresh decided
      have states_ : states.insert state.origin state = latestStates (journal ++ [state]) := by
        rw [same, latestStates, latestStates, LastWins.fold_concat]
      refine ⟨?_, _, recorded, states_, extended⟩
      intro bytes after
      rw [WriteBack.leaves_sync.mp after, extended]
      simpa [Phase.unfinished] using ⟨_, recorded, .clean _⟩
  | killed may =>
      refine ⟨?_, trivial⟩
      intro bytes after
      simpa [Phase.unfinished] using left bytes after
  | powerLoss gone =>
      rename_i file attempts phase bytes
      refine ⟨?_, trivial⟩
      intro other after
      have same : other = bytes := WriteBack.leaves_stored.mp after
      rw [same]
      simpa [Phase.unfinished] using left bytes gone

theorem safe_of_reachable {device : Device}
    (reachable : Reachable crates.toStoreCrates path decides dies device) :
    Safe crates.toStoreCrates decides device := by
  refine Transition.run_keeps ?_ reachable safe_initial
  intro device next safe step
  exact safe_step faithful safe step

/-- Wherever the machine or the process goes down, what the next open finds has every
acknowledged update, or an update of its origin that was under way after it. -/
theorem acknowledged_survive_power_loss {device : Device}
    (reachable : Reachable crates.toStoreCrates path decides AnyTime device)
    {bytes after : List UInt8} {store : Store} (left : device.file.Leaves bytes)
    (opens : Store.open crates.toStoreCrates path false bytes = (.ok store, after)) :
    Covers (device.attempts ++ device.phase.unfinished) store.inner.states := by
  rcases (safe_of_reachable faithful reachable).left bytes left with ⟨journal, records, disk⟩
  have inner := disk.opens faithful records.named opens
  rw [inner]
  exact records.covers

end Preservation

section Runs

variable {crates : WitnessCrates} {path : String} {dies : Phase → Prop}

def settled (crates : StoreCrates) (journal : List LogState) (attempts : List Attempt) : Device :=
  ⟨⟨journalFile crates journal, []⟩, .serving (latestStates journal), attempts⟩

variable (faithful : crates.toStoreCrates.Faithful)
include faithful

theorem opens_journal {file : WriteBack} (named : ∀ state ∈ journal, state.origin ≠ [])
    (whole : file.contents = journalFile crates.toStoreCrates journal) :
    Step crates.toStoreCrates path decides dies ⟨file, .down, attempts⟩
      ⟨file, .serving (latestStates journal), attempts⟩ := by
  have replayed := replay_reads path (forall₂_reads_recordLine faithful named)
    (recordLines_terminated faithful journal) []
  rw [← journalFile_eq_flatten, List.append_nil, ← whole] at replayed
  exact .opened replayed

theorem appends {file : WriteBack} {states : States} {state : LogState}
    (fresh : state.origin ≠ []) (decided : decides (states.lookup state.origin) state) :
    Relation.ReflTransGen (Step crates.toStoreCrates path decides dies)
      ⟨file, .serving states, attempts⟩
      ⟨file.perform (.append (recordLine crates.toStoreCrates state)), .appending states state [],
        attempts⟩ := by
  have approved : Step crates.toStoreCrates path decides dies ⟨file, .serving states, attempts⟩
      ⟨file, .appending states state (recordLine crates.toStoreCrates state), attempts⟩ :=
    .approve decided fresh (toString_fromState faithful state)
  have line : recordLine crates.toStoreCrates state =
      recordLine crates.toStoreCrates state ++ [] := (List.append_nil _).symm
  rw [line] at approved
  exact (Relation.ReflTransGen.single approved).tail (.write _)

theorem updates {state : LogState} (fresh : state.origin ≠ [])
    (decided : decides ((latestStates journal).lookup state.origin) state) :
    Relation.ReflTransGen (Step crates.toStoreCrates path decides dies)
      (settled crates.toStoreCrates journal attempts)
      (settled crates.toStoreCrates (journal ++ [state]) (attempts ++ [⟨state, true⟩])) := by
  have written : Relation.ReflTransGen (Step crates.toStoreCrates path decides dies)
      (settled crates.toStoreCrates journal attempts) _ := appends faithful fresh decided
  have run := written.tail .synced
  have file : WriteBack.sync (WriteBack.perform ⟨journalFile crates.toStoreCrates journal, []⟩
      (.append (recordLine crates.toStoreCrates state))) =
        ⟨journalFile crates.toStoreCrates (journal ++ [state]), []⟩ := by
    simp [WriteBack.sync, WriteBack.perform, WriteBack.contents, FileOp.apply, journalFile]
  have states : (latestStates journal).insert state.origin state =
      latestStates (journal ++ [state]) := by
    rw [latestStates, latestStates, LastWins.fold_concat]
  rw [file, states] at run
  exact run

theorem starts_empty : Reachable crates.toStoreCrates path decides dies
    (settled crates.toStoreCrates [] []) :=
  .single (opens_journal faithful (List.forall_mem_nil _) rfl)

/-- A record that a killed process has written and not synced is taken up and served by the next
process, and still a power loss takes it back. -/
theorem adopted_record_rolls_back {device : Device}
    (reachable : Reachable crates.toStoreCrates path decides AnyTime device) {states : States}
    (serving : device.phase = .serving states) {state : LogState} (fresh : state.origin ≠ [])
    (decided : decides (states.lookup state.origin) state) :
    ∃ shown lost,
      Relation.ReflTransGen (Step crates.toStoreCrates path decides AnyTime) device shown ∧
      shown.phase = .serving (states.insert state.origin state) ∧
      Relation.ReflTransGen (Step crates.toStoreCrates path decides AnyTime) shown lost ∧
      lost.phase = .serving states := by
  have safe := safe_of_reachable faithful reachable
  rcases device with ⟨file, phase, attempts⟩
  cases serving
  rcases safe.stands with ⟨journal, records, same, whole⟩
  let line := recordLine crates.toStoreCrates state
  let made := attempts ++ [⟨state, false⟩]
  have extended : (file.perform (.append line)).contents =
      journalFile crates.toStoreCrates (journal ++ [state]) := by
    rw [WriteBack.contents_perform, FileOp.apply, whole]
    simp [journalFile, line]
  have named : ∀ other ∈ journal ++ [state], other.origin ≠ [] := by
    intro other member
    rcases List.mem_append.mp member with inside | last
    · exact records.named other inside
    · exact List.mem_singleton.mp last ▸ fresh
  have killed : Step crates.toStoreCrates path decides AnyTime
      ⟨file.perform (.append line), .appending states state [], attempts⟩
      ⟨file.perform (.append line), .down, made⟩ := .killed trivial
  have adopted : Step crates.toStoreCrates path decides AnyTime
      ⟨file.perform (.append line), .down, made⟩
      ⟨file.perform (.append line), .serving (latestStates (journal ++ [state])), made⟩ :=
    opens_journal faithful named extended
  -- the append has not reached the device
  have before : (file.perform (.append line)).Leaves file.contents := .between rfl
  have gone : Step crates.toStoreCrates path decides AnyTime
      ⟨file.perform (.append line), .serving (latestStates (journal ++ [state])), made⟩
      ⟨⟨file.contents, []⟩, .down, made ++ []⟩ := .powerLoss before
  rw [List.append_nil] at gone
  have reopened : Step crates.toStoreCrates path decides AnyTime
      ⟨⟨file.contents, []⟩, .down, made⟩
      ⟨⟨file.contents, []⟩, .serving (latestStates journal), made⟩ :=
    opens_journal faithful records.named whole
  refine ⟨_, _, ((appends faithful fresh decided).tail killed).tail adopted, ?_,
    (Relation.ReflTransGen.single gone).tail reopened, ?_⟩
  · rw [same, latestStates, latestStates, LastWins.fold_concat]
  · rw [same]

omit faithful in
theorem synced_at_rest {device : Device}
    (reachable : Reachable crates.toStoreCrates path decides AtRest device)
    (rests : AtRest device.phase) : device.file.unsynced = [] := by
  refine Transition.run_keeps (motive := fun device =>
    AtRest device.phase → device.file.unsynced = []) ?_ reachable (fun _ => rfl) rests
  intro device next ih step rest
  cases step with
  | opened =>
      rename_i file attempts states needsNewline replayed
      cases needsNewline with
      | false => exact ih trivial
      | true => cases rest
  | torn => cases rest
  | cut =>
      rename_i file attempts states needsNewline
      cases needsNewline with
      | false => rfl
      | true => cases rest
  | framed => rfl
  | approve => cases rest
  | write => cases rest
  | synced => rfl
  | killed rests => exact ih rests
  | powerLoss => rfl

/-- While the process ends at rest only, everything it serves outlives a power loss. -/
theorem served_states_survive {device : Device}
    (reachable : Reachable crates.toStoreCrates path decides AtRest device) {states : States}
    (serving : device.phase = .serving states) {bytes : List UInt8}
    (left : device.file.Leaves bytes) :
    Store.open crates.toStoreCrates path false bytes = (.ok ⟨path, ⟨bytes, states⟩⟩, bytes) := by
  have stands := (safe_of_reachable faithful reachable).stands
  rw [serving] at stands
  rcases stands with ⟨journal, records, same, whole⟩
  have stored : device.file = ⟨device.file.stored, []⟩ := by
    rw [← synced_at_rest reachable (serving ▸ trivial)]
  rw [stored] at left whole
  have same_ : bytes = journalFile crates.toStoreCrates journal :=
    (WriteBack.leaves_stored.mp left).trans whole
  rw [same_, open_journalFile faithful path records.named, same]
  rfl

end Runs

section OneUpdate

open Reference

def Anything : Decision := fun _ _ => True

theorem dashed_acknowledged (dies : Phase → Prop) :
    Reachable storeCrates "state.jsonl" Anything dies
      (settled storeCrates [dashed] [⟨dashed, true⟩]) :=
  (starts_empty witnessCrates_faithful).trans (updates witnessCrates_faithful (by decide) trivial)

theorem dashed_survives : Covers [⟨dashed, true⟩] (latestStates [dashed]) := by
  have named : ∀ state ∈ [dashed], state.origin ≠ [] := by simp [dashed]
  exact acknowledged_survive_power_loss witnessCrates_faithful (dashed_acknowledged AnyTime)
    (WriteBack.leaves_contents _) (open_journalFile storeCrates_faithful "state.jsonl" named)

theorem dashed_stays_served : Store.open storeCrates "state.jsonl" false
    (journalFile storeCrates [dashed]) =
      (.ok ⟨"state.jsonl", ⟨journalFile storeCrates [dashed], latestStates [dashed]⟩⟩,
        journalFile storeCrates [dashed]) :=
  served_states_survive witnessCrates_faithful (dashed_acknowledged AtRest) rfl
    (WriteBack.leaves_contents _)

theorem dashed_rolls_back : ∃ shown lost,
    Reachable storeCrates "state.jsonl" Anything AnyTime shown ∧
      shown.phase = .serving ((∅ : States).insert dashed.origin dashed) ∧
      Relation.ReflTransGen (Step storeCrates "state.jsonl" Anything AnyTime) shown lost ∧
      lost.phase = .serving ∅ := by
  have start : Reachable storeCrates "state.jsonl" Anything AnyTime (settled storeCrates [] []) :=
    starts_empty witnessCrates_faithful
  have fresh : dashed.origin ≠ [] := by decide
  obtain ⟨shown, lost, run, serves, later, back⟩ :=
    adopted_record_rolls_back witnessCrates_faithful start rfl fresh trivial
  exact ⟨shown, lost, start.trans run, serves, later, back⟩

end OneUpdate

end Invariant

section Heads

open MetamorphicLog (Head)

variable {crates : WitnessCrates}

def Settles (crates : WitnessCrates) (identity : Identity) : Decision := fun current state =>
  ∃ (vetted : Vetted crates) (timestamp : UInt64) (body : Text),
    settle identity vetted timestamp current = .ok (state, body)

/-- Of two records of one origin the later is consistent with the earlier and no smaller. -/
def InOrder (consistent : Head → Head → Prop) (earlier later : LogState) : Prop :=
  earlier.origin = later.origin →
    consistent earlier.head later.head ∧ earlier.size ≤ later.size

theorem Records.inOrder (checkpoints : crates.log.CheckpointLaws)
    {consistent : Head → Head → Prop} (laws : crates.log.ConsistencyLaws consistent)
    {identity : Identity} {attempts : List Attempt} {journal : List LogState}
    (records : Records (Settles crates identity) attempts journal) :
    journal.Pairwise (InOrder consistent) ∧
      ∀ state ∈ journal, state.size = 0 → state.root = crates.log.emptyRoot := by
  induction records with
  | none => exact ⟨.nil, List.forall_mem_nil _⟩
  | lost _ _ ih => exact ih
  | recorded attempt records fresh decided ih =>
      rename_i attempts journal
      rcases ih with ⟨ordered, rooted⟩
      rcases decided with ⟨vetted, timestamp, body, approved⟩
      have settled := settle_ok approved
      refine ⟨List.pairwise_append.mpr ⟨ordered, List.pairwise_singleton _ _, ?_⟩, ?_⟩
      · intro earlier member later last same
        rw [List.mem_singleton.mp last] at same ⊢
        have held : ((latestStates journal).lookup earlier.origin).isSome :=
          LastWins.lookup_isSome_of_mem member
        rcases Option.isSome_iff_exists.mp held with ⟨before, found⟩
        have current : (latestStates journal).lookup attempt.state.origin = some before :=
          same ▸ found
        rw [current] at settled
        have link := settled.consistent_with checkpoints laws
          (rooted before (LastWins.mem_of_lookup found))
        have sizes : before.size ≤ attempt.state.size := by
          calc
            before.size = vetted.oldSize := settled.latest.symm
            _ ≤ vetted.newSize := vetted.ordered
            _ = attempt.state.size := settled.cosigned.size.symm
        -- through the record the new one was decided on
        rcases LastWins.sublist_of_lookup found member rfl with rfl | behind
        · exact ⟨link, sizes⟩
        · have older := List.pairwise_iff_forall_sublist.mp ordered behind
            (LastWins.key_of_lookup found).symm
          exact ⟨laws.trans _ _ _ older.1 link, UInt64.le_trans older.2 sizes⟩
      · intro state member
        rcases List.mem_append.mp member with inside | last
        · exact rooted state inside
        · rw [List.mem_singleton.mp last, settled.cosigned.size, settled.cosigned.root]
          exact settled.emptyRoot

/-- Across kills and power losses at any moment, the acknowledged heads of an origin never
disagree: each is consistent with those before it, no smaller, and the same where the size is. -/
theorem acknowledged_heads_agree (faithful : crates.toStoreCrates.Faithful)
    (checkpoints : crates.log.CheckpointLaws) {consistent : Head → Head → Prop}
    (laws : crates.log.ConsistencyLaws consistent) {identity : Identity} {path : String}
    {device : Device}
    (reachable : Reachable crates.toStoreCrates path (Settles crates identity) AnyTime device) :
    (accepted device.attempts).Pairwise fun earlier later => earlier.origin = later.origin →
      consistent earlier.head later.head ∧ earlier.size ≤ later.size ∧
        (earlier.size = later.size → earlier.root = later.root) := by
  have safe := safe_of_reachable faithful reachable
  rcases safe.left _ (WriteBack.leaves_contents device.file) with ⟨journal, records, -⟩
  have part : (accepted device.attempts).Sublist journal := by
    have all : accepted (device.attempts ++ device.phase.unfinished) =
        accepted device.attempts := by
      cases device.phase <;> simp [accepted, Phase.unfinished]
    exact all ▸ records.sublist
  refine ((records.inOrder checkpoints laws).1.sublist part).imp ?_
  intro earlier later ordered same
  rcases ordered same with ⟨link, size⟩
  exact ⟨link, size, laws.same_size _ _ link⟩

open Reference in
theorem log_settles {current : Option LogState}
    (stored : StoresTree witnessCrates entries origin current) {size : UInt64}
    (ordered : latestSize current ≤ size) (small : size.toNat ≤ 2 ^ 62) :
    ∃ state, Settles witnessCrates identity current state ∧ state.origin = origin ∧
      state.head = treeHead storeCrates entries size ∧
      StoresTree witnessCrates entries origin (some state) := by
  have held : (Allowlist.collect [logConfig]).vkeys.lookup origin = some [logKey] :=
    Finmap.lookup_insert _
  have fits := treeProof_fits storeCrates entries (latestSize current) small
  have timed : (100 : UInt64) ≠ 0 := by decide
  rcases extension_settles held ordered fits stored rfl timed with ⟨state, body, approved⟩
  rcases storesTree_of_settle size approved rfl with ⟨head, kept⟩
  exact ⟨state, ⟨_, _, _, approved⟩, settle_origin approved, head, kept⟩

open Reference in
theorem two_acknowledged_heads_agree : ∃ (device : Device) (first second : LogState),
    Reachable storeCrates "state.jsonl" (Settles witnessCrates identity) AnyTime device ∧
    accepted device.attempts = [first, second] ∧
    first.head = treeHead storeCrates entries 1 ∧ second.head = treeHead storeCrates entries 2 ∧
    Extends entries first.head second.head := by
  have none_ : StoresTree witnessCrates entries origin none := by
    intro state found
    cases found
  have grows : latestSize none ≤ 1 := by decide
  rcases log_settles none_ grows (by decide) with ⟨first, one, named, head, stored⟩
  have size : first.size = 1 := congrArg Head.size head
  have grows' : latestSize (some first) ≤ 2 := by
    rw [latestSize, size]
    decide
  rcases log_settles stored grows' (by decide) with ⟨second, two, named', head', -⟩
  have latest : (latestStates [first]).lookup second.origin = some first := by
    rw [named', ← named, ← List.nil_append [first], latestStates, LastWins.lookup_fold_concat,
      if_pos rfl]
  have start : Reachable storeCrates "state.jsonl" (Settles witnessCrates identity) AnyTime
      (settled storeCrates [] []) := starts_empty witnessCrates_faithful
  have run := (start.trans (updates witnessCrates_faithful (named ▸ by decide) one)).trans
    (updates witnessCrates_faithful (named' ▸ by decide) (latest ▸ two))
  have agree := acknowledged_heads_agree witnessCrates_faithful (checkpointLaws entries)
    (consistencyLaws entries) run
  have both : accepted [⟨first, true⟩, ⟨second, true⟩] = [first, second] := rfl
  refine ⟨_, first, second, run, both, head, head', ?_⟩
  have pair := List.pairwise_pair.mp (both ▸ agree)
  exact (pair (named.trans named'.symm)).1

end Heads

end Device

end MosskeysWitness
