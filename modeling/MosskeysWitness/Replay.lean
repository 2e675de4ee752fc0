import MosskeysWitness.Store
import MosskeysWitness.Library.LastWins

/-! What replay makes of a file, by the lines it holds. A journal is the list of states the
file is meant to record; every result about the store is stated against one. -/

namespace MosskeysWitness

/-- The map a journal stands for: the last record of each origin wins. -/
def latestStates (journal : List LogState) : States := LastWins.fold LogState.origin journal

def recordText (crates : StoreCrates) (state : LogState) : Text :=
  match crates.json.toString (Record.fromState crates state) with
  | .ok text => text
  | .error _ => []

def recordLine (crates : StoreCrates) (state : LogState) : List UInt8 :=
  Utf8.encode (recordText crates state ++ ['\n'])

def journalFile (crates : StoreCrates) (journal : List LogState) : List UInt8 :=
  journal.flatMap (recordLine crates)

/-- A line that replay takes for `state`. -/
def Reads (crates : StoreCrates) (raw : List UInt8) (state : LogState) : Prop :=
  ∃ line, Utf8.decode raw = some line ∧ readRecord crates line = .ok state

/-- A line that is text but no record. -/
def Unreadable (crates : StoreCrates) (raw : List UInt8) : Prop :=
  ∃ line message, Utf8.decode raw = some line ∧ readRecord crates line = .error message

variable {crates : StoreCrates}

theorem raw_cases (crates : StoreCrates) (raw : List UInt8) :
    Utf8.decode raw = none ∨ Unreadable crates raw ∨ ∃ state, Reads crates raw state := by
  cases decoded : Utf8.decode raw with
  | none => exact Or.inl rfl
  | some line =>
      cases read : readRecord crates line with
      | error message => exact Or.inr (Or.inl ⟨line, message, decoded, read⟩)
      | ok state => exact Or.inr (Or.inr ⟨state, line, decoded, read⟩)

theorem Reads.unique {raw : List UInt8} {first second : LogState}
    (left : Reads crates raw first) (right : Reads crates raw second) : first = second := by
  rcases left with ⟨line, decoded, read⟩
  rcases right with ⟨line', decoded', read'⟩
  rw [decoded] at decoded'
  cases decoded'
  rw [read] at read'
  exact Except.ok.inj read'

theorem Reads.not_unreadable {raw : List UInt8} {state : LogState}
    (reads : Reads crates raw state) : ¬ Unreadable crates raw := by
  intro unreadable
  rcases unreadable with ⟨line, message, decoded, failed⟩
  rcases reads with ⟨line', decoded', read⟩
  rw [decoded] at decoded'
  cases decoded'
  rw [failed] at read
  cases read

theorem exists_reads_of_mem {raws : List (List UInt8)} {journal : List LogState}
    (reads : List.Forall₂ (Reads crates) raws journal) {raw : List UInt8} (member : raw ∈ raws) :
    ∃ state, Reads crates raw state := by
  induction reads with
  | nil => cases member
  | cons first others ih =>
      rcases List.mem_cons.mp member with rfl | inside
      · exact ⟨_, first⟩
      · exact ih inside

section Lines

variable {path : String} {file : List UInt8}

private theorem terminated_ends {raw : List UInt8} (ended : Lines.Terminated newline raw) :
    raw.getLast? = some newline := by
  rcases ended with ⟨body, _, rfl⟩
  simp

/-- Replay walks over readable terminated lines, taking each into the map. -/
theorem replayLines_reads {raws : List (List UInt8)} {journal : List LogState}
    (reads : List.Forall₂ (Reads crates) raws journal)
    (ended : ∀ raw ∈ raws, Lines.Terminated newline raw) (more : List (List UInt8))
    (offset recordNo : Nat) (states : States) :
    replayLines crates path file (raws ++ more) offset recordNo states false =
      replayLines crates path file more (offset + raws.flatten.length)
        (recordNo + raws.length) (LastWins.extend LogState.origin states journal) false := by
  induction reads generalizing offset recordNo states with
  | nil => simp [LastWins.extend]
  | cons head tail ih =>
      rename_i raw state raws journal
      rcases head with ⟨line, decoded, read⟩
      have last : line.getLast? = some '\n' :=
        (Utf8.getLast?_newline_iff decoded).mpr (terminated_ends (ended raw (by simp)))
      have rest := ih (fun other member => ended other (by simp [member]))
        (offset + raw.length) (recordNo + 1) (states.insert state.origin state)
      simp only [List.cons_append, replayLines, decoded, read, last, beq_self_eq_true,
        Bool.not_true, rest, List.flatten_cons, List.length_append, List.length_cons,
        LastWins.extend, List.foldl_cons]
      congr 1 <;> omega

theorem replay_reads (path : String) {raws : List (List UInt8)} {journal : List LogState}
    (reads : List.Forall₂ (Reads crates) raws journal)
    (ended : ∀ raw ∈ raws, Lines.Terminated newline raw) (rest : List UInt8) :
    replay crates path (raws.flatten ++ rest) =
      replayLines crates path (raws.flatten ++ rest) (Lines.split newline rest)
        raws.flatten.length raws.length (latestStates journal) false := by
  rw [replay, Lines.split_flatten_append ended, replayLines_reads reads ended]
  simp [latestStates, LastWins.fold]

end Lines

section Open

variable {raws : List (List UInt8)} {journal : List LogState}

/-- The store as it comes out of an open: its file and the journal its map stands for. -/
def opened (path : String) (file : List UInt8) (journal : List LogState) : Store :=
  ⟨path, ⟨file, latestStates journal⟩⟩

theorem open_clean (path : String) (reads : List.Forall₂ (Reads crates) raws journal)
    (ended : ∀ raw ∈ raws, Lines.Terminated newline raw) :
    Store.open crates path false raws.flatten =
      (.ok (opened path raws.flatten journal), raws.flatten) := by
  have replayed := replay_reads path reads ended []
  rw [List.append_nil] at replayed
  simp [Store.open, replayed, replayLines, opened]

/-- A last record without its newline is kept, and the newline is written. -/
theorem open_unterminated (path : String) (reads : List.Forall₂ (Reads crates) raws journal)
    (ended : ∀ raw ∈ raws, Lines.Terminated newline raw) {last : List UInt8} {state : LogState}
    (nonempty : last ≠ []) (free : newline ∉ last) (read : Reads crates last state) :
    Store.open crates path false (raws.flatten ++ last) =
      (.ok (opened path (raws.flatten ++ last ++ [newline]) (journal ++ [state])),
        raws.flatten ++ last ++ [newline]) := by
  have replayed := replay_reads path reads ended last
  rcases read with ⟨line, decoded, found⟩
  have bare : line.getLast? ≠ some '\n' := by
    rw [Ne, Utf8.getLast?_newline_iff decoded]
    intro ends
    exact free (List.mem_of_getLast? ends)
  rw [Lines.split_unterminated free nonempty] at replayed
  simp [Store.open, replayed, replayLines, decoded, found, bare, opened, latestStates,
    LastWins.fold_concat]

/-- A last line that is text but no record is cut off, whether a newline ends it or not. -/
theorem open_dropped (path : String) (reads : List.Forall₂ (Reads crates) raws journal)
    (ended : ∀ raw ∈ raws, Lines.Terminated newline raw) {last : List UInt8}
    (single : Lines.split newline last = [last]) (bad : Unreadable crates last) :
    Store.open crates path false (raws.flatten ++ last) =
      (.ok (opened path raws.flatten journal), raws.flatten) := by
  have replayed := replay_reads path reads ended last
  rcases bad with ⟨line, message, decoded, failed⟩
  rw [single] at replayed
  simp [Store.open, replayed, replayLines, decoded, failed, opened]

/-- A line that is not UTF-8 stops the replay wherever it stands. -/
theorem open_invalid (path : String) (reads : List.Forall₂ (Reads crates) raws journal)
    (ended : ∀ raw ∈ raws, Lines.Terminated newline raw) {rest raw : List UInt8}
    {more : List (List UInt8)} (next : Lines.split newline rest = raw :: more)
    (invalid : Utf8.decode raw = none) :
    Store.open crates path false (raws.flatten ++ rest) =
      (.error (.io path .invalidData), raws.flatten ++ rest) := by
  have replayed := replay_reads path reads ended rest
  rw [next] at replayed
  simp [Store.open, replayed, replayLines, invalid]

theorem open_corrupt (path : String) (reads : List.Forall₂ (Reads crates) raws journal)
    (ended : ∀ raw ∈ raws, Lines.Terminated newline raw) {rest raw probe : List UInt8}
    {more : List (List UInt8)} (next : Lines.split newline rest = raw :: probe :: more)
    (bad : Unreadable crates raw) :
    ∃ error, Store.open crates path false (raws.flatten ++ rest) =
      (.error error, raws.flatten ++ rest) := by
  have replayed := replay_reads path reads ended rest
  rcases bad with ⟨line, message, decoded, failed⟩
  rw [next] at replayed
  cases probed : Utf8.decode probe with
  | none =>
      exact ⟨.io path .invalidData, by
        simp [Store.open, replayed, replayLines, decoded, failed, probed]⟩
  | some text =>
      exact ⟨.corrupt path (raws.length + 1) message, by
        simp [Store.open, replayed, replayLines, decoded, failed, probed]⟩

/-- Every file is a readable terminated part and a rest that does not start with one more
readable terminated line. -/
theorem readable_part (crates : StoreCrates) (file : List UInt8) :
    ∃ raws journal rest, List.Forall₂ (Reads crates) raws journal ∧
      (∀ raw ∈ raws, Lines.Terminated newline raw) ∧ file = raws.flatten ++ rest ∧
      ∀ raw more state, Lines.split newline rest = raw :: more →
        Lines.Terminated newline raw → ¬ Reads crates raw state := by
  obtain ⟨lines, tail, ended, free, rfl, -⟩ := Lines.split_shape newline file
  induction lines with
  | nil =>
      refine ⟨[], [], tail, .nil, by simp, rfl, ?_⟩
      intro raw more state cut terminated
      rcases terminated with ⟨body, -, rfl⟩
      have part := Lines.split_flatten newline tail
      rw [cut] at part
      exact absurd (part ▸ by simp) free
  | cons line lines ih =>
      have first := ended line (by simp)
      rcases em (∃ state, Reads crates line state) with ⟨state, reads⟩ | unread
      · obtain ⟨raws, journal, rest, all, each, whole, stop⟩ :=
          ih (fun other member => ended other (by simp [member]))
        refine ⟨line :: raws, state :: journal, rest, .cons reads all, ?_, ?_, stop⟩
        · intro raw member
          rcases List.mem_cons.mp member with rfl | inside
          · exact first
          · exact each raw inside
        · simpa using whole
      · refine ⟨[], [], (line :: lines).flatten ++ tail, .nil, by simp, rfl, ?_⟩
        intro raw more state cut _ reads
        rw [List.flatten_cons, List.append_assoc, Lines.split_terminated first] at cut
        cases cut
        exact unread ⟨state, reads⟩

end Open

/-- What an open returns and leaves, by what stands behind the readable terminated lines. -/
inductive Opens (crates : StoreCrates) (path : String) :
    List UInt8 → Except StoreError Store → List UInt8 → Prop
  | clean {raws journal} :
      List.Forall₂ (Reads crates) raws journal →
      (∀ raw ∈ raws, Lines.Terminated newline raw) →
      Opens crates path raws.flatten (.ok (opened path raws.flatten journal)) raws.flatten
  | unterminated {raws journal last state} :
      List.Forall₂ (Reads crates) raws journal →
      (∀ raw ∈ raws, Lines.Terminated newline raw) → newline ∉ last → Reads crates last state →
      Opens crates path (raws.flatten ++ last)
        (.ok (opened path (raws.flatten ++ last ++ [newline]) (journal ++ [state])))
        (raws.flatten ++ last ++ [newline])
  | torn {raws journal last} :
      List.Forall₂ (Reads crates) raws journal →
      (∀ raw ∈ raws, Lines.Terminated newline raw) → newline ∉ last → Unreadable crates last →
      Opens crates path (raws.flatten ++ last) (.ok (opened path raws.flatten journal))
        raws.flatten
  | damaged {raws journal last} :
      List.Forall₂ (Reads crates) raws journal →
      (∀ raw ∈ raws, Lines.Terminated newline raw) → Lines.Terminated newline last →
      Unreadable crates last →
      Opens crates path (raws.flatten ++ last) (.ok (opened path raws.flatten journal))
        raws.flatten
  | refused {file error} : Opens crates path file (.error error) file

theorem opens (crates : StoreCrates) (path : String) (file : List UInt8) :
    Opens crates path file (Store.open crates path false file).1
      (Store.open crates path false file).2 := by
  obtain ⟨raws, journal, rest, reads, ended, rfl, stop⟩ := readable_part crates file
  cases cut : Lines.split newline rest with
  | nil =>
      rw [Lines.split_eq_nil_iff] at cut
      rw [cut, List.append_nil, open_clean path reads ended]
      exact .clean reads ended
  | cons raw more =>
      rcases raw_cases crates raw with invalid | unreadable | ⟨state, read⟩
      · rw [open_invalid path reads ended cut invalid]
        exact .refused
      · cases more with
        | nil =>
            have whole := Lines.split_flatten newline rest
            rw [cut, List.flatten_singleton] at whole
            subst whole
            rw [open_dropped path reads ended cut unreadable]
            rcases Lines.split_cons_cases cut with terminated | ⟨free, -, -⟩
            · exact .damaged reads ended terminated unreadable
            · exact .torn reads ended free unreadable
        | cons probe more =>
            obtain ⟨error, refused⟩ := open_corrupt path reads ended cut unreadable
            rw [refused]
            exact .refused
      · rcases Lines.split_cons_cases cut with terminated | ⟨free, -, whole⟩
        · exact absurd read (stop raw more state cut terminated)
        · subst whole
          have nonempty : rest ≠ [] := by
            intro empty
            rw [empty] at cut
            cases cut
          rw [open_unterminated path reads ended nonempty free read]
          exact .unterminated reads ended free read

section Faithful

variable (faithful : crates.Faithful) {state : LogState}
include faithful

theorem toString_fromState (state : LogState) :
    crates.json.toString (Record.fromState crates state) = .ok (recordText crates state) := by
  obtain ⟨text, written⟩ := faithful.json.total (Record.fromState crates state)
  simp [recordText, written]

theorem newline_not_mem_recordText : '\n' ∉ recordText crates state := by
  intro member
  have printable := faithful.json.escaped _ _ (toString_fromState faithful state) _ member
  exact absurd printable (by decide)

theorem recordText_ends (state : LogState) : (recordText crates state).getLast? = some '}' :=
  faithful.json.object _ _ (toString_fromState faithful state)

theorem recordText_ne_nil : recordText crates state ≠ [] := by
  intro empty
  have ends := recordText_ends faithful state
  rw [empty] at ends
  cases ends

theorem newline_not_mem_recordBytes : newline ∉ Utf8.encode (recordText crates state) := by
  intro member
  exact newline_not_mem_recordText faithful (Utf8.newline_mem_encode_iff.mp member)

theorem recordLine_terminated (state : LogState) :
    Lines.Terminated newline (recordLine crates state) :=
  ⟨Utf8.encode (recordText crates state), newline_not_mem_recordBytes faithful,
    by simp [recordLine, newline]⟩

theorem fromStr_recordText :
    crates.json.fromStr (recordText crates state) = .ok (Record.fromState crates state) :=
  faithful.json.round_trip _ _ (toString_fromState faithful state)

theorem trimEnd_recordText : Strings.trimEnd (recordText crates state) = recordText crates state :=
  Strings.trimEnd_eq_self (recordText_ends faithful state) (by decide)

theorem readRecord_recordText (named : state.origin ≠ []) :
    readRecord crates (recordText crates state) = .ok state := by
  rw [readRecord, trimEnd_recordText faithful, fromStr_recordText faithful]
  exact Record.intoState_fromState faithful named

theorem reads_recordText (named : state.origin ≠ []) :
    Reads crates (Utf8.encode (recordText crates state)) state :=
  ⟨recordText crates state, Utf8.decode_encode _, readRecord_recordText faithful named⟩

theorem reads_recordLine (named : state.origin ≠ []) :
    Reads crates (recordLine crates state) state := by
  refine ⟨recordText crates state ++ ['\n'], Utf8.decode_encode _, ?_⟩
  have read := readRecord_recordText faithful named
  rw [readRecord, Strings.trimEnd_newline]
  exact read

theorem unreadable_unnamed (unnamed : state.origin = []) :
    Unreadable crates (Utf8.encode (recordText crates state)) := by
  cases read : readRecord crates (recordText crates state) with
  | error message => exact ⟨_, message, Utf8.decode_encode _, read⟩
  | ok other =>
      rw [readRecord, trimEnd_recordText faithful, fromStr_recordText faithful] at read
      obtain ⟨-, -, -, named, -⟩ := Record.intoState_eq_ok_iff.mp read
      exact absurd unnamed named

theorem unreadable_cut {start : Text} (cut : start <+: recordText crates state)
    (short : start ≠ recordText crates state) : Unreadable crates (Utf8.encode start) := by
  have part : Strings.trimEnd start <+: recordText crates state :=
    (Strings.trimEnd_prefix start).trans cut
  have proper : Strings.trimEnd start ≠ recordText crates state := by
    intro whole
    have shorter := (Strings.trimEnd_prefix start).length_le
    rw [whole] at shorter
    exact short (cut.eq_of_length_le shorter)
  obtain ⟨message, failed⟩ := faithful.json.cut_short _ _ _
    (toString_fromState faithful state) part proper
  exact ⟨start, message, Utf8.decode_encode start, by simp [readRecord, failed]⟩

theorem forall₂_reads_recordLine {journal : List LogState}
    (named : ∀ state ∈ journal, state.origin ≠ []) :
    List.Forall₂ (Reads crates) (journal.map (recordLine crates)) journal := by
  induction journal with
  | nil => exact .nil
  | cons state journal ih =>
      have first := reads_recordLine faithful (named state (by simp))
      exact .cons first (ih (fun other member => named other (by simp [member])))

theorem recordLines_terminated (journal : List LogState) :
    ∀ raw ∈ journal.map (recordLine crates), Lines.Terminated newline raw := by
  intro raw member
  obtain ⟨state, -, rfl⟩ := List.mem_map.mp member
  exact recordLine_terminated faithful state

omit faithful in
theorem journalFile_eq_flatten (crates : StoreCrates) (journal : List LogState) :
    journalFile crates journal = (journal.map (recordLine crates)).flatten :=
  List.flatMap_def ..

theorem open_journalFile (path : String) {journal : List LogState}
    (named : ∀ state ∈ journal, state.origin ≠ []) :
    Store.open crates path false (journalFile crates journal) =
      (.ok (opened path (journalFile crates journal) journal), journalFile crates journal) := by
  rw [journalFile_eq_flatten]
  exact open_clean path (forall₂_reads_recordLine faithful named)
    (recordLines_terminated faithful journal)

end Faithful

section Append

variable (faithful : crates.Faithful)
include faithful

/-- The bytes an append puts into the file, whether it succeeds or fails. -/
def written (crates : StoreCrates) (state : LogState) : Option AppendFault → List UInt8
  | none => recordLine crates state
  | some (.write count) => (recordLine crates state).take count
  | some .sync => recordLine crates state

theorem append_file (inner : Inner) (state : LogState) (path : String)
    (fault : Option AppendFault) :
    (inner.append crates state path fault).2 =
      { inner with file := inner.file ++ written crates state fault } := by
  have text := toString_fromState faithful state
  rcases fault with _ | _ | _ <;> simp [Inner.append, text, written, recordLine]

theorem append_ok_iff (inner : Inner) (state : LogState) (path : String)
    (fault : Option AppendFault) :
    (inner.append crates state path fault).1 = .ok () ↔ fault = none := by
  have text := toString_fromState faithful state
  rcases fault with _ | _ | _ <;> simp [Inner.append, text]

end Append

end MosskeysWitness
