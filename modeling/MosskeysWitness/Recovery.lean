import MosskeysWitness.Replay
import MosskeysWitness.Reference.Json

/-! Opening a file that a crash cut short or that was damaged: what the torn-tail rule keeps,
what it drops, and when it refuses to start. -/

namespace MosskeysWitness

variable {crates : StoreCrates}

section TornTail

/-- The acknowledged lines of `journal` and the first `cut` bytes of the next record's line. -/
def tornFile (crates : StoreCrates) (journal : List LogState) (state : LogState) (cut : Nat) :
    List UInt8 :=
  journalFile crates journal ++ (recordLine crates state).take cut

/-- The new record counts once its whole JSON object is there. -/
def recoveredJournal (crates : StoreCrates) (journal : List LogState) (state : LogState)
    (cut : Nat) : List LogState :=
  if (Utf8.encode (recordText crates state)).length ≤ cut then journal ++ [state] else journal

def Inner.appendAll (crates : StoreCrates) (path : String) (inner : Inner)
    (states : List LogState) : Inner :=
  states.foldl (fun inner state => (inner.append crates state path none).2) inner

/-- Open brings back the recovered journal, leaves the file at a record boundary, and what is
appended after it is there at the next open. -/
def TornTailRecovers (crates : StoreCrates) (path : String) (journal : List LogState)
    (state : LogState) (cut : Nat) : Prop :=
  ∃ store, Store.open crates path false (tornFile crates journal state cut) =
      (.ok store, store.inner.file) ∧
    store.inner.states = latestStates (recoveredJournal crates journal state cut) ∧
    store.inner.file = journalFile crates (recoveredJournal crates journal state cut) ∧
    ∀ later : List LogState, (∀ state ∈ later, state.origin ≠ []) →
      ∃ reopened,
        Store.open crates path false (store.inner.appendAll crates path later).file =
          (.ok reopened, (store.inner.appendAll crates path later).file) ∧
        reopened.inner.states =
          latestStates (recoveredJournal crates journal state cut ++ later)

theorem recordLine_length (crates : StoreCrates) (state : LogState) :
    (recordLine crates state).length = (Utf8.encode (recordText crates state)).length + 1 := by
  simp [recordLine]

theorem journalFile_text (crates : StoreCrates) (journal : List LogState) :
    ∃ text, journalFile crates journal = Utf8.encode text := by
  induction journal with
  | nil => exact ⟨[], rfl⟩
  | cons state journal ih =>
      rcases ih with ⟨text, written⟩
      refine ⟨recordText crates state ++ ['\n'] ++ text, ?_⟩
      rw [Utf8.encode_append, ← written]
      rfl

theorem journalFile_append_text {crates : StoreCrates} {journal : List LogState}
    {rest : List UInt8} :
    (∃ text, Utf8.decode (journalFile crates journal ++ rest) = some text) ↔
      ∃ text, Utf8.encode text = rest := by
  rcases journalFile_text crates journal with ⟨front, written⟩
  rw [written]
  exact Utf8.decode_append_iff

/-- A cut that ends between characters leaves the line, the bare object, or a part of it. -/
theorem cut_cases {state : LogState} {cut : Nat} {text : Text}
    (boundary : Utf8.encode text = (recordLine crates state).take cut) :
    (recordLine crates state).length ≤ cut ∨
      (cut = (Utf8.encode (recordText crates state)).length ∧ text = recordText crates state) ∨
      (cut < (Utf8.encode (recordText crates state)).length ∧ text <+: recordText crates state ∧
        text ≠ recordText crates state) := by
  have size := recordLine_length crates state
  by_cases full : (recordLine crates state).length ≤ cut
  · exact Or.inl full
  · right
    have within : cut ≤ (Utf8.encode (recordText crates state)).length := by omega
    have starts : Utf8.encode text <+: Utf8.encode (recordText crates state) := by
      rw [boundary, recordLine, Utf8.encode_append, List.take_append_of_le_length within]
      exact List.take_prefix _ _
    have length : (Utf8.encode text).length = cut := by
      rw [boundary, List.length_take]
      omega
    rcases within.lt_or_eq with short | exact
    · refine Or.inr ⟨short, Utf8.prefix_of_encode_prefix starts, ?_⟩
      intro whole
      rw [whole] at length
      omega
    · refine Or.inl ⟨exact, ?_⟩
      apply Utf8.encode_injective
      exact starts.eq_of_length (by omega)

variable (faithful : crates.Faithful)
include faithful

theorem appendAll_file (path : String) (inner : Inner) (states : List LogState) :
    (inner.appendAll crates path states).file = inner.file ++ journalFile crates states := by
  induction states generalizing inner with
  | nil => simp [Inner.appendAll, journalFile]
  | cons state states ih =>
      have rest := ih (inner.append crates state path none).2
      rw [append_file faithful] at rest
      simp only [Inner.appendAll, List.foldl_cons, append_file faithful] at rest ⊢
      rw [rest]
      simp [written, journalFile]

theorem appended_replayed {path : String} {journal later : List LogState}
    (named : ∀ state ∈ journal, state.origin ≠ [])
    (namedLater : ∀ state ∈ later, state.origin ≠ []) {inner : Inner}
    (framed : inner.file = journalFile crates journal) :
    ∃ reopened,
      Store.open crates path false (inner.appendAll crates path later).file =
        (.ok reopened, (inner.appendAll crates path later).file) ∧
      reopened.inner.states = latestStates (journal ++ later) := by
  have all : ∀ state ∈ journal ++ later, state.origin ≠ [] := by
    intro state member
    rcases List.mem_append.mp member with front | back
    · exact named state front
    · exact namedLater state back
  have whole : (inner.appendAll crates path later).file =
      journalFile crates (journal ++ later) := by
    rw [appendAll_file faithful, framed]
    simp [journalFile]
  rw [whole, open_journalFile faithful path all]
  exact ⟨_, rfl, rfl⟩

theorem open_torn {path : String} {journal : List LogState} {state : LogState} {cut : Nat}
    {text : Text} (named : ∀ state ∈ journal, state.origin ≠ []) (fresh : state.origin ≠ [])
    (boundary : Utf8.encode text = (recordLine crates state).take cut) :
    Store.open crates path false (tornFile crates journal state cut) =
      (.ok (opened path (journalFile crates (recoveredJournal crates journal state cut))
        (recoveredJournal crates journal state cut)),
        journalFile crates (recoveredJournal crates journal state cut)) := by
  have size := recordLine_length crates state
  have reads := forall₂_reads_recordLine faithful named
  have ended := recordLines_terminated faithful journal
  have front := journalFile_eq_flatten crates journal
  have extended : journalFile crates (journal ++ [state]) =
      journalFile crates journal ++ recordLine crates state := by simp [journalFile]
  rcases cut_cases boundary with full | ⟨exact, rfl⟩ | ⟨short, part, proper⟩
  · -- the whole line: nothing to recover
    have recovered : recoveredJournal crates journal state cut = journal ++ [state] :=
      if_pos (by omega)
    have all : ∀ other ∈ journal ++ [state], other.origin ≠ [] := by
      intro other member
      rcases List.mem_append.mp member with inside | last
      · exact named other inside
      · exact List.mem_singleton.mp last ▸ fresh
    rw [recovered, ← open_journalFile faithful path all, tornFile, List.take_of_length_le full,
      extended]
  · -- the bare object: adopted, and the newline is repaired
    have recovered : recoveredJournal crates journal state cut = journal ++ [state] :=
      if_pos exact.ge
    have nonempty : Utf8.encode (recordText crates state) ≠ [] := by
      simp [recordText_ne_nil faithful]
    have adopted := open_unterminated path reads ended nonempty
      (newline_not_mem_recordBytes faithful) (reads_recordText faithful fresh)
    rw [← front] at adopted
    rw [recovered, tornFile, ← boundary, adopted, extended]
    simp [recordLine, newline]
  · -- a part of the object: dropped
    have recovered : recoveredJournal crates journal state cut = journal := if_neg (by omega)
    rw [recovered, tornFile, ← boundary]
    by_cases empty : text = []
    · subst empty
      rw [Utf8.encode_nil, List.append_nil]
      exact open_journalFile faithful path named
    · have free : newline ∉ Utf8.encode text := by
        intro member
        have inside := part.subset (Utf8.newline_mem_encode_iff.mp member)
        exact newline_not_mem_recordText faithful inside
      have single := Lines.split_unterminated free (by simp [empty])
      have dropped := open_dropped path reads ended single (unreadable_cut faithful part proper)
      rwa [← front] at dropped

theorem open_torn_inside {path : String} {journal : List LogState} {state : LogState} {cut : Nat}
    (named : ∀ state ∈ journal, state.origin ≠ [])
    (inside : ¬ ∃ text, Utf8.encode text = (recordLine crates state).take cut) :
    Store.open crates path false (tornFile crates journal state cut) =
      (.error (.io path .invalidData), tornFile crates journal state cut) := by
  have size := recordLine_length crates state
  have short : cut < (recordLine crates state).length := by
    by_contra full
    have whole : (recordLine crates state).take cut = recordLine crates state :=
      List.take_of_length_le (by omega)
    exact inside ⟨recordText crates state ++ ['\n'], whole.symm⟩
  have nonempty : (recordLine crates state).take cut ≠ [] := by
    intro empty
    exact inside ⟨[], by simp [empty]⟩
  have free : newline ∉ (recordLine crates state).take cut := by
    intro member
    rw [recordLine, Utf8.encode_append, List.take_append_of_le_length (by omega)] at member
    exact newline_not_mem_recordBytes faithful (List.mem_of_mem_take member)
  have invalid : Utf8.decode ((recordLine crates state).take cut) = none := by
    rw [Option.eq_none_iff_forall_ne_some]
    intro text decoded
    exact inside ⟨text, Utf8.encode_of_decode decoded⟩
  have refused := open_invalid path (forall₂_reads_recordLine faithful named)
    (recordLines_terminated faithful journal) (Lines.split_unterminated free nonempty) invalid
  rwa [← journalFile_eq_flatten] at refused

theorem not_recovers_inside {path : String} {journal : List LogState} {state : LogState}
    {cut : Nat} (named : ∀ state ∈ journal, state.origin ≠ [])
    (inside : ¬ ∃ text, Utf8.encode text = (recordLine crates state).take cut) :
    ¬ TornTailRecovers crates path journal state cut := by
  intro recovers
  rcases recovers with ⟨store, recovered, -⟩
  rw [open_torn_inside faithful named inside] at recovered
  cases recovered

/-- Recovery works at every cut between two characters of the line, and at no other. -/
theorem torn_tail_recovers_iff (path : String) {journal : List LogState} {state : LogState}
    (cut : Nat) (named : ∀ state ∈ journal, state.origin ≠ []) (fresh : state.origin ≠ []) :
    TornTailRecovers crates path journal state cut ↔
      ∃ text, Utf8.encode text = (recordLine crates state).take cut := by
  constructor
  · intro recovers
    by_contra inside
    exact not_recovers_inside faithful named inside recovers
  · intro boundary
    rcases boundary with ⟨text, boundary⟩
    have recovered : ∀ other ∈ recoveredJournal crates journal state cut, other.origin ≠ [] := by
      intro other member
      rw [recoveredJournal] at member
      split at member
      · rcases List.mem_append.mp member with inside | last
        · exact named other inside
        · exact List.mem_singleton.mp last ▸ fresh
      · exact named other member
    refine ⟨_, open_torn faithful named fresh boundary, rfl, rfl, ?_⟩
    intro later namedLater
    exact appended_replayed faithful recovered namedLater rfl

end TornTail

section TornDash

open Reference

def dashed : LogState :=
  { origin := ['l', 'o', 'g']
    size := 1
    root := ⟨List.replicate 32 0, rfl⟩
    note := ['—', ' ', 'w', '\n'] }

def beforeDash : Text :=
  Json.versionKey ++ (['1'] ++ (Json.originKey ++ (['l', 'o', 'g'] ++ ('"' :: (Json.sizeKey ++
    (['1'] ++ (Json.rootKey ++ (Json.escape (base64.encode dashed.root.bytes) ++
      ('"' :: Json.noteKey)))))))))

theorem recordText_dashed :
    ∃ back, recordText storeCrates dashed = beforeDash ++ '—' :: back := by
  have one : Nat.toDigits 10 1 = ['1'] := by decide
  have origin : Json.escape ['l', 'o', 'g'] = ['l', 'o', 'g'] := by decide
  have note : Json.escape ['—', ' ', 'w', '\n'] = ['—', ' ', 'w', '\\', 'n'] := by decide
  refine ⟨[' ', 'w', '\\', 'n'] ++ ('"' :: (Json.sha256Key ++
    (Json.escape (Record.fromState storeCrates dashed).sha256 ++ ['"', '}']))), ?_⟩
  change Json.write (Record.fromState storeCrates dashed) = _
  simp [Json.write, Record.fromState, Record.version, dashed, beforeDash, storeCrates, one,
    origin, note]

theorem recordLine_brace (state : LogState) :
    (recordLine storeCrates state).take 1 = Utf8.encode ['{'] := by
  obtain ⟨rest, text⟩ : ∃ rest, recordText storeCrates state = '{' :: rest := ⟨_, rfl⟩
  rw [recordLine, text, List.cons_append, ← List.singleton_append, Utf8.encode_append]
  exact List.take_left' (by decide)

theorem torn_after_brace : TornTailRecovers storeCrates "state.jsonl" [dashed] dashed 1 := by
  have named : ∀ state ∈ [dashed], state.origin ≠ [] := by simp [dashed]
  rw [torn_tail_recovers_iff storeCrates_faithful "state.jsonl" 1 named (by decide)]
  exact ⟨['{'], (recordLine_brace dashed).symm⟩

theorem torn_inside_dash : dashed.origin ≠ [] ∧ 94 ≤ (recordLine storeCrates dashed).length ∧
    ¬ TornTailRecovers storeCrates "state.jsonl" [] dashed 94 := by
  obtain ⟨back, text⟩ := recordText_dashed
  have front : (Utf8.encode beforeDash).length = 93 := by decide
  have dash : (Utf8.encode ['—']).length = 3 := by decide
  have line : recordLine storeCrates dashed =
      Utf8.encode (beforeDash ++ '—' :: (back ++ ['\n'])) := by
    rw [recordLine, text, List.append_assoc, List.cons_append]
  have within : 1 < (Utf8.encode ['—']).length := by rw [dash]; decide
  have inside := Utf8.not_encode_inside beforeDash (back ++ ['\n']) Nat.one_pos within
  rw [← line, front] at inside
  refine ⟨by decide, ?_, not_recovers_inside storeCrates_faithful (by simp) inside⟩
  have length := congrArg List.length line
  rw [← List.singleton_append, Utf8.encode_append, Utf8.encode_append, List.length_append,
    List.length_append, front, dash] at length
  omega

end TornDash

section Damage

/-- The promise on the file content `file`: a successful open has applied every terminated line
and keeps its bytes, a failed one leaves the file alone. -/
def NeverDrops (crates : StoreCrates) (path : String) (file : List UInt8) : Prop :=
  match Store.open crates path false file with
  | (.ok store, after) =>
      ∃ raws journal tail last, file = raws.flatten ++ tail ∧
        (∀ raw ∈ raws, Lines.Terminated newline raw) ∧ newline ∉ tail ∧
        List.Forall₂ (Reads crates) raws journal ∧
        store.inner.states = latestStates (journal ++ last) ∧
        (∀ state ∈ last, Reads crates tail state) ∧ raws.flatten <+: after
  | (.error _, after) => after = file

/-- All lines but the last are read, and the last one, with its newline, is text but no
record. -/
def DamagedLast (crates : StoreCrates) (file : List UInt8) : Prop :=
  ∃ raws journal last, file = raws.flatten ++ last ∧ List.Forall₂ (Reads crates) raws journal ∧
    (∀ raw ∈ raws, Lines.Terminated newline raw) ∧ Lines.Terminated newline last ∧
    Unreadable crates last

variable {file : List UInt8}

theorem not_neverDrops_of_damagedLast (path : String) (damaged : DamagedLast crates file) :
    ¬ NeverDrops crates path file := by
  rcases damaged with ⟨raws, journal, last, rfl, reads, ended, terminated, unreadable⟩
  have dropped := open_dropped path reads ended (Lines.split_single terminated) unreadable
  rw [NeverDrops, dropped]
  intro kept
  rcases kept with ⟨lines, journal', tail, extra, whole, ended', free, reads', -, -, -⟩
  have cut := congrArg (Lines.split newline) whole
  rw [Lines.split_flatten_append ended, Lines.split_flatten_append ended',
    Lines.split_single terminated] at cut
  by_cases empty : tail = []
  · -- every line was read, the damaged one among them
    subst empty
    rw [Lines.split_nil, List.append_nil] at cut
    have member : last ∈ lines := cut ▸ by simp
    obtain ⟨state, read⟩ := exists_reads_of_mem reads' member
    exact read.not_unreadable unreadable
  · rw [Lines.split_unterminated free empty] at cut
    have same := (List.append_inj' cut rfl).2
    rw [List.singleton_inj.mp same] at terminated
    rcases terminated with ⟨body, -, rfl⟩
    exact free (by simp)

theorem neverDrops_of_not_damagedLast (path : String) (sound : ¬ DamagedLast crates file) :
    NeverDrops crates path file := by
  have outcome := opens crates path file
  rw [NeverDrops]
  cases result : Store.open crates path false file with
  | mk status after =>
      rw [result] at outcome
      cases outcome with
      | clean reads ended =>
          exact ⟨_, _, [], [], by simp, ended, by simp, reads, by simp [opened], by simp,
            List.prefix_rfl⟩
      | unterminated reads ended free read =>
          rename_i raws journal last state
          refine ⟨raws, journal, last, [state], rfl, ended, free, reads, rfl, ?_, ?_⟩
          · intro other member
            rw [List.mem_singleton.mp member]
            exact read
          · exact ⟨last ++ [newline], by simp⟩
      | torn reads ended free unreadable =>
          exact ⟨_, _, _, [], rfl, ended, free, reads, by simp [opened], by simp, List.prefix_rfl⟩
      | damaged reads ended terminated unreadable =>
          exact absurd ⟨_, _, _, rfl, reads, ended, terminated, unreadable⟩ sound
      | refused => rfl

/-- Open keeps the promise on every file but those whose last line is complete, is text, and
is damaged: that line is silently cut off. -/
theorem never_drops_iff (crates : StoreCrates) (path : String) (file : List UInt8) :
    NeverDrops crates path file ↔ ¬ DamagedLast crates file := by
  constructor
  · intro kept damaged
    exact not_neverDrops_of_damagedLast path damaged kept
  · exact neverDrops_of_not_damagedLast path

/-- A file of one record whose version byte was damaged. -/
def damagedFile : List UInt8 :=
  Utf8.encode (Reference.Json.write
    { Record.fromState Reference.storeCrates dashed with v := 2 } ++ ['\n'])

theorem damaged_only_record_dropped :
    ¬ NeverDrops Reference.storeCrates "state.jsonl" damagedFile := by
  let record := { Record.fromState Reference.storeCrates dashed with v := 2 }
  have solid : Strings.trimEnd (Reference.Json.write record) = Reference.Json.write record :=
    Strings.trimEnd_eq_self (Reference.json_faithful.object record _ rfl) (by decide)
  have bare : newline ∉ Utf8.encode (Reference.Json.write record) := by
    intro member
    have printable := Reference.Json.printable_write (Utf8.newline_mem_encode_iff.mp member)
    exact absurd printable (by decide)
  have failed : readRecord Reference.storeCrates (Reference.Json.write record ++ ['\n']) =
      .error s!"unsupported record version {record.v}" := by
    have parsed : Reference.storeCrates.json.fromStr (Reference.Json.write record) = .ok record :=
      Reference.Json.fromStr_write record
    rw [readRecord, Strings.trimEnd_newline, solid, parsed]
    simp [Record.intoState, record, Record.version]
  apply not_neverDrops_of_damagedLast
  refine ⟨[], [], damagedFile, rfl, .nil, by simp, ⟨_, bare, ?_⟩, _, _, Utf8.decode_encode _,
    failed⟩
  rw [damagedFile, Utf8.encode_append, Utf8.encode_newline]
  rfl

end Damage

end MosskeysWitness
