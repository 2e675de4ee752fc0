import MosskeysWitness.Chain

/-! The stored note, the stored head and the response of a commit say the same. -/

namespace MosskeysWitness

variable {crates : WitnessCrates} {identity : Identity}

/-- The note of a commit is that of `note` on `checkpoint`, signed by `logs` and by the two
cosignatures; with at most `limit` signatures it reads back. -/
structure Story (identity : Identity) (limit : Nat) (commit : Commit crates)
    (note : crates.log.SignedNote) (checkpoint : crates.log.Checkpoint)
    (logs : List crates.log.Signature) (edSig mlSig : crates.log.Signature) : Prop where
  rendered : commit.state.note = crates.log.marshal note
  parsed : logs.length + 2 ≤ limit → crates.log.parseNote commit.state.note = .ok note
  read : crates.log.parseCheckpoint (crates.log.text note) = .ok checkpoint
  origin : crates.log.origin checkpoint = commit.state.origin
  size : crates.log.size checkpoint = commit.state.size
  root : crates.log.rootHash checkpoint = commit.state.root
  signatures : crates.log.signatures note = logs ++ [edSig, mlSig]
  held : commit.vetted.snapshot.vkeys.lookup commit.state.origin = some commit.vetted.trusted
  signed : logs ≠ []
  trusted : ∀ signature ∈ logs, ∃ key ∈ commit.vetted.trusted,
    crates.log.names key signature = true ∧
      crates.log.verifies key (crates.log.text note) signature = true
  timed : commit.timestamp ≠ 0
  ed25519 : crates.log.signEd25519 (crates.log.text note) identity.name identity.ed25519.seed
    commit.timestamp = .ok edSig
  mldsa44 : crates.log.signMldsa44 (crates.log.text note) identity.name identity.mldsa44.seed
    commit.timestamp = .ok mlSig
  body : commit.body = Lines.lastLines '\n' 2 commit.state.note

def TellsStory (identity : Identity) (limit : Nat) (commit : Commit crates) : Prop :=
  ∃ note checkpoint logs edSig mlSig,
    Story identity limit commit note checkpoint logs edSig mlSig

theorem Story.reads {limit : Nat} {commit : Commit crates} {note : crates.log.SignedNote}
    {checkpoint : crates.log.Checkpoint} {logs : List crates.log.Signature}
    {edSig mlSig : crates.log.Signature}
    (story : Story identity limit commit note checkpoint logs edSig mlSig)
    (small : (crates.log.signatures note).length ≤ limit) :
    crates.log.parseNote commit.state.note = .ok note := by
  rw [story.signatures, List.length_append] at small
  exact story.parsed small

theorem Cosigned.note_reads (notes : crates.log.NoteLaws) {vetted : Vetted crates}
    {timestamp : UInt64} {state : LogState} {body : Text}
    (cosigned : Cosigned identity vetted timestamp state body) :
    ∃ note, (∀ parsed, crates.log.parseNote state.note = .ok parsed → parsed = note) ∧
      crates.log.parseCheckpoint (crates.log.text note) = .ok vetted.request.checkpoint := by
  obtain ⟨edSig, mlSig, note, -, -, framed, stored, -⟩ := cosigned.signed
  have text := (notes.new_text _ _ _ framed).1
  refine ⟨note, ?_, ?_⟩
  · intro parsed read
    rw [stored] at read
    exact notes.parse_marshal _ _ _ _ framed read
  · rw [text]
    exact vetted.request.read

theorem lastLines_marshal (notes : crates.log.NoteLaws) {text : Text}
    {logs : List crates.log.Signature} {edSig mlSig : crates.log.Signature}
    {note : crates.log.SignedNote}
    (framed : crates.log.newNote text (logs ++ [edSig, mlSig]) = .ok note) :
    Lines.lastLines '\n' 2 (crates.log.marshal note) =
      crates.log.marshalLine edSig ++ ['\n'] ++ crates.log.marshalLine mlSig ++ ['\n'] := by
  let lines := [crates.log.marshalLine edSig ++ ['\n'], crates.log.marshalLine mlSig ++ ['\n']]
  let front := text ++ ['\n'] ++ logs.flatMap fun signature =>
    crates.log.marshalLine signature ++ ['\n']
  have whole : crates.log.marshal note = front ++ lines.flatten := by
    rw [notes.marshal_lines _ _ _ framed]
    simp [front, lines]
  have ends : front.getLast? = some '\n' := by
    rcases logs.eq_nil_or_concat' with none | ⟨others, last, some⟩
    · simp [front, none]
    · simp [front, some, List.getLast?_append, List.getLast?_cons]
  have ended : ∀ line ∈ lines, Lines.Terminated '\n' line := by
    intro line member
    simp only [lines, List.mem_cons, List.not_mem_nil, or_false] at member
    rcases member with rfl | rfl
    · exact ⟨_, notes.line_single edSig, rfl⟩
    · exact ⟨_, notes.line_single mlSig, rfl⟩
  have last := Lines.lastLines_append ends ended
  rw [whole]
  exact last.trans (by simp [lines])

theorem tellsStory (notes : crates.log.NoteLaws) {limit : Nat}
    (trips : crates.log.RoundTrips limit) (verifier : crates.log.VerifyLaws)
    {commit : Commit crates} {earlier : History crates}
    (explained : Explained identity (.committed commit :: earlier)) :
    TellsStory identity limit commit := by
  have explains := explained.1
  have before := explained.2
  have cosigned := (commit_settled explains).cosigned
  obtain ⟨edSig, mlSig, note, ed, ml, framed, stored, body⟩ := cosigned.signed
  have text := (notes.new_text _ _ _ framed).1
  have signatures := (notes.new_text _ _ _ framed).2
  have signed := (verifier.of_verified commit.vetted.checked).1
  have genuine := (verifier.of_verified commit.vetted.checked).2
  rcases explains with ⟨-, clock, -⟩
  have timed : commit.timestamp ≠ 0 := by
    obtain ⟨later, older, -, read, -⟩ := before.of_mem clock
    exact read.1
  refine ⟨note, commit.vetted.request.checkpoint, commit.vetted.verified, edSig, mlSig, ?_⟩
  exact {
    rendered := stored
    parsed := by
      intro small
      rw [stored]
      exact trips _ _ _ framed (by rwa [List.length_append])
    read := by
      rw [text]
      exact commit.vetted.request.read
    origin := cosigned.origin.symm
    size := cosigned.size.symm
    root := cosigned.root.symm
    signatures := signatures
    held := by
      rw [cosigned.origin]
      exact commit.vetted.held
    signed := signed
    trusted := by
      intro signature member
      obtain ⟨-, key, trusted, named, verifies⟩ := genuine signature member
      rw [text]
      exact ⟨key, trusted, named, verifies⟩
    timed := timed
    ed25519 := by
      rw [text]
      exact ed
    mldsa44 := by
      rw [text]
      exact ml
    body := by
      rw [stored, lastLines_marshal notes framed]
      exact body }

/-- In every reachable state, every stored state is that of a commit whose note tells its story,
and every 200 answers a commit with the last two lines of its note. -/
theorem stored_note_tells (faithful : crates.toStoreCrates.Faithful)
    (notes : crates.log.NoteLaws) {limit : Nat} (trips : crates.log.RoundTrips limit)
    (verifier : crates.log.VerifyLaws) {world : World crates}
    (reachable : Reachable identity world) :
    (∀ process origin state, world.machine = .up process →
      process.witness.latest origin = some state →
        state.origin = origin ∧ ∃ commit, Event.committed commit ∈ world.history ∧
          commit.state = state ∧ TellsStory identity limit commit) ∧
    ∀ commit, Event.responded commit ∈ world.history →
      Event.committed commit ∈ world.history ∧
        addCheckpointResponse (.ok commit.body) =
          ⟨200, none, Lines.lastLines '\n' 2 commit.state.note⟩ := by
  have sound := sound_of_reachable faithful reachable
  have tells : ∀ commit, Event.committed commit ∈ world.history →
      TellsStory identity limit commit := by
    intro commit member
    obtain ⟨later, earlier, -, explains, before⟩ := sound.explained.of_mem member
    exact tellsStory notes trips verifier ⟨explains, before⟩
  constructor
  · intro process origin state up found
    obtain ⟨latest, commit, _, committed, same, _⟩ := sound.stored_commit up found
    exact ⟨latestCommitted_origin latest, commit, committed, same, tells commit committed⟩
  · intro commit responded
    obtain ⟨later, earlier, whole, explains, -⟩ := sound.explained.of_mem responded
    have committed : Event.committed commit ∈ world.history := by
      rw [whole]
      exact List.mem_append_right _ (List.mem_cons_of_mem _ explains)
    obtain ⟨note, checkpoint, logs, edSig, mlSig, story⟩ := tells commit committed
    refine ⟨committed, ?_⟩
    rw [addCheckpointResponse, story.body]

theorem one_note_tells : ∃ (world : World Reference.witnessCrates)
    (answered : Commit Reference.witnessCrates),
    Reachable Reference.identity world ∧ answered.state.size = 1 ∧
      (∃ commit : Commit Reference.witnessCrates,
        commit.state = answered.state ∧ TellsStory Reference.identity 100 commit) ∧
      addCheckpointResponse (.ok answered.body) =
        ⟨200, none, Lines.lastLines '\n' 2 answered.state.note⟩ := by
  obtain ⟨witness, commit, idle, extended, latest⟩ := Reference.one_record
  obtain ⟨stored, responded⟩ := stored_note_tells Reference.storeCrates_faithful
    (Reference.noteLaws Reference.entries) (Reference.roundTrips Reference.entries 100)
    (Reference.verifyLaws Reference.entries) idle.reachable
  obtain ⟨_, other, _, same, tells⟩ := stored _ Reference.origin commit.state rfl latest
  have size : commit.state.size = 1 := congrArg MetamorphicLog.Head.size extended.head
  have answer := responded commit List.mem_cons_self
  exact ⟨_, commit, idle.reachable, size, ⟨other, same, tells⟩, answer.2⟩

end MosskeysWitness
