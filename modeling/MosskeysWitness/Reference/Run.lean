import MosskeysWitness.Reference.Log
import MosskeysWitness.System

/-! Runs of a witness that cosigns one log, over the reference crates. -/

namespace MosskeysWitness.Reference

open MetamorphicLog (Head)

section Parties

def seed (byte : UInt8) : Hash := ⟨List.replicate 32 byte, List.length_replicate⟩

def witnessName : Text := ['w', 'i', 't', 'n', 'e', 's', 's']

def identity : Identity := ⟨witnessName, ⟨seed 1, witnessName⟩, ⟨seed 2, witnessName⟩⟩

def origin : Text := ['l', 'o', 'g']

def entries (index : Nat) : List UInt8 := Utf8.encode (Nat.toDigits 10 index)

def logKey : Key := ⟨origin, seed 3⟩

abbrev witnessCrates : WitnessCrates := crates entries

theorem witnessCrates_faithful : witnessCrates.toStoreCrates.Faithful := storeCrates_faithful

def logConfig : LogConfig witnessCrates := ⟨origin, [logKey], by decide, List.cons_ne_nil _ _⟩

def config : Config witnessCrates where
  name := witnessName
  apiPrefix := ['/']
  stateFile := "state.jsonl"
  manualLogs := [logConfig]
  logs := [logConfig]

theorem isOrigin_origin : IsOrigin origin := by decide

def checkpoint (size : UInt64) : Checkpoint :=
  ⟨origin, size, (treeHead storeCrates entries size).root, isOrigin_origin⟩

theorem isName_logKey : Note.IsName logKey.name := by decide

end Parties

section Shown

variable (key : Key) (named : Note.IsName key.name) (checkpoint : Checkpoint)

/-- A checkpoint under the signature of one key. -/
def shownNote : Note.SignedNote where
  text := checkpoint.render
  signatures := [sign key named checkpoint.render]
  ended := List.getLast?_concat
  signed := List.cons_ne_nil _ _

theorem names_sign (text : Text) : names key (sign key named text) = true := by
  have tag : (keyId 1 key).length = 4 := by
    rw [keyId, List.length_take, Hash.length_eq]
    rfl
  have start : (sign key named text).blob.take 4 = keyId 1 key := List.take_left' tag
  exact decide_eq_true ⟨rfl, start⟩

theorem verify_shownNote : witnessCrates.log.verify (shownNote key named checkpoint) [key] =
    .ok [sign key named checkpoint.render] := by
  have known := names_sign key named checkpoint.render
  have verified : verifies key checkpoint.render (sign key named checkpoint.render) = true :=
    decide_eq_true rfl
  have accepted : verify (shownNote key named checkpoint) [key] =
      .ok [sign key named checkpoint.render] := by
    unfold verify
    simp only [shownNote, List.any_cons, List.any_nil, Bool.or_false, known, List.filter_cons]
    rw [verified]
    rfl
  exact (log_verify entries _ [key]).trans accepted

theorem marshal_shownNote_ended :
    (Note.marshal (shownNote key named checkpoint)).getLast? = some '\n' := by
  simp [Note.marshal, shownNote, List.getLast?_cons]

theorem parse_shownNote :
    witnessCrates.log.parseNote (Note.marshal (shownNote key named checkpoint)) =
      .ok (shownNote key named checkpoint) := Note.parse_marshal _

theorem read_shownNote : witnessCrates.log.parseCheckpoint
    (witnessCrates.log.text (shownNote key named checkpoint)) = .ok checkpoint :=
  Checkpoint.parse_render checkpoint

variable {key named checkpoint} {logs : Allowlist witnessCrates}

/-- The request that shows the checkpoint, once it is vetted. -/
def shown (named : Note.IsName key.name) (held : logs.vkeys.lookup checkpoint.origin = some [key])
    {old : UInt64} (ordered : old ≤ checkpoint.size) (proof : ProofLines maxProofLines) :
    Vetted witnessCrates where
  request :=
    { oldSize := old
      proof
      note := shownNote key named checkpoint
      checkpoint
      wellFormed := ⟨_, parse_shownNote key named checkpoint⟩
      read := read_shownNote key named checkpoint }
  snapshot := logs
  trusted := [key]
  verified := [sign key named checkpoint.render]
  held := held
  checked := verify_shownNote key named checkpoint
  ordered := ordered

variable (held : logs.vkeys.lookup checkpoint.origin = some [key]) {old : UInt64}
  (ordered : old ≤ checkpoint.size) (proof : ProofLines maxProofLines)

theorem parse_shown : parseRequest witnessCrates
      (renderRequest witnessCrates old proof.val (Note.marshal (shownNote key named checkpoint))) =
    .ok (shown named held ordered proof).request :=
  parseRequest_render base64_canonical old proof (marshal_shownNote_ended key named checkpoint)
    (parse_shownNote key named checkpoint) (read_shownNote key named checkpoint)

theorem vet_shown : vet witnessCrates logs
      (renderRequest witnessCrates old proof.val (Note.marshal (shownNote key named checkpoint))) =
    .ok (shown named held ordered proof) :=
  vet_accepts (parse_shown held ordered proof) held (verify_shownNote key named checkpoint) ordered

end Shown

section Requests

def note (size : UInt64) : Note.SignedNote := shownNote logKey isName_logKey (checkpoint size)

def signedCheckpoint (size : UInt64) :
    SignedCheckpoint witnessCrates entries origin [logKey] (Note.marshal (note size)) size where
  note := note size
  checkpoint := checkpoint size
  verified := [sign logKey isName_logKey (checkpoint size).render]
  ended := marshal_shownNote_ended _ _ _
  parsed := parse_shownNote _ _ _
  read := read_shownNote _ _ _
  named := rfl
  head := rfl
  signed := verify_shownNote _ _ _

variable {logs : Allowlist witnessCrates}

/-- The log's request from `old` to `size`, once it is vetted. -/
def extension (held : logs.vkeys.lookup origin = some [logKey]) {old size : UInt64}
    (ordered : old ≤ size)
    (fits : (treeProof storeCrates entries old size).length ≤ maxProofLines) :
    Vetted witnessCrates :=
  shown isName_logKey (show logs.vkeys.lookup (checkpoint size).origin = _ from held) ordered
    ⟨_, fits⟩

def body (old size : UInt64) : Text :=
  renderRequest witnessCrates old (treeProof storeCrates entries old size)
    (Note.marshal (note size))

variable (held : logs.vkeys.lookup origin = some [logKey]) {old size : UInt64}
  (ordered : old ≤ size) (fits : (treeProof storeCrates entries old size).length ≤ maxProofLines)

theorem parse_body : parseRequest witnessCrates (body old size) =
    .ok (extension held ordered fits).request := parse_shown held ordered ⟨_, fits⟩

theorem vet_body : vet witnessCrates logs (body old size) = .ok (extension held ordered fits) :=
  vet_shown held ordered ⟨_, fits⟩

theorem extension_settles {current : Option LogState} {timestamp : UInt64}
    (stored : StoresTree witnessCrates entries origin current)
    (latest : old = latestSize current) (timed : timestamp ≠ 0) :
    ∃ state body,
      settle identity (extension held ordered fits) timestamp current = .ok (state, body) :=
  honest_settled (extension held ordered fits) (newNoteAccepts entries) (checkpointLaws entries)
    (signersSucceed entries (by decide) _ _) rfl (acceptsProofs entries) stored latest rfl rfl timed

end Requests

section Runs

/-- A run that ends with the witness idle, the log in its allowlist and a head of the tree
stored for it. -/
structure Idle (witness : Witness witnessCrates) (nextId : Nat)
    (history : History witnessCrates) : Prop where
  reachable : Reachable identity ⟨.up ⟨witness, [], []⟩, nextId, history⟩
  held : witness.logs.vkeys.lookup origin = some [logKey]
  stored : StoresTree witnessCrates entries origin (witness.latest origin)

theorem Idle.identified {witness : Witness witnessCrates} {nextId : Nat}
    {history : History witnessCrates} (idle : Idle witness nextId history) :
    witness.toIdentity = identity :=
  (sound_of_reachable storeCrates_faithful idle.reachable).durable.1

theorem starts_with (κ : Type) (config : Config witnessCrates) (listed : config.logs ≠ [])
    (ed25519 mldsa44 : LoadedKey) :
    ∃ witness, Witness.fromConfig witnessCrates config (.ok ed25519 : Except κ LoadedKey)
      (.ok mldsa44) false [] = (.ok witness, []) ∧
        witness.toIdentity = ⟨config.name, ed25519, mldsa44⟩ ∧ witness.latest origin = none := by
  have opened := open_journalFile storeCrates_faithful config.stateFile (List.forall_mem_nil _)
  let store : Store := MosskeysWitness.opened config.stateFile (journalFile storeCrates []) []
  let witness : Witness witnessCrates :=
    { name := config.name
      ed25519
      mldsa44
      apiPrefix := config.apiPrefix
      manualLogs := .collect config.manualLogs
      logs := .collect config.logs
      store }
  have opens : Store.open storeCrates config.stateFile false [] = (.ok store, []) := opened
  refine ⟨witness, ?_, rfl, rfl⟩
  rw [Witness.fromConfig, if_neg listed]
  dsimp only
  rw [opens]

theorem starts (config : Config witnessCrates) (listed : config.logs ≠ []) :
    ∃ witness, Witness.fromConfig witnessCrates config
      (.ok identity.ed25519 : Except Empty LoadedKey) (.ok identity.mldsa44) false [] =
        (.ok witness, []) ∧ witness.latest origin = none := by
  obtain ⟨witness, started, -, empty⟩ := starts_with Empty config listed _ _
  exact ⟨witness, started, empty⟩

theorem config_starts : ∃ witness, Witness.fromConfig witnessCrates config
    (.ok identity.ed25519 : Except Empty LoadedKey) (.ok identity.mldsa44) false [] =
      (.ok witness, []) ∧ witness.latest origin = none :=
  starts config (List.cons_ne_nil _ _)

theorem booted : ∃ witness, Idle witness 0 [] ∧ witness.latest origin = none := by
  obtain ⟨witness, started, empty⟩ := config_starts
  have listed := (Witness.fromConfig_starts started).logs
  refine ⟨witness, ⟨?_, ?_, ?_⟩, empty⟩
  · exact Relation.ReflTransGen.single (.boot rfl started)
  · rw [listed]
    exact Finmap.lookup_insert _
  · intro state found
    rw [empty] at found
    cases found

theorem submitted {witness : Witness witnessCrates} {vetted : Vetted witnessCrates}
    {timestamp : UInt64} {state : LogState} {body : Text}
    (approved : settle witness.toIdentity vetted timestamp (witness.latest vetted.origin) =
      .ok (state, body)) :
    ∃ next, witness.submit vetted timestamp none = (.ok body, next) ∧
      next.logs = witness.logs ∧ next.toIdentity = witness.toIdentity ∧
      next.latest vetted.origin = some state :=
  ⟨_, submit_ok storeCrates_faithful approved, rfl, rfl, Finmap.lookup_insert _⟩

theorem storesTree_of_settle {vetted : Vetted witnessCrates} {timestamp : UInt64}
    {current : Option LogState} {state : LogState} {body : Text} (size : UInt64)
    (approved : settle identity vetted timestamp current = .ok (state, body))
    (extends_ : vetted.request.checkpoint = checkpoint size) :
    state.head = treeHead storeCrates entries size ∧
      StoresTree witnessCrates entries origin (some state) := by
  have cosigned := (settle_ok approved).cosigned
  have head : state.head = treeHead storeCrates entries size := by
    rw [← cosigned.head, extends_]
    rfl
  refine ⟨head, ?_⟩
  intro other same
  cases same
  have sized : state.size = size := congrArg Head.size head
  have named : IsOrigin origin := by decide
  let rebuilt : Checkpoint := ⟨origin, state.size, state.root, named⟩
  refine ⟨?_, rebuilt, Checkpoint.new_parts rebuilt⟩
  rw [sized]
  exact head

structure Extended (commit : Commit witnessCrates) (id : Nat) (timestamp size : UInt64) :
    Prop where
  id : commit.id = id
  timestamp : commit.timestamp = timestamp
  origin : commit.vetted.origin = origin
  requested : commit.vetted.request.checkpoint = checkpoint size
  stored : commit.state.origin = Reference.origin
  head : commit.state.head = treeHead storeCrates entries size

/-- The events of an answered request, newest first. -/
def exchange (commit : Commit witnessCrates) : History witnessCrates :=
  [.responded commit, .committed commit, .clockRead commit.id commit.timestamp,
    .vetted commit.id commit.vetted]

/-- The log submits its checkpoint at `size` to an idle witness and is answered. The run is one of
every relation that has the steps of a running witness. -/
theorem extends_run {relation : World witnessCrates → World witnessCrates → Prop}
    (steps : ∀ process nextId history next,
      Step identity ⟨.up process, nextId, history⟩ next →
        relation ⟨.up process, nextId, history⟩ next)
    {witness : Witness witnessCrates} (identified : witness.toIdentity = identity)
    (held : witness.logs.vkeys.lookup origin = some [logKey])
    (tree : StoresTree witnessCrates entries origin (witness.latest origin)) (nextId : Nat)
    (history : History witnessCrates) (size : UInt64)
    (ordered : latestSize (witness.latest origin) ≤ size) (small : size.toNat ≤ 2 ^ 62)
    (timestamp : UInt64) (timed : timestamp ≠ 0) :
    ∃ next commit, Relation.ReflTransGen relation ⟨.up ⟨witness, [], []⟩, nextId, history⟩
        ⟨.up ⟨next, [], []⟩, nextId + 1, exchange commit ++ history⟩ ∧
      Extended commit nextId timestamp size ∧ next.latest origin = some commit.state ∧
      StoresTree witnessCrates entries origin (next.latest origin) ∧
      next.logs = witness.logs ∧ next.manualLogs = witness.manualLogs := by
  have fits := treeProof_fits storeCrates entries (latestSize (witness.latest origin)) small
  let vetted := extension held ordered fits
  obtain ⟨state, text, approved⟩ := extension_settles held ordered fits tree rfl timed
  have head := (storesTree_of_settle size approved rfl).1
  have stored := (storesTree_of_settle size approved rfl).2
  have named : state.origin = origin := settle_origin approved
  rw [← identified] at approved
  obtain ⟨next, submitted, logs, -, latest⟩ := submitted approved
  have manual : next.manualLogs = witness.manualLogs := by
    have kept := submit_manualLogs witness vetted timestamp none
    rwa [submitted] at kept
  let commit : Commit witnessCrates := ⟨nextId, vetted, timestamp, state, text⟩
  have accept : relation ⟨.up ⟨witness, [], []⟩, nextId, history⟩ _ :=
    steps _ _ _ _ (.accept (vet_body held ordered fits))
  have read : relation
      ⟨.up ⟨witness, [] ++ ⟨nextId, vetted, none⟩ :: [], []⟩, nextId + 1,
        .vetted nextId vetted :: history⟩
      ⟨.up ⟨witness, [] ++ ⟨nextId, vetted, some ⟨timestamp, timed⟩⟩ :: [], []⟩, nextId + 1,
        .clockRead nextId timestamp :: .vetted nextId vetted :: history⟩ :=
    steps _ _ _ _ (.readClock (stamp_nonzero timed))
  have made : relation
      ⟨.up ⟨witness, [] ++ ⟨nextId, vetted, some ⟨timestamp, timed⟩⟩ :: [], []⟩, nextId + 1,
        .clockRead nextId timestamp :: .vetted nextId vetted :: history⟩
      ⟨.up ⟨next, [] ++ [], [commit]⟩, nextId + 1, .committed commit ::
        .clockRead nextId timestamp :: .vetted nextId vetted :: history⟩ :=
    steps _ _ _ _ (.commit approved submitted)
  have answered : relation
      ⟨.up ⟨next, [], [] ++ commit :: []⟩, nextId + 1, .committed commit ::
        .clockRead nextId timestamp :: .vetted nextId vetted :: history⟩
      ⟨.up ⟨next, [], [] ++ []⟩, nextId + 1, .responded commit :: .committed commit ::
        .clockRead nextId timestamp :: .vetted nextId vetted :: history⟩ :=
    steps _ _ _ _ .respond
  have latest' : next.latest origin = some state := latest
  refine ⟨next, commit, ?_, ⟨rfl, rfl, rfl, rfl, named, head⟩, latest', ?_, logs, manual⟩
  · exact (((Relation.ReflTransGen.single accept).tail read).tail made).tail answered
  · rw [latest']
    exact stored

theorem Idle.extends {witness : Witness witnessCrates} {nextId : Nat}
    {history : History witnessCrates} (idle : Idle witness nextId history) (size : UInt64)
    (ordered : latestSize (witness.latest origin) ≤ size) (small : size.toNat ≤ 2 ^ 62)
    (timestamp : UInt64) (timed : timestamp ≠ 0) :
    ∃ next commit, Idle next (nextId + 1)
        (.responded commit :: .committed commit :: .clockRead nextId timestamp ::
          .vetted nextId commit.vetted :: history) ∧
      Extended commit nextId timestamp size ∧ next.latest origin = some commit.state := by
  obtain ⟨next, commit, run, extended, latest, stored, logs, -⟩ :=
    extends_run (fun _ _ _ _ step => step) idle.identified idle.held idle.stored nextId history
      size ordered small timestamp timed
  rw [exchange, extended.id, extended.timestamp] at run
  refine ⟨next, commit, ⟨idle.reachable.trans run, ?_, stored⟩, extended, latest⟩
  rw [logs]
  exact idle.held

theorem one_record : ∃ witness commit, Idle witness 1 (exchange commit) ∧
    Extended commit 0 100 1 ∧ witness.latest origin = some commit.state := by
  rcases booted with ⟨witness, idle, empty⟩
  have ordered : latestSize (witness.latest origin) ≤ 1 := by
    rw [empty]
    decide
  obtain ⟨next, commit, rest, extended, latest⟩ :=
    idle.extends 1 ordered (by decide) 100 (by decide)
  refine ⟨next, commit, ?_, extended, latest⟩
  rw [exchange, extended.id, extended.timestamp]
  exact rest

theorem two_records : ∃ witness first second,
    Idle witness 2 (exchange second ++ exchange first) ∧ Extended first 0 100 1 ∧
      Extended second 1 200 2 ∧ witness.latest origin = some second.state := by
  obtain ⟨witness, first, idle, extended, stored⟩ := one_record
  have ordered : latestSize (witness.latest origin) ≤ 2 := by
    have size : first.state.size = 1 := congrArg Head.size extended.head
    rw [stored]
    change first.state.size ≤ 2
    rw [size]
    decide
  obtain ⟨next, second, rest, extended', latest⟩ :=
    idle.extends 2 ordered (by decide) 200 (by decide)
  refine ⟨next, first, second, ?_, extended, extended', latest⟩
  rw [exchange, extended'.id, extended'.timestamp]
  exact rest

end Runs

end MosskeysWitness.Reference
