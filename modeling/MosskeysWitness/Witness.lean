import Mathlib.Data.Char
import Mathlib.Data.Finset.Sort
import Mathlib.Data.List.Lex
import MosskeysWitness.Request
import MosskeysWitness.Store

/-! The witness: its identity, the hot-swappable allowlist, and the handling of one
add-checkpoint request. -/

namespace MosskeysWitness

/-- A cosigned log, as config and feed validation let it through. -/
structure LogConfig (crates : WitnessCrates) where
  origin : Text
  vkeys : List crates.log.VerifierKey
  named : origin ≠ []
  trusted : vkeys ≠ []

structure Allowlist (crates : WitnessCrates) where
  vkeys : Finmap fun _ : Text => List crates.log.VerifierKey
  named : [] ∉ vkeys

namespace Allowlist

variable {crates : WitnessCrates}

def empty : Allowlist crates := ⟨∅, Finmap.notMem_empty⟩

def insert (logs : Allowlist crates) (log : LogConfig crates) : Allowlist crates where
  vkeys := logs.vkeys.insert log.origin log.vkeys
  named := by
    rw [Finmap.mem_insert, not_or]
    exact ⟨log.named.symm, logs.named⟩

def collect (logs : List (LogConfig crates)) : Allowlist crates := logs.foldl insert empty

/-- The managed entries with the manual ones written over them. -/
def merge (manual : Allowlist crates) (managed : List (LogConfig crates)) : Allowlist crates :=
  let next := managed.foldl
    (fun next log => if log.origin ∈ manual.vkeys then next else next.insert log) empty
  { vkeys := manual.vkeys ∪ next.vkeys
    named := by
      rw [Finmap.mem_union, not_or]
      exact ⟨manual.named, next.named⟩ }

theorem origin_ne_nil {logs : Allowlist crates} {origin : Text}
    {trusted : List crates.log.VerifierKey} (found : logs.vkeys.lookup origin = some trusted) :
    origin ≠ [] := by
  intro empty
  have member := Finmap.mem_of_lookup_eq_some found
  rw [empty] at member
  exact logs.named member

end Allowlist

structure LoadedKey where
  seed : Hash
  vkey : Text

structure Identity where
  name : Text
  ed25519 : LoadedKey
  mldsa44 : LoadedKey

structure Witness (crates : WitnessCrates) extends Identity where
  apiPrefix : Text
  manualLogs : Allowlist crates
  logs : Allowlist crates
  store : Store

/-- The validated config, as far as the witness is built from it. -/
structure Config (crates : WitnessCrates) where
  name : Text
  apiPrefix : Text
  stateFile : String
  manualLogs : List (LogConfig crates)
  logs : List (LogConfig crates)

inductive StartupError (κ : Type) where
  | noLogs
  | key (error : κ)
  | store (error : StoreError)

inductive WitnessError where
  | rejected (reject : Reject)
  | store (error : StoreError)
  | clock
  | sign (message : String)
  | internal (reason : String)
  /-- The `expect` on the stored checkpoint fails, and the request's task panics. -/
  | panicked
  deriving DecidableEq

structure AllowlistUpdate where
  total : Nat
  added : List Text
  removed : List Text
  rotated : List Text

namespace Witness

variable {crates : WitnessCrates}

/-- `from_config` with the results of loading the two seeds, on a state file holding `file`;
and what the file holds afterwards. -/
def fromConfig {κ : Type} (crates : WitnessCrates) (config : Config crates)
    (ed25519 mldsa44 : Except κ LoadedKey) (locked : Bool) (file : List UInt8) :
    Except (StartupError κ) (Witness crates) × List UInt8 :=
  if config.logs = [] then (.error .noLogs, file)
  else match ed25519 with
    | .error e => (.error (.key e), file)
    | .ok ed25519 =>
        match mldsa44 with
        | .error e => (.error (.key e), file)
        | .ok mldsa44 =>
            match Store.open crates.toStoreCrates config.stateFile locked file with
            | (.error e, file) => (.error (.store e), file)
            | (.ok store, file) =>
                (.ok
                  { name := config.name
                    ed25519
                    mldsa44
                    apiPrefix := config.apiPrefix
                    manualLogs := .collect config.manualLogs
                    logs := .collect config.logs
                    store }, file)

structure Starts {κ : Type} (config : Config crates) (ed25519 mldsa44 : Except κ LoadedKey)
    (locked : Bool) (file after : List UInt8) (witness : Witness crates) : Prop where
  nonempty : config.logs ≠ []
  ed25519 : ed25519 = .ok witness.ed25519
  mldsa44 : mldsa44 = .ok witness.mldsa44
  store : Store.open crates.toStoreCrates config.stateFile locked file = (.ok witness.store, after)
  name : witness.name = config.name
  apiPrefix : witness.apiPrefix = config.apiPrefix
  manualLogs : witness.manualLogs = .collect config.manualLogs
  logs : witness.logs = .collect config.logs

theorem fromConfig_starts {κ : Type} {config : Config crates} {ed25519 mldsa44 : Except κ LoadedKey}
    {locked : Bool} {file after : List UInt8} {witness : Witness crates}
    (started : fromConfig crates config ed25519 mldsa44 locked file = (.ok witness, after)) :
    Starts config ed25519 mldsa44 locked file after witness := by
  unfold fromConfig at started
  split_ifs at started with empty
  · cases started
  · split at started
    · cases started
    · split at started
      · cases started
      · split at started
        · cases started
        · rename_i opened
          cases started
          exact ⟨empty, rfl, rfl, opened, rfl, rfl, rfl, rfl⟩

/-- The new allowlist is the managed set under the manual one; the store is not touched. -/
def applyManagedEntries (witness : Witness crates) (managed : List (LogConfig crates)) :
    AllowlistUpdate × Witness crates :=
  let next := witness.manualLogs.merge managed
  let previous := witness.logs
  let keys := next.vkeys.keys
  ({ total := keys.card
     added := (keys.filter fun origin => previous.vkeys.lookup origin = none).sort (· ≤ ·)
     removed :=
      (previous.vkeys.keys.filter fun origin => next.vkeys.lookup origin = none).sort (· ≤ ·)
     rotated :=
      have := crates.log.keyEq
      (keys.filter fun origin =>
        previous.vkeys.lookup origin ≠ none ∧
          previous.vkeys.lookup origin ≠ next.vkeys.lookup origin).sort (· ≤ ·) },
    { witness with logs := next })

def latest (witness : Witness crates) (origin : Text) : Option LogState :=
  witness.store.latest origin

end Witness

/-- A request that got through the checks that need no stored state: parsed, for an origin of
the allowlist snapshot, signed by a trusted key, with an old size within the checkpoint. -/
structure Vetted (crates : WitnessCrates) where
  request : ParsedRequest crates
  snapshot : Allowlist crates
  trusted : List crates.log.VerifierKey
  verified : List crates.log.Signature
  held : snapshot.vkeys.lookup (crates.log.origin request.checkpoint) = some trusted
  checked : crates.log.verify request.note trusted = .ok verified
  ordered : request.oldSize ≤ crates.log.size request.checkpoint

section AddCheckpoint

variable {crates : WitnessCrates}

namespace Vetted

variable (vetted : Vetted crates)

def origin : Text := crates.log.origin vetted.request.checkpoint
def oldSize : UInt64 := vetted.request.oldSize
def newSize : UInt64 := crates.log.size vetted.request.checkpoint
def newRoot : Hash := crates.log.rootHash vetted.request.checkpoint
def noteText : Text := crates.log.text vetted.request.note
def proof : List Hash := vetted.request.proof.val

theorem origin_ne_nil : vetted.origin ≠ [] := Allowlist.origin_ne_nil vetted.held

end Vetted

/-- The part of `add_checkpoint` before the clock is read. -/
def vet (crates : WitnessCrates) (logs : Allowlist crates) (body : Text) :
    Except WitnessError (Vetted crates) :=
  match parseRequest crates body with
  | .error reject => .error (.rejected reject)
  | .ok request =>
      match held : logs.vkeys.lookup (crates.log.origin request.checkpoint) with
      | none => .error (.rejected .unknownOrigin)
      | some trusted =>
          match checked : crates.log.verify request.note trusted with
          | .error .invalidSignature => .error (.rejected .invalidTrustedSignature)
          | .error _ => .error (.rejected .noTrustedSignature)
          | .ok verified =>
              if exceeds : crates.log.size request.checkpoint < request.oldSize then
                .error (.rejected .oldSizeExceedsCheckpoint)
              else .ok ⟨request, logs, trusted, verified, held, checked, UInt64.not_lt.mp exceeds⟩

/-- The clock read in seconds since the epoch, `none` where it is before the epoch. -/
def stamp : Option UInt64 → Except WitnessError {timestamp : UInt64 // timestamp ≠ 0}
  | none => .error .clock
  | some timestamp => if nonzero : timestamp ≠ 0 then .ok ⟨timestamp, nonzero⟩ else .error .clock

/-- ST-09 and ST-10: nothing to verify at old size 0, else the proof against the stored head. -/
def checkConsistency (vetted : Vetted crates) (current : Option LogState) :
    Except WitnessError Unit :=
  if 0 < vetted.oldSize then
    match current with
    | none => .error .panicked
    | some current =>
        match crates.log.newCheckpoint vetted.origin current.size current.root with
        | .error _ => .error (.internal "stored state fails checkpoint parse")
        | .ok oldCheckpoint =>
            match crates.log.verifyConsistency oldCheckpoint vetted.request.checkpoint
              vetted.proof with
            | .ok () => .ok ()
            | .error e =>
                if e = .rootMismatch ∧ vetted.oldSize = vetted.newSize then
                  .error (.rejected .sameSizeRootMismatch)
                else .error (.rejected .consistencyProofFailed)
  else .ok ()

/-- Both cosignatures, the note to store and the response. -/
def cosign (identity : Identity) (vetted : Vetted crates) (timestamp : UInt64) :
    Except WitnessError (LogState × Text) :=
  match crates.log.signEd25519 vetted.noteText identity.name identity.ed25519.seed timestamp with
  | .error e => .error (.sign (crates.log.display e))
  | .ok edSig =>
      match crates.log.signMldsa44 vetted.noteText identity.name identity.mldsa44.seed
        timestamp with
      | .error e => .error (.sign (crates.log.display e))
      | .ok mlSig =>
          match crates.log.newNote vetted.noteText (vetted.verified ++ [edSig, mlSig]) with
          | .error _ => .error (.internal "note framing")
          | .ok note =>
              .ok (⟨vetted.origin, vetted.newSize, vetted.newRoot, crates.log.marshal note⟩,
                crates.log.marshalLine edSig ++ ['\n'] ++ crates.log.marshalLine mlSig ++ ['\n'])

def latestSize : Option LogState → UInt64
  | none => 0
  | some state => state.size

/-- The closure of the `Store::update` call. -/
def settle (identity : Identity) (vetted : Vetted crates) (timestamp : UInt64)
    (current : Option LogState) : Except WitnessError (LogState × Text) :=
  if vetted.oldSize ≠ latestSize current then
    .error (.rejected (.sizeConflict (latestSize current)))
  else if vetted.newSize = 0 ∧ vetted.newRoot ≠ crates.log.emptyRoot then
    .error (.rejected .emptySizeNonEmptyRoot)
  else if vetted.oldSize = 0 ∧ vetted.proof ≠ [] then
    .error (.rejected .proofWithZeroOldSize)
  else match checkConsistency vetted current with
    | .error e => .error e
    | .ok () => cosign identity vetted timestamp

/-- The `Store::update` call of a vetted request, and what `add_checkpoint` makes of it. -/
def Witness.submit (witness : Witness crates) (vetted : Vetted crates) (timestamp : UInt64)
    (fault : Option AppendFault) : Except WitnessError Text × Witness crates :=
  match witness.store.update crates.toStoreCrates vetted.origin
    (settle witness.toIdentity vetted timestamp) fault with
  | (.ok body, store) => (.ok body, { witness with store })
  | (.error (.rejected e), store) => (.error e, { witness with store })
  | (.error (.store e), store) => (.error (.store e), { witness with store })

/-- One request from end to end, with what the clock says and how the append fares. -/
def Witness.addCheckpoint (witness : Witness crates) (body : Text) (clock : Option UInt64)
    (fault : Option AppendFault) : Except WitnessError Text × Witness crates :=
  match vet crates witness.logs body with
  | .error e => (.error e, witness)
  | .ok vetted =>
      match stamp clock with
      | .error e => (.error e, witness)
      | .ok timestamp => witness.submit vetted timestamp.val fault

/-- What `vet` answers, by the check that decides it. -/
inductive Vets (logs : Allowlist crates) (body : Text) :
    Except WitnessError (Vetted crates) → Prop
  | malformed {reason} :
      parseRequest crates body = .error (.malformed reason) →
      Vets logs body (.error (.rejected (.malformed reason)))
  | unknownOrigin {request} :
      parseRequest crates body = .ok request →
      logs.vkeys.lookup (crates.log.origin request.checkpoint) = none →
      Vets logs body (.error (.rejected .unknownOrigin))
  | unverified {request trusted error} :
      parseRequest crates body = .ok request →
      logs.vkeys.lookup (crates.log.origin request.checkpoint) = some trusted →
      crates.log.verify request.note trusted = .error error →
      Vets logs body (.error (.rejected
        (if error = .invalidSignature then .invalidTrustedSignature else .noTrustedSignature)))
  | exceeds {request trusted verified} :
      parseRequest crates body = .ok request →
      logs.vkeys.lookup (crates.log.origin request.checkpoint) = some trusted →
      crates.log.verify request.note trusted = .ok verified →
      crates.log.size request.checkpoint < request.oldSize →
      Vets logs body (.error (.rejected .oldSizeExceedsCheckpoint))
  | passed {vetted : Vetted crates} :
      parseRequest crates body = .ok vetted.request → vetted.snapshot = logs →
      Vets logs body (.ok vetted)

theorem vets (logs : Allowlist crates) (body : Text) :
    Vets logs body (vet crates logs body) := by
  rw [vet]
  split
  · rename_i reject refused
    obtain ⟨reason, rfl⟩ := parseRequest_malformed refused
    exact .malformed refused
  · rename_i request parsed
    split
    · rename_i missing
      exact .unknownOrigin parsed missing
    · rename_i trusted held
      split
      · rename_i failed
        exact .unverified parsed held failed
      · rename_i error other failed
        have refused := Vets.unverified parsed held failed
        rw [if_neg other] at refused
        exact refused
      · rename_i verified checked
        split
        · rename_i exceeds
          exact .exceeds parsed held checked exceeds
        · exact .passed parsed rfl

/-- The key list and the verified signatures of a vetted request follow from the rest. -/
theorem Vetted.eq_of {left right : Vetted crates} (request : left.request = right.request)
    (snapshot : left.snapshot = right.snapshot) : left = right := by
  rcases left with ⟨request₁, snapshot₁, trusted₁, verified₁, held₁, checked₁, ordered₁⟩
  rcases right with ⟨request₂, snapshot₂, trusted₂, verified₂, held₂, checked₂, ordered₂⟩
  cases request
  cases snapshot
  have trusted := held₁.symm.trans held₂
  cases trusted
  have verified := checked₁.symm.trans checked₂
  cases verified
  rfl

theorem Vets.unique {logs : Allowlist crates} {body : Text}
    {first second : Except WitnessError (Vetted crates)} (left : Vets logs body first)
    (right : Vets logs body second) : first = second := by
  have facts : ∀ vetted : Vetted crates, vetted.snapshot = logs →
      logs.vkeys.lookup (crates.log.origin vetted.request.checkpoint) = some vetted.trusted ∧
        crates.log.verify vetted.request.note vetted.trusted = .ok vetted.verified ∧
        ¬ crates.log.size vetted.request.checkpoint < vetted.request.oldSize := by
    intro vetted snapshot
    have held := vetted.held
    rw [snapshot] at held
    exact ⟨held, vetted.checked, UInt64.not_lt.mpr vetted.ordered⟩
  cases left with
  | malformed refused => cases right <;> grind
  | unknownOrigin parsed missing => cases right <;> grind
  | unverified parsed held refused => cases right <;> grind
  | exceeds parsed held checked larger => cases right <;> grind
  | passed parsed snapshot => cases right <;> grind [Vetted.eq_of]

theorem vet_eq {logs : Allowlist crates} {body : Text}
    {answer : Except WitnessError (Vetted crates)} (outcome : Vets logs body answer) :
    vet crates logs body = answer := (vets logs body).unique outcome

theorem vet_ok {logs : Allowlist crates} {body : Text} {vetted : Vetted crates}
    (passed : vet crates logs body = .ok vetted) :
    parseRequest crates body = .ok vetted.request ∧ vetted.snapshot = logs := by
  have outcome := vets logs body
  rw [passed] at outcome
  cases outcome with
  | passed parsed snapshot => exact ⟨parsed, snapshot⟩

theorem vet_error {logs : Allowlist crates} {body : Text} {error : WitnessError}
    (failed : vet crates logs body = .error error) :
    ∃ reject, error = .rejected reject ∧ ∀ latest, reject ≠ .sizeConflict latest := by
  have outcome := vets logs body
  rw [failed] at outcome
  cases outcome with
  | malformed refused => exact ⟨_, rfl, by simp⟩
  | unknownOrigin parsed missing => exact ⟨_, rfl, by simp⟩
  | unverified parsed held refused =>
      refine ⟨_, rfl, ?_⟩
      intro latest
      split <;> simp
  | exceeds parsed held checked larger => exact ⟨_, rfl, by simp⟩

theorem stamp_nonzero {timestamp : UInt64} (timed : timestamp ≠ 0) :
    stamp (some timestamp) = .ok ⟨timestamp, timed⟩ := dif_pos timed

theorem stamp_cases (now : Option UInt64) :
    stamp now = .error .clock ∨ ∃ timestamp, stamp now = .ok timestamp := by
  cases now with
  | none => exact Or.inl rfl
  | some seconds =>
      by_cases zero : seconds = 0
      · subst zero
        exact Or.inl rfl
      · exact Or.inr ⟨⟨seconds, zero⟩, stamp_nonzero zero⟩

theorem checkConsistency_ok {vetted : Vetted crates} {current : Option LogState}
    (passed : checkConsistency vetted current = .ok ()) (later : 0 < vetted.oldSize) :
    ∃ state oldCheckpoint, current = some state ∧
      crates.log.newCheckpoint vetted.origin state.size state.root = .ok oldCheckpoint ∧
      crates.log.verifyConsistency oldCheckpoint vetted.request.checkpoint vetted.proof =
        .ok () := by
  unfold checkConsistency at passed
  rw [if_pos later] at passed
  split at passed
  · cases passed
  · rename_i state
    split at passed
    · cases passed
    · rename_i oldCheckpoint built
      split at passed
      · rename_i verified
        exact ⟨state, oldCheckpoint, rfl, built, verified⟩
      · split_ifs at passed

theorem checkConsistency_of_verifies {vetted : Vetted crates} {current : Option LogState}
    (latest : vetted.oldSize = latestSize current)
    (verifies : ∀ state, current = some state → 0 < vetted.oldSize → ∃ oldCheckpoint,
      crates.log.newCheckpoint vetted.origin state.size state.root = .ok oldCheckpoint ∧
      crates.log.verifyConsistency oldCheckpoint vetted.request.checkpoint vetted.proof =
        .ok ()) :
    checkConsistency vetted current = .ok () := by
  unfold checkConsistency
  by_cases later : 0 < vetted.oldSize
  · rw [if_pos later]
    cases current with
    | none =>
        rw [latest] at later
        exact absurd later (by decide)
    | some state =>
        rcases verifies state rfl later with ⟨oldCheckpoint, built, verified⟩
        simp only [built, verified]
  · rw [if_neg later]

theorem checkConsistency_error {vetted : Vetted crates} {current : Option LogState}
    {error : WitnessError} (failed : checkConsistency vetted current = .error error)
    (latest : UInt64) : error ≠ .rejected (.sizeConflict latest) := by
  unfold checkConsistency at failed
  split_ifs at failed
  split at failed
  · cases failed
    simp
  · split at failed
    · cases failed
      simp
    · split at failed
      · cases failed
      · split_ifs at failed <;> cases failed <;> simp

theorem cosign_error {identity : Identity} {vetted : Vetted crates} {timestamp : UInt64}
    {error : WitnessError} (failed : cosign identity vetted timestamp = .error error)
    (latest : UInt64) : error ≠ .rejected (.sizeConflict latest) := by
  rw [cosign] at failed
  split at failed
  · cases failed
    simp
  · split at failed
    · cases failed
      simp
    · split at failed
      · cases failed
        simp
      · cases failed

/-- What a successful cosigning has put together. -/
structure Cosigned (identity : Identity) (vetted : Vetted crates) (timestamp : UInt64)
    (state : LogState) (body : Text) : Prop where
  origin : state.origin = vetted.origin
  size : state.size = vetted.newSize
  root : state.root = vetted.newRoot
  signed : ∃ edSig mlSig note,
    crates.log.signEd25519 vetted.noteText identity.name identity.ed25519.seed timestamp =
        .ok edSig ∧
      crates.log.signMldsa44 vetted.noteText identity.name identity.mldsa44.seed timestamp =
        .ok mlSig ∧
      crates.log.newNote vetted.noteText (vetted.verified ++ [edSig, mlSig]) = .ok note ∧
      state.note = crates.log.marshal note ∧
      body = crates.log.marshalLine edSig ++ ['\n'] ++ crates.log.marshalLine mlSig ++ ['\n']

def LogState.head (state : LogState) : MetamorphicLog.Head := ⟨state.size, state.root⟩

theorem Cosigned.head {identity : Identity} {vetted : Vetted crates}
    {timestamp : UInt64} {state : LogState} {body : Text}
    (cosigned : Cosigned identity vetted timestamp state body) :
    crates.log.head vetted.request.checkpoint = state.head := by
  rw [LogState.head, cosigned.size, cosigned.root]
  rfl

theorem cosign_ok {identity : Identity} {vetted : Vetted crates} {timestamp : UInt64}
    {state : LogState} {body : Text}
    (signed : cosign identity vetted timestamp = .ok (state, body)) :
    Cosigned identity vetted timestamp state body := by
  rw [cosign] at signed
  split at signed
  · cases signed
  · rename_i edSig ed
    split at signed
    · cases signed
    · rename_i mlSig ml
      split at signed
      · cases signed
      · rename_i note framed
        cases signed
        exact ⟨rfl, rfl, rfl, edSig, mlSig, note, ed, ml, framed, rfl, rfl⟩

/-- Everything the closure has checked when it approves. -/
structure Settled (identity : Identity) (vetted : Vetted crates) (timestamp : UInt64)
    (current : Option LogState) (state : LogState) (body : Text) : Prop where
  latest : vetted.oldSize = latestSize current
  emptyRoot : vetted.newSize = 0 → vetted.newRoot = crates.log.emptyRoot
  noProof : vetted.oldSize = 0 → vetted.proof = []
  consistent : checkConsistency vetted current = .ok ()
  cosigned : Cosigned identity vetted timestamp state body

theorem settle_ok {identity : Identity} {vetted : Vetted crates} {timestamp : UInt64}
    {current : Option LogState} {state : LogState} {body : Text}
    (approved : settle identity vetted timestamp current = .ok (state, body)) :
    Settled identity vetted timestamp current state body := by
  rw [settle] at approved
  split_ifs at approved with other hollow unproved
  split at approved
  · cases approved
  · rename_i consistent
    have latest : vetted.oldSize = latestSize current := not_not.mp other
    refine ⟨latest, ?_, ?_, consistent, cosign_ok approved⟩
    · intro zero
      by_contra root
      exact hollow ⟨zero, root⟩
    · intro zero
      by_contra lines
      exact unproved ⟨zero, lines⟩

theorem settle_origin {identity : Identity} {vetted : Vetted crates} {timestamp : UInt64}
    {current : Option LogState} {state : LogState} {body : Text}
    (approved : settle identity vetted timestamp current = .ok (state, body)) :
    state.origin = vetted.origin := (settle_ok approved).cosigned.origin

theorem vet_accepts {logs : Allowlist crates} {body : Text} {request : ParsedRequest crates}
    {trusted : List crates.log.VerifierKey} {verified : List crates.log.Signature}
    (parsed : parseRequest crates body = .ok request)
    (held : logs.vkeys.lookup (crates.log.origin request.checkpoint) = some trusted)
    (checked : crates.log.verify request.note trusted = .ok verified)
    (ordered : request.oldSize ≤ crates.log.size request.checkpoint) :
    vet crates logs body = .ok ⟨request, logs, trusted, verified, held, checked, ordered⟩ :=
  vet_eq (.passed parsed rfl)

theorem cosign_signed (notes : crates.log.NewNoteAccepts) {identity : Identity}
    {vetted : Vetted crates} {timestamp : UInt64} {edSig mlSig : crates.log.Signature}
    (ed : crates.log.signEd25519 vetted.noteText identity.name identity.ed25519.seed timestamp =
      .ok edSig)
    (ml : crates.log.signMldsa44 vetted.noteText identity.name identity.mldsa44.seed timestamp =
      .ok mlSig) :
    ∃ state body, cosign identity vetted timestamp = .ok (state, body) := by
  obtain ⟨source, parsed⟩ := vetted.request.wellFormed
  obtain ⟨note, framed⟩ := notes source vetted.request.note (vetted.verified ++ [edSig, mlSig])
    parsed (by simp)
  have outcome : cosign identity vetted timestamp =
      .ok (⟨vetted.origin, vetted.newSize, vetted.newRoot, crates.log.marshal note⟩,
        crates.log.marshalLine edSig ++ ['\n'] ++ crates.log.marshalLine mlSig ++ ['\n']) := by
    have framed' : crates.log.newNote vetted.noteText _ = .ok note := framed
    simp only [cosign, ed, ml, framed']
  exact ⟨_, _, outcome⟩

section Succeeds

variable {identity : Identity} {vetted : Vetted crates}
  (signers : crates.log.SignersSucceed identity.name identity.ed25519.seed identity.mldsa44.seed
    vetted.origin) (notes : crates.log.NewNoteAccepts)
include signers notes

theorem cosign_succeeds {timestamp : UInt64} (timed : timestamp ≠ 0) :
    ∃ state body, cosign identity vetted timestamp = .ok (state, body) := by
  obtain ⟨⟨edSig, ed⟩, mlSig, ml⟩ := signers _ _ timestamp vetted.request.read rfl timed
  exact cosign_signed notes ed ml

theorem settle_succeeds {timestamp : UInt64} (timed : timestamp ≠ 0)
    {current : Option LogState} (latest : vetted.oldSize = latestSize current)
    (emptyRoot : vetted.newSize = 0 → vetted.newRoot = crates.log.emptyRoot)
    (noProof : vetted.oldSize = 0 → vetted.proof = [])
    (consistent : checkConsistency vetted current = .ok ()) :
    ∃ state body, settle identity vetted timestamp current = .ok (state, body) := by
  obtain ⟨state, body, signed⟩ := cosign_succeeds signers notes timed
  refine ⟨state, body, ?_⟩
  rw [settle]
  rw [if_neg (not_not.mpr latest), if_neg (fun hollow => hollow.2 (emptyRoot hollow.1)),
    if_neg (fun unproved => unproved.2 (noProof unproved.1)), consistent]
  exact signed

end Succeeds

end AddCheckpoint

end MosskeysWitness
