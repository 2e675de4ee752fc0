import MosskeysWitness.System

/-! Records on which every request is decided alike, whatever else they differ in. -/

namespace MosskeysWitness

variable {crates : WitnessCrates}

/-- The stored note is one on `text`, whoever signed it. -/
def LogState.IsOn (crates : WitnessCrates) (state : LogState) (text : Text) : Prop :=
  ∃ signatures note, crates.log.newNote text signatures = .ok note ∧
    state.note = crates.log.marshal note

/-- Records of one head and one checkpoint text. -/
structure SameHead (crates : WitnessCrates) (state state' : LogState) : Prop where
  origin : state.origin = state'.origin
  size : state.size = state'.size
  root : state.root = state'.root
  text : ∃ text, state.IsOn crates text ∧ state'.IsOn crates text

/-- Both accepted, or both failed with one error. -/
inductive SameOutcome : Except WitnessError Text → Except WitnessError Text → Prop
  | ok {body body'} : SameOutcome (.ok body) (.ok body')
  | error {e} : SameOutcome (.error e) (.error e)

section Decision

variable {vetted : Vetted crates} {current current' : Option LogState}

theorem SameHead.latestSize_eq (same : Option.Rel (SameHead crates) current current') :
    latestSize current = latestSize current' := by
  cases same with
  | none => rfl
  | some head => exact head.size

theorem SameHead.checkConsistency_eq (same : Option.Rel (SameHead crates) current current') :
    checkConsistency vetted current = checkConsistency vetted current' := by
  cases same with
  | none => rfl
  | some head => simp only [checkConsistency, head.size, head.root]

/-- One error, or two records that are related. -/
inductive SameDecision (related : LogState → LogState → Prop) :
    Except WitnessError (LogState × Text) → Except WitnessError (LogState × Text) → Prop
  | error {e} : SameDecision related (.error e) (.error e)
  | ok {state state' body body'} : related state state' →
      SameDecision related (.ok (state, body)) (.ok (state', body'))

theorem Cosigned.isOn {identity : Identity} {timestamp : UInt64} {state : LogState} {body : Text}
    (cosigned : Cosigned identity vetted timestamp state body) :
    state.IsOn crates vetted.noteText := by
  obtain ⟨edSig, mlSig, note, -, -, framed, marshalled, -⟩ := cosigned.signed
  exact ⟨_, note, framed, marshalled⟩

variable {identity identity' : Identity} {timestamp timestamp' : UInt64}

theorem Cosigned.sameHead {state state' : LogState} {body body' : Text}
    (cosigned : Cosigned identity vetted timestamp state body)
    (cosigned' : Cosigned identity' vetted timestamp' state' body') :
    SameHead crates state state' where
  origin := cosigned.origin.trans cosigned'.origin.symm
  size := cosigned.size.trans cosigned'.size.symm
  root := cosigned.root.trans cosigned'.root.symm
  text := ⟨vetted.noteText, cosigned.isOn, cosigned'.isOn⟩

/-- Of the stored record the decision on a request sees the size and the root only. -/
theorem settle_same (same : Option.Rel (SameHead crates) current current')
    {related : LogState → LogState → Prop}
    (signed : SameDecision related (cosign identity vetted timestamp)
      (cosign identity' vetted timestamp')) :
    SameDecision related (settle identity vetted timestamp current)
      (settle identity' vetted timestamp' current') := by
  rw [settle, settle, SameHead.latestSize_eq same, SameHead.checkConsistency_eq same]
  split_ifs
  · exact .error
  · exact .error
  · exact .error
  · cases checkConsistency vetted current' with
    | error error => exact .error
    | ok passed => exact signed

theorem timeless_cases {signature : Type} {sign : UInt64 → Except LogError signature}
    (timeless : ∀ timestamp timestamp' e, timestamp ≠ 0 → timestamp' ≠ 0 →
      sign timestamp = .error e → sign timestamp' = .error e)
    (timed : timestamp ≠ 0) (timed' : timestamp' ≠ 0) :
    (∃ e, sign timestamp = .error e ∧ sign timestamp' = .error e) ∨
      ∃ first second, sign timestamp = .ok first ∧ sign timestamp' = .ok second := by
  cases outcome : sign timestamp with
  | error e => exact Or.inl ⟨e, rfl, timeless _ _ _ timed timed' outcome⟩
  | ok first =>
      cases outcome' : sign timestamp' with
      | error e =>
          rw [timeless _ _ _ timed' timed outcome'] at outcome
          cases outcome
      | ok second => exact Or.inr ⟨first, second, rfl, rfl⟩

theorem cosign_timeless (accepts : crates.log.NewNoteAccepts)
    (timeless : crates.log.SignersTimeless) (timed : timestamp ≠ 0) (timed' : timestamp' ≠ 0) :
    SameDecision (SameHead crates) (cosign identity vetted timestamp)
      (cosign identity vetted timestamp') := by
  have eds := timeless_cases
    (timeless.ed25519 vetted.noteText identity.name identity.ed25519.seed) timed timed'
  have mls := timeless_cases
    (timeless.mldsa44 vetted.noteText identity.name identity.mldsa44.seed) timed timed'
  rcases eds with ⟨e, ed, ed'⟩ | ⟨edSig, edSig', ed, ed'⟩
  · rw [cosign, cosign, ed, ed']
    exact .error
  · rcases mls with ⟨e, ml, ml'⟩ | ⟨mlSig, mlSig', ml, ml'⟩
    · simp only [cosign, ed, ed', ml, ml']
      exact .error
    · rcases cosign_signed accepts ed ml with ⟨state, body, signed⟩
      rcases cosign_signed accepts ed' ml' with ⟨state', body', signed'⟩
      rw [signed, signed']
      exact .ok ((cosign_ok signed).sameHead (cosign_ok signed'))

/-- What two runs may differ in: their stored records and their clocks are related so that every
request is decided alike. -/
structure Kinship (crates : WitnessCrates) (identity : Identity) where
  record : LogState → LogState → Prop
  clock : UInt64 → UInt64 → Prop
  decides : ∀ {vetted : Vetted crates} {timestamp timestamp' current current'},
    timestamp ≠ 0 → timestamp' ≠ 0 → clock timestamp timestamp' →
      Option.Rel record current current' →
      SameDecision record (settle identity vetted timestamp current)
        (settle identity vetted timestamp' current')

theorem settle_equal {timestamp timestamp' : UInt64} (read : timestamp = timestamp')
    (same : Option.Rel (· = ·) current current') :
    SameDecision (· = ·) (settle identity vetted timestamp current)
      (settle identity vetted timestamp' current') := by
  have equal : current = current' := by
    cases same with
    | none => rfl
    | some state => rw [state]
  rw [read, equal]
  cases settle identity vetted timestamp' current' with
  | error error => exact .error
  | ok approved => exact .ok rfl

def Kinship.equal : Kinship crates identity :=
  ⟨(· = ·), (· = ·), fun _ _ read same => settle_equal read same⟩

def Kinship.head (accepts : crates.log.NewNoteAccepts) (timeless : crates.log.SignersTimeless) :
    Kinship crates identity :=
  ⟨SameHead crates, fun _ _ => True, fun timed timed' _ same =>
    settle_same same (cosign_timeless accepts timeless timed timed')⟩

end Decision

end MosskeysWitness
