import MosskeysWitness.Library.Lines
import MosskeysWitness.Reference.Json

/-! What the checksum of a record commits to, for any two records that are read back. -/

namespace MosskeysWitness

namespace Record

def payload (record : Record) : List UInt8 :=
  Utf8.encode (canonicalPayload record.origin record.size record.root record.note)

end Record

theorem canonicalPayload_lines (origin : Text) (size : UInt64) (rootB64 note : Text) :
    canonicalPayload origin size rootB64 note = 'v' :: '1' :: '\n' ::
      (origin ++ '\n' :: (decimal size ++ '\n' :: (rootB64 ++ '\n' :: note))) := by
  simp [canonicalPayload]

/-- Four fields joined by newlines come apart in one way, once it is said how many of the lines
belong to the origin. -/
theorem canonicalPayload_fields {origin origin' : Text} {size size' : UInt64}
    {root root' note note' : Text} (single : '\n' ∉ root) (single' : '\n' ∉ root')
    (same : canonicalPayload origin size root note = canonicalPayload origin' size' root' note')
    (lines : origin.count '\n' = origin'.count '\n') :
    origin = origin' ∧ size = size' ∧ root = root' ∧ note = note' := by
  simp only [canonicalPayload_lines, List.cons.injEq, true_and] at same
  obtain ⟨origins, same⟩ := Lines.cut_unique same lines
  have none : ∀ {line : Text}, '\n' ∉ line → line.count '\n' = 0 := List.count_eq_zero_of_not_mem
  obtain ⟨sizes, same⟩ := Lines.cut_unique same
    ((none (decimal_single size)).trans (none (decimal_single size')).symm)
  obtain ⟨roots, notes⟩ := Lines.cut_unique same ((none single).trans (none single').symm)
  exact ⟨origins, decimal_injective sizes, roots, notes⟩

variable {crates : StoreCrates} {record other : Record} {state state' : LogState}

theorem root_of_read (canonical : crates.base64.Canonical)
    (read : record.intoState crates = .ok state) :
    record.root = crates.base64.encode state.root.bytes := by
  obtain ⟨-, -, decoded, -⟩ := Record.intoState_eq_ok_iff.mp read
  exact (canonical.decode_iff _ _).mp decoded

theorem sha256_of_read (read : record.intoState crates = .ok state) :
    record.sha256 = hex (crates.sha256 record.payload).bytes :=
  (Record.intoState_eq_ok_iff.mp read).2.1

theorem fields_of_read (read : record.intoState crates = .ok state) :
    record.v = Record.version ∧ record.origin = state.origin ∧ record.size = state.size ∧
      record.note = state.note := by
  obtain ⟨version, -, -, -, origin, size, note⟩ := Record.intoState_eq_ok_iff.mp read
  exact ⟨version, origin, size, note⟩

/-- With one checksum, two records that are read back are one record if their origins have
equally many lines. -/
theorem eq_of_sha256 (canonical : crates.base64.Canonical)
    (read : record.intoState crates = .ok state) (read' : other.intoState crates = .ok state')
    (unbroken : crates.sha256 record.payload = crates.sha256 other.payload →
      record.payload = other.payload)
    (same : record.sha256 = other.sha256)
    (lines : record.origin.count '\n' = other.origin.count '\n') : record = other := by
  have sums := same
  rw [sha256_of_read read, sha256_of_read read'] at sums
  have payloads := Utf8.encode_injective (unbroken (Hash.eq_of_bytes (hex_injective sums)))
  have single : '\n' ∉ record.root := root_of_read canonical read ▸ canonical.encode_single _
  have single' : '\n' ∉ other.root := root_of_read canonical read' ▸ canonical.encode_single _
  obtain ⟨origins, sizes, roots, notes⟩ := canonicalPayload_fields single single' payloads lines
  have versions := (fields_of_read read).1.trans (fields_of_read read').1.symm
  rcases record with ⟨v, origin, size, root, note, sha256⟩
  rcases other with ⟨v', origin', size', root', note', sha256'⟩
  rw [Record.mk.injEq]
  exact ⟨versions, origins, sizes, roots, notes, same⟩

/-- Of two records that are read back under one checksum, neither the states nor any field differ,
exactly when the origins have equally many lines. -/
theorem checksum_commits_iff (canonical : crates.base64.Canonical)
    (read : record.intoState crates = .ok state) (read' : other.intoState crates = .ok state')
    (unbroken : crates.sha256 record.payload = crates.sha256 other.payload →
      record.payload = other.payload)
    (same : record.sha256 = other.sha256) :
    (state = state' ↔ record.origin.count '\n' = other.origin.count '\n') ∧
      (record = other ↔ record.origin.count '\n' = other.origin.count '\n') := by
  have unchanged := eq_of_sha256 canonical read read' unbroken same
  constructor
  · constructor
    · intro states
      rw [(fields_of_read read).2.1, (fields_of_read read').2.1, states]
    · intro lines
      have results := congrArg (Record.intoState crates) (unchanged lines)
      rw [read, read'] at results
      exact Except.ok.inj results
  · constructor
    · intro records
      rw [records]
    · exact unchanged

section Shifted

/-- The record with the three lines of a checkpoint moved from the note into the origin, under the
checksum of the state's own record. -/
def Record.shifted (crates : StoreCrates) (state : LogState) (rest : Text) : Record :=
  { Record.fromState crates state with
    origin := state.origin ++ '\n' :: (decimal state.size ++ '\n' ::
      (crates.base64.encode state.root.bytes ++ '\n' :: state.origin))
    note := rest }

def LogState.shifted (crates : StoreCrates) (state : LogState) (rest : Text) : LogState :=
  { state with origin := (Record.shifted crates state rest).origin, note := rest }

/-- A note opens with the origin, the size and the root, so every record can be shifted. -/
def NoteOpens (crates : StoreCrates) (state : LogState) (rest : Text) : Prop :=
  state.note = state.origin ++ '\n' :: (decimal state.size ++ '\n' ::
    (crates.base64.encode state.root.bytes ++ '\n' :: rest))

theorem shifted_payload {rest : Text} (opens : NoteOpens crates state rest) :
    (Record.shifted crates state rest).payload = (Record.fromState crates state).payload := by
  have lines : canonicalPayload (Record.shifted crates state rest).origin state.size
      (crates.base64.encode state.root.bytes) rest =
        canonicalPayload state.origin state.size (crates.base64.encode state.root.bytes)
          state.note := by
    rw [opens]
    simp [Record.shifted, canonicalPayload_lines]
  exact congrArg Utf8.encode lines

theorem shifted_read (faithful : crates.Faithful) {rest : Text}
    (opens : NoteOpens crates state rest) : (Record.shifted crates state rest).intoState crates =
      .ok (state.shifted crates rest) := by
  have decoded : crates.base64.decode (crates.base64.encode state.root.bytes) =
      .ok state.root.bytes := (faithful.base64.decode_iff _ _).mpr rfl
  have summed := congrArg (fun payload => hex (crates.sha256 payload).bytes) (shifted_payload opens)
  have named : (Record.shifted crates state rest).origin ≠ [] := by
    simp [Record.shifted]
  rw [Record.intoState_eq_ok_iff]
  exact ⟨rfl, summed.symm, decoded, named, rfl, rfl, rfl⟩

end Shifted

namespace Reference

def cosignedRest : Text := ['\n', '—', ' ', 'w', ' ', 'A', 'A', 'A', 'A', '\n']

def cosigned : LogState where
  origin := ['a']
  size := 1
  root := ⟨List.replicate 32 0, List.length_replicate⟩
  note := 'a' :: '\n' :: (decimal 1 ++ '\n' ::
    (storeCrates.base64.encode (List.replicate 32 0) ++ '\n' :: cosignedRest))

theorem cosigned_opens : NoteOpens storeCrates cosigned cosignedRest := rfl

theorem cosigned_read :
    (Record.fromState storeCrates cosigned).intoState storeCrates = .ok cosigned :=
  Record.intoState_fromState storeCrates_faithful (by decide)

end Reference

open Reference in
theorem cosigned_shift_commits :
    (cosigned = cosigned.shifted storeCrates cosignedRest ↔
      (Record.fromState storeCrates cosigned).origin.count '\n' =
        (Record.shifted storeCrates cosigned cosignedRest).origin.count '\n') ∧
      (Record.fromState storeCrates cosigned = Record.shifted storeCrates cosigned cosignedRest ↔
        (Record.fromState storeCrates cosigned).origin.count '\n' =
          (Record.shifted storeCrates cosigned cosignedRest).origin.count '\n') :=
  checksum_commits_iff base64_canonical cosigned_read
    (shifted_read storeCrates_faithful cosigned_opens)
    (fun _ => (shifted_payload cosigned_opens).symm) rfl

open Reference in
/-- Two records are read back under one checksum as two states. -/
theorem shifted_record_accepted :
    (Record.fromState storeCrates cosigned).intoState storeCrates = .ok cosigned ∧
      (Record.shifted storeCrates cosigned cosignedRest).intoState storeCrates =
        .ok (cosigned.shifted storeCrates cosignedRest) ∧
      (Record.fromState storeCrates cosigned).sha256 =
        (Record.shifted storeCrates cosigned cosignedRest).sha256 ∧
      cosigned ≠ cosigned.shifted storeCrates cosignedRest := by
  refine ⟨cosigned_read, shifted_read storeCrates_faithful cosigned_opens, rfl, ?_⟩
  intro same
  have origins := congrArg (fun state => state.origin.count '\n') same
  revert origins
  decide

end MosskeysWitness
