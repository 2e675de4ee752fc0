import MosskeysWitness.System
import MosskeysWitness.Durability

/-! The monitoring lookup by origin hash: what it answers for every path parameter, on any store
that opens and updates can bring about. -/

namespace MosskeysWitness

variable {crates : StoreCrates} {τ ε : Type}

section Hex

private theorem digitChar_byte {value : Nat} (small : value < 16) :
    ∃ byte, Utf8.encode [Nat.digitChar value] = [byte] ∧ isHashByte byte = true := by
  have table : ∀ value < 16, (Utf8.encode [Nat.digitChar value]).length = 1 ∧
      (Utf8.encode [Nat.digitChar value]).all isHashByte = true := by decide
  obtain ⟨single, allowed⟩ := table value small
  obtain ⟨byte, only⟩ := List.length_eq_one_iff.mp single
  rw [only] at allowed
  exact ⟨byte, only, by simpa using allowed⟩

theorem isOriginHash_hex (hash : Hash) : isOriginHash (hex hash.bytes) = true := by
  have shape : ∀ bytes : List UInt8, (Utf8.encode (hex bytes)).length = 2 * bytes.length ∧
      (Utf8.encode (hex bytes)).all isHashByte = true := by
    intro bytes
    induction bytes with
    | nil => exact ⟨rfl, rfl⟩
    | cons byte bytes ih =>
        have bound := byte.toNat_lt
        have front : byte.toNat / 16 < 16 := by omega
        have back : byte.toNat % 16 < 16 := by omega
        obtain ⟨high, encoded, allowed⟩ := digitChar_byte front
        obtain ⟨low, encoded', allowed'⟩ := digitChar_byte back
        rw [hex_cons, ← List.singleton_append, Utf8.encode_append, encoded,
          ← List.singleton_append (l := hex bytes), Utf8.encode_append, encoded']
        simp [ih.1, ih.2, allowed, allowed']
        omega
  rw [isOriginHash, (shape hash.bytes).1, (shape hash.bytes).2, hash.length_eq]
  rfl

end Hex

/-- A store that came from an open of any file, with the updates made on it, whether they failed
or not. The journal has the records the open read and the ones accepted since. -/
inductive Serving (crates : StoreCrates) (path : String) (τ ε : Type) :
    Store → List LogState → Prop
  | opened {file after store journal} :
      Store.open crates path false file = (.ok store, after) →
      List.Forall₂ (Reads crates) (Lines.split newline after) journal →
      Serving crates path τ ε store journal
  | updated {store journal} (call : Call τ ε) :
      Serving crates path τ ε store journal →
      Serving crates path τ ε (store.perform crates call)
        (journal ++ accepted (store.attempt crates call))

variable {path : String} {store : Store} {journal : List LogState}

theorem reads_functional {raws : List (List UInt8)} {first second : List LogState}
    (left : List.Forall₂ (Reads crates) raws first)
    (right : List.Forall₂ (Reads crates) raws second) : first = second := by
  induction left generalizing second with
  | nil =>
      cases right
      rfl
  | cons read reads ih =>
      cases right with
      | cons read' reads' => rw [read.unique read', ih reads']

theorem serving_states (faithful : crates.Faithful)
    (serving : Serving crates path τ ε store journal) :
    store.inner.states = latestStates journal := by
  induction serving with
  | opened succeeded reads =>
      obtain ⟨raws, found, reads', ended, rfl, rfl⟩ := open_ok succeeded
      have lines := Lines.split_flatten_append ended []
      rw [List.append_nil, Lines.split_nil, List.append_nil] at lines
      rw [lines] at reads
      rw [reads_functional reads reads']
      rfl
  | updated call serving ih =>
      rename_i store journal
      cases outcome : store.approved call with
      | none =>
          obtain ⟨same, none, -⟩ := rejected_changes_nothing crates outcome
          rw [same, none]
          simpa [accepted] using ih
      | some state =>
          obtain ⟨after, attempt⟩ := perform_approved faithful outcome
          rw [after, attempt]
          by_cases clean : call.fault = none
          · simp [clean, accepted, ih, latestStates, LastWins.fold_concat]
          · simp [clean, accepted, ih]

section Lookup

variable (order : IterationOrder store.inner.states)

theorem mem_walk {state : LogState} :
    state ∈ order.keys.filterMap store.latest ↔ ∃ origin, store.latest origin = some state := by
  rw [List.mem_filterMap]
  constructor
  · intro member
    rcases member with ⟨origin, -, held⟩
    exact ⟨origin, held⟩
  · intro held
    rcases held with ⟨origin, held⟩
    exact ⟨origin, (order.complete origin).mpr (Finmap.mem_of_lookup_eq_some held), held⟩

theorem latestByOriginHash_finds {hash : Text} {state : LogState}
    (found : store.latestByOriginHash crates order hash = some state) :
    store.FindsByOriginHash crates hash state := by
  have member := List.mem_of_find?_eq_some found
  have hashes := List.find?_some found
  exact ⟨(mem_walk order).mp member, of_decide_eq_true hashes⟩

variable (states : store.inner.states = latestStates journal)
  (distinct : ∀ left ∈ journal, ∀ right ∈ journal,
    crates.sha256 (Utf8.encode left.origin) = crates.sha256 (Utf8.encode right.origin) →
      left.origin = right.origin)
include states distinct

/-- The lookup by hash is the lookup by origin, in every iteration order. -/
theorem latestByOriginHash_iff (hash : Text) (state : LogState) :
    store.latestByOriginHash crates order hash = some state ↔
      ∃ origin, store.latest origin = some state ∧
        hash = hex (crates.sha256 (Utf8.encode origin)).bytes := by
  have keyed : ∀ origin state, store.latest origin = some state →
      state.origin = origin ∧ state ∈ journal := by
    intro origin state held
    rw [Store.latest, states] at held
    exact ⟨LastWins.key_of_lookup held, LastWins.mem_of_lookup held⟩
  constructor
  · intro found
    obtain ⟨⟨origin, held⟩, hashes⟩ := latestByOriginHash_finds order found
    exact ⟨origin, held, by rw [← hashes, (keyed origin state held).1]⟩
  · intro sought
    rcases sought with ⟨origin, held, rfl⟩
    obtain ⟨rfl, inside⟩ := keyed origin state held
    have some_match : ((order.keys.filterMap store.latest).find? fun other =>
        hex (crates.sha256 (Utf8.encode other.origin)).bytes =
          hex (crates.sha256 (Utf8.encode state.origin)).bytes).isSome := by
      rw [List.find?_isSome]
      exact ⟨state, (mem_walk order).mpr ⟨_, held⟩, by simp⟩
    obtain ⟨other, found⟩ := Option.isSome_iff_exists.mp some_match
    rcases latestByOriginHash_finds order found with ⟨⟨origin, held'⟩, hashes⟩
    obtain ⟨rfl, inside'⟩ := keyed origin other held'
    have digests : crates.sha256 (Utf8.encode other.origin) =
        crates.sha256 (Utf8.encode state.origin) := Hash.eq_of_bytes (hex_injective hashes)
    have same := distinct other inside' state inside digests
    rw [same] at held'
    have equal : some other = some state := held'.symm.trans held
    rw [← equal]
    exact found

end Lookup

/-- Every path parameter is answered with the note of the cosigned origin it is the hash of, and
otherwise not found. The shape test turns away nothing the walk would find, and for a cosigned
origin the walk finds what the lookup by origin finds. -/
structure LookupExact (crates : StoreCrates) (store : Store) (journal : List LogState)
    (order : IterationOrder store.inner.states) : Prop where
  served : ∀ param note, latestCheckpoint crates store order param = ⟨200, none, note⟩ ↔
    ∃ origin state, (latestStates journal).lookup origin = some state ∧
      param = hex (crates.sha256 (Utf8.encode origin)).bytes ∧ state.note = note
  unserved : ∀ param, (∀ note, latestCheckpoint crates store order param ≠ ⟨200, none, note⟩) →
    latestCheckpoint crates store order param = ⟨404, none, []⟩
  guarded : ∀ param, isOriginHash param = false →
    store.latestByOriginHash crates order param = none
  agrees : ∀ origin ∈ latestStates journal,
    store.latestByOriginHash crates order (hex (crates.sha256 (Utf8.encode origin)).bytes) =
      store.latest origin

/-- No two cosigned origins have one hash. -/
def NoCollision (crates : StoreCrates) (journal : List LogState) : Prop :=
  ∀ left ∈ journal, ∀ right ∈ journal,
    crates.sha256 (Utf8.encode left.origin) = crates.sha256 (Utf8.encode right.origin) →
      left.origin = right.origin

theorem lookup_of_states (states : store.inner.states = latestStates journal)
    (distinct : NoCollision crates journal) (order : IterationOrder store.inner.states) :
    LookupExact crates store journal order := by
  have found := latestByOriginHash_iff order states distinct
  have guarded : ∀ param, isOriginHash param = false →
      store.latestByOriginHash crates order param = none := by
    intro param shapeless
    cases outcome : store.latestByOriginHash crates order param with
    | none => rfl
    | some state =>
        obtain ⟨origin, -, rfl⟩ := (found param state).mp outcome
        rw [isOriginHash_hex] at shapeless
        cases shapeless
  have hit : ∀ param state, store.latestByOriginHash crates order param = some state →
      latestCheckpoint crates store order param = ⟨200, none, state.note⟩ := by
    intro param state outcome
    have shape : isOriginHash param = true := by
      by_contra shapeless
      rw [guarded param (by simpa using shapeless)] at outcome
      cases outcome
    simp [latestCheckpoint, shape, outcome]
  have miss : ∀ param, store.latestByOriginHash crates order param = none →
      latestCheckpoint crates store order param = ⟨404, none, []⟩ := by
    intro param outcome
    cases shape : isOriginHash param <;> simp [latestCheckpoint, shape, outcome]
  refine ⟨?_, ?_, guarded, ?_⟩
  · intro param note
    constructor
    · intro served
      cases outcome : store.latestByOriginHash crates order param with
      | none =>
          rw [miss param outcome] at served
          cases served
      | some state =>
          obtain ⟨origin, held, hashes⟩ := (found param state).mp outcome
          rw [Store.latest, states] at held
          rw [hit param state outcome] at served
          exact ⟨origin, state, held, hashes, congrArg Response.body served⟩
    · intro sought
      rcases sought with ⟨origin, state, held, hashes, rfl⟩
      rw [← states] at held
      exact hit param state ((found param state).mpr ⟨origin, held, hashes⟩)
  · intro param unserved
    cases outcome : store.latestByOriginHash crates order param with
    | none => exact miss param outcome
    | some state => exact absurd (hit param state outcome) (unserved state.note)
  · intro origin member
    obtain ⟨state, held⟩ := Option.isSome_iff_exists.mp (Finmap.lookup_isSome.mpr member)
    rw [← states] at held
    have held' : store.latest origin = some state := held
    rw [held']
    exact (found _ state).mpr ⟨origin, held, rfl⟩

/-- Over every history of opens and updates, and in every iteration order. -/
theorem lookup_is_exact (faithful : crates.Faithful)
    (serving : Serving crates path τ ε store journal) (distinct : NoCollision crates journal)
    (order : IterationOrder store.inner.states) : LookupExact crates store journal order :=
  lookup_of_states (serving_states faithful serving) distinct order

theorem monitoring_is_exact {crates : WitnessCrates} {identity : Identity}
    (faithful : crates.toStoreCrates.Faithful) {process : Process crates} {nextId : Nat}
    {history : History crates} (reachable : Reachable identity ⟨.up process, nextId, history⟩)
    (distinct : NoCollision crates.toStoreCrates (MosskeysWitness.journal history))
    (order : IterationOrder process.witness.store.inner.states) :
    LookupExact crates.toStoreCrates process.witness.store (MosskeysWitness.journal history)
      order := by
  have stored := (sound_of_reachable faithful reachable).durable.2
  exact lookup_of_states (by rw [stored]) distinct order

section OneRecord

open Reference

def oneRecord : Store := freshStore.perform storeCrates (recordDashed none)

theorem oneRecord_states : oneRecord.inner.states = latestStates [dashed] := by
  rw [oneRecord, (perform_recordDashed freshStore none).1]
  rfl

def oneRecordOrder : IterationOrder oneRecord.inner.states where
  keys := [dashed.origin]
  nodup := List.nodup_singleton _
  complete := by
    intro origin
    rw [oneRecord_states, latestStates, ← List.nil_append [dashed], LastWins.fold_concat]
    simp [Finmap.mem_insert, Finmap.notMem_empty]

theorem one_record_is_served :
    latestCheckpoint storeCrates oneRecord oneRecordOrder
      (hex (storeCrates.sha256 (Utf8.encode dashed.origin)).bytes) = ⟨200, none, dashed.note⟩ := by
  have serving : Serving storeCrates "state.jsonl" Unit Unit freshStore [] :=
    .opened open_fresh (by exact .nil)
  have distinct : NoCollision storeCrates [dashed] := by
    intro left member right member' _
    rw [List.mem_singleton.mp member, List.mem_singleton.mp member']
  have recorded := Serving.updated (recordDashed none) serving
  rw [(perform_recordDashed freshStore none).2] at recorded
  have exact_ := lookup_is_exact storeCrates_faithful recorded distinct oneRecordOrder
  have held : (latestStates [dashed]).lookup dashed.origin = some dashed :=
    Finmap.lookup_insert _
  exact (exact_.served _ _).mpr ⟨dashed.origin, dashed, held, rfl, rfl⟩

end OneRecord

end MosskeysWitness
