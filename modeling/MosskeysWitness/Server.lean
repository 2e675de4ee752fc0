import MosskeysWitness.Witness

/-! What the HTTP surface makes of the witness's answers. -/

namespace MosskeysWitness

/-- `contentType` is `none` where the handler sets none and leaves it to the body's type. -/
structure Response where
  status : UInt16
  contentType : Option String
  body : Text
  deriving DecidableEq

def rejectResponse (reject : Reject) : Response :=
  match reject with
  | .sizeConflict latest => ⟨409, some "text/x.tlog.size", decimal latest ++ ['\n']⟩
  | other => ⟨other.status, none, other.message.toList ++ ['\n']⟩

/-- The submission endpoint, given what `add_checkpoint` returned. -/
def addCheckpointResponse : Except WitnessError Text → Response
  | .ok cosignatures => ⟨200, none, cosignatures⟩
  | .error (.rejected reject) => rejectResponse reject
  | .error _ => ⟨500, none, []⟩

/-- `latest_by_origin_hash` may answer `state` for `hash`: it is a value of the map whose origin
hashes to it. Which one it is, should there be several, depends on the map's iteration order. -/
def Store.FindsByOriginHash (crates : StoreCrates) (store : Store) (hash : Text)
    (state : LogState) : Prop :=
  (∃ origin, store.inner.states.lookup origin = some state) ∧
    hex (crates.sha256 (Utf8.encode state.origin)).bytes = hash

/-- An order in which the hash map is walked: each of its keys once. -/
structure IterationOrder (states : States) where
  keys : List Text
  nodup : keys.Nodup
  complete : ∀ origin, origin ∈ keys ↔ origin ∈ states

def Store.latestByOriginHash (crates : StoreCrates) (store : Store)
    (order : IterationOrder store.inner.states) (hash : Text) : Option LogState :=
  (order.keys.filterMap store.latest).find? fun state =>
    hex (crates.sha256 (Utf8.encode state.origin)).bytes = hash

/-- `b.is_ascii_digit() || b.is_ascii_lowercase() && b <= b'f'`. -/
def isHashByte (byte : UInt8) : Bool :=
  (48 ≤ byte && byte ≤ 57) || ((97 ≤ byte && byte ≤ 122) && byte ≤ 102)

def isOriginHash (param : Text) : Bool :=
  (Utf8.encode param).length = 64 && (Utf8.encode param).all isHashByte

/-- The monitoring endpoint, for the path parameter as the router decoded it. -/
def latestCheckpoint (crates : StoreCrates) (store : Store)
    (order : IterationOrder store.inner.states) (originHash : Text) : Response :=
  if !isOriginHash originHash then ⟨404, none, []⟩
  else match store.latestByOriginHash crates order originHash with
    | some state => ⟨200, none, state.note⟩
    | none => ⟨404, none, []⟩

theorem rejectResponse_status (reject : Reject) :
    (rejectResponse reject).status = reject.status := by
  cases reject <;> rfl

end MosskeysWitness
