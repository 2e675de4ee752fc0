import MosskeysWitness.Crates
import MosskeysWitness.Library.Utf8

/-! The durable record of one log: its on-disk form, its checksum, and what of it is checked
when it is read back. -/

namespace MosskeysWitness

structure LogState where
  origin : Text
  size : UInt64
  root : Hash
  note : Text
  deriving DecidableEq

structure Record where
  v : UInt8
  origin : Text
  size : UInt64
  root : Text
  note : Text
  sha256 : Text
  deriving DecidableEq

/-- The crates the state store is built on. -/
structure StoreCrates where
  sha256 : List UInt8 → Hash
  base64 : Base64Engine
  json : SerdeJson Record

structure StoreCrates.Faithful (crates : StoreCrates) : Prop where
  base64 : crates.base64.Canonical
  json : crates.json.Faithful

def decimal (value : UInt64) : Text := Nat.toDigits 10 value.toNat

/-- Lowercase, two digits a byte. -/
def hex (bytes : List UInt8) : Text :=
  bytes.flatMap fun byte => [Nat.digitChar (byte.toNat / 16), Nat.digitChar (byte.toNat % 16)]

theorem decimal_digits {size : UInt64} {digit : Char} (member : digit ∈ decimal size) :
    digit.isDigit = true :=
  Nat.isDigit_of_mem_toDigits (by decide) (by decide) member

theorem decimal_single (size : UInt64) : '\n' ∉ decimal size := by
  intro member
  exact absurd (decimal_digits member) (by decide)

theorem decimal_injective {left right : UInt64} (same : decimal left = decimal right) :
    left = right := by
  have value : ∀ size : UInt64, Nat.ofDigitChars 10 (decimal size) 0 = size.toNat := by
    intro size
    exact Nat.ofDigitChars_ten_toDigits
  have values := congrArg (fun digits => Nat.ofDigitChars 10 digits 0) same
  simp only [value] at values
  exact UInt64.toNat_inj.mp values

private theorem digitChar_injective {left right : Nat} (small : left < 16) (small' : right < 16)
    (same : Nat.digitChar left = Nat.digitChar right) : left = right := by
  have table : ∀ left < 16, ∀ right < 16, Nat.digitChar left = Nat.digitChar right →
      left = right := by decide
  exact table left small right small' same

theorem hex_cons (byte : UInt8) (bytes : List UInt8) :
    hex (byte :: bytes) = Nat.digitChar (byte.toNat / 16) ::
      Nat.digitChar (byte.toNat % 16) :: hex bytes := by
  simp [hex]

theorem hex_injective {left right : List UInt8} (same : hex left = hex right) : left = right := by
  induction left generalizing right with
  | nil =>
      cases right with
      | nil => rfl
      | cons byte bytes =>
          rw [hex_cons] at same
          cases same
  | cons byte bytes ih =>
      cases right with
      | nil =>
          rw [hex_cons] at same
          cases same
      | cons byte' bytes' =>
          rw [hex_cons, hex_cons, List.cons.injEq, List.cons.injEq] at same
          have bound := byte.toNat_lt
          have bound' := byte'.toNat_lt
          have high := digitChar_injective (by omega) (by omega) same.1
          have low := digitChar_injective (by omega) (by omega) same.2.1
          have value : byte.toNat = byte'.toNat := by omega
          rw [UInt8.toNat_inj.mp value, ih same.2.2]

theorem Hash.eq_of_bytes {left right : Hash} (same : left.bytes = right.bytes) : left = right := by
  cases left
  cases right
  cases same
  rfl

def canonicalPayload (origin : Text) (size : UInt64) (rootB64 note : Text) : Text :=
  ['v', '1', '\n'] ++ origin ++ ['\n'] ++ decimal size ++ ['\n'] ++ rootB64 ++ ['\n'] ++ note

namespace Record

def version : UInt8 := 1

def fromState (crates : StoreCrates) (state : LogState) : Record :=
  let root := crates.base64.encode state.root.bytes
  let payload := canonicalPayload state.origin state.size root state.note
  { v := version
    origin := state.origin
    size := state.size
    root := root
    note := state.note
    sha256 := hex (crates.sha256 (Utf8.encode payload)).bytes }

def intoState (crates : StoreCrates) (record : Record) : Except String LogState :=
  let v := record.v
  if v ≠ version then .error s!"unsupported record version {v}"
  else
    let payload := canonicalPayload record.origin record.size record.root record.note
    let want := hex (crates.sha256 (Utf8.encode payload)).bytes
    if record.sha256 ≠ want then .error "checksum mismatch"
    else match crates.base64.decode record.root with
      | .error e => .error s!"root is not valid base64: {e}"
      | .ok root =>
          if sized : root.length = 32 then
            if record.origin = [] then .error "origin is empty"
            else .ok ⟨record.origin, record.size, ⟨root, sized⟩, record.note⟩
          else .error "root must decode to exactly 32 bytes"

variable {crates : StoreCrates}

theorem intoState_eq_ok_iff {record : Record} {state : LogState} :
    record.intoState crates = .ok state ↔
      record.v = version ∧
      record.sha256 = hex (crates.sha256 (Utf8.encode
        (canonicalPayload record.origin record.size record.root record.note))).bytes ∧
      crates.base64.decode record.root = .ok state.root.bytes ∧
      record.origin ≠ [] ∧ record.origin = state.origin ∧ record.size = state.size ∧
      record.note = state.note := by
  rcases state with ⟨origin, size, ⟨root, sized⟩, note⟩
  simp only [intoState]
  generalize hex (crates.sha256 (Utf8.encode
    (canonicalPayload record.origin record.size record.root record.note))).bytes = want
  by_cases versioned : record.v = version
  · by_cases summed : record.sha256 = want
    · cases decoded : crates.base64.decode record.root with
      | error e => simp [versioned, summed]
      | ok bytes =>
          by_cases full : bytes.length = 32
          · by_cases empty : record.origin = []
            · simp [versioned, summed, full, empty]
            · simp only [versioned, summed, full, empty, ne_eq, not_true_eq_false, if_false,
                dif_pos, Except.ok.injEq, LogState.mk.injEq, Hash.mk.injEq, true_and,
                not_false_eq_true]
              tauto
          · have other : bytes ≠ root := by
              intro same
              subst same
              exact full sized
            simp [versioned, summed, full, other]
    · simp [versioned, summed]
  · simp [versioned]

theorem intoState_fromState (faithful : crates.Faithful) {state : LogState}
    (named : state.origin ≠ []) : (fromState crates state).intoState crates = .ok state := by
  rw [intoState_eq_ok_iff]
  have decoded : crates.base64.decode (crates.base64.encode state.root.bytes) =
      .ok state.root.bytes := (faithful.base64.decode_iff _ _).mpr rfl
  exact ⟨rfl, rfl, decoded, named, rfl, rfl, rfl⟩

end Record

end MosskeysWitness
