import Mathlib.Data.Finmap
import MosskeysWitness.Record
import MosskeysWitness.Library.Lines
import MosskeysWitness.Library.Strings

/-! The atomic per-log state store: an append-only file of one JSON record a line, the map
replayed from it, and the check-and-update that extends both. -/

namespace MosskeysWitness

/-- Latest state per origin. Equal maps answer every lookup alike; the iteration order of the
hash map is not part of it. -/
abbrev States := Finmap fun _ : Text => LogState

/-- The I/O failures the store can report. -/
inductive IoError where
  | opening
  | invalidData
  | write
  | sync
  deriving DecidableEq

inductive StoreError where
  | locked (path : String)
  | corrupt (path : String) (record : Nat) (reason : String)
  | io (path : String) (source : IoError)
  deriving DecidableEq

inductive UpdateError (ε : Type) where
  | rejected (reason : ε)
  | store (error : StoreError)

/-- The open file, as the bytes it holds, and the replayed truth. -/
structure Inner where
  file : List UInt8
  states : States

structure Store where
  path : String
  inner : Inner

def newline : UInt8 := 10

/-- What replay makes of one line of text. -/
def readRecord (crates : StoreCrates) (line : Text) : Except String LogState :=
  match crates.json.fromStr (Strings.trimEnd line) with
  | .error e => .error e
  | .ok record => record.intoState crates

/-- The loop of `replay` over the lines that `read_line` has still to return. It comes back
with the replayed map and the newline flag, and with the file as it leaves it. -/
def replayLines (crates : StoreCrates) (path : String) (file : List UInt8) :
    List (List UInt8) → Nat → Nat → States → Bool →
      Except StoreError (States × Bool) × List UInt8
  | [], _, _, states, needsNewline => (.ok (states, needsNewline), file)
  | raw :: more, offset, recordNo, states, needsNewline =>
      match Utf8.decode raw with
      | none => (.error (.io path .invalidData), file)
      | some line =>
          match readRecord crates line with
          | .ok state =>
              replayLines crates path file more (offset + raw.length) (recordNo + 1)
                (states.insert state.origin state) (!(line.getLast? == some '\n'))
          | .error reason =>
              match more with
              -- Torn tail: nothing readable follows, cut back to the last good boundary.
              | [] => (.ok (states, needsNewline), file.take offset)
              | probe :: _ =>
                  match Utf8.decode probe with
                  | none => (.error (.io path .invalidData), file)
                  | some _ => (.error (.corrupt path (recordNo + 1) reason), file)

def replay (crates : StoreCrates) (path : String) (file : List UInt8) :
    Except StoreError (States × Bool) × List UInt8 :=
  replayLines crates path file (Lines.split newline file) 0 0 ∅ false

/-- `Store::open` on a file holding `file` (an absent file is created empty), and the bytes the
file holds afterwards. `locked` says that another instance has the exclusive lock. -/
def Store.open (crates : StoreCrates) (path : String) (locked : Bool) (file : List UInt8) :
    Except StoreError Store × List UInt8 :=
  if locked then (.error (.locked path), file)
  else match replay crates path file with
    | (.error e, file) => (.error e, file)
    | (.ok (states, needsNewline), file) =>
        let file := if needsNewline then file ++ [newline] else file
        (.ok ⟨path, ⟨file, states⟩⟩, file)

def Store.latest (store : Store) (origin : Text) : Option LogState :=
  store.inner.states.lookup origin

/-- How an append fails: `write_all` errors after some bytes of the line, or the whole line is
written and `sync_all` errors. -/
inductive AppendFault where
  | write (written : Nat)
  | sync
  deriving DecidableEq

def Inner.append (crates : StoreCrates) (inner : Inner) (state : LogState) (path : String)
    (fault : Option AppendFault) : Except StoreError Unit × Inner :=
  match crates.json.toString (Record.fromState crates state) with
  | .error e => (.error (.corrupt path 0 s!"serialization failed: {e}"), inner)
  | .ok text =>
      let line := Utf8.encode (text ++ ['\n'])
      match fault with
      | none => (.ok (), { inner with file := inner.file ++ line })
      | some (.write written) =>
          (.error (.io path .write), { inner with file := inner.file ++ line.take written })
      | some .sync => (.error (.io path .sync), { inner with file := inner.file ++ line })

/-- `check` sees the latest state of `origin`; what it approves is appended, and only after
that enters the map. -/
def Store.update {τ ε : Type} (crates : StoreCrates) (store : Store) (origin : Text)
    (check : Option LogState → Except ε (LogState × τ)) (fault : Option AppendFault) :
    Except (UpdateError ε) τ × Store :=
  match check (store.inner.states.lookup origin) with
  | .error e => (.error (.rejected e), store)
  | .ok (newState, payload) =>
      match store.inner.append crates newState store.path fault with
      | (.error e, inner) => (.error (.store e), { store with inner := inner })
      | (.ok (), inner) =>
          (.ok payload, { store with
            inner := { inner with states := inner.states.insert origin newState } })

end MosskeysWitness
