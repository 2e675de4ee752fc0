import Mathlib.Logic.Function.Basic
import Mathlib.Data.List.Basic
import Mathlib.Logic.Relation

/-! Files of one volume: names that point to inodes, and what is left of them after a power
loss. -/

/-- `earlier` holds the links as they were since the last power loss; a journal may not yet have
the later ones on the device. -/
structure Volume (Name : Type) where
  bytes : Nat → List UInt8
  links : Name → Option Nat
  synced : Nat → Bool
  next : Nat
  earlier : List (Name → Option Nat)

namespace Volume

variable {Name : Type}

def file (volume : Volume Name) (name : Name) : Option (List UInt8) :=
  (volume.links name).map volume.bytes

/-- The links a power loss can leave. -/
def history (volume : Volume Name) : List (Name → Option Nat) := volume.links :: volume.earlier

def put (volume : Volume Name) (inode : Nat) (bytes : List UInt8) : Volume Name :=
  { volume with
    bytes := Function.update volume.bytes inode bytes
    synced := Function.update volume.synced inode false }

def relink (volume : Volume Name) (links : Name → Option Nat) : Volume Name :=
  { volume with links, earlier := volume.history }

/-- Opens a name for writing: an existing file is truncated. -/
def create [DecidableEq Name] (volume : Volume Name) (name : Name) : Nat × Volume Name :=
  match volume.links name with
  | some inode => (inode, volume.put inode [])
  | none =>
      let inode := volume.next
      (inode, ({ volume with next := inode + 1 }.put inode []).relink
        (Function.update volume.links name (some inode)))

def overlay (old : List UInt8) (offset : Nat) (chunk : List UInt8) : List UInt8 :=
  old.take offset ++ List.replicate (offset - old.length) 0 ++ chunk ++
    old.drop (offset + chunk.length)

def writeAt (volume : Volume Name) (inode offset : Nat) (chunk : List UInt8) : Volume Name :=
  volume.put inode (overlay (volume.bytes inode) offset chunk)

def sync (volume : Volume Name) (inode : Nat) : Volume Name :=
  { volume with synced := Function.update volume.synced inode true }

/-- The source name is gone and the target name points to its file; without one it fails. -/
def rename [DecidableEq Name] (volume : Volume Name) (source target : Name) :
    Option (Volume Name) :=
  (volume.links source).map fun inode =>
    volume.relink (Function.update (Function.update volume.links source none) target (some inode))

def unlink [DecidableEq Name] (volume : Volume Name) (name : Name) : Volume Name :=
  volume.relink (Function.update volume.links name none)

/-- A power loss goes back to some earlier links and may spoil what is not synced. -/
inductive Loses (volume : Volume Name) : Volume Name → Prop
  | lose (links : Name → Option Nat) (bytes : Nat → List UInt8) :
      links ∈ volume.history → (∀ inode, volume.synced inode = true →
        bytes inode = volume.bytes inode) →
      Loses volume ⟨bytes, links, fun _ => true, volume.next, []⟩

section Lemmas

variable {volume : Volume Name} {inode : Nat} {name : Name}

@[simp] theorem put_links (bytes : List UInt8) : (volume.put inode bytes).links = volume.links :=
  rfl

@[simp] theorem put_bytes (bytes : List UInt8) : (volume.put inode bytes).bytes inode = bytes :=
  Function.update_self _ _ _

theorem put_bytes_of_ne (bytes : List UInt8) {other : Nat} (apart : other ≠ inode) :
    (volume.put inode bytes).bytes other = volume.bytes other :=
  Function.update_of_ne apart _ _

theorem put_synced_of_ne (bytes : List UInt8) {other : Nat} (apart : other ≠ inode) :
    (volume.put inode bytes).synced other = volume.synced other :=
  Function.update_of_ne apart _ _

@[simp] theorem relink_links (links : Name → Option Nat) : (volume.relink links).links = links :=
  rfl

theorem overlay_end (old chunk : List UInt8) : overlay old old.length chunk = old ++ chunk := by
  simp [overlay]

theorem file_put_of_ne (bytes : List UInt8) (apart : volume.links name ≠ some inode) :
    (volume.put inode bytes).file name = volume.file name := by
  unfold file
  rw [put_links]
  cases linked : volume.links name with
  | none => rfl
  | some other =>
      have different : other ≠ inode := by
        intro same
        exact apart (linked.trans (congrArg some same))
      exact congrArg some (put_bytes_of_ne bytes different)

theorem rename_eq_some [DecidableEq Name] {source target : Name} {moved : Volume Name}
    (renamed : volume.rename source target = some moved) :
    ∃ inode, volume.links source = some inode ∧ moved = volume.relink
      (Function.update (Function.update volume.links source none) target (some inode)) := by
  obtain ⟨inode, linked, same⟩ := Option.map_eq_some_iff.mp renamed
  exact ⟨inode, linked, same.symm⟩

end Lemmas

/-- What opening a name for writing gives: the file it points to or a new one, empty. -/
inductive Creates [DecidableEq Name] (volume : Volume Name) (name : Name) :
    Nat × Volume Name → Prop
  | truncates {inode} : volume.links name = some inode →
      Creates volume name (inode, volume.put inode [])
  | makes : volume.links name = none →
      Creates volume name (volume.next, ({ volume with next := volume.next + 1 }.put
        volume.next []).relink (Function.update volume.links name (some volume.next)))

theorem creates [DecidableEq Name] (volume : Volume Name) (name : Name) :
    Creates volume name (volume.create name) := by
  unfold create
  split
  · rename_i inode linked
    exact .truncates linked
  · rename_i absent
    exact .makes absent

theorem Creates.linked [DecidableEq Name] {volume made : Volume Name} {name : Name} {inode : Nat}
    (creates : volume.Creates name (inode, made)) : made.links name = some inode := by
  cases creates with
  | truncates linked => exact linked
  | makes absent => exact Function.update_self _ _ _

theorem Creates.file_of_ne [DecidableEq Name] {volume made : Volume Name} {name other : Name}
    {inode : Nat} (creates : volume.Creates name (inode, made)) (apart : other ≠ name)
    (unlinked : made.links other ≠ some inode) : made.file other = volume.file other := by
  cases creates with
  | truncates linked => exact file_put_of_ne [] unlinked
  | makes absent =>
      have links : Function.update volume.links name (some volume.next) other =
          volume.links other := Function.update_of_ne apart _ _
      have elsewhere : volume.links other ≠ some volume.next := links ▸ unlinked
      calc
        _ = (volume.links other).map (Function.update volume.bytes volume.next []) :=
          congrArg (Option.map _) links
        _ = volume.file other := file_put_of_ne [] elsewhere

theorem file_unlink_of_ne [DecidableEq Name] {volume : Volume Name} {name other : Name}
    (apart : other ≠ name) : (volume.unlink name).file other = volume.file other := by
  have links : (volume.unlink name).links other = volume.links other :=
    Function.update_of_ne apart _ _
  rw [file, links]
  rfl

theorem file_unlink [DecidableEq Name] {volume : Volume Name} {name : Name} :
    (volume.unlink name).file name = none := by
  have links : (volume.unlink name).links name = none := Function.update_self _ _ _
  rw [file, links]
  rfl

theorem file_rename [DecidableEq Name] {volume : Volume Name} {source target : Name}
    (apart : source ≠ target) {inode : Nat} (linked : volume.links source = some inode) :
    ∃ moved, volume.rename source target = some moved ∧
      moved.file target = some (volume.bytes inode) ∧ moved.file source = none := by
  refine ⟨_, congrArg (Option.map _) linked, ?_, ?_⟩
  · rw [file, relink_links, Function.update_self]
    rfl
  · rw [file, relink_links, Function.update_of_ne apart, Function.update_self]
    rfl

end Volume
