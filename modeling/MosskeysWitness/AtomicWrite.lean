import MosskeysWitness.Sync
import MosskeysWitness.Library.Volume

/-! The file-system steps of `write_atomic`, for any number of writers of one managed file. -/

namespace MosskeysWitness.AtomicWrite

/-- The two names of a managed path. The temporary file is the same for every writer. -/
inductive DirEntry where
  | managed
  | temp
  deriving DecidableEq

abbrev Directory := Volume DirEntry

/-- How far a call is: a descriptor of the temporary file is at the bytes written so far, and
after an error the temporary file is still to be removed. -/
inductive Phase where
  | called
  | writing (inode written : Nat)
  | synced (inode : Nat)
  | cleaning (error : FileError)
  | returned (result : Except FileError Unit)

/-- One step of a call. Any operation may fail, and `write_all` may take many writes. -/
inductive WriteStep (contents : List UInt8) : Directory × Phase → Directory × Phase → Prop
  | create (disk : Directory) :
      WriteStep contents (disk, .called) ((disk.create .temp).2, .writing (disk.create .temp).1 0)
  | createFails (disk : Directory) : WriteStep contents (disk, .called) (disk, .cleaning .create)
  | write {inode written : Nat} (disk : Directory) (count : Nat) :
      written + count ≤ contents.length →
      WriteStep contents (disk, .writing inode written)
        (disk.writeAt inode written ((contents.drop written).take count),
          .writing inode (written + count))
  | writeFails {inode written : Nat} (disk : Directory) :
      WriteStep contents (disk, .writing inode written) (disk, .cleaning .write)
  | sync {inode : Nat} (disk : Directory) :
      WriteStep contents (disk, .writing inode contents.length) (disk.sync inode, .synced inode)
  | syncFails {inode : Nat} (disk : Directory) :
      WriteStep contents (disk, .writing inode contents.length) (disk, .cleaning .sync)
  | rename {inode : Nat} {disk moved : Directory} : disk.rename .temp .managed = some moved →
      WriteStep contents (disk, .synced inode) (moved, .returned (.ok ()))
  | renameFails {inode : Nat} (disk : Directory) :
      WriteStep contents (disk, .synced inode) (disk, .cleaning .rename)
  | clean {error : FileError} (disk : Directory) :
      WriteStep contents (disk, .cleaning error) (disk.unlink .temp, .returned (.error error))
  | cleanFails {error : FileError} (disk : Directory) :
      WriteStep contents (disk, .cleaning error) (disk, .returned (.error error))

structure WriteCall where
  contents : List UInt8
  phase : Phase

/-- The disk, the call each writer is in, and the contents of all calls so far. -/
structure Writers (ι : Type) where
  disk : Directory
  calls : ι → Option WriteCall
  begun : List (List UInt8)

/-- A call between its create and its rename. -/
inductive WriteCall.Holds : WriteCall → Nat → Prop
  | writing {contents inode written} : WriteCall.Holds ⟨contents, .writing inode written⟩ inode
  | synced {contents inode} : WriteCall.Holds ⟨contents, .synced inode⟩ inode

section Steps

variable {ι : Type} [DecidableEq ι]

def Writers.set (writers : Writers ι) (i : ι) (disk : Directory) (call : Option WriteCall) :
    Writers ι :=
  { writers with disk, calls := Function.update writers.calls i call }

/-- Writers make one call after another, and are killed at any time; a power loss ends all. -/
inductive Writers.Step : Writers ι → Writers ι → Prop
  | begin {writers : Writers ι} (i : ι) (contents : List UInt8) : writers.calls i = none →
      Step writers { writers.set i writers.disk (some ⟨contents, .called⟩) with
        begun := contents :: writers.begun }
  | write {writers : Writers ι} {i : ι} {call : WriteCall} {disk : Directory} {phase : Phase} :
      writers.calls i = some call →
      WriteStep call.contents (writers.disk, call.phase) (disk, phase) →
      Step writers (writers.set i disk (some ⟨call.contents, phase⟩))
  | leave {writers : Writers ι} {i : ι} {contents : List UInt8} {result : Except FileError Unit} :
      writers.calls i = some ⟨contents, .returned result⟩ →
      Step writers (writers.set i writers.disk none)
  | kill (writers : Writers ι) (i : ι) : Step writers (writers.set i writers.disk none)
  | powerLoss {writers : Writers ι} {disk : Directory} : writers.disk.Loses disk →
      Step writers { writers with disk, calls := fun _ => none }

/-- A writer creates the temporary file in this step. -/
def Creates (writers after : Writers ι) (i : ι) : Prop :=
  ∃ contents inode, writers.calls i = some ⟨contents, .called⟩ ∧
    after.calls i = some ⟨contents, .writing inode 0⟩

/-- No writer creates the temporary file while another one is between its create and its rename. -/
def CreatesAlone (writers after : Writers ι) : Prop :=
  ∀ i, Creates writers after i → ∀ j call inode, writers.calls j = some call → ¬ call.Holds inode

structure Directory.AtRest (disk : Directory) : Prop where
  settled : disk.earlier = []
  bounded : ∀ name inode, disk.links name = some inode → inode < disk.next
  apart : ∀ inode, disk.links .temp = some inode → disk.links .managed ≠ some inode
  synced : ∀ inode, disk.links .managed = some inode → disk.synced inode = true

/-- Runs from a disk on which no call is under way. -/
inductive Writers.Runs (disk : Directory) : Writers ι → Prop
  | start : Runs disk ⟨disk, fun _ => none, []⟩
  | step {writers after : Writers ι} : Runs disk writers → Step writers after →
      CreatesAlone writers after → Runs disk after

/-- As it was at first, or as passed to one of the calls. -/
def WholeFile (initial : Directory) (begun : List (List UInt8)) (file : File) : Prop :=
  file = initial.file .managed ∨ ∃ contents ∈ begun, file = some contents

end Steps

section Invariant

variable {initial : Directory} {begun : List (List UInt8)} {disk : Directory}

/-- Links a power loss may leave: the managed file is whole, and synced. -/
structure Sound (initial : Directory) (begun : List (List UInt8)) (disk : Directory)
    (links : DirEntry → Option Nat) : Prop where
  bounded : ∀ name inode, links name = some inode → inode < disk.next
  apart : ∀ inode, links .temp = some inode → links .managed ≠ some inode
  synced : ∀ inode, links .managed = some inode → disk.synced inode = true
  whole : WholeFile initial begun ((links .managed).map disk.bytes)

structure Sane (initial : Directory) (begun : List (List UInt8)) (disk : Directory) : Prop where
  sound : ∀ links ∈ disk.history, Sound initial begun disk links
  apart : ∀ links ∈ disk.history, ∀ inode, disk.links .temp = some inode →
    links .managed ≠ some inode

/-- The file of a call was never the managed file, and no other file has the temporary name. -/
structure Owns (disk : Directory) (inode : Nat) : Prop where
  bounded : inode < disk.next
  unlinked : ∀ links ∈ disk.history, links .managed ≠ some inode
  temp : disk.links .temp = some inode ∨ disk.links .temp = none

def Written (disk : Directory) : WriteCall → Prop
  | ⟨contents, .writing inode written⟩ =>
      written ≤ contents.length ∧ disk.bytes inode = contents.take written
  | ⟨contents, .synced inode⟩ => disk.bytes inode = contents ∧ disk.synced inode = true
  | _ => True

theorem Sound.put {links : DirEntry → Option Nat} (sound : Sound initial begun disk links)
    {inode : Nat} (unlinked : links .managed ≠ some inode) (bytes : List UInt8) :
    Sound initial begun (disk.put inode bytes) links := by
  have other : ∀ found, links .managed = some found → found ≠ inode := by
    intro found linked same
    exact unlinked (linked.trans (congrArg some same))
  constructor
  · exact sound.bounded
  · exact sound.apart
  · intro found linked
    rw [Volume.put_synced_of_ne bytes (other found linked)]
    exact sound.synced found linked
  · have same : (links .managed).map (disk.put inode bytes).bytes =
        (links .managed).map disk.bytes := by
      apply Option.map_congr
      intro found linked
      exact Volume.put_bytes_of_ne bytes (other found linked)
    rw [same]
    exact sound.whole

theorem Sane.file (sane : Sane initial begun disk) : WholeFile initial begun (disk.file .managed) :=
  (sane.sound disk.links List.mem_cons_self).whole

theorem Sane.put (sane : Sane initial begun disk) {inode : Nat}
    (unlinked : ∀ links ∈ disk.history, links .managed ≠ some inode) (bytes : List UInt8) :
    Sane initial begun (disk.put inode bytes) := by
  constructor
  · intro links member
    exact (sane.sound links member).put (unlinked links member) bytes
  · exact sane.apart

theorem Sane.sync (sane : Sane initial begun disk) (inode : Nat) :
    Sane initial begun (disk.sync inode) := by
  constructor
  · intro links member
    have sound := sane.sound links member
    refine ⟨sound.bounded, sound.apart, ?_, sound.whole⟩
    intro found linked
    by_cases same : found = inode
    · subst same
      exact Function.update_self _ _ _
    · exact (Function.update_of_ne same _ _).trans (sound.synced found linked)
  · exact sane.apart

theorem Sane.relink (sane : Sane initial begun disk) {links : DirEntry → Option Nat}
    (sound : Sound initial begun disk links)
    (apart : ∀ earlier ∈ disk.history, ∀ inode, links .temp = some inode →
      earlier .managed ≠ some inode) : Sane initial begun (disk.relink links) := by
  constructor
  · intro earlier member
    rcases List.mem_cons.mp member with rfl | past
    · exact ⟨sound.bounded, sound.apart, sound.synced, sound.whole⟩
    · have kept := sane.sound earlier past
      exact ⟨kept.bounded, kept.apart, kept.synced, kept.whole⟩
  · intro earlier member inode linked
    rcases List.mem_cons.mp member with rfl | past
    · exact sound.apart inode linked
    · exact apart earlier past inode linked

theorem Sane.grow (sane : Sane initial begun disk) :
    Sane initial begun { disk with next := disk.next + 1 } := by
  constructor
  · intro links member
    have sound := sane.sound links member
    refine ⟨?_, sound.apart, sound.synced, sound.whole⟩
    intro name inode linked
    exact Nat.lt_succ_of_lt (sound.bounded name inode linked)
  · exact sane.apart

theorem Sane.unused (sane : Sane initial begun disk) :
    ∀ links ∈ disk.history, ∀ name, links name ≠ some disk.next := by
  intro links member name linked
  exact absurd ((sane.sound links member).bounded name _ linked) (Nat.lt_irrefl _)

theorem Owns.relink {inode : Nat} {links : DirEntry → Option Nat} (bounded : inode < disk.next)
    (unlinked : ∀ earlier ∈ disk.history, earlier .managed ≠ some inode)
    (managed : links .managed ≠ some inode)
    (temp : links .temp = some inode ∨ links .temp = none) : Owns (disk.relink links) inode := by
  refine ⟨bounded, ?_, temp⟩
  intro earlier member
  rcases List.mem_cons.mp member with rfl | past
  · exact managed
  · exact unlinked earlier past

theorem Sane.create (sane : Sane initial begun disk) {inode : Nat} {made : Directory}
    (creates : disk.Creates .temp (inode, made)) :
    Sane initial begun made ∧ Owns made inode ∧ made.bytes inode = [] := by
  have current := sane.sound disk.links List.mem_cons_self
  cases creates with
  | truncates linked =>
      have unlinked : ∀ links ∈ disk.history, links .managed ≠ some inode := fun links member =>
        sane.apart links member inode linked
      refine ⟨sane.put unlinked [], ?_, Volume.put_bytes []⟩
      exact ⟨current.bounded _ _ linked, unlinked, Or.inl linked⟩
  | makes absent =>
      have unlinked : ∀ links ∈ disk.history, links .managed ≠ some disk.next := fun links member =>
        sane.unused links member .managed
      have grown := sane.grow.put unlinked []
      have kept := grown.sound disk.links List.mem_cons_self
      have fresh : ∀ inode, Function.update disk.links .temp (some disk.next) .temp = some inode →
          inode = disk.next := by
        intro inode linked
        rw [Function.update_self] at linked
        exact (Option.some.inj linked).symm
      have managed : Function.update disk.links .temp (some disk.next) .managed =
          disk.links .managed := Function.update_of_ne (by decide) _ _
      have apart : Function.update disk.links .temp (some disk.next) .managed ≠ some disk.next := by
        rw [managed]
        exact unlinked _ List.mem_cons_self
      have owns : Owns ((Volume.put { disk with next := disk.next + 1 } disk.next []).relink
          (Function.update disk.links .temp (some disk.next))) disk.next :=
        Owns.relink (Nat.lt_succ_self _) unlinked apart (Or.inl (Function.update_self _ _ _))
      refine ⟨grown.relink ⟨?_, ?_, ?_, ?_⟩ ?_, owns, Volume.put_bytes []⟩
      · intro name inode linked
        cases name with
        | managed => exact kept.bounded .managed inode (managed ▸ linked)
        | temp =>
            rw [fresh inode linked]
            exact Nat.lt_succ_self _
      · intro inode linked
        rw [fresh inode linked]
        exact apart
      · intro inode linked
        exact kept.synced inode (managed ▸ linked)
      · rw [managed]
        exact kept.whole
      · intro earlier member inode linked
        rw [fresh inode linked]
        exact unlinked earlier member

theorem Sane.unlink (sane : Sane initial begun disk) :
    Sane initial begun (disk.unlink .temp) := by
  have current := sane.sound disk.links List.mem_cons_self
  have managed : Function.update disk.links .temp none .managed = disk.links .managed :=
    Function.update_of_ne (by decide) _ _
  have gone : ∀ inode, Function.update disk.links .temp none .temp ≠ some inode := by
    intro inode linked
    rw [Function.update_self] at linked
    cases linked
  apply sane.relink
  · refine ⟨?_, fun inode linked => absurd linked (gone inode), ?_, ?_⟩
    · intro name inode linked
      cases name with
      | managed => exact current.bounded .managed inode (managed ▸ linked)
      | temp => exact absurd linked (gone inode)
    · intro inode linked
      exact current.synced inode (managed ▸ linked)
    · rw [managed]
      exact current.whole
  · intro earlier _ inode linked
    exact absurd linked (gone inode)

theorem Owns.unlink {inode : Nat} (owns : Owns disk inode) : Owns (disk.unlink .temp) inode := by
  apply Owns.relink owns.bounded owns.unlinked
  · rw [Function.update_of_ne (by decide)]
    exact owns.unlinked _ List.mem_cons_self
  · exact Or.inr (Function.update_self _ _ _)

theorem Sane.rename (sane : Sane initial begun disk) {inode : Nat} (owns : Owns disk inode)
    (synced : disk.synced inode = true) (passed : disk.bytes inode ∈ begun) {moved : Directory}
    (renamed : disk.rename .temp .managed = some moved) :
    Sane initial begun moved ∧ moved.file .managed = some (disk.bytes inode) := by
  obtain ⟨found, linked, same⟩ := Volume.rename_eq_some renamed
  have own : found = inode := by
    rcases owns.temp with temp | temp
    · exact Option.some.inj (linked.symm.trans temp)
    · rw [temp] at linked
      cases linked
  subst own same
  have managed : Function.update (Function.update disk.links .temp none) .managed (some found)
      .managed = some found := Function.update_self _ _ _
  have gone : ∀ inode, Function.update (Function.update disk.links .temp none) .managed
      (some found) .temp ≠ some inode := by
    intro inode linked
    rw [Function.update_of_ne (by decide), Function.update_self] at linked
    cases linked
  refine ⟨sane.relink ⟨?_, fun inode linked => absurd linked (gone inode), ?_, ?_⟩ ?_, ?_⟩
  · intro name inode linked
    cases name with
    | managed =>
        rw [managed] at linked
        cases linked
        exact owns.bounded
    | temp => exact absurd linked (gone inode)
  · intro inode linked
    rw [managed] at linked
    cases linked
    exact synced
  · rw [managed]
    exact Or.inr ⟨_, passed, rfl⟩
  · intro earlier _ inode linked
    exact absurd linked (gone inode)
  · exact congrArg (Option.map disk.bytes) managed

theorem Sane.loses (sane : Sane initial begun disk) {left : Directory} (lost : disk.Loses left) :
    Sane initial begun left := by
  cases lost with
  | lose links bytes past kept =>
      have sound := sane.sound links past
      constructor
      · intro found member
        cases List.mem_singleton.mp member
        refine ⟨sound.bounded, sound.apart, fun _ _ => rfl, ?_⟩
        have same : (links .managed).map bytes = (links .managed).map disk.bytes := by
          apply Option.map_congr
          intro inode linked
          exact kept inode (sound.synced inode linked)
        rw [same]
        exact sound.whole
      · intro found member inode linked
        cases List.mem_singleton.mp member
        exact sound.apart inode linked

theorem Sane.more (sane : Sane initial begun disk) (contents : List UInt8) :
    Sane initial (contents :: begun) disk := by
  refine ⟨?_, sane.apart⟩
  intro links member
  have sound := sane.sound links member
  refine ⟨sound.bounded, sound.apart, sound.synced, ?_⟩
  rcases sound.whole with first | ⟨passed, inside, same⟩
  · exact Or.inl first
  · exact Or.inr ⟨passed, List.mem_cons_of_mem _ inside, same⟩

theorem Sane.write (sane : Sane initial begun disk) {inode : Nat} (owns : Owns disk inode)
    (bytes : List UInt8) : Sane initial begun (disk.put inode bytes) ∧
      Owns (disk.put inode bytes) inode :=
  ⟨sane.put owns.unlinked bytes, owns.bounded, owns.unlinked, owns.temp⟩

theorem overlay_take {contents old : List UInt8} {written count : Nat}
    (inside : written + count ≤ contents.length) (taken : old = contents.take written) :
    Volume.overlay old written ((contents.drop written).take count) =
      contents.take (written + count) := by
  have length : old.length = written := by
    rw [taken, List.length_take]
    omega
  calc
    _ = old ++ (contents.drop written).take count := by rw [← length, Volume.overlay_end]
    _ = contents.take (written + count) := by rw [taken, List.take_add]

theorem WriteStep.sane {contents : List UInt8} {phase next : Phase} {after : Directory}
    (step : WriteStep contents (disk, phase) (after, next)) (sane : Sane initial begun disk)
    (passed : contents ∈ begun)
    (own : ∀ inode, WriteCall.Holds ⟨contents, phase⟩ inode →
      Owns disk inode ∧ Written disk ⟨contents, phase⟩) :
    Sane initial begun after ∧
      (∀ inode, WriteCall.Holds ⟨contents, next⟩ inode →
        Owns after inode ∧ Written after ⟨contents, next⟩) ∧
      (next = .returned (.ok ()) → after.file .managed = some contents) := by
  cases step with
  | create =>
      obtain ⟨made, owns, empty⟩ := sane.create (disk.creates .temp)
      refine ⟨made, ?_, fun same => by cases same⟩
      intro inode holds
      cases holds
      exact ⟨owns, Nat.zero_le _, empty⟩
  | write _ count inside =>
      obtain ⟨owns, -, taken⟩ := own _ .writing
      obtain ⟨kept, still⟩ := sane.write owns
        (Volume.overlay (disk.bytes _) _ ((contents.drop _).take count))
      refine ⟨kept, ?_, fun same => by cases same⟩
      intro inode holds
      cases holds
      exact ⟨still, inside, (Volume.put_bytes _).trans (overlay_take inside taken)⟩
  | sync =>
      obtain ⟨owns, -, taken⟩ := own _ .writing
      refine ⟨sane.sync _, ?_, fun same => by cases same⟩
      intro inode holds
      cases holds
      refine ⟨⟨owns.bounded, owns.unlinked, owns.temp⟩, ?_, Function.update_self _ _ _⟩
      exact taken.trans (List.take_length)
  | rename renamed =>
      obtain ⟨owns, complete, synced⟩ := own _ .synced
      rw [← complete] at passed
      obtain ⟨moved, managed⟩ := sane.rename owns synced passed renamed
      refine ⟨moved, fun inode holds => (by cases holds), fun _ => ?_⟩
      rw [managed, complete]
  | clean =>
      exact ⟨sane.unlink, fun inode holds => (by cases holds), fun same => by cases same⟩
  | createFails | writeFails | syncFails | renameFails | cleanFails =>
      exact ⟨sane, fun inode holds => (by cases holds), fun same => by cases same⟩

/-- Only a rename changes the managed file. -/
theorem WriteStep.frame {contents : List UInt8} {phase next : Phase} {after : Directory}
    (step : WriteStep contents (disk, phase) (after, next)) (sane : Sane initial begun disk)
    (own : ∀ inode, WriteCall.Holds ⟨contents, phase⟩ inode → Owns disk inode)
    (other : next ≠ .returned (.ok ())) : after.file .managed = disk.file .managed := by
  cases step with
  | create =>
      obtain ⟨-, owns, -⟩ := sane.create (disk.creates .temp)
      exact (disk.creates .temp).file_of_ne (by decide) (owns.unlinked _ List.mem_cons_self)
  | write => exact Volume.file_put_of_ne _ ((own _ .writing).unlinked _ List.mem_cons_self)
  | rename => exact absurd rfl other
  | clean => exact Volume.file_unlink_of_ne (by decide)
  | createFails | writeFails | sync | syncFails | renameFails | cleanFails => rfl

theorem WriteStep.quiet {contents : List UInt8} {phase next : Phase} {after : Directory}
    (step : WriteStep contents (disk, phase) (after, next))
    (before : ∀ inode, ¬ WriteCall.Holds ⟨contents, phase⟩ inode)
    (later : ∀ inode, ¬ WriteCall.Holds ⟨contents, next⟩ inode) :
    after = disk ∨ after = disk.unlink .temp := by
  cases step with
  | create => exact absurd .writing (later _)
  | write => exact absurd .writing (before _)
  | sync => exact absurd .writing (before _)
  | rename => exact absurd .synced (before _)
  | clean => exact Or.inr rfl
  | createFails | writeFails | syncFails | renameFails | cleanFails => exact Or.inl rfl

theorem WriteStep.holds {contents : List UInt8} {phase next : Phase} {after : Directory}
    {inode : Nat} (step : WriteStep contents (disk, phase) (after, next))
    (holds : WriteCall.Holds ⟨contents, next⟩ inode) :
    WriteCall.Holds ⟨contents, phase⟩ inode ∨ phase = .called ∧ next = .writing inode 0 := by
  cases holds with
  | writing =>
      cases step with
      | create => exact Or.inr ⟨rfl, rfl⟩
      | write => exact Or.inl .writing
  | synced =>
      cases step with
      | sync => exact Or.inl .writing

variable {ι : Type} [DecidableEq ι]

/-- The disk is sane, every call owns the file it holds, and one call at most holds a file. -/
structure Guarded (initial : Directory) (writers : Writers ι) : Prop where
  sane : Sane initial writers.begun writers.disk
  passed : ∀ i call, writers.calls i = some call → call.contents ∈ writers.begun
  own : ∀ i call inode, writers.calls i = some call → call.Holds inode →
    Owns writers.disk inode ∧ Written writers.disk call
  alone : ∀ i j call other inode inode', writers.calls i = some call → call.Holds inode →
    writers.calls j = some other → other.Holds inode' → i = j

theorem set_calls {writers : Writers ι} {i j : ι} {disk : Directory} {slot : Option WriteCall}
    {call : WriteCall} (held : (writers.set i disk slot).calls j = some call) :
    j = i ∧ slot = some call ∨ j ≠ i ∧ writers.calls j = some call := by
  by_cases same : j = i
  · subst same
    have self : (writers.set j disk slot).calls j = slot := Function.update_self _ _ _
    exact Or.inl ⟨rfl, self.symm.trans held⟩
  · have kept : (writers.set i disk slot).calls j = writers.calls j :=
      Function.update_of_ne same _ _
    exact Or.inr ⟨same, kept.symm.trans held⟩

theorem Written.unlink {call : WriteCall} (written : Written disk call) :
    Written (disk.unlink .temp) call := by
  rcases call with ⟨contents, phase⟩
  cases phase <;> exact written

/-- A writer that holds nothing takes the place of what was under `i`. -/
theorem Guarded.replace {writers : Writers ι} (guarded : Guarded initial writers) (i : ι)
    {slot : Option WriteCall} (passed : ∀ call, slot = some call → call.contents ∈ writers.begun)
    (idle : ∀ call inode, slot = some call → ¬ call.Holds inode) :
    Guarded initial (writers.set i writers.disk slot) := by
  have kept : ∀ {j call inode}, (writers.set i writers.disk slot).calls j = some call →
      call.Holds inode → writers.calls j = some call := by
    intro j call inode held holds
    rcases set_calls held with ⟨-, same⟩ | ⟨-, other⟩
    · exact absurd holds (idle call inode same)
    · exact other
  refine ⟨guarded.sane, ?_, ?_, ?_⟩
  · intro j call held
    rcases set_calls held with ⟨-, same⟩ | ⟨-, other⟩
    · exact passed call same
    · exact guarded.passed j call other
  · intro j call inode held holds
    exact guarded.own j call inode (kept held holds) holds
  · intro j k call other inode inode' held holds held' holds'
    exact guarded.alone j k call other inode inode' (kept held holds) holds (kept held' holds')
      holds'

theorem Guarded.drop {writers : Writers ι} (guarded : Guarded initial writers) (i : ι) :
    Guarded initial (writers.set i writers.disk none) := by
  apply guarded.replace i
  · intro call same
    cases same
  · intro call inode same
    cases same

omit [DecidableEq ι] in
theorem Guarded.begin {writers : Writers ι} (guarded : Guarded initial writers)
    (contents : List UInt8) :
    Guarded initial { writers with begun := contents :: writers.begun } := by
  refine ⟨guarded.sane.more contents, ?_, guarded.own, guarded.alone⟩
  intro i call held
  exact List.mem_cons_of_mem _ (guarded.passed i call held)

/-- While one call creates or holds a file, no other call holds one. -/
theorem Guarded.others {writers : Writers ι} (guarded : Guarded initial writers) {i : ι}
    {call : WriteCall} {after : Directory} {next : Phase} (held : writers.calls i = some call)
    (step : WriteStep call.contents (writers.disk, call.phase) (after, next))
    (creates : CreatesAlone writers (writers.set i after (some ⟨call.contents, next⟩)))
    {inode : Nat} (busy : call.Holds inode ∨ WriteCall.Holds ⟨call.contents, next⟩ inode)
    {j : ι} {other : WriteCall} {inode' : Nat} (held' : writers.calls j = some other)
    (holds : other.Holds inode') : i = j := by
  have before : call.Holds inode → i = j := fun busy =>
    guarded.alone i j call other inode inode' held busy held' holds
  rcases busy with busy | busy
  · exact before busy
  · rcases step.holds busy with busy | ⟨called, writing⟩
    · exact before busy
    · have made : Creates writers (writers.set i after (some ⟨call.contents, next⟩)) i := by
        refine ⟨call.contents, inode, ?_, ?_⟩
        · rw [held, ← called]
        · rw [← writing]
          exact Function.update_self _ _ _
      exact absurd holds (creates i made j other inode' held')

theorem Guarded.write {writers : Writers ι} (guarded : Guarded initial writers) {i : ι}
    {call : WriteCall} {after : Directory} {next : Phase} (held : writers.calls i = some call)
    (step : WriteStep call.contents (writers.disk, call.phase) (after, next))
    (creates : CreatesAlone writers (writers.set i after (some ⟨call.contents, next⟩))) :
    Guarded initial (writers.set i after (some ⟨call.contents, next⟩)) ∧
      (next = .returned (.ok ()) → after.file .managed = some call.contents) := by
  obtain ⟨sane, own, complete⟩ := step.sane guarded.sane (guarded.passed i call held)
    (fun inode holds => guarded.own i call inode held holds)
  refine ⟨⟨sane, ?_, ?_, ?_⟩, complete⟩
  · intro j other held'
    rcases set_calls held' with ⟨-, same⟩ | ⟨-, kept⟩
    · cases same
      exact guarded.passed i call held
    · exact guarded.passed j other kept
  · intro j other inode held' holds
    rcases set_calls held' with ⟨-, same⟩ | ⟨apart, kept⟩
    · cases same
      exact own inode holds
    · have idle : ∀ inode, ¬ (call.Holds inode ∨ WriteCall.Holds ⟨call.contents, next⟩ inode) :=
        fun inode busy => apart (guarded.others held step creates busy kept holds).symm
      obtain ⟨owns, written⟩ := guarded.own j other inode kept holds
      rcases step.quiet (fun inode busy => idle inode (Or.inl busy))
          (fun inode busy => idle inode (Or.inr busy)) with same | same
      · rw [same]
        exact ⟨owns, written⟩
      · rw [same]
        exact ⟨owns.unlink, written.unlink⟩
  · intro j k first second inode inode' held' holds held'' holds'
    rcases set_calls held' with ⟨left, same⟩ | ⟨-, kept⟩ <;>
      rcases set_calls held'' with ⟨right, same'⟩ | ⟨-, kept'⟩
    · rw [left, right]
    · cases same
      rw [left]
      exact guarded.others held step creates (Or.inr holds) kept' holds'
    · cases same'
      rw [right]
      exact (guarded.others held step creates (Or.inr holds') kept holds).symm
    · exact guarded.alone j k first second inode inode' kept holds kept' holds'

theorem Guarded.step {writers after : Writers ι} (guarded : Guarded initial writers)
    (step : writers.Step after) (creates : CreatesAlone writers after) :
    Guarded initial after := by
  cases step with
  | begin i contents free =>
      apply (guarded.begin contents).replace i
      · intro call same
        cases same
        exact List.mem_cons_self
      · intro call inode same holds
        cases same
        cases holds
  | write held step => exact (guarded.write held step creates).1
  | leave held => exact guarded.drop _
  | kill i => exact guarded.drop i
  | powerLoss lost =>
      refine ⟨guarded.sane.loses lost, ?_, ?_, ?_⟩
      · intro i call held
        cases held
      · intro i call inode held
        cases held
      · intro i j call other inode inode' held
        cases held

omit [DecidableEq ι] in
theorem Directory.AtRest.guarded (rest : disk.AtRest) :
    Guarded disk (⟨disk, fun _ => none, []⟩ : Writers ι) := by
  have only : ∀ links ∈ disk.history, links = disk.links := by
    intro links member
    rw [Volume.history, rest.settled] at member
    exact List.mem_singleton.mp member
  refine ⟨⟨?_, ?_⟩, ?_, ?_, ?_⟩
  · intro links member
    rw [only links member]
    exact ⟨rest.bounded, rest.apart, rest.synced, Or.inl rfl⟩
  · intro links member inode linked
    rw [only links member]
    exact rest.apart inode linked
  · intro i call held
    cases held
  · intro i call inode held
    cases held
  · intro i j call other inode inode' held
    cases held

theorem Writers.Runs.guarded {writers : Writers ι} (rest : disk.AtRest)
    (runs : Writers.Runs disk writers) : Guarded disk writers := by
  induction runs with
  | start => exact rest.guarded
  | step _ step creates ih => exact ih.step step creates

end Invariant

section Alone

variable {initial : Directory} {begun : List (List UInt8)} {disk : Directory}

def dirOf (disk : Directory) (etag : File) : StateDir := ⟨disk.file .managed, etag, disk.file .temp⟩

abbrev WriteSteps (contents : List UInt8) : Directory × Phase → Directory × Phase → Prop :=
  Relation.ReflTransGen (WriteStep contents)

theorem steps_written (sane : Sane initial begun disk) (contents : List UInt8) (count : Nat)
    (inside : count ≤ contents.length) (etag : File) :
    ∃ after inode, WriteSteps contents (disk, .called) (after, .writing inode count) ∧
      after.links .temp = some inode ∧
      dirOf after etag = { dirOf disk etag with temp := some (contents.take count) } := by
  have create : WriteStep contents (disk, .called) _ := .create disk
  have creates := disk.creates .temp
  rcases made : disk.create .temp with ⟨inode, opened⟩
  rw [made] at create creates
  obtain ⟨-, owns, empty⟩ := sane.create creates
  have unlinked := owns.unlinked _ List.mem_cons_self
  have linked := creates.linked
  have write : WriteStep contents (opened, .writing inode 0) _ :=
    .write opened count (by rwa [Nat.zero_add])
  have written : Volume.overlay (opened.bytes inode) 0 ((contents.drop 0).take count) =
      contents.take (0 + count) := overlay_take (by rwa [Nat.zero_add]) empty
  rw [Nat.zero_add] at write written
  have temp : (opened.writeAt inode 0 ((contents.drop 0).take count)).file .temp =
      some (contents.take count) := by
    rw [Volume.file, Volume.writeAt, Volume.put_links, linked, Option.map_some, Volume.put_bytes,
      written]
  have managed : (opened.writeAt inode 0 ((contents.drop 0).take count)).file .managed =
      disk.file .managed := calc
    _ = opened.file .managed := Volume.file_put_of_ne _ unlinked
    _ = disk.file .managed := creates.file_of_ne (by decide) unlinked
  refine ⟨_, inode, (Relation.ReflTransGen.single create).tail write, linked, ?_⟩
  rw [dirOf, temp, managed, dirOf]

theorem steps_cleaned {contents : List UInt8} {after : Directory} {error : FileError}
    (steps : WriteSteps contents (disk, .called) (after, .cleaning error)) (uncleaned : Bool)
    (etag : File) :
    ∃ last, WriteSteps contents (disk, .called) (last, .returned (.error error)) ∧
      dirOf last etag = { dirOf after etag with
        temp := if uncleaned then (dirOf after etag).temp else none } := by
  cases uncleaned with
  | true => exact ⟨after, steps.tail (.cleanFails after), rfl⟩
  | false =>
      refine ⟨after.unlink .temp, steps.tail (.clean after), ?_⟩
      rw [dirOf, Volume.file_unlink, Volume.file_unlink_of_ne (by decide)]
      rfl

/-- A call alone does what `writeAtomic` says. -/
theorem writeAtomic_steps (sane : Sane initial begun disk) (contents : List UInt8)
    (faults : Faults) (etag : File) :
    ∃ after, WriteSteps contents (disk, .called)
        (after, .returned (writeAtomic contents faults (dirOf disk etag)).1) ∧
      dirOf after etag = (writeAtomic contents faults (dirOf disk etag)).2 := by
  rcases faults with ⟨fault, uncleaned, etagFault⟩
  obtain ⟨full, inode, complete, linked, left⟩ :=
    steps_written sane contents contents.length le_rfl etag
  rw [List.take_length] at left
  cases fault with
  | none =>
      have temp : full.file .temp = some contents := congrArg StateDir.temp left
      rw [Volume.file, linked] at temp
      have still : (full.sync inode).links .temp = some inode := linked
      obtain ⟨moved, renamed, managed, gone⟩ :=
        Volume.file_rename (by decide : DirEntry.temp ≠ .managed) still
      refine ⟨moved, (complete.tail (.sync full)).tail (.rename renamed), ?_⟩
      rw [dirOf, managed, gone]
      exact congrArg (fun file => StateDir.mk file etag none) temp
  | some fault =>
      cases fault with
      | create => exact steps_cleaned (.single (.createFails disk)) uncleaned etag
      | write written =>
          obtain ⟨after, inode, steps, -, left⟩ := steps_written sane contents
            (min written contents.length) (min_le_right _ _) etag
          obtain ⟨last, cleaned, same⟩ :=
            steps_cleaned (steps.tail (.writeFails after)) uncleaned etag
          refine ⟨last, cleaned, ?_⟩
          rw [same, left, ← List.take_eq_take_min]
          rfl
      | sync =>
          obtain ⟨last, cleaned, same⟩ :=
            steps_cleaned (complete.tail (.syncFails full)) uncleaned etag
          refine ⟨last, cleaned, ?_⟩
          rw [same, left]
          rfl
      | rename =>
          obtain ⟨last, cleaned, same⟩ := steps_cleaned
            ((complete.tail (.sync full)).tail (.renameFails (full.sync inode))) uncleaned etag
          have synced : dirOf (full.sync inode) etag = dirOf full etag := rfl
          refine ⟨last, cleaned, ?_⟩
          rw [same, synced, left]
          rfl

end Alone

theorem createsAlone_of_idle {ι : Type} {writers after : Writers ι}
    (idle : ∀ j call inode, writers.calls j = some call → ¬ call.Holds inode) :
    CreatesAlone writers after := fun _ _ => idle

theorem createsAlone_of_waiting {ι : Type} {writers after : Writers ι}
    (waits : ∀ i contents, writers.calls i = some ⟨contents, .called⟩ →
      after.calls i = writers.calls i) : CreatesAlone writers after := by
  intro i creates
  obtain ⟨contents, inode, called, writing⟩ := creates
  rw [waits i contents called, called] at writing
  cases writing

/-- At every moment the managed file is as it was or whole, and an Ok rename put the contents of
its own call there. -/
theorem managed_file_is_whole {ι : Type} [DecidableEq ι] {disk : Directory} {writers : Writers ι}
    (rest : disk.AtRest) (runs : Writers.Runs disk writers) :
    WholeFile disk writers.begun (writers.disk.file .managed) ∧
      ∀ i call after, writers.calls i = some call →
        WriteStep call.contents (writers.disk, call.phase) (after, .returned (.ok ())) →
        after.file .managed = some call.contents := by
  have guarded := runs.guarded rest
  refine ⟨guarded.sane.file, ?_⟩
  intro i call after held step
  exact (step.sane guarded.sane (guarded.passed i call held)
    (fun inode holds => guarded.own i call inode held holds)).2.2 rfl

def settledDirectory : Directory :=
  ⟨fun _ => [9], fun | .managed => some 0 | .temp => none, fun _ => true, 1, []⟩

theorem settledDirectory_rests : settledDirectory.AtRest := by
  constructor
  · rfl
  · intro name inode linked
    cases name <;> cases linked
    exact Nat.zero_lt_one
  · intro inode linked
    cases linked
  · intro inode _
    rfl

def twoWriters : Writers Bool := ⟨settledDirectory, fun _ => none, []⟩

/-- Two calls overlap, and the second one creates its file once the first one has renamed its
own. -/
theorem overlapping_calls_are_whole : ∃ (writers : Writers Bool) (after : Directory),
    Writers.Runs settledDirectory writers ∧
      writers.calls true = some ⟨[1, 2], .returned (.ok ())⟩ ∧
      writers.disk.file .managed = some [1, 2] ∧
      WholeFile settledDirectory writers.begun (writers.disk.file .managed) ∧
      WriteStep [3] (writers.disk, .synced 2) (after, .returned (.ok ())) ∧
      after.file .managed = some [3] := by
  have initially : Writers.Runs settledDirectory twoWriters := .start
  have first := initially.step (.begin true [1, 2] rfl) (createsAlone_of_idle (by
    intro j call inode held
    cases held))
  have both := first.step (.begin false [3] rfl) (createsAlone_of_waiting (by
    intro i contents held
    cases i <;> cases held
    rfl))
  have created := both.step (.write (i := true) rfl (.create settledDirectory))
    (createsAlone_of_idle (by
      intro j call inode held holds
      cases j <;> cases held <;> cases holds))
  have written := created.step (.write (i := true) rfl (.write _ 2 (by decide)))
    (createsAlone_of_waiting (by
      intro i contents held
      cases i <;> cases held
      rfl))
  have synced := written.step (.write (i := true) rfl (.sync _)) (createsAlone_of_waiting (by
    intro i contents held
    cases i <;> cases held
    rfl))
  have renamed := synced.step (.write (i := true) rfl (.rename rfl)) (createsAlone_of_waiting (by
    intro i contents held
    cases i <;> cases held
    rfl))
  have created' := renamed.step (.write (i := false) rfl (.create _)) (createsAlone_of_idle (by
    intro j call inode held holds
    cases j <;> cases held <;> cases holds))
  have written' := created'.step (.write (i := false) rfl (.write _ 1 (by decide)))
    (createsAlone_of_waiting (by
      intro i contents held
      cases i <;> cases held))
  have synced' := written'.step (.write (i := false) rfl (.sync _)) (createsAlone_of_waiting (by
    intro i contents held
    cases i <;> cases held))
  obtain ⟨whole, complete⟩ := managed_file_is_whole settledDirectory_rests synced'
  refine ⟨_, _, synced', rfl, rfl, whole, .rename rfl, ?_⟩
  exact complete false _ _ rfl (.rename rfl)

/-- A second writer truncates the temporary file between the fsync and the rename of the first:
the managed file is empty, and the first call returns Ok. -/
theorem overlapping_create_empties : ∃ writers : Writers Bool,
    Relation.ReflTransGen Writers.Step twoWriters writers ∧
      writers.calls true = some ⟨[1, 2], .returned (.ok ())⟩ ∧
      writers.disk.file .managed = some [] ∧
      ¬ WholeFile settledDirectory writers.begun (writers.disk.file .managed) := by
  have initially : Relation.ReflTransGen Writers.Step twoWriters twoWriters := .refl
  have begun := (initially.tail (.begin true [1, 2] rfl)).tail (.begin false [3] rfl)
  have created := begun.tail (.write (i := true) rfl (.create settledDirectory))
  have synced := (created.tail (.write (i := true) rfl (.write _ 2 (by decide)))).tail
    (.write (i := true) rfl (.sync _))
  have truncated := synced.tail (.write (i := false) rfl (.create _))
  have renamed := truncated.tail (.write (i := true) rfl (.rename rfl))
  refine ⟨_, renamed, rfl, rfl, ?_⟩
  intro whole
  rcases whole with same | ⟨contents, member, same⟩
  · cases same
  · cases same
    exact absurd member (by decide)

end MosskeysWitness.AtomicWrite
