import Mathlib.Logic.Relation
import MosskeysWitness.Reference.Keys

/-! Runs of key generation into one output directory, one file operation at a time, and what they
leave there however they interleave. -/

namespace MosskeysWitness.Keygen

/-- The output directory, and the names in it and around it. -/
structure OutDir where
  made : Bool
  seeds : Seeds

section Generate

variable (crates : KeygenCrates) (name : Text) (outDir : String) (mint : Suite → Hash × List UInt8)

def preflight (seeds : Seeds) : List Suite → Except KeygenError Unit
  | [] => .ok ()
  | suite :: rest =>
      let path := seedPath outDir suite
      if (seeds.resolve path).isSome then .error (.seedFileExists path) else preflight seeds rest

/-- How `generate` fails apart from what it finds: at `create_dir_all`, or at a seed file. -/
structure Faults where
  dir : Option FileError
  seeds : Suite → Option SeedFault

def generateKeys (faults : Faults) : List Suite → List GeneratedKey → Seeds →
    Except KeygenError (List GeneratedKey) × Seeds
  | [], keys, seeds => (.ok keys, seeds)
  | suite :: rest, keys, seeds =>
      match generateOne crates name suite outDir (mint suite) (faults.seeds suite) seeds with
      | (.error e, seeds) => (.error e, seeds)
      | (.ok key, seeds) => generateKeys faults rest (keys ++ [key]) seeds

def makeDir (faults : Faults) (dir : OutDir) : Except KeygenError OutDir :=
  if dir.made then .ok dir
  else match faults.dir with
    | some e => .error (.io outDir e)
    | none => .ok { dir with made := true }

def generate (faults : Faults) (dir : OutDir) : Except KeygenError Identity × OutDir :=
  match validateName name with
  | .error e => (.error e, dir)
  | .ok () =>
      match preflight outDir dir.seeds Suite.all with
      | .error e => (.error e, dir)
      | .ok () =>
          match makeDir outDir faults dir with
          | .error e => (.error e, dir)
          | .ok dir =>
              match generateKeys crates name outDir mint faults Suite.all [] dir.seeds with
              | (.error e, seeds) => (.error e, { dir with seeds })
              | (.ok keys, seeds) => (.ok ⟨name, keys⟩, { dir with seeds })

end Generate

/-- What a run of `generate` does next: the lists are of the suites still to come. -/
inductive Phase where
  | start
  | preflight (rest : List Suite)
  | ensure
  | mint (rest : List Suite)
  | write (suite : Suite) (vkey : Text) (left : List UInt8) (rest : List Suite)
  | returned (result : Except KeygenError Identity)

/-- A run, with the keys it has pushed. `created` lists the suites whose seed file it created; no
operation looks at it. -/
structure Process where
  name : Text
  phase : Phase
  keys : List GeneratedKey
  created : List Suite

/-- One file operation of a run, when no operation fails but for a name that is taken. -/
inductive Moves (crates : KeygenCrates) (outDir : String) :
    OutDir × Process → OutDir × Process → Prop
  | refuses {dir process e} : process.phase = .start → validateName process.name = .error e →
      Moves crates outDir (dir, process) (dir, { process with phase := .returned (.error e) })
  | validates {dir process} : process.phase = .start → validateName process.name = .ok () →
      Moves crates outDir (dir, process) (dir, { process with phase := .preflight Suite.all })
  | finds {dir process suite rest} : process.phase = .preflight (suite :: rest) →
      (dir.seeds.resolve (seedPath outDir suite)).isSome →
      Moves crates outDir (dir, process)
        (dir,
          { process with phase := .returned (.error (.seedFileExists (seedPath outDir suite))) })
  | passes {dir process suite rest} : process.phase = .preflight (suite :: rest) →
      dir.seeds.resolve (seedPath outDir suite) = none →
      Moves crates outDir (dir, process) (dir, { process with phase := .preflight rest })
  | clears {dir process} : process.phase = .preflight [] →
      Moves crates outDir (dir, process) (dir, { process with phase := .ensure })
  | ensures {dir process} : process.phase = .ensure →
      Moves crates outDir (dir, process)
        ({ dir with made := true }, { process with phase := .mint Suite.all })
  | underivable {dir process suite rest seed publicKey e} :
      process.phase = .mint (suite :: rest) → crates.publicKey suite seed = .ok publicKey →
      encodeVkey crates suite process.name publicKey = .error e →
      Moves crates outDir (dir, process) (dir, { process with phase := .returned (.error e) })
  | creates {dir process suite rest seed publicKey vkey made} :
      process.phase = .mint (suite :: rest) → crates.publicKey suite seed = .ok publicKey →
      encodeVkey crates suite process.name publicKey = .ok vkey →
      dir.seeds.createNew (seedPath outDir suite) ⟨ownerOnly, []⟩ = some made →
      Moves crates outDir (dir, process)
        ({ dir with seeds := made },
          { process with
            phase := .write suite vkey
              (Utf8.encode (seedFileText crates.base64 process.name suite vkey seed)) rest
            created := process.created ++ [suite] })
  | taken {dir process suite rest seed publicKey vkey} :
      process.phase = .mint (suite :: rest) → crates.publicKey suite seed = .ok publicKey →
      encodeVkey crates suite process.name publicKey = .ok vkey →
      dir.seeds.createNew (seedPath outDir suite) ⟨ownerOnly, []⟩ = none →
      Moves crates outDir (dir, process)
        (dir,
          { process with phase := .returned (.error (.seedFileExists (seedPath outDir suite))) })
  | writes {dir process suite vkey chunk left rest mode written} :
      process.phase = .write suite vkey (chunk ++ left) rest →
      dir.seeds (seedPath outDir suite) = some (.file ⟨mode, written⟩) →
      Moves crates outDir (dir, process)
        ({ dir with seeds := dir.seeds.put (seedPath outDir suite) ⟨mode, written ++ chunk⟩ },
          { process with phase := .write suite vkey left rest })
  | syncs {dir process suite vkey rest} : process.phase = .write suite vkey [] rest →
      Moves crates outDir (dir, process)
        (dir, { process with
          phase := .mint rest
          keys := process.keys ++ [⟨suite, vkey, seedPath outDir suite⟩] })
  | finishes {dir process} : process.phase = .mint [] →
      Moves crates outDir (dir, process)
        (dir, { process with phase := .returned (.ok ⟨process.name, process.keys⟩) })

/-- Any number of runs, by number, over one directory. -/
structure World where
  dir : OutDir
  processes : Nat → Process

def World.begin (dir : OutDir) (names : Nat → Text) : World :=
  ⟨dir, fun run => ⟨names run, .start, [], []⟩⟩

inductive Step (crates : KeygenCrates) (outDir : String) : World → World → Prop
  | move {world dir process} (run : Nat) :
      Moves crates outDir (world.dir, world.processes run) (dir, process) →
      Step crates outDir world ⟨dir, Function.update world.processes run process⟩

/-- The worlds that some runs, under some names, bring about from a directory. -/
def Reachable (crates : KeygenCrates) (outDir : String) (before : OutDir) (world : World) : Prop :=
  ∃ names, Relation.ReflTransGen (Step crates outDir) (World.begin before names) world

/-- What key generation promises of a directory that held `before`. -/
structure AllOrNothing (outDir : String) (before : OutDir) (world : World) : Prop where
  kept : before.seeds.Keeps world.dir.seeds
  refused : ∀ run path, (world.processes run).phase = .returned (.error (.seedFileExists path)) →
    (world.processes run).created = []
  oneRun : (∀ suite, before.seeds (seedPath outDir suite) = none ∧
      world.dir.seeds (seedPath outDir suite) ≠ none) →
    ∃ run, ∀ suite other, suite ∈ (world.processes other).created ↔ other = run
  whole : ∀ run result, (world.processes run).phase = .returned result →
    (world.processes run).created = [] ∨ (world.processes run).created = Suite.all

section Invariant

variable {crates : KeygenCrates} {outDir : String} {before dir dir' : OutDir}
  {process process' : Process} {world world' : World}

def Cleared (outDir : String) (before : OutDir) : Prop :=
  ∀ suite, before.seeds.resolve (seedPath outDir suite) = none

/-- What a run has established in each phase, about the directory as it was at first. -/
def Fits (outDir : String) (before : OutDir) (process : Process) : Prop :=
  match process.phase with
  | .start => process.created = []
  | .preflight rest => validateName process.name = .ok () ∧ process.created = [] ∧
      ∃ passed, Suite.all = passed ++ rest ∧
        ∀ suite ∈ passed, before.seeds.resolve (seedPath outDir suite) = none
  | .ensure => validateName process.name = .ok () ∧ process.created = [] ∧ Cleared outDir before
  | .mint rest => validateName process.name = .ok () ∧ Cleared outDir before ∧
      Suite.all = process.created ++ rest
  | .write suite _ _ rest => validateName process.name = .ok () ∧ Cleared outDir before ∧
      Suite.all = process.created ++ rest ∧ suite ∈ process.created
  | .returned result => (process.created = [] ∨ process.created = Suite.all) ∧
      ∀ path, result = .error (.seedFileExists path) → process.created = []

structure Inv (outDir : String) (before : OutDir) (world : World) : Prop where
  kept : before.seeds.Keeps world.dir.seeds
  made : ∀ run, ∀ suite ∈ (world.processes run).created,
    before.seeds (seedPath outDir suite) = none ∧
      ∃ file, world.dir.seeds (seedPath outDir suite) = some (.file file)
  unique : ∀ run other, ∀ suite ∈ (world.processes run).created,
    suite ∈ (world.processes other).created → run = other
  origin : ∀ suite entry, world.dir.seeds (seedPath outDir suite) = some entry →
    before.seeds (seedPath outDir suite) = some entry ∨
      ∃ run, suite ∈ (world.processes run).created
  fits : ∀ run, Fits outDir before (world.processes run)

theorem Fits.front (fits : Fits outDir before process) : process.created <+: Suite.all := by
  unfold Fits at fits
  split at fits
  · simp [fits]
  · simp [fits.2.1]
  · simp [fits.2.1]
  · exact ⟨_, fits.2.2.symm⟩
  · exact ⟨_, fits.2.2.1.symm⟩
  · rcases fits.1 with empty | full
    · simp [empty]
    · simp [full]

theorem Fits.first (fits : Fits outDir before process)
    (second : Suite.mldsa44 ∈ process.created) : process.created = Suite.all := by
  obtain ⟨rest, whole⟩ := fits.front
  cases created : process.created with
  | nil => simp [created] at second
  | cons suite others =>
      cases others with
      | nil =>
          rw [created, Suite.all, List.cons_append, List.cons.injEq] at whole
          rw [created, whole.1] at second
          simp at second
      | cons suite' others =>
          rw [created, Suite.all] at whole
          simp only [List.cons_append, List.cons.injEq, List.append_eq_nil_iff] at whole
          obtain ⟨rfl, rfl, rfl, -⟩ := whole
          rfl

/-- What an operation does to the names: nothing, or it creates the next seed file, or it writes to
the one that its run is at. -/
inductive Effect (outDir : String) (dir : OutDir) (process : Process) :
    OutDir → Process → Prop
  | none {after next} : after.seeds = dir.seeds → next.created = process.created →
      Effect outDir dir process after next
  | creates {after next} (suite : Suite) (file : SeedFile) :
      dir.seeds (seedPath outDir suite) = .none →
      after.seeds = dir.seeds.put (seedPath outDir suite) file →
      next.created = process.created ++ [suite] → Effect outDir dir process after next
  | writes {after next vkey left rest} (suite : Suite) (file : SeedFile) :
      process.phase = .write suite vkey left rest →
      after.seeds = dir.seeds.put (seedPath outDir suite) file →
      next.created = process.created → Effect outDir dir process after next

theorem Moves.effect (moves : Moves crates outDir (dir, process) (dir', process')) :
    Effect outDir dir process dir' process' := by
  cases moves with
  | creates minting derived encoded created =>
      obtain ⟨free, rfl⟩ := Folder.createNew_eq_some.mp created
      exact .creates _ _ free rfl rfl
  | writes writing found => exact .writes _ _ writing rfl rfl
  | _ => exact .none rfl rfl

/-- A run goes on as it should if a name it finds taken means that it created nothing. -/
theorem Moves.fits (laws : crates.Laws) (kept : before.seeds.Keeps dir.seeds)
    (alone : ∀ suite rest, process.phase = .mint (suite :: rest) →
      dir.seeds (seedPath outDir suite) ≠ none → process.created = [])
    (moves : Moves crates outDir (dir, process) (dir', process'))
    (fits : Fits outDir before process) : Fits outDir before process' := by
  cases moves with
  | refuses starting refused =>
      simp only [Fits, starting] at fits
      exact ⟨Or.inl fits, fun _ _ => fits⟩
  | validates starting valid =>
      simp only [Fits, starting] at fits
      exact ⟨valid, fits, [], rfl, List.forall_mem_nil _⟩
  | finds checking found =>
      simp only [Fits, checking] at fits
      exact ⟨Or.inl fits.2.1, fun _ _ => fits.2.1⟩
  | @passes _ _ suite rest checking missing =>
      simp only [Fits, checking] at fits
      obtain ⟨valid, none, passed, whole, cleared⟩ := fits
      refine ⟨valid, none, passed ++ [suite], by simpa using whole, ?_⟩
      rw [List.forall_mem_append, List.forall_mem_singleton]
      exact ⟨cleared, kept.unresolved missing⟩
  | clears checking =>
      simp only [Fits, checking] at fits
      obtain ⟨valid, none, passed, whole, cleared⟩ := fits
      rw [List.append_nil] at whole
      subst whole
      refine ⟨valid, none, ?_⟩
      intro suite
      apply cleared
      cases suite <;> decide
  | ensures ensuring =>
      simp only [Fits, ensuring] at fits
      obtain ⟨valid, none, cleared⟩ := fits
      exact ⟨valid, cleared, by simp [none]⟩
  | @underivable _ _ suite _ seed publicKey _ minting derived failed =>
      simp only [Fits, minting] at fits
      obtain ⟨key, built⟩ := laws.accepts suite _ seed publicKey fits.1 derived
      simp [encodeVkey, built] at failed
  | creates minting derived encoded created =>
      simp only [Fits, minting] at fits
      exact ⟨fits.1, fits.2.1, by simpa using fits.2.2, by simp⟩
  | taken minting derived encoded exists' =>
      have none := alone _ _ minting (Folder.createNew_eq_none.mp exists')
      exact ⟨Or.inl none, fun _ _ => none⟩
  | writes writing found =>
      simp only [Fits, writing] at fits
      exact fits
  | syncs writing =>
      simp only [Fits, writing] at fits
      exact ⟨fits.1, fits.2.1, fits.2.2.1⟩
  | finishes minting =>
      simp only [Fits, minting, List.append_nil] at fits
      refine ⟨Or.inr fits.2.2.symm, ?_⟩
      intro path impossible
      cases impossible

/-- A run that has created a seed file and finds the other name taken would have met it before: it
was there at first, as a dangling link. -/
theorem Inv.alone (covered : ¬ (before.seeds (seedPath outDir .ed25519) = none ∧
      before.seeds.Dangling (seedPath outDir .mldsa44)))
    (inv : Inv outDir before world) {run : Nat} {suite : Suite} {rest : List Suite}
    (minting : (world.processes run).phase = .mint (suite :: rest))
    (there : world.dir.seeds (seedPath outDir suite) ≠ none) :
    (world.processes run).created = [] := by
  have fits := inv.fits run
  simp only [Fits, minting] at fits
  obtain ⟨-, cleared, whole⟩ := fits
  cases created : (world.processes run).created with
  | nil => rfl
  | cons first others =>
      -- Of the two suites the first is created and the second is the one that is taken.
      rw [created, Suite.all] at whole
      cases others with
      | cons second others => simp at whole
      | nil =>
          simp only [List.cons_append, List.nil_append, List.cons.injEq] at whole
          obtain ⟨rfl, rfl, -⟩ := whole
          have own : Suite.ed25519 ∈ (world.processes run).created := by simp [created]
          obtain ⟨entry, found⟩ := Option.ne_none_iff_exists'.mp there
          rcases inv.origin .mldsa44 entry found with old | ⟨other, second⟩
          · have present : before.seeds (seedPath outDir .mldsa44) ≠ none := by simp [old]
            exact absurd ⟨(inv.made run _ own).1,
              Folder.dangling_of_unresolved (cleared .mldsa44) present⟩ covered
          · have both := (inv.fits other).first second
            have shared : Suite.ed25519 ∈ (world.processes other).created := by
              rw [both]
              decide
            have same := inv.unique run other _ own shared
            subst same
            rw [created] at second
            simp at second

theorem Inv.fresh (inv : Inv outDir before world) {name : String}
    (free : world.dir.seeds name = none) : before.seeds name = none := by
  by_contra there
  obtain ⟨entry, found⟩ := Option.ne_none_iff_exists'.mp there
  rw [inv.kept name entry found] at free
  cases free

theorem Inv.fits_update (inv : Inv outDir before world) {run : Nat}
    (fits : Fits outDir before process') (other : Nat) :
    Fits outDir before (Function.update world.processes run process' other) := by
  by_cases same : other = run
  · rw [same, Function.update_self]
    exact fits
  · rw [Function.update_of_ne same]
    exact inv.fits other

theorem created_update {run : Nat} (same : process'.created = (world.processes run).created)
    (other : Nat) : (Function.update world.processes run process' other).created =
      (world.processes other).created := by
  by_cases own : other = run
  · rw [own, Function.update_self, same]
  · rw [Function.update_of_ne own]

theorem Inv.unmoved (inv : Inv outDir before world) {run : Nat}
    (seeds : dir'.seeds = world.dir.seeds)
    (created : process'.created = (world.processes run).created)
    (fits : Fits outDir before process') :
    Inv outDir before ⟨dir', Function.update world.processes run process'⟩ where
  kept := by
    rw [seeds]
    exact inv.kept
  made := by
    simp only [seeds, created_update created]
    exact inv.made
  unique := by
    simp only [created_update created]
    exact inv.unique
  origin := by
    simp only [seeds, created_update created]
    exact inv.origin
  fits := inv.fits_update fits

theorem Inv.written (inv : Inv outDir before world) {run : Nat} {suite : Suite} {file : SeedFile}
    (own : suite ∈ (world.processes run).created)
    (seeds : dir'.seeds = world.dir.seeds.put (seedPath outDir suite) file)
    (created : process'.created = (world.processes run).created)
    (fits : Fits outDir before process') :
    Inv outDir before ⟨dir', Function.update world.processes run process'⟩ where
  kept := by
    rw [seeds]
    exact inv.kept.put (inv.made run suite own).1
  made := by
    intro other suite' member
    rw [created_update created] at member
    refine ⟨(inv.made other suite' member).1, ?_⟩
    dsimp only
    by_cases equal : suite' = suite
    · rw [seeds, equal, Folder.put_self]
      exact ⟨file, rfl⟩
    · rw [seeds, Folder.put_of_ne ((seedPath_injective outDir).ne equal)]
      exact (inv.made other suite' member).2
  unique := by
    simp only [created_update created]
    exact inv.unique
  origin := by
    intro suite' entry found
    simp only [created_update created]
    by_cases equal : suite' = suite
    · exact Or.inr ⟨run, equal ▸ own⟩
    · dsimp only at found
      rw [seeds, Folder.put_of_ne ((seedPath_injective outDir).ne equal)] at found
      exact inv.origin suite' entry found
  fits := inv.fits_update fits

theorem mem_created_update {run : Nat} {suite : Suite}
    (created : process'.created = (world.processes run).created ++ [suite]) (other : Nat)
    (suite' : Suite) :
    suite' ∈ (Function.update world.processes run process' other).created ↔
      suite' ∈ (world.processes other).created ∨ (other = run ∧ suite' = suite) := by
  by_cases same : other = run
  · subst same
    rw [Function.update_self, created, List.mem_append, List.mem_singleton]
    simp
  · rw [Function.update_of_ne same]
    simp [same]

theorem Inv.creates (inv : Inv outDir before world) {run : Nat} {suite : Suite} {file : SeedFile}
    (free : world.dir.seeds (seedPath outDir suite) = none)
    (seeds : dir'.seeds = world.dir.seeds.put (seedPath outDir suite) file)
    (created : process'.created = (world.processes run).created ++ [suite])
    (fits : Fits outDir before process') :
    Inv outDir before ⟨dir', Function.update world.processes run process'⟩ := by
  have newer := mem_created_update created
  have nobody : ∀ other, suite ∉ (world.processes other).created := by
    intro other member
    obtain ⟨file', found⟩ := (inv.made other suite member).2
    rw [free] at found
    cases found
  refine ⟨?_, ?_, ?_, ?_, inv.fits_update fits⟩
  · rw [seeds]
    exact inv.kept.put (inv.fresh free)
  · intro other suite' member
    dsimp only
    by_cases equal : suite' = suite
    · rw [seeds, equal, Folder.put_self]
      exact ⟨inv.fresh free, file, rfl⟩
    · rcases (newer other suite').mp member with old | ⟨-, new⟩
      · rw [seeds, Folder.put_of_ne ((seedPath_injective outDir).ne equal)]
        exact inv.made other suite' old
      · exact absurd new equal
  · intro left right suite' member member'
    rcases (newer left suite').mp member with old | ⟨rfl, rfl⟩
    · rcases (newer right suite').mp member' with old' | ⟨-, rfl⟩
      · exact inv.unique left right suite' old old'
      · exact absurd old (nobody left)
    · rcases (newer right suite').mp member' with old' | ⟨same, -⟩
      · exact absurd old' (nobody right)
      · exact same.symm
  · intro suite' entry found
    by_cases equal : suite' = suite
    · exact Or.inr ⟨run, (newer run suite').mpr (Or.inr ⟨rfl, equal⟩)⟩
    · dsimp only at found
      rw [seeds, Folder.put_of_ne ((seedPath_injective outDir).ne equal)] at found
      rcases inv.origin suite' entry found with old | ⟨other, member⟩
      · exact Or.inl old
      · exact Or.inr ⟨other, (newer other suite').mpr (Or.inl member)⟩

theorem Inv.effect (inv : Inv outDir before world) {run : Nat}
    (effect : Effect outDir world.dir (world.processes run) dir' process')
    (fits : Fits outDir before process') :
    Inv outDir before ⟨dir', Function.update world.processes run process'⟩ := by
  cases effect with
  | none seeds created => exact inv.unmoved seeds created fits
  | creates suite file free seeds created => exact inv.creates free seeds created fits
  | writes suite file writing seeds created =>
      have current := inv.fits run
      simp only [Fits, writing] at current
      exact inv.written current.2.2.2 seeds created fits

theorem Inv.step (laws : crates.Laws) (covered : ¬ (before.seeds (seedPath outDir .ed25519) = none ∧
      before.seeds.Dangling (seedPath outDir .mldsa44)))
    (inv : Inv outDir before world) (step : Step crates outDir world world') :
    Inv outDir before world' := by
  cases step with
  | move run moves =>
      exact inv.effect moves.effect
        (moves.fits laws inv.kept (fun _ _ minting there => inv.alone covered minting there)
          (inv.fits run))

theorem inv_begin (outDir : String) (before : OutDir) (names : Nat → Text) :
    Inv outDir before (World.begin before names) where
  kept := Folder.Keeps.refl _
  made := fun _ _ member => absurd member List.not_mem_nil
  unique := fun _ _ _ member => absurd member List.not_mem_nil
  origin := fun _ _ found => Or.inl found
  fits := fun _ => rfl

theorem inv_of_reachable (laws : crates.Laws)
    (covered : ¬ (before.seeds (seedPath outDir .ed25519) = none ∧
      before.seeds.Dangling (seedPath outDir .mldsa44)))
    (reachable : Reachable crates outDir before world) : Inv outDir before world := by
  obtain ⟨names, run⟩ := reachable
  induction run with
  | refl => exact inv_begin outDir before names
  | tail _ step ih => exact ih.step laws covered step

theorem Inv.promise (inv : Inv outDir before world) : AllOrNothing outDir before world where
  kept := inv.kept
  refused := by
    intro run path returned
    have fits := inv.fits run
    simp only [Fits, returned] at fits
    exact fits.2 path rfl
  oneRun := by
    intro new
    have creator : ∀ suite, ∃ run, suite ∈ (world.processes run).created := by
      intro suite
      obtain ⟨entry, found⟩ := Option.ne_none_iff_exists'.mp (new suite).2
      rcases inv.origin suite entry found with old | made
      · rw [(new suite).1] at old
        cases old
      · exact made
    obtain ⟨run, second⟩ := creator .mldsa44
    have both := (inv.fits run).first second
    have all : ∀ suite, suite ∈ (world.processes run).created := by
      intro suite
      rw [both]
      cases suite <;> decide
    refine ⟨run, ?_⟩
    intro suite other
    constructor
    · intro member
      exact inv.unique other run suite member (all suite)
    · rintro rfl
      exact all suite
  whole := by
    intro run result returned
    have fits := inv.fits run
    simp only [Fits, returned] at fits
    exact fits.1

end Invariant

section Alone

variable {crates : KeygenCrates} {outDir : String} {dir dir' : OutDir} {process process' : Process}

/-- Operations of one run, with none of any other in between. -/
def Alone (crates : KeygenCrates) (outDir : String) : OutDir × Process → OutDir × Process → Prop :=
  Relation.ReflTransGen (Moves crates outDir)

theorem Alone.steps {world : World} {run : Nat}
    (alone : Alone crates outDir (world.dir, world.processes run) (dir', process')) :
    Relation.ReflTransGen (Step crates outDir) world
      ⟨dir', Function.update world.processes run process'⟩ := by
  have lifted : ∀ reached, Alone crates outDir (world.dir, world.processes run) reached →
      Relation.ReflTransGen (Step crates outDir) world
        ⟨reached.1, Function.update world.processes run reached.2⟩ := by
    intro reached alone
    induction alone with
    | refl =>
        rw [Function.update_eq_self]
    | @tail middle last _ moves ih =>
        have own : Moves crates outDir
            (middle.1, Function.update world.processes run middle.2 run) (last.1, last.2) := by
          rw [Function.update_self]
          exact moves
        have step : Step crates outDir ⟨middle.1, Function.update world.processes run middle.2⟩
            ⟨last.1, Function.update (Function.update world.processes run middle.2) run last.2⟩ :=
          .move run own
        rw [Function.update_idem] at step
        exact ih.tail step
  exact lifted _ alone

theorem preflight_alone {rest : List Suite} (checking : process.phase = .preflight rest) :
    match preflight outDir dir.seeds rest with
    | .error e => Alone crates outDir (dir, process)
        (dir, { process with phase := .returned (.error e) })
    | .ok () => Alone crates outDir (dir, process) (dir, { process with phase := .ensure }) := by
  induction rest generalizing process with
  | nil => exact .single (.clears checking)
  | cons suite rest ih =>
      rw [preflight]
      cases behind : dir.seeds.resolve (seedPath outDir suite) with
      | some file =>
          rw [if_pos (by simp)]
          exact .single (.finds checking (by simp [behind]))
      | none =>
          rw [if_neg (by simp)]
          have pass : Moves crates outDir (dir, process)
              (dir, { process with phase := .preflight rest }) := .passes checking behind
          have further := @ih { process with phase := .preflight rest } rfl
          cases checked : preflight outDir dir.seeds rest with
          | error e =>
              rw [checked] at further
              exact .head pass further
          | ok done =>
              rw [checked] at further
              exact .head pass further

theorem start_alone {name : Text} (valid : validateName name = .ok ())
    (checked : preflight outDir dir.seeds Suite.all = .ok ()) :
    Alone crates outDir (dir, ⟨name, .start, [], []⟩)
      ({ dir with made := true }, ⟨name, .mint Suite.all, [], []⟩) := by
  have validates : Moves crates outDir (dir, ⟨name, .start, [], []⟩)
      (dir, ⟨name, .preflight Suite.all, [], []⟩) := .validates rfl valid
  have checks := @preflight_alone crates outDir dir ⟨name, .preflight Suite.all, [], []⟩ _ rfl
  rw [checked] at checks
  have ensures : Moves crates outDir (dir, ⟨name, .ensure, [], []⟩)
      ({ dir with made := true }, ⟨name, .mint Suite.all, [], []⟩) := .ensures rfl
  exact .head validates (checks.tail ensures)

theorem mint_alone {suite : Suite} {rest : List Suite} {seed : Hash} {publicKey : List UInt8}
    {vkey : Text} (minting : process.phase = .mint (suite :: rest))
    (derived : crates.publicKey suite seed = .ok publicKey)
    (encoded : encodeVkey crates suite process.name publicKey = .ok vkey)
    (free : dir.seeds (seedPath outDir suite) = none) :
    Alone crates outDir (dir, process)
      ({ dir with seeds :=
          dir.seeds.put (seedPath outDir suite) (wholeFile crates process.name suite vkey seed) },
        { process with
          phase := .mint rest
          keys := process.keys ++ [⟨suite, vkey, seedPath outDir suite⟩]
          created := process.created ++ [suite] }) := by
  let body := Utf8.encode (seedFileText crates.base64 process.name suite vkey seed)
  let made := { dir with seeds := dir.seeds.put (seedPath outDir suite) ⟨ownerOnly, []⟩ }
  let opened := { process with
    phase := Phase.write suite vkey body rest
    created := process.created ++ [suite] }
  have creates : Moves crates outDir (dir, process) (made, opened) :=
    .creates minting derived encoded (Folder.createNew_eq_some.mpr ⟨free, rfl⟩)
  have writing : opened.phase = .write suite vkey (body ++ []) rest := by
    rw [List.append_nil]
  have writes : Moves crates outDir (made, opened)
      ({ made with seeds := made.seeds.put (seedPath outDir suite) ⟨ownerOnly, [] ++ body⟩ },
        { opened with phase := .write suite vkey [] rest }) := .writes writing Folder.put_self
  rw [List.nil_append, Folder.put_put] at writes
  exact .head creates (.head writes (.single (.syncs rfl)))

def noFaults : Faults := ⟨none, fun _ => none⟩

def Agrees (crates : KeygenCrates) (mint : Suite → Hash × List UInt8) : Prop :=
  ∀ suite, crates.publicKey suite (mint suite).1 = .ok (mint suite).2

theorem generateKeys_alone {mint : Suite → Hash × List UInt8} (agrees : Agrees crates mint)
    {rest : List Suite} (minting : process.phase = .mint rest) :
    ∃ last, last.phase = .returned
        ((generateKeys crates process.name outDir mint noFaults rest process.keys dir.seeds).1.map
          fun keys => ⟨process.name, keys⟩) ∧
      Alone crates outDir (dir, process)
        ({ dir with
          seeds := (generateKeys crates process.name outDir mint noFaults rest process.keys
            dir.seeds).2 }, last) := by
  induction rest generalizing process dir with
  | nil => exact ⟨_, rfl, .single (.finishes minting)⟩
  | cons suite rest ih =>
      rw [generateKeys, generateOne]
      cases encoded : encodeVkey crates suite process.name (mint suite).2 with
      | error e => exact ⟨_, rfl, .single (.underivable minting (agrees suite) encoded)⟩
      | ok vkey =>
          cases found : dir.seeds (seedPath outDir suite) with
          | some entry =>
              have taken : dir.seeds.createNew (seedPath outDir suite) ⟨ownerOnly, []⟩ = none :=
                Folder.createNew_eq_none.mpr (by simp [found])
              simp only [writeSeedFile, taken]
              exact ⟨_, rfl, .single (.taken minting (agrees suite) encoded taken)⟩
          | none =>
              have created : dir.seeds.createNew (seedPath outDir suite) ⟨ownerOnly, []⟩ =
                  some (dir.seeds.put (seedPath outDir suite) ⟨ownerOnly, []⟩) :=
                Folder.createNew_eq_some.mpr ⟨found, rfl⟩
              have first := mint_alone minting (agrees suite) encoded found
              simp only [writeSeedFile, created, noFaults, Folder.put_put]
              obtain ⟨last, returned, further⟩ := @ih
                { dir with
                  seeds := dir.seeds.put (seedPath outDir suite)
                    (wholeFile crates process.name suite vkey (mint suite).1) }
                { process with
                  phase := .mint rest
                  keys := process.keys ++ [⟨suite, vkey, seedPath outDir suite⟩]
                  created := process.created ++ [suite] } rfl
              exact ⟨last, returned, first.trans further⟩

/-- Left alone, a run does what `generate` does. -/
theorem generate_alone {mint : Suite → Hash × List UInt8} (agrees : Agrees crates mint)
    (name : Text) : ∃ last,
      last.phase = .returned (generate crates name outDir mint noFaults dir).1 ∧
      Alone crates outDir (dir, ⟨name, .start, [], []⟩)
        ((generate crates name outDir mint noFaults dir).2, last) := by
  rw [generate]
  cases valid : validateName name with
  | error e => exact ⟨_, rfl, .single (.refuses rfl valid)⟩
  | ok accepted =>
      cases checked : preflight outDir dir.seeds Suite.all with
      | error e =>
          have validates : Moves crates outDir (dir, ⟨name, .start, [], []⟩)
              (dir, ⟨name, .preflight Suite.all, [], []⟩) := .validates rfl valid
          have checks :=
            @preflight_alone crates outDir dir ⟨name, .preflight Suite.all, [], []⟩ _ rfl
          rw [checked] at checks
          exact ⟨_, rfl, .head validates checks⟩
      | ok passed =>
          have made : makeDir outDir noFaults dir = .ok { dir with made := true } := by
            rw [makeDir]
            split
            · rename_i present
              rw [← present]
            · rfl
          obtain ⟨last, returned, mints⟩ := @generateKeys_alone crates outDir
            { dir with made := true } ⟨name, .mint Suite.all, [], []⟩ mint agrees _ rfl
          have whole := (start_alone valid checked).trans mints
          rw [made]
          dsimp only at returned whole ⊢
          cases generated :
            generateKeys crates name outDir mint noFaults Suite.all [] dir.seeds with
          | mk result seeds =>
              rw [generated] at returned whole
              cases result with
              | error e => exact ⟨last, returned, whole⟩
              | ok keys => exact ⟨last, returned, whole⟩

theorem refused_halfway (laws : crates.Laws)
    (free : dir.seeds (seedPath outDir .ed25519) = none)
    (dangling : dir.seeds.Dangling (seedPath outDir .mldsa44)) :
    ∃ world, Reachable crates outDir dir world ∧
      (world.processes 0).phase =
        .returned (.error (.seedFileExists (seedPath outDir .mldsa44))) ∧
      (world.processes 0).created = [.ed25519] := by
  obtain ⟨seed⟩ : Nonempty Hash := ⟨⟨List.replicate 32 0, List.length_replicate⟩⟩
  let name : Text := ['w']
  have valid : validateName name = .ok () := by decide
  have checked : preflight outDir dir.seeds Suite.all = .ok () := by
    simp [Suite.all, preflight, Folder.resolve_absent free, dangling.2]
  obtain ⟨first, derived⟩ := laws.derives .ed25519 seed
  obtain ⟨key, built⟩ := laws.accepts .ed25519 name seed first valid derived
  have encoded : encodeVkey crates .ed25519 name first = .ok (crates.encode key) := by
    simp only [encodeVkey, built]
  have mints := @mint_alone crates outDir { dir with made := true }
    ⟨name, .mint Suite.all, [], []⟩ .ed25519 [.mldsa44] seed first _ rfl derived encoded free
  obtain ⟨second, derived'⟩ := laws.derives .mldsa44 seed
  obtain ⟨key', built'⟩ := laws.accepts .mldsa44 name seed second valid derived'
  have encoded' : encodeVkey crates .mldsa44 name second = .ok (crates.encode key') := by
    simp only [encodeVkey, built']
  have apart : seedPath outDir .mldsa44 ≠ seedPath outDir .ed25519 :=
    (seedPath_injective outDir).ne (by decide)
  obtain ⟨target, linked⟩ := dangling.1
  have taken : (dir.seeds.put (seedPath outDir .ed25519)
      (wholeFile crates name .ed25519 (crates.encode key) seed)).createNew
        (seedPath outDir .mldsa44) ⟨ownerOnly, []⟩ = none := by
    rw [Folder.createNew_eq_none, Folder.put_of_ne apart, linked]
    simp
  have run := (start_alone valid checked).trans (mints.tail (.taken rfl derived' encoded' taken))
  refine ⟨_, ⟨fun _ => name, @Alone.steps _ _ _ _ (World.begin dir fun _ => name) 0 run⟩, ?_, ?_⟩
  · simp
  · simp

/-- Key generation keeps its promise in every interleaving of any number of runs, exactly when it
does not start with a free first name and a dangling link at the second. -/
theorem key_generation_is_whole_iff (laws : crates.Laws) (outDir : String) (before : OutDir) :
    (∀ world, Reachable crates outDir before world → AllOrNothing outDir before world) ↔
      ¬ (before.seeds (seedPath outDir .ed25519) = none ∧
        before.seeds.Dangling (seedPath outDir .mldsa44)) := by
  constructor
  · intro promised uncovered
    obtain ⟨world, reachable, returned, created⟩ := refused_halfway laws uncovered.1 uncovered.2
    have nothing := (promised world reachable).refused 0 _ returned
    rw [created] at nothing
    cases nothing
  · intro covered world reachable
    exact (inv_of_reachable laws covered reachable).promise

end Alone

section Runs

open Reference

def emptyOutDir : OutDir := ⟨false, fun _ => none⟩

theorem empty_directory_whole :
    (∀ world, Reachable keygenCrates "keys" emptyOutDir world →
      AllOrNothing "keys" emptyOutDir world) ↔
      ¬ (emptyOutDir.seeds (seedPath "keys" .ed25519) = none ∧
        emptyOutDir.seeds.Dangling (seedPath "keys" .mldsa44)) :=
  key_generation_is_whole_iff keygenCrates_laws "keys" emptyOutDir

/-- An output directory with a link to a file that is gone in place of the second seed file. -/
def linkedOutDir : OutDir where
  made := true
  seeds := fun name => if name = seedPath "keys" .mldsa44 then some (.link "gone") else none

theorem linkedOutDir_dangling :
    linkedOutDir.seeds (seedPath "keys" .ed25519) = none ∧
      linkedOutDir.seeds.Dangling (seedPath "keys" .mldsa44) := by
  have elsewhere : ∀ name, name ≠ seedPath "keys" .mldsa44 → linkedOutDir.seeds name = none := by
    intro name apart
    exact if_neg apart
  have first := elsewhere (seedPath "keys" .ed25519) (by decide)
  have gone := elsewhere "gone" (by decide)
  have second : linkedOutDir.seeds (seedPath "keys" .mldsa44) = some (.link "gone") := by
    simp [linkedOutDir]
  refine ⟨first, ⟨"gone", second⟩, ?_⟩
  rw [Folder.resolve, Folder.maxLinks, Folder.follow, second]
  exact Folder.resolve_absent gone

/-- A run is refused with `SeedFileExists` after it has created the first seed file. -/
theorem dangling_link_leaves_half :
    ∃ world, Reachable keygenCrates "keys" linkedOutDir world ∧
      (world.processes 0).phase =
        .returned (.error (.seedFileExists (seedPath "keys" .mldsa44))) ∧
      (world.processes 0).created = [.ed25519] :=
  refused_halfway keygenCrates_laws linkedOutDir_dangling.1 linkedOutDir_dangling.2

end Runs

end MosskeysWitness.Keygen
