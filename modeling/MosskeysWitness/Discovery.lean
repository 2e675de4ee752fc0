import MosskeysWitness.Sync

/-! The in-process poller. -/

namespace MosskeysWitness

section Poll

variable (crates : SyncCrates)

/-- One poll on the witness: a changed set is hot-swapped in, and a failed pass is only logged. -/
def pollOnce (target : FeedTarget) (client : HttpClient) (faults : Faults)
    (witness : Witness crates.toWitnessCrates) (dir : StateDir) :
    Witness crates.toWitnessCrates × StateDir :=
  match syncFeed crates target client faults dir with
  | (.error _, dir) => (witness, dir)
  | (.ok report, dir) =>
      if report.outcome = .updated then
        match report.entries with
        | some entries => ((witness.applyManagedEntries entries).2, dir)
        -- The `expect` fails here, and the poll loop ends.
        | none => (witness, dir)
      else (witness, dir)

end Poll

end MosskeysWitness
