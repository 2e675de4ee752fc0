import MosskeysWitness.Rendering

/-! The change check of a pass against the allowlist the two sets stand for. -/

namespace MosskeysWitness

section Lists

variable {α β κ : Type}

theorem exists_forall₂ {related : α → β → Prop} {right : List β}
    (partner : ∀ b ∈ right, ∃ a, related a b) : ∃ left, List.Forall₂ related left right := by
  induction right with
  | nil => exact ⟨[], .nil⟩
  | cons b right ih =>
      rw [List.forall_mem_cons] at partner
      obtain ⟨a, first⟩ := partner.1
      obtain ⟨left, rest⟩ := ih partner.2
      exact ⟨a :: left, .cons first rest⟩

theorem exists_of_forall₂ {related : α → β → Prop} {left : List α} {right : List β}
    (pairs : List.Forall₂ related left right) :
    (∀ a ∈ left, ∃ b ∈ right, related a b) ∧ ∀ b ∈ right, ∃ a ∈ left, related a b := by
  induction pairs with
  | nil => simp
  | @cons a b left right first _ ih =>
      constructor
      · intro c member
        rcases List.mem_cons.mp member with rfl | inside
        · exact ⟨b, List.mem_cons_self, first⟩
        · obtain ⟨d, there, same⟩ := ih.1 c inside
          exact ⟨d, List.mem_cons_of_mem _ there, same⟩
      · intro d member
        rcases List.mem_cons.mp member with rfl | inside
        · exact ⟨a, List.mem_cons_self, first⟩
        · obtain ⟨c, there, same⟩ := ih.2 d inside
          exact ⟨c, List.mem_cons_of_mem _ there, same⟩

theorem eq_of_key {key : α → κ} {list : List α} (distinct : (list.map key).Nodup) {a b : α}
    (first : a ∈ list) (second : b ∈ list) (same : key a = key b) : a = b :=
  List.inj_on_of_nodup_map distinct first second same

end Lists

variable {crates : WitnessCrates}

def SameLog (left right : LogConfig crates) : Prop :=
  left.origin = right.origin ∧ ∀ key, key ∈ left.vkeys ↔ key ∈ right.vkeys

def SameAllowlist (left right : List (LogConfig crates)) : Prop :=
  (∀ log ∈ left, ∃ other ∈ right, SameLog log other) ∧
    ∀ other ∈ right, ∃ log ∈ left, SameLog log other

/-- Another list of the same logs: in another order, or with the keys of a log in another order
or repeated. -/
def Rearranged (left right : List (LogConfig crates)) : Prop :=
  left ≠ right ∧ ∃ reordered, reordered.Perm left ∧ List.Forall₂ SameLog reordered right

theorem reordered_iff {left right : List (LogConfig crates)} (distinct : Distinct left)
    (distinct' : Distinct right) :
    (∃ reordered, reordered.Perm left ∧ List.Forall₂ SameLog reordered right) ↔
      SameAllowlist left right := by
  constructor
  · intro reorder
    rcases reorder with ⟨reordered, permuted, pairs⟩
    obtain ⟨forward, backward⟩ := exists_of_forall₂ pairs
    constructor
    · intro log member
      exact forward log (permuted.mem_iff.mpr member)
    · intro other member
      obtain ⟨log, inside, same⟩ := backward other member
      exact ⟨log, permuted.mem_iff.mp inside, same⟩
  · intro same
    have partner : ∀ other ∈ right, ∃ log, log ∈ left ∧ SameLog log other := by
      intro other member
      obtain ⟨log, inside, alike⟩ := same.2 other member
      exact ⟨log, inside, alike⟩
    obtain ⟨reordered, pairs⟩ := exists_forall₂ partner
    have inside : ∀ log ∈ reordered, log ∈ left := by
      intro log member
      obtain ⟨other, -, paired⟩ := (exists_of_forall₂ pairs).1 log member
      exact paired.1
    have origins : reordered.map LogConfig.origin = right.map LogConfig.origin := by
      rw [← List.forall₂_eq_eq_eq, List.forall₂_map_left_iff, List.forall₂_map_right_iff]
      exact pairs.imp fun log other paired => paired.2.1
    have nodup : (reordered.map LogConfig.origin).Nodup := origins ▸ distinct'
    refine ⟨reordered, ?_, pairs.imp fun log other paired => paired.2⟩
    rw [List.perm_ext_iff_of_nodup (List.Nodup.of_map _ nodup) (List.Nodup.of_map _ distinct)]
    intro log
    refine ⟨inside log, ?_⟩
    intro member
    obtain ⟨other, there, alike⟩ := same.1 log member
    obtain ⟨found, kept, paired⟩ := (exists_of_forall₂ pairs).2 other there
    have one : found = log := eq_of_key distinct paired.1 member (paired.2.1.trans alike.1.symm)
    exact one ▸ kept

theorem SameAllowlist.refl (logs : List (LogConfig crates)) : SameAllowlist logs logs := by
  have itself : ∀ log ∈ logs, ∃ other ∈ logs, SameLog log other := by
    intro log member
    exact ⟨log, member, rfl, fun key => Iff.rfl⟩
  refine ⟨itself, ?_⟩
  intro log member
  exact ⟨log, member, rfl, fun key => Iff.rfl⟩

section Pass

variable {crates : SyncCrates} {target : FeedTarget} {client : HttpClient} {dir : StateDir}
  {existing logs : List (LogConfig crates.toWitnessCrates)} {newEtag : Option Text}
  {response : HttpResponse} {body : Text}

/-- The pass returns `Unchanged` and leaves the managed file alone. -/
def ReportsUnchanged (crates : SyncCrates) (target : FeedTarget) (client : HttpClient)
    (faults : Faults) (dir : StateDir) : Prop :=
  ∃ report after, syncFeed crates target client faults dir = (.ok report, after) ∧
    report.outcome = .unchanged ∧ after.managed = dir.managed

theorem reportsUnchanged_iff (laws : crates.RoundTrips) (faults : Faults)
    (fetched : Fetched target client dir logs newEtag response body)
    (loaded : loadManagedEntries crates.toConfigCrates target.managedPath dir.managed =
      .ok (some existing)) :
    ReportsUnchanged crates target client faults dir ↔ existing = logs := by
  constructor
  · intro unchanged
    by_contra other
    have differs : ∀ entries, some existing = some entries →
        entriesOf crates entries ≠ entriesOf crates logs := by
      intro entries same equal
      cases same
      exact other (entriesOf_injective laws equal)
    obtain ⟨text, rendered⟩ := renders laws logs target.feedUrl
    have plans := Plans.rewrite fetched loaded differs rendered
    rcases unchanged with ⟨report, after, passed, outcome, -⟩
    simp only [syncFeed, plans.planned] at passed
    split at passed
    · cases passed
    · cases passed
      cases outcome
  · intro same
    subst same
    have plans := Plans.unchanged fetched loaded rfl
    refine ⟨⟨.unchanged, some existing⟩, saveEtag newEtag faults.etag dir, ?_, rfl, ?_⟩
    · simp only [syncFeed, plans.planned]
    · exact saveEtag_managed newEtag faults.etag dir

/-- A 200 is told by its meaning exactly when it is no rearrangement of what is on disk. -/
theorem change_is_of_meaning_iff (laws : crates.RoundTrips) (faults : Faults)
    (fetched : Fetched target client dir logs newEtag response body)
    (loaded : loadManagedEntries crates.toConfigCrates target.managedPath dir.managed =
      .ok (some existing)) :
    (ReportsUnchanged crates target client faults dir ↔ SameAllowlist existing logs) ↔
      ¬ Rearranged existing logs := by
  obtain ⟨feed, set⟩ := parseFeed_ok fetched.parsed
  rw [reportsUnchanged_iff laws faults fetched loaded, Rearranged,
    reordered_iff (loadManagedEntries_distinct loaded) set.distinct]
  have same : existing = logs → SameAllowlist existing logs := by
    intro equal
    rw [equal]
    exact SameAllowlist.refl logs
  tauto

end Pass

open Reference

/-- The set of two logs served again. -/
theorem same_logs_are_unchanged :
    ReportsUnchanged (syncCrates entries) ⟨feedUrl, "managed", "etag"⟩
        (feedClient none (feedBody [alpha, beta])) .none
        ⟨some (managedBytes [alpha, beta]), none, none⟩ ↔
      SameAllowlist [alpha.log, beta.log] [alpha.log, (beta.log : LogConfig witnessCrates)] := by
  have parsed : parseFeed (syncCrates entries) (feedBody [alpha, beta]) =
      .ok [alpha.log, beta.log] :=
    parseFeed_feedBody entries (List.cons_ne_nil _ _) (by decide)
  obtain ⟨response, answered, ok, read⟩ := feedClient_answers (feedBody [alpha, beta]) none
  have itself :
      ¬ Rearranged [alpha.log, beta.log] [alpha.log, (beta.log : LogConfig witnessCrates)] := by
    intro rearranged
    exact rearranged.1 rfl
  exact (change_is_of_meaning_iff (syncCrates_roundTrips entries) .none
    ⟨answered, ok, read, parsed, rfl⟩ (loads_managedBytes (by decide) _)).mpr itself

/-- A feed that only reorders its two logs is reported as an update, and the managed file is
rewritten. -/
theorem reordered_feed_is_an_update :
    loadManagedEntries (syncCrates entries).toConfigCrates "managed"
        (some (managedBytes [alpha, beta])) = .ok (some [alpha.log, beta.log]) ∧
      SameAllowlist [alpha.log, beta.log] [beta.log, (alpha.log : LogConfig witnessCrates)] ∧
      ∃ after, syncFeed (syncCrates entries) ⟨feedUrl, "managed", "etag"⟩
          (feedClient none (feedBody [beta, alpha])) .none
          ⟨some (managedBytes [alpha, beta]), none, none⟩ =
            (.ok ⟨.updated, some [beta.log, alpha.log]⟩, after) ∧
        after.managed ≠ some (managedBytes [alpha, beta]) ∧ exitCode (.ok .updated) = 10 := by
  have laws := syncCrates_roundTrips entries
  have loaded : loadManagedEntries (syncCrates entries).toConfigCrates "managed"
      (some (managedBytes [alpha, beta])) = .ok (some [alpha.log, beta.log]) :=
    loads_managedBytes (by decide) "managed"
  have parsed : parseFeed (syncCrates entries) (feedBody [beta, alpha]) =
      .ok [beta.log, alpha.log] := parseFeed_feedBody entries (List.cons_ne_nil _ _) (by decide)
  have other : some [alpha.log, beta.log] ≠
      some [beta.log, (alpha.log : LogConfig witnessCrates)] := by
    intro same
    have origins := congrArg (List.map LogConfig.origin) (Option.some.inj same)
    exact absurd origins (by decide)
  let target : FeedTarget := ⟨feedUrl, "managed", "etag"⟩
  have answers := feedClient_answers (feedBody [beta, alpha]) none
  obtain ⟨after, passed⟩ :=
    pass_rewrites laws target ⟨some (managedBytes [alpha, beta]), none, none⟩ answers parsed loaded
      other
  refine ⟨loaded, ?_, after, passed, ?_, rfl⟩
  · rw [← reordered_iff (by decide) (by decide)]
    refine ⟨[beta.log, alpha.log], List.Perm.swap _ _ _, ?_⟩
    rw [List.forall₂_same]
    intro log _
    exact ⟨rfl, fun key => Iff.rfl⟩
  · intro same
    have written := loads_after laws (by decide) passed rfl
    rw [same, loaded] at written
    exact other (Except.ok.inj written)

end MosskeysWitness
