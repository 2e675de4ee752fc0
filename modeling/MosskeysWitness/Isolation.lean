import MosskeysWitness.Kinship
import MosskeysWitness.Recovery
import MosskeysWitness.Reference.Fork
import MosskeysWitness.Schedule

/-! Two runs side by side: one that serves the requests of many logs, and one that serves only
those of a single origin. -/

namespace MosskeysWitness

variable {crates : WitnessCrates}

/-- The file is cut inside a character. -/
def Node.Severed : Node crates → Prop
  | .down file => Utf8.decode file = none
  | .up _ _ => False

namespace Scenario

variable (scenario : Scenario crates) (origin : Text)

/-- No crash in the append of another request leaves the file cut inside a character. -/
def Spared : Node crates → List Action → Prop
  | _, [] => True
  | node, action :: rest =>
      (¬ node.Severed → (scenario.act node action).1.Severed →
        ∃ id left, action = .crash id left ∧ scenario.Owns origin id) ∧
      Spared (scenario.act node action).1 rest

/-- An action of a request for another origin, or of one that does not parse. -/
inductive Foreign : Action → Prop
  | receive {id} : ¬ scenario.Owns origin id → Foreign (.receive id)
  | readClock {id now} : ¬ scenario.Owns origin id → Foreign (.readClock id now)
  | turn {id} : ¬ scenario.Owns origin id → Foreign (.turn id)

/-- What stands for an action once the foreign requests are gone. The clock may read another time,
and what a crash leaves may be cut elsewhere. -/
inductive Counterpart (node node' : Node crates) : Action → Action → Prop
  | receive {id} : scenario.Owns origin id → Counterpart node node' (.receive id) (.receive id)
  | readClock {id now now'} : scenario.Owns origin id → ((stamp now).isOk = (stamp now').isOk) →
      Counterpart node node' (.readClock id now) (.readClock id now')
  | turn {id} : scenario.Owns origin id → Counterpart node node' (.turn id) (.turn id)
  | stop : Counterpart node node' .stop .stop
  | crash {id left left'} : scenario.Owns origin id → left.whole = left'.whole →
      ((scenario.act node (.crash id left)).1.Severed ↔
        (scenario.act node' (.crash id left')).1.Severed) →
      Counterpart node node' (.crash id left) (.crash id left')
  | killed {id left} : ¬ scenario.Owns origin id → Counterpart node node' (.crash id left) .stop
  | boot : Counterpart node node' .boot .boot

/-- The second schedule is the first without the foreign requests. -/
inductive Without : Node crates → Node crates → List Action → List Action → Prop
  | nil {node node'} : Without node node' [] []
  | removed {node node' action rest rest'} : scenario.Foreign origin action →
      Without (scenario.act node action).1 node' rest rest' →
      Without node node' (action :: rest) rest'
  | kept {node node' action action' rest rest'} :
      scenario.Counterpart origin node node' action action' →
      Without (scenario.act node action).1 (scenario.act node' action').1 rest rest' →
      Without node node' (action :: rest) (action' :: rest')

/-- The action with nothing changed but what is foreign. -/
def alone : Action → Option Action
  | .receive id => if scenario.Owns origin id then some (.receive id) else none
  | .readClock id now => if scenario.Owns origin id then some (.readClock id now) else none
  | .turn id => if scenario.Owns origin id then some (.turn id) else none
  | .crash id left => some (if scenario.Owns origin id then .crash id left else .stop)
  | .stop => some .stop
  | .boot => some .boot

end Scenario

def SameAnswer (answer answer' : Answer) : Prop :=
  answer.id = answer'.id ∧ SameOutcome answer.outcome answer'.outcome

/-- The same is stored for the origin: in memory, and while the process is down, in what the next
start finds, if it finds anything. -/
def StoresSame (origin : Text) : Node crates → Node crates → Prop
  | .up witness _, .up witness' _ =>
      Option.Rel (SameHead crates) (witness.latest origin) (witness'.latest origin)
  | .down file, .down file' => ∀ path,
      match (Store.open crates.toStoreCrates path false file).1,
        (Store.open crates.toStoreCrates path false file').1 with
      | .ok store, .ok store' =>
          Option.Rel (SameHead crates) (store.latest origin) (store'.latest origin)
      | .error e, .error e' => e = e'
      | _, _ => False
  | _, _ => False

/-- From an empty file on, the requests for the origin are answered as they are without all
others, and the same is stored for it. -/
def Scenario.Isolated (scenario : Scenario crates) (origin : Text) (schedule : List Action) :
    Prop :=
  ∀ schedule', scenario.Without origin (.down []) (.down []) schedule schedule' →
    List.Forall₂ SameAnswer (scenario.answersOf origin (scenario.run (.down []) schedule).2)
        (scenario.run (.down []) schedule').2 ∧
      StoresSame origin (scenario.run (.down []) schedule).1 (scenario.run (.down []) schedule').1

section TwoRuns

variable {scenario : Scenario crates} {origin : Text} {kin : Kinship crates scenario.identity}

/-- The same request in flight on both sides, with or without a clock reading. -/
inductive SameFlight (kin : Kinship crates scenario.identity) :
    Option (InFlight crates) → Option (InFlight crates) → Prop
  | none : SameFlight kin none none
  | unread {vetted} : SameFlight kin (some ⟨vetted, none⟩) (some ⟨vetted, none⟩)
  | read {vetted timestamp timestamp'} : kin.clock timestamp.val timestamp'.val →
      SameFlight kin (some ⟨vetted, some timestamp⟩) (some ⟨vetted, some timestamp'⟩)

/-- The requests in flight on both sides, and the origins of those on the first. -/
structure Flights (kin : Kinship crates scenario.identity) (origin : Text)
    (inFlight inFlight' : Nat → Option (InFlight crates)) : Prop where
  origins : ∀ id request, inFlight id = some request →
    originOf crates (scenario.requests id) = some request.vetted.origin
  same : ∀ id, scenario.Owns origin id → SameFlight kin (inFlight id) (inFlight' id)

/-- The two sides store kindred records for the origin and have the same requests for it in
flight. -/
inductive Alike (kin : Kinship crates scenario.identity) (origin : Text) :
    Node crates → Node crates → Prop
  | down {file file' journal journal'} :
      Disk crates.toStoreCrates file journal → (∀ state ∈ journal, state.origin ≠ []) →
      Disk crates.toStoreCrates file' journal' → (∀ state ∈ journal', state.origin ≠ []) →
      Option.Rel kin.record ((latestStates journal).lookup origin)
        ((latestStates journal').lookup origin) →
      (Utf8.decode file = none ↔ Utf8.decode file' = none) →
      Alike kin origin (.down file) (.down file')
  | up {witness witness' inFlight inFlight' journal journal'} :
      Standing scenario journal witness → Standing scenario journal' witness' →
      Option.Rel kin.record ((latestStates journal).lookup origin)
        ((latestStates journal').lookup origin) →
      Flights kin origin inFlight inFlight' →
      Alike kin origin (.up witness inFlight) (.up witness' inFlight')

theorem lookup_of_other {journal : List LogState} {state : LogState}
    (other : state.origin ≠ origin) :
    (latestStates (journal ++ [state])).lookup origin = (latestStates journal).lookup origin := by
  rw [latestStates, LastWins.lookup_fold_concat, if_neg other]
  rfl

theorem lookup_of_own {journal : List LogState} {state : LogState} (own : state.origin = origin) :
    (latestStates (journal ++ [state])).lookup origin = some state := by
  rw [latestStates, LastWins.lookup_fold_concat, if_pos own]

theorem originOf_vetted {logs : Allowlist crates} {body : Text} {vetted : Vetted crates}
    (passed : vet crates logs body = .ok vetted) : originOf crates body = some vetted.origin := by
  rw [originOf, (vet_ok passed).1]
  rfl

section Flights

variable {inFlight inFlight' : Nat → Option (InFlight crates)} {id : Nat}
  {entry entry' : Option (InFlight crates)}

private theorem Flights.origins_update (flights : Flights kin origin inFlight inFlight')
    (named : ∀ request, entry = some request →
      originOf crates (scenario.requests id) = some request.vetted.origin) :
    ∀ other request, Function.update inFlight id entry other = some request →
      originOf crates (scenario.requests other) = some request.vetted.origin := by
  intro other request found
  by_cases self : other = id
  · subst self
    rw [Function.update_self] at found
    exact named request found
  · rw [Function.update_of_ne self] at found
    exact flights.origins other request found

theorem Flights.foreign (flights : Flights kin origin inFlight inFlight')
    (other : ¬ scenario.Owns origin id)
    (named : ∀ request, entry = some request →
      originOf crates (scenario.requests id) = some request.vetted.origin) :
    Flights kin origin (Function.update inFlight id entry) inFlight' where
  origins := flights.origins_update named
  same := by
    intro id' owned
    have apart : id' ≠ id := fun self => other (self ▸ owned)
    rw [Function.update_of_ne apart]
    exact flights.same id' owned

theorem Flights.both (flights : Flights kin origin inFlight inFlight')
    (named : ∀ request, entry = some request →
      originOf crates (scenario.requests id) = some request.vetted.origin)
    (alike : SameFlight kin entry entry') :
    Flights kin origin (Function.update inFlight id entry)
      (Function.update inFlight' id entry') where
  origins := flights.origins_update named
  same := by
    intro id' owned
    by_cases self : id' = id
    · subst self
      rw [Function.update_self, Function.update_self]
      exact alike
    · rw [Function.update_of_ne self, Function.update_of_ne self]
      exact flights.same id' owned

theorem Flights.mine (flights : Flights kin origin inFlight inFlight') {request : InFlight crates}
    (held : inFlight id = some request) (owned : scenario.Owns origin id) :
    request.vetted.origin = origin :=
  Option.some.inj ((flights.origins id request held).symm.trans owned)

theorem Flights.apart (flights : Flights kin origin inFlight inFlight') {request : InFlight crates}
    (held : inFlight id = some request) (other : ¬ scenario.Owns origin id) {identity : Identity}
    {timestamp : UInt64} {current : Option LogState} {approved : LogState × Text}
    (decided : settle identity request.vetted timestamp current = .ok approved) :
    approved.1.origin ≠ origin := by
  intro own
  rw [settle_origin decided] at own
  exact other ((flights.origins id request held).trans (congrArg some own))

end Flights

variable (faithful : crates.toStoreCrates.Faithful)

section Removed

variable {node node' next : Node crates} {answers : List Answer}

include faithful in
theorem Alike.removed (alike : Alike kin origin node node') {action : Action}
    (foreign : scenario.Foreign origin action)
    (acted : scenario.act node action = (next, answers)) :
    Alike kin origin next node' ∧ ∀ answer ∈ answers, ¬ scenario.Owns origin answer.id := by
  cases alike with
  | down disk named disk' named' same severed =>
      cases foreign <;> cases acted <;>
        exact ⟨.down disk named disk' named' same severed, by simp⟩
  | up standing standing' same flights =>
      rename_i witness witness' inFlight inFlight' journal journal'
      have unchanged := Alike.up standing standing' same flights
      cases foreign with
      | receive other =>
          rename_i id
          rw [Scenario.act] at acted
          split at acted
          · cases acted
            exact ⟨unchanged, by simpa using other⟩
          · rename_i vetted passed
            cases acted
            refine ⟨.up standing standing' same (flights.foreign other ?_), by simp⟩
            intro request found
            cases found
            exact originOf_vetted passed
      | readClock other =>
          rename_i id now
          rw [Scenario.act] at acted
          split at acted
          · rename_i vetted held
            split at acted
            · cases acted
              exact ⟨.up standing standing' same (flights.foreign other (by simp)),
                by simpa using other⟩
            · cases acted
              refine ⟨.up standing standing' same (flights.foreign other ?_), by simp⟩
              intro request found
              cases found
              exact flights.origins id ⟨vetted, none⟩ held
          · cases acted
            exact ⟨unchanged, by simp⟩
      | turn other =>
          rename_i id
          rw [Scenario.act] at acted
          split at acted
          · rename_i vetted timestamp held
            have cleared : Flights kin origin (Function.update inFlight id none) inFlight' :=
              flights.foreign other (by simp)
            cases decided : settle scenario.identity vetted timestamp.val
              ((latestStates journal).lookup vetted.origin) with
            | error error =>
                rw [standing.turnedAway decided] at acted
                cases acted
                exact ⟨.up standing standing' same cleared, by simpa using other⟩
            | ok approved =>
                obtain ⟨next, submitted, grown⟩ := standing.submit faithful decided
                rw [submitted] at acted
                cases acted
                refine ⟨.up grown standing' ?_ cleared, by simpa using other⟩
                rwa [lookup_of_other (flights.apart held other decided)]
          · cases acted
            exact ⟨unchanged, by simp⟩

end Removed

section Kept

variable {node node' next next' : Node crates} {answers answers' : List Answer}

theorem Scenario.answersOf_append (first rest : List Answer) :
    scenario.answersOf origin (first ++ rest) =
      scenario.answersOf origin first ++ scenario.answersOf origin rest := List.filter_append ..

theorem Scenario.answersOf_unseen (unseen : ∀ answer ∈ answers, ¬ scenario.Owns origin answer.id) :
    scenario.answersOf origin answers = [] := by
  rw [Scenario.answersOf, List.filter_eq_nil_iff]
  intro answer member
  simpa using unseen answer member

theorem answered {id : Nat} {outcome outcome' : Except WitnessError Text}
    (owned : scenario.Owns origin id) (same : SameOutcome outcome outcome') :
    List.Forall₂ SameAnswer (scenario.answersOf origin [⟨id, outcome⟩]) [⟨id, outcome'⟩] := by
  rw [Scenario.answersOf, List.filter_cons_of_pos (by simpa using owned)]
  exact .cons ⟨rfl, same⟩ .nil

theorem Kinship.decides_own (kin : Kinship crates scenario.identity)
    {journal journal' : List LogState}
    (same : Option.Rel kin.record ((latestStates journal).lookup origin)
      ((latestStates journal').lookup origin))
    {vetted : Vetted crates} (mine : vetted.origin = origin)
    {timestamp timestamp' : {timestamp : UInt64 // timestamp ≠ 0}}
    (read : kin.clock timestamp.val timestamp'.val) :
    SameDecision kin.record
      (settle scenario.identity vetted timestamp.val ((latestStates journal).lookup vetted.origin))
      (settle scenario.identity vetted timestamp'.val
        ((latestStates journal').lookup vetted.origin)) := by
  subst mine
  exact kin.decides timestamp.property timestamp'.property read same

include faithful in
theorem Alike.turn {witness witness' : Witness crates}
    {inFlight inFlight' : Nat → Option (InFlight crates)} {id : Nat}
    (alike : Alike kin origin (.up witness inFlight) (.up witness' inFlight'))
    (owned : scenario.Owns origin id)
    (acted : scenario.act (.up witness inFlight) (.turn id) = (next, answers))
    (acted' : scenario.act (.up witness' inFlight') (.turn id) = (next', answers')) :
    Alike kin origin next next' ∧
      List.Forall₂ SameAnswer (scenario.answersOf origin answers) answers' := by
  cases alike with
  | up standing standing' same flights =>
      rename_i journal journal'
      have unchanged := Alike.up standing standing' same flights
      have flight := flights.same id owned
      rw [Scenario.act] at acted acted'
      generalize held : inFlight id = entry at flight acted
      generalize inFlight' id = entry' at flight acted'
      cases flight with
      | none | unread =>
          cases acted
          cases acted'
          exact ⟨unchanged, .nil⟩
      | read clocks =>
          rename_i vetted timestamp timestamp'
          have mine := flights.mine held owned
          have cleared : Flights kin origin (Function.update inFlight id none)
              (Function.update inFlight' id none) := flights.both (by simp) .none
          have decided := kin.decides_own same mine clocks
          generalize outcome : settle scenario.identity vetted timestamp.val _ = first at decided
          generalize outcome' : settle scenario.identity vetted timestamp'.val _ = second at decided
          dsimp only at acted acted'
          cases decided with
          | error =>
              rw [standing.turnedAway outcome] at acted
              rw [standing'.turnedAway outcome'] at acted'
              cases acted
              cases acted'
              exact ⟨.up standing standing' same cleared, answered owned .error⟩
          | ok kindred =>
              obtain ⟨next, submitted, grown⟩ := standing.submit faithful outcome
              obtain ⟨next', submitted', grown'⟩ := standing'.submit faithful outcome'
              rw [submitted] at acted
              rw [submitted'] at acted'
              cases acted
              cases acted'
              refine ⟨.up grown grown' ?_ cleared, answered owned .ok⟩
              rw [lookup_of_own ((settle_origin outcome).trans mine),
                lookup_of_own ((settle_origin outcome').trans mine)]
              exact .some kindred

theorem severed_iff {crates : StoreCrates} {journal : List LogState} {rest : List UInt8} :
    Utf8.decode (journalFile crates journal ++ rest) = none ↔
      ¬ ∃ text, Utf8.encode text = rest := by
  rw [← journalFile_append_text, Option.eq_none_iff_forall_ne_some, not_exists]

theorem Standing.unsevered {witness : Witness crates} {journal : List LogState}
    (standing : Standing scenario journal witness) :
    Utf8.decode witness.store.inner.file ≠ none := by
  rcases journalFile_text crates.toStoreCrates journal with ⟨text, written⟩
  rw [standing.stored]
  dsimp only
  rw [written, Utf8.decode_encode]
  exact Option.some_ne_none text

theorem Alike.stopped {witness witness' : Witness crates}
    {inFlight inFlight' : Nat → Option (InFlight crates)}
    (alike : Alike kin origin (.up witness inFlight) (.up witness' inFlight')) :
    Alike kin origin (.down witness.store.inner.file) (.down witness'.store.inner.file) := by
  cases alike with
  | up standing standing' same flights =>
      exact .down standing.disk standing.named standing'.disk standing'.named same
        (iff_of_false standing.unsevered standing'.unsevered)

include faithful in
/-- A request of another origin dies with its append, and the origin's record is untouched. -/
theorem Alike.killed {witness witness' : Witness crates}
    {inFlight inFlight' : Nat → Option (InFlight crates)} {id : Nat} {left : Remnant}
    (alike : Alike kin origin (.up witness inFlight) (.up witness' inFlight'))
    (other : ¬ scenario.Owns origin id)
    (spared : Utf8.decode (Scenario.crashed witness left (inFlight id)) ≠ none) :
    Alike kin origin (.down (Scenario.crashed witness left (inFlight id)))
      (.down witness'.store.inner.file) := by
  have untouched := alike.stopped
  cases alike with
  | up standing standing' same flights =>
      rename_i journal journal'
      unfold Scenario.crashed at spared ⊢
      split
      · rename_i vetted timestamp held
        rw [held] at spared
        dsimp only at spared
        rw [standing.identified, standing.latest] at spared ⊢
        split
        · rename_i state body approved
          rw [approved] at spared
          have crash := standing.crash faithful approved left
          refine .down crash.1 crash.2 standing'.disk standing'.named ?_
            (iff_of_false spared standing'.unsevered)
          split
          · rwa [lookup_of_other (flights.apart held other approved)]
          · exact same
        · exact untouched
      · exact untouched

include faithful in
theorem Alike.crash {witness witness' : Witness crates}
    {inFlight inFlight' : Nat → Option (InFlight crates)} {id : Nat} {left left' : Remnant}
    (alike : Alike kin origin (.up witness inFlight) (.up witness' inFlight'))
    (owned : scenario.Owns origin id) (cut : left.whole = left'.whole)
    (severed : Utf8.decode (Scenario.crashed witness left (inFlight id)) = none ↔
      Utf8.decode (Scenario.crashed witness' left' (inFlight' id)) = none) :
    Alike kin origin (.down (Scenario.crashed witness left (inFlight id)))
      (.down (Scenario.crashed witness' left' (inFlight' id))) := by
  have untouched := alike.stopped
  cases alike with
  | up standing standing' same flights =>
      rename_i journal journal'
      have flight := flights.same id owned
      generalize held : inFlight id = entry at flight severed
      generalize inFlight' id = entry' at flight severed
      cases flight with
      | none | unread => exact untouched
      | read clocks =>
          rename_i vetted timestamp timestamp'
          have mine := flights.mine held owned
          have decided := kin.decides_own same mine clocks
          rw [Scenario.crashed, Scenario.crashed, standing.identified, standing.latest,
            standing'.identified, standing'.latest] at severed ⊢
          generalize outcome : settle scenario.identity vetted timestamp.val _ = first
            at decided severed
          generalize outcome' : settle scenario.identity vetted timestamp'.val _ = second
            at decided severed
          cases decided with
          | error => exact untouched
          | ok kindred =>
              have crash := standing.crash faithful outcome left
              have crash' := standing'.crash faithful outcome' left'
              refine .down crash.1 crash.2 crash'.1 crash'.2 ?_ severed
              rw [← cut]
              split
              · rw [lookup_of_own ((settle_origin outcome).trans mine),
                  lookup_of_own ((settle_origin outcome').trans mine)]
                exact .some kindred
              · exact same

theorem stamp_both {now now' : Option UInt64} (agree : (stamp now).isOk = (stamp now').isOk) :
    (stamp now = .error .clock ∧ stamp now' = .error .clock) ∨
      ∃ timestamp timestamp', stamp now = .ok timestamp ∧ stamp now' = .ok timestamp' := by
  rcases stamp_cases now with early | ⟨timestamp, read⟩ <;>
    rcases stamp_cases now' with early' | ⟨timestamp', read'⟩
  · exact Or.inl ⟨early, early'⟩
  · rw [early, read'] at agree
    cases agree
  · rw [read, early'] at agree
    cases agree
  · exact Or.inr ⟨timestamp, timestamp', read, read'⟩

def Kinship.Times (kin : Kinship crates scenario.identity) : Action → Action → Prop
  | .readClock _ now, .readClock _ now' => ∀ timestamp timestamp', stamp now = .ok timestamp →
      stamp now' = .ok timestamp' → kin.clock timestamp.val timestamp'.val
  | _, _ => True

include faithful in
theorem Alike.booted {file file' : List UInt8}
    (alike : Alike kin origin (.down file) (.down file'))
    (acted : scenario.act (.down file) .boot = (next, answers))
    (acted' : scenario.act (.down file') .boot = (next', answers')) :
    Alike kin origin next next' ∧
      List.Forall₂ SameAnswer (scenario.answersOf origin answers) answers' := by
  have unchanged := alike
  cases alike with
  | down disk named disk' named' same severed =>
      by_cases blocked : scenario.config.logs = [] ∨ Utf8.decode file = none
      · rw [disk.staysDown faithful named blocked] at acted
        rw [disk'.staysDown faithful named' (blocked.imp_right severed.mp)] at acted'
        cases acted
        cases acted'
        exact ⟨unchanged, .nil⟩
      · have listed : scenario.config.logs ≠ [] := fun empty => blocked (Or.inl empty)
        have text : Utf8.decode file ≠ none := fun cut => blocked (Or.inr cut)
        rcases disk.boots faithful named listed text with ⟨witness, boots, standing⟩
        rcases disk'.boots faithful named' listed (mt severed.mpr text) with
          ⟨witness', boots', standing'⟩
        rw [boots] at acted
        rw [boots'] at acted'
        cases acted
        cases acted'
        refine ⟨.up standing standing' same ⟨by simp, ?_⟩, .nil⟩
        intro id owned
        exact .none

theorem Alike.received {witness witness' : Witness crates}
    {inFlight inFlight' : Nat → Option (InFlight crates)} {id : Nat}
    (alike : Alike kin origin (.up witness inFlight) (.up witness' inFlight'))
    (owned : scenario.Owns origin id)
    (acted : scenario.act (.up witness inFlight) (.receive id) = (next, answers))
    (acted' : scenario.act (.up witness' inFlight') (.receive id) = (next', answers')) :
    Alike kin origin next next' ∧
      List.Forall₂ SameAnswer (scenario.answersOf origin answers) answers' := by
  have unchanged := alike
  cases alike with
  | up standing standing' same flights =>
      rw [Scenario.act, standing.listed] at acted
      rw [Scenario.act, standing'.listed] at acted'
      cases passed : vet crates (.collect scenario.config.logs) (scenario.requests id) with
      | error error =>
          rw [passed] at acted acted'
          cases acted
          cases acted'
          exact ⟨unchanged, answered owned .error⟩
      | ok vetted =>
          rw [passed] at acted acted'
          cases acted
          cases acted'
          refine ⟨.up standing standing' same (flights.both ?_ .unread), .nil⟩
          intro request found
          cases found
          exact originOf_vetted passed

theorem Alike.clocked {witness witness' : Witness crates}
    {inFlight inFlight' : Nat → Option (InFlight crates)} {id : Nat} {now now' : Option UInt64}
    (alike : Alike kin origin (.up witness inFlight) (.up witness' inFlight'))
    (owned : scenario.Owns origin id) (agree : (stamp now).isOk = (stamp now').isOk)
    (times : kin.Times (.readClock id now) (.readClock id now'))
    (acted : scenario.act (.up witness inFlight) (.readClock id now) = (next, answers))
    (acted' : scenario.act (.up witness' inFlight') (.readClock id now') = (next', answers')) :
    Alike kin origin next next' ∧
      List.Forall₂ SameAnswer (scenario.answersOf origin answers) answers' := by
  have unchanged := alike
  cases alike with
  | up standing standing' same flights =>
      have flight := flights.same id owned
      rw [Scenario.act] at acted acted'
      generalize held : inFlight id = entry at flight acted
      generalize inFlight' id = entry' at flight acted'
      cases flight with
      | none | read =>
          cases acted
          cases acted'
          exact ⟨unchanged, .nil⟩
      | unread =>
          rename_i vetted
          dsimp only at acted acted'
          rcases stamp_both agree with ⟨early, early'⟩ | ⟨timestamp, timestamp', read, read'⟩
          · rw [early] at acted
            rw [early'] at acted'
            cases acted
            cases acted'
            exact ⟨.up standing standing' same (flights.both (by simp) .none),
              answered owned .error⟩
          · have clocks := times timestamp timestamp' read read'
            rw [read] at acted
            rw [read'] at acted'
            cases acted
            cases acted'
            refine ⟨.up standing standing' same (flights.both ?_ (.read clocks)), .nil⟩
            intro request found
            cases found
            exact flights.origins id ⟨vetted, none⟩ held

include faithful in
/-- An action and its counterpart keep the two sides alike and answer alike. -/
theorem Alike.kept (alike : Alike kin origin node node') {action action' : Action}
    (counterpart : scenario.Counterpart origin node node' action action')
    (times : kin.Times action action')
    (spared : ¬ node.Severed → (scenario.act node action).1.Severed →
      ∃ id left, action = .crash id left ∧ scenario.Owns origin id)
    (acted : scenario.act node action = (next, answers))
    (acted' : scenario.act node' action' = (next', answers')) :
    Alike kin origin next next' ∧
      List.Forall₂ SameAnswer (scenario.answersOf origin answers) answers' := by
  cases alike with
  | down disk named disk' named' same severed =>
      have unchanged : Alike kin origin _ _ := .down disk named disk' named' same severed
      cases counterpart with
      | boot => exact unchanged.booted faithful acted acted'
      | receive | readClock | turn | stop | crash | killed =>
          cases acted
          cases acted'
          exact ⟨unchanged, .nil⟩
  | up standing standing' same flights =>
      have unchanged := Alike.up standing standing' same flights
      cases counterpart with
      | receive owned => exact unchanged.received owned acted acted'
      | readClock owned agree => exact unchanged.clocked owned agree times acted acted'
      | turn owned => exact unchanged.turn faithful owned acted acted'
      | stop =>
          cases acted
          cases acted'
          exact ⟨unchanged.stopped, .nil⟩
      | crash owned cut severed =>
          cases acted
          cases acted'
          exact ⟨unchanged.crash faithful owned cut severed, .nil⟩
      | killed other =>
          cases acted
          cases acted'
          refine ⟨unchanged.killed faithful other ?_, .nil⟩
          intro broken
          obtain ⟨id, left, same, owned⟩ := spared not_false broken
          cases same
          exact other owned
      | boot =>
          cases acted
          cases acted'
          exact ⟨unchanged, .nil⟩

end Kept

section Alone

variable {node node' : Node crates}

include faithful in
theorem Alike.severed
    (alike : Alike (.equal : Kinship crates scenario.identity) origin node node') {id : Nat}
    (left : Remnant)
    (owned : scenario.Owns origin id) :
    (scenario.act node (.crash id left)).1.Severed ↔
      (scenario.act node' (.crash id left)).1.Severed := by
  cases alike with
  | down disk named disk' named' same severed => exact severed
  | up standing standing' same flights =>
      rename_i witness witness' inFlight inFlight' journal journal'
      have whole := iff_of_false standing.unsevered standing'.unsevered
      have flight := flights.same id owned
      change Utf8.decode (Scenario.crashed witness left (inFlight id)) = none ↔
        Utf8.decode (Scenario.crashed witness' left (inFlight' id)) = none
      generalize held : inFlight id = entry at flight
      generalize inFlight' id = entry' at flight
      cases flight with
      | none | unread => exact whole
      | read clocks =>
          rename_i vetted timestamp timestamp'
          have mine := flights.mine held owned
          have decided := Kinship.equal.decides_own same mine clocks
          rw [Scenario.crashed, Scenario.crashed, standing.identified, standing.latest,
            standing'.identified, standing'.latest]
          generalize outcome : settle scenario.identity vetted timestamp.val _ = first at decided
          generalize outcome' : settle scenario.identity vetted timestamp'.val _ = second at decided
          cases decided with
          | error => exact whole
          | ok equal =>
              cases equal
              dsimp only
              rw [standing.crash_file faithful outcome, standing'.crash_file faithful outcome',
                severed_iff, severed_iff]

include faithful in
theorem Alike.alone
    (alike : Alike (.equal : Kinship crates scenario.identity) origin node node')
    (action : Action) :
    (scenario.Foreign origin action ∧ scenario.alone origin action = none) ∨
      ∃ action', scenario.alone origin action = some action' ∧
        scenario.Counterpart origin node node' action action' ∧
        (.equal : Kinship crates scenario.identity).Times action action' := by
  cases action with
  | receive id =>
      by_cases owned : scenario.Owns origin id
      · exact Or.inr ⟨_, if_pos owned, .receive owned, trivial⟩
      · exact Or.inl ⟨.receive owned, if_neg owned⟩
  | readClock id now =>
      by_cases owned : scenario.Owns origin id
      · refine Or.inr ⟨_, if_pos owned, .readClock owned rfl, ?_⟩
        intro timestamp timestamp' read read'
        cases read.symm.trans read'
        rfl
      · exact Or.inl ⟨.readClock owned, if_neg owned⟩
  | turn id =>
      by_cases owned : scenario.Owns origin id
      · exact Or.inr ⟨_, if_pos owned, .turn owned, trivial⟩
      · exact Or.inl ⟨.turn owned, if_neg owned⟩
  | crash id left =>
      by_cases owned : scenario.Owns origin id
      · refine Or.inr ⟨_, congrArg some (if_pos owned), .crash owned rfl ?_, trivial⟩
        exact alike.severed faithful left owned
      · exact Or.inr ⟨_, congrArg some (if_neg owned), .killed owned, trivial⟩
  | stop => exact Or.inr ⟨_, rfl, .stop, trivial⟩
  | boot => exact Or.inr ⟨_, rfl, .boot, trivial⟩

end Alone

section Runs

variable {schedule schedule' : List Action} {node node' : Node crates}

include faithful in
/-- The schedule with only the foreign requests taken out is the first without them. -/
theorem Alike.without (alike : Alike (.equal : Kinship crates scenario.identity) origin node node')
    (spared : scenario.Spared origin node schedule) :
    scenario.Without origin node node' schedule (schedule.filterMap (scenario.alone origin)) := by
  induction schedule generalizing node node' with
  | nil => exact .nil
  | cons action rest ih =>
      rcases alike.alone faithful action with ⟨foreign, gone⟩ | ⟨action', stays, counterpart, times⟩
      · rw [List.filterMap_cons_none gone]
        exact .removed foreign (ih (alike.removed faithful foreign Prod.mk.eta.symm).1 spared.2)
      · rw [List.filterMap_cons_some stays]
        have next :=
          alike.kept faithful counterpart times spared.1 Prod.mk.eta.symm Prod.mk.eta.symm
        exact .kept counterpart (ih next.1 spared.2)

include faithful in
theorem Alike.run (without : scenario.Without origin node node' schedule schedule')
    (timed : ∀ action action', kin.Times action action')
    (spared : scenario.Spared origin node schedule) (alike : Alike kin origin node node') :
    Alike kin origin (scenario.run node schedule).1 (scenario.run node' schedule').1 ∧
      List.Forall₂ SameAnswer (scenario.answersOf origin (scenario.run node schedule).2)
        (scenario.run node' schedule').2 := by
  induction without with
  | nil => exact ⟨alike, .nil⟩
  | removed foreign without ih =>
      obtain ⟨alike', unseen⟩ := alike.removed faithful foreign Prod.mk.eta.symm
      obtain ⟨last, others⟩ := ih spared.2 alike'
      refine ⟨last, ?_⟩
      rw [Scenario.run, Scenario.answersOf_append, Scenario.answersOf_unseen unseen]
      exact others
  | kept counterpart without ih =>
      obtain ⟨alike', answered⟩ :=
        alike.kept faithful counterpart (timed _ _) spared.1 Prod.mk.eta.symm Prod.mk.eta.symm
      obtain ⟨last, others⟩ := ih spared.2 alike'
      refine ⟨last, ?_⟩
      rw [Scenario.run, Scenario.run, Scenario.answersOf_append]
      exact List.rel_append answered others

include faithful in
theorem Alike.storesSame (accepts : crates.log.NewNoteAccepts)
    (timeless : crates.log.SignersTimeless) (alike : Alike (.head accepts timeless :
      Kinship crates scenario.identity) origin node node') : StoresSame origin node node' := by
  cases alike with
  | up standing standing' same flights =>
      rw [StoresSame, standing.latest, standing'.latest]
      exact same
  | down disk named disk' named' same severed =>
      rename_i file file' journal journal'
      intro path
      by_cases text : ∃ text, Utf8.decode file = some text
      · have text' : ∃ text, Utf8.decode file' = some text := by
          rw [← Option.ne_none_iff_exists'] at text ⊢
          exact mt severed.mpr text
        rw [disk.opens_text faithful named text, disk'.opens_text faithful named' text']
        exact same
      · have broken : ¬ ∃ text, Utf8.decode file' = some text := by
          rw [← Option.ne_none_iff_exists', not_not] at text ⊢
          exact severed.mp text
        rw [disk.refuses faithful named text, disk'.refuses faithful named' broken]

include faithful in
/-- With the requests of all other logs gone, every request of this one is answered as before and
the same is stored for it, at the end of every schedule and so at every point of one, as long as
no crash in the append of another log leaves the file cut inside a character. -/
theorem logs_do_not_interfere (accepts : crates.log.NewNoteAccepts)
    (timeless : crates.log.SignersTimeless)
    (spared : scenario.Spared origin (.down []) schedule) :
    scenario.Without origin (.down []) (.down []) schedule
        (schedule.filterMap (scenario.alone origin)) ∧
      scenario.Isolated origin schedule := by
  have start (kin : Kinship crates scenario.identity) : Alike kin origin (.down []) (.down []) :=
    .down (.clean []) (by simp) (.clean []) (by simp) .none Iff.rfl
  refine ⟨(start .equal).without faithful spared, ?_⟩
  intro schedule' without
  have timed (action action' : Action) :
      (.head accepts timeless : Kinship crates scenario.identity).Times action action' := by
    unfold Kinship.Times
    split
    · intro timestamp timestamp' read read'
      trivial
    · trivial
  obtain ⟨last, answered⟩ := (start _).run faithful without timed spared
  exact ⟨answered, last.storesSame faithful accepts timeless⟩

end Runs

end TwoRuns

section TwoLogs

open Reference

theorem Json.dash_mem_write {record : Record} (member : '—' ∈ record.note) :
    '—' ∈ Json.write record := by
  have plain : '—' ∈ Json.escape record.note := List.mem_flatMap.mpr ⟨'—', member, by decide⟩
  simp [Json.write, plain]

theorem dash_mem_recordText {identity : Identity} {vetted : Vetted witnessCrates}
    {timestamp : UInt64} {state : LogState} {body : Text}
    (cosigned : Cosigned identity vetted timestamp state body) :
    '—' ∈ recordText storeCrates state := by
  obtain ⟨edSig, mlSig, note, -, -, framed, marshalled, -⟩ := cosigned.signed
  have signed := note.signed
  have dashed : '—' ∈ state.note := by
    rw [marshalled]
    cases shape : note.signatures with
    | nil => exact absurd shape signed
    | cons first rest => simp [Note.marshal, Note.marshalLine, shape]
  exact Json.dash_mem_write dashed

def otherOrigin : Text := ['l', 'o', 'g', '2']

def otherKey : Key := ⟨otherOrigin, seed 4⟩

theorem isOrigin_other : IsOrigin otherOrigin := by decide

theorem isName_otherKey : Note.IsName otherKey.name := by decide

def otherCheckpoint : Checkpoint := ⟨otherOrigin, 1, seed 5, isOrigin_other⟩

def otherConfig : LogConfig witnessCrates :=
  ⟨otherOrigin, [otherKey], isOrigin_other.1, List.cons_ne_nil _ _⟩

/-- Request 1 is the log's first checkpoint, request 2 the other log's; every other body is
empty. -/
def twoLogs : Scenario witnessCrates where
  config := { config with manualLogs := [logConfig, otherConfig], logs := [logConfig, otherConfig] }
  ed25519 := identity.ed25519
  mldsa44 := identity.mldsa44
  requests
    | 1 => body 0 1
    | 2 => renderRequest witnessCrates 0 []
        (Note.marshal (shownNote otherKey isName_otherKey otherCheckpoint))
    | _ => []

/-- The process dies in the append of the other log's record, and the log submits its own after
the next start. -/
def neighbourDies (left : Remnant) : List Action :=
  [.boot, .receive 3, .receive 2, .readClock 2 (some 100), .crash 2 left, .boot, .receive 1,
    .readClock 1 (some 200), .turn 1]

abbrev allowed : Allowlist witnessCrates := .collect [logConfig, otherConfig]

theorem log_allowed : allowed.vkeys.lookup origin = some [logKey] :=
  (Finmap.lookup_insert_of_ne _ (by decide)).trans (Finmap.lookup_insert _)

theorem other_allowed : allowed.vkeys.lookup otherCheckpoint.origin = some [otherKey] :=
  Finmap.lookup_insert _

theorem first_fits : (treeProof storeCrates entries 0 1).length ≤ maxProofLines :=
  treeProof_fits storeCrates entries 0 (by decide : (1 : UInt64).toNat ≤ 2 ^ 62)

theorem first_ordered : (0 : UInt64) ≤ 1 := UInt64.zero_le

abbrev ownRequest : Vetted witnessCrates := extension log_allowed first_ordered first_fits

theorem other_ordered : (0 : UInt64) ≤ otherCheckpoint.size := UInt64.zero_le

abbrev otherRequest : Vetted witnessCrates :=
  shown isName_otherKey other_allowed other_ordered ⟨[], noProof_fits⟩

theorem vet_own : vet witnessCrates allowed (twoLogs.requests 1) = .ok ownRequest :=
  vet_body log_allowed first_ordered first_fits

theorem vet_other : vet witnessCrates allowed (twoLogs.requests 2) = .ok otherRequest :=
  vet_shown other_allowed other_ordered ⟨[], noProof_fits⟩

theorem owns_own : twoLogs.Owns origin 1 := originOf_vetted vet_own

theorem not_owns_other : ¬ twoLogs.Owns origin 2 := by
  intro owns
  have other := (originOf_vetted vet_other).symm.trans owns
  exact absurd (Option.some.inj other) (by decide : otherOrigin ≠ origin)

theorem not_owns_malformed : ¬ twoLogs.Owns origin 3 := by
  intro owns
  cases owns

theorem otherRequest_settles : ∃ state body,
    settle identity otherRequest 100 none = .ok (state, body) :=
  settle_succeeds (signersSucceed entries (by decide) _ _) (newNoteAccepts entries) (by decide)
    rfl (fun hollow => absurd hollow (by decide)) (fun _ => rfl) rfl

theorem ownRequest_settles : ∃ state body,
    settle identity ownRequest 200 none = .ok (state, body) :=
  extension_settles log_allowed first_ordered first_fits (by rintro state ⟨⟩) rfl (by decide)

theorem gets_in_flight {scenario : Scenario crates} {witness : Witness crates}
    (inFlight : Nat → Option (InFlight crates)) {id : Nat} {vetted : Vetted crates}
    (passed : vet crates witness.logs (scenario.requests id) = .ok vetted) {timestamp : UInt64}
    (timed : timestamp ≠ 0) (rest : List Action) :
    ∃ inFlight', inFlight' id = some ⟨vetted, some ⟨timestamp, timed⟩⟩ ∧
      scenario.run (.up witness inFlight) (.receive id :: .readClock id (some timestamp) :: rest) =
        scenario.run (.up witness inFlight') rest ∧
      (scenario.Spared origin (.up witness inFlight')  rest → scenario.Spared origin
        (.up witness inFlight) (.receive id :: .readClock id (some timestamp) :: rest)) := by
  have receives : scenario.act (.up witness inFlight) (.receive id) =
      (.up witness (Function.update inFlight id (some ⟨vetted, none⟩)), []) := by
    rw [Scenario.act, passed]
  have reads : scenario.act (.up witness (Function.update inFlight id (some ⟨vetted, none⟩)))
      (.readClock id (some timestamp)) =
        (.up witness (Function.update inFlight id (some ⟨vetted, some ⟨timestamp, timed⟩⟩)),
          []) := by
    rw [Scenario.act, Function.update_self]
    dsimp only
    rw [stamp_nonzero timed]
    simp
  refine ⟨Function.update inFlight id (some ⟨vetted, some ⟨timestamp, timed⟩⟩),
    Function.update_self .., ?_, ?_⟩
  · rw [Scenario.run, receives]
    dsimp only
    rw [Scenario.run, reads]
    rfl
  · intro spared
    rw [Scenario.Spared, receives, Scenario.Spared, reads]
    exact ⟨fun _ severed => severed.elim, fun _ severed => severed.elim, spared⟩

theorem twoLogs_boots (file : List UInt8) (disk : Disk storeCrates file [])
    (text : Utf8.decode file ≠ none) : ∃ witness : Witness witnessCrates,
    twoLogs.act (.down file) .boot = (.up witness fun _ => none, []) ∧
      Standing twoLogs [] witness :=
  disk.boots storeCrates_faithful (List.forall_mem_nil _) (List.cons_ne_nil _ _) text

theorem own_answered {witness : Witness witnessCrates} (standing : Standing twoLogs [] witness)
    (inFlight : Nat → Option (InFlight witnessCrates)) : ∃ body,
    (twoLogs.run (.up witness inFlight) [.receive 1, .readClock 1 (some 200), .turn 1]).2 =
        [⟨1, .ok body⟩] ∧
      twoLogs.Spared origin (.up witness inFlight)
        [.receive 1, .readClock 1 (some 200), .turn 1] := by
  obtain ⟨state, body, approved⟩ := ownRequest_settles
  obtain ⟨next, submitted, -⟩ := standing.submit storeCrates_faithful approved
  have passed : vet witnessCrates witness.logs (twoLogs.requests 1) = .ok ownRequest := by
    rw [standing.listed]
    exact vet_own
  obtain ⟨inFlight', held, ran, spared⟩ :=
    gets_in_flight inFlight passed (by decide : (200 : UInt64) ≠ 0) [.turn 1]
  have turns : twoLogs.act (.up witness inFlight') (.turn 1) =
      (.up next (Function.update inFlight' 1 none), [⟨1, .ok body⟩]) := by
    rw [Scenario.act, held]
    dsimp only
    rw [submitted]
  refine ⟨body, ?_, spared ?_⟩
  · rw [ran, Scenario.run, turns]
    rfl
  · rw [Scenario.Spared, turns]
    exact ⟨fun _ severed => severed.elim, trivial⟩

/-- The start, the malformed body and the other log's request, up to the crash in its append. -/
theorem neighbour_dies : ∃ state error, '—' ∈ recordText storeCrates state ∧ state.origin ≠ [] ∧
    ∀ left rest, let file := (recordLine storeCrates state).take (left.bytes storeCrates state)
      (twoLogs.run (.down []) (.boot :: .receive 3 :: .receive 2 :: .readClock 2 (some 100) ::
          .crash 2 left :: rest)).2 = ⟨3, .error error⟩ :: (twoLogs.run (.down file) rest).2 ∧
        (Utf8.decode file ≠ none → twoLogs.Spared origin (.down file) rest →
          twoLogs.Spared origin (.down []) (.boot :: .receive 3 :: .receive 2 ::
            .readClock 2 (some 100) :: .crash 2 left :: rest)) := by
  obtain ⟨state, body, approved⟩ := otherRequest_settles
  obtain ⟨witness, boots, standing⟩ := twoLogs_boots [] (.clean []) (Option.some_ne_none [])
  obtain ⟨error, malformed⟩ : ∃ error, vet witnessCrates witness.logs [] = .error error := ⟨_, rfl⟩
  have refuses : twoLogs.act (.up witness fun _ => none) (.receive 3) =
      (.up witness fun _ => none, [⟨3, .error error⟩]) := by
    have body : twoLogs.requests 3 = [] := rfl
    rw [Scenario.act, body, malformed]
  have passed : vet witnessCrates witness.logs (twoLogs.requests 2) = .ok otherRequest := by
    rw [standing.listed]
    exact vet_other
  refine ⟨state, error, dash_mem_recordText (settle_ok approved).cosigned, ?_, ?_⟩
  · rw [settle_origin approved]
    exact otherRequest.origin_ne_nil
  · intro left rest
    obtain ⟨inFlight, held, ran, spared⟩ :=
      gets_in_flight (fun _ => none) passed (by decide : (100 : UInt64) ≠ 0) (.crash 2 left :: rest)
    have crashes : twoLogs.act (.up witness inFlight) (.crash 2 left) =
        (.down ((recordLine storeCrates state).take (left.bytes storeCrates state)), []) := by
      have approved' : settle witness.toIdentity otherRequest 100
          (witness.latest otherRequest.origin) = .ok (state, body) := by
        rw [standing.identified, standing.latest]
        exact approved
      rw [Scenario.act, held, Scenario.crashed]
      dsimp only
      rw [approved']
      dsimp only
      rw [standing.crash_file storeCrates_faithful approved left]
      rfl
    constructor
    · rw [Scenario.run, boots]
      dsimp only
      rw [Scenario.run, refuses]
      dsimp only
      rw [ran, Scenario.run, crashes]
      rfl
    · intro whole later
      rw [Scenario.Spared, boots, Scenario.Spared, refuses]
      refine ⟨fun _ severed => severed.elim, fun _ severed => severed.elim, spared ?_⟩
      rw [Scenario.Spared, crashes]
      exact ⟨fun _ severed => absurd severed whole, later⟩

theorem part_disk {state : LogState} (named : state.origin ≠ []) (count : Nat) :
    Disk storeCrates
      ((recordLine storeCrates state).take ((Remnant.part count).bytes storeCrates state)) [] := by
  have filled : 0 < (Utf8.encode (recordText storeCrates state)).length := by
    apply List.length_pos_of_ne_nil
    simp [recordText_ne_nil storeCrates_faithful]
  have short : ¬ (Utf8.encode (recordText storeCrates state)).length ≤
      (Remnant.part count).bytes storeCrates state := by
    rw [Remnant.bytes]
    omega
  have disk : Disk storeCrates _ _ :=
    .torn [] state ((Remnant.part count).bytes storeCrates state) named
  rw [recoveredJournal, if_neg short] at disk
  exact disk

/-- The other log's record is cut after its first byte: the next start drops the remnant, and the
log is answered as if the other one had not been there. -/
theorem neighbour_dies_unseen :
    twoLogs.Without origin (.down []) (.down []) (neighbourDies (.part 1))
        ((neighbourDies (.part 1)).filterMap (twoLogs.alone origin)) ∧
      twoLogs.Isolated origin (neighbourDies (.part 1)) := by
  have spared : twoLogs.Spared origin (.down []) (neighbourDies (.part 1)) := by
    obtain ⟨state, error, -, named, dies⟩ := neighbour_dies
    obtain ⟨rest, text⟩ : ∃ rest, recordText storeCrates state = '{' :: '"' :: rest := ⟨_, rfl⟩
    have brace : (recordLine storeCrates state).take ((Remnant.part 1).bytes storeCrates state) =
        Utf8.encode ['{'] := by
      have one : (Remnant.part 1).bytes storeCrates state = 1 := by
        have start : Utf8.encode ('{' :: '"' :: rest) = 123 :: 34 :: Utf8.encode rest := rfl
        rw [Remnant.bytes, text, start]
        simp
      rw [one, recordLine_brace]
    have disk := part_disk named 1
    rw [brace] at disk
    have whole : Utf8.decode (Utf8.encode ['{']) ≠ none := by simp
    obtain ⟨witness, boots, standing⟩ := twoLogs_boots _ disk whole
    obtain ⟨body, -, spared⟩ := own_answered standing fun _ => none
    have dies := (dies (.part 1) [.boot, .receive 1, .readClock 1 (some 200), .turn 1]).2
    rw [brace] at dies
    apply dies whole
    rw [Scenario.Spared, boots]
    exact ⟨fun _ severed => severed.elim, spared⟩
  exact logs_do_not_interfere storeCrates_faithful (newNoteAccepts entries)
    (signersTimeless entries) spared

theorem cut_inside_dash {state : LogState} (dashed : '—' ∈ recordText storeCrates state) :
    ∃ count, Utf8.decode ((recordLine storeCrates state).take
      ((Remnant.part count).bytes storeCrates state)) = none := by
  obtain ⟨front, back, text⟩ := List.append_of_mem dashed
  have dash : (Utf8.encode ['—']).length = 3 := by decide
  have cut : (Remnant.part ((Utf8.encode front).length + 1)).bytes storeCrates state =
      (Utf8.encode front).length + 1 := by
    have line : Utf8.encode (recordText storeCrates state) =
        Utf8.encode front ++ (Utf8.encode ['—'] ++ Utf8.encode back) := by
      rw [text, ← Utf8.encode_append, ← Utf8.encode_append, List.singleton_append]
    have length := congrArg List.length line
    rw [List.length_append, List.length_append, dash] at length
    rw [Remnant.bytes]
    omega
  have within : 1 < (Utf8.encode ['—']).length := by rw [dash]; decide
  have inside := Utf8.not_encode_inside front (back ++ ['\n']) Nat.one_pos within
  refine ⟨(Utf8.encode front).length + 1, ?_⟩
  rw [cut, recordLine, text, List.append_assoc, List.cons_append,
    Option.eq_none_iff_forall_ne_some]
  intro whole decoded
  exact inside ⟨whole, Utf8.encode_of_decode decoded⟩

/-- The other log's record is cut inside a dash: no start succeeds any more, and the log is not
answered. -/
theorem neighbour_dies_inside_dash :
    ∃ count, ¬ twoLogs.Isolated origin (neighbourDies (.part count)) := by
  obtain ⟨state, error, dashed, named, dies⟩ := neighbour_dies
  obtain ⟨count, severed⟩ := cut_inside_dash dashed
  refine ⟨count, ?_⟩
  intro isolated
  have stays : twoLogs.act _ .boot = (_, []) :=
    (part_disk named count).staysDown storeCrates_faithful (List.forall_mem_nil _) (Or.inr severed)
  have silent : (twoLogs.run (.down ((recordLine storeCrates state).take
      ((Remnant.part count).bytes storeCrates state)))
        [.boot, .receive 1, .readClock 1 (some 200), .turn 1]).2 = [] := by
    rw [Scenario.run, stays]
    rfl
  have ran := (dies (.part count) [.boot, .receive 1, .readClock 1 (some 200), .turn 1]).1
  rw [silent] at ran
  have unanswered : twoLogs.answersOf origin
      (twoLogs.run (.down []) (neighbourDies (.part count))).2 = [] := by
    rw [neighbourDies, ran]
    apply Scenario.answersOf_unseen
    intro answer member
    rw [List.mem_singleton.mp member]
    exact not_owns_malformed
  obtain ⟨witness, boots, standing⟩ := twoLogs_boots [] (.clean []) (Option.some_ne_none [])
  obtain ⟨body, answered, -⟩ := own_answered standing fun _ => none
  have stops : twoLogs.act (.up witness fun _ => none) .stop = (.down [], []) := by
    rw [Scenario.act, standing.stored]
    rfl
  have alone : (twoLogs.run (.down [])
      [.boot, .stop, .boot, .receive 1, .readClock 1 (some 200), .turn 1]).2 =
        [⟨1, .ok body⟩] := by
    rw [Scenario.run, boots]
    dsimp only
    rw [Scenario.run, stops]
    dsimp only
    rw [Scenario.run, boots]
    exact answered
  have without : twoLogs.Without origin (.down []) (.down []) (neighbourDies (.part count))
      [.boot, .stop, .boot, .receive 1, .readClock 1 (some 200), .turn 1] :=
    .kept .boot (.removed (.receive not_owns_malformed) (.removed (.receive not_owns_other)
      (.removed (.readClock not_owns_other) (.kept (.killed not_owns_other) (.kept .boot
        (.kept (.receive owns_own) (.kept (.readClock owns_own rfl)
          (.kept (.turn owns_own) .nil))))))))
  have same := (isolated _ without).1
  rw [unanswered, alone] at same
  cases same

end TwoLogs

end MosskeysWitness
