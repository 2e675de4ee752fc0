import MosskeysWitness.Monitoring
import MosskeysWitness.Reference.Router
import MosskeysWitness.Reference.Run

/-! The service as a client reaches it, one HTTP exchange after another, and the steps of the
witness that its answers tell of. -/

namespace MosskeysWitness

open Relation (ReflTransGen)

namespace Surface

/-- The body is `none` where it does not arrive in time. -/
structure Request where
  method : Method
  target : Text
  body : Option (List UInt8)

/-- No response to `HEAD` has a body. -/
def Request.shown (request : Request) (response : Response) : Response :=
  if request.method = .head then { response with body := [] } else response

inductive BodyRejection where
  | late
  | tooLarge
  | notText

/-- The framework with what it answers itself, and the extractor of a captured segment. -/
structure Framework extends Axum where
  unrouted : Method → Text → Response
  rejects : BodyRejection → Response
  pathParam : Text → Except Response Text

structure Framework.Laws (framework : Framework) : Prop where
  unrouted : ∀ method target, (framework.unrouted method target).status ≠ 200
  rejects : ∀ rejection, (framework.rejects rejection).status ≠ 200
  pathParam : ∀ target response, framework.pathParam target = .error response →
    response.status ≠ 200

def maxBodyBytes : Nat := 1048576

def readBody : Option (List UInt8) → Except BodyRejection Text
  | none => .error .late
  | some bytes =>
      if maxBodyBytes < bytes.length then .error .tooLarge
      else match Utf8.decode bytes with
        | none => .error .notText
        | some text => .ok text

variable {crates : WitnessCrates}

section Exchange

variable (framework : Framework) (app : framework.Router)
  (walk : (states : States) → IterationOrder states)

def handle (witness : Witness crates) (request : Request) (clock : Option UInt64) :
    Response × Witness crates :=
  match framework.call app request.method request.target with
  | none => (framework.unrouted request.method request.target, witness)
  | some .addCheckpoint =>
      match readBody request.body with
      | .error rejection => (framework.rejects rejection, witness)
      | .ok body =>
          let (outcome, next) := witness.addCheckpoint body clock none
          (addCheckpointResponse outcome, next)
  | some .latestCheckpoint =>
      match framework.pathParam request.target with
      | .error response => (response, witness)
      | .ok originHash =>
          (latestCheckpoint crates.toStoreCrates witness.store (walk witness.store.inner.states)
            originHash, witness)

def exchange (witness : Witness crates) (request : Request) (clock : Option UInt64) :
    Response × Witness crates :=
  let (response, next) := handle framework app walk witness request clock
  (request.shown response, next)

def session : Witness crates → List (Request × Option UInt64) → List Response × Witness crates
  | witness, [] => ([], witness)
  | witness, (request, clock) :: later =>
      let (response, next) := exchange framework app walk witness request clock
      let (responses, last) := session next later
      (response :: responses, last)

end Exchange

section Tells

variable (crates : WitnessCrates) (framework : Framework) (app : framework.Router)
  (request : Request)

/-- The records that a response has, with the events behind it, newest first. -/
inductive Releases : Response → History crates → Prop
  | cosigned (commit : Commit crates) :
      framework.call app request.method request.target = some .addCheckpoint →
      Releases (addCheckpointResponse (.ok commit.body))
        [.responded commit, .committed commit, .clockRead commit.id commit.timestamp,
          .vetted commit.id commit.vetted]
  | served {originHash} (state : LogState) :
      framework.call app request.method request.target = some .latestCheckpoint →
      framework.pathParam request.target = .ok originHash →
      hex (crates.sha256 (Utf8.encode state.origin)).bytes = originHash →
      Releases ⟨200, none, state.note⟩ [.served state]

/-- What a response tells of the events behind it, newest first. -/
inductive Tells : Response → History crates → Prop
  | released {response events} : Releases crates framework app request response events →
      Tells response events
  | unrouted : Tells (framework.unrouted request.method request.target) []
  | unread (rejection : BodyRejection) : Tells (framework.rejects rejection) []
  | unparsed {response} : framework.pathParam request.target = .error response →
      Tells response []
  | refused (error : WitnessError) :
      Tells (addCheckpointResponse (.error error)) [.refused error]
  | clockless (id : Nat) (vetted : Vetted crates) :
      Tells (addCheckpointResponse (.error .clock))
        [.rejected id vetted .clock, .vetted id vetted]
  | rejected (id : Nat) (vetted : Vetted crates) (timestamp : UInt64) (error : WitnessError) :
      Tells (addCheckpointResponse (.error error))
        [.rejected id vetted error, .clockRead id timestamp, .vetted id vetted]
  | missing : Tells ⟨404, none, []⟩ []

end Tells

theorem error_status (error : WitnessError) :
    (addCheckpointResponse (.error error)).status ≠ 200 := by
  cases error with
  | rejected reject =>
      rw [addCheckpointResponse, rejectResponse_status]
      cases reject <;> simp [Reject.status]
  | store error | clock | sign message | internal reason | panicked => simp [addCheckpointResponse]

theorem Tells.ok_iff {framework : Framework} {app : framework.Router} {request : Request}
    {response : Response} {events : History crates} (laws : framework.Laws)
    (tells : Tells crates framework app request response events) :
    response.status = 200 ↔ Releases crates framework app request response events := by
  have shows : Releases crates framework app request response events →
      response.status = 200 := by
    intro releases
    cases releases <;> rfl
  refine ⟨?_, shows⟩
  intro ok
  cases tells with
  | released releases => exact releases
  | unrouted => exact absurd ok (laws.unrouted _ _)
  | unread rejection => exact absurd ok (laws.rejects rejection)
  | unparsed unparsed => exact absurd ok (laws.pathParam _ _ unparsed)
  | refused error => exact absurd ok (error_status error)
  | clockless id vetted => exact absurd ok (error_status .clock)
  | rejected id vetted timestamp error => exact absurd ok (error_status error)
  | missing => cases ok

variable (identity : Identity) (framework : Framework) (app : framework.Router)
  (request : Request)

theorem decision_is_run
    (routed : framework.call app request.method request.target = some .addCheckpoint)
    (faithful : crates.toStoreCrates.Faithful) (witness : Witness crates)
    (vetted : Vetted crates) (timestamp : {timestamp : UInt64 // timestamp ≠ 0}) (id nextId : Nat)
    (history : History crates) :
    ∃ events,
      ReflTransGen (Step identity)
        ⟨.up ⟨witness, [] ++ ⟨id, vetted, some timestamp⟩ :: [], []⟩, nextId, history⟩
        ⟨.up ⟨(witness.submit vetted timestamp.val none).2, [], []⟩, nextId,
          events ++ history⟩ ∧
      Tells crates framework app request
        (addCheckpointResponse (witness.submit vetted timestamp.val none).1)
        (events ++ [.clockRead id timestamp.val, .vetted id vetted]) := by
  cases settled : settle witness.toIdentity vetted timestamp.val (witness.latest vetted.origin) with
  | error error =>
      have submitted := submit_error none settled
      have rejected : Step identity
          ⟨.up ⟨witness, [] ++ ⟨id, vetted, some timestamp⟩ :: [], []⟩, nextId, history⟩
          ⟨.up ⟨witness, [] ++ [], []⟩, nextId, .rejected id vetted error :: history⟩ :=
        .reject submitted
      rw [submitted]
      exact ⟨[.rejected id vetted error], .single rejected,
        .rejected id vetted timestamp.val error⟩
  | ok approved =>
      rcases approved with ⟨state, body⟩
      have submitted := submit_ok faithful settled
      let commit : Commit crates := ⟨id, vetted, timestamp.val, state, body⟩
      have committed : Step identity
          ⟨.up ⟨witness, [] ++ ⟨id, vetted, some timestamp⟩ :: [], []⟩, nextId, history⟩
          ⟨.up ⟨(witness.submit vetted timestamp.val none).2, [] ++ [], [] ++ commit :: []⟩,
            nextId, .committed commit :: history⟩ := by
        refine .commit settled ?_
        rw [submitted]
      have responded : Step identity
          ⟨.up ⟨(witness.submit vetted timestamp.val none).2, [], [] ++ commit :: []⟩, nextId,
            .committed commit :: history⟩
          ⟨.up ⟨(witness.submit vetted timestamp.val none).2, [], [] ++ []⟩, nextId,
            .responded commit :: .committed commit :: history⟩ := .respond
      have answered : (witness.submit vetted timestamp.val none).1 = .ok commit.body := by
        rw [submitted]
      refine ⟨[.responded commit, .committed commit], (ReflTransGen.single committed).tail
        responded, ?_⟩
      rw [answered]
      exact .released (.cosigned commit routed)

/-- A submission on its own: it is refused, it finds no clock, or it is decided. -/
theorem submission_is_run
    (routed : framework.call app request.method request.target = some .addCheckpoint)
    (faithful : crates.toStoreCrates.Faithful) (witness : Witness crates) (body : Text)
    (clock : Option UInt64) (nextId : Nat) (history : History crates) :
    ∃ nextId' events,
      ReflTransGen (Step identity) ⟨.up ⟨witness, [], []⟩, nextId, history⟩
        ⟨.up ⟨(witness.addCheckpoint body clock none).2, [], []⟩, nextId', events ++ history⟩ ∧
      Tells crates framework app request
        (addCheckpointResponse (witness.addCheckpoint body clock none).1) events := by
  unfold Witness.addCheckpoint
  cases passed : vet crates witness.logs body with
  | error error =>
      have refused : Step identity ⟨.up ⟨witness, [], []⟩, nextId, history⟩
          ⟨.up ⟨witness, [], []⟩, nextId, .refused error :: history⟩ := .refuse passed
      exact ⟨nextId, [.refused error], .single refused, .refused error⟩
  | ok vetted =>
      have accept : Step identity ⟨.up ⟨witness, [], []⟩, nextId, history⟩
          ⟨.up ⟨witness, [] ++ ⟨nextId, vetted, none⟩ :: [], []⟩, nextId + 1,
            .vetted nextId vetted :: history⟩ := .accept passed
      rcases stamp_cases clock with early | ⟨timestamp, now⟩
      · have failed : Step identity
            ⟨.up ⟨witness, [] ++ ⟨nextId, vetted, none⟩ :: [], []⟩, nextId + 1,
              .vetted nextId vetted :: history⟩
            ⟨.up ⟨witness, [] ++ [], []⟩, nextId + 1,
              .rejected nextId vetted .clock :: .vetted nextId vetted :: history⟩ :=
          .clockFails early
        simp only [early]
        exact ⟨nextId + 1, [.rejected nextId vetted .clock, .vetted nextId vetted],
          (ReflTransGen.single accept).tail failed, .clockless nextId vetted⟩
      · have read : Step identity
            ⟨.up ⟨witness, [] ++ ⟨nextId, vetted, none⟩ :: [], []⟩, nextId + 1,
              .vetted nextId vetted :: history⟩
            ⟨.up ⟨witness, [] ++ ⟨nextId, vetted, some timestamp⟩ :: [], []⟩, nextId + 1,
              .clockRead nextId timestamp.val :: .vetted nextId vetted :: history⟩ :=
          .readClock now
        obtain ⟨events, decided, tells⟩ := decision_is_run identity framework app request routed
          faithful witness vetted timestamp nextId (nextId + 1)
          (.clockRead nextId timestamp.val :: .vetted nextId vetted :: history)
        simp only [now]
        refine ⟨nextId + 1, events ++ [.clockRead nextId timestamp.val, .vetted nextId vetted],
          ?_, tells⟩
        rw [List.append_assoc]
        exact ((ReflTransGen.single accept).tail read).trans decided

section Session

variable (walk : (states : States) → IterationOrder states)

theorem lookup_is_run
    (routed : framework.call app request.method request.target = some .latestCheckpoint)
    (witness : Witness crates) {originHash : Text}
    (named : framework.pathParam request.target = .ok originHash) (nextId : Nat)
    (history : History crates) :
    ∃ events,
      ReflTransGen (Step identity) ⟨.up ⟨witness, [], []⟩, nextId, history⟩
        ⟨.up ⟨witness, [], []⟩, nextId, events ++ history⟩ ∧
      Tells crates framework app request (latestCheckpoint crates.toStoreCrates witness.store
        (walk witness.store.inner.states) originHash) events := by
  unfold latestCheckpoint
  split_ifs
  · exact ⟨[], .refl, .missing⟩
  · split
    · rename_i state found
      have finds := latestByOriginHash_finds _ found
      have served : Step identity ⟨.up ⟨witness, [], []⟩, nextId, history⟩
          ⟨.up ⟨witness, [], []⟩, nextId, .served state :: history⟩ := .monitor finds
      exact ⟨[.served state], .single served, .released (.served state routed named finds.2)⟩
    · exact ⟨[], .refl, .missing⟩

theorem handle_is_run (faithful : crates.toStoreCrates.Faithful) (witness : Witness crates)
    (clock : Option UInt64) (nextId : Nat) (history : History crates) :
    ∃ nextId' events,
      ReflTransGen (Step identity) ⟨.up ⟨witness, [], []⟩, nextId, history⟩
        ⟨.up ⟨(handle framework app walk witness request clock).2, [], []⟩, nextId',
          events ++ history⟩ ∧
      Tells crates framework app request (handle framework app walk witness request clock).1
        events := by
  unfold handle
  split
  · exact ⟨nextId, [], .refl, .unrouted⟩
  · rename_i routed
    split
    · exact ⟨nextId, [], .refl, .unread _⟩
    · rename_i body _
      exact submission_is_run identity framework app request routed faithful witness body clock
        nextId history
  · rename_i routed
    split
    · rename_i unparsed
      exact ⟨nextId, [], .refl, .unparsed unparsed⟩
    · rename_i named
      obtain ⟨events, run, tells⟩ :=
        lookup_is_run identity framework app request walk routed witness named nextId history
      exact ⟨nextId, events, run, tells⟩

/-- The responses of a session, and the events behind them, newest first. Those with `200`, and no
others, have a record. -/
inductive Told (crates : WitnessCrates) (framework : Framework) (app : framework.Router) :
    List Request → List Response → History crates → Prop
  | nil : Told crates framework app [] [] []
  | cons {request response events requests responses later} :
      Tells crates framework app request response events →
      (response.status = 200 ↔ Releases crates framework app request response events) →
      Told crates framework app requests responses later →
      Told crates framework app (request :: requests) (request.shown response :: responses)
        (later ++ events)

variable {identity framework}

/-- Whatever a client sends, its session is a run of the witness, and each response tells of the
events that the run has for it, which those before them explain. -/
theorem session_is_run (laws : framework.Laws) (faithful : crates.toStoreCrates.Faithful)
    (witness : Witness crates) (requests : List (Request × Option UInt64)) {nextId : Nat}
    {history : History crates}
    (reachable : Reachable identity ⟨.up ⟨witness, [], []⟩, nextId, history⟩) :
    ∃ nextId' events,
      Reachable identity ⟨.up ⟨(session framework app walk witness requests).2, [], []⟩, nextId',
        events ++ history⟩ ∧
      Told crates framework app (requests.map Prod.fst)
        (session framework app walk witness requests).1 events ∧
      Explained identity (events ++ history) := by
  induction requests generalizing witness nextId history with
  | nil => exact ⟨nextId, [], reachable, .nil, (sound_of_reachable faithful reachable).explained⟩
  | cons first later ih =>
      rcases first with ⟨request, clock⟩
      obtain ⟨between, events, run, tells⟩ :=
        handle_is_run identity framework app request walk faithful witness clock nextId history
      rcases ih _ (reachable.trans run) with ⟨nextId', rest, reached, told, explained⟩
      refine ⟨nextId', rest ++ events, ?_, .cons tells (tells.ok_iff laws) told, ?_⟩
      · rw [List.append_assoc]
        exact reached
      · rw [List.append_assoc]
        exact explained

end Session

section Example

open Reference

theorem walks (states : States) : Nonempty (IterationOrder states) :=
  ⟨⟨states.keys.toList, Finset.nodup_toList _, fun origin => by
    rw [Finset.mem_toList, Finmap.mem_keys]⟩⟩

/-- The captured segment is the one before the last. -/
def plainFramework : Framework where
  toAxum := axum
  unrouted := fun _ _ => ⟨404, none, []⟩
  rejects := fun
    | .late => ⟨408, none, []⟩
    | .tooLarge => ⟨413, none, []⟩
    | .notText => ⟨400, none, []⟩
  pathParam := fun target => .ok ((Uri.segments target).dropLast.getLast?.getD [])

theorem plainFramework_laws : plainFramework.Laws where
  unrouted := fun _ _ => by simp [plainFramework]
  rejects := fun rejection => by cases rejection <;> simp [plainFramework]
  pathParam := nofun

def emptySubmission : Request := ⟨.post, "/add-checkpoint".toList, some []⟩

def strayRead : Request := ⟨.head, "/checkpoint".toList, none⟩

/-- After a record was cosigned, an empty submission and a read of nothing lead to no other one. -/
theorem empty_submission_is_refused : ∃ (app : plainFramework.Router)
    (walk : (states : States) → IterationOrder states) (witness : Witness witnessCrates)
    (commit : Commit witnessCrates) (nextId : Nat) (events : History witnessCrates),
    routerShared plainFramework.toAxum [] = some app ∧
      (session plainFramework app walk witness
        [(emptySubmission, some 150), (strayRead, none)]).1.map Response.status = [400, 404] ∧
      Reachable Reference.identity
        ⟨.up ⟨(session plainFramework app walk witness
          [(emptySubmission, some 150), (strayRead, none)]).2, [], []⟩,
          nextId, events ++ Reference.exchange commit⟩ ∧
      Told witnessCrates plainFramework app [emptySubmission, strayRead]
        (session plainFramework app walk witness
          [(emptySubmission, some 150), (strayRead, none)]).1 events := by
  rcases Reference.one_record with ⟨witness, commit, idle, -, -⟩
  let walk : (states : States) → IterationOrder states := fun states =>
    Classical.choice (walks states)
  obtain ⟨nextId, events, reached, told, -⟩ := @session_is_run witnessCrates Reference.identity
    plainFramework (servedRoutes []) walk plainFramework_laws witnessCrates_faithful witness
      [(emptySubmission, some 150), (strayRead, none)] _ _ idle.reachable
  have built : (routerShared axum [] : Option (List Route)) = some (servedRoutes []) := rfl
  exact ⟨_, walk, witness, commit, nextId, events, built, rfl, reached, told⟩

end Example

end Surface

end MosskeysWitness
