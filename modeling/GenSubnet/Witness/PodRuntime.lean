import GenSubnet.Gateway.Rounds
import GenSubnet.Gateway.Selection
import GenSubnet.Witness.Records

/-!
# The runtime of a Pod

`PodRuntime` of `pod.py`, with the admissions of `direct.py`. What is done with `lock` held is one
step, and so is what the executor does with a future; control messages, connections, renders and
saves come in any order. What a capture or a recovery does to the call records is a `change`, as is
what other Pods do.
-/

namespace GenSubnet.Witness.PodService
open Library Auth Gateway Gateway.Rounds

structure Settings where
  scope : Scope
  startId : String
  podId : String
  maxCaptures : Nat
  idleSeconds : Nat
  /-- Whether there is a `selection`. -/
  selection : Bool
  roundInputs : Option RoundInputs
  roundEnd : Option Rat
  bounds : 1800 ≤ idleSeconds ∧ 1 ≤ maxCaptures ∧ maxCaptures ≤ 32
  ownRound : ∀ inputs ∈ roundInputs, inputs.round = scope.round
  fingerprint : RoundInputs → String
  digests : Digests
  exchangeSeconds : Nat

inductive Work | capture | recover
deriving DecidableEq

inductive Progress
  | queued
  | running
  /-- The result is set, and `_done` has not been called. -/
  | finished
  | done
deriving DecidableEq

structure Future where
  exchangeId : Uuid
  work : Work
  /-- `submit` has returned, so `_done` is called at the end. -/
  watched : Bool
  progress : Progress
deriving DecidableEq

structure PodRuntime where
  accepting : Bool := false
  draining : Bool := false
  /-- The future of an exchange, by its number. -/
  active : Dict Uuid (Option Nat) := .empty
  rendering : Nat := 0
  lastUsed : Rat
  roundPolicy : Option RoundPolicy := none
  policyUntil : Rat := 0
  /-- All that have been submitted to the executor. -/
  futures : List Future := []

structure System where
  runtime : PodRuntime
  /-- The call records, by the id of the call. -/
  records : Dict String CallRecord := .empty
  seed : Nat := 0
  /-- What `locate` has returned. -/
  located : List (RequestKey × Call) := []

/-- A read of the selection record, which may fail. -/
abbrev Reading := Option (Option SelectionRecord)

inductive Raised
  | rejected (error : AuthRejected)
  | failed

/-- How the write of a claim is answered. -/
inductive ClaimAnswer
  | saved
  /-- `WriteUncertain` -/
  | uncertain (landed : Bool)
  | failed

/-- What `start_capture` meets: the selection record and the clocks, whether the file of the pending
claim is saved, the answer to the claim, and whether the executor takes the work. -/
structure Attempt where
  reading : Reading
  clock : Rat
  time : Rat
  saves : Bool
  answer : ClaimAnswer
  submits : Bool

inductive Event
  | activate
  | policy (value : Option RoundPolicy) (podId startId : String) (clock time : Rat)
  | drain
  | tick (clock : Rat)
  /-- `run` returns or raises. -/
  | stop
  | startCapture (located : Nat) (attempt : Attempt)
  | begin (future : Nat)
  | finish (future : Nat)
  | done (future : Nat) (clock : Rat)
  /-- A render or a save. -/
  | admitArtifact (reading : Reading) (clock time : Rat)
  | artifactDone (clock : Rat)
  | locate (callId : String) (exchangeId : Uuid)
  | change (request : RequestKey) (op : Op)

inductive Answer
  | done
  | ticked (drained : Bool)
  | started (result : Except Raised Bool)
  | admitted (result : Except Raised Unit)

variable (settings : Settings)

namespace PodRuntime

def drain (s : PodRuntime) : PodRuntime := { s with accepting := false, draining := true }

def tick (s : PodRuntime) (clock : Rat) : PodRuntime × Bool :=
  let s := if s.active.size = 0 ∧ s.rendering = 0 ∧ settings.idleSeconds ≤ clock - s.lastUsed then s.drain
    else s
  (s, s.draining && s.active.size = 0 && s.rendering = 0)

def selected (s : PodRuntime) (reading : Reading) : Except Raised Bool :=
  if s.accepting = true ∧ s.draining = false then
    if settings.selection then
      match reading with
      | none => .error .failed
      | some record => .ok (Selection.selected record settings.startId settings.podId)
    else .ok true
  else .ok false

def requireGeneration (s : PodRuntime) (clock time : Rat) : Except Raised Unit := do
  if let some inputs := settings.roundInputs then
    match s.roundPolicy with
    | none => throw (.rejected ⟨"round_policy_stale", 503⟩)
    | some policy =>
        if s.policyUntil ≤ clock then throw (.rejected ⟨"round_policy_stale", 503⟩)
        match policy.require inputs (settings.fingerprint inputs) time true with
        | .error error => throw (.rejected error)
        | .ok () => pure ()
  if settings.roundEnd.any fun roundEnd => roundEnd ≤ time then
    throw (.rejected ⟨"round_closed", 403⟩)

def installPolicy (s : PodRuntime) (value : Option RoundPolicy) (podId startId : String)
    (clock time : Rat) : PodRuntime :=
  let s := { s with roundPolicy := none, policyUntil := 0 }
  if podId ≠ settings.podId ∨ startId ≠ settings.startId then s
  else
    match value with
    | none => s
    | some policy =>
        { s with
          roundPolicy := some policy
          policyUntil := clock + max 0 (min 120 (policy.expiresAt - time)) }

/-- The executor gets the work of an exchange, which is active from then on. Where `submit` raises,
the work is queued all the same, and the exchange stays active without a future. -/
def submit (s : PodRuntime) (exchangeId : Uuid) (work : Work) (submits : Bool) : PodRuntime :=
  { s with
    active := s.active.set exchangeId (if submits then some s.futures.length else none)
    futures := s.futures ++ [⟨exchangeId, work, submits, .queued⟩] }

def setProgress (s : PodRuntime) (i : Nat) (f : Future) (progress : Progress) : PodRuntime :=
  { s with futures := s.futures.set i { f with progress } }

/-- The threads of the executor that are at work. -/
def busy (s : PodRuntime) : Nat :=
  s.futures.countP fun f => f.progress = .running ∨ f.progress = .finished

/-- `_done` -/
def whenDone (s : PodRuntime) (i : Nat) (f : Future) (clock : Rat) : PodRuntime :=
  { s.setProgress i f .done with active := s.active.erase f.exchangeId, lastUsed := clock }

/-- The admission of a render or of a save. -/
def admitArtifact (s : PodRuntime) (reading : Reading) (clock time : Rat) : Except Raised PodRuntime := do
  let chosen ← s.selected settings reading
  if chosen = false then throw (.rejected ⟨"pod_not_selected", 409⟩)
  s.requireGeneration settings clock time
  if settings.roundEnd.any fun roundEnd => roundEnd ≤ time then
    throw (.rejected ⟨"round_closed", 403⟩)
  pure { s with rendering := s.rendering + 1 }

def artifactDone (s : PodRuntime) (clock : Rat) : PodRuntime :=
  { s with rendering := s.rendering - 1, lastUsed := clock }

/-- The directories that the spool still has are recovered. -/
def start (spool : List Uuid) (clock : Rat) : PodRuntime :=
  spool.foldl (fun s exchangeId => s.submit exchangeId .recover true) { lastUsed := clock }

end PodRuntime

namespace System

/-- One change of a call record, with the operation's reply. -/
def change (s : System) (request : RequestKey) (op : Op) :
    Except RecordingConflict (CallRecord × Reply) :=
  Witness.change settings.digests settings.exchangeSeconds settings.scope request op s.seed
    (s.records.get (settings.digests.callId request))

def setRecord (s : System) (request : RequestKey) (record : CallRecord) : System :=
  { s with records := s.records.set (settings.digests.callId request) record, seed := s.seed + 1 }

/-- `records.claim`, by `start_capture`: whether the work is a recovery, or `none` where the call
cannot be claimed. -/
def claim (s : System) (request : RequestKey) (captureId : Uuid) (answer : ClaimAnswer) :
    System × Except Raised (Option Work) :=
  match s.change settings request (.claim settings.podId captureId) with
  | .error _ => (s, .error .failed)
  | .ok (record, reply) =>
      match answer with
      | .failed => (s, .error .failed)
      | .uncertain landed =>
          (if landed then s.setRecord settings request record else s, .ok (some .recover))
      | .saved =>
          (s.setRecord settings request record,
            .ok (if reply = .claimed true then some .capture else none))

def startCapture (s : System) (request : RequestKey) (call : Call) (attempt : Attempt) :
    System × Except Raised Bool :=
  if s.runtime.active.contains call.exchangeId then (s, .ok false)
  else
    match s.runtime.selected settings attempt.reading with
    | .error error => (s, .error error)
    | .ok chosen =>
        if chosen = false ∨ s.runtime.draining = true ∨
            settings.maxCaptures ≤ s.runtime.active.size then (s, .ok false)
        else
          match s.runtime.requireGeneration settings attempt.clock attempt.time with
          | .error _ => (s, .ok false)
          | .ok () =>
              match call.captureId with
              | none => (s, .ok false)
              | some captureId =>
                  if call.podId ≠ some settings.podId ∨ call.startId ≠ some settings.startId then
                    (s, .ok false)
                  else if attempt.saves = false then (s, .error .failed)
                  else
                    match s.claim settings request captureId attempt.answer with
                    | (s, .error error) => (s, .error error)
                    | (s, .ok none) => (s, .ok false)
                    | (s, .ok (some work)) =>
                        let runtime := { s.runtime with lastUsed := attempt.clock }
                        ({ s with runtime := runtime.submit call.exchangeId work attempt.submits },
                          if attempt.submits then .ok (decide (work = .capture)) else .error .failed)

/-- One event, with what it answers. -/
def perform (s : System) : Event → Option (System × Answer)
  | .activate => some ({ s with runtime.accepting := !s.runtime.draining }, .done)
  | .policy value podId startId clock time =>
      some ({ s with runtime := s.runtime.installPolicy settings value podId startId clock time }, .done)
  | .drain => some ({ s with runtime := s.runtime.drain }, .done)
  | .tick clock =>
      let (runtime, drained) := s.runtime.tick settings clock
      some ({ s with runtime }, .ticked drained)
  | .stop => some ({ s with runtime := s.runtime.drain }, .done)
  | .startCapture i attempt =>
      match s.located[i]? with
      | none => none
      | some (request, call) =>
          let (s, result) := s.startCapture settings request call attempt
          some (s, .started result)
  | .begin i =>
      match s.runtime.futures[i]? with
      | some f =>
          if f.progress = .queued ∧ s.runtime.busy < settings.maxCaptures ∧
              (s.runtime.futures.take i).all (fun g => g.progress ≠ .queued) then
            some ({ s with runtime := s.runtime.setProgress i f .running }, .done)
          else none
      | none => none
  | .finish i =>
      match s.runtime.futures[i]? with
      | some f =>
          if f.progress = .running then
            some ({ s with runtime := s.runtime.setProgress i f .finished }, .done)
          else none
      | none => none
  | .done i clock =>
      match s.runtime.futures[i]? with
      | some f =>
          if f.progress = .finished ∧ f.watched = true then
            some ({ s with runtime := s.runtime.whenDone i f clock }, .done)
          else none
      | none => none
  | .admitArtifact reading clock time =>
      match s.runtime.admitArtifact settings reading clock time with
      | .error error => some (s, .admitted (.error error))
      | .ok runtime => some ({ s with runtime }, .admitted (.ok ()))
  | .artifactDone clock =>
      if s.runtime.rendering = 0 then none
      else some ({ s with runtime := s.runtime.artifactDone clock }, .done)
  | .locate callId exchangeId =>
      match s.records.get callId with
      | none => none
      | some record =>
          if record.call.exchangeId = exchangeId then
            some ({ s with located := s.located ++ [(record.call.request, record.call)] }, .done)
          else none
  | .change request op =>
      match s.change settings request op with
      | .error _ => none
      | .ok (record, _) => some (s.setRecord settings request record, .done)

def step (s : System) (event : Event) : Option System := (s.perform settings event).map Prod.fst

/-- A Pod that starts, when no call record has been written. -/
def start (spool : List Uuid) (clock : Rat) : System where
  runtime := .start spool clock

end System

/-- A capture, a render or a save is admitted. -/
def Answer.Admits : Answer → Prop
  | .done | .ticked _ => False
  | .started result => ∃ begun, result = .ok begun ∧ begun = true
  | .admitted result => ∃ admitted, result = .ok admitted

end GenSubnet.Witness.PodService
