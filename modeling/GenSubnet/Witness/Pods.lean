import GenSubnet.Library.Cell
import GenSubnet.Library.Transition
import GenSubnet.Witness.Budget

/-!
# Pods at work on one call

The steps of `witness_pod/pod.py`, `direct.py` and `recovery.py` that touch the two journals of a
call: its record and its dispatch ledger. A capture claims the call, reserves its dispatch,
authorizes it, and finishes; a request to any Pod starts the call or finishes a capture that was
interrupted. Each load and write of a journal is one step, and the steps of all of them interleave.
-/

namespace GenSubnet.Witness
open Library

/-- What all Pods know about the call. -/
structure CallContext where
  digests : Digests
  exchangeSeconds : Nat
  scope : Scope
  request : RequestKey
  rates : Rates
  pricingSha256 : String
  /-- The text of an exchange id, as a key of the ledger. -/
  exchangeText : Uuid → String

/-- The key of the charge that `reserve` makes. -/
def CallContext.base (x : CallContext) : String := x.digests.callId x.request

/-- A write of one of the journals with which a Pod ends a capture. -/
inductive Write
  | discard (exchange : Uuid)
  | settle (exchange : Uuid) (usage : Option Usage)
  | issued (podId : String) (manifest : List UInt8) (exchange : Uuid)
  | failed (podId failure : String) (exchange : Uuid) (notDispatched : Bool)
      (manifest : Option (List UInt8))

/-- What a request has still to write. -/
inductive Task
  | write (write : Write)
  | assign (startId podId : String) (expected : Option Uuid)
  | index (exchange : Uuid)

/-- How a capture ended: without a verified response, or with one, which may still be rejected. -/
inductive Outcome
  | failed (failure : String)
  | answered (manifest : List UInt8) (usage : Option Usage) (rejected : Option String)

/-- The durable evidence of a capture that `recover_issued` reads. -/
structure Evidence where
  manifest : List UInt8
  usage : Option Usage
  failure : Option String

inductive CapturePhase
  | connected
  | claimed
  | ready
  | reserved
  | authorized
  /-- `_recover`: after a restart of the Pod, or when the answer to the claim was lost. -/
  | recovering
  /-- `_finalize`, before it looks the exchange up. -/
  | finishing (outcome : Outcome) (notDispatched : Bool)
  /-- The writes that are left; when one raises, `_finalize` of the outcome is tried again, or
  `_recover` where there is none. -/
  | writing (retry : Option (Outcome × Bool)) (writes : List Write)
  | done

structure Capture where
  startId : String
  podId : String
  exchange : Uuid
  captureId : Uuid
  /-- The file `pending-claim`, which goes before a provider connection may open. -/
  pendingClaim : Bool := true
  phase : CapturePhase := .connected

def Capture.Running (c : Capture) : Prop :=
  match c.phase with
  | .connected | .done => False
  | .claimed | .ready | .reserved | .authorized | .recovering | .finishing _ _ | .writing _ _ => True

instance (c : Capture) : Decidable c.Running := by
  unfold Capture.Running
  split <;> infer_instance

structure Pods where
  record : Cell CallRecord Unit := {}
  /-- A delayed write of the ledger carries the exchange that it reserves. -/
  ledger : Cell Ledger (Option Uuid) := {}
  /-- The exchanges whose index is written. -/
  indexed : List Uuid := []
  seed : Nat := 0
  captures : List Capture := []
  /-- What the requests under way have still to write. -/
  requests : List (List Task) := []
  /-- The exchange of the charge that refused a reservation, and the exchange that was current. -/
  refusals : List (Option Uuid × Option Uuid) := []

def Pods.current (s : Pods) : Option Uuid := s.record.data.map fun r => r.call.exchangeId

def Pods.setPhase (s : Pods) (i : Nat) (c : Capture) (phase : CapturePhase) : Pods :=
  { s with captures := s.captures.set i { c with phase } }

/-! ## Writes of the journals -/

variable (x : CallContext)

/-- One change of the record. -/
def Pods.change (s : Pods) (op : Op) (answer : Answer) : Except RecordingConflict (Pods × Reply) :=
  match Witness.change x.digests x.exchangeSeconds x.scope x.request op s.seed s.record.data with
  | .error conflict => .error conflict
  | .ok (record, reply) =>
      .ok ({ s with record := s.record.write () record answer, seed := s.seed + 1 }, reply)

def Pods.loadLedger (s : Pods) : Except BudgetRejected Ledger :=
  let ledger := s.ledger.data.getD (newLedger x.pricingSha256 x.scope s.seed)
  if ledger.scopeKey ≠ x.scope.key then .error .identityChanged else .ok ledger

def Pods.saveLedger (s : Pods) (reserves : Option Uuid) (ledger : Ledger) (answer : Answer) : Pods :=
  { s with ledger := s.ledger.write reserves ledger answer, seed := s.seed + 1 }

/-- Perform a write; `none` where it raises without one. -/
def Pods.perform (s : Pods) (answer : Answer) : Write → Option Pods
  | .discard exchange =>
      match s.loadLedger x with
      | .error _ => none
      | .ok ledger =>
          match ledger.discard x.base s.seed exchange with
          | none => some s
          | some ledger => some (s.saveLedger none ledger answer)
  | .settle exchange usage =>
      match s.loadLedger x with
      | .error _ => none
      | .ok ledger =>
          match ledger.settle x.rates x.base x.exchangeText s.seed usage (some exchange) with
          | .error _ => none
          | .ok none => some s
          | .ok (some ledger) => some (s.saveLedger none ledger answer)
  | .issued podId manifest exchange =>
      match s.change x (.issued podId manifest exchange) answer with
      | .ok (s, _) => some s
      | .error _ => none
  | .failed podId failure exchange notDispatched manifest =>
      match s.change x (.failed podId failure exchange notDispatched manifest) answer with
      | .ok (s, _) => some s
      | .error _ => none

/-- Perform a task, and what it entails. -/
def Pods.performTask (s : Pods) (answer : Answer) : Task → Option (Pods × List Task)
  | .write write => (s.perform x answer write).map fun s => (s, [])
  | .assign startId podId expected =>
      match s.change x (.assign startId podId true expected) answer with
      | .ok (s, .call call) => some (s, [.index call.exchangeId])
      | _ => none
  | .index exchange => some ({ s with indexed := s.indexed ++ [exchange] }, [])

/-! ## Requests -/

/-- The writes of `recover_issued`; `none` where it returns the call as it is. -/
def recoverIssued (call : Call) (evidence : Option Evidence) : Option (List Write) :=
  if call.phase = .capturing ∧ call.authorized = true then
    match evidence, call.podId with
    | some evidence, some podId =>
        match evidence.failure with
        | none => some [.settle call.exchangeId evidence.usage,
            .issued podId evidence.manifest call.exchangeId]
        | some failure => some [.discard call.exchangeId,
            .failed podId failure call.exchangeId false (some evidence.manifest)]
    | _, _ => none
  else none

/-- `_snapshot` of a call by a selected Pod; `expired` when the deadline has passed and the Pod has
no such capture. -/
def snapshot (podId : String) (expired : Bool) (evidence : Option Evidence) (call : Call) :
    List Write :=
  match recoverIssued call evidence, call.podId with
  | some writes, _ => writes
  | none, some owner =>
      if call.phase = .capturing ∧
          (owner ≠ podId ∨ call.deadline.isSome = true ∧ expired = true) then
        [.failed owner (if owner ≠ podId then "CaptureInterrupted" else "CaptureExpired")
          call.exchangeId false none, .discard call.exchangeId]
      else []
  | none, none => []

/-- `start` of the call on a Pod. -/
def start (startId podId : String) (expected : Option Uuid) (call : Option Call) : List Task :=
  match call with
  | none => if expected.isSome then [] else [.assign startId podId none]
  | some call =>
      match call.phase with
      | .issued | .capturing => []
      | .failed =>
          if expected.isSome = true ∧ expected ≠ some call.exchangeId then []
          else [.write (.discard call.exchangeId), .assign startId podId (some call.exchangeId)]
      | .reserved | .assigned => [.assign startId podId expected]

/-! ## The end of a capture -/

/-- The writes of `_finalize`, once it has found the call. -/
def finalWrites (podId : String) (notDispatched : Bool) (call : Call) (evidence : Option Evidence) :
    Outcome → List Write
  | .failed failure =>
      match recoverIssued call evidence with
      | some writes => writes
      | none =>
          if call.manifestSha256.isSome then []
          else
            let reason := if call.failure.getD "" = "" then failure else call.failure.getD ""
            (if notDispatched = false ∨ call.authorized = true then [.discard call.exchangeId]
              else []) ++ [.failed podId reason call.exchangeId notDispatched none]
  | .answered manifest usage rejected =>
      if call.phase = .issued ∨ call.phase = .failed then []
      else
        match rejected with
        | some reason =>
            [.discard call.exchangeId, .failed podId reason call.exchangeId false none] ++
              if call.manifestSha256.isSome then []
              else [.failed podId reason call.exchangeId false (some manifest)]
        | none =>
            match recoverIssued call evidence with
            | some writes => writes
            | none =>
                if call.manifestSha256.isSome then []
                else [.settle call.exchangeId usage, .issued podId manifest call.exchangeId]

def writingPhase (retry : Option (Outcome × Bool)) (writes : List Write) : CapturePhase :=
  if writes.isEmpty then .done else .writing retry writes

def retryPhase : Option (Outcome × Bool) → CapturePhase
  | none => .recovering
  | some (outcome, notDispatched) => .finishing outcome notDispatched

/-- The call of the current record when that is the exchange, as `locate` finds it; the outer
`none` where the exchange has no index or no record. -/
def Pods.locate (s : Pods) (exchange : Uuid) : Option (Option Call) :=
  match s.record.data with
  | none => none
  | some record =>
      if exchange ∉ s.indexed then none
      else if record.call.exchangeId = exchange then some (some record.call)
      else some none

/-! ## Steps -/

/-- How the write of a reservation went: the store may also have refused it or been unreadable. -/
inductive ReserveAnswer
  | stored (answer : Answer)
  | notReserved (reason : NotReserved)

inductive PodEvent
  | start (startId podId : String) (expected : Option Uuid)
  | snapshot (podId : String) (expired : Bool) (evidence : Option Evidence)
  | perform (request : Nat) (answer : Answer)
  | connect (startId podId : String) (exchange : Uuid)
  | claim (capture : Nat) (answer : Answer)
  | begin (capture : Nat)
  | reserve (capture : Nat) (body : Body) (answer : ReserveAnswer)
  | authorize (capture now : Nat) (answer : Answer)
  | outcome (capture : Nat) (outcome : Outcome)
  | locate (capture : Nat) (evidence : Option Evidence)
  | finish (capture : Nat) (answer : Answer)
  | interrupt (capture : Nat)
  | restart (capture : Nat)
  | recover (capture : Nat) (evidence : Option Evidence) (outcome : Outcome)
  | recordLands (write : Nat)
  | ledgerLands (write : Nat)

def Pods.claim (s : Pods) (i : Nat) (c : Capture) (answer : Answer) : Option Pods :=
  match s.change x (.claim c.podId c.captureId) answer, answer with
  | .ok (s, .claimed true), .confirmed => some (s.setPhase i c .claimed)
  | .ok (s, .claimed false), .confirmed => some (s.setPhase i c .done)
  | .ok (s, _), .lost => some (s.setPhase i c .recovering)
  | _, _ => none

def Pods.reserve (s : Pods) (i : Nat) (c : Capture) (body : Body) : ReserveAnswer → Pods
  | .notReserved _ => s.setPhase i c (.finishing (.failed "BudgetNotReserved") true)
  | .stored answer =>
      match reserveChecks x.rates x.request body, s.loadLedger x with
      | .error _, _ | _, .error _ => s.setPhase i c (.finishing (.failed "BudgetNotReserved") true)
      | .ok _, .ok ledger =>
          match ledger.reserve x.base s.seed c.exchange body.model with
          | .error _ =>
              let refused := { s with refusals := s.refusals ++
                [((ledger.charges.get x.base).map Charge.exchangeId, s.current)] }
              refused.setPhase i c (.finishing (.failed "BudgetRejected") false)
          | .ok ledger =>
              let saved := s.saveLedger (some c.exchange) ledger answer
              match answer with
              | .confirmed => saved.setPhase i c .reserved
              | .lost => saved.setPhase i c (.finishing (.failed "WriteUncertain") false)

def Pods.authorize (s : Pods) (i : Nat) (c : Capture) (now : Nat) (answer : Answer) : Pods :=
  match s.change x (.authorize c.podId c.exchange now) answer, answer with
  | .error _, _ => s.setPhase i c (.finishing (.failed "RecordingConflict") false)
  | .ok (s, _), .confirmed => s.setPhase i c .authorized
  | .ok (s, _), .lost => s.setPhase i c (.finishing (.failed "WriteUncertain") false)

/-- `_recover` of a capture whose Pod has started again or lost the answer to its claim. -/
def Pods.recover (s : Pods) (i : Nat) (c : Capture) (evidence : Option Evidence)
    (outcome : Outcome) : Option Pods :=
  match s.locate c.exchange with
  | none => none
  | some none => some (s.setPhase i c .done)
  | some (some call) =>
      if call.podId ≠ some c.podId ∨ call.startId ≠ some c.startId then none
      else
        match recoverIssued call evidence with
        | some writes => some (s.setPhase i c (writingPhase none writes))
        | none =>
            let notDispatched := c.pendingClaim && decide (call.captureId = some c.captureId)
            match call.phase with
            | .issued | .failed => some (s.setPhase i c .done)
            | .assigned =>
                if notDispatched then
                  match s.change x (.claim c.podId c.captureId) .confirmed with
                  | .ok (s, .claimed true) =>
                      some (s.setPhase i c (.finishing (.failed "CaptureInterrupted") true))
                  | _ => none
                else some (s.setPhase i c .done)
            | .capturing =>
                let outcome := if call.authorized then outcome else .failed "CaptureInterrupted"
                some (s.setPhase i c (.finishing outcome notDispatched))
            | .reserved => none

def Pods.step (s : Pods) : PodEvent → Option Pods
  | .start startId podId expected =>
      some { s with requests := s.requests ++
        [Witness.start startId podId expected (s.record.data.map CallRecord.call)] }
  | .snapshot podId expired evidence =>
      s.record.data.map fun record => { s with requests := s.requests ++
        [(Witness.snapshot podId expired evidence record.call).map .write] }
  | .perform k answer =>
      match s.requests[k]? with
      | some (task :: rest) =>
          match s.performTask x answer task, answer with
          | some (s, entailed), .confirmed =>
              some { s with requests := s.requests.set k (entailed ++ rest) }
          | some (s, _), .lost => some { s with requests := s.requests.set k [] }
          | none, _ => some { s with requests := s.requests.set k [] }
      | _ => none
  | .connect startId podId exchange =>
      match s.locate exchange with
      | some (some call) =>
          if call.phase = .assigned ∧ call.startId = some startId ∧ call.podId = some podId then
            call.captureId.map fun captureId =>
              { s with captures := s.captures ++ [{ startId, podId, exchange, captureId }] }
          else none
      | _ => none
  | .claim i answer =>
      s.captures[i]?.bind fun c => match c.phase with
        | .connected => s.claim x i c answer
        | _ => none
  | .begin i =>
      s.captures[i]?.bind fun c => match c.phase with
        | .claimed => some (s.setPhase i { c with pendingClaim := false } .ready)
        | _ => none
  | .reserve i body answer =>
      s.captures[i]?.bind fun c => match c.phase with
        | .ready => some (s.reserve x i c body answer)
        | _ => none
  | .authorize i now answer =>
      s.captures[i]?.bind fun c => match c.phase with
        | .reserved => some (s.authorize x i c now answer)
        | _ => none
  | .outcome i outcome =>
      s.captures[i]?.bind fun c => match c.phase with
        | .claimed | .ready => some (s.setPhase i c (.finishing outcome true))
        | .reserved | .authorized => some (s.setPhase i c (.finishing outcome false))
        | _ => none
  | .locate i evidence =>
      s.captures[i]?.bind fun c => match c.phase, s.locate c.exchange with
        | .finishing _ _, some none => some (s.setPhase i c .done)
        | .finishing outcome notDispatched, some (some call) =>
            some (s.setPhase i c (writingPhase (some (outcome, notDispatched))
              (finalWrites c.podId notDispatched call evidence outcome)))
        | _, _ => none
  | .finish i answer =>
      s.captures[i]?.bind fun c => match c.phase with
        | .writing retry (write :: rest) =>
            match s.perform x answer write, answer with
            | some s, .confirmed => some (s.setPhase i c (writingPhase retry rest))
            | some s, .lost => some (s.setPhase i c (retryPhase retry))
            | none, _ => some (s.setPhase i c (retryPhase retry))
        | _ => none
  | .interrupt i =>
      s.captures[i]?.bind fun c => match c.phase with
        | .writing retry _ => some (s.setPhase i c (retryPhase retry))
        | _ => none
  | .restart i =>
      s.captures[i]?.bind fun c => if c.Running then some (s.setPhase i c .recovering) else none
  | .recover i evidence outcome =>
      s.captures[i]?.bind fun c => match c.phase with
        | .recovering => s.recover x i c evidence outcome
        | _ => none
  | .recordLands n => (s.record.land n).map fun record => { s with record }
  | .ledgerLands n => (s.ledger.land n).map fun ledger => { s with ledger }

end GenSubnet.Witness
