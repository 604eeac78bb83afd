import GenSubnet.Library.Dict
import GenSubnet.Library.Transition
import Mathlib.Logic.Function.Basic

/-!
# The pool of validation workers

`ValidationPool` of `render-service-js/src/validation-pool.js`. An event of the loop, a timer or a call
runs to its end at once; what `await` goes on with is an event of its own, and runs before the next
event of a worker or a timer.
-/

namespace GenSubnet.Render
open Library

/-! ## Results -/

structure ValidationFailure where
  stage : String
  rule : String
  detail : String
deriving DecidableEq

structure ValidationResult where
  passed : Bool
  failures : List ValidationFailure
  /-- As JSON. -/
  metrics : Option String
deriving DecidableEq

def heapExceeded : ValidationResult :=
  ⟨false, [⟨"execution", "HEAP_EXCEEDED", "worker killed (exceeded 256 MB heap)"⟩], none⟩

def timeoutExceeded (timeoutMs : Nat) : ValidationResult :=
  ⟨false, [⟨"execution", "TIMEOUT_EXCEEDED", "exceeded " ++ toString timeoutMs ++ "ms"⟩], none⟩

/-- What a call of `validate` settles with; a rejection is a `ValidationUnavailableError`. -/
inductive Settlement
  | resolved (result : ValidationResult)
  | rejected (message : String)
deriving DecidableEq

def Settlement.result : Settlement → Option ValidationResult
  | .resolved result => some result
  | .rejected _ => none

/-! ## Workers -/

/-- The promise of `_createWorker`. -/
inductive Boot
  | starting
  | ready
  | rejected
deriving DecidableEq

structure Message where
  requestId : Nat
  source : String
deriving DecidableEq

structure Worker where
  boot : Boot := .starting
  /-- `_failed` -/
  failed : Bool := false
  /-- `_pending`: the calls by their request ids. -/
  pending : Dict Nat Nat := .empty
  /-- The messages that the thread has not answered. -/
  inbox : List Message := []
  /-- The sources that left jobs which the thread still has to run. -/
  jobs : List String := []

/-- A live worker has this message to answer, and nothing else to run. -/
def Worker.ExecutesOnly (worker : Worker) (message : Message) : Prop :=
  worker.failed = false ∧ worker.inbox = [message] ∧ worker.jobs = []

instance (worker : Worker) (message : Message) : Decidable (worker.ExecutesOnly message) :=
  inferInstanceAs (Decidable (_ ∧ _ ∧ _))

/-! ## The pool -/

structure PoolSettings where
  poolSize : Nat := 2
  timeoutMs : Nat := 5000

structure Pool where
  workers : List Nat := []
  available : List Nat := []
  waiting : List Nat := []
  nextRequestId : Nat := 0
  shuttingDown : Bool := false
  replacing : Nat := 0
  /-- The workers that were created, by their numbers. -/
  table : Nat → Worker := fun _ => {}
  created : Nat := 0
  /-- The sources of the calls of `validate`. -/
  sources : List String := []
  /-- The calls that `_acquire` gave a worker and that have not gone on. -/
  handed : List (Nat × Nat) := []
  /-- The calls of `init` that wait for their workers. -/
  inits : List (List Nat) := []
  /-- The calls of `_replaceWorker` that wait for a fresh worker, or for the end of one. -/
  replacements : List Nat := []
  terminating : Nat := 0
  /-- The calls of `shutdown` that wait for the workers to end. -/
  shutdowns : Nat := 0
  settled : List (Nat × Settlement) := []

namespace Pool

variable (settings : PoolSettings) (p : Pool)

def change (w : Nat) (f : Worker → Worker) : Pool :=
  { p with table := Function.update p.table w (f (p.table w)) }

def settleWith (call : Nat) (settlement : Settlement) : Pool :=
  { p with settled := p.settled ++ [(call, settlement)] }

/-- The first waiting call gets the worker, or it becomes available. -/
def offer (w : Nat) : Pool :=
  match p.waiting with
  | call :: rest => { p with waiting := rest, handed := p.handed ++ [(call, w)] }
  | [] => { p with available := p.available ++ [w] }

/-- `_release` -/
def release (w : Nat) : Pool :=
  if (p.table w).failed = true ∨ w ∉ p.workers then p else p.offer w

/-- `_settle` -/
def settle (w requestId : Nat) (outcome : Settlement) (releases : Bool) : Pool :=
  match (p.table w).pending.get requestId with
  | none => p
  | some call =>
      let p := p.change w fun worker => { worker with pending := worker.pending.erase requestId }
      match outcome with
      | .rejected _ => p.settleWith call outcome
      | .resolved _ => (if releases then p.release w else p).settleWith call outcome

/-- `_retireWorker` -/
def retireWorker (w : Nat) (outcome : Settlement) : Pool :=
  let p := p.change w fun worker => { worker with failed := true }
  let p := { p with available := p.available.filter (· ≠ w) }
  (p.table w).pending.keys.foldl (fun p requestId => p.settle w requestId outcome true) p

/-- Some worker has not failed. -/
def hasWorker : Bool := p.workers.any fun w => (p.table w).failed = false

def rejectWaiting (message : String) : Pool :=
  { p with waiting := [], settled := p.settled ++ p.waiting.map fun call => (call, .rejected message) }

/-- `_createWorker`, as far as it runs at once. -/
def createWorkers (count : Nat) : Pool × List Nat :=
  ({ p with created := p.created + count }, List.range' p.created count)

/-- `init` until it waits. -/
def init : Pool :=
  let (p, fresh) := { p with shuttingDown := false }.createWorkers settings.poolSize
  { p with inits := p.inits ++ [fresh] }

/-- `Promise.all` has settled. -/
def Started (fresh : List Nat) : Prop :=
  (∃ w ∈ fresh, (p.table w).boot = .rejected) ∨ ∀ w ∈ fresh, (p.table w).boot = .ready

instance (fresh : List Nat) : Decidable (p.Started fresh) :=
  inferInstanceAs (Decidable ((∃ w ∈ fresh, _) ∨ ∀ w ∈ fresh, _))

/-- `init` goes on; it throws when a worker did not start. -/
def initEnds (k : Nat) : Option Pool :=
  match p.inits[k]? with
  | none => none
  | some fresh =>
      let p' := { p with inits := p.inits.eraseIdx k }
      if ∃ w ∈ fresh, (p.table w).boot = .rejected then some p'
      else if ∀ w ∈ fresh, (p.table w).boot = .ready then
        some { p' with workers := p'.workers ++ fresh, available := p'.available ++ fresh }
      else none

/-- `_replaceWorker` until it waits. -/
def replaceWorker (dead : Nat) : Pool :=
  if dead ∈ p.workers then
    let (p, fresh) :=
      { p with workers := p.workers.erase dead, replacing := p.replacing + 1 }.createWorkers 1
    { p with replacements := p.replacements ++ fresh }
  else p

/-- The end of `_replaceWorker`. -/
def replaced : Pool :=
  let p := { p with replacing := p.replacing - 1 }
  if p.replacing = 0 ∧ p.hasWorker = false then p.rejectWaiting "no validation workers available" else p

/-- `_replaceWorker` goes on with its fresh worker. -/
def replaceEnds (w : Nat) : Option Pool :=
  if w ∈ p.replacements then
    let p := { p with replacements := p.replacements.erase w }
    match (p.table w).boot with
    | .starting => none
    | .rejected => some p.replaced
    | .ready =>
        if p.shuttingDown then some { p with terminating := p.terminating + 1 }
        else some ({ p with workers := p.workers ++ [w] }.offer w).replaced
  else none

/-- `validate` and `_acquire`. -/
def validate (source : String) : Pool :=
  let call := p.sources.length
  let p := { p with sources := p.sources ++ [source] }
  if p.shuttingDown ∨ (p.hasWorker = false ∧ p.replacing = 0) then
    p.settleWith call (.rejected "no validation workers available")
  else
    match p.available with
    | w :: rest => { p with available := rest, handed := p.handed ++ [(call, w)] }
    | [] => { p with waiting := p.waiting ++ [call] }

/-- `validate` goes on with its worker. -/
def dispatch (call w : Nat) (throws : Bool) : Option Pool :=
  if (call, w) ∈ p.handed then
    let requestId := p.nextRequestId
    let p := { p with handed := p.handed.erase (call, w), nextRequestId := requestId + 1 }
    let p := p.change w fun worker => { worker with pending := worker.pending.set requestId call }
    if throws then some (p.retireWorker w (.rejected "could not dispatch validation"))
    else some (p.change w fun worker =>
      { worker with inbox := worker.inbox ++ [⟨requestId, p.sources.getD call ""⟩] })
  else none

/-- `shutdown` until it waits. Terminating a worker shows in its events. -/
def shutdown : Pool :=
  let p := { p with shuttingDown := true, shutdowns := p.shutdowns + 1 }
  p.rejectWaiting "validation pool is shutting down"

def shutdownEnds : Option Pool :=
  if p.shutdowns = 0 then none
  else some { p with shutdowns := p.shutdowns - 1, workers := [], available := [], waiting := [] }

/-! ## Events -/

/-- Nothing is left to run before the loop goes on. -/
def Quiet : Prop :=
  p.handed = [] ∧ (∀ fresh ∈ p.inits, ¬p.Started fresh) ∧
    ∀ w ∈ p.replacements, (p.table w).boot = .starting

instance : Decidable p.Quiet :=
  inferInstanceAs (Decidable (_ ∧ (∀ fresh ∈ p.inits, _) ∧ ∀ w ∈ p.replacements, _))

/-- The message `ready`. -/
def onReady (w : Nat) : Pool :=
  if (p.table w).boot = .starting then p.change w fun worker => { worker with boot := .ready } else p

/-- The thread has answered its first message, and leaves jobs. -/
def onResult (w : Nat) (result : ValidationResult) (leaves : Bool) : Option Pool :=
  match (p.table w).inbox with
  | [] => none
  | message :: rest =>
      let jobs := if leaves then (p.table w).jobs ++ [message.source] else (p.table w).jobs
      some ((p.change w fun worker => { worker with inbox := rest, jobs }).settle w
        message.requestId (.resolved result) true)

def onError (w : Nat) (outOfMemory : Bool) : Pool :=
  if (p.table w).boot = .starting then p.change w fun worker => { worker with boot := .rejected }
  else
    p.retireWorker w
      (if outOfMemory then .resolved heapExceeded else .rejected "validation worker failed")

def onExit (w : Nat) : Pool :=
  if (p.table w).boot = .starting then p.change w fun worker => { worker with boot := .rejected }
  else
    let p := p.retireWorker w (.rejected "validation worker exited unexpectedly")
    if p.shuttingDown then p else p.replaceWorker w

/-- The timer of a request, which settling clears. -/
def onTimer (w requestId : Nat) : Option Pool :=
  if (p.table w).pending.contains requestId then
    some (p.settle w requestId (.resolved (timeoutExceeded settings.timeoutMs)) false)
  else none

end Pool

inductive PoolEvent
  | init
  | initEnds (k : Nat)
  | validate (source : String)
  | dispatch (call w : Nat) (throws : Bool)
  | replaceEnds (w : Nat)
  | terminated
  | shutdown
  | shutdownEnds
  | ready (w : Nat)
  | result (w : Nat) (result : ValidationResult) (leaves : Bool)
  | error (w : Nat) (outOfMemory : Bool)
  | exit (w : Nat)
  | timer (w requestId : Nat)
  /-- The thread has run the jobs that it had. -/
  | jobsEnd (w : Nat)
deriving DecidableEq

/-- Events of the workers that were created, and timers. -/
def Pool.loop (settings : PoolSettings) (p : Pool) : PoolEvent → Option Pool
  | .ready w => if w < p.created then some (p.onReady w) else none
  | .result w result leaves => if w < p.created then p.onResult w result leaves else none
  | .error w outOfMemory => if w < p.created then some (p.onError w outOfMemory) else none
  | .exit w => if w < p.created then some (p.onExit w) else none
  | .timer w requestId => p.onTimer settings w requestId
  | _ => none

def Pool.step (settings : PoolSettings) (p : Pool) : PoolEvent → Option Pool
  | .init => some (p.init settings)
  | .initEnds k => p.initEnds k
  | .validate source => some (p.validate source)
  | .dispatch call w throws => p.dispatch call w throws
  | .replaceEnds w => p.replaceEnds w
  | .terminated =>
      if p.terminating = 0 then none
      else some { p with terminating := p.terminating - 1 }.replaced
  | .shutdown => some p.shutdown
  | .shutdownEnds => p.shutdownEnds
  | .jobsEnd w =>
      if w < p.created then some (p.change w fun worker => { worker with jobs := [] }) else none
  | event => if p.Quiet then p.loop settings event else none

end GenSubnet.Render
