import GenSubnet.Gateway.Allocator
import GenSubnet.Gateway.Consistency

/-!
# The worker of the gateway

One thread of `server.py` runs the allocator: it takes the next entry of the queue, advances it and
keeps the result. Requests, the refresh of the rounds and the journal run beside it, and the process
may die and start again. The gateway is the one of `main.py`, which has rounds.
-/

namespace GenSubnet.Gateway
open Library Library.Effects

/-! ## What the worker runs -/

/-- Hand a submitted entry back that was not dispatched; whether it is still submitted. -/
def handBack (scope : Scope) (entry : PendingStart) (operation : Option Operation) : Process Bool :=
  if entry.submitted && operation.any fun o => !o.submitted && o.session.startId = entry.startId then do
    ask (.releaseAuthorization scope entry.startId)
    return false
  else return entry.submitted

/-- `_advance` -/
def advance (a : Allocator) (scope : Scope) (entry : PendingStart) : Process (Option Session) := do
  requireFence
  ask (.member scope.hotkey)
  let operations ← ask .operations
  let operation := Dict.get operations scope
  let submitted ← handBack scope entry operation
  if submitted then
    if operation.all fun o => !o.submitted then do
      let inventory ← ask (.list false)
      let original : Session :=
        { startId := entry.startId, replaces := entry.replaces, phase := .creating
          specHash := a.spec.fingerprint, image := a.spec.image }
      if (inventory.any fun p => Pod.Matches p scope original) = false then return none
      else reconcile a scope
    else reconcile a scope
  else do
    ask (.requireRound scope)
    if operation.any fun o => o.session.startId = entry.startId then reconcile a scope
    else some <$> acquire a scope entry.startId entry.replaces

/-- The part of `_step` that advances one entry and keeps its result. -/
def step (a : Allocator) : Process Unit := do
  match ← ask .pick with
  | none => pure ()
  | some (scope, entry) => do
      match ← advance a scope entry with
      | none => pure ()
      | some result =>
          if result.startId = entry.startId ∧ result.phase ≠ .lost then ask (.record scope result)
          else pure ()

inductive WorkerCall
  | step (spec : PodSpec)
  | reconcile (spec : PodSpec) (round hotkey : String)
  | retire (spec : PodSpec) (scope : Scope) (startId podId : String) (drain : Bool)
  | cancel (scope : Scope) (startId : String)
  | useRound

structure GatewaySettings where
  deployment : String
  maxPods : Nat
  queue : QueueSettings := {}

def GatewaySettings.allocator (settings : GatewaySettings) (spec : PodSpec) : Allocator where
  spec := spec
  maxPods := some settings.maxPods

def WorkerCall.body (settings : GatewaySettings) : WorkerCall → Process Unit
  | .step spec => Gateway.step (settings.allocator spec)
  | .reconcile spec round hotkey => do
      let _ ← Gateway.reconcile (settings.allocator spec) ⟨settings.deployment, round, hotkey⟩
  | .retire spec scope startId podId drain => do
      let _ ← Gateway.retire (settings.allocator spec) scope startId podId drain
  | .cancel scope startId => Gateway.cancel scope startId
  | .useRound => ask .useRound

/-! ## The world -/

/-- The round of a gateway before its first `use_round`; rounds are named after a competition and a
number, and are neither this nor that of the gateways' own Pods. -/
def unconfigured : String := "unconfigured"

def RoundName (round : String) : Prop := round ≠ unconfigured ∧ round ≠ "gateway"

instance (round : String) : Decidable (RoundName round) := inferInstanceAs (Decidable (_ ∧ _))

structure Site where
  /-- The journal with the copy of the process, and what was authorized. -/
  journal : QueueRun := {}
  operations : Dict Scope Operation := .empty
  /-- `_progress`, the results of the scopes. -/
  results : Dict Scope Session := .empty
  now : Rat := 0
  /-- `self.round` -/
  round : String := unconfigured
  /-- `rounds.inputs.round` of this process, and all that it had. -/
  inputs : Option String := none
  seen : List String := []
  /-- The last rollover that returned, and whether one ran since the last `use_round`. -/
  ready : Option String := none
  turning : Bool := true
  /-- The last round of any process, and those that were left. -/
  era : String := unconfigured
  left : List String := []
  /-- Every create that was sent. -/
  created : List (Scope × String) := []
  pods : List Pod := []
  /-- Pods that exist and are not listed yet, with the time of their authorization. -/
  hidden : List (Pod × Rat) := []
  used : List String := []
  authorizedAt : Rat := 0
  /-- What was hidden at the last listing. -/
  unlisted : List (Pod × Rat) := []

inductive SiteMove
  | load
  | enqueue (hotkey startId : String) (replaces : Option String) (saving : Saving)
  | complete (scope : Scope) (saving : Saving)
  | cancel (scope : Scope) (startId : String) (saving : Saving)
  | rollover (round : String) (saving : Saving)
  | refresh (round : String)
  | tick (time : Rat)
  | appears (podId : String)
  | fails (podId : String)
  | changes (podId status : String)
  | disappears (podId : String)
deriving DecidableEq

inductive SiteChoice
  | raises (applied : Bool) (error : GatewayError)
  | replies (applied : Bool)
  | lists (pods : List Pod)
  | finds (pod : Option Pod)
  /-- The Pod that comes into being, if any, and the reply. -/
  | creates (born : Option Pod) (reply : Except GatewayError Pod)
  | affirms (answer : Bool)
  | saves (saving : Saving)
  | picks (hotkey : String)

variable (settings : GatewaySettings)

/-- One operation of the queue, with its answer. -/
def Site.perform (w : Site) (op : QueueOp) (saving : Saving) : Site × Except QueueError Unit :=
  let event : QueueEvent := ⟨op, w.now, saving⟩
  let performed := w.journal.queue.perform settings.queue event
  ({ w with journal :=
      ⟨performed.1, w.journal.remaining settings.queue event ++ event.granted performed.2⟩ },
    performed.2)

def Site.changePod (w : Site) (podId : String) (f : Pod → Pod) : Site :=
  { w with
    pods := w.pods.map fun p => if p.id = podId then f p else p
    hidden := w.hidden.map fun item => if item.1.id = podId then (f item.1, item.2) else item }

def Site.removePod (w : Site) (podId : String) : Site :=
  { w with
    pods := w.pods.filter fun p => p.id ≠ podId
    hidden := w.hidden.filter fun item => item.1.id ≠ podId }

/-- The result ends the entry of its connection. -/
def Session.finished (session : Session) : Bool :=
  session.phase = .allocated || session.phase = .rejected || session.phase = .retired

/-- The jobs of the journal run in the order in which they were asked for. So an entry of a round is
stored while the gateway has that round and before a rollover to the next; and a rollover runs while
the gateway does not have the round of the inputs. -/
def Site.move (w : Site) : SiteMove → Option Site
  | .load => some (w.perform settings .load .saved).1
  | .enqueue hotkey startId replaces saving =>
      if w.turning = false then
        some (w.perform settings
          (.enqueue ⟨settings.deployment, w.round, hotkey⟩ startId replaces) saving).1
      else none
  | .complete scope saving =>
      match w.results.get scope with
      | none => none
      | some result =>
          if result.finished then
            let w' := (w.perform settings
              (.complete scope result.startId (result.phase = .rejected)) saving).1
            some (if saving = .saved then { w' with results := w'.results.erase scope } else w')
          else none
  | .cancel scope startId saving => some (w.perform settings (.cancel scope startId) saving).1
  | .rollover round saving =>
      if round ∈ w.seen ∧ w.inputs ≠ some w.round then
        let (w', answer) := w.perform settings (.rollover round) saving
        some { w' with
          turning := true
          ready := match answer with
            | .ok _ => some round
            | .error _ => w.ready }
      else none
  | .refresh round =>
      if RoundName round ∧ round ∉ w.left then
        some { w with
          inputs := some round
          seen := round :: w.seen
          era := round
          left := if round = w.era then w.left else w.era :: w.left }
      else none
  | .tick time => some { w with now := time }
  | .appears podId =>
      match w.hidden.find? fun item => item.1.id = podId with
      | none => none
      | some item =>
          some { w with
            pods := w.pods ++ [item.1]
            hidden := w.hidden.filter fun other => other.1.id ≠ podId }
  | .fails podId => some { w with hidden := w.hidden.filter fun item => item.1.id ≠ podId }
  | .changes podId status => some (w.changePod podId fun p => { p with status })
  | .disappears podId => some { w with pods := w.pods.filter fun p => p.id ≠ podId }

def Site.apply (w : Site) (applied : Bool) (effect : Site → Site) : Site :=
  if applied then effect w else w

/-- The process answers from what it has in memory; the rest is up to others. -/
def Site.answer (w : Site) :
    (q : Request) → SiteChoice → Option (Except GatewayError q.Reply × Site)
  | .list _, .lists pods => some (.ok pods, { w with unlisted := w.hidden })
  | .get _, .finds pod => some (.ok pod, w)
  | .rename podId lifecycle, .replies applied =>
      some (.ok (), w.apply applied fun w => w.changePod podId fun p =>
        { p with lifecycle, legacyName := false })
  | .rename podId lifecycle, .raises applied e =>
      some (.error e, w.apply applied fun w => w.changePod podId fun p =>
        { p with lifecycle, legacyName := false })
  | .delete podId, .replies applied => some (.ok (), w.apply applied fun w => w.removePod podId)
  | .delete podId, .raises applied e => some (.error e, w.apply applied fun w => w.removePod podId)
  | .create body, .creates born reply =>
      some (reply, { w with
        created := (body.scope, body.startId) :: w.created
        hidden := born.toList.map (fun p => (p, w.authorizedAt)) ++ w.hidden
        used := born.toList.map Pod.id ++ w.used })
  | .drain _, .affirms answer | .revoked _, .affirms answer | .fence, .affirms answer => some (.ok answer, w)
  | .clock, .replies _ => some (.ok w.now, w)
  | .operations, .replies _ => some (.ok w.operations, w)
  | .remember scope operation, .replies _ =>
      some (.ok (), { w with operations := w.operations.set scope operation })
  | .forget scope, .replies _ => some (.ok (), { w with operations := w.operations.erase scope })
  | .pendingCreates, .replies _ =>
      some (.ok (w.journal.queue.memory.unresolved settings.deployment w.now), w)
  | .round, .replies _ => some (.ok w.round, w)
  | .requireRound scope, .replies _ =>
      if w.inputs = some scope.round then some (.ok (), w) else none
  | .authorize scope startId, .saves saving =>
      let (w', answer) := w.perform settings (.authorize scope startId) saving
      some (answer.mapError .queue, { w' with authorizedAt := w.now })
  | .releaseAuthorization scope startId, .saves saving =>
      let (w', answer) := w.perform settings (.releaseAuthorization scope startId) saving
      some (answer.mapError .queue, w')
  | .pick, .picks hotkey =>
      match w.journal.queue.memory.pending.get hotkey with
      | none => some (.ok none, w)
      | some entry =>
          if entry.round = w.round ∧ w.inputs = some w.round then
            some (.ok (some (⟨settings.deployment, w.round, hotkey⟩, entry)), w)
          else some (.ok none, w)
  | .record scope result, .replies _ =>
      some (.ok (), { w with results := w.results.set scope result, unlisted := [] })
  | .useRound, .replies _ =>
      match w.inputs with
      | none => none
      | some round =>
          if w.ready = some round then some (.ok (), { w with round, turning := false }) else none
  | .select _ _, .replies _ | .member _, .replies _ => some (.ok (), w)
  | .list _, .raises _ e => some (.error e, w)
  | .get _, .raises _ e => some (.error e, w)
  | .drain _, .raises _ e => some (.error e, w)
  | .revoked _, .raises _ e => some (.error e, w)
  | .select _ _, .raises _ e => some (.error e, w)
  | .fence, .raises _ e => some (.error e, w)
  | .member _, .raises _ e => some (.error e, w)
  | .requireRound _, .raises _ e => some (.error e, w)
  | .authorize _ _, .raises _ e => some (.error e, w)
  | .releaseAuthorization _ _, .raises _ e => some (.error e, w)
  | _, _ => none

/-- What is left of a process, and what the next one starts with: the journal is loaded. -/
def Site.restart (w : Site) : Site :=
  { (w.perform settings .load .saved).1 with
    operations := .empty
    results := .empty
    round := unconfigured
    inputs := none
    seen := []
    ready := none
    turning := true
    unlisted := [] }

def gatewaySystem : System Site Request Request.Reply GatewayError Unit SiteMove SiteChoice
    WorkerCall where
  move := Site.move settings
  answer := Site.answer settings
  body := WorkerCall.body settings
  restart := Site.restart settings

abbrev GatewayState := State Site Request Request.Reply GatewayError Unit

abbrev GatewayEvent := Event SiteMove SiteChoice WorkerCall

end GenSubnet.Gateway
