import GenSubnet.Library.Journal

/-!
# Call records

`CallRecords` of `witness_pod/records.py`: the durable record of one model call and the seven
operations that Pods run on it, each a change of the record under compare-and-swap.
-/

namespace GenSubnet.Witness
open Library

inductive Provider | api | codex
deriving DecidableEq

structure RequestKey where
  provider : Provider
  requestSha256 : String
  requestId : Int := 0
  sessionId : Option String := none
deriving DecidableEq

structure Scope where
  deployment : String
  round : String
  hotkey : String
deriving DecidableEq

def Scope.key (scope : Scope) : String :=
  s!"pod-gateway/v1/{scope.deployment}/{scope.round}/{scope.hotkey}.json"

/-- The UUID of a name (`uuid5`), or a random one (`uuid4`): the `draw`-th of those that one try of a
change draws. The version digit keeps the two kinds apart. -/
inductive Uuid
  | named (name : String)
  | drawn (seed draw : Nat)
deriving DecidableEq

inductive CallPhase | reserved | assigned | capturing | issued | failed
deriving DecidableEq

structure Call where
  request : RequestKey
  exchangeId : Uuid
  deadline : Option Nat := none
  phase : CallPhase := .reserved
  startId : Option String := none
  podId : Option String := none
  captureId : Option Uuid := none
  authorized : Bool := false
  notDispatched : Bool := false
  manifestSha256 : Option String := none
  failure : Option String := none
deriving DecidableEq

/-- The stored record. Its `attempts` are excluded from what is stored, so a loaded record has
none. -/
structure CallRecord where
  revision : Uuid
  scopeKey : String
  call : Call
deriving DecidableEq

structure RecordingConflict where
  message : String
deriving DecidableEq

/-- The hashes the records use: a call's id and the SHA-256 of a manifest. -/
structure Digests where
  callId : RequestKey → String
  sha256 : List UInt8 → String

inductive Op
  | reserve
  | retry (exchangeId : Uuid)
  | assign (startId podId : String) (allowReassign : Bool) (expected : Option Uuid)
  | claim (podId : String) (captureId : Uuid)
  | authorize (podId : String) (exchangeId : Uuid) (now : Nat)
  | issued (podId : String) (manifest : List UInt8) (exchangeId : Uuid)
  | failed (podId failure : String) (exchangeId : Uuid) (notDispatched : Bool)
      (manifest : Option (List UInt8))
deriving DecidableEq

inductive Reply
  | call (call : Call)
  | claimed (success : Bool)
  | deadline (time : Nat)
  | done
deriving DecidableEq

/-! ## The operations on a call -/

variable (digests : Digests) (exchangeSeconds : Nat)

/-- The call with a new exchange, as `retry` and `assign` write it. -/
def Call.replace (call : Call) (seed : Nat) : Call :=
  { request := call.request, exchangeId := .drawn seed 0 }

def retry (exchangeId : Uuid) (seed : Nat) (call : Call) : Call :=
  if call.exchangeId = exchangeId ∧ call.phase = .failed then call.replace seed else call

def assign (startId podId : String) (allowReassign : Bool) (expected : Option Uuid) (seed : Nat)
    (call : Call) : Call :=
  let call := if some call.exchangeId = expected ∧ call.phase = .failed then call.replace seed
    else call
  if call.phase = .reserved ∨ (call.phase = .assigned ∧ allowReassign = true ∧
      (call.startId ≠ some startId ∨ call.podId ≠ some podId)) then
    { call with
      deadline := none
      phase := .assigned
      startId := some startId
      podId := some podId
      captureId := some (.drawn seed 1) }
  else call

def claim (podId : String) (captureId : Uuid) (call : Call) : Call × Bool :=
  if call.phase ≠ .assigned ∨ call.podId ≠ some podId ∨ call.captureId ≠ some captureId then
    (call, false)
  else ({ call with phase := .capturing }, true)

def authorize (podId : String) (exchangeId : Uuid) (now : Nat) (call : Call) :
    Except RecordingConflict (Call × Nat) :=
  if call.exchangeId ≠ exchangeId ∨ call.phase ≠ .capturing ∨ call.podId ≠ some podId ∨
      call.authorized = true then
    .error ⟨"Capture is no longer eligible for authorization"⟩
  else
    .ok ({ call with authorized := true, deadline := some (now + exchangeSeconds) },
      now + exchangeSeconds)

def issued (podId : String) (manifest : List UInt8) (exchangeId : Uuid) (call : Call) :
    Except RecordingConflict Call :=
  if call.exchangeId ≠ exchangeId then .error ⟨"Capture attempt was superseded"⟩
  else if call.phase = .issued ∧ call.manifestSha256 = some (digests.sha256 manifest) then .ok call
  else if call.phase ≠ .capturing ∨ call.authorized = false ∨ call.podId ≠ some podId then
    .error ⟨"Capture cannot issue this result"⟩
  else .ok { call with phase := .issued, manifestSha256 := some (digests.sha256 manifest) }

def failed (podId failure : String) (exchangeId : Uuid) (notDispatched : Bool)
    (manifest : Option (List UInt8)) (call : Call) : Except RecordingConflict Call :=
  if call.exchangeId ≠ exchangeId then .ok call
  else if call.phase = .failed ∧ call.failure = some failure then
    if call.podId = some podId ∧ call.manifestSha256 = none then
      match manifest with
      | some manifest => .ok { call with manifestSha256 := some (digests.sha256 manifest) }
      | none => .ok call
    else .ok call
  else if call.phase ≠ .capturing ∨ call.podId ≠ some podId then
    .error ⟨"Cannot replace an existing result with an error"⟩
  else
    let call := { call with
      phase := .failed
      failure := some failure
      notDispatched := notDispatched && !call.authorized }
    match manifest with
    | some manifest => .ok { call with manifestSha256 := some (digests.sha256 manifest) }
    | none => .ok call

/-- One of the seven operations on the call of a loaded record. -/
def operate (seed : Nat) (call : Call) : Op → Except RecordingConflict (Call × Reply)
  | .reserve => .ok (call, .call call)
  | .retry exchangeId =>
      let call := retry exchangeId seed call
      .ok (call, .call call)
  | .assign startId podId allowReassign expected =>
      let call := assign startId podId allowReassign expected seed call
      .ok (call, .call call)
  | .claim podId captureId =>
      let (call, success) := claim podId captureId call
      .ok (call, .claimed success)
  | .authorize podId exchangeId now =>
      (authorize exchangeSeconds podId exchangeId now call).map fun (call, deadline) =>
        (call, .deadline deadline)
  | .issued podId manifest exchangeId =>
      (issued digests podId manifest exchangeId call).map fun call => (call, .done)
  | .failed podId failure exchangeId notDispatched manifest =>
      (failed digests podId failure exchangeId notDispatched manifest call).map fun call =>
        (call, .done)

/-! ## The change of the record -/

variable (scope : Scope) (request : RequestKey)

def firstExchange : Uuid := .named s!"{scope.key}/{digests.callId request}"

def newCall : Call := { request, exchangeId := firstExchange digests scope request }

/-- `_change` on the snapshot it has loaded. -/
def change (op : Op) (seed : Nat) (snapshot : Option CallRecord) :
    Except RecordingConflict (CallRecord × Reply) :=
  let record := snapshot.getD ⟨.drawn seed 2, scope.key, newCall digests scope request⟩
  if record.scopeKey ≠ scope.key ∨ record.call.request ≠ request then
    .error ⟨"Call identity differs"⟩
  else
    (operate digests exchangeSeconds seed record.call op).map fun (call, reply) =>
      (⟨.drawn seed 3, record.scopeKey, call⟩, reply)

/-! ## What one operation can do -/

/-- The ways in which an operation takes a call from `before` to `after`. -/
inductive Moves (seed : Nat) (before : Call) : Op → Call → Reply → Prop
  /-- The call stays; in particular nothing is authorized and no claim succeeds. -/
  | stays {op : Op} {reply : Reply} (quiet : ∀ pod exchange now, op ≠ .authorize pod exchange now)
      (unclaimed : reply ≠ .claimed true) : Moves seed before op before reply
  /-- A failed exchange is replaced by a new one. -/
  | replaced {op : Op} {after : Call} (failed : before.phase = .failed)
      (exchange : after.exchangeId = .drawn seed 0) (fresh : after.authorized = false)
      (phase : after.phase = .reserved ∨ after.phase = .assigned)
      (asked : op = .retry before.exchangeId ∨ ∃ startId podId allowReassign,
        op = .assign startId podId allowReassign (some before.exchangeId)) :
      Moves seed before op after (.call after)
  | assigned {op : Op} {after : Call} (phase : before.phase = .reserved ∨ before.phase = .assigned)
      (exchange : after.exchangeId = before.exchangeId)
      (authorized : after.authorized = before.authorized) (phase' : after.phase = .assigned)
      (quiet : ∀ pod exchange now, op ≠ .authorize pod exchange now) :
      Moves seed before op after (.call after)
  | claimed {pod : String} {capture : Uuid} (phase : before.phase = .assigned)
      (owner : before.podId = some pod) :
      Moves seed before (.claim pod capture) { before with phase := .capturing } (.claimed true)
  | authorized {pod : String} {now deadline : Nat} (phase : before.phase = .capturing)
      (owner : before.podId = some pod) (unauthorized : before.authorized = false) :
      Moves seed before (.authorize pod before.exchangeId now)
        { before with authorized := true, deadline := some deadline } (.deadline deadline)
  /-- A capture, or a failure that gets its manifest, ends with a result. -/
  | ended {op : Op} {after : Call} (phase : before.phase = .capturing ∨ before.phase = .failed)
      (exchange : after.exchangeId = before.exchangeId)
      (authorized : after.authorized = before.authorized)
      (phase' : after.phase = .issued ∧ after.manifestSha256.isSome ∨ after.phase = .failed)
      (quiet : ∀ pod exchange now, op ≠ .authorize pod exchange now) :
      Moves seed before op after .done

theorem retry_moves (exchangeId : Uuid) (seed : Nat) (call : Call) :
    Moves seed call (.retry exchangeId) (retry exchangeId seed call)
      (.call (retry exchangeId seed call)) := by
  unfold retry
  split
  · rename_i h
    exact .replaced h.2 rfl rfl (Or.inl rfl) (Or.inl (by rw [h.1]))
  · exact .stays (by simp) (by simp)

theorem assign_moves (startId podId : String) (allowReassign : Bool) (expected : Option Uuid)
    (seed : Nat) (call : Call) :
    Moves seed call (.assign startId podId allowReassign expected)
      (assign startId podId allowReassign expected seed call)
      (.call (assign startId podId allowReassign expected seed call)) := by
  unfold assign
  by_cases replaced : some call.exchangeId = expected ∧ call.phase = .failed
  · simp only [if_pos replaced, Call.replace, true_or, if_true]
    exact .replaced replaced.2 rfl rfl (Or.inr rfl) (Or.inr ⟨_, _, _, by rw [replaced.1]⟩)
  · simp only [if_neg replaced]
    split
    · rename_i h
      exact .assigned (h.imp_right And.left) rfl rfl rfl (by simp)
    · exact .stays (by simp) (by simp)

theorem claim_moves (podId : String) (captureId : Uuid) (seed : Nat) (call : Call) :
    Moves seed call (.claim podId captureId) (claim podId captureId call).1
      (.claimed (claim podId captureId call).2) := by
  unfold claim
  split
  · exact .stays (by simp) (by simp)
  · rename_i h
    simp only [not_or, not_not] at h
    exact .claimed h.1 h.2.1

theorem failed_moves {podId failure : String} {exchangeId : Uuid} {notDispatched : Bool}
    {manifest : Option (List UInt8)} {call after : Call} (seed : Nat)
    (ok : failed digests podId failure exchangeId notDispatched manifest call = .ok after) :
    Moves seed call (.failed podId failure exchangeId notDispatched manifest) after .done := by
  unfold failed at ok
  split at ok
  · obtain rfl := Except.ok.inj ok
    exact .stays (by simp) (by simp)
  split at ok
  · rename_i same
    split at ok
    · cases manifest with
      | none =>
          obtain rfl := Except.ok.inj ok
          exact .stays (by simp) (by simp)
      | some manifest =>
          obtain rfl := Except.ok.inj ok
          exact .ended (Or.inr same.1) rfl rfl (Or.inr same.1) (by simp)
    · obtain rfl := Except.ok.inj ok
      exact .stays (by simp) (by simp)
  split at ok
  · cases ok
  · rename_i eligible
    simp only [not_or, not_not] at eligible
    cases manifest with
    | none =>
        obtain rfl := Except.ok.inj ok
        exact .ended (Or.inl eligible.1) rfl rfl (Or.inr rfl) (by simp)
    | some manifest =>
        obtain rfl := Except.ok.inj ok
        exact .ended (Or.inl eligible.1) rfl rfl (Or.inr rfl) (by simp)

theorem issued_moves {podId : String} {manifest : List UInt8} {exchangeId : Uuid} {call after : Call}
    (seed : Nat) (ok : issued digests podId manifest exchangeId call = .ok after) :
    Moves seed call (.issued podId manifest exchangeId) after .done := by
  unfold issued at ok
  split at ok
  · cases ok
  split at ok
  · obtain rfl := Except.ok.inj ok
    exact .stays (by simp) (by simp)
  split at ok
  · cases ok
  · rename_i eligible
    simp only [not_or, not_not] at eligible
    obtain rfl := Except.ok.inj ok
    exact .ended (Or.inl eligible.1) rfl rfl (Or.inl ⟨rfl, rfl⟩) (by simp)

theorem authorize_moves {podId : String} {exchangeId : Uuid} {now deadline : Nat} {call after : Call}
    (seed : Nat) (ok : authorize exchangeSeconds podId exchangeId now call = .ok (after, deadline)) :
    Moves seed call (.authorize podId exchangeId now) after (.deadline deadline) := by
  unfold authorize at ok
  split at ok
  · cases ok
  · rename_i eligible
    simp only [not_or, not_not, Bool.not_eq_true] at eligible
    obtain ⟨rfl, phase, owner, unauthorized⟩ := eligible
    obtain ⟨rfl, rfl⟩ := Prod.mk.inj (Except.ok.inj ok)
    exact .authorized phase owner unauthorized

theorem operate_moves {op : Op} {seed : Nat} {call after : Call} {reply : Reply}
    (ok : operate digests exchangeSeconds seed call op = .ok (after, reply)) :
    Moves seed call op after reply := by
  cases op with
  | reserve =>
      obtain ⟨rfl, rfl⟩ := Prod.mk.inj (Except.ok.inj ok)
      exact .stays (by simp) (by simp)
  | retry exchangeId =>
      obtain ⟨rfl, rfl⟩ := Prod.mk.inj (Except.ok.inj ok)
      exact retry_moves exchangeId seed call
  | assign startId podId allowReassign expected =>
      obtain ⟨rfl, rfl⟩ := Prod.mk.inj (Except.ok.inj ok)
      exact assign_moves startId podId allowReassign expected seed call
  | claim podId captureId =>
      obtain ⟨rfl, rfl⟩ := Prod.mk.inj (Except.ok.inj ok)
      exact claim_moves podId captureId seed call
  | authorize podId exchangeId now =>
      simp only [operate] at ok
      cases result : authorize exchangeSeconds podId exchangeId now call with
      | error error =>
          rw [result] at ok
          cases ok
      | ok pair =>
          rw [result] at ok
          obtain ⟨rfl, rfl⟩ := Prod.mk.inj (Except.ok.inj ok)
          exact authorize_moves exchangeSeconds seed result
  | issued podId manifest exchangeId =>
      simp only [operate] at ok
      cases result : issued digests podId manifest exchangeId call with
      | error error =>
          rw [result] at ok
          cases ok
      | ok issuedCall =>
          rw [result] at ok
          obtain ⟨rfl, rfl⟩ := Prod.mk.inj (Except.ok.inj ok)
          exact issued_moves digests seed result
  | failed podId failure exchangeId notDispatched manifest =>
      simp only [operate] at ok
      cases result : failed digests podId failure exchangeId notDispatched manifest call with
      | error error =>
          rw [result] at ok
          cases ok
      | ok failedCall =>
          rw [result] at ok
          obtain ⟨rfl, rfl⟩ := Prod.mk.inj (Except.ok.inj ok)
          exact failed_moves digests seed result

/-- The call that a change starts from. -/
def startingCall (snapshot : Option CallRecord) : Call :=
  (snapshot.map CallRecord.call).getD (newCall digests scope request)

theorem change_moves {op : Op} {seed : Nat} {snapshot : Option CallRecord} {after : CallRecord}
    {reply : Reply}
    (ok : change digests exchangeSeconds scope request op seed snapshot = .ok (after, reply)) :
    Moves seed (startingCall digests scope request snapshot) op after.call reply := by
  have start : startingCall digests scope request snapshot =
      (snapshot.getD ⟨.drawn seed 2, scope.key, newCall digests scope request⟩).call := by
    cases snapshot <;> rfl
  rw [start]
  simp only [change] at ok
  split at ok
  · cases ok
  · cases applied : operate digests exchangeSeconds seed
        (snapshot.getD ⟨.drawn seed 2, scope.key, newCall digests scope request⟩).call op with
    | error error =>
        rw [applied] at ok
        cases ok
    | ok pair =>
        rw [applied] at ok
        obtain ⟨rfl, rfl⟩ := Prod.mk.inj (Except.ok.inj ok)
        exact operate_moves digests exchangeSeconds applied

end GenSubnet.Witness
