import GenSubnet.Auth.Authenticator
import GenSubnet.Library.Rounding
import Mathlib.Data.Finset.Basic

/-!
# The requests of the gateway

The middleware of `server.py`, cut where it waits: for the body, for the verification and for the
handler. The clock is read as a binary64 number, and it does not go back.
-/

namespace GenSubnet.Gateway.Middleware
open Library Rounding Auth

/-- What the middleware reads of a request. -/
structure Request where
  /-- There is a query string, or the raw path is not the path. -/
  query : Bool
  /-- No `http_exception` in the match. -/
  routed : Bool
  method : String
  path : String
  headers : List (String × String)
  contentLength : Option Nat
  canReadBody : Bool

def Request.getall (request : Request) (name : String) : List String :=
  (request.headers.filter fun header => header.1.toLower = name).map Prod.snd

def Request.headerBytes (request : Request) : Nat :=
  (request.headers.map fun header => header.1.length + header.2.length).foldl (· + ·) 0

structure Response where
  status : Nat
  error : String
  retryAfter : Option Int := none
deriving DecidableEq

/-- What a request can end in but for the response of its handler. -/
inductive Raised
  | authRejected (reason : AuthRejected)
  | capacityReached
  /-- `AllocationConflict` or `InventoryConflict`, by its name. -/
  | conflict (name : String)
  /-- `ValidationError`, `ValueError` or `KeyError`. -/
  | invalid
  /-- `StateConflict`, `WriteUncertain`, `ProviderUnavailable`, `TimeoutError` or `CreateDeferred`. -/
  | unavailable
  /-- An `HTTPException` or a cancellation, which is raised again. -/
  | again
  | other
deriving DecidableEq

def Raised.response : Raised → Option Response
  | .authRejected reason =>
      some
        { status := reason.status
          error := reason.code
          retryAfter := if reason.status = 429 ∨ reason.status = 503 then some 60 else none }
  | .capacityReached => some { status := 429, error := "capacity_reached", retryAfter := some 60 }
  | .conflict name => some { status := 409, error := name }
  | .invalid => some { status := 400, error := "invalid_request" }
  | .unavailable =>
      some { status := 503, error := "control_plane_unavailable", retryAfter := some 60 }
  | .again => none
  | .other => some { status := 503, error := "control_plane_unavailable" }

structure Settings where
  requestInterval : Rat := 10
  maxRequests : Nat := 64

def Settings.retry (settings : Settings) (code : String := "request_rate_limited") : Response where
  status := 429
  error := code
  retryAfter := some (max 1 ⌈settings.requestInterval⌉)

/-- Tokens and the time at which they were counted. -/
abbrev Rate := Rat × Rat

inductive Phase
  /-- It waits for its body. -/
  | reading (request : Request)
  /-- It waits for its verification, which is done or not. -/
  | verifying (request : Request) (done : Bool)
  /-- It was cancelled and its verification goes on. -/
  | abandoned
  /-- It is in its handler; the requests of miners have a hotkey. -/
  | handling (hotkey : Option String)
  /-- It is over, without a response where the handler gave its own or something was raised. -/
  | answered (response : Option Response)

def Phase.handles (hotkey : String) : Phase → Bool
  | .handling (some owner) => owner = hotkey
  | _ => false

structure State where
  /-- The last reading of the clock. -/
  clock : Rat
  rate : Dict String Rate := Dict.empty
  busy : Finset String := ∅
  tokens : Rat := 128
  tokenTime : Rat
  active : Int := 0
  authenticating : Int := 0
  requests : List Phase := []
  /-- The requests that have taken a token, in order: hotkey and reading. -/
  admissions : List (String × Rat) := []

/-- The tokens that an entry holds at a reading. -/
def available (interval : Rat) (entry : Rate) (now : Rat) : Rat :=
  nearest (entry.1 + nearest (nearest (now - entry.2) / interval))

/-- `_limited`, with its two readings of the clock. -/
def limited (settings : Settings) (s : State) (hotkey : String) (first second : Rat) : Bool :=
  decide (hotkey ∈ s.busy) ||
    decide (0 < settings.requestInterval ∧
      available settings.requestInterval ((s.rate.get hotkey).getD (2, first)) second < 1)

/-- The entry of a hotkey that takes a token. -/
def spend (interval : Rat) (entry : Option Rate) (now : Rat) : Rate :=
  (if 0 < interval then nearest (min 2 (available interval (entry.getD (2, now)) now) - 1) else 2,
    now)

/-- The purge of a rate table that has reached its size; doubling the interval does not round. -/
def purgeRate (interval : Rat) (rate : Dict String Rate) (now : Rat) : Dict String Rate :=
  if 4097 ≤ rate.size then
    rate.filter fun _ entry => decide (nearest (now - entry.2) < max 60 (2 * interval))
  else rate

/-- The headers that a signed request has once. -/
def signedHeaders : List String :=
  ["x-bittensor-version", "x-bittensor-hotkey", "x-bittensor-nonce", "x-bittensor-signature",
    "x-bittensor-receiver"]

/-- From the arrival of a request to the first wait; `control` is the check of a Pod's capability. -/
def arrive (settings : Settings) (s : State) (request : Request) (control : Except Raised Unit)
    (first second now : Rat) : State × Phase :=
  if request.query = true ∨ request.routed = false ∨ request.method ∉ ["GET", "POST"] then
    (s, .answered (Raised.authRejected ⟨"unknown_route", 404⟩).response)
  else if 8192 < request.headerBytes then (s, .answered Raised.invalid.response)
  else if request.path = "/health" then (s, .handling none)
  else if request.path.startsWith "/v1/control/" then
    match control with
    | .error raised => (s, .answered raised.response)
    | .ok () => (s, .handling none)
  else if signedHeaders.any fun name => (request.getall name).length ≠ 1 then
    (s, .answered (Raised.authRejected ⟨"invalid_hotkey_auth", 401⟩).response)
  else if limited settings s ((request.getall "x-bittensor-hotkey").headD "") first second then
    (s, .answered settings.retry)
  else
    let tokens := min 128 (nearest (s.tokens + nearest (now - s.tokenTime) * 64))
    if settings.maxRequests ≤ s.active ∨ tokens < 1 then
      ({ s with tokens, tokenTime := now }, .answered (settings.retry "authentication_busy"))
    else if (∃ length ∈ request.contentLength, 16384 < length) ∨
        request.method = "GET" ∧ request.canReadBody = true then
      ({ s with tokens := nearest (tokens - 1), tokenTime := now },
        .answered Raised.invalid.response)
    else
      ({ s with tokens := nearest (tokens - 1), tokenTime := now, active := s.active + 1 },
        .reading request)

/-- From the body to the verification. -/
def receive (settings : Settings) (s : State) (request : Request) : Except Raised Nat → State × Phase
  | .error raised => ({ s with active := s.active - 1 }, .answered raised.response)
  | .ok length =>
      if 16384 < length ∨ request.method = "GET" ∧ 0 < length then
        ({ s with active := s.active - 1 }, .answered Raised.invalid.response)
      else if 4 ≤ s.authenticating then
        ({ s with active := s.active - 1 }, .answered (settings.retry "authentication_busy"))
      else ({ s with authenticating := s.authenticating + 1 }, .verifying request false)

/-- From the verification to the handler. -/
def allow (settings : Settings) (s : State) (owner : String) (first second now : Rat)
    (live : Bool) : State × Phase :=
  if limited settings s owner first second then
    ({ s with active := s.active - 1 }, .answered settings.retry)
  else
    let rate := purgeRate settings.requestInterval s.rate now
    if rate.contains owner = false ∧ 4097 ≤ rate.size then
      ({ s with rate, active := s.active - 1 },
        .answered (settings.retry "authentication_busy"))
    else
      let admitted : State :=
        { s with
          rate := rate.set owner (spend settings.requestInterval (rate.get owner) now)
          active := s.active - 1
          admissions := s.admissions ++ [(owner, now)] }
      if live then ({ admitted with busy := insert owner s.busy }, .handling (some owner))
      else
        ({ admitted with busy := s.busy.erase owner },
          .answered (Raised.authRejected ⟨"gateway_fenced", 503⟩).response)

inductive Event
  | arrive (request : Request) (control : Except Raised Unit) (first second now : Rat)
  /-- The body of a request is read, by its length, or it is not. -/
  | body (i : Nat) (body : Except Raised Nat)
  /-- A verifier is done. -/
  | verified (i : Nat)
  /-- A request goes on after its verification. -/
  | resume (i : Nat) (answer : Except Raised String) (first second now : Rat) (live : Bool)
  /-- A request is cancelled while it waits for its verification. -/
  | cancel (i : Nat)
  /-- A handler ends, in any way. -/
  | finish (i : Nat) (outcome : Except Raised Unit)

/-- Three readings of the clock, one after the other. -/
def Readings (s : State) (first second now : Rat) : Prop :=
  Exact first ∧ Exact second ∧ Exact now ∧ s.clock ≤ first ∧ first ≤ second ∧ second ≤ now

instance (s : State) (first second now : Rat) : Decidable (Readings s first second now) :=
  inferInstanceAs (Decidable (_ ∧ _))

/-- The state after a request has come to another phase. -/
def State.next (i : Nat) (result : State × Phase) : State :=
  { result.1 with requests := result.1.requests.set i result.2 }

def Event.finished (outcome : Except Raised Unit) : Phase :=
  match outcome with
  | .ok () => .answered none
  | .error raised => .answered raised.response

def step (settings : Settings) (s : State) : Event → Option State
  | .arrive request control first second now =>
      if Readings s first second now then
        let arrived := arrive settings { s with clock := now } request control first second now
        some { arrived.1 with requests := s.requests ++ [arrived.2] }
      else none
  | .body i body =>
      match s.requests[i]? with
      | some (.reading request) => some (State.next i (receive settings s request body))
      | _ => none
  | .verified i =>
      match s.requests[i]? with
      | some (.verifying request false) =>
          some (State.next i ({ s with authenticating := s.authenticating - 1 },
            .verifying request true))
      | some .abandoned =>
          some (State.next i ({ s with authenticating := s.authenticating - 1 }, .answered none))
      | _ => none
  | .resume i answer first second now live =>
      match s.requests[i]? with
      | some (.verifying _ true) =>
          if Readings s first second now then
            match answer with
            | .error raised =>
                some (State.next i
                  ({ s with clock := now, active := s.active - 1 }, .answered raised.response))
            | .ok owner =>
                some (State.next i (allow settings { s with clock := now } owner first second now live))
          else none
      | _ => none
  | .cancel i =>
      match s.requests[i]? with
      | some (.verifying _ done) =>
          some (State.next i ({ s with active := s.active - 1 },
            if done then .answered none else .abandoned))
      | _ => none
  | .finish i outcome =>
      match s.requests[i]? with
      | some (.handling none) => some (State.next i (s, Event.finished outcome))
      | some (.handling (some hotkey)) =>
          some (State.next i ({ s with busy := s.busy.erase hotkey }, Event.finished outcome))
      | _ => none

/-- The gateway before its first request. -/
def State.started (start : Rat) : State where
  clock := start
  tokenTime := start

/-- The rate table without any purge. -/
def unpurged (interval : Rat) (admissions : List (String × Rat)) : Dict String Rate :=
  admissions.foldl (fun rate admission =>
    rate.set admission.1 (spend interval (rate.get admission.1) admission.2)) Dict.empty

/-- The requests of a hotkey that were admitted in a window of time. -/
def State.admittedIn (s : State) (hotkey : String) (begins ends : Rat) : Nat :=
  s.admissions.countP fun admission =>
    admission.1 = hotkey ∧ begins ≤ admission.2 ∧ admission.2 ≤ ends

/-- The requests of a hotkey that are in a handler. -/
def State.handlers (s : State) (hotkey : String) : Nat :=
  s.requests.countP (Phase.handles hotkey)

end GenSubnet.Gateway.Middleware
