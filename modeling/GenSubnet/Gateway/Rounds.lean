import GenSubnet.Auth.Authenticator
import GenSubnet.Competition.PromptIds
import GenSubnet.Competition.State
import GenSubnet.Library.Effects

/-!
# The rounds of the gateway

`RoundController` of `rounds.py`: a refresh reads the head of the competition branch, resolves what
that commit publishes and leaves a policy, by which generation is admitted until the policy expires.
-/

namespace GenSubnet.Gateway.Rounds
open Library Library.Effects Url Competition Auth

/-! ## Inputs -/

structure PromptImage where
  id : String
  sourceUrl : String
  sha256 : String
  imageKey : String
deriving DecidableEq

structure RoundInputs where
  repository : String
  branch : String
  revision : String
  round : String
  number : Int
  seed : Int
  prompts : List PromptImage
  generationDeadlineBlock : Option Int
  storagePrefix : String
  saveSubmissions : Bool
deriving DecidableEq

/-- What `fingerprint` hashes: all but the revision and the URLs of the images. -/
structure Frozen where
  repository : String
  branch : String
  round : String
  number : Int
  seed : Int
  prompts : List (String × String × String)
  generationDeadlineBlock : Option Int
  storagePrefix : String
  saveSubmissions : Bool
deriving DecidableEq

def RoundInputs.frozen (inputs : RoundInputs) : Frozen where
  repository := inputs.repository
  branch := inputs.branch
  round := inputs.round
  number := inputs.number
  seed := inputs.seed
  prompts := inputs.prompts.map fun p => (p.id, p.sha256, p.imageKey)
  generationDeadlineBlock := inputs.generationDeadlineBlock
  storagePrefix := inputs.storagePrefix
  saveSubmissions := inputs.saveSubmissions

/-- `str.lower`, as far as a character becomes one of ASCII. -/
def lower (c : Char) : Char := if c.toNat = 0x212A then 'k' else c.toLower

def removeSuffix (suffix text : List Char) : List Char :=
  if suffix.isSuffixOf text then text.take (text.length - suffix.length) else text

def nameChar (c : Char) : Bool := c.isAlphanum || c = '_' || c = '.' || c = '-'

/-- `repository` of `witness/rounds.py`; `none` when it raises. -/
def repository (value : String) : Option String :=
  let host := "https://github.com/".toList
  let text := value.toList
  let path := if host.isPrefixOf text then removeSuffix ['/'] (text.drop host.length) else text
  let name := removeSuffix ".git".toList path
  match segments name with
  | [owner, repo] =>
      if owner ≠ [] ∧ repo ≠ [] ∧ (owner ++ repo).all nameChar then
        some (String.ofList (name.map lower))
      else none
  | _ => none

/-- `RoundSchedule.storage_prefix` does not raise. -/
def SafePrefix (value : String) : Prop :=
  value = "" ∨ value.toList.length ≤ 200 ∧ value.toList.getLast? = some '/' ∧
    ∀ part ∈ (segments value.toList).dropLast,
      part ≠ [] ∧ part.all (fun c => c.isAlphanum || c = '_' || c = '-')

instance (value : String) : Decidable (SafePrefix value) :=
  inferInstanceAs (Decidable (_ ∨ _ ∧ _ ∧ ∀ part ∈ (segments value.toList).dropLast, _ ∧ _))

def HexText (length : Nat) (text : String) : Prop :=
  text.toList.length = length ∧ ∀ c ∈ text.toList, c.isDigit = true ∨ 'a' ≤ c ∧ c ≤ 'f'

instance (length : Nat) (text : String) : Decidable (HexText length text) :=
  @instDecidableAnd _ _ inferInstance (List.decidableBAll _ text.toList)

def roundChar (c : Char) : Bool := c.isDigit || c.isLower

/-- The pattern of `RoundInputs.round`. -/
def ValidRound (round : String) : Prop :=
  (∃ c ∈ round.toList.head?, roundChar c = true) ∧ round.toList.length ≤ 64 ∧
    ∀ c ∈ round.toList, roundChar c = true ∨ c = '-'

instance (round : String) : Decidable (ValidRound round) :=
  @instDecidableAnd _ _ (Option.decidableExistsMem _)
    (@instDecidableAnd _ _ inferInstance (List.decidableBAll _ round.toList))

def imageKey (storagePrefix digest : String) : String :=
  storagePrefix ++ "competition-inputs/v1/" ++ digest

def RoundInputs.ValidPrompt (inputs : RoundInputs) (p : PromptImage) : Prop :=
  ValidPromptId p.id ∧ HexText 64 p.sha256 ∧ p.imageKey = imageKey inputs.storagePrefix p.sha256

/-- The model validates. -/
def RoundInputs.Valid (inputs : RoundInputs) : Prop :=
  HexText 40 inputs.revision ∧ ValidRound inputs.round ∧ 0 ≤ inputs.number ∧
  (0 ≤ inputs.seed ∧ inputs.seed < 2 ^ 64) ∧
  (1 ≤ inputs.prompts.length ∧ inputs.prompts.length ≤ 4096) ∧
  (∀ block ∈ inputs.generationDeadlineBlock, 0 ≤ block) ∧
  Rounds.repository inputs.repository = some inputs.repository ∧ SafePrefix inputs.storagePrefix ∧
  (inputs.prompts.map PromptImage.sha256).Nodup ∧ (inputs.prompts.map PromptImage.id).Nodup ∧
  ∀ p ∈ inputs.prompts, inputs.ValidPrompt p

instance (inputs : RoundInputs) (p : PromptImage) : Decidable (inputs.ValidPrompt p) :=
  inferInstanceAs (Decidable (_ ∧ _ ∧ _))

instance (inputs : RoundInputs) : Decidable inputs.Valid :=
  inferInstanceAs (Decidable (_ ∧ _ ∧ _ ∧ _ ∧ _ ∧ (∀ block ∈ inputs.generationDeadlineBlock, _) ∧
    _ ∧ _ ∧ _ ∧ _ ∧ ∀ p ∈ inputs.prompts, _))

/-! ## Policies -/

structure RoundPolicy where
  repository : String
  branch : String
  revision : String
  round : String
  inputsSha256 : Option String
  stage : RoundStage
  observedAt : Rat
  expiresAt : Rat
  stateExpiresAt : Option Rat := none
  block : Option Int := none
  generationDeadlineBlock : Option Int := none
deriving DecidableEq

/-- The policy concerns these inputs, whose fingerprint is given. -/
def RoundPolicy.Concerns (policy : RoundPolicy) (inputs : RoundInputs) (fingerprint : String) : Prop :=
  policy.repository = inputs.repository ∧ policy.branch = inputs.branch ∧ policy.round = inputs.round ∧
  policy.inputsSha256 = some fingerprint ∧
  policy.generationDeadlineBlock = inputs.generationDeadlineBlock

instance (policy : RoundPolicy) (inputs : RoundInputs) (fingerprint : String) :
    Decidable (policy.Concerns inputs fingerprint) := inferInstanceAs (Decidable (_ ∧ _ ∧ _ ∧ _ ∧ _))

/-- `RoundPolicy.require` -/
def RoundPolicy.require (policy : RoundPolicy) (inputs : RoundInputs) (fingerprint : String) (now : Rat)
    (generation : Bool) : Except AuthRejected Unit :=
  let expires := if generation then policy.expiresAt else policy.stateExpiresAt.getD policy.expiresAt
  if ¬(policy.observedAt ≤ now + 5) ∨ ¬(now < expires ∧ expires ≤ policy.observedAt + 120) then
    .error ⟨"round_policy_stale", 503⟩
  else if ¬policy.Concerns inputs fingerprint then .error ⟨"round_policy_mismatch", 403⟩
  else if generation = false then .ok ()
  else if policy.stage ≠ .minerGeneration then .error ⟨"round_closed", 403⟩
  else
    match inputs.generationDeadlineBlock with
    | none => .ok ()
    | some deadline =>
        if policy.block.all fun block => deadline ≤ block then .error ⟨"round_closed", 403⟩ else .ok ()

/-! ## What a commit holds -/

/-- The files of a commit that validate, by the number of the round. -/
structure Commit where
  /-- `current_round` and `stage` of `state.json`. -/
  state : Option (Int × RoundStage)
  /-- `name` of `config.json`. -/
  config : Option String
  /-- `generation_deadline_block`, `witness_storage_prefix` and `witness_save_submissions`. -/
  schedule : Int → Option (Option Int × String × Bool)
  seed : Int → Option Int
  prompts : Int → Option (List String)

structure Settings where
  repository : String
  branch : String
  ttl : Rat
  /-- Whether there is an `on_close`. -/
  closes : Bool
  ttlBounds : 5 ≤ ttl ∧ ttl ≤ 120
  /-- What a revision holds, which never changes. -/
  commits : String → Commit
  /-- `hashlib.sha256(data).hexdigest()`, of an image and of the canonical JSON of what is frozen. -/
  sha256 : List UInt8 → String
  hash : Frozen → String
  /-- Pillow identifies the image and verifies it. -/
  verifies : List UInt8 → Bool

variable (settings : Settings)

def RoundInputs.fingerprint (inputs : RoundInputs) : String := settings.hash inputs.frozen

def roundName (name : String) (number : Int) : String := name ++ "-" ++ toString number

/-! ### `_image_url` -/

def hexUpper (n : Nat) : Char := if n < 10 then Char.ofNat (48 + n) else Char.ofNat (55 + n)

/-- `quote(value, safe="/")` -/
def quote (value : List Char) : List Char :=
  value.flatMap fun c =>
    if c.isAlphanum || c = '_' || c = '.' || c = '-' || c = '~' || c = '/' then [c]
    else (String.utf8EncodeChar c).flatMap fun b => ['%', hexUpper (b.toNat / 16), hexUpper (b.toNat % 16)]

/-- The rest of a path of this repository and branch under one of the hosts of GitHub. -/
def Settings.pathAt (parsed : SplitResult) (origin start : String) : Option (List Char) :=
  let repoPath := ("/" ++ settings.repository ++ "/").toList
  let rest := parsed.path.drop repoPath.length
  if (hostname parsed.netloc).map lower = origin.toList ∧
      (parsed.path.take repoPath.length).map lower = repoPath ∧ start.toList.isPrefixOf rest then
    some (rest.drop start.length)
  else none

def Settings.rawUrl (revision : String) (path : List Char) : String :=
  "https://raw.githubusercontent.com/" ++ settings.repository ++ "/" ++ revision ++ "/" ++
    String.ofList path

/-- `none` when it raises. -/
def Settings.imageUrl (value revision : String) : Option String :=
  let parsed := urlsplit value.toList
  if HasImageUrl value then
    if parsed.scheme = [] ∧ parsed.netloc = [] then some (settings.rawUrl revision (quote value.toList))
    else
      match settings.pathAt parsed "raw.githubusercontent.com" (settings.branch ++ "/") with
      | some path => some (settings.rawUrl revision path)
      | none =>
          match settings.pathAt parsed "github.com" ("blob/" ++ settings.branch ++ "/") with
          | some path => some (settings.rawUrl revision path)
          | none => some value
  else none

/-- The prompt of an image that was downloaded from the URL. -/
def Settings.promptImage (value url storagePrefix : String) (data : List UInt8) : PromptImage where
  id := gatewayId value
  sourceUrl := url
  sha256 := settings.sha256 data
  imageKey := imageKey storagePrefix (settings.sha256 data)

/-- The inputs of a round, from the files of a revision and the images. -/
def Settings.roundInputs (revision name : String) (number : Int) (schedule : Option Int × String × Bool)
    (seed : Int) (prompts : List PromptImage) : RoundInputs where
  repository := settings.repository
  branch := settings.branch
  revision := revision
  round := roundName name number
  number := number
  seed := seed
  prompts := prompts
  generationDeadlineBlock := schedule.1
  storagePrefix := schedule.2.1
  saveSubmissions := schedule.2.2

/-! ## Requests -/

inductive Error
  | failed
  /-- `StateConflict` -/
  | conflict
  /-- `CancelledError`, which is no `Exception`. -/
  | cancelled
deriving DecidableEq

/-- The data of a pin, if it validates. -/
abbrev Pinned := Option RoundInputs

inductive Request
  | clock
  | getRefSha
  | state (revision : String)
  | config (revision : String)
  | schedule (revision : String) (number : Int)
  | seed (revision : String) (number : Int)
  | prompts (revision : String) (number : Int)
  | download (url : String)
  | put (key : String)
  | load (round : String)
  | save (round : String) (inputs : RoundInputs)
  | onClose
  | head
  /-- `self.policy` and `self.policy = None`. -/
  | policy
  | clearPolicy
  /-- `self.inputs`, `self._resolved.get` and the assignment of `self._resolved`. -/
  | inputs
  | resolved (revision : String)
  | resolve (revision : String) (inputs : RoundInputs)
  /-- The last assignment of a refresh. -/
  | publish (inputs : Option RoundInputs) (policy : RoundPolicy)
deriving DecidableEq

@[reducible] def Request.Reply : Request → Type
  | .clock => Rat
  | .getRefSha => String
  | .state _ => Int × RoundStage
  | .config _ => String
  | .schedule _ _ => Option Int × String × Bool
  | .seed _ _ => Int
  | .prompts _ _ => List String
  | .download _ => List UInt8
  | .load _ => Option Pinned
  | .head => Int × Rat
  | .policy => Option RoundPolicy
  | .inputs | .resolved _ => Option RoundInputs
  | .put _ | .save _ _ | .onClose | .clearPolicy | .resolve _ _ | .publish _ _ => Unit

abbrev Task := Prog Request Request.Reply Error

def ask (q : Request) : Task q.Reply := Prog.request q

/-! ## The refresh -/

def Settings.image (value revision storagePrefix : String) : Task PromptImage :=
  match settings.imageUrl value revision with
  | none => throw .failed
  | some url => do
      let data ← ask (.download url)
      if data = [] ∨ 8 * 1024 * 1024 < data.length then throw .failed
      else if settings.verifies data then pure (settings.promptImage value url storagePrefix data)
      else throw .failed

def Settings.images (revision storagePrefix : String) : List String → Task (List PromptImage)
  | [] => pure []
  | value :: urls => do
      let image ← settings.image value revision storagePrefix
      let rest ← Settings.images revision storagePrefix urls
      pure (image :: rest)

def putAll : List PromptImage → Task Unit
  | [] => pure ()
  | prompt :: prompts => do
      ask (.put prompt.imageKey)
      putAll prompts

/-- The end of `_pin`. -/
def Settings.comparePin (inputs : RoundInputs) : Option Pinned → Task RoundInputs
  | none => throw .conflict
  | some none => throw .failed
  | some (some retained) =>
      if retained.fingerprint settings = inputs.fingerprint settings then pure retained
      else throw .failed

/-- `_pin` -/
def Settings.pin (inputs : RoundInputs) : Task RoundInputs := do
  match ← ask (.load inputs.round) with
  | some current => settings.comparePin inputs (some current)
  | none => do
      match ← Prog.outcome (ask (.save inputs.round inputs)) with
      | .ok _ => pure inputs
      | .error .conflict => do
          let current ← ask (.load inputs.round)
          settings.comparePin inputs current
      | .error e => throw e

/-- `_resolve` -/
def Settings.resolve (revision : String) (number : Int) : Task RoundInputs := do
  let config ← ask (.config revision)
  let schedule ← ask (.schedule revision number)
  let seed ← ask (.seed revision number)
  let urls ← ask (.prompts revision number)
  if 1 ≤ urls.length ∧ urls.length ≤ 4096 then do
    let prompts ← settings.images revision schedule.2.1 urls
    if (prompts.map PromptImage.id).Nodup ∧ (prompts.map PromptImage.sha256).Nodup then do
      let inputs := settings.roundInputs revision config number schedule seed prompts
      if inputs.Valid then do
        putAll prompts
        settings.pin inputs
      else throw .failed
    else throw .failed
  else throw .failed

/-- `_retained` -/
def Settings.retained (round : String) : Task (Option RoundInputs) := do
  match ← ask (.load round) with
  | none => pure none
  | some none => throw .failed
  | some (some inputs) =>
      if (inputs.repository, inputs.branch, inputs.round) = (settings.repository, settings.branch, round) then
        pure (some inputs)
      else throw .failed

/-- The policy of an earlier publication is given up. -/
def Settings.close (revision : String) (stage : RoundStage) : Task Unit := do
  let policy ← ask .policy
  if policy.any fun p => revision ≠ p.revision ∨ stage ≠ .minerGeneration then do
    ask .clearPolicy
    if settings.closes then ask .onClose else pure ()
  else pure ()

/-- The inputs that the revision publishes, which are resolved once. -/
def Settings.published (revision : String) (number : Int) : Task RoundInputs := do
  match ← ask (.resolved revision) with
  | some resolved => pure resolved
  | none => do
      let resolved ← settings.resolve revision number
      ask (.resolve revision resolved)
      pure resolved

/-- The block of the lease and its end. -/
def Settings.lease (observed : Rat) (inputs : RoundInputs) : Task (Option Int × Rat) :=
  match inputs.generationDeadlineBlock with
  | none => pure (none, observed + settings.ttl)
  | some deadline => do
      let (block, blockTime) ← ask .head
      let now ← ask .clock
      if observed - 60 ≤ blockTime ∧ blockTime ≤ now + 5 then
        pure (some block, min (observed + settings.ttl) (blockTime + (deadline - block) * 12))
      else throw .failed

/-- The inputs outside of generation. -/
def Settings.earlier (round : String) : Task (Option RoundInputs) := do
  let inputs ← ask .inputs
  if inputs.all fun i => i.round ≠ round then do
    let retained ← settings.retained round
    pure (retained.or inputs)
  else pure inputs

def Settings.policy (observed : Rat) (revision round : String) (stage : RoundStage)
    (inputs : Option RoundInputs) (lease : Option Int × Rat) : RoundPolicy where
  repository := settings.repository
  branch := settings.branch
  revision := revision
  round := round
  inputsSha256 := inputs.map fun i => i.fingerprint settings
  stage := stage
  observedAt := observed
  expiresAt := lease.2
  stateExpiresAt := some (observed + settings.ttl)
  block := lease.1
  generationDeadlineBlock := inputs.bind RoundInputs.generationDeadlineBlock

/-- The new policy validates, and is assigned with its inputs. -/
def publish (inputs : Option RoundInputs) (policy : RoundPolicy) : Task Unit :=
  if HexText 40 policy.revision then ask (.publish inputs policy) else throw .failed

/-- What `refresh` tries once it has the revision. -/
def Settings.attempt (observed : Rat) (revision : String) : Task Unit := do
  let (number, stage) ← ask (.state revision)
  let config ← ask (.config revision)
  let round := roundName config number
  settings.close revision stage
  if stage = .minerGeneration then do
    let inputs ← settings.published revision number
    let lease ← settings.lease observed inputs
    publish (some inputs) (settings.policy observed revision round stage (some inputs) lease)
  else do
    let inputs ← settings.earlier round
    publish inputs (settings.policy observed revision round stage inputs (none, observed + settings.ttl))

/-- A newly observed but incomplete publication cannot authorize old work. -/
def giveUp (revision : String) (e : Error) : Task Unit :=
  if e = .cancelled then throw e
  else do
    let policy ← ask .policy
    if policy.any fun p => revision ≠ p.revision then do
      ask .clearPolicy
      throw e
    else throw e

def Settings.refresh : Task Unit := do
  let observed ← ask .clock
  let revision ← ask .getRefSha
  tryCatch (settings.attempt observed revision) (giveUp revision)

/-! ## The controller and its surroundings -/

structure World where
  now : Rat := 0
  /-- The head of the branch. -/
  head : String
  /-- The pins of the rounds. -/
  pins : Dict String Pinned := .empty
  inputs : Option RoundInputs := none
  policy : Option RoundPolicy := none
  resolved : Dict String RoundInputs := .empty
  /-- When a refresh read the head, and the revision it was. -/
  reads : List (Rat × String) := []
  /-- The blocks that were read, with the number of heads read before, and their times. -/
  blocks : List (Nat × Int × Rat) := []
  /-- The images that were served. -/
  served : List (String × List UInt8) := []

/-- `RoundController.require` -/
def World.require (w : World) (generation : Bool) : Except AuthRejected RoundInputs :=
  match w.inputs, w.policy with
  | some inputs, some policy => do
      policy.require inputs (inputs.fingerprint settings) w.now generation
      pure inputs
  | _, _ => .error ⟨"round_unavailable", 503⟩

inductive Move
  | tick (seconds : Rat)
  | push (revision : String)
  | pin (round : String) (data : Pinned)
deriving DecidableEq

def World.move (w : World) : Move → Option World
  | .tick seconds => if 0 ≤ seconds then some { w with now := w.now + seconds } else none
  | .push revision => some { w with head := revision }
  | .pin round data => some { w with pins := w.pins.set round data }

inductive Answer
  | replies
  | serves (data : List UInt8)
  | finds (block : Int) (blockTime : Rat)
  | raises
  | cancels
deriving DecidableEq

/-- The request is awaited, so that it may fail or be cancelled. -/
def Request.remote : Request → Bool
  | .clock | .policy | .clearPolicy | .inputs | .resolved _ | .resolve _ _ | .publish _ _ => false
  | _ => true

/-- A revision answers with what it holds. -/
def World.answer (w : World) : (q : Request) → Answer → Option (Except Error q.Reply × World)
  | .clock, .replies => some (.ok w.now, w)
  | .getRefSha, .replies => some (.ok w.head, { w with reads := w.reads ++ [(w.now, w.head)] })
  | .state revision, .replies => (settings.commits revision).state.map fun v => (.ok v, w)
  | .config revision, .replies => (settings.commits revision).config.map fun v => (.ok v, w)
  | .schedule revision number, .replies =>
      ((settings.commits revision).schedule number).map fun v => (.ok v, w)
  | .seed revision number, .replies => ((settings.commits revision).seed number).map fun v => (.ok v, w)
  | .prompts revision number, .replies =>
      ((settings.commits revision).prompts number).map fun v => (.ok v, w)
  | .download url, .serves data => some (.ok data, { w with served := (url, data) :: w.served })
  | .put _, .replies => some (.ok (), w)
  | .load round, .replies => some (.ok (w.pins.get round), w)
  | .save round inputs, .replies =>
      if w.pins.contains round then some (.error .conflict, w)
      else some (.ok (), { w with pins := w.pins.set round (some inputs) })
  | .onClose, .replies => some (.ok (), w)
  | .head, .finds block blockTime =>
      some (.ok (block, blockTime), { w with blocks := (w.reads.length, block, blockTime) :: w.blocks })
  | .policy, .replies => some (.ok w.policy, w)
  | .clearPolicy, .replies => some (.ok (), { w with policy := none })
  | .inputs, .replies => some (.ok w.inputs, w)
  | .resolved revision, .replies => some (.ok (w.resolved.get revision), w)
  | .resolve revision inputs, .replies =>
      some (.ok (), { w with resolved := Dict.empty.set revision inputs })
  | .publish inputs policy, .replies => some (.ok (), { w with inputs, policy := some policy })
  | q, .raises => if q.remote then some (.error .failed, w) else none
  | q, .cancels => if q.remote then some (.error .cancelled, w) else none
  | _, _ => none

/-- A process that starts again has resolved nothing. -/
def World.restart (w : World) : World :=
  { w with inputs := none, policy := none, resolved := .empty }

def controller : System World Request Request.Reply Error Unit Move Answer Unit where
  move := World.move
  answer := World.answer settings
  body := fun _ => settings.refresh
  restart := World.restart

abbrev ControllerState := State World Request Request.Reply Error Unit

abbrev ControllerEvent := Event Move Answer Unit

end GenSubnet.Gateway.Rounds
