import GenSubnet.Gateway.Leases
import GenSubnet.Library.Parallel

/-!
# The pins of the rounds

Any number of gateways pin the inputs of rounds in one store, each under the keys of its own
repository and branch. A pin is only ever created, so that what it holds stays.
-/

namespace GenSubnet.Gateway.Pins
open Library Library.Effects Rounds

inductive Request
  | load (key : String)
  | save (key : String) (inputs : RoundInputs)

@[reducible] def Request.Reply : Request → Type
  | .load _ => Option Pinned
  | .save _ _ => Unit

abbrev Task := Prog Request Request.Reply Error

def ask (q : Request) : Task q.Reply := Prog.request q

/-- A call of `_pin` in a gateway of the repository and branch. -/
structure Call where
  repository : String
  branch : String
  inputs : RoundInputs
deriving DecidableEq

-- `identity` is the digest of a repository and a branch, as canonical JSON.
variable (settings : Settings) (identity : String → String → String)

/-- `_pin_key` -/
def pinKey (repository branch round : String) : String :=
  "pod-gateway/round-inputs/v1/" ++ identity repository branch ++ "/" ++ round ++ ".json"

def Call.key (call : Call) : String := pinKey identity call.repository call.branch call.inputs.round

/-- The pins of a gateway in the store of all; `_pin` asks for nothing else. -/
def stored (call : Call) : (q : Rounds.Request) → Task q.Reply
  | .load round => ask (.load (pinKey identity call.repository call.branch round))
  | .save round inputs => ask (.save (pinKey identity call.repository call.branch round) inputs)
  | _ => throw .failed

def Call.program (call : Call) : Task RoundInputs :=
  (settings.pin call.inputs).via (stored identity call)

structure World where
  pins : Dict String Pinned := .empty
  /-- Writes whose answer was lost. -/
  adrift : List (String × RoundInputs) := []

/-- A write that is adrift takes effect, where no pin is in its place, or it is dropped. -/
inductive Move
  | land (n : Nat)
  | drop (n : Nat)

def World.create (w : World) (key : String) (inputs : RoundInputs) : Option World :=
  if w.pins.contains key then none else some { w with pins := w.pins.set key (some inputs) }

def World.move (w : World) : Move → Option World
  | .land n => w.adrift[n]?.bind fun write =>
      { w with adrift := w.adrift.eraseIdx n }.create write.1 write.2
  | .drop n => w.adrift[n]?.map fun _ => { w with adrift := w.adrift.eraseIdx n }

inductive Answer
  | replies
  /-- The answer to a write was lost, and the object that is read back has its bytes. -/
  | found
  | conflict
  | raises
  | uncertain

/-- The store may answer a conflict, also where there is no pin. -/
def World.answer (w : World) : (q : Request) → Answer → Option (Except Error q.Reply × World)
  | .load key, .replies => some (.ok (w.pins.get key), w)
  | .load _, .raises => some (.error .failed, w)
  | .save key inputs, .replies => (w.create key inputs).map fun w => (.ok (), w)
  | .save key inputs, .found =>
      if w.pins.get key = some (some inputs) then
        some (.ok (), { w with adrift := w.adrift ++ [(key, inputs)] })
      else none
  | .save _ _, .conflict => some (.error .conflict, w)
  | .save _ _, .raises => some (.error .failed, w)
  | .save key inputs, .uncertain =>
      some (.error .failed, { w with adrift := w.adrift ++ [(key, inputs)] })
  | _, _ => none

def store : Shared World Request Request.Reply Error RoundInputs Move Answer Call where
  move := World.move
  answer := World.answer
  body := Call.program settings identity

abbrev Gateways := Crowd World Request Request.Reply Error RoundInputs Call

/-! ## What stays -/

/-- The pins of the first world are those of the second, which may have more. -/
def World.Keeps (w w' : World) : Prop :=
  ∀ key p, w.pins.get key = some p → w'.pins.get key = some p

def rules : Rules World Request Request.Reply Error where
  invariant _ := True
  others := World.Keeps
  answers w q reply w' := ∃ c, w.answer q c = some (reply, w')
  guarantee := World.Keeps

variable {w w' : World}

theorem World.Keeps.refl (w : World) : w.Keeps w := fun _ _ present => present

theorem World.Keeps.trans {u v w : World} (first : u.Keeps v) (second : v.Keeps w) : u.Keeps w :=
  fun key p present => second key p (first key p present)

theorem steady : rules.Steady World.Keeps where
  refl := World.Keeps.refl
  trans _ _ _ first second := first.trans second
  moves _ _ _ move := move

theorem create_eq {key : String} {inputs : RoundInputs} (created : w.create key inputs = some w') :
    w.pins.get key = none ∧ w' = { w with pins := w.pins.set key (some inputs) } := by
  unfold World.create at created
  split at created
  · cases created
  · rename_i absent
    refine ⟨?_, (Option.some.inj created).symm⟩
    simpa [Dict.get_eq_none_iff, ← Dict.contains_iff] using absent

theorem create_keeps {key : String} {inputs : RoundInputs}
    (created : w.create key inputs = some w') :
    w.Keeps w' ∧ w'.pins.get key = some (some inputs) := by
  obtain ⟨absent, rfl⟩ := create_eq created
  refine ⟨?_, by simp⟩
  intro other p present
  change (w.pins.set key (some inputs)).get other = some p
  rw [Dict.get_set_of_ne]
  · exact present
  · rintro rfl
    rw [absent] at present
    cases present

theorem move_keeps {m : Move} (moved : w.move m = some w') : w.Keeps w' := by
  cases m with
  | land n =>
      obtain ⟨write, -, created⟩ := Option.bind_eq_some_iff.mp moved
      exact (create_keeps created).1
  | drop n =>
      obtain ⟨write, -, rfl⟩ := Option.map_eq_some_iff.mp moved
      exact World.Keeps.refl w

theorem ensures_load (key : String) :
    rules.Ensures (fun outcome v => ∀ p, outcome = .ok (some p) → v.pins.get key = some p)
      (ask (.load key)) w := by
  apply Rules.Ensures.request
  rintro v - - reply v' ⟨c, answered⟩
  cases c with
  | replies =>
      cases answered
      refine ⟨World.Keeps.refl _, fun v'' later _ p is => ?_⟩
      apply steady.later later
      exact Except.ok.inj is
  | raises =>
      cases answered
      exact ⟨World.Keeps.refl _, fun _ _ _ => nofun⟩
  | found | conflict | uncertain => cases answered

theorem ensures_save (key : String) (inputs : RoundInputs) :
    rules.Ensures (fun outcome v => outcome = .ok () → v.pins.get key = some (some inputs))
      (ask (.save key inputs)) w := by
  apply Rules.Ensures.request
  rintro v - - reply v' ⟨c, answered⟩
  cases c with
  | replies =>
      obtain ⟨created, create, is⟩ := Option.map_eq_some_iff.mp answered
      cases is
      obtain ⟨kept, present⟩ := create_keeps create
      exact ⟨kept, fun v'' later _ _ => steady.later later _ _ present⟩
  | found =>
      have found : (if v.pins.get key = some (some inputs) then
        some (Except.ok (), { v with adrift := v.adrift ++ [(key, inputs)] }) else none) =
          some (reply, v') := answered
      split at found
      · rename_i present
        cases found
        exact ⟨World.Keeps.refl _, fun v'' later _ _ => steady.later later _ _ present⟩
      · cases found
  | conflict | raises | uncertain =>
      cases answered
      exact ⟨World.Keeps.refl _, fun _ _ _ => nofun⟩

/-! ## A call -/

variable {settings identity} {call : Call}

/-- What is left to do with a pin that was read. -/
def compared (settings : Settings) (inputs : RoundInputs) (current : Option Pinned) :
    Task RoundInputs :=
  match current with
  | none => throw .conflict
  | some none => throw .failed
  | some (some retained) =>
      if retained.fingerprint settings = inputs.fingerprint settings then pure retained
      else throw .failed

theorem comparePin_via (inputs : RoundInputs) (current : Option Pinned) :
    (settings.comparePin inputs current).via (stored identity call) =
      compared settings inputs current := by
  unfold Settings.comparePin compared
  cases current with
  | none => rfl
  | some pin =>
      cases pin with
      | none => rfl
      | some retained =>
          dsimp only
          split <;> rfl

theorem program_eq : call.program settings identity = (do
    match ← ask (.load (call.key identity)) with
    | some current => compared settings call.inputs (some current)
    | none => do
        match ← Prog.outcome (ask (.save (call.key identity) call.inputs)) with
        | .ok _ => pure call.inputs
        | .error .conflict => do
            let current ← ask (.load (call.key identity))
            compared settings call.inputs current
        | .error e => throw e) := by
  apply congrArg (Prog.ask _)
  funext loaded
  cases loaded with
  | error e => rfl
  | ok current =>
      cases current with
      | some current => exact comparePin_via _ _
      | none =>
          apply congrArg (Prog.ask _)
          funext saved
          cases saved with
          | ok u => rfl
          | error e =>
              cases e with
              | failed | cancelled => rfl
              | conflict =>
                  apply congrArg (Prog.ask _)
                  funext reloaded
                  cases reloaded with
                  | error e => rfl
                  | ok current => exact comparePin_via _ _

/-- The inputs that a call returns are pinned, and have its fingerprint. -/
def Returned (settings : Settings) (identity : String → String → String) (call : Call) (_ : World)
    (outcome : Except Error RoundInputs) (w : World) : Prop :=
  ∀ r, outcome = .ok r → w.pins.get (call.key identity) = some (some r) ∧
    r.fingerprint settings = call.inputs.fingerprint settings

theorem ensures_compared {began : World} {current : Option Pinned}
    (present : ∀ p, current = some p → w.pins.get (call.key identity) = some p) :
    rules.Ensures (Returned settings identity call began)
      (compared settings call.inputs current) w := by
  unfold compared
  split
  · exact Rules.Ensures.throw fun _ _ _ => nofun
  · exact Rules.Ensures.throw fun _ _ _ => nofun
  · split
    · rename_i retained same
      apply Rules.Ensures.pure
      rintro v later - _ ⟨⟩
      exact ⟨steady.later later _ _ (present _ rfl), same⟩
    · exact Rules.Ensures.throw fun _ _ _ => nofun

theorem ensures_reread {began : World} :
    rules.Ensures (Returned settings identity call began)
      (ask (.load (call.key identity)) >>= compared settings call.inputs) w := by
  apply Rules.Ensures.bind (ensures_load _)
  · intro current v _ loaded
    apply ensures_compared
    rintro p rfl
    exact loaded p rfl
  · exact fun _ _ _ _ => nofun

theorem ensures_program {began : World} :
    rules.Ensures (Returned settings identity call began) (call.program settings identity) w := by
  rw [program_eq]
  apply Rules.Ensures.bind (ensures_load _)
  · intro current v _ loaded
    cases current with
    | some current =>
        apply ensures_compared
        rintro p ⟨⟩
        exact loaded _ rfl
    | none =>
        apply Rules.Ensures.bind (Rules.Ensures.outcome (ensures_save _ _))
        · rintro saved v' _ ⟨_, ⟨⟩, present⟩
          cases saved with
          | ok u =>
              apply Rules.Ensures.pure
              rintro v'' later - _ ⟨⟩
              exact ⟨steady.later later _ _ (present rfl), rfl⟩
          | error e =>
              cases e with
              | conflict => exact ensures_reread
              | failed | cancelled => exact Rules.Ensures.throw fun _ _ _ => nofun
        · exact fun _ _ _ _ => nofun
  · exact fun _ _ _ _ => nofun

/-! ## All calls -/

theorem follows (settings : Settings) (identity : String → String → String) :
    (store settings identity).Follows rules (Returned settings identity) fun _ _ => True where
  move _ _ _ _ _ moved := move_keeps moved
  answer _ _ c _ _ _ answered := ⟨c, answered⟩
  body _ _ _ := ensures_program
  others _ _ _ _ := trivial
  guarantee _ _ _ move := move

section Runs

variable {s t : Gateways} {events : List (CrowdEvent Move Answer Call)}

theorem anywhere (s : Gateways) (events : List (CrowdEvent Move Answer Call)) :
    Throughout (store settings identity).step (MovesMeet fun _ _ => True) s events := by
  apply throughout_of_forall
  intro event _ u
  cases event <;> trivial

theorem safe_run {w : World} (ran : run (store settings identity).step ⟨w, []⟩ events = some s) :
    s.Safe rules (Returned settings identity) := by
  apply (follows settings identity).run (anywhere _ _) ran
  exact ⟨trivial, by simp⟩

theorem world_run (safe : s.Safe rules (Returned settings identity))
    (ran : run (store settings identity).step s events = some t) : s.world.Keeps t.world :=
  (follows settings identity).world_run steady (anywhere _ _) ran safe

theorem returned (safe : t.Safe rules (Returned settings identity)) {k : Call} {began : World}
    {r : RoundInputs} (ended : t.Ended k began (.ok r)) :
    t.world.pins.get (k.key identity) = some (some r) ∧
      r.fingerprint settings = k.inputs.fingerprint settings := by
  have promise : Returned settings identity k began (.ok r) t.world := safe.ended ended
  exact promise r rfl

end Runs

/-- The gateways agree: what is pinned stays, all calls for one round of a repository and branch
return the same inputs, with the fingerprint of their own, and a call with another one raises. -/
theorem frozen_inputs_agree (settings : Settings) (identity : String → String → String) (w : World)
    (events later : List (CrowdEvent Move Answer Call)) (s t : Gateways)
    (ran : run (store settings identity).step ⟨w, []⟩ events = some s)
    (goes : run (store settings identity).step s later = some t) :
    s.world.Keeps t.world ∧
    (∀ k l began began' r r', t.Ended k began (.ok r) → t.Ended l began' (.ok r') →
      (k.repository, k.branch, k.inputs.round) = (l.repository, l.branch, l.inputs.round) →
      r = r' ∧ r.fingerprint settings = k.inputs.fingerprint settings ∧
        k.inputs.fingerprint settings = l.inputs.fingerprint settings) ∧
    (∀ k began outcome p, t.Ended k began outcome → s.world.pins.get (k.key identity) = some p →
      (∀ r, p = some r → r.fingerprint settings ≠ k.inputs.fingerprint settings) →
      ∃ e, outcome = .error e) := by
  have safe := safe_run ran
  have kept := world_run safe goes
  have later_safe : t.Safe rules (Returned settings identity) :=
    (follows settings identity).run (anywhere _ _) goes safe
  refine ⟨kept, ?_, ?_⟩
  · intro k l began began' r r' ended ended' same
    obtain ⟨pinned, fingerprint⟩ := returned later_safe ended
    obtain ⟨pinned', fingerprint'⟩ := returned later_safe ended'
    have keys : k.key identity = l.key identity := by
      obtain ⟨repository, rest⟩ := Prod.mk.inj same
      obtain ⟨branch, round⟩ := Prod.mk.inj rest
      unfold Call.key
      rw [repository, branch, round]
    rw [keys, pinned'] at pinned
    obtain rfl := Option.some.inj (Option.some.inj pinned)
    exact ⟨rfl, fingerprint, fingerprint.symm.trans fingerprint'⟩
  · intro k began outcome p ended present differs
    cases outcome with
    | error e => exact ⟨e, rfl⟩
    | ok r =>
        obtain ⟨pinned, fingerprint⟩ := returned later_safe ended
        have now := kept _ _ present
        rw [pinned] at now
        exact absurd fingerprint (differs r (Option.some.inj now).symm)

/-- Two gateways see no pin; the second one to write has another revision of the same inputs. -/
def race (inputs : RoundInputs) (revision : String) : List (CrowdEvent Move Answer Call) :=
  let call : Call := ⟨"owner/repo", "main", inputs⟩
  [.start call, .start { call with inputs := { inputs with revision } },
    .answer 0 .replies, .answer 1 .replies, .answer 0 .replies, .answer 1 .conflict,
    .answer 1 .replies]

def seasonInputs : RoundInputs :=
  competition.roundInputs published "season" 4 (some 110, "", true) 7 []

theorem frozen_inputs_agree_race : ∃ s began began' r r',
    run (store competition fun _ branch => branch).step ⟨{}, []⟩ (race seasonInputs "b") = some s ∧
      s.Ended ⟨"owner/repo", "main", seasonInputs⟩ began (.ok r) ∧
      s.Ended ⟨"owner/repo", "main", { seasonInputs with revision := "b" }⟩ began' (.ok r') ∧
      r = r' := by
  have ends : (run (store competition fun _ branch => branch).step ⟨{}, []⟩
      (race seasonInputs "b")).any (fun s =>
        s.outcome 0 = some (⟨"owner/repo", "main", seasonInputs⟩, .ok seasonInputs) ∧
        s.outcome 1 = some (⟨"owner/repo", "main", { seasonInputs with revision := "b" }⟩,
          .ok seasonInputs)) = true := by
    decide +kernel
  obtain ⟨s, ran, holds⟩ := (Option.any_eq_true _ _).mp ends
  obtain ⟨first, second⟩ := of_decide_eq_true holds
  obtain ⟨began, -, ended⟩ := Crowd.ended_of_outcome first
  obtain ⟨began', -, ended'⟩ := Crowd.ended_of_outcome second
  obtain ⟨-, agree, -⟩ := frozen_inputs_agree competition (fun _ branch => branch) {} _ [] s s ran rfl
  exact ⟨s, began, began', _, _, ran, ended, ended', (agree _ _ _ _ _ _ ended ended' rfl).1⟩

end GenSubnet.Gateway.Pins
