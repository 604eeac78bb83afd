import GenSubnet.Gateway.Spent
import GenSubnet.Gateway.Worker

/-!
# One create for each connection

Whatever the provider answers, and however often the gateway dies and starts again, at most one
create is sent for a connection of a scope: a create is sent only after the journal has taken its
authorization, and an authorization is handed back only while its create was not sent.
-/

namespace GenSubnet.Gateway
open Library Library.Effects Library.Effects.Rules

variable {settings : GatewaySettings}

/-! ## What keeps a connection from being authorized again -/

/-- The journal knows that the connection is spent, and the copy of the process is not behind. -/
structure StartQueue.Holds (q : StartQueue) (scope : Scope) (startId : String) : Prop where
  stored : q.stored.Spent scope startId
  entry : ∀ entry, q.memory.pending.get scope.hotkey = some entry → entry.Is scope startId →
    entry.submitted = true
  behind : q.stored.Has scope startId → q.memory.Has scope startId

/-- The journal is of the round until the round is left. -/
def Site.Placed (w : Site) (round : String) : Prop :=
  (round = w.round ∧ w.inputs = some round) ∨ (w.turning = true ∧ ∀ r ∈ w.seen, r = round)

structure Site.Reserved (w : Site) (scope : Scope) (startId : String) : Prop where
  era : scope.round = w.era
  placed : w.Placed scope.round
  holds : w.journal.queue.Holds scope startId

def Site.Reserves (w : Site) (scope : Scope) (startId : String) : Prop :=
  scope.round ∈ w.left ∨ w.Reserved scope startId

/-- No connection whose create was sent is pending. -/
def Site.Free (w : Site) (scope : Scope) : Prop :=
  ∀ startId, (scope, startId) ∈ w.created →
    scope.round ∈ w.left ∨ ¬ w.journal.queue.memory.Has scope startId

structure Site.Sound (settings : GatewaySettings) (w : Site) : Prop where
  once : w.created.Nodup
  deployment : ∀ key ∈ w.created, key.1.deployment = settings.deployment
  inputs : ∀ round, w.inputs = some round → round = w.era ∧ round ∈ w.seen
  fresh : w.era ∉ w.left
  reserved : ∀ key ∈ w.created, w.Reserves key.1 key.2
  submitted : ∀ key ∈ w.created, key.1.round ∈ w.left ∨
    (w.journal.queue.memory.Has key.1 key.2 → ∀ o, w.operations.get key.1 = some o → o.submitted = true)

/-- What neither the others nor most requests touch. -/
structure Steady (w w' : Site) : Prop where
  created : w'.created = w.created
  operations : w'.operations = w.operations
  round : w'.round = w.round
  seen : ∀ round ∈ w.seen, round ∈ w'.seen
  left : ∀ round ∈ w.left, round ∈ w'.left
  has : ∀ key ∈ w.created, key.1.round ∈ w'.left ∨
    (w'.journal.queue.memory.Has key.1 key.2 → w.journal.queue.memory.Has key.1 key.2)

structure Still (w w' : Site) : Prop extends Steady w w' where
  reserves : ∀ scope startId, w.Reserves scope startId → w'.Reserves scope startId
  current : ∀ round, round ∈ w.left ∨ (round = w.era ∧ w.inputs = some round) →
    round ∈ w'.left ∨ (round = w'.era ∧ w'.inputs = some round)

theorem Steady.refl (w : Site) : Steady w w :=
  ⟨rfl, rfl, rfl, fun _ => id, fun _ => id, fun _ _ => Or.inr id⟩

theorem Steady.trans {u v w : Site} (first : Steady u v) (second : Steady v w) : Steady u w where
  created := second.created.trans first.created
  operations := second.operations.trans first.operations
  round := second.round.trans first.round
  seen round member := second.seen round (first.seen round member)
  left round member := second.left round (first.left round member)
  has key member := by
    rcases first.has key member with gone | before
    · exact Or.inl (second.left _ gone)
    · rcases second.has key (first.created ▸ member) with gone | after
      · exact Or.inl gone
      · exact Or.inr (before ∘ after)

theorem Still.refl (w : Site) : Still w w := ⟨Steady.refl w, fun _ _ => id, fun _ => id⟩

theorem Still.trans {u v w : Site} (first : Still u v) (second : Still v w) : Still u w where
  toSteady := first.toSteady.trans second.toSteady
  reserves scope startId held := second.reserves scope startId (first.reserves scope startId held)
  current round held := second.current round (first.current round held)

theorem Site.Free.steady {w w' : Site} {scope : Scope} (free : w.Free scope) (steady : Steady w w') :
    w'.Free scope := by
  intro startId member
  rw [steady.created] at member
  rcases steady.has _ member with gone | has
  · exact Or.inl gone
  · rcases free startId member with gone | absent
    · exact Or.inl (steady.left _ gone)
    · exact Or.inr (absent ∘ has)

/-! ## The journal -/

theorem has_load {state : QueueState} {scope : Scope} {startId : String} {now : Rat}
    (has : (state.loaded now).Has scope startId) : state.Has scope startId := by
  obtain ⟨entry, present, is⟩ := has
  obtain ⟨old, found, round, start, -⟩ := get_loaded present
  exact ⟨old, found, round.trans is.1, start.trans is.2⟩

theorem StartQueue.Holds.perform {q : StartQueue} {scope : Scope} {startId : String}
    (holds : q.Holds scope startId) (queue : QueueSettings) {e : QueueEvent}
    (respects : e.op.Respects scope startId) :
    (q.perform queue e).1.Holds scope startId ∧
      ((q.perform queue e).1.memory.Has scope startId → q.memory.Has scope startId) := by
  have performed := q.perform_performed queue e
  have loaded := spends_loaded holds.stored e.now
  generalize q.perform queue e = result at performed
  obtain ⟨after, answer⟩ := result
  cases performed with
  | unchanged _ _ => exact ⟨holds, id⟩
  | loaded op =>
      refine ⟨⟨holds.stored, loaded.spent.entry, ?_⟩, fun has => holds.behind (has_load has)⟩
      rintro ⟨entry, present, is⟩
      refine ⟨{ entry with eligibleAt := min entry.eligibleAt (truncate e.now) }, ?_, is⟩
      have mapped : (q.stored.loaded e.now).pending.get scope.hotkey = (q.stored.pending.get scope.hotkey).map _ :=
        Dict.get_mapValues q.stored.pending _ scope.hotkey
      exact mapped.trans (by rw [present]; rfl)
  | uncertain state saving changed =>
      have kept := spends_change loaded.spent respects changed
      exact ⟨⟨kept.spent, holds.entry, fun has => holds.behind (loaded.has (kept.has has))⟩, id⟩
  | saved state saving changed =>
      have kept := spends_change loaded.spent respects changed
      exact ⟨⟨kept.spent, kept.spent.entry, id⟩, fun has => holds.behind (loaded.has (kept.has has))⟩

theorem Site.perform_fields (w : Site) (op : QueueOp) (saving : Saving) :
    (w.perform settings op saving).1 =
      { w with journal := (w.perform settings op saving).1.journal } ∧
    (w.perform settings op saving).1.journal.queue =
      (w.journal.queue.perform settings.queue ⟨op, w.now, saving⟩).1 ∧
    (w.perform settings op saving).2 =
      (w.journal.queue.perform settings.queue ⟨op, w.now, saving⟩).2 :=
  ⟨rfl, rfl, rfl⟩

theorem still_perform {w : Site} (op : QueueOp) (saving : Saving) (sound : w.Sound settings)
    (respects : ∀ scope startId, w.Reserved scope startId → op.Respects scope startId) :
    Still w (w.perform settings op saving).1 where
  created := rfl
  operations := rfl
  round := rfl
  seen _ member := member
  left _ member := member
  has key member := by
    rcases sound.reserved key member with gone | reserved
    · exact Or.inl gone
    · exact Or.inr (reserved.holds.perform settings.queue (respects _ _ reserved)).2
  reserves scope startId held := by
    rcases held with gone | reserved
    · exact Or.inl gone
    · exact Or.inr ⟨reserved.era, reserved.placed,
        (reserved.holds.perform settings.queue (respects _ _ reserved)).1⟩
  current round held := held

theorem Site.Sound.perform {w : Site} (sound : w.Sound settings) (op : QueueOp) (saving : Saving)
    (respects : ∀ key ∈ w.created, w.Reserved key.1 key.2 → op.Respects key.1 key.2) :
    Steady w (w.perform settings op saving).1 ∧ (w.perform settings op saving).1.Sound settings := by
  have has : ∀ key ∈ w.created, key.1.round ∈ w.left ∨
      ((w.perform settings op saving).1.journal.queue.memory.Has key.1 key.2 →
        w.journal.queue.memory.Has key.1 key.2) := by
    intro key member
    exact (sound.reserved key member).imp_right fun reserved =>
      (reserved.holds.perform settings.queue (respects key member reserved)).2
  refine ⟨⟨rfl, rfl, rfl, fun _ => id, fun _ => id, has⟩,
    ⟨sound.once, sound.deployment, sound.inputs, sound.fresh, ?_, ?_⟩⟩
  · intro key member
    refine (sound.reserved key member).imp_right fun reserved => ?_
    exact ⟨reserved.era, reserved.placed,
      (reserved.holds.perform settings.queue (respects key member reserved)).1⟩
  · intro key member
    rcases sound.submitted key member with gone | submits
    · exact Or.inl gone
    · exact (has key member).imp_right fun stays => submits ∘ stays

theorem Site.Sound.still {w w' : Site} (sound : w.Sound settings) (still : Still w w')
    (inputs : ∀ round, w'.inputs = some round → round = w'.era ∧ round ∈ w'.seen)
    (fresh : w'.era ∉ w'.left) : w'.Sound settings where
  once := still.created ▸ sound.once
  deployment key member := sound.deployment key (still.created ▸ member)
  inputs := inputs
  fresh := fresh
  reserved key member := still.reserves _ _ (sound.reserved key (still.created ▸ member))
  submitted key member := by
    rw [still.created] at member
    rcases sound.submitted key member with gone | submits
    · exact Or.inl (still.left _ gone)
    · rcases still.has key member with gone | has
      · exact Or.inl gone
      · rw [still.operations]
        exact Or.inr (submits ∘ has)

/-! ## The others -/

theorem Site.Reserved.round_of_entry {w : Site} {scope : Scope} {startId : String}
    (reserved : w.Reserved scope startId) (settled : w.turning = false) : w.round = scope.round := by
  rcases reserved.placed with ⟨same, -⟩ | ⟨turning, -⟩
  · exact same.symm
  · rw [settled] at turning
    cases turning

theorem still_of_same {w w' : Site} (queue : w'.journal.queue = w.journal.queue)
    (created : w'.created = w.created) (operations : w'.operations = w.operations)
    (round : w'.round = w.round) (inputs : w'.inputs = w.inputs) (seen : w'.seen = w.seen)
    (turning : w'.turning = w.turning) (era : w'.era = w.era) (left : w'.left = w.left) :
    Still w w' where
  created := created
  operations := operations
  round := round
  seen _ member := seen ▸ member
  left _ member := left ▸ member
  has _ _ := Or.inr (by rw [queue]; exact id)
  reserves scope startId held := by
    rcases held with gone | reserved
    · exact Or.inl (left ▸ gone)
    · refine Or.inr ⟨era ▸ reserved.era, ?_, queue ▸ reserved.holds⟩
      rw [Site.Placed, round, inputs, turning, seen]
      exact reserved.placed
  current _ held := by rw [left, era, inputs]; exact held

theorem still_refresh (w : Site) (round : String) :
    Still w { w with
      inputs := some round
      seen := round :: w.seen
      era := round
      left := if round = w.era then w.left else w.era :: w.left } := by
  have left : ∀ r ∈ w.left, r ∈ (if round = w.era then w.left else w.era :: w.left) := by
    intro r member
    split
    · exact member
    · exact List.mem_cons_of_mem _ member
  have leaves : round ≠ w.era → w.era ∈ (if round = w.era then w.left else w.era :: w.left) := by
    intro changes
    rw [if_neg changes]
    exact List.mem_cons_self
  refine ⟨⟨rfl, rfl, rfl, fun _ => List.mem_cons_of_mem _, left, fun _ _ => Or.inr id⟩, ?_, ?_⟩
  · intro scope startId held
    rcases held with gone | reserved
    · exact Or.inl (left _ gone)
    · by_cases stays : round = w.era
      · have roundIs : scope.round = round := reserved.era.trans stays.symm
        refine Or.inr ⟨roundIs, ?_, reserved.holds⟩
        rcases reserved.placed with ⟨same, -⟩ | ⟨turning, all⟩
        · exact Or.inl ⟨same, congrArg some roundIs.symm⟩
        · refine Or.inr ⟨turning, ?_⟩
          rintro r (_ | ⟨_, member⟩)
          · exact roundIs.symm
          · exact all r member
      · exact Or.inl (reserved.era ▸ leaves stays)
  · intro r held
    rcases held with gone | ⟨rfl, -⟩
    · exact Or.inl (left r gone)
    · by_cases stays : round = w.era
      · exact Or.inr ⟨stays.symm, congrArg some stays⟩
      · exact Or.inl (leaves stays)

theorem still_move {w w' : Site} {m : SiteMove} (sound : w.Sound settings)
    (moved : w.move settings m = some w') : Still w w' ∧ w'.Sound settings := by
  have same : ∀ {v : Site}, Still w v → v.inputs = w.inputs → v.era = w.era → v.seen = w.seen →
      v.left = w.left → Still w v ∧ v.Sound settings := by
    intro v still inputs era seen left
    refine ⟨still, sound.still still ?_ ?_⟩
    · rw [inputs, era, seen]
      exact sound.inputs
    · rw [era, left]
      exact sound.fresh
  cases m with
  | load =>
      obtain rfl := Option.some.inj moved
      exact same (still_perform .load .saved sound fun _ _ _ => trivial) rfl rfl rfl rfl
  | enqueue hotkey startId replaces saving =>
      rw [Site.move] at moved
      split at moved
      · rename_i settled
        obtain rfl := Option.some.inj moved
        refine same (still_perform _ saving sound ?_) rfl rfl rfl rfl
        intro scope startId reserved _
        exact reserved.round_of_entry settled
      · cases moved
  | complete scope saving =>
      rw [Site.move] at moved
      split at moved
      · cases moved
      · rename_i result _
        split at moved
        · obtain rfl := Option.some.inj moved
          have still : Still w (w.perform settings
              (.complete scope result.startId (result.phase = .rejected)) saving).1 :=
            still_perform _ saving sound fun _ _ _ => trivial
          split
          · exact same (still.trans (still_of_same rfl rfl rfl rfl rfl rfl rfl rfl rfl)) rfl rfl rfl rfl
          · exact same still rfl rfl rfl rfl
        · cases moved
  | cancel scope startId saving =>
      obtain rfl := Option.some.inj moved
      exact same (still_perform _ saving sound fun _ _ _ => trivial) rfl rfl rfl rfl
  | rollover round saving =>
      rw [Site.move] at moved
      split at moved
      · rename_i allowed
        obtain ⟨member, unsettled⟩ := allowed
        obtain rfl := Option.some.inj moved
        have respects : ∀ scope startId, w.Reserved scope startId → round = scope.round := by
          intro scope startId reserved
          rcases reserved.placed with ⟨same, inputs⟩ | ⟨-, all⟩
          · exact absurd (same ▸ inputs) unsettled
          · exact all round member
        have still := still_perform (.rollover round) saving sound respects
        refine same (still.trans ?_) rfl rfl rfl rfl
        refine ⟨⟨rfl, rfl, rfl, fun _ => id, fun _ => id, fun _ _ => Or.inr id⟩, ?_, fun _ => id⟩
        intro scope startId held
        rcases held with gone | reserved
        · exact Or.inl gone
        · refine Or.inr ⟨reserved.era, ?_, reserved.holds⟩
          rcases reserved.placed with ⟨same, inputs⟩ | ⟨-, all⟩
          · exact absurd (same ▸ inputs) unsettled
          · exact Or.inr ⟨rfl, all⟩
      · cases moved
  | refresh round =>
      rw [Site.move] at moved
      split at moved
      · rename_i allowed
        obtain rfl := Option.some.inj moved
        have still := still_refresh w round
        refine ⟨still, sound.still still ?_ ?_⟩
        · rintro r ⟨⟩
          exact ⟨rfl, List.mem_cons_self⟩
        · simp only
          split
          · exact allowed.2
          · rename_i changes
            rw [List.mem_cons, not_or]
            exact ⟨changes, allowed.2⟩
      · cases moved
  | tick time =>
      obtain rfl := Option.some.inj moved
      exact same (still_of_same rfl rfl rfl rfl rfl rfl rfl rfl rfl) rfl rfl rfl rfl
  | appears podId =>
      rw [Site.move] at moved
      split at moved
      · cases moved
      · obtain rfl := Option.some.inj moved
        exact same (still_of_same rfl rfl rfl rfl rfl rfl rfl rfl rfl) rfl rfl rfl rfl
  | fails podId | changes podId status | disappears podId =>
      obtain rfl := Option.some.inj moved
      exact same (still_of_same rfl rfl rfl rfl rfl rfl rfl rfl rfl) rfl rfl rfl rfl

/-! ## Requests -/

/-- A request that changes neither the operations nor an entry of the queue, nor creates a Pod. -/
def Request.still : Request → Bool
  | .remember _ _ | .forget _ | .create _ | .authorize _ _ | .releaseAuthorization _ _ | .useRound =>
      false
  | _ => true

theorem still_answer {w w' : Site} {q : Request} {c : SiteChoice}
    {reply : Except GatewayError q.Reply} (sound : w.Sound settings)
    (answered : w.answer settings q c = some (reply, w')) (harmless : q.still = true) :
    Still w w' ∧ w'.Sound settings := by
  have same : ∀ {v : Site}, Still w v → v.inputs = w.inputs → v.era = w.era → v.seen = w.seen →
      v.left = w.left → Still w v ∧ v.Sound settings := by
    intro v still inputs era seen left
    refine ⟨still, sound.still still ?_ ?_⟩
    · rw [inputs, era, seen]
      exact sound.inputs
    · rw [era, left]
      exact sound.fresh
  have unchanged : Still w w ∧ w.Sound settings := ⟨Still.refl w, sound⟩
  cases q with
  | remember | forget | create | authorize | releaseAuthorization | useRound => cases harmless
  | rename podId lifecycle =>
      cases c <;> simp only [Site.answer, Option.some.injEq, Prod.mk.injEq, reduceCtorEq] at answered
      all_goals
        obtain ⟨-, rfl⟩ := answered
        unfold Site.apply
        split
        · exact same (still_of_same rfl rfl rfl rfl rfl rfl rfl rfl rfl) rfl rfl rfl rfl
        · exact unchanged
  | delete podId =>
      cases c <;> simp only [Site.answer, Option.some.injEq, Prod.mk.injEq, reduceCtorEq] at answered
      all_goals
        obtain ⟨-, rfl⟩ := answered
        unfold Site.apply
        split
        · exact same (still_of_same rfl rfl rfl rfl rfl rfl rfl rfl rfl) rfl rfl rfl rfl
        · exact unchanged
  | list fresh =>
      cases c <;> simp only [Site.answer, Option.some.injEq, Prod.mk.injEq, reduceCtorEq] at answered
      all_goals
        obtain ⟨-, rfl⟩ := answered
        exact same (still_of_same rfl rfl rfl rfl rfl rfl rfl rfl rfl) rfl rfl rfl rfl
  | record scope result =>
      cases c <;> simp only [Site.answer, Option.some.injEq, Prod.mk.injEq, reduceCtorEq] at answered
      obtain ⟨-, rfl⟩ := answered
      exact same (still_of_same rfl rfl rfl rfl rfl rfl rfl rfl rfl) rfl rfl rfl rfl
  | requireRound scope =>
      cases c <;> simp only [Site.answer, Option.some.injEq, Prod.mk.injEq, reduceCtorEq] at answered
      · obtain ⟨-, rfl⟩ := answered
        exact unchanged
      · split at answered
        · obtain ⟨-, rfl⟩ := Prod.mk.inj (Option.some.inj answered)
          exact unchanged
        · cases answered
  | pick =>
      cases c <;> simp only [Site.answer, reduceCtorEq] at answered
      split at answered
      · obtain ⟨-, rfl⟩ := Prod.mk.inj (Option.some.inj answered)
        exact unchanged
      · split at answered
        · obtain ⟨-, rfl⟩ := Prod.mk.inj (Option.some.inj answered)
          exact unchanged
        · obtain ⟨-, rfl⟩ := Prod.mk.inj (Option.some.inj answered)
          exact unchanged
  | get _ | drain _ | select _ _ | revoked _ | clock | operations | pendingCreates | round | fence
  | member _ =>
      cases c <;> simp only [Site.answer, Option.some.injEq, Prod.mk.injEq, reduceCtorEq] at answered
      all_goals
        obtain ⟨-, rfl⟩ := answered
        exact unchanged

/-! ## Programs -/

def siteRules (settings : GatewaySettings) : Rules Site Request Request.Reply GatewayError where
  invariant := Site.Sound settings
  others w w' := ∃ m, w.move settings m = some w'
  answers w q reply w' := ∃ c, w.answer settings q c = some (reply, w')
  guarantee _ w' := w'.Sound settings

variable {α β : Type} {a : Allocator} {scope : Scope} {w : Site}

theorem still_later {w' : Site} (later : (siteRules settings).Later w w') : Still w w' :=
  later.preserves (fun _ _ sound ⟨_, moved⟩ still => still.trans (still_move sound moved).1)
    (Still.refl w)

theorem ensures_still {p : Process α} (asks : p.Asks fun q => q.still = true) (w : Site) :
    (siteRules settings).Ensures (fun _ w' => Still w w') p w := by
  refine Ensures.of_asks asks Still.refl (fun _ _ _ => Still.trans)
    (fun _ _ sound ⟨_, moved⟩ => (still_move sound moved).1) ?_
  rintro q harmless v reply v' sound ⟨c, answered⟩
  obtain ⟨still, sound'⟩ := still_answer sound answered harmless
  exact ⟨sound', still⟩

/-- The moment in which a request was answered. -/
structure Answered (settings : GatewaySettings) (w : Site) (q : Request)
    (reply : Except GatewayError q.Reply) (w' : Site) : Prop where
  moment : ∃ v v' c, Still w v ∧ v.Sound settings ∧ v.answer settings q c = some (reply, v') ∧
    Still v' w'
  still : Still w w'

theorem ensures_answered {q : Request} (harmless : q.still = true) (w : Site) :
    (siteRules settings).Ensures (Answered settings w q) (ask q) w := by
  refine Ensures.request ?_
  rintro v later sound reply v' ⟨c, answered⟩
  obtain ⟨still, sound'⟩ := still_answer sound answered harmless
  refine ⟨sound', ?_⟩
  intro v'' after _
  exact ⟨⟨v, v', c, still_later later, sound, answered, still_later after⟩,
    ((still_later later).trans still).trans (still_later after)⟩

/-- The program keeps the site sound. -/
def Fine (settings : GatewaySettings) (p : Process α) (w : Site) : Prop :=
  (siteRules settings).Ensures (fun _ _ => True) p w

theorem fine_of_asks {p : Process α} (asks : p.Asks fun q => q.still = true) (w : Site) :
    Fine settings p w :=
  (ensures_still asks w).mono fun _ _ _ _ => trivial

theorem fine_pure (x : α) (w : Site) : Fine settings (pure x) w := fun _ _ _ => trivial

theorem fine_throw (e : GatewayError) (w : Site) : Fine settings (throw e : Process α) w :=
  fun _ _ _ => trivial

/-- A program that is still, with what it leads to when it returns. -/
def Leads (settings : GatewaySettings) (post : α → Site → Prop) (p : Process α) (w : Site) : Prop :=
  (siteRules settings).Ensures (fun reply w' => Still w w' ∧ ∀ x, reply = .ok x → post x w') p w

theorem leads_of_asks {p : Process α} (asks : p.Asks fun q => q.still = true) (w : Site) :
    Leads settings (fun _ _ => True) p w :=
  (ensures_still asks w).mono fun _ _ _ still => ⟨still, fun _ _ => trivial⟩

theorem Leads.bind {p : Process α} {f : α → Process β} {mid : α → Site → Prop} {post : β → Site → Prop}
    (first : Leads settings mid p w)
    (rest : ∀ x v, v.Sound settings → Still w v → mid x v → Leads settings post (f x) v) :
    Leads settings post (p >>= f) w := by
  refine Ensures.bind first ?_ ?_
  · intro x v sound holds
    obtain ⟨still, returned⟩ := holds
    refine (rest x v sound still (returned x rfl)).mono ?_
    rintro reply v' - ⟨after, posted⟩
    exact ⟨still.trans after, posted⟩
  · rintro e v - ⟨still, -⟩
    exact ⟨still, nofun⟩

theorem leads_throw (e : GatewayError) (post : α → Site → Prop) :
    Leads settings post (throw e : Process α) w :=
  fun _ later _ => ⟨still_later later, nofun⟩

theorem Fine.of_leads {p : Process α} {f : α → Process β} {mid : α → Site → Prop}
    (first : Leads settings mid p w)
    (rest : ∀ x v, v.Sound settings → Still w v → mid x v → Fine settings (f x) v) :
    Fine settings (p >>= f) w :=
  Ensures.bind first (fun x v sound holds => rest x v sound holds.1 (holds.2 x rfl))
    fun _ _ _ _ => trivial

theorem Fine.after {p : Process α} {f : α → Process β} (asks : p.Asks fun q => q.still = true)
    (rest : ∀ x v, v.Sound settings → Still w v → Fine settings (f x) v) : Fine settings (p >>= f) w :=
  Fine.of_leads (leads_of_asks asks w) fun x v sound still _ => rest x v sound still

theorem Request.still_of_retires (q : Request) (retires : q.retires = true) : q.still = true := by
  cases q <;> first | rfl | cases retires

theorem Request.still_of_chooses (q : Request) (chooses : q.chooses = true) : q.still = true := by
  cases q <;> first | rfl | cases chooses

theorem Request.still_of_counts (q : Request) (counts : q.counts = true) : q.still = true := by
  cases q <;> first | rfl | cases counts

theorem asks_still (q : Request) (harmless : q.still = true) :
    (ask q).Asks fun q => q.still = true :=
  asks harmless

/-! ## Remembering an operation -/

theorem Site.Sound.remember (sound : w.Sound settings) {operation : Operation}
    (allowed : operation.submitted = true ∨ w.Free scope) :
    Site.Sound settings { w with operations := w.operations.set scope operation } where
  once := sound.once
  deployment := sound.deployment
  inputs := sound.inputs
  fresh := sound.fresh
  reserved key member := (sound.reserved key member).imp_right fun r => ⟨r.era, r.placed, r.holds⟩
  submitted key member := by
    rcases sound.submitted key member with gone | submits
    · exact Or.inl gone
    · by_cases same : key.1 = scope
      · rcases allowed with submitted | free
        · refine Or.inr fun _ o held => ?_
          rw [same, Dict.get_set_self] at held
          obtain rfl := Option.some.inj held
          exact submitted
        · rcases free key.2 (same ▸ member) with gone | absent
          · exact Or.inl (same ▸ gone)
          · exact Or.inr fun has => absurd (same ▸ has) absent
      · refine Or.inr fun has o held => submits has o ?_
        rwa [Dict.get_set_of_ne _ _ same] at held

/-- After the operation was written, and still steps before and after. -/
def Remembered (scope : Scope) (operation : Operation) (w w' : Site) : Prop :=
  ∃ v, Still w v ∧ Still { v with operations := v.operations.set scope operation } w'

theorem ensures_remember {operation : Operation} (allowed : operation.submitted = true ∨ w.Free scope) :
    (siteRules settings).Ensures (fun _ w' => Remembered scope operation w w')
      (ask (.remember scope operation)) w := by
  refine Ensures.request ?_
  rintro v later sound reply v' ⟨c, answered⟩
  cases c <;> simp only [Site.answer, Option.some.injEq, Prod.mk.injEq, reduceCtorEq] at answered
  obtain ⟨-, rfl⟩ := answered
  have still := still_later later
  refine ⟨sound.remember (allowed.imp_right fun free => free.steady still.toSteady), ?_⟩
  intro v'' after _
  exact ⟨v, still, still_later after⟩

theorem Remembered.get {operation : Operation} {w' : Site} (remembered : Remembered scope operation w w') :
    w'.operations.get scope = some operation := by
  obtain ⟨v, -, after⟩ := remembered
  rw [after.operations, Dict.get_set_self]

theorem Remembered.free {operation : Operation} {w' : Site} (remembered : Remembered scope operation w w')
    (free : w.Free scope) : w'.Free scope := by
  obtain ⟨v, before, after⟩ := remembered
  have here : Site.Free { v with operations := v.operations.set scope operation } scope :=
    fun startId member => free.steady before.toSteady startId member
  exact here.steady after.toSteady

theorem Remembered.reserves {operation : Operation} {w' : Site} {s : Scope} {startId : String}
    (remembered : Remembered scope operation w w') (reserves : w.Reserves s startId) :
    w'.Reserves s startId := by
  obtain ⟨v, before, after⟩ := remembered
  exact after.reserves _ _ ((before.reserves _ _ reserves).imp_right fun r => ⟨r.era, r.placed, r.holds⟩)

theorem Remembered.created {operation : Operation} {w' : Site}
    (remembered : Remembered scope operation w w') : w'.created = w.created := by
  obtain ⟨v, before, after⟩ := remembered
  exact after.created.trans before.created

theorem fine_remember {operation : Operation} (allowed : operation.submitted = true ∨ w.Free scope)
    (x : α) : Fine settings (do ask (.remember scope operation); pure x) w :=
  Ensures.bind (ensures_remember allowed) (fun _ _ _ _ => fine_pure x _) fun _ _ _ _ => trivial

/-! ## Reading what the process has -/

theorem leads_operations (w : Site) :
    Leads settings (fun operations w' => operations = w'.operations) (ask .operations) w := by
  refine (ensures_answered rfl w).mono ?_
  rintro reply w' - ⟨⟨v, v', c, -, -, answered, after⟩, still⟩
  refine ⟨still, ?_⟩
  rintro operations rfl
  cases c <;> simp only [Site.answer, Option.some.injEq, Prod.mk.injEq, Except.ok.injEq,
    reduceCtorEq] at answered
  obtain ⟨rfl, rfl⟩ := answered
  exact after.operations.symm

theorem leads_round (w : Site) :
    Leads settings (fun round w' => round = w'.round) (ask .round) w := by
  refine (ensures_answered rfl w).mono ?_
  rintro reply w' - ⟨⟨v, v', c, -, -, answered, after⟩, still⟩
  refine ⟨still, ?_⟩
  rintro round rfl
  cases c <;> simp only [Site.answer, Option.some.injEq, Prod.mk.injEq, Except.ok.injEq,
    reduceCtorEq] at answered
  obtain ⟨rfl, rfl⟩ := answered
  exact after.round.symm

/-- The round of the scope was that of the inputs, and is the last one unless it was left. -/
structure Required (scope : Scope) (w w' : Site) : Prop where
  moment : ∃ v, Still w v ∧ scope.round = v.era ∧ scope.round ∉ v.left ∧ Still v w'
  seen : scope.round ∈ w'.seen
  current : scope.round ∈ w'.left ∨ (scope.round = w'.era ∧ w'.inputs = some scope.round)

theorem leads_requireRound (w : Site) :
    Leads settings (fun _ w' => Required scope w w') (ask (.requireRound scope)) w := by
  refine (ensures_answered rfl w).mono ?_
  rintro reply w' - ⟨⟨v, v', c, before, sound, answered, after⟩, still⟩
  refine ⟨still, ?_⟩
  rintro u rfl
  have required : v.inputs = some scope.round ∧ v' = v := by
    cases c <;> simp only [Site.answer, Option.some.injEq, Prod.mk.injEq, reduceCtorEq,
      false_and] at answered
    split at answered
    · exact ⟨‹_›, (Prod.mk.inj (Option.some.inj answered)).2.symm⟩
    · cases answered
  obtain ⟨inputs, rfl⟩ := required
  obtain ⟨era, member⟩ := sound.inputs _ inputs
  exact ⟨⟨v', before, era, era ▸ sound.fresh, after⟩, after.seen _ member,
    after.current _ (Or.inr ⟨era, inputs⟩)⟩

/-! ## The authorization -/

/-- The create may be sent: it was not, and the journal knows that it will be. -/
structure Granted (scope : Scope) (startId : String) (w : Site) : Prop where
  unsent : (scope, startId) ∉ w.created
  reserves : w.Reserves scope startId

theorem Granted.still {startId : String} {w' : Site} (granted : Granted scope startId w)
    (still : Still w w') : Granted scope startId w' where
  unsent := still.created ▸ granted.unsent
  reserves := still.reserves _ _ granted.reserves

theorem Site.Reserved.round_of_seen {s : Scope} {startId : String} (reserved : w.Reserved s startId)
    (round : w.round = scope.round) (seen : scope.round ∈ w.seen) : scope.round = s.round := by
  rcases reserved.placed with ⟨same, -⟩ | ⟨-, all⟩
  · exact round.symm.trans same.symm
  · exact all _ seen

theorem StartQueue.perform_authorize {q : StartQueue} {queue : QueueSettings} {startId : String}
    {now : Rat} {saving : Saving}
    (authorized : (q.perform queue ⟨.authorize scope startId, now, saving⟩).2 = .ok ()) :
    ∃ state, (q.stored.loaded now).authorize queue scope startId now = .ok state ∧
      (q.perform queue ⟨.authorize scope startId, now, saving⟩).1 = ⟨state, state⟩ := by
  have performed := q.perform_performed queue ⟨.authorize scope startId, now, saving⟩
  rw [authorized] at performed
  generalize (q.perform queue ⟨.authorize scope startId, now, saving⟩).1 = after at performed
  cases performed with
  | unchanged _ none => exact absurd rfl (none scope startId rfl)
  | loaded op => cases op
  | saved state saving changed =>
      refine ⟨state, ?_, rfl⟩
      simp only [QueueOp.change] at changed
      cases granted : (q.stored.loaded now).authorize queue scope startId now with
      | error e =>
          rw [granted] at changed
          cases changed
      | ok t =>
          rw [granted] at changed
          obtain ⟨rfl, -⟩ := Prod.mk.inj (Except.ok.inj changed)
          rfl

theorem granted_of_authorize {startId : String} {saving : Saving} (sound : w.Sound settings)
    (round : w.round = scope.round)
    (current : scope.round ∈ w.left ∨ (scope.round = w.era ∧ w.inputs = some scope.round))
    (authorized : (w.perform settings (.authorize scope startId) saving).2 = .ok ()) :
    scope.round ∈ w.left ∨
      Granted scope startId (w.perform settings (.authorize scope startId) saving).1 := by
  rcases current with gone | ⟨era, inputs⟩
  · exact Or.inl gone
  refine Or.inr ?_
  obtain ⟨-, queueIs, answerIs⟩ := @Site.perform_fields settings w (.authorize scope startId) saving
  rw [answerIs] at authorized
  obtain ⟨state, granted, queue⟩ := StartQueue.perform_authorize authorized
  have spent := authorize_spends granted
  refine ⟨?_, Or.inr ⟨era, Or.inl ⟨round.symm, inputs⟩, ?_⟩⟩
  · intro sent
    rcases sound.reserved _ sent with gone | reserved
    · exact sound.fresh (era ▸ gone)
    · exact authorize_of_spent (spends_loaded reserved.holds.stored w.now).spent granted
  · rw [queueIs, queue]
    exact ⟨spent, spent.entry, id⟩

theorem leads_authorize {startId : String} (round : w.round = scope.round) (seen : scope.round ∈ w.seen)
    (current : scope.round ∈ w.left ∨ (scope.round = w.era ∧ w.inputs = some scope.round)) :
    Leads settings (fun _ w' => scope.round ∈ w'.left ∨ Granted scope startId w')
      (ask (.authorize scope startId)) w := by
  refine Ensures.request ?_
  rintro v later sound reply v' ⟨c, answered⟩
  have before := still_later later
  cases c <;> simp only [Site.answer, Option.some.injEq, Prod.mk.injEq, reduceCtorEq] at answered
  case raises applied e =>
    obtain ⟨rfl, rfl⟩ := answered
    exact ⟨sound, fun v'' after _ => ⟨before.trans (still_later after), nofun⟩⟩
  case saves saving =>
    obtain ⟨rfl, rfl⟩ := answered
    have vround : v.round = scope.round := before.round.trans round
    have still : Still v (v.perform settings (.authorize scope startId) saving).1 :=
      still_perform _ saving sound fun s _ reserved _ =>
        reserved.round_of_seen vround (before.seen _ seen)
    have forgets : Still (v.perform settings (.authorize scope startId) saving).1
        { (v.perform settings (.authorize scope startId) saving).1 with authorizedAt := v.now } :=
      still_of_same rfl rfl rfl rfl rfl rfl rfl rfl rfl
    refine ⟨sound.still (still.trans forgets) sound.inputs sound.fresh, ?_⟩
    intro v'' after _
    refine ⟨((before.trans still).trans forgets).trans (still_later after), ?_⟩
    intro u authorized
    have taken : (v.perform settings (.authorize scope startId) saving).2 = .ok () := by
      cases answer : (v.perform settings (.authorize scope startId) saving).2 with
      | ok u => rfl
      | error e => rw [answer] at authorized; cases authorized
    rcases granted_of_authorize sound vround (before.current _ current) taken with gone | granted
    · exact Or.inl ((still_later after).left _ gone)
    · exact Or.inr ((granted.still forgets).still (still_later after))

theorem asks_requireFence : requireFence.Asks fun q => q.still = true := by
  refine Prog.Asks.bind (asks_still .fence rfl) fun answer => ?_
  split
  · exact Prog.asks_pure ()
  · exact Prog.asks_throw _

theorem leads_authorizeCreate (startId : String) (w : Site) :
    Leads settings (fun _ w' => Granted scope startId w') (authorizeCreate scope startId) w := by
  refine (leads_round w).bind ?_
  rintro round w₁ - - round₁
  split
  · exact leads_throw _ _
  rename_i same
  have roundIs : w₁.round = scope.round := (round₁.symm).trans (not_not.mp same).symm
  refine (leads_of_asks asks_requireFence w₁).bind ?_
  intro _ w₂ _ still₂ _
  refine (leads_of_asks (asks_still (.member scope.hotkey) rfl) w₂).bind ?_
  intro _ w₃ _ still₃ _
  refine (leads_requireRound w₃).bind ?_
  intro _ w₄ _ still₄ required
  have round₄ : w₄.round = scope.round :=
    ((still₂.trans still₃).trans still₄).round.trans roundIs
  refine (leads_authorize round₄ required.seen required.current).bind ?_
  intro _ w₅ _ _ authorized
  refine (leads_of_asks asks_requireFence w₅).bind ?_
  intro _ w₆ _ still₆ _
  refine (leads_requireRound w₆).mono ?_
  rintro reply w₇ - ⟨still₇, again⟩
  refine ⟨still₇, ?_⟩
  intro u returned
  obtain ⟨v, before, -, stays, after⟩ := (again u returned).moment
  rcases authorized with gone | granted
  · exact absurd ((still₆.trans before).left _ gone) stays
  · exact ((granted.still still₆).still before).still after

/-! ## The create -/

/-- What is known when the create is sent. -/
structure Due (settings : GatewaySettings) (scope : Scope) (startId : String) (w : Site) : Prop where
  granted : Granted scope startId w
  deployment : scope.deployment = settings.deployment
  submitted : ∀ o, w.operations.get scope = some o → o.submitted = true

theorem Due.still {startId : String} {w' : Site} (due : Due settings scope startId w)
    (still : Still w w') : Due settings scope startId w' where
  granted := due.granted.still still
  deployment := due.deployment
  submitted := still.operations ▸ due.submitted

theorem Site.Sound.create {startId : String} (sound : w.Sound settings)
    (due : Due settings scope startId w) (hidden : List (Pod × Rat)) (used : List String) :
    Site.Sound settings { w with
      created := (scope, startId) :: w.created
      hidden
      used } where
  once := List.nodup_cons.mpr ⟨due.granted.unsent, sound.once⟩
  deployment := List.forall_mem_cons.mpr ⟨due.deployment, sound.deployment⟩
  inputs := sound.inputs
  fresh := sound.fresh
  reserved := by
    refine List.forall_mem_cons.mpr ⟨?_, ?_⟩
    · exact due.granted.reserves.imp_right fun r => ⟨r.era, r.placed, r.holds⟩
    · intro key member
      exact (sound.reserved key member).imp_right fun r => ⟨r.era, r.placed, r.holds⟩
  submitted := List.forall_mem_cons.mpr ⟨Or.inr fun _ => due.submitted, sound.submitted⟩

theorem fine_create {body : PodBody} (due : Due settings body.scope body.startId w) :
    Fine settings (Prog.outcome (ask (.create body))) w := by
  suffices Fine settings (ask (.create body)) w from Ensures.andThen this fun _ _ _ _ _ _ => trivial
  refine Ensures.request ?_
  rintro v later sound reply v' ⟨c, answered⟩
  cases c <;> simp only [Site.answer, Option.some.injEq, Prod.mk.injEq, reduceCtorEq] at answered
  obtain ⟨-, rfl⟩ := answered
  exact ⟨sound.create (due.still (still_later later)) _ _, fun _ _ _ => trivial⟩

theorem asks_reconcileIn_still (inventory : List Pod) :
    (reconcileIn a scope inventory).Asks fun q => q.still = true :=
  (asks_reconcileIn inventory).mono Request.still_of_chooses

theorem fine_dispatch {operation : Operation} (submitted : operation.submitted = true)
    (due : Due settings scope operation.session.startId w) :
    Fine settings (dispatch a scope operation) w := by
  refine Ensures.bind (fine_create due) ?_ fun _ _ _ _ => trivial
  intro reply w₁ _ _
  split
  · refine fine_remember ?_ _
    exact Or.inl submitted
  · split
    · exact fine_pure _ _
    · exact fine_throw _ _
  · split
    · exact fine_throw _ _
    · refine Fine.after (asks_still (.list true) rfl) fun inventory w₂ _ _ => ?_
      refine Fine.after (asks_reconcileIn_still inventory) fun found w₃ _ _ => ?_
      split
      · refine fine_remember ?_ _
        exact Or.inl submitted
      · exact fine_pure _ _

theorem fine_progress {operation : Operation} (deployment : scope.deployment = settings.deployment)
    (allowed : operation.submitted = true ∨ w.Free scope) :
    Fine settings (progress a scope operation) w := by
  refine Fine.after (asks_still (.list true) rfl) fun inventory w₁ _ still₁ => ?_
  have allowed₁ := allowed.imp_right fun free => free.steady still₁.toSteady
  split
  · refine Fine.after (asks_reconcileIn_still inventory) fun found w₂ _ still₂ => ?_
    split
    · exact fine_throw _ _
    · refine fine_remember ?_ _
      exact allowed₁.imp_right fun free => free.steady still₂.toSteady
  · split
    · exact fine_pure _ _
    · refine Fine.after ((asks_retireEarlier inventory).mono Request.still_of_retires)
        fun retired w₂ _ still₂ => ?_
      split
      · exact fine_pure _ _
      · refine Fine.after (asks_still (.list true) rfl) fun again w₃ _ still₃ => ?_
        refine Fine.after ((asks_checkAdmission again).mono Request.still_of_counts)
          fun _ w₄ _ still₄ => ?_
        refine Fine.of_leads (leads_authorizeCreate operation.session.startId w₄)
          fun _ w₅ _ still₅ granted => ?_
        refine Fine.after (asks_still .clock rfl) fun now w₆ _ still₆ => ?_
        refine Ensures.bind (ensures_remember (Or.inl rfl)) ?_ fun _ _ _ _ => trivial
        intro _ w₇ _ remembered
        refine fine_dispatch rfl ⟨?_, deployment, ?_⟩
        · have granted₆ := granted.still still₆
          exact ⟨remembered.created ▸ granted₆.unsent, remembered.reserves granted₆.reserves⟩
        · intro o present
          rw [remembered.get] at present
          obtain rfl := Option.some.inj present
          rfl

/-! ## The calls -/

theorem Site.Sound.free (sound : w.Sound settings) {operation : Operation}
    (present : w.operations.get scope = some operation) (unsent : operation.submitted = false) :
    w.Free scope := by
  intro startId member
  rcases sound.submitted _ member with gone | submits
  · exact Or.inl gone
  · refine Or.inr fun has => ?_
    rw [submits has operation present] at unsent
    cases unsent

theorem Site.Sound.allows (sound : w.Sound settings) {operation : Operation}
    (present : w.operations.get scope = some operation) :
    operation.submitted = true ∨ w.Free scope := by
  cases submitted : operation.submitted with
  | true => exact Or.inl rfl
  | false => exact Or.inr (sound.free present submitted)

theorem fine_current : Fine settings (current a scope) w := by
  refine Fine.after (asks_still (.list false) rfl) fun inventory w₁ _ _ => ?_
  refine Fine.of_leads (leads_operations w₁) fun operations w₂ sound₂ _ same => ?_
  subst same
  split
  · exact fine_pure _ _
  · rename_i operation present
    split
    · refine Fine.after (asks_still .clock rfl) fun now w₃ _ still₃ => ?_
      split
      · refine fine_remember ?_ _
        exact (sound₂.allows present).imp_right fun free => free.steady still₃.toSteady
      · split
        · exact fine_pure _ _
        · exact fine_pure _ _
    · exact fine_pure _ _

theorem asks_status (startId : String) : (status a scope startId).Asks fun q => q.still = true := by
  refine Prog.Asks.bind (asks_still (.list false) rfl) fun inventory => ?_
  split
  · exact Prog.asks_pure _
  · refine Prog.Asks.bind (asks_still .operations rfl) fun operations => ?_
    split
    · exact Prog.asks_pure _
    · split
      · exact Prog.asks_pure _
      · split
        · exact Prog.asks_pure _
        · refine Prog.Asks.bind (asks_still .clock rfl) fun now => ?_
          split
          · exact Prog.asks_pure _
          · exact Prog.asks_pure _

theorem fine_map {p : Process α} {f : α → β} (fine : Fine settings p w) : Fine settings (f <$> p) w :=
  Ensures.bind fine (fun _ _ _ _ => fine_pure _ _) fun _ _ _ _ => trivial

theorem fine_reconcile (deployment : scope.deployment = settings.deployment) :
    Fine settings (reconcile a scope) w := by
  refine Fine.of_leads (leads_operations w) fun operations w₁ sound₁ _ same => ?_
  subst same
  split
  · refine Fine.after (asks_still (.list true) rfl) fun inventory w₂ _ _ => ?_
    refine Fine.after (asks_reconcileIn_still inventory) fun found w₃ _ _ => ?_
    split
    · exact fine_pure _ _
    · exact fine_current
  · rename_i operation present
    split
    · exact fine_map (fine_progress deployment (sound₁.allows present))
    · refine Fine.after (asks_still (.list true) rfl) fun inventory w₂ _ still₂ => ?_
      refine Fine.after (asks_reconcileIn_still inventory) fun found w₃ _ still₃ => ?_
      split
      · split
        · refine fine_remember ?_ _
          exact (sound₁.allows present).imp_right fun free => free.steady (still₂.trans still₃).toSteady
        · exact fine_pure _ _
      · exact fine_current

theorem fine_begin {startId : String} {replaces : Option String} {pods : List Pod}
    (deployment : scope.deployment = settings.deployment) (free : w.Free scope) :
    Fine settings (begin a scope startId replaces pods) w := by
  refine Fine.after (asks_still .clock rfl) fun now w₁ _ still₁ => ?_
  refine Fine.after (asks_still .clock rfl) fun since w₂ _ still₂ => ?_
  have free₂ := free.steady (still₁.trans still₂).toSteady
  refine Ensures.bind (ensures_remember (Or.inr free₂)) ?_ fun _ _ _ _ => trivial
  intro _ w₃ _ remembered
  exact fine_progress deployment (Or.inr (remembered.free free₂))

theorem fine_acquire {startId : String} {replaces : Option String}
    (deployment : scope.deployment = settings.deployment) (free : w.Free scope) :
    Fine settings (acquire a scope startId replaces) w := by
  refine Fine.after (asks_still (.list true) rfl) fun inventory w₁ _ still₁ => ?_
  have free₁ := free.steady still₁.toSteady
  dsimp only
  split
  · split
    · exact fine_throw _ _
    · refine Fine.after (asks_reconcileIn_still inventory) fun found w₂ _ _ => ?_
      refine Fine.after (asks_status startId) fun found w₃ _ _ => ?_
      exact fine_pure _ _
  · refine Fine.of_leads (leads_operations w₁) fun operations w₂ sound₂ still₂ same => ?_
    subst same
    have free₂ := free₁.steady still₂.toSteady
    split
    · exact fine_begin deployment free₂
    · split
      · split
        · exact fine_throw _ _
        · refine Fine.after (asks_still .clock rfl) fun now w₃ _ still₃ => ?_
          split
          · exact fine_pure _ _
          · exact fine_progress deployment (Or.inr (free₂.steady still₃.toSteady))
      · split
        · refine Fine.after (asks_still .clock rfl) fun now w₃ _ still₃ => ?_
          split
          · exact fine_throw _ _
          · exact fine_begin deployment (free₂.steady still₃.toSteady)
        · exact fine_begin deployment free₂

/-! ## The entry that is next -/

/-- What holds of an entry that the worker took, until the world changes otherwise than steadily. -/
structure Picked (settings : GatewaySettings) (scope : Scope) (entry : PendingStart) (w : Site) :
    Prop where
  deployment : scope.deployment = settings.deployment
  round : w.round = scope.round
  seen : scope.round ∈ w.seen
  free : entry.submitted = false → w.Free scope
  sent : (scope, entry.startId) ∈ w.created → scope.round ∈ w.left ∨
    ∀ o, w.operations.get scope = some o → o.submitted = true

theorem Picked.steady {entry : PendingStart} {w' : Site} (picked : Picked settings scope entry w)
    (steady : Steady w w') : Picked settings scope entry w' where
  deployment := picked.deployment
  round := steady.round.trans picked.round
  seen := steady.seen _ picked.seen
  free unsubmitted := (picked.free unsubmitted).steady steady
  sent member := by
    rw [steady.operations]
    exact (picked.sent (steady.created ▸ member)).imp_left (steady.left _)

theorem Site.Sound.picked (sound : w.Sound settings) {hotkey : String} {entry : PendingStart}
    (present : w.journal.queue.memory.pending.get hotkey = some entry) (round : entry.round = w.round)
    (inputs : w.inputs = some w.round) :
    Picked settings ⟨settings.deployment, w.round, hotkey⟩ entry w where
  deployment := rfl
  round := rfl
  seen := (sound.inputs _ inputs).2
  free unsubmitted := by
    intro startId member
    refine (sound.reserved _ member).imp_right fun reserved => ?_
    rintro ⟨found, same, is⟩
    obtain rfl := Option.some.inj (present.symm.trans same)
    rw [reserved.holds.entry _ present is] at unsubmitted
    cases unsubmitted
  sent member := (sound.submitted _ member).imp_right fun submits =>
    submits ⟨entry, present, round, rfl⟩

theorem leads_pick (w : Site) :
    Leads settings (fun next w' => ∀ scope entry, next = some (scope, entry) →
      Picked settings scope entry w') (ask .pick) w := by
  refine (ensures_answered rfl w).mono ?_
  rintro reply w' - ⟨⟨v, v', c, -, sound, answered, after⟩, still⟩
  refine ⟨still, ?_⟩
  rintro next rfl scope entry rfl
  cases c <;> simp only [Site.answer, reduceCtorEq] at answered
  split at answered
  · simp at answered
  · rename_i found present
    split at answered
    · rename_i due
      simp only [Option.some.injEq, Prod.mk.injEq, Except.ok.injEq] at answered
      obtain ⟨⟨rfl, rfl⟩, rfl⟩ := answered
      exact (sound.picked present due.1 due.2).steady after.toSteady
    · simp at answered

theorem ensures_release {entry : PendingStart} {operation : Operation}
    (picked : Picked settings scope entry w) (present : w.operations.get scope = some operation)
    (unsent : operation.submitted = false) :
    (siteRules settings).Ensures (fun _ w' => Steady w w')
      (ask (.releaseAuthorization scope entry.startId)) w := by
  refine Ensures.request ?_
  rintro v later sound reply v' ⟨c, answered⟩
  have before := still_later later
  cases c <;> simp only [Site.answer, Option.some.injEq, Prod.mk.injEq, reduceCtorEq] at answered
  case raises applied e =>
    obtain ⟨-, rfl⟩ := answered
    exact ⟨sound, fun v'' after _ => (before.trans (still_later after)).toSteady⟩
  case saves saving =>
    obtain ⟨-, rfl⟩ := answered
    have now := picked.steady before.toSteady
    have steady := sound.perform (.releaseAuthorization scope entry.startId) saving ?_
    · exact ⟨steady.2, fun v'' after _ => (before.toSteady.trans steady.1).trans (still_later after).toSteady⟩
    · intro key member reserved hotkey
      have round : scope.round = key.1.round := reserved.round_of_seen now.round now.seen
      refine ⟨round, ?_⟩
      rintro same
      have deployment : scope.deployment = key.1.deployment :=
        now.deployment.trans (sound.deployment key member).symm
      have own : (scope, entry.startId) = key :=
        calc (scope, entry.startId)
            = (⟨scope.deployment, scope.round, scope.hotkey⟩, entry.startId) := rfl
          _ = (⟨key.1.deployment, key.1.round, key.1.hotkey⟩, key.2) := by
              rw [deployment, round, hotkey, same]
          _ = key := rfl
      rcases now.sent (own ▸ member) with gone | submits
      · exact sound.fresh (reserved.era ▸ round ▸ gone)
      · rw [submits operation (before.operations ▸ present)] at unsent
        cases unsent

theorem ensures_handBack {entry : PendingStart} (sound : w.Sound settings)
    (picked : Picked settings scope entry w) :
    (siteRules settings).Ensures (fun reply w' => reply = .ok false → w'.Free scope)
      (handBack scope entry (w.operations.get scope)) w := by
  unfold handBack
  split
  · rename_i handed
    rw [Bool.and_eq_true, Option.any_eq_true] at handed
    obtain ⟨-, operation, present, holds⟩ := handed
    have unsent : operation.submitted = false := by simpa using (Bool.and_eq_true_iff.mp holds).1
    refine Ensures.bind (ensures_release picked present unsent) ?_ ?_
    · intro _ v _ steady
      exact fun v' later _ _ =>
        ((sound.free present unsent).steady steady).steady (still_later later).toSteady
    · intro e v _ _ raised
      cases raised
  · intro v later _ kept
    cases submitted : entry.submitted with
    | true =>
        rw [submitted] at kept
        cases kept
    | false => exact (picked.free submitted).steady (still_later later).toSteady

theorem fine_advance {entry : PendingStart} (picked : Picked settings scope entry w) :
    Fine settings (advance a scope entry) w := by
  have deployment := picked.deployment
  refine Fine.after asks_requireFence fun _ w₁ _ still₁ => ?_
  refine Fine.after (asks_still (.member scope.hotkey) rfl) fun _ w₂ _ still₂ => ?_
  refine Fine.of_leads (leads_operations w₂) fun operations w₃ sound₃ still₃ same => ?_
  subst same
  have picked₃ := picked.steady ((still₁.trans still₂).trans still₃).toSteady
  refine Ensures.bind (ensures_handBack sound₃ picked₃) ?_ fun _ _ _ _ => trivial
  intro submitted w₄ _ free
  split
  · split
    · refine Fine.after (asks_still (.list false) rfl) fun inventory w₅ _ _ => ?_
      dsimp only
      split
      · exact fine_pure _ _
      · exact fine_reconcile deployment
    · exact fine_reconcile deployment
  · rename_i handed
    refine Fine.after (asks_still (.requireRound scope) rfl) fun _ w₅ _ still₅ => ?_
    split
    · exact fine_reconcile deployment
    · refine fine_map (fine_acquire deployment ?_)
      exact (free (congrArg _ (Bool.eq_false_of_not_eq_true handed))).steady still₅.toSteady

theorem fine_step : Fine settings (step a) w := by
  refine Fine.of_leads (leads_pick w) fun next w₁ _ _ picked => ?_
  split
  · exact fine_pure _ _
  · refine Ensures.bind (fine_advance (picked _ _ rfl)) ?_ fun _ _ _ _ => trivial
    intro result w₂ _ _
    split
    · exact fine_pure _ _
    · split
      · exact fine_of_asks (asks_still (.record _ _) rfl) _
      · exact fine_pure _ _

theorem fine_forget : Fine settings (ask (.forget scope)) w := by
  refine Ensures.request ?_
  rintro v later sound reply v' ⟨c, answered⟩
  cases c <;> simp only [Site.answer, Option.some.injEq, Prod.mk.injEq, reduceCtorEq] at answered
  obtain ⟨-, rfl⟩ := answered
  refine ⟨⟨sound.once, sound.deployment, sound.inputs, sound.fresh, ?_, ?_⟩, fun _ _ _ => trivial⟩
  · intro key member
    exact (sound.reserved key member).imp_right fun r => ⟨r.era, r.placed, r.holds⟩
  · intro key member
    refine (sound.submitted key member).imp_right fun submits has o present => submits has o ?_
    rw [Dict.get_erase] at present
    split at present
    · cases present
    · exact present

theorem fine_cancel {startId : String} : Fine settings (cancel scope startId) w := by
  refine Fine.of_leads (leads_operations w) fun operations w₁ _ _ _ => ?_
  split
  · exact fine_pure _ _
  · split
    · exact fine_forget
    · exact fine_pure _ _

theorem fine_useRound : Fine settings (ask .useRound) w := by
  refine Ensures.request ?_
  rintro v later sound reply v' ⟨c, answered⟩
  cases c <;> simp only [Site.answer, reduceCtorEq] at answered
  split at answered
  · cases answered
  · rename_i round inputs
    split at answered
    · simp only [Option.some.injEq, Prod.mk.injEq] at answered
      obtain ⟨-, rfl⟩ := answered
      obtain ⟨era, member⟩ := sound.inputs _ inputs
      refine ⟨⟨sound.once, sound.deployment, sound.inputs, sound.fresh, ?_, sound.submitted⟩,
        fun _ _ _ => trivial⟩
      intro key sent
      refine (sound.reserved key sent).imp_right fun r => ⟨r.era, ?_, r.holds⟩
      have same : key.1.round = round := r.era.trans era.symm
      exact Or.inl ⟨same, same ▸ inputs⟩
    · cases answered

theorem fine_body (k : WorkerCall) : Fine settings (k.body settings) w := by
  cases k with
  | step spec => exact fine_step
  | reconcile spec round hotkey =>
      exact Ensures.bind (fine_reconcile rfl) (fun _ _ _ _ => fine_pure _ _) fun _ _ _ _ => trivial
  | retire spec scope startId podId drain =>
      refine Fine.after ((asks_retire _ _ _).mono Request.still_of_retires) fun _ _ _ _ => ?_
      exact fine_pure _ _
  | cancel scope startId => exact fine_cancel
  | useRound => exact fine_useRound

/-! ## Runs -/

theorem Site.Sound.restart (sound : w.Sound settings) : (w.restart settings).Sound settings := by
  obtain ⟨-, loaded⟩ := sound.perform .load .saved fun _ _ _ => trivial
  refine ⟨loaded.once, loaded.deployment, nofun, loaded.fresh, ?_, ?_⟩
  · intro key member
    refine (loaded.reserved key member).imp_right fun r => ⟨r.era, ?_, r.holds⟩
    exact Or.inr ⟨rfl, nofun⟩
  · intro key member
    exact Or.inr fun _ o present => nomatch present

theorem gateway_follows :
    (gatewaySystem settings).Follows (siteRules settings) fun _ _ => True where
  move _ m w _ moved := ⟨m, moved⟩
  answer _ c _ _ _ _ _ _ answered := ⟨c, answered⟩
  body _ k _ _ := fine_body k
  restart _ sound := sound.restart
  others _ _ sound := fun ⟨_, moved⟩ => (still_move sound moved).2
  guarantee _ _ _ kept := kept

/-- A gateway that was never started; its journal may hold anything. -/
structure Site.Initial (w : Site) : Prop where
  unsent : w.created = []
  inputs : w.inputs = none
  fresh : w.era ∉ w.left

theorem Site.Initial.sound (initial : w.Initial) : w.Sound settings where
  once := initial.unsent ▸ List.nodup_nil
  deployment key member := by rw [initial.unsent] at member; cases member
  inputs round held := by rw [initial.inputs] at held; cases held
  fresh := initial.fresh
  reserved key member := by rw [initial.unsent] at member; cases member
  submitted key member := by rw [initial.unsent] at member; cases member

/-- In every run of one gateway process after another, at most one create is sent for each
connection of a scope. -/
theorem one_create {site : Site} (initial : site.Initial) {events : List GatewayEvent}
    {t : GatewayState} (ran : run (gatewaySystem settings).step ⟨site, none⟩ events = some t)
    (scope : Scope) (startId : String) : t.world.created.count (scope, startId) ≤ 1 := by
  have safe : State.Safe (siteRules settings) (⟨site, none⟩ : GatewayState) :=
    ⟨initial.sound, fun _ running => nomatch running⟩
  have final := gateway_follows.run (throughout_of_forall fun _ _ _ => trivial) ran safe
  exact List.nodup_iff_count_le_one.mp final.invariant.once _

/-- A gateway takes a round and the entry of a miner; the reply of its create is lost, it dies, and
the next process meets the entry again. -/
def lostReplyEvents : List GatewayEvent :=
  let takesRound : List GatewayEvent :=
    [.move (.refresh "round-1"), .move (.rollover "round-1" .saved), .call .useRound,
      .answer (.replies false), .leave]
  takesRound ++
    [.move (.enqueue "miner" "start-1" none .saved), .call (.step ⟨"image", "spec"⟩),
      .answer (.picks "miner"), .answer (.affirms true), .answer (.replies false),
      .answer (.replies false), .answer (.replies false), .answer (.lists []),
      .answer (.replies false), .answer (.replies false), .answer (.replies false),
      .answer (.replies false), .answer (.lists []), .answer (.lists []), .answer (.replies false),
      .answer (.replies false), .answer (.replies false), .answer (.affirms true),
      .answer (.replies false), .answer (.replies false), .answer (.saves .saved),
      .answer (.affirms true), .answer (.replies false), .answer (.replies false),
      .answer (.replies false), .answer (.creates none (.error .providerUnavailable)), .crash] ++
    takesRound ++
    [.call (.step ⟨"image", "spec"⟩), .answer (.picks "miner"), .answer (.affirms true),
      .answer (.replies false), .answer (.replies false), .answer (.lists [])]

theorem one_create_sample : ∃ t, run (gatewaySystem ⟨"subnet", 2, {}⟩).step ⟨{}, none⟩ lostReplyEvents =
    some t ∧ t.world.created.count (⟨"subnet", "round-1", "miner"⟩, "start-1") ≤ 1 := by
  obtain ⟨t, ran⟩ := Option.isSome_iff_exists.mp
    (by decide +kernel :
      (run (gatewaySystem ⟨"subnet", 2, {}⟩).step ⟨{}, none⟩ lostReplyEvents).isSome)
  exact ⟨t, ran, one_create ⟨rfl, rfl, List.not_mem_nil⟩ ran _ _⟩

end GenSubnet.Gateway
