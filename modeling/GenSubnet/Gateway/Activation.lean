import GenSubnet.Gateway.Allocator

/-!
# At most one active Pod

The allocator at a provider whose inventory is exact, while Pods appear, change their status and
disappear between any two requests: a scope never has two active Pods, and what is renamed to active
has outlived every Pod of another connection that the last listing showed.
-/

namespace GenSubnet.Gateway
open Library Library.Effects Library.Effects.Rules

structure Cloud where
  pods : List Pod := []
  /-- Every identifier that was ever given. -/
  used : List String := []
  /-- The last listing. -/
  listed : List Pod := []
  operations : Dict Scope Operation := .empty

inductive CloudMove
  | appears (pod : Pod)
  | changes (podId status : String)
  | disappears (podId : String)
deriving DecidableEq

/-- What the provider or a callback makes of a request. -/
inductive CloudChoice
  | raises (applied : Bool) (error : GatewayError)
  | replies (applied : Bool)
  | lists (pods : List Pod)
  | creates (pod : Pod)
  | affirms (answer : Bool)
  | tells (time : Rat)
  | reports (pending : List (Scope × String))
  | names (round : String)
deriving DecidableEq

def Cloud.ids (w : Cloud) : List String := w.pods.map Pod.id

def Cloud.change (w : Cloud) (podId : String) (f : Pod → Pod) : Cloud :=
  { w with pods := w.pods.map fun p => if p.id = podId then f p else p }

/-- The provider takes a name of the newer form. -/
def Pod.renamed (lifecycle : Lifecycle) (pod : Pod) : Pod :=
  { pod with lifecycle, legacyName := false }

def Cloud.remove (w : Cloud) (podId : String) : Cloud :=
  { w with pods := w.pods.filter fun p => p.id ≠ podId }

def Cloud.move (w : Cloud) : CloudMove → Option Cloud
  | .appears pod =>
      if pod.id ∉ w.used ∧ pod.lifecycle = .pending then
        some { w with pods := w.pods ++ [pod], used := pod.id :: w.used }
      else none
  | .changes podId status => some (w.change podId fun p => { p with status })
  | .disappears podId => some (w.remove podId)

/-- The effect of a request that may have been lost. -/
def Cloud.apply (w : Cloud) (applied : Bool) (effect : Cloud → Cloud) : Cloud :=
  if applied then effect w else w

def Cloud.answer (w : Cloud) :
    (q : Request) → CloudChoice → Option (Except GatewayError q.Reply × Cloud)
  | .list _, .lists pods => if pods.Perm w.pods then some (.ok pods, { w with listed := pods }) else none
  | .get podId, .replies _ => some (.ok (w.pods.find? fun p => p.id = podId), w)
  | .rename podId lifecycle, .replies applied =>
      some (.ok (), w.apply applied fun w => w.change podId (Pod.renamed lifecycle))
  | .rename podId lifecycle, .raises applied e =>
      some (.error e, w.apply applied fun w => w.change podId (Pod.renamed lifecycle))
  | .delete podId, .replies applied => some (.ok (), w.apply applied fun w => w.remove podId)
  | .delete podId, .raises applied e => some (.error e, w.apply applied fun w => w.remove podId)
  | .create _, .creates pod => some (.ok pod, w)
  | .drain _, .affirms answer | .revoked _, .affirms answer | .fence, .affirms answer => some (.ok answer, w)
  | .clock, .tells time => some (.ok time, w)
  | .operations, .replies _ => some (.ok w.operations, w)
  | .remember scope operation, .replies _ =>
      some (.ok (), { w with operations := w.operations.set scope operation })
  | .forget scope, .replies _ => some (.ok (), { w with operations := w.operations.erase scope })
  | .pendingCreates, .reports pending => some (.ok pending, w)
  | .round, .names round => some (.ok round, w)
  | .select _ _, .replies _ | .member _, .replies _ | .requireRound _, .replies _
  | .authorize _ _, .replies _ => some (.ok (), w)
  | .operations, .raises _ _ | .remember _ _, .raises _ _ | .forget _, .raises _ _ => none
  | _, .raises _ e => some (.error e, w)
  | _, _ => none

inductive AllocatorCall
  | acquire (a : Allocator) (scope : Scope) (startId : String) (replaces : Option String)
  | reconcile (a : Allocator) (scope : Scope)
  | retire (a : Allocator) (scope : Scope) (startId podId : String) (drain : Bool)

def AllocatorCall.body : AllocatorCall → Process (Option Session)
  | .acquire a scope startId replaces => some <$> Gateway.acquire a scope startId replaces
  | .reconcile a scope => Gateway.reconcile a scope
  | .retire a scope startId podId drain => some <$> Gateway.retire a scope startId podId drain

def allocatorSystem : System Cloud Request Request.Reply GatewayError (Option Session) CloudMove
    CloudChoice AllocatorCall where
  move := Cloud.move
  answer := Cloud.answer
  body := AllocatorCall.body
  restart w := { w with operations := .empty }

/-! ## What may happen to the Pods -/

def Cloud.OneActive (w : Cloud) : Prop :=
  ∀ p ∈ w.pods, ∀ q ∈ w.pods, ∀ scope, p.scope = some scope → q.scope = some scope →
    p.lifecycle = .active → q.lifecycle = .active → p.id = q.id

/-- One Pod for each identifier, and none that was not given. -/
structure Cloud.Identified (w : Cloud) : Prop where
  distinct : w.ids.Nodup
  used : ∀ p ∈ w.pods, p.id ∈ w.used

structure Cloud.Tidy (w : Cloud) : Prop where
  identified : w.Identified
  listed : ∀ p ∈ w.listed, p.id ∈ w.used
  oneActive : w.OneActive

/-- One Pod at two times. -/
structure Pod.Continues (before after : Pod) : Prop where
  id : before.id = after.id
  scope : before.scope = after.scope
  startId : before.startId = after.startId
  active : after.lifecycle = .active → before.lifecycle = .active

/-- No Pod becomes active, and none comes back. -/
structure Quiet (w w' : Cloud) : Prop where
  listed : w'.listed = w.listed
  used : ∀ podId ∈ w.used, podId ∈ w'.used
  identified : w.Identified → w'.Identified
  pods : ∀ p ∈ w'.pods, (∃ before ∈ w.pods, before.Continues p) ∨
    (p.id ∉ w.used ∧ p.lifecycle ≠ .active)

/-- The Pods of other connections that the last listing showed are gone. -/
def Cloud.OthersGone (w : Cloud) (pod : Pod) : Prop :=
  ∀ q ∈ w.pods, q.scope = pod.scope → q.startId ≠ pod.startId → q.id ∉ w.listed.map Pod.id

/-- No Pod of the scope is active. -/
def Cloud.NoneActive (w : Cloud) (scope : Option Scope) : Prop :=
  ∀ q ∈ w.pods, q.scope = scope → q.lifecycle ≠ .active

inductive CloudStep (w w' : Cloud) : Prop
  | quiet (quiet : Quiet w w')
  | lists (pods : List Pod) (exact : pods.Perm w.pods) (same : w' = { w with listed := pods })
  | activates (podId : String) (same : w' = w.change podId (Pod.renamed .active))
      (alone : ∀ pod ∈ w.pods, pod.id = podId → w.NoneActive pod.scope)
      (others : ∀ pod ∈ w.pods, pod.id = podId → w.OthersGone pod)

theorem Pod.continues_self (pod : Pod) : pod.Continues pod := ⟨rfl, rfl, rfl, fun active => active⟩

theorem Pod.Continues.trans {p q r : Pod} (first : p.Continues q) (second : q.Continues r) :
    p.Continues r :=
  ⟨first.id.trans second.id, first.scope.trans second.scope, first.startId.trans second.startId,
    fun active => first.active (second.active active)⟩

theorem Quiet.refl (w : Cloud) : Quiet w w where
  listed := rfl
  used _ member := member
  identified given := given
  pods p member := Or.inl ⟨p, member, p.continues_self⟩

theorem Quiet.trans {u v w : Cloud} (first : Quiet u v) (second : Quiet v w) : Quiet u w where
  listed := second.listed.trans first.listed
  used podId member := second.used podId (first.used podId member)
  identified given := second.identified (first.identified given)
  pods p member := by
    rcases second.pods p member with ⟨middle, middleIn, continues⟩ | ⟨unused, inactive⟩
    · rcases first.pods middle middleIn with ⟨before, beforeIn, earlier⟩ | ⟨unused, inactive⟩
      · exact Or.inl ⟨before, beforeIn, earlier.trans continues⟩
      · exact Or.inr ⟨continues.id ▸ unused, fun active => inactive (continues.active active)⟩
    · exact Or.inr ⟨fun used => unused (first.used _ used), inactive⟩

theorem Quiet.gone {w w' : Cloud} (quiet : Quiet w w') {podId : String} (used : podId ∈ w.used)
    (gone : podId ∉ w.ids) : podId ∉ w'.ids := by
  intro member
  obtain ⟨p, present, rfl⟩ := List.mem_map.mp member
  rcases quiet.pods p present with ⟨before, beforeIn, continues⟩ | ⟨unused, -⟩
  · exact gone (List.mem_map.mpr ⟨before, beforeIn, continues.id⟩)
  · exact unused used

theorem Cloud.Identified.change {w : Cloud} (given : w.Identified) (podId : String) {f : Pod → Pod}
    (keeps : ∀ p : Pod, (f p).id = p.id) : (w.change podId f).Identified := by
  have same : (w.change podId f).ids = w.ids := by
    rw [Cloud.ids, Cloud.change, List.map_map, Cloud.ids]
    refine List.map_congr_left ?_
    intro p _
    simp only [Function.comp_apply]
    split
    · exact keeps p
    · rfl
  refine ⟨same ▸ given.distinct, ?_⟩
  intro p member
  obtain ⟨before, beforeIn, rfl⟩ := List.mem_map.mp member
  have known := given.used before beforeIn
  split
  · exact (keeps before).symm ▸ known
  · exact known

theorem quiet_change (w : Cloud) (podId : String) (f : Pod → Pod) (keeps : ∀ p : Pod, p.Continues (f p)) :
    Quiet w (w.change podId f) where
  listed := rfl
  used _ member := member
  identified given := given.change podId fun p => (keeps p).id.symm
  pods p member := by
    obtain ⟨before, beforeIn, rfl⟩ := List.mem_map.mp member
    refine Or.inl ⟨before, beforeIn, ?_⟩
    split
    · exact keeps before
    · exact before.continues_self

theorem quiet_remove (w : Cloud) (podId : String) : Quiet w (w.remove podId) where
  listed := rfl
  used _ member := member
  identified given :=
    ⟨given.distinct.sublist (List.filter_sublist.map _),
      fun p member => given.used p (List.mem_filter.mp member).1⟩
  pods p member := Or.inl ⟨p, (List.mem_filter.mp member).1, p.continues_self⟩

theorem quiet_appears {w : Cloud} {pod : Pod} (fresh : pod.id ∉ w.used)
    (dormant : pod.lifecycle = .pending) :
    Quiet w { w with pods := w.pods ++ [pod], used := pod.id :: w.used } where
  listed := rfl
  used _ member := List.mem_cons_of_mem _ member
  identified given := by
    constructor
    · rw [Cloud.ids, List.map_append, List.map_singleton]
      refine List.Nodup.append given.distinct (List.nodup_singleton _) ?_
      intro podId old new
      obtain rfl := List.mem_singleton.mp new
      obtain ⟨p, present, same⟩ := List.mem_map.mp old
      exact fresh (same ▸ given.used p present)
    · intro p member
      rcases List.mem_append.mp member with old | new
      · exact List.mem_cons_of_mem _ (given.used p old)
      · obtain rfl := List.mem_singleton.mp new
        exact List.mem_cons_self
  pods p member := by
    rcases List.mem_append.mp member with old | new
    · exact Or.inl ⟨p, old, p.continues_self⟩
    · obtain rfl := List.mem_singleton.mp new
      exact Or.inr ⟨fresh, by rw [dormant]; decide⟩

theorem quiet_move {w w' : Cloud} {m : CloudMove} (moved : w.move m = some w') : Quiet w w' := by
  cases m with
  | appears pod =>
      rw [Cloud.move] at moved
      split at moved
      · rename_i allowed
        obtain rfl := Option.some.inj moved
        exact quiet_appears allowed.1 allowed.2
      · cases moved
  | changes podId status =>
      obtain rfl := Option.some.inj moved
      exact quiet_change w podId _ fun p => ⟨rfl, rfl, rfl, fun active => active⟩
  | disappears podId =>
      obtain rfl := Option.some.inj moved
      exact quiet_remove w podId

theorem quiet_rename (w : Cloud) (podId : String) (applied : Bool) {lifecycle : Lifecycle}
    (inactive : lifecycle ≠ .active) :
    Quiet w (w.apply applied fun w => w.change podId (Pod.renamed lifecycle)) := by
  cases applied with
  | false => exact Quiet.refl w
  | true => exact quiet_change w podId _ fun p => ⟨rfl, rfl, rfl, fun active => absurd active inactive⟩

theorem quiet_delete (w : Cloud) (podId : String) (applied : Bool) :
    Quiet w (w.apply applied fun w => w.remove podId) := by
  cases applied with
  | false => exact Quiet.refl w
  | true => exact quiet_remove w podId

/-- Neither a listing nor an activation. -/
def Request.quiet : Request → Bool
  | .list _ | .rename _ .active => false
  | _ => true

theorem quiet_answer {w w' : Cloud} {q : Request} {c : CloudChoice}
    {reply : Except GatewayError q.Reply} (answered : w.answer q c = some (reply, w'))
    (harmless : q.quiet = true) : Quiet w w' := by
  cases q with
  | list fresh => cases harmless
  | rename podId lifecycle =>
      have inactive : lifecycle ≠ .active := by
        rintro rfl
        cases harmless
      cases c <;> simp only [Cloud.answer, Option.some.injEq, Prod.mk.injEq, reduceCtorEq] at answered
      all_goals
        obtain ⟨-, rfl⟩ := answered
        exact quiet_rename w podId _ inactive
  | delete podId =>
      cases c <;> simp only [Cloud.answer, Option.some.injEq, Prod.mk.injEq, reduceCtorEq] at answered
      all_goals
        obtain ⟨-, rfl⟩ := answered
        exact quiet_delete w podId _
  | remember scope operation =>
      cases c <;> simp only [Cloud.answer, Option.some.injEq, Prod.mk.injEq, reduceCtorEq] at answered
      obtain ⟨-, rfl⟩ := answered
      exact ⟨rfl, fun _ member => member, fun given => ⟨given.distinct, given.used⟩, (Quiet.refl w).pods⟩
  | forget scope =>
      cases c <;> simp only [Cloud.answer, Option.some.injEq, Prod.mk.injEq, reduceCtorEq] at answered
      obtain ⟨-, rfl⟩ := answered
      exact ⟨rfl, fun _ member => member, fun given => ⟨given.distinct, given.used⟩, (Quiet.refl w).pods⟩
  | get _ | create _ | drain _ | select _ _ | revoked _ | clock | operations | pendingCreates | round
  | fence | member _ | requireRound _ | authorize _ _ | releaseAuthorization _ _ | pick | record _ _ | useRound =>
      cases c <;> simp only [Cloud.answer, Option.some.injEq, Prod.mk.injEq, reduceCtorEq] at answered
      all_goals
        obtain ⟨-, rfl⟩ := answered
        exact Quiet.refl _

/-! ## Programs that change no Pod but quietly -/

def cloudRules : Rules Cloud Request Request.Reply GatewayError where
  invariant := Cloud.Tidy
  others w w' := ∃ m, w.move m = some w'
  answers w q reply w' := ∃ c, w.answer q c = some (reply, w')
  guarantee := CloudStep

theorem quiet_later {w w' : Cloud} (later : cloudRules.Later w w') : Quiet w w' :=
  later.within Quiet.refl (fun _ _ _ => Quiet.trans) fun _ _ ⟨_, moved⟩ => quiet_move moved

/-- The program keeps the Pods quiet, whatever it returns. -/
def Calm {α : Type} (p : Process α) : Prop := ∀ w, cloudRules.Ensures (fun _ w' => Quiet w w') p w

/-- The program keeps the rules. -/
def Orderly {α : Type} (p : Process α) : Prop := ∀ w, cloudRules.Ensures (fun _ _ => True) p w

variable {α β : Type} {a : Allocator} {scope : Scope}

theorem calm_pure (x : α) : Calm (pure x) := fun _ => Ensures.pure fun _ later _ => quiet_later later

theorem calm_throw (e : GatewayError) : Calm (throw e : Process α) :=
  fun _ => Ensures.throw fun _ later _ => quiet_later later

theorem Calm.bind {p : Process α} {f : α → Process β} (first : Calm p) (rest : ∀ x, Calm (f x)) :
    Calm (p >>= f) := by
  intro w
  refine Ensures.bind (first w) ?_ fun e v _ quiet => quiet
  intro x v _ quiet
  exact (rest x v).mono fun _ v' _ next => quiet.trans next

theorem Calm.map {p : Process α} (calm : Calm p) (f : α → β) : Calm (f <$> p) :=
  calm.bind fun x => calm_pure (f x)

theorem Calm.tryCatch {p : Process α} {handler : GatewayError → Process α} (calm : Calm p)
    (handled : ∀ e, Calm (handler e)) : Calm (tryCatch p handler) := by
  intro w
  refine Ensures.tryCatch (calm w) (fun x v _ quiet => quiet) ?_
  intro e v _ quiet
  exact (handled e v).mono fun _ v' _ next => quiet.trans next

theorem Calm.orderly {p : Process α} (calm : Calm p) : Orderly p :=
  fun w => (calm w).mono fun _ _ _ _ => trivial

theorem Orderly.bind {p : Process α} {f : α → Process β} (first : Orderly p)
    (rest : ∀ x, Orderly (f x)) : Orderly (p >>= f) :=
  fun w => Ensures.bind (first w) (fun x v _ _ => rest x v) fun _ _ _ _ => trivial

theorem orderly_pure (x : α) : Orderly (pure x) := (calm_pure x).orderly

theorem ensures_ask {w : Cloud} {q : Request} {post : Except GatewayError q.Reply → Cloud → Prop}
    (harmless : q.quiet = true)
    (replied : ∀ v v' reply c, Quiet w v → v.answer q c = some (reply, v') →
      ∀ v'', Quiet v' v'' → Quiet w v'' → post reply v'') :
    cloudRules.Ensures post (ask q) w := by
  refine Ensures.request ?_
  rintro v later kept reply v' ⟨c, answered⟩
  have before := quiet_later later
  have during := quiet_answer answered harmless
  refine ⟨.quiet during, ?_⟩
  intro v'' after _
  exact replied v v' reply c before answered v'' (quiet_later after)
    ((before.trans during).trans (quiet_later after))

theorem calm_ask (q : Request) (harmless : q.quiet = true) : Calm (ask q) :=
  fun _ => ensures_ask harmless fun _ _ _ _ _ _ _ _ quiet => quiet

theorem Request.quiet_of_retires (q : Request) (retires : q.retires = true) : q.quiet = true := by
  cases q with
  | rename podId lifecycle =>
      cases lifecycle with
      | active => cases retires
      | pending | draining | drained => rfl
  | _ => first | rfl | cases retires

theorem Request.quiet_of_counts (q : Request) (counts : q.counts = true) : q.quiet = true := by
  cases q <;> first | rfl | cases counts

theorem calm_of_asks {p : Process α} (asks : p.Asks fun q => q.quiet = true) : Calm p := by
  intro w
  refine Ensures.of_asks asks Quiet.refl (fun _ _ _ => Quiet.trans)
    (fun _ _ _ ⟨_, moved⟩ => quiet_move moved) ?_
  rintro q harmless v reply v' - ⟨c, answered⟩
  have quiet := quiet_answer answered harmless
  exact ⟨.quiet quiet, quiet⟩

theorem orderly_list (fresh : Bool) : Orderly (ask (.list fresh)) := by
  intro w
  refine Ensures.request ?_
  rintro v later kept reply v' ⟨c, answered⟩
  refine ⟨?_, fun _ _ _ => trivial⟩
  cases c <;> simp only [Cloud.answer, Option.some.injEq, Prod.mk.injEq, reduceCtorEq] at answered
  · obtain ⟨-, rfl⟩ := answered
    exact .quiet (Quiet.refl v)
  · split at answered
    · rename_i isExact
      simp only [Option.some.injEq, Prod.mk.injEq] at answered
      exact .lists _ isExact answered.2.symm
    · cases answered

theorem calm_unconfirmed {p : Process Unit} (calm : Calm p) : Calm (unconfirmed p) := by
  refine calm.tryCatch ?_
  intro e
  split
  · exact calm_pure ()
  · exact calm_throw e

/-! ## Retirement -/

/-- A session of a Pod that was found gone says so. -/
def Retired (podId : String) (w : Cloud) (r : Except GatewayError Session) (w' : Cloud) : Prop :=
  Quiet w w' ∧ ∀ session, r = .ok session → session.phase = .retired → podId ∈ w.used → podId ∉ w'.ids

theorem Retired.of_quiet {podId : String} {u v w : Cloud} {r : Except GatewayError Session}
    (quiet : Quiet u v) (retired : Retired podId v r w) : Retired podId u r w :=
  ⟨quiet.trans retired.1, fun session returned phase used =>
    retired.2 session returned phase (quiet.used _ used)⟩

theorem ensures_get (w : Cloud) (podId : String) :
    cloudRules.Ensures (fun r w' => Quiet w w' ∧ (r = .ok none → podId ∈ w.used → podId ∉ w'.ids) ∧
      ∀ p, r = .ok (some p) → p.id = podId) (ask (.get podId)) w := by
  refine ensures_ask rfl ?_
  intro v v' reply c before answered v'' after quiet
  refine ⟨quiet, ?_, ?_⟩
  · rintro rfl used
    cases c <;> simp only [Cloud.answer, Option.some.injEq, Prod.mk.injEq, reduceCtorEq, false_and] at answered
    obtain ⟨none, rfl⟩ := answered
    refine after.gone (before.used _ used) ?_
    intro member
    obtain ⟨p, present, same⟩ := List.mem_map.mp member
    have found := List.find?_eq_none.mp (Except.ok.inj none) p present
    exact found (decide_eq_true same)
  · rintro p rfl
    cases c <;> simp only [Cloud.answer, Option.some.injEq, Prod.mk.injEq, reduceCtorEq, false_and] at answered
    have found := Except.ok.inj answered.1
    have holds := List.find?_some found
    exact of_decide_eq_true holds

theorem ensures_rename (w : Cloud) (pod : Pod) {lifecycle : Lifecycle} (inactive : lifecycle ≠ .active) :
    cloudRules.Ensures (fun r w' => Quiet w w' ∧ ∀ p, r = .ok p → p.id = pod.id)
      (rename pod lifecycle) w := by
  have harmless : (Request.rename pod.id lifecycle).quiet = true := by
    cases lifecycle with
    | active => exact absurd rfl inactive
    | pending | draining | drained => rfl
  have throws : ∀ (e : GatewayError) (v : Cloud), Quiet w v → cloudRules.Ensures
      (fun (r : Except GatewayError Pod) w' => Quiet w w' ∧ ∀ p, r = .ok p → p.id = pod.id) (throw e) v :=
    fun e v quiet => Ensures.throw fun v' later _ => ⟨quiet.trans (quiet_later later), nofun⟩
  have returns : ∀ (p : Pod) (v : Cloud), Quiet w v → p.id = pod.id → cloudRules.Ensures
      (fun (r : Except GatewayError Pod) w' => Quiet w w' ∧ ∀ p, r = .ok p → p.id = pod.id) (pure p) v := by
    intro p v quiet same
    refine Ensures.pure fun v' later _ => ⟨quiet.trans (quiet_later later), ?_⟩
    rintro _ ⟨⟩
    exact same
  unfold rename
  split
  · exact throws _ w (Quiet.refl w)
  · refine Ensures.bind (ensures_get w pod.id) ?_ fun e v _ got => ⟨got.1, nofun⟩
    rintro (_ | current) v - ⟨quiet, -, own⟩
    · exact throws _ v quiet
    · dsimp only
      split_ifs
      · exact throws _ v quiet
      · exact returns current v quiet (own current rfl)
      · exact throws _ v quiet
      · refine Ensures.bind (calm_unconfirmed (calm_ask _ harmless) v) ?_
          fun e v' _ renamed => ⟨quiet.trans renamed, nofun⟩
        rintro ⟨⟩ v' - renamed
        refine Ensures.bind (ensures_get v' pod.id) ?_
          fun e v'' _ got => ⟨(quiet.trans renamed).trans got.1, nofun⟩
        rintro (_ | actual) v'' - ⟨again, -, own⟩
        · exact throws _ v'' ((quiet.trans renamed).trans again)
        · dsimp only
          split_ifs
          · exact throws _ v'' ((quiet.trans renamed).trans again)
          · exact returns actual v'' ((quiet.trans renamed).trans again) (own actual rfl)

theorem ensures_discard (w : Cloud) (original : Session) (pod : Pod) :
    cloudRules.Ensures (Retired pod.id w) (discard original pod) w := by
  unfold discard
  refine Ensures.bind (calm_unconfirmed (calm_ask _ rfl) w) ?_ ?_
  · rintro ⟨⟩ v - deleted
    refine Ensures.bind (ensures_get v pod.id) ?_ ?_
    · rintro (_ | pod') v' - ⟨quiet, gone, -⟩
      · refine Ensures.pure fun v'' later _ => ⟨(deleted.trans quiet).trans (quiet_later later), ?_⟩
        rintro _ ⟨⟩ - used
        exact (quiet_later later).gone ((deleted.trans quiet).used _ used)
          (gone rfl (deleted.used _ used))
      · refine Ensures.pure fun v'' later _ => ⟨(deleted.trans quiet).trans (quiet_later later), ?_⟩
        rintro _ ⟨⟩ phase
        cases phase
    · rintro e v' - ⟨quiet, -, -⟩
      exact ⟨deleted.trans quiet, nofun⟩
  · intro e v _ quiet
    exact ⟨quiet, nofun⟩

theorem calm_quiesce (drain : Bool) (pod : Pod) : Calm (quiesce drain pod) := by
  unfold quiesce
  split
  · exact calm_ask _ rfl
  · exact calm_pure true

theorem ensures_retire (w : Cloud) (startId podId : String) (drain : Bool) :
    cloudRules.Ensures (Retired podId w) (retire a scope startId podId drain) w := by
  unfold retire
  refine Ensures.bind (ensures_get w podId) ?_ fun e v _ got => ⟨got.1, nofun⟩
  rintro (_ | pod) v - ⟨quiet, gone, own⟩
  · refine Ensures.pure fun v' later _ => ⟨quiet.trans (quiet_later later), ?_⟩
    rintro _ ⟨⟩ - used
    exact (quiet_later later).gone (quiet.used _ used) (gone rfl used)
  · obtain rfl := own pod rfl
    dsimp only
    split
    · exact Ensures.throw fun v' later _ => ⟨quiet.trans (quiet_later later), nofun⟩
    · refine Ensures.bind (calm_ask (.select pod false) rfl v) ?_
        fun e v' _ selected => ⟨quiet.trans selected, nofun⟩
      rintro ⟨⟩ v' - selected
      have here := quiet.trans selected
      split
      · exact (ensures_discard v' pod.session pod).mono fun _ _ _ retired => retired.of_quiet here
      · refine Ensures.bind (ensures_rename v' pod (by decide)) ?_
          fun e u _ renamed => ⟨here.trans renamed.1, nofun⟩
        rintro draining u - ⟨renamed, same⟩
        refine Ensures.bind (calm_quiesce drain draining u) ?_ fun e u' _ drained => ⟨(here.trans renamed).trans drained, nofun⟩
        rintro quieted u' - drained
        have there := (here.trans renamed).trans drained
        split
        · refine Ensures.pure fun u'' later _ => ⟨there.trans (quiet_later later), ?_⟩
          rintro _ ⟨⟩ phase
          cases phase
        · refine Ensures.bind (ensures_rename u' draining (by decide)) ?_
            fun e t _ renamed => ⟨there.trans renamed.1, nofun⟩
          rintro last t - ⟨again, still⟩
          have lastId : last.id = pod.id := (still last rfl).trans (same draining rfl)
          refine (ensures_discard t pod.session last).mono ?_
          intro r t' _ retired
          rw [lastId] at retired
          exact retired.of_quiet (there.trans again)

theorem calm_retire (startId podId : String) (drain : Bool) :
    Calm (retire a scope startId podId drain) :=
  fun w => (ensures_retire w startId podId drain).mono fun _ _ _ retired => retired.1

theorem ensures_retireOthers (winner : Pod) (pods : List Pod) (w : Cloud) :
    cloudRules.Ensures (fun r w' => Quiet w w' ∧ ∀ pod ∈ pods, r = .ok false → pod.id ≠ winner.id →
      pod.startId ≠ winner.startId → pod.id ∈ w.used → pod.id ∉ w'.ids)
      (retireOthers a scope winner pods) w := by
  induction pods generalizing w with
  | nil =>
      refine Ensures.pure fun v later _ => ⟨quiet_later later, ?_⟩
      intro pod member
      cases member
  | cons first rest ih =>
      rw [retireOthers]
      split_ifs with own
      · refine (ih w).mono ?_
        rintro r v - ⟨quiet, gone⟩
        refine ⟨quiet, ?_⟩
        rintro pod member free other
        rcases List.mem_cons.mp member with rfl | member
        · exact absurd own other
        · exact gone pod member free other
      · have raised (e : GatewayError) {w' : Cloud} (quiet : Quiet w w') : Quiet w w' ∧ ∀ pod ∈ first :: rest,
            (Except.error e : Except GatewayError Bool) = .ok false → pod.id ≠ winner.id →
              pod.startId ≠ winner.startId → pod.id ∈ w.used → pod.id ∉ w'.ids := by
          refine ⟨quiet, fun pod _ free => ?_⟩
          cases free
        refine Ensures.bind (ensures_retire w first.startId first.id true) ?_
          fun e v _ retired => raised e retired.1
        rintro session v - retired
        refine Ensures.bind (ih v) ?_ fun e v' _ rest => raised e (retired.1.trans rest.1)
        rintro blocked v' - ⟨quiet, gone⟩
        refine Ensures.pure fun v'' later _ =>
          ⟨(retired.1.trans quiet).trans (quiet_later later), ?_⟩
        intro pod member free other differs used
        have free := Bool.or_eq_false_iff.mp (Except.ok.inj free)
        rcases List.mem_cons.mp member with rfl | member
        · have phase : session.phase = .retired := by simpa [differs] using free.1
          exact (quiet.trans (quiet_later later)).gone (retired.1.used _ used)
            (retired.2 session rfl phase used)
        · exact (quiet_later later).gone ((retired.1.trans quiet).used _ used)
            (gone pod member (congrArg _ free.2) other differs (retired.1.used _ used))

/-! ## Activation -/

theorem winner_spec {pods : List Pod} {pod : Pod} (wins : winner pods = some pod) :
    pod ∈ pods ∧ (pod.lifecycle ≠ .active →
      ∀ q ∈ pods, q.startId = pod.startId → q.lifecycle ≠ .active) := by
  rw [winner] at wins
  split at wins
  · cases wins
  · rename_i start chosen
    have least := List.argmin_mem wins
    have member : pod ∈ pods ∧ pod.startId = start := by
      split_ifs at least with none viable
      · exact ⟨(List.mem_filter.mp (List.mem_filter.mp least).1).1,
          of_decide_eq_true (List.mem_filter.mp (List.mem_filter.mp least).1).2⟩
      · exact ⟨(List.mem_filter.mp (List.mem_filter.mp least).1).1,
          of_decide_eq_true (List.mem_filter.mp (List.mem_filter.mp least).1).2⟩
      · exact ⟨(List.mem_filter.mp least).1, of_decide_eq_true (List.mem_filter.mp least).2⟩
    refine ⟨member.1, ?_⟩
    intro inactive q present same active
    have copy : q ∈ (pods.filter fun p => p.startId = start).filter fun p => p.lifecycle = .active :=
      List.mem_filter.mpr ⟨List.mem_filter.mpr ⟨present, decide_eq_true (same.trans member.2)⟩,
        decide_eq_true active⟩
    rw [if_pos (List.ne_nil_of_mem copy)] at least
    exact inactive (of_decide_eq_true (List.mem_filter.mp least).2)

/-- The inventory is the last listing, and nothing but quiet steps came after it. -/
def Shown (inventory : List Pod) (w : Cloud) : Prop :=
  ∃ listing : Cloud, listing.listed = inventory ∧ inventory.Perm listing.pods ∧
    listing.Identified ∧ Quiet listing w

theorem Shown.quiet {inventory : List Pod} {w w' : Cloud} (shown : Shown inventory w)
    (quiet : Quiet w w') : Shown inventory w' := by
  obtain ⟨listing, same, isExact, identified, before⟩ := shown
  exact ⟨listing, same, isExact, identified, before.trans quiet⟩

theorem Shown.used {inventory : List Pod} {w : Cloud} (shown : Shown inventory w) {p : Pod}
    (member : p ∈ inventory) : p.id ∈ w.used := by
  obtain ⟨listing, rfl, isExact, identified, quiet⟩ := shown
  exact quiet.used _ (identified.used p (isExact.mem_iff.mp member))

theorem Shown.eq_of_id {inventory : List Pod} {w : Cloud} (shown : Shown inventory w) {p q : Pod}
    (left : p ∈ inventory) (right : q ∈ inventory) (same : p.id = q.id) : p = q := by
  obtain ⟨listing, rfl, isExact, identified, quiet⟩ := shown
  exact List.inj_on_of_nodup_map identified.distinct (isExact.mem_iff.mp left)
    (isExact.mem_iff.mp right) same

theorem ensures_list (w : Cloud) (fresh : Bool) :
    cloudRules.Ensures (fun r w' => ∀ inventory, r = .ok inventory → Shown inventory w')
      (ask (.list fresh)) w := by
  refine Ensures.request ?_
  rintro v later kept reply v' ⟨c, answered⟩
  cases c <;> simp only [Cloud.answer, Option.some.injEq, Prod.mk.injEq, reduceCtorEq] at answered
  · obtain ⟨rfl, rfl⟩ := answered
    exact ⟨.quiet (Quiet.refl v), nofun⟩
  · split at answered
    · rename_i pods isExact
      obtain ⟨rfl, rfl⟩ := Prod.mk.inj (Option.some.inj answered)
      refine ⟨.lists _ isExact rfl, ?_⟩
      rintro v'' after - inventory ⟨⟩
      exact ⟨{ v with listed := pods }, rfl, isExact,
        ⟨kept.identified.distinct, kept.identified.used⟩, quiet_later after⟩
    · cases answered

/-- From here on the Pod can be activated, if it is still there. -/
def Ready (pod : Pod) (w : Cloud) : Prop :=
  ∀ p ∈ w.pods, p.id = pod.id → w.NoneActive p.scope ∧ w.OthersGone p

theorem ready_of_shown {inventory : List Pod} {w : Cloud} {pod : Pod} (shown : Shown inventory w)
    (wins : winner (owned inventory scope) = some pod) (dormant : pod.lifecycle = .pending)
    (gone : ∀ q ∈ owned inventory scope, q.startId ≠ pod.startId → q.id ∉ w.ids) : Ready pod w := by
  obtain ⟨listing, rfl, isExact, identified, quiet⟩ := shown
  obtain ⟨member, alone⟩ := winner_spec wins
  obtain ⟨present, ownScope⟩ := List.mem_filter.mp member
  have ownScope := of_decide_eq_true ownScope
  have dormant : pod.lifecycle ≠ .active := by rw [dormant]; decide
  -- a Pod that was listed is the same Pod now
  have listedIs : ∀ p ∈ w.pods, ∀ q ∈ listing.listed, q.id = p.id → q.Continues p := by
    intro p present q shown same
    rcases quiet.pods p present with ⟨before, beforeIn, continues⟩ | ⟨unused, -⟩
    · obtain rfl := List.inj_on_of_nodup_map identified.distinct beforeIn (isExact.mem_iff.mp shown)
        (continues.id.trans same.symm)
      exact continues
    · exact absurd (same ▸ identified.used q (isExact.mem_iff.mp shown)) unused
  intro p here same
  have continues := listedIs p here pod present same.symm
  have inScope : p.scope = some scope := continues.scope.symm.trans ownScope
  constructor
  · intro q there sameScope active
    rcases quiet.pods q there with ⟨before, beforeIn, earlier⟩ | ⟨-, inactive⟩
    · have copy : before ∈ owned listing.listed scope := by
        refine List.mem_filter.mpr ⟨isExact.mem_iff.mpr beforeIn, decide_eq_true ?_⟩
        exact earlier.scope.trans (sameScope.trans inScope)
      by_cases own : before.startId = pod.startId
      · exact alone dormant before copy own (earlier.active active)
      · exact gone before copy own (List.mem_map.mpr ⟨q, there, earlier.id.symm⟩)
    · exact inactive active
  · intro q there sameScope differs listedId
    rw [quiet.listed] at listedId
    obtain ⟨before, shown, sameId⟩ := List.mem_map.mp listedId
    have earlier := listedIs q there before shown sameId
    have copy : before ∈ owned listing.listed scope := by
      refine List.mem_filter.mpr ⟨shown, decide_eq_true ?_⟩
      exact earlier.scope.trans (sameScope.trans inScope)
    refine gone before copy ?_ (List.mem_map.mpr ⟨q, there, sameId.symm⟩)
    rw [earlier.startId, continues.startId]
    exact differs

theorem orderly_activation {w : Cloud} {pod : Pod} (ready : ∀ v, Quiet w v → Ready pod v) :
    cloudRules.Ensures (fun _ _ => True) (ask (.rename pod.id .active)) w := by
  refine Ensures.request ?_
  rintro v later kept reply v' ⟨c, answered⟩
  refine ⟨?_, fun _ _ _ => trivial⟩
  have step : ∀ applied, CloudStep v (v.apply applied fun v => v.change pod.id (Pod.renamed .active)) := by
    intro applied
    cases applied with
    | false => exact .quiet (Quiet.refl v)
    | true =>
        have here := ready v (quiet_later later)
        exact .activates pod.id rfl (fun p member same => (here p member same).1)
          fun p member same => (here p member same).2
  cases c <;> simp only [Cloud.answer, Option.some.injEq, Prod.mk.injEq, reduceCtorEq] at answered
  all_goals
    obtain ⟨-, rfl⟩ := answered
    exact step _

theorem orderly_unconfirmed {p : Process Unit} {w : Cloud}
    (orderly : cloudRules.Ensures (fun _ _ => True) p w) :
    cloudRules.Ensures (fun _ _ => True) (unconfirmed p) w := by
  refine Ensures.tryCatch orderly (fun _ _ _ _ => trivial) ?_
  intro e v _ _
  split
  · exact Ensures.pure fun _ _ _ => trivial
  · exact Ensures.throw fun _ _ _ => trivial

theorem orderly_rename {w : Cloud} {pod : Pod} (ready : ∀ v, Quiet w v → Ready pod v) :
    cloudRules.Ensures (fun _ _ => True) (rename pod .active) w := by
  have throws : ∀ (e : GatewayError) (v : Cloud),
      cloudRules.Ensures (fun (_ : Except GatewayError Pod) _ => True) (throw e) v :=
    fun e v => Ensures.throw fun _ _ _ => trivial
  have returns : ∀ (p : Pod) (v : Cloud),
      cloudRules.Ensures (fun (_ : Except GatewayError Pod) _ => True) (pure p) v :=
    fun p v => Ensures.pure fun _ _ _ => trivial
  unfold rename
  split
  · exact throws _ w
  · refine Ensures.bind (calm_ask (.get pod.id) rfl w) ?_ fun _ _ _ _ => trivial
    rintro (_ | found) v - quiet
    · exact throws _ v
    · dsimp only
      split_ifs
      · exact throws _ v
      · exact returns found v
      · exact throws _ v
      · have ready' : ∀ u, Quiet v u → Ready pod u := fun u next => ready u (quiet.trans next)
        refine Ensures.bind (orderly_unconfirmed (orderly_activation ready')) ?_ fun _ _ _ _ => trivial
        rintro ⟨⟩ v' - -
        refine Ensures.bind (calm_ask (.get pod.id) rfl v') ?_ fun _ _ _ _ => trivial
        rintro (_ | actual) v'' - -
        · exact throws _ v''
        · dsimp only
          split_ifs
          · exact throws _ v''
          · exact returns actual v''

theorem calm_outgoing (pod : Pod) : Calm (outgoing pod) := by
  unfold outgoing
  split
  · exact calm_pure true
  · exact calm_ask _ rfl

theorem calm_serve (pod : Pod) : Calm (serve pod) :=
  Calm.bind (calm_ask _ rfl) fun _ => calm_pure pod.session

theorem orderly_reconcileIn {inventory : List Pod} {w : Cloud} (shown : Shown inventory w) :
    cloudRules.Ensures (fun _ _ => True) (reconcileIn a scope inventory) w := by
  unfold reconcileIn
  split
  · exact Ensures.pure fun _ _ _ => trivial
  · rename_i pod wins
    refine Ensures.bind (ensures_retireOthers pod (owned inventory scope) w) ?_ fun _ _ _ _ => trivial
    rintro blocked v - ⟨retiring, gone⟩
    refine Ensures.bind (calm_outgoing pod v) ?_ fun _ _ _ _ => trivial
    rintro out v' - checked
    have retires : Orderly (some <$> retire a scope pod.startId pod.id true) :=
      ((calm_retire pod.startId pod.id true).map some).orderly
    split
    · exact retires v'
    · split
      · rename_i dormant
        split
        · exact Ensures.pure fun _ _ _ => trivial
        · rename_i free
          split
          · exact retires v'
          · refine Ensures.bind (calm_ask (.select pod true) rfl v') ?_ fun _ _ _ _ => trivial
            rintro ⟨⟩ u - selected
            have quiet := (retiring.trans checked).trans selected
            have ready : ∀ t, Quiet u t → Ready pod t := by
              intro t next
              refine ready_of_shown (shown.quiet (quiet.trans next)) wins dormant ?_
              intro q copy differs
              have listed := (List.mem_filter.mp copy).1
              have other : q.id ≠ pod.id := fun same => differs (congrArg Pod.startId
                (shown.eq_of_id listed (List.mem_filter.mp (winner_spec wins).1).1 same))
              refine ((checked.trans selected).trans next).gone (retiring.used _ (shown.used listed)) ?_
              exact gone q copy (congrArg _ (Bool.eq_false_iff.mpr free)) other differs (shown.used listed)
            refine Ensures.bind (orderly_rename ready) ?_ fun _ _ _ _ => trivial
            rintro active t - -
            exact ((calm_serve active).map some).orderly t
      · exact ((calm_serve pod).map some).orderly v'

/-! ## The calls -/

theorem orderly_listing {fresh : Bool} {f : List Pod → Process α}
    (rest : ∀ inventory w, Shown inventory w → cloudRules.Ensures (fun _ _ => True) (f inventory) w) :
    Orderly (ask (.list fresh) >>= f) :=
  fun w => Ensures.bind (ensures_list w fresh)
    (fun inventory v _ shown => rest inventory v (shown inventory rfl)) fun _ _ _ _ => trivial

theorem orderly_throw (e : GatewayError) : Orderly (throw e : Process α) := (calm_throw e).orderly

theorem orderly_remember (operation : Operation) (x : α) :
    Orderly (do ask (.remember scope operation); pure x) :=
  (Calm.bind (calm_ask _ rfl) fun _ => calm_pure x).orderly

theorem calm_requireFence : Calm requireFence := by
  refine Calm.bind (calm_ask _ rfl) fun live => ?_
  split
  · exact calm_pure ()
  · exact calm_throw _

theorem calm_authorizeCreate (startId : String) : Calm (authorizeCreate scope startId) := by
  refine Calm.bind (calm_ask _ rfl) fun round => ?_
  split
  · exact calm_throw _
  · refine calm_requireFence.bind fun _ => ?_
    refine Calm.bind (calm_ask _ rfl) fun _ => ?_
    refine Calm.bind (calm_ask _ rfl) fun _ => ?_
    refine Calm.bind (calm_ask _ rfl) fun _ => ?_
    exact calm_requireFence.bind fun _ => calm_ask _ rfl

theorem Calm.outcome {p : Process α} (calm : Calm p) : Calm (Prog.outcome p) :=
  fun w => Ensures.andThen (calm w) fun _ _ quiet => fun v later kept => quiet v later kept

theorem orderly_dispatch (operation : Operation) : Orderly (dispatch a scope operation) := by
  refine Orderly.bind (Calm.outcome (calm_ask _ rfl)).orderly fun created => ?_
  split
  · exact orderly_remember _ _
  · split
    · exact orderly_pure _
    · exact orderly_throw _
  · split
    · exact orderly_throw _
    · refine orderly_listing fun inventory v shown => ?_
      refine Ensures.bind (orderly_reconcileIn shown) ?_ fun _ _ _ _ => trivial
      rintro (_ | actual) v' - -
      · exact orderly_pure _ v'
      · exact orderly_remember _ _ v'

theorem orderly_progress (operation : Operation) : Orderly (progress a scope operation) := by
  refine orderly_listing fun inventory w shown => ?_
  split
  · refine Ensures.bind (orderly_reconcileIn shown) ?_ fun _ _ _ _ => trivial
    rintro (_ | actual) v - -
    · exact orderly_throw _ v
    · exact orderly_remember _ _ v
  · split
    · exact orderly_pure _ w
    · have earlier : Calm (retireEarlier a scope inventory) :=
        calm_of_asks ((asks_retireEarlier inventory).mono Request.quiet_of_retires)
      refine Orderly.bind earlier.orderly (fun retired => ?_) w
      split
      · exact orderly_pure _
      · refine Orderly.bind (orderly_list true) fun listing => ?_
        have checks : Calm (checkAdmission a scope listing) :=
          calm_of_asks ((asks_checkAdmission listing).mono Request.quiet_of_counts)
        refine Orderly.bind checks.orderly fun _ => ?_
        refine Orderly.bind (calm_authorizeCreate _).orderly fun _ => ?_
        refine Orderly.bind (calm_ask .clock rfl).orderly fun now => ?_
        exact Orderly.bind (calm_ask _ rfl).orderly fun _ => orderly_dispatch _

theorem orderly_current : Orderly (current a scope) := by
  refine Orderly.bind (orderly_list false) fun inventory => ?_
  refine Orderly.bind (calm_ask .operations rfl).orderly fun operations => ?_
  split
  · exact orderly_pure _
  · split
    · refine Orderly.bind (calm_ask .clock rfl).orderly fun now => ?_
      split
      · exact orderly_remember _ _
      · split
        · exact orderly_pure _
        · exact orderly_pure _
    · exact orderly_pure _

theorem orderly_status (startId : String) : Orderly (status a scope startId) := by
  refine Orderly.bind (orderly_list false) fun inventory => ?_
  split
  · exact orderly_pure _
  · refine Orderly.bind (calm_ask .operations rfl).orderly fun operations => ?_
    split
    · exact orderly_pure _
    · split_ifs
      · exact orderly_pure _
      · exact orderly_pure _
      · refine Orderly.bind (calm_ask .clock rfl).orderly fun now => ?_
        split
        · exact orderly_pure _
        · exact orderly_pure _

theorem orderly_reconcile : Orderly (reconcile a scope) := by
  refine Orderly.bind (calm_ask .operations rfl).orderly fun operations => ?_
  split
  · refine orderly_listing fun inventory v shown => ?_
    refine Ensures.bind (orderly_reconcileIn shown) ?_ fun _ _ _ _ => trivial
    rintro (_ | actual) v' - -
    · exact orderly_current v'
    · exact orderly_pure _ v'
  · split
    · exact Orderly.bind (orderly_progress _) fun session => orderly_pure _
    · refine orderly_listing fun inventory v shown => ?_
      refine Ensures.bind (orderly_reconcileIn shown) ?_ fun _ _ _ _ => trivial
      rintro (_ | actual) v' - -
      · exact orderly_current v'
      · dsimp only
        split
        · exact orderly_remember _ _ v'
        · exact orderly_pure _ v'

theorem orderly_begin (startId : String) (replaces : Option String) (pods : List Pod) :
    Orderly (begin a scope startId replaces pods) := by
  refine Orderly.bind (calm_ask .clock rfl).orderly fun now => ?_
  refine Orderly.bind (calm_ask .clock rfl).orderly fun since => ?_
  exact Orderly.bind (calm_ask _ rfl).orderly fun _ => orderly_progress _

theorem orderly_acquire (startId : String) (replaces : Option String) :
    Orderly (acquire a scope startId replaces) := by
  refine orderly_listing fun inventory w shown => ?_
  dsimp only
  split
  · split
    · exact orderly_throw _ w
    · refine Ensures.bind (orderly_reconcileIn shown) ?_ fun _ _ _ _ => trivial
      rintro actual v - -
      exact Orderly.bind (orderly_status startId) (fun found => orderly_pure _) v
  · refine Orderly.bind (calm_ask .operations rfl).orderly (fun operations => ?_) w
    split
    · exact orderly_begin _ _ _
    · split_ifs
      · exact orderly_throw _
      · refine Orderly.bind (calm_ask .clock rfl).orderly fun now => ?_
        split
        · exact orderly_pure _
        · exact orderly_progress _
      · refine Orderly.bind (calm_ask .clock rfl).orderly fun now => ?_
        split
        · exact orderly_throw _
        · exact orderly_begin _ _ _
      · exact orderly_begin _ _ _

theorem orderly_body (call : AllocatorCall) : Orderly call.body := by
  cases call with
  | acquire a scope startId replaces =>
      exact Orderly.bind (orderly_acquire startId replaces) fun session => orderly_pure _
  | reconcile a scope => exact orderly_reconcile
  | retire a scope startId podId drain => exact ((calm_retire startId podId drain).map some).orderly

/-! ## Every run -/

theorem Cloud.Tidy.quiet {w w' : Cloud} (tidy : w.Tidy) (quiet : Quiet w w') : w'.Tidy where
  identified := quiet.identified tidy.identified
  listed p member := quiet.used _ (tidy.listed p (quiet.listed ▸ member))
  oneActive := by
    intro p left q right scope ownP ownQ activeP activeQ
    rcases quiet.pods p left with ⟨p₀, leftBefore, continuesP⟩ | ⟨-, inactive⟩
    · rcases quiet.pods q right with ⟨q₀, rightBefore, continuesQ⟩ | ⟨-, inactive⟩
      · rw [← continuesP.id, ← continuesQ.id]
        exact tidy.oneActive p₀ leftBefore q₀ rightBefore scope (continuesP.scope.trans ownP)
          (continuesQ.scope.trans ownQ) (continuesP.active activeP) (continuesQ.active activeQ)
      · exact absurd activeQ inactive
    · exact absurd activeP inactive

theorem Cloud.Tidy.step {w w' : Cloud} (tidy : w.Tidy) (step : CloudStep w w') : w'.Tidy := by
  cases step with
  | quiet quiet => exact tidy.quiet quiet
  | lists pods isExact same =>
      subst same
      exact ⟨⟨tidy.identified.distinct, tidy.identified.used⟩,
        fun p member => tidy.identified.used p (isExact.mem_iff.mp member), tidy.oneActive⟩
  | activates podId same alone others =>
      subst same
      refine ⟨tidy.identified.change podId fun p => rfl, tidy.listed, ?_⟩
      intro p left q right scope ownP ownQ activeP activeQ
      obtain ⟨p₀, leftBefore, rfl⟩ := List.mem_map.mp left
      obtain ⟨q₀, rightBefore, rfl⟩ := List.mem_map.mp right
      by_cases isP : p₀.id = podId
      · by_cases isQ : q₀.id = podId
        · simp [isP, isQ, Pod.renamed]
        · simp only [isP, isQ, if_true, if_false, Pod.renamed] at ownP ownQ activeQ
          exact absurd activeQ (alone p₀ leftBefore isP q₀ rightBefore (ownQ.trans ownP.symm))
      · by_cases isQ : q₀.id = podId
        · simp only [isP, isQ, if_true, if_false, Pod.renamed] at ownP ownQ activeP
          exact absurd activeP (alone q₀ rightBefore isQ p₀ leftBefore (ownP.trans ownQ.symm))
        · simp only [isP, isQ, if_false] at ownP ownQ activeP activeQ ⊢
          exact tidy.oneActive p₀ leftBefore q₀ rightBefore scope ownP ownQ activeP activeQ

theorem allocator_follows : allocatorSystem.Follows cloudRules fun _ _ => True where
  move _ m _ _ moved := ⟨m, moved⟩
  answer _ c _ _ _ _ _ _ answered := ⟨c, answered⟩
  body s k _ _ := orderly_body k s.world
  restart w tidy := ⟨⟨tidy.identified.distinct, tidy.identified.used⟩, tidy.listed, tidy.oneActive⟩
  others w w' tidy := fun ⟨_, moved⟩ => tidy.quiet (quiet_move moved)
  guarantee w w' tidy step := tidy.step step

abbrev AllocatorState := State Cloud Request Request.Reply GatewayError (Option Session)

abbrev AllocatorEvent := Event CloudMove CloudChoice AllocatorCall

/-- The step renames the Pod to active. -/
def Activated (s t : AllocatorState) (pod : Pod) : Prop :=
  pod ∈ t.world.pods ∧ pod.lifecycle = .active ∧
    ∀ p ∈ s.world.pods, p.id = pod.id → p.lifecycle ≠ .active

theorem not_activated_of_quiet {s t : AllocatorState} {pod : Pod} (quiet : Quiet s.world t.world) :
    ¬ Activated s t pod := by
  rintro ⟨member, active, fresh⟩
  rcases quiet.pods pod member with ⟨before, beforeIn, continues⟩ | ⟨-, inactive⟩
  · exact fresh before beforeIn continues.id (continues.active active)
  · exact inactive active

theorem othersGone_of_activated {s t : AllocatorState} {pod : Pod}
    (moved : Effects.Moved cloudRules allocatorSystem.restart s.world t.world)
    (activated : Activated s t pod) : s.world.OthersGone pod := by
  cases moved with
  | stays same => exact absurd activated (not_activated_of_quiet (same ▸ Quiet.refl _))
  | others move =>
      obtain ⟨m, moved⟩ := move
      exact absurd activated (not_activated_of_quiet (quiet_move moved))
  | restart crashed =>
      obtain ⟨member, active, fresh⟩ := activated
      rw [crashed] at member
      exact absurd active (fresh pod member rfl)
  | guarantee step =>
      cases step with
      | quiet quiet => exact absurd activated (not_activated_of_quiet quiet)
      | lists pods isExact same =>
          obtain ⟨member, active, fresh⟩ := activated
          rw [same] at member
          exact absurd active (fresh pod member rfl)
      | activates podId same alone others =>
          obtain ⟨member, active, fresh⟩ := activated
          rw [same] at member
          obtain ⟨before, beforeIn, rfl⟩ := List.mem_map.mp member
          split
          · exact others before beforeIn ‹_›
          · rename_i other
            rw [if_neg other] at active fresh
            exact absurd active (fresh before beforeIn rfl)

/-- No scope has two active Pods, and every Pod of another connection that the last listing showed is
gone when a Pod is renamed to active. -/
theorem one_active_pod {w : Cloud} (tidy : w.Tidy) {events : List AllocatorEvent} {s : AllocatorState}
    (ran : run allocatorSystem.step ⟨w, none⟩ events = some s) :
    s.world.OneActive ∧ ∀ event t pod, allocatorSystem.step s event = some t → Activated s t pod →
      s.world.OthersGone pod := by
  have safe : State.Safe cloudRules s :=
    allocator_follows.run (throughout_of_forall fun _ _ _ => trivial) ran ⟨tidy, nofun⟩
  refine ⟨safe.invariant.oneActive, ?_⟩
  intro event t pod stepped activated
  exact othersGone_of_activated (allocator_follows.step safe trivial stepped).2 activated

/-! ## A Pod that appears after the listing -/

def dormantPod (podId startId : String) (epochNs : Nat) : Pod where
  id := podId
  scope := some ⟨"subnet", "round-1", "miner"⟩
  startId := startId
  podSpec := "spec"
  epochNs := epochNs
  image := "image"

def lateCloud : Cloud where
  pods := [dormantPod "first" "start-1" 1]
  used := ["first"]

def lateEvents : List AllocatorEvent :=
  [.call (.reconcile ⟨⟨"image", "spec"⟩, none, 600⟩ ⟨"subnet", "round-1", "miner"⟩),
    .answer (.replies true), .answer (.lists [dormantPod "first" "start-1" 1]),
    .move (.appears (dormantPod "second" "start-2" 2)), .answer (.affirms false),
    .answer (.replies true), .answer (.replies true)]

theorem lateCloud_tidy : lateCloud.Tidy where
  identified := ⟨by decide, by decide⟩
  listed := nofun
  oneActive := by
    intro p left q right _ _ _ _ _
    rw [List.mem_singleton.mp left, List.mem_singleton.mp right]

theorem one_active_pod_sample : ∃ s, run allocatorSystem.step ⟨lateCloud, none⟩ lateEvents = some s ∧
    s.world.OneActive ∧ ∀ event t pod, allocatorSystem.step s event = some t → Activated s t pod →
      s.world.OthersGone pod := by
  obtain ⟨s, ran⟩ := Option.isSome_iff_exists.mp
    (by decide +kernel : (run allocatorSystem.step ⟨lateCloud, none⟩ lateEvents).isSome)
  exact ⟨s, ran, one_active_pod lateCloud_tidy ran⟩

theorem late_run :
    ((run allocatorSystem.step ⟨lateCloud, none⟩ lateEvents).bind fun s =>
      (allocatorSystem.step s (.answer (.replies true))).map fun t => (s.world.pods, t.world.pods)) =
    some ([dormantPod "first" "start-1" 1, dormantPod "second" "start-2" 2],
      [{ dormantPod "first" "start-1" 1 with lifecycle := .active }, dormantPod "second" "start-2" 2]) := by
  decide +kernel

/-- A Pod is renamed to active while one of another connection is there. -/
theorem late_pod_not_awaited : ¬ ∀ w : Cloud, w.Tidy → ∀ (events : List AllocatorEvent) s event t pod,
    run allocatorSystem.step ⟨w, none⟩ events = some s → allocatorSystem.step s event = some t →
      Activated s t pod → ∀ q ∈ s.world.pods, q.scope = pod.scope → q.startId = pod.startId := by
  intro claim
  obtain ⟨s, ran, stepped⟩ := Option.bind_eq_some_iff.mp late_run
  obtain ⟨t, stepped, pods⟩ := Option.map_eq_some_iff.mp stepped
  obtain ⟨before, after⟩ := Prod.mk.inj pods
  have activated : Activated s t { dormantPod "first" "start-1" 1 with lifecycle := .active } := by
    rw [Activated, before, after]
    decide
  have same := claim lateCloud lateCloud_tidy lateEvents s _ t _ ran stepped activated
    (dormantPod "second" "start-2" 2) (by rw [before]; decide) rfl
  exact absurd same (by decide)

end GenSubnet.Gateway
