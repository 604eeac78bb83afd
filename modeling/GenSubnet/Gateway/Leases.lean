import GenSubnet.Gateway.Rounds
import Mathlib.Tactic.Linarith

/-!
# Generation is admitted by a lease

A policy admits generation for less than the time to live after the head of the branch was read, when
that revision was in generation and published the inputs that are admitted. With a deadline, the lease
also ends before the estimated time of its block.
-/

namespace GenSubnet.Gateway.Rounds
open Library Library.Effects Competition Auth Rules

/-! ## What a revision publishes -/

/-- The prompt comes from an image that was served. -/
def Shows (settings : Settings) (served : List (String × List UInt8)) (revision storagePrefix value : String)
    (prompt : PromptImage) : Prop :=
  ∃ url data, settings.imageUrl value revision = some url ∧ (url, data) ∈ served ∧
    prompt = settings.promptImage value url storagePrefix data

/-- The revision publishes these inputs for the round of its state. -/
structure Publishes (settings : Settings) (served : List (String × List UInt8)) (revision : String)
    (number : Int) (name : String) (inputs : RoundInputs) : Prop where
  config : (settings.commits revision).config = some name
  files : ∃ schedule seed urls prompts,
    (settings.commits revision).schedule number = some schedule ∧
    (settings.commits revision).seed number = some seed ∧
    (settings.commits revision).prompts number = some urls ∧
    List.Forall₂ (Shows settings served revision schedule.2.1) urls prompts ∧
    inputs = settings.roundInputs revision name number schedule seed prompts
  valid : inputs.Valid

variable {settings : Settings}

theorem Shows.grow {served more : List (String × List UInt8)} {revision storagePrefix value : String}
    {prompt : PromptImage} (shows : Shows settings served revision storagePrefix value prompt)
    (grows : served ⊆ more) : Shows settings more revision storagePrefix value prompt := by
  obtain ⟨url, data, is, member, same⟩ := shows
  exact ⟨url, data, is, grows member, same⟩

theorem Publishes.grow {served more : List (String × List UInt8)} {revision name : String} {number : Int}
    {inputs : RoundInputs} (publishes : Publishes settings served revision number name inputs)
    (grows : served ⊆ more) : Publishes settings more revision number name inputs where
  config := publishes.config
  files := by
    obtain ⟨schedule, seed, urls, prompts, schedules, seeds, lists, shows, same⟩ := publishes.files
    exact ⟨schedule, seed, urls, prompts, schedules, seeds, lists,
      shows.imp fun _ _ shown => shown.grow grows, same⟩
  valid := publishes.valid

/-- The fingerprint is that of what the revision publishes for its round. -/
def Fingerprints (settings : Settings) (served : List (String × List UInt8)) (revision : String)
    (number : Int) (name : String) (fingerprint : String) : Prop :=
  ∃ published, Publishes settings served revision number name published ∧
    published.fingerprint settings = fingerprint

theorem Fingerprints.grow {served more : List (String × List UInt8)} {revision name fingerprint : String}
    {number : Int} (of : Fingerprints settings served revision number name fingerprint)
    (grows : served ⊆ more) : Fingerprints settings more revision number name fingerprint := by
  obtain ⟨published, publishes, same⟩ := of
  exact ⟨published, publishes.grow grows, same⟩

/-! ## The invariant -/

/-- What is observed only grows. -/
structure Grows (w w' : World) : Prop where
  now : w.now ≤ w'.now
  reads : w.reads <+: w'.reads
  blocks : w.blocks ⊆ w'.blocks
  served : w.served ⊆ w'.served

/-- The cached inputs are those of their revision, for the number of its state. -/
def Resolves (settings : Settings) (w : World) (revision : String) (inputs : RoundInputs) : Prop :=
  ∀ number stage, (settings.commits revision).state = some (number, stage) →
    ∃ name, Fingerprints settings w.served revision number name (inputs.fingerprint settings)

/-- In generation, the policy is about what its revision publishes, and about the block that was read
after the head. -/
structure Opens (settings : Settings) (w : World) (k : Nat) (p : RoundPolicy) : Prop where
  publishes : ∃ number name fingerprint,
    (settings.commits p.revision).state = some (number, .minerGeneration) ∧
    p.round = roundName name number ∧ p.inputsSha256 = some fingerprint ∧
    Fingerprints settings w.served p.revision number name fingerprint
  deadline : ∀ deadline, p.generationDeadlineBlock = some deadline → ∃ block blockTime,
    (k + 1, block, blockTime) ∈ w.blocks ∧ p.block = some block ∧
    p.expiresAt ≤ blockTime + (deadline - block) * 12

/-- The head was read after the lease began, as the policy has it. -/
structure Leased (settings : Settings) (w : World) (k : Nat) (moment : Rat) (p : RoundPolicy) : Prop where
  read : w.reads[k]? = some (moment, p.revision)
  after : p.observedAt ≤ moment
  before : moment ≤ w.now
  expires : p.expiresAt ≤ p.observedAt + settings.ttl
  opens : p.stage = .minerGeneration → Opens settings w k p

structure World.Sound (settings : Settings) (w : World) : Prop where
  policy : ∀ p, w.policy = some p → ∃ k moment, Leased settings w k moment p
  resolved : ∀ revision inputs, w.resolved.get revision = some inputs →
    Resolves settings w revision inputs

variable {w w' : World}

theorem Grows.refl (w : World) : Grows w w where
  now := le_refl _
  reads := List.prefix_refl _
  blocks := List.Subset.refl _
  served := List.Subset.refl _

theorem Grows.trans {w'' : World} (first : Grows w w') (second : Grows w' w'') : Grows w w'' where
  now := first.now.trans second.now
  reads := first.reads.trans second.reads
  blocks := List.Subset.trans first.blocks second.blocks
  served := List.Subset.trans first.served second.served

theorem Resolves.grow {revision : String} {inputs : RoundInputs}
    (resolves : Resolves settings w revision inputs) (grows : Grows w w') :
    Resolves settings w' revision inputs := by
  intro number stage state
  obtain ⟨name, of⟩ := resolves number stage state
  exact ⟨name, of.grow grows.served⟩

theorem Opens.grow {k : Nat} {p : RoundPolicy} (opens : Opens settings w k p) (grows : Grows w w') :
    Opens settings w' k p where
  publishes := by
    obtain ⟨number, name, fingerprint, state, round, hash, of⟩ := opens.publishes
    exact ⟨number, name, fingerprint, state, round, hash, of.grow grows.served⟩
  deadline deadline has := by
    obtain ⟨block, blockTime, member, is, ends⟩ := opens.deadline deadline has
    exact ⟨block, blockTime, grows.blocks member, is, ends⟩

theorem getElem?_of_prefix {α : Type} {xs ys : List α} {k : Nat} {x : α} (begins : xs <+: ys)
    (is : xs[k]? = some x) : ys[k]? = some x := by
  obtain ⟨rest, rfl⟩ := begins
  rw [List.getElem?_append_left (List.getElem?_eq_some_iff.mp is).1, is]

theorem Leased.grow {k : Nat} {moment : Rat} {p : RoundPolicy} (leased : Leased settings w k moment p)
    (grows : Grows w w') : Leased settings w' k moment p where
  read := getElem?_of_prefix grows.reads leased.read
  after := leased.after
  before := leased.before.trans grows.now
  expires := leased.expires
  opens stage := (leased.opens stage).grow grows

/-! ## What a move and an answer do -/

theorem World.move_grows {m : Move} (moved : w.move m = some w') :
    Grows w w' ∧ w'.reads = w.reads ∧ w'.policy = w.policy ∧ w'.resolved = w.resolved := by
  cases m with
  | tick seconds =>
      simp only [World.move] at moved
      split at moved
      · rename_i positive
        obtain rfl := Option.some.inj moved
        exact ⟨⟨by simpa using positive, List.prefix_refl _, List.Subset.refl _, List.Subset.refl _⟩,
          rfl, rfl, rfl⟩
      · cases moved
  | push revision =>
      obtain rfl := Option.some.inj moved
      exact ⟨⟨le_refl _, List.prefix_refl _, List.Subset.refl _, List.Subset.refl _⟩, rfl, rfl, rfl⟩
  | pin round data =>
      obtain rfl := Option.some.inj moved
      exact ⟨⟨le_refl _, List.prefix_refl _, List.Subset.refl _, List.Subset.refl _⟩, rfl, rfl, rfl⟩

/-- What an answer changes. -/
structure Changed (w : World) (q : Request) (w' : World) : Prop where
  grows : Grows w w'
  now : w'.now = w.now
  head : w'.head = w.head
  reads : w'.reads = w.reads ∨ q = .getRefSha ∧ w'.reads = w.reads ++ [(w.now, w.head)]
  policy : w'.policy = w.policy ∨ w'.policy = none ∨
    ∃ inputs p, q = .publish inputs p ∧ w'.policy = some p
  resolved : w'.resolved = w.resolved ∨
    ∃ revision inputs, q = .resolve revision inputs ∧ w'.resolved = Dict.empty.set revision inputs

theorem changed_refl (w : World) (q : Request) : Changed w q w :=
  ⟨Grows.refl w, rfl, rfl, Or.inl rfl, Or.inl rfl, Or.inl rfl⟩

theorem World.answer_changed {q : Request} {c : Answer} {reply : Except Error q.Reply}
    (answered : w.answer settings q c = some (reply, w')) : Changed w q w' := by
  cases q <;> cases c <;>
    simp only [World.answer, Request.remote, Option.some.injEq, Prod.mk.injEq, reduceCtorEq,
      Option.map_eq_some_iff, if_true, if_false, Bool.false_eq_true] at answered
  all_goals first
    | (obtain ⟨-, rfl⟩ := answered; exact changed_refl _ _)
    | (obtain ⟨_, -, -, rfl⟩ := answered; exact changed_refl _ _)
    | skip
  case getRefSha =>
    obtain ⟨-, rfl⟩ := answered
    exact ⟨⟨le_refl _, List.prefix_append _ _, List.Subset.refl _, List.Subset.refl _⟩, rfl, rfl,
      Or.inr ⟨rfl, rfl⟩, Or.inl rfl, Or.inl rfl⟩
  case download =>
    obtain ⟨-, rfl⟩ := answered
    exact ⟨⟨le_refl _, List.prefix_refl _, List.Subset.refl _, List.subset_cons_self _ _⟩, rfl, rfl,
      Or.inl rfl, Or.inl rfl, Or.inl rfl⟩
  case save =>
    split at answered
    · obtain rfl := (Prod.mk.inj (Option.some.inj answered)).2
      exact changed_refl _ _
    · obtain rfl := (Prod.mk.inj (Option.some.inj answered)).2
      exact ⟨⟨le_refl _, List.prefix_refl _, List.Subset.refl _, List.Subset.refl _⟩, rfl, rfl,
        Or.inl rfl, Or.inl rfl, Or.inl rfl⟩
  case head =>
    obtain ⟨-, rfl⟩ := answered
    exact ⟨⟨le_refl _, List.prefix_refl _, List.subset_cons_self _ _, List.Subset.refl _⟩, rfl, rfl,
      Or.inl rfl, Or.inl rfl, Or.inl rfl⟩
  case clearPolicy =>
    obtain ⟨-, rfl⟩ := answered
    exact ⟨⟨le_refl _, List.prefix_refl _, List.Subset.refl _, List.Subset.refl _⟩, rfl, rfl,
      Or.inl rfl, Or.inr (Or.inl rfl), Or.inl rfl⟩
  case resolve =>
    obtain ⟨-, rfl⟩ := answered
    exact ⟨⟨le_refl _, List.prefix_refl _, List.Subset.refl _, List.Subset.refl _⟩, rfl, rfl,
      Or.inl rfl, Or.inl rfl, Or.inr ⟨_, _, rfl, rfl⟩⟩
  case publish =>
    obtain ⟨-, rfl⟩ := answered
    exact ⟨⟨le_refl _, List.prefix_refl _, List.Subset.refl _, List.Subset.refl _⟩, rfl, rfl,
      Or.inl rfl, Or.inr (Or.inr ⟨_, _, rfl, rfl⟩), Or.inl rfl⟩

/-- The requests that keep what the process has resolved and published. -/
def Request.harmless : Request → Bool
  | .resolve _ _ | .publish _ _ => false
  | _ => true

theorem World.Sound.changed {q : Request} (sound : w.Sound settings) (changed : Changed w q w')
    (published : ∀ inputs p, q = .publish inputs p → ∃ k moment, Leased settings w k moment p)
    (resolved : ∀ revision inputs, q = .resolve revision inputs →
      Resolves settings w revision inputs) : w'.Sound settings where
  policy p has := by
    rcases changed.policy with same | gone | ⟨inputs, p', is, assigned⟩
    · obtain ⟨k, moment, leased⟩ := sound.policy p (same ▸ has)
      exact ⟨k, moment, leased.grow changed.grows⟩
    · rw [gone] at has
      cases has
    · rw [assigned] at has
      obtain rfl := Option.some.inj has
      obtain ⟨k, moment, leased⟩ := published inputs p' is
      exact ⟨k, moment, leased.grow changed.grows⟩
  resolved revision inputs has := by
    rcases changed.resolved with same | ⟨revision', inputs', is, assigned⟩
    · exact (sound.resolved revision inputs (same ▸ has)).grow changed.grows
    · rw [assigned, Dict.get_set] at has
      split at has
      · rename_i same
        obtain rfl := Option.some.inj has
        exact same ▸ (resolved revision' inputs' is).grow changed.grows
      · cases has

theorem World.Sound.harmless {q : Request} (sound : w.Sound settings) (changed : Changed w q w')
    (harmless : q.harmless = true) : w'.Sound settings := by
  refine sound.changed changed ?_ ?_
  · rintro inputs p rfl
    cases harmless
  · rintro revision inputs rfl
    cases harmless

/-! ## Rules -/

def rules (settings : Settings) : Rules World Request Request.Reply Error where
  invariant := World.Sound settings
  others w w' := ∃ m, w.move m = some w'
  answers w q reply w' := ∃ c, w.answer settings q c = some (reply, w')
  guarantee _ w' := w'.Sound settings

/-- What is observed grows, and the head is not read again. -/
structure Meanwhile (w w' : World) : Prop where
  grows : Grows w w'
  reads : w'.reads = w.reads

theorem Meanwhile.refl (w : World) : Meanwhile w w := ⟨Grows.refl w, rfl⟩

theorem Meanwhile.trans {w'' : World} (first : Meanwhile w w') (second : Meanwhile w' w'') :
    Meanwhile w w'' :=
  ⟨first.grows.trans second.grows, second.reads.trans first.reads⟩

theorem meanwhile_move {m : Move} (moved : w.move m = some w') : Meanwhile w w' := by
  obtain ⟨grows, reads, -, -⟩ := World.move_grows moved
  exact ⟨grows, reads⟩

theorem steady (settings : Settings) : (rules settings).Steady Meanwhile where
  refl := Meanwhile.refl
  trans _ _ _ := Meanwhile.trans
  moves := by
    rintro v v' - ⟨m, moved⟩
    exact meanwhile_move moved

theorem Changed.meanwhile {q : Request} (changed : Changed w q w') (other : q ≠ .getRefSha) :
    Meanwhile w w' := by
  refine ⟨changed.grows, ?_⟩
  rcases changed.reads with same | ⟨is, -⟩
  · exact same
  · exact absurd is other

variable {α : Type} {w : World}

/-- The requests that a refresh may make without more. -/
def Request.still (q : Request) : Bool := q.harmless && q ≠ .getRefSha

theorem leads_of_still {p : Task α} (asks : p.Asks fun q => q.still = true) :
    (rules settings).Leads Meanwhile (fun _ _ => True) p w := by
  refine Leads.of_asks (steady settings) asks ?_
  rintro q still v reply v' sound ⟨c, is⟩
  have changed := World.answer_changed is
  simp only [Request.still, Bool.and_eq_true, decide_eq_true_eq] at still
  exact ⟨sound.harmless changed still.1, changed.meanwhile still.2⟩

theorem asks_still {q : Request} (still : q.still = true) : (ask q).Asks fun q => q.still = true :=
  Prog.asks_request still

/-! ### What is known from an answer -/

/-- What stays true once a request was answered. -/
def Known (settings : Settings) : (q : Request) → q.Reply → World → Prop
  | .clock, now, w => now ≤ w.now
  | .state revision, a, _ => (settings.commits revision).state = some a
  | .config revision, a, _ => (settings.commits revision).config = some a
  | .schedule revision number, a, _ => (settings.commits revision).schedule number = some a
  | .seed revision number, a, _ => (settings.commits revision).seed number = some a
  | .prompts revision number, a, _ => (settings.commits revision).prompts number = some a
  | .download url, data, w => (url, data) ∈ w.served
  | .head, a, w => (w.reads.length, a) ∈ w.blocks
  | .resolved revision, a, w => ∀ inputs, a = some inputs → Resolves settings w revision inputs
  | _, _, _ => True

theorem Known.meanwhile {q : Request} {a : q.Reply} (known : Known settings q a w)
    (after : Meanwhile w w') : Known settings q a w' := by
  cases q
  case clock => exact le_trans known after.grows.now
  case download => exact after.grows.served known
  case head =>
    have kept := after.grows.blocks known
    rwa [← after.reads] at kept
  case resolved => exact fun inputs is => (known inputs is).grow after.grows
  all_goals exact known

theorem known_of_answer {q : Request} {c : Answer} {a : q.Reply} (sound : w.Sound settings)
    (answered : w.answer settings q c = some (.ok a, w')) : Known settings q a w' := by
  cases q
  case state | config | schedule | seed | prompts =>
    cases c <;> simp only [World.answer, Request.remote, if_true, Option.map_eq_some_iff,
      Option.some.injEq, Prod.mk.injEq, Except.ok.injEq, reduceCtorEq, false_and] at answered
    obtain ⟨b, is, rfl, -⟩ := answered
    exact is
  case clock =>
    cases c <;> cases answered
    exact le_refl _
  case download url =>
    cases c <;> cases answered
    exact List.mem_cons_self
  case head =>
    cases c <;> cases answered
    exact List.mem_cons_self
  case resolved revision =>
    cases c <;> cases answered
    exact fun inputs is => sound.resolved revision inputs is
  all_goals trivial

theorem leads_known {q : Request} (still : q.still = true) :
    (rules settings).Leads Meanwhile (Known settings q) (ask q) w := by
  refine Leads.request (steady settings) ?_
  rintro v - sound reply v' ⟨c, answered⟩
  have changed := World.answer_changed answered
  simp only [Request.still, Bool.and_eq_true, decide_eq_true_eq] at still
  refine ⟨sound.harmless changed still.1, changed.meanwhile still.2, ?_⟩
  rintro a rfl v'' after
  exact (known_of_answer sound answered).meanwhile after

theorem leads_assign {revision : String} {inputs : RoundInputs}
    (resolves : Resolves settings w revision inputs) :
    (rules settings).Leads Meanwhile (fun _ _ => True) (ask (.resolve revision inputs)) w := by
  refine Leads.request (steady settings) ?_
  rintro v before sound reply v' ⟨c, answered⟩
  have changed := World.answer_changed answered
  refine ⟨sound.changed changed (fun _ _ is => nomatch is) ?_, changed.meanwhile nofun,
    fun _ _ _ _ => trivial⟩
  rintro _ _ ⟨⟩
  exact resolves.grow before.grows

theorem leads_publish {inputs : Option RoundInputs} {p : RoundPolicy} {k : Nat} {moment : Rat}
    (leased : Leased settings w k moment p) :
    (rules settings).Leads Meanwhile (fun _ _ => True) (publish inputs p) w := by
  unfold publish
  split
  · refine Leads.request (steady settings) ?_
    rintro v before sound reply v' ⟨c, answered⟩
    have changed := World.answer_changed answered
    refine ⟨sound.changed changed ?_ (fun _ _ is => nomatch is), changed.meanwhile nofun,
      fun _ _ _ _ => trivial⟩
    rintro _ _ ⟨⟩
    exact ⟨k, moment, leased.grow before.grows⟩
  · exact Leads.throw (steady settings) _

/-! ## What a refresh resolves -/

theorem leads_image (value revision storagePrefix : String) :
    (rules settings).Leads Meanwhile
      (fun prompt w' => Shows settings w'.served revision storagePrefix value prompt)
      (settings.image value revision storagePrefix) w := by
  unfold Settings.image
  split
  · exact Leads.throw (steady settings) _
  · rename_i url is
    refine Leads.bind (steady settings) (leads_known rfl) ?_
    intro data w₁ sound₁ _ served
    split
    · exact Leads.throw (steady settings) _
    split
    · refine Leads.pure (steady settings) fun v after _ => ?_
      exact ⟨url, data, is, after.grows.served served, rfl⟩
    · exact Leads.throw (steady settings) _

theorem leads_images (revision storagePrefix : String) (urls : List String) :
    (rules settings).Leads Meanwhile
      (fun prompts w' => List.Forall₂ (Shows settings w'.served revision storagePrefix) urls prompts)
      (settings.images revision storagePrefix urls) w := by
  induction urls generalizing w with
  | nil => exact Leads.pure (steady settings) fun _ _ _ => .nil
  | cons value urls ih =>
      refine Leads.bind (steady settings) (leads_image value revision storagePrefix) ?_
      intro prompt w₁ sound₁ _ shown
      refine Leads.bind (steady settings) ih ?_
      intro prompts w₂ sound₂ since shown'
      refine Leads.pure (steady settings) fun v after _ => ?_
      refine .cons (shown.grow (since.grows.trans after.grows).served) ?_
      exact shown'.imp fun _ _ one => one.grow after.grows.served

theorem asks_putAll (prompts : List PromptImage) : (putAll prompts).Asks fun q => q.still = true := by
  induction prompts with
  | nil => exact Prog.asks_pure ()
  | cons prompt prompts ih => exact (asks_still rfl).bind fun _ => ih

theorem leads_comparePin (inputs : RoundInputs) (current : Option Pinned) :
    (rules settings).Leads Meanwhile
      (fun retained _ => retained.fingerprint settings = inputs.fingerprint settings)
      (settings.comparePin inputs current) w := by
  rcases current with _ | _ | retained
  · exact Leads.throw (steady settings) _
  · exact Leads.throw (steady settings) _
  · rw [Settings.comparePin]
    split
    · exact Leads.pure (steady settings) fun _ _ _ => ‹_›
    · exact Leads.throw (steady settings) _

theorem leads_pin (inputs : RoundInputs) :
    (rules settings).Leads Meanwhile
      (fun retained _ => retained.fingerprint settings = inputs.fingerprint settings)
      (settings.pin inputs) w := by
  refine Leads.bind (steady settings) (leads_of_still (asks_still rfl)) ?_
  intro current w₁ _ _ _
  cases current with
  | some current => exact leads_comparePin inputs (some current)
  | none =>
      refine Leads.bind (steady settings) (leads_of_still (Prog.Asks.outcome (asks_still rfl))) ?_
      intro saved w₂ _ _ _
      split
      · exact Leads.pure (steady settings) fun _ _ _ => rfl
      · refine Leads.bind (steady settings) (leads_of_still (asks_still rfl)) ?_
        intro current w₃ _ _ _
        exact leads_comparePin inputs current
      · exact Leads.throw (steady settings) _

theorem leads_resolve (revision : String) (number : Int) :
    (rules settings).Leads Meanwhile
      (fun inputs w' => ∃ name,
        Fingerprints settings w'.served revision number name (inputs.fingerprint settings))
      (settings.resolve revision number) w := by
  refine Leads.bind (steady settings) (leads_known rfl) fun name w₁ _ _ config => ?_
  refine Leads.bind (steady settings) (leads_known rfl) fun schedule w₂ _ _ schedules => ?_
  refine Leads.bind (steady settings) (leads_known rfl) fun seed w₃ _ _ seeds => ?_
  refine Leads.bind (steady settings) (leads_known rfl) fun urls w₄ _ _ lists => ?_
  split
  · refine Leads.bind (steady settings) (leads_images revision schedule.2.1 urls) ?_
    intro prompts w₅ _ _ shown
    split
    · dsimp only
      split
      · rename_i valid
        refine Leads.bind (steady settings) (leads_of_still (asks_putAll prompts)) ?_
        intro _ w₆ _ since _
        refine (leads_pin _).mono ?_
        intro retained v _ after same
        refine ⟨name, _, ⟨config, ⟨schedule, seed, urls, prompts, schedules, seeds, lists, ?_, rfl⟩, valid⟩,
          same.symm⟩
        exact shown.imp fun _ _ one => one.grow (since.grows.trans after.grows).served
      · exact Leads.throw (steady settings) _
    · exact Leads.throw (steady settings) _
  · exact Leads.throw (steady settings) _

theorem leads_published {revision : String} {number : Int} {stage : RoundStage}
    (state : (settings.commits revision).state = some (number, stage)) :
    (rules settings).Leads Meanwhile
      (fun inputs w' => ∃ name,
        Fingerprints settings w'.served revision number name (inputs.fingerprint settings))
      (settings.published revision number) w := by
  refine Leads.bind (steady settings) (leads_known rfl) ?_
  intro resolved w₁ _ _ cached
  cases resolved with
  | some inputs =>
      refine Leads.pure (steady settings) fun v after _ => ?_
      exact (cached inputs rfl).grow after.grows number stage state
  | none =>
      refine Leads.bind (steady settings) (leads_resolve revision number) ?_
      rintro inputs w₂ _ _ ⟨name, of⟩
      have resolves : Resolves settings w₂ revision inputs := by
        intro number' stage' state'
        obtain ⟨rfl, -⟩ := Prod.mk.inj (Option.some.inj (state.symm.trans state'))
        exact ⟨name, of⟩
      refine Leads.bind (steady settings) (leads_assign resolves) ?_
      intro _ w₃ _ since _
      refine Leads.pure (steady settings) fun v after _ => ?_
      exact ⟨name, of.grow (since.grows.trans after.grows).served⟩

theorem leads_lease (observed : Rat) (inputs : RoundInputs) :
    (rules settings).Leads Meanwhile
      (fun lease w' => lease.2 ≤ observed + settings.ttl ∧
        ∀ deadline, inputs.generationDeadlineBlock = some deadline → ∃ block blockTime,
          (w'.reads.length, block, blockTime) ∈ w'.blocks ∧ lease.1 = some block ∧
          lease.2 ≤ blockTime + (deadline - block) * 12)
      (settings.lease observed inputs) w := by
  unfold Settings.lease
  split
  · rename_i absent
    refine Leads.pure (steady settings) fun v _ _ => ⟨le_refl _, fun deadline is => ?_⟩
    rw [absent] at is
    cases is
  · rename_i deadline is
    refine Leads.bind (steady settings) (leads_known rfl) ?_
    rintro ⟨block, blockTime⟩ w₁ _ _ member
    refine Leads.bind (steady settings) (leads_known rfl) ?_
    intro now w₂ _ since _
    split
    · refine Leads.pure (steady settings) fun v after _ => ⟨min_le_left _ _, ?_⟩
      intro deadline' is'
      obtain rfl := Option.some.inj (is.symm.trans is')
      have known : Known settings .head (block, blockTime) w₁ := member
      have kept := known.meanwhile (since.trans after)
      exact ⟨block, blockTime, kept, rfl, min_le_right _ _⟩
    · exact Leads.throw (steady settings) _

/-! ## A refresh -/

/-- The refresh began before it read this head, which is the last that was read. -/
structure Began (w : World) (k : Nat) (moment observed : Rat) (revision : String) : Prop where
  read : w.reads[k]? = some (moment, revision)
  last : w.reads.length = k + 1
  after : observed ≤ moment
  before : moment ≤ w.now

theorem Began.meanwhile {k : Nat} {moment observed : Rat} {revision : String}
    (began : Began w k moment observed revision) (since : Meanwhile w w') :
    Began w' k moment observed revision where
  read := since.reads ▸ began.read
  last := since.reads ▸ began.last
  after := began.after
  before := began.before.trans since.grows.now

theorem asks_close (revision : String) (stage : RoundStage) :
    (settings.close revision stage).Asks fun q => q.still = true := by
  refine (asks_still rfl).bind fun policy => ?_
  split
  · refine (asks_still rfl).bind fun _ => ?_
    split
    · exact asks_still rfl
    · exact Prog.asks_pure ()
  · exact Prog.asks_pure ()

theorem asks_earlier (round : String) :
    (settings.earlier round).Asks fun q => q.still = true := by
  refine (asks_still rfl).bind fun inputs => ?_
  split
  · refine Prog.Asks.bind ?_ fun retained => Prog.asks_pure _
    refine (asks_still rfl).bind fun current => ?_
    split
    · exact Prog.asks_pure _
    · exact Prog.asks_throw _
    · split
      · exact Prog.asks_pure _
      · exact Prog.asks_throw _
  · exact Prog.asks_pure _

theorem asks_giveUp (revision : String) (e : Error) :
    (giveUp revision e).Asks fun q => q.still = true := by
  unfold giveUp
  split
  · exact Prog.asks_throw _
  · refine (asks_still rfl).bind fun policy => ?_
    split
    · exact (asks_still rfl).bind fun _ => Prog.asks_throw _
    · exact Prog.asks_throw _

theorem leads_attempt {k : Nat} {moment observed : Rat} {revision : String}
    (began : Began w k moment observed revision) :
    (rules settings).Leads Meanwhile (fun _ _ => True) (settings.attempt observed revision) w := by
  refine Leads.bind (steady settings) (leads_known rfl) ?_
  rintro ⟨number, stage⟩ w₁ _ since₁ state
  refine Leads.bind (steady settings) (leads_known rfl) fun config w₂ _ since₂ named => ?_
  refine Leads.bind (steady settings) (leads_of_still (asks_close revision stage)) ?_
  intro _ w₃ _ since₃ _
  have began₃ := began.meanwhile ((since₁.trans since₂).trans since₃)
  split
  · rename_i generation
    refine Leads.bind (steady settings) (leads_published state) ?_
    rintro inputs w₄ _ since₄ ⟨name, of⟩
    refine Leads.bind (steady settings) (leads_lease observed inputs) ?_
    rintro lease w₅ _ since₅ ⟨expires, deadline⟩
    have began₅ := began₃.meanwhile (since₄.trans since₅)
    have opens : Opens settings w₅ k (settings.policy observed revision (roundName config number) stage
        (some inputs) lease) := by
      constructor
      · refine ⟨number, name, _, generation ▸ state, ?_, rfl, of.grow since₅.grows.served⟩
        obtain ⟨published, publishes, -⟩ := of
        obtain rfl := Option.some.inj (publishes.config.symm.trans named)
        rfl
      · intro block is
        rw [← began₅.last]
        exact deadline block is
    exact leads_publish ⟨began₅.read, began₅.after, began₅.before, expires, fun _ => opens⟩
  · rename_i other
    refine Leads.bind (steady settings) (leads_of_still (asks_earlier _)) ?_
    intro inputs w₄ _ since₄ _
    have began₄ := began₃.meanwhile since₄
    exact leads_publish ⟨began₄.read, began₄.after, began₄.before, le_refl _, fun is => absurd is other⟩

theorem ensures_getRefSha {observed : Rat} (after : observed ≤ w.now) :
    (rules settings).Ensures (fun answer w' => ∀ revision, answer = .ok revision →
      ∃ k moment, Began w' k moment observed revision) (ask .getRefSha) w := by
  refine Ensures.request ?_
  rintro v later sound reply v' ⟨c, answered⟩
  have since := (steady settings).later later
  have changed := World.answer_changed answered
  refine ⟨sound.harmless changed rfl, ?_⟩
  rintro v'' later' - revision rfl
  cases c <;> cases answered
  refine ⟨v.reads.length, v.now, Began.meanwhile ?_ ((steady settings).later later')⟩
  exact ⟨by simp, by simp, after.trans since.grows.now, le_refl _⟩

theorem ensures_refresh (w : World) :
    (rules settings).Ensures (fun _ _ => True) settings.refresh w := by
  refine Ensures.bind (leads_known (q := .clock) rfl) ?_ fun _ _ _ _ => trivial
  rintro observed w₁ _ ⟨-, returned⟩
  refine Ensures.bind (ensures_getRefSha (returned observed rfl)) ?_ fun _ _ _ _ => trivial
  intro revision w₂ _ began
  obtain ⟨k, moment, began⟩ := began revision rfl
  refine (Leads.tryCatch (steady settings) (leads_attempt began) ?_).ensures
  exact fun e v _ _ => leads_of_still (asks_giveUp revision e)

/-! ## Runs -/

theorem World.Sound.grow (sound : w.Sound settings) (grows : Grows w w')
    (policy : w'.policy = w.policy ∨ w'.policy = none)
    (resolved : w'.resolved = w.resolved ∨ w'.resolved = .empty) : w'.Sound settings where
  policy p has := by
    rcases policy with same | gone
    · obtain ⟨k, moment, leased⟩ := sound.policy p (same ▸ has)
      exact ⟨k, moment, leased.grow grows⟩
    · rw [gone] at has
      cases has
  resolved revision inputs has := by
    rcases resolved with same | gone
    · exact (sound.resolved revision inputs (same ▸ has)).grow grows
    · rw [gone] at has
      cases has

theorem controller_follows (settings : Settings) :
    (controller settings).Follows (rules settings) fun _ _ => True where
  move s m w _ moved := ⟨m, moved⟩
  answer s c q next reply w _ _ answered := ⟨c, answered⟩
  body s _ _ _ := ensures_refresh s.world
  restart w sound := sound.grow ⟨le_refl _, List.prefix_refl _, List.Subset.refl _, List.Subset.refl _⟩
    (Or.inr rfl) (Or.inr rfl)
  others := by
    rintro w w' sound ⟨m, moved⟩
    obtain ⟨grows, -, policy, resolved⟩ := World.move_grows moved
    exact sound.grow grows (Or.inl policy) (Or.inl resolved)
  guarantee _ _ _ sound := sound

/-- A controller that was just constructed. -/
def start (now : Rat) (head : String) (pins : Dict String Pinned) : ControllerState :=
  ⟨{ now, head, pins }, none⟩

theorem sound_start (now : Rat) (head : String) (pins : Dict String Pinned) :
    (start now head pins).world.Sound settings where
  policy _ has := nomatch has
  resolved _ _ has := nomatch has

theorem sound_run {now : Rat} {head : String} {pins : Dict String Pinned} {events : List ControllerEvent}
    {t : ControllerState} (ran : run (controller settings).step (start now head pins) events = some t) :
    t.world.Sound settings :=
  ((controller_follows settings).run (throughout_of_forall fun _ _ _ => trivial) ran
    ⟨sound_start now head pins, fun _ is => nomatch is⟩).invariant

theorem step_reads {s t : ControllerState} {event : ControllerEvent}
    (stepped : (controller settings).step s event = some t) :
    t.world.reads = s.world.reads ∨ t.world.reads = s.world.reads ++ [(s.world.now, s.world.head)] := by
  cases event with
  | move m =>
      obtain ⟨w, moved, rfl⟩ := Option.map_eq_some_iff.mp stepped
      exact Or.inl (World.move_grows moved).2.1
  | call k =>
      rw [System.step] at stepped
      split at stepped <;> cases stepped
      exact Or.inl rfl
  | answer c =>
      rw [System.step] at stepped
      split at stepped
      · obtain ⟨⟨reply, w⟩, answered, rfl⟩ := Option.map_eq_some_iff.mp stepped
        exact (World.answer_changed answered).reads.imp_right And.right
      · cases stepped
  | leave =>
      rw [System.step] at stepped
      split at stepped <;> cases stepped
      exact Or.inl rfl
  | crash =>
      obtain rfl := Option.some.inj stepped
      exact Or.inl rfl

theorem read_visited {now : Rat} {head : String} {pins : Dict String Pinned}
    {events : List ControllerEvent} {t : ControllerState}
    (ran : run (controller settings).step (start now head pins) events = some t) {k : Nat} {moment : Rat}
    {revision : String} (read : t.world.reads[k]? = some (moment, revision)) :
    ∃ u, Visits (controller settings).step (start now head pins) events u ∧
      u.world.now = moment ∧ u.world.head = revision := by
  induction events using List.reverseRecOn generalizing t with
  | nil =>
      obtain rfl := Option.some.inj ran
      cases read
  | append_singleton events event ih =>
      obtain ⟨u, before, stepped⟩ := run_concat.mp ran
      rcases step_reads stepped with same | more
      · obtain ⟨v, visits, is⟩ := ih before (same ▸ read)
        exact ⟨v, visits.append _, is⟩
      · rw [more, List.getElem?_append] at read
        split at read
        · obtain ⟨v, visits, is⟩ := ih before read
          exact ⟨v, visits.append _, is⟩
        · rw [List.getElem?_singleton] at read
          split at read
          · obtain ⟨rfl, rfl⟩ := Prod.mk.inj (Option.some.inj read)
            exact ⟨u, ⟨events, [event], rfl, before⟩, rfl, rfl⟩
          · cases read

/-! ## Admission -/

theorem RoundPolicy.require_generation {p : RoundPolicy} {inputs : RoundInputs} {fingerprint : String}
    {now : Rat} (required : p.require inputs fingerprint now true = .ok ()) :
    now < p.expiresAt ∧ p.Concerns inputs fingerprint ∧ p.stage = .minerGeneration ∧
      ∀ deadline, inputs.generationDeadlineBlock = some deadline →
        ∀ block, p.block = some block → block < deadline := by
  simp only [RoundPolicy.require, ↓reduceIte, Bool.true_eq_false] at required
  split at required
  · cases required
  rename_i fresh
  split at required
  · cases required
  rename_i concerns
  split at required
  · cases required
  rename_i stage
  obtain ⟨-, live⟩ := not_or.mp fresh
  refine ⟨(not_not.mp live).1, not_not.mp concerns, not_not.mp stage, ?_⟩
  intro deadline is block has
  rw [is] at required
  simp only [has] at required
  split at required
  · cases required
  · rename_i below
    simpa using below

theorem World.require_ok {generation : Bool} {inputs : RoundInputs}
    (required : w.require settings generation = .ok inputs) :
    ∃ p, w.policy = some p ∧
      p.require inputs (inputs.fingerprint settings) w.now generation = .ok () := by
  unfold World.require at required
  split at required
  · rename_i inputs' p _ policy
    cases admitted : p.require inputs' (inputs'.fingerprint settings) w.now generation with
    | error e =>
        rw [admitted] at required
        cases required
    | ok u =>
        rw [admitted] at required
        obtain rfl := Except.ok.inj required
        exact ⟨p, policy, admitted⟩
  · cases required

/-- The head that was read at this moment was in generation for the round of the inputs and published
the inputs of that fingerprint; with a deadline, the block that was read after this head is below it,
and the time that it is estimated for has not come. -/
structure Admitted (settings : Settings) (w : World) (inputs : RoundInputs) (k : Nat) (moment : Rat)
    (revision : String) : Prop where
  recent : w.now - settings.ttl < moment
  past : moment ≤ w.now
  read : w.reads[k]? = some (moment, revision)
  publishes : ∃ number name, (settings.commits revision).state = some (number, .minerGeneration) ∧
    inputs.round = roundName name number ∧
    Fingerprints settings w.served revision number name (inputs.fingerprint settings)
  deadline : ∀ deadline, inputs.generationDeadlineBlock = some deadline → ∃ block blockTime,
    (k + 1, block, blockTime) ∈ w.blocks ∧ block < deadline ∧
    w.now < blockTime + (deadline - block) * 12

theorem World.Sound.admitted (sound : w.Sound settings) {inputs : RoundInputs}
    (required : w.require settings true = .ok inputs) :
    ∃ k moment revision, Admitted settings w inputs k moment revision := by
  obtain ⟨p, policy, required⟩ := World.require_ok required
  obtain ⟨k, moment, leased⟩ := sound.policy p policy
  obtain ⟨live, concerns, stage, below⟩ := RoundPolicy.require_generation required
  obtain ⟨-, -, round, hash, deadline⟩ := concerns
  have opens := leased.opens stage
  refine ⟨k, moment, p.revision, ?_, leased.before, leased.read, ?_, ?_⟩
  · have expires := leased.expires
    have after := leased.after
    linarith
  · obtain ⟨number, name, fingerprint, state, named, hash', of⟩ := opens.publishes
    obtain rfl := Option.some.inj (hash.symm.trans hash')
    exact ⟨number, name, state, round ▸ named, of⟩
  · intro block is
    obtain ⟨current, blockTime, member, has, ends⟩ := opens.deadline block (deadline.trans is)
    exact ⟨current, blockTime, member, below block is current has, live.trans_le ends⟩

/-- Inputs are admitted for generation only within the time to live after an instant of the run at
which the head of the branch was in generation for them. -/
theorem generation_admitted (settings : Settings) (now : Rat) (head : String) (pins : Dict String Pinned)
    (events : List ControllerEvent) (t : ControllerState)
    (ran : run (controller settings).step (start now head pins) events = some t) (inputs : RoundInputs)
    (required : t.world.require settings true = .ok inputs) :
    ∃ k moment revision, Admitted settings t.world inputs k moment revision ∧
      ∃ u, Visits (controller settings).step (start now head pins) events u ∧
        u.world.now = moment ∧ u.world.head = revision := by
  obtain ⟨k, moment, revision, admitted⟩ := (sound_run ran).admitted required
  exact ⟨k, moment, revision, admitted, read_visited ran admitted.read⟩

def published : String := String.ofList (List.replicate 40 'a')

def competition : Settings where
  repository := "owner/repo"
  branch := "main"
  ttl := 30
  closes := true
  ttlBounds := by norm_num
  commits _ :=
    { state := some (4, .minerGeneration)
      config := some "season"
      schedule := fun _ => some (some 110, "", true)
      seed := fun _ => some 7
      prompts := fun _ => some ["prompts/chair.png"] }
  sha256 _ := String.ofList (List.replicate 64 'b')
  hash frozen := frozen.round
  verifies _ := true

/-- Another commit is pushed while the refresh goes on, and the block before the deadline is read. -/
def firstRefresh : List ControllerEvent :=
  [.call (), .answer .replies, .move (.tick 2), .answer .replies, .move (.push "b")] ++
  List.replicate 8 (.answer .replies) ++ [.answer (.serves [1])] ++
  List.replicate 4 (.answer .replies) ++
  [.answer (.finds 109 990), .answer .replies, .answer .replies, .leave, .move (.tick (9 / 2))]

theorem generation_admitted_season : ∃ t inputs,
    run (controller competition).step (start 988 published .empty) firstRefresh = some t ∧
    t.world.require competition true = .ok inputs ∧
    ∃ k moment revision, Admitted competition t.world inputs k moment revision := by
  have admits : (run (controller competition).step (start 988 published .empty) firstRefresh).any
      fun t => (t.world.require competition true).toOption.isSome := by decide +kernel
  obtain ⟨t, ran, admits⟩ := (Option.any_eq_true _ _).mp admits
  obtain ⟨inputs, is⟩ := Option.isSome_iff_exists.mp admits
  have required : t.world.require competition true = .ok inputs := by
    cases answer : t.world.require competition true with
    | error e =>
        rw [answer] at is
        cases is
    | ok inputs' =>
        rw [answer] at is
        rw [Option.some.inj is]
  obtain ⟨k, moment, revision, admitted, -⟩ :=
    generation_admitted competition 988 published .empty firstRefresh t ran inputs required
  exact ⟨t, inputs, ran, required, k, moment, revision, admitted⟩

end GenSubnet.Gateway.Rounds
