import GenSubnet.Render.ValidationPool

/-!
# Whose result a call of validate gets

Every worker is in one place of the pool at a time, and so is every call. A request that is not settled
is alone in its worker, as long as an init hands out no worker that failed and a request meets no jobs
of an earlier source.
-/

namespace GenSubnet.Render
open Library

namespace Pool

/-- In how many places the pool has a worker without a request. -/
def places (p : Pool) (w : Nat) : Nat :=
  p.available.count w + (p.handed.map Prod.snd).count w + p.inits.flatten.count w + p.replacements.count w

/-- In how many places the pool has a call without a request. -/
def claims (p : Pool) (call : Nat) : Nat :=
  (p.settled.map Prod.fst).count call + p.waiting.count call + (p.handed.map Prod.fst).count call

def source (p : Pool) (call : Nat) : String := p.sources.getD call ""

/-- A worker may have this call as its request. -/
structure Free (p : Pool) (call : Nat) : Prop where
  known : call < p.sources.length
  unclaimed : p.claims call = 0
  unsent : ∀ w, ∀ item ∈ (p.table w).pending.items, item.2 ≠ call

structure Sound (p : Pool) : Prop where
  once : ∀ w, p.places w + (p.table w).pending.items.length ≤ 1
  uncreated : ∀ w, p.created ≤ w → p.places w = 0 ∧ p.table w = {}
  idle : ∀ w, 0 < p.places w → (p.table w).inbox = []
  live : ∀ w, w ∈ p.available ∨ w ∈ p.handed.map Prod.snd → (p.table w).failed = false
  fresh : ∀ w ∈ p.replacements, (p.table w).boot ≠ .rejected → (p.table w).failed = false
  busy : ∀ w, ∀ item ∈ (p.table w).pending.items,
    (p.table w).ExecutesOnly ⟨item.1, p.source item.2⟩
  settles : ∀ call, p.claims call ≤ 1
  known : ∀ call, p.sources.length ≤ call → p.claims call = 0
  unsettled : ∀ w, ∀ item ∈ (p.table w).pending.items, p.claims item.2 = 0 ∧ item.2 < p.sources.length
  apart : ∀ w w', ∀ item ∈ (p.table w).pending.items, ∀ item' ∈ (p.table w').pending.items,
    item.2 = item'.2 → w = w'

variable {p p' : Pool} {w call : Nat}

theorem Sound.pending_length (sound : p.Sound) (w : Nat) : (p.table w).pending.items.length ≤ 1 := by
  have once := sound.once w
  omega

theorem Sound.pending_eq (sound : p.Sound) {item : Nat × Nat} (member : item ∈ (p.table w).pending.items) :
    (p.table w).pending.items = [item] := by
  have short := sound.pending_length w
  match items : (p.table w).pending.items with
  | [] =>
      rw [items] at member
      cases member
  | [one] =>
      rw [items] at member
      rw [List.mem_singleton.mp member]
  | one :: two :: rest =>
      rw [items] at short
      simp at short

theorem Sound.places_of_pending (sound : p.Sound) {item : Nat × Nat}
    (member : item ∈ (p.table w).pending.items) : p.places w = 0 := by
  have once := sound.once w
  have some_ := List.length_pos_of_mem member
  omega

theorem Sound.pending_of_places (sound : p.Sound) (placed : 0 < p.places w) :
    (p.table w).pending.items = [] := by
  have once := sound.once w
  exact List.length_eq_zero_iff.mp (by omega)

theorem Sound.created_of_places (sound : p.Sound) (placed : 0 < p.places w) : w < p.created := by
  by_contra above
  have none_ := (sound.uncreated w (Nat.le_of_not_lt above)).1
  omega

/-! ## Moves -/

theorem Sound.put (sound : p.Sound) {u : Worker} (created : w < p.created)
    (once : p.places w + u.pending.items.length ≤ 1)
    (pending : ∀ item ∈ u.pending.items, item ∈ (p.table w).pending.items ∨ p.Free item.2)
    (idle : 0 < p.places w → u.inbox = [])
    (live : w ∈ p.available ∨ w ∈ p.handed.map Prod.snd → u.failed = false)
    (fresh : w ∈ p.replacements → u.boot ≠ .rejected → u.failed = false)
    (busy : ∀ item ∈ u.pending.items, u.ExecutesOnly ⟨item.1, p.source item.2⟩) :
    Sound { p with table := Function.update p.table w u } where
  once := (Function.forall_update_iff p.table fun v worker =>
    p.places v + worker.pending.items.length ≤ 1).mpr ⟨once, fun v _ => sound.once v⟩
  uncreated := (Function.forall_update_iff p.table fun v worker =>
    p.created ≤ v → p.places v = 0 ∧ worker = {}).mpr
      ⟨fun above => absurd created (Nat.not_lt.mpr above), fun v _ => sound.uncreated v⟩
  idle := (Function.forall_update_iff p.table fun v worker => 0 < p.places v → worker.inbox = []).mpr
    ⟨idle, fun v _ => sound.idle v⟩
  live := (Function.forall_update_iff p.table fun v worker =>
    v ∈ p.available ∨ v ∈ p.handed.map Prod.snd → worker.failed = false).mpr
      ⟨live, fun v _ => sound.live v⟩
  fresh := (Function.forall_update_iff p.table fun v worker =>
    v ∈ p.replacements → worker.boot ≠ .rejected → worker.failed = false).mpr
      ⟨fresh, fun v _ => sound.fresh v⟩
  busy := (Function.forall_update_iff p.table fun _ worker =>
    ∀ item ∈ worker.pending.items, worker.ExecutesOnly ⟨item.1, p.source item.2⟩).mpr
      ⟨busy, fun v _ => sound.busy v⟩
  settles := sound.settles
  known := sound.known
  unsettled := by
    refine (Function.forall_update_iff p.table fun _ worker => ∀ item ∈ worker.pending.items,
      p.claims item.2 = 0 ∧ item.2 < p.sources.length).mpr ⟨?_, fun v _ => sound.unsettled v⟩
    intro item member
    rcases pending item member with old | free
    · exact sound.unsettled w item old
    · exact ⟨free.unclaimed, free.known⟩
  apart := by
    have apart : ∀ item ∈ u.pending.items, ∀ v, v ≠ w → ∀ item' ∈ (p.table v).pending.items,
        item.2 ≠ item'.2 := by
      intro item member v other item' member' equal
      rcases pending item member with old | free
      · exact other (sound.apart v w item' member' item old equal.symm)
      · exact free.unsent v item' member' equal.symm
    intro v v' item member item' member' equal
    dsimp only at member member'
    by_cases here : v = w <;> by_cases there : v' = w
    · rw [here, there]
    · subst here
      rw [Function.update_self] at member
      rw [Function.update_of_ne there] at member'
      exact absurd equal (apart item member v' there item' member')
    · subst there
      rw [Function.update_self] at member'
      rw [Function.update_of_ne here] at member
      exact absurd equal.symm (apart item' member' v here item member)
    · rw [Function.update_of_ne here] at member
      rw [Function.update_of_ne there] at member'
      exact sound.apart v v' item member item' member' equal

/-- Workers and calls change their places; what gets one has no request. -/
structure Rearranged (p p' : Pool) : Prop where
  table : p'.table = p.table
  sources : p'.sources = p.sources
  created : p'.created = p.created
  places : ∀ v, p'.places v ≤ p.places v ∨ v < p.created ∧ (p.table v).pending.items = [] ∧
    (p.table v).inbox = [] ∧ p'.places v ≤ 1
  live : ∀ v, v ∈ p'.available ∨ v ∈ p'.handed.map Prod.snd → (p.table v).failed = false
  replacements : p'.replacements ⊆ p.replacements
  claims : ∀ c, p'.claims c ≤ p.claims c ∨ p.Free c ∧ p'.claims c ≤ 1

theorem Sound.rearrange (sound : p.Sound) (is : Rearranged p p') : p'.Sound := by
  obtain ⟨table, sources, created, places, live, replacements, claims⟩ := is
  have source : ∀ call, p'.source call = p.source call := fun call => by rw [Pool.source, sources]; rfl
  refine ⟨?_, ?_, ?_, table ▸ live, ?_, ?_, ?_, ?_, ?_, ?_⟩
  · intro v
    rw [table]
    rcases places v with fewer | ⟨-, pending, -, one⟩
    · exact (Nat.add_le_add_right fewer _).trans (sound.once v)
    · rw [pending]
      exact one
  · intro v above
    rw [table]
    obtain ⟨unplaced, new⟩ := sound.uncreated v (created ▸ above)
    rcases places v with fewer | ⟨below, -⟩
    · exact ⟨Nat.le_zero.mp (unplaced ▸ fewer), new⟩
    · exact absurd below (Nat.not_lt.mpr (created ▸ above))
  · intro v placed
    rw [table]
    rcases places v with fewer | ⟨-, -, idle, -⟩
    · exact sound.idle v (placed.trans_le fewer)
    · exact idle
  · intro v member
    rw [table]
    exact sound.fresh v (replacements member)
  · intro v item member
    rw [table] at member ⊢
    rw [source]
    exact sound.busy v item member
  · intro c
    rcases claims c with fewer | ⟨-, one⟩
    · exact fewer.trans (sound.settles c)
    · exact one
  · intro c above
    rw [sources] at above
    rcases claims c with fewer | ⟨free, -⟩
    · exact Nat.le_zero.mp (sound.known c above ▸ fewer)
    · exact absurd free.known (Nat.not_lt.mpr above)
  · intro v item member
    rw [table] at member
    obtain ⟨unclaimed, known⟩ := sound.unsettled v item member
    rw [sources]
    rcases claims item.2 with fewer | ⟨free, -⟩
    · exact ⟨Nat.le_zero.mp (unclaimed ▸ fewer), known⟩
    · exact absurd rfl (free.unsent v item member)
  · rw [table]
    exact sound.apart

theorem Sound.settleWith (sound : p.Sound) (free : p.Free call) (settlement : Settlement) :
    (p.settleWith call settlement).Sound := by
  refine sound.rearrange ⟨rfl, rfl, rfl, fun _ => Or.inl le_rfl, sound.live, List.Subset.refl _, ?_⟩
  intro c
  have claims : (p.settleWith call settlement).claims c = p.claims c + if c = call then 1 else 0 := by
    simp only [Pool.settleWith, Pool.claims, List.map_append, List.count_append, List.map_cons,
      List.map_nil, List.count_singleton, beq_iff_eq, eq_comm (a := call)]
    omega
  rw [claims]
  split
  · rename_i same
    subst same
    exact Or.inr ⟨free, by rw [free.unclaimed]⟩
  · exact Or.inl le_rfl

/-! ### Offering a worker -/

@[simp] theorem offer_table (p : Pool) (w : Nat) : (p.offer w).table = p.table := by
  unfold offer
  split <;> rfl

@[simp] theorem offer_sources (p : Pool) (w : Nat) : (p.offer w).sources = p.sources := by
  unfold offer
  split <;> rfl

@[simp] theorem offer_settled (p : Pool) (w : Nat) : (p.offer w).settled = p.settled := by
  unfold offer
  split <;> rfl

theorem offer_claims (p : Pool) (w call : Nat) : (p.offer w).claims call = p.claims call := by
  unfold offer
  split
  · rename_i first rest waiting
    simp only [claims, waiting, List.map_append, List.count_append, List.map_cons, List.map_nil,
      List.count_cons, List.count_nil]
    omega
  · rfl

theorem offer_places (p : Pool) (w v : Nat) :
    (p.offer w).places v = p.places v + if v = w then 1 else 0 := by
  unfold offer
  split <;>
    simp only [places, List.map_append, List.count_append, List.map_cons, List.map_nil,
      List.count_singleton, beq_iff_eq, eq_comm (a := w)] <;> omega

theorem Sound.offer (sound : p.Sound) (created : w < p.created) (unplaced : p.places w = 0)
    (pending : (p.table w).pending.items = []) (idle : (p.table w).inbox = [])
    (live : (p.table w).failed = false) : (p.offer w).Sound := by
  refine sound.rearrange ⟨offer_table p w, offer_sources p w, ?_, ?_, ?_, ?_, ?_⟩
  · unfold Pool.offer
    split <;> rfl
  · intro v
    rw [offer_places]
    split
    · rename_i same
      subst same
      exact Or.inr ⟨created, pending, idle, by rw [unplaced]⟩
    · exact Or.inl le_rfl
  · intro v held
    by_cases same : v = w
    · exact same ▸ live
    · refine sound.live v ?_
      unfold Pool.offer at held
      split at held <;> simpa [same] using held
  · unfold Pool.offer
    split <;> exact List.Subset.refl _
  · exact fun c => Or.inl (offer_claims p w c).le

/-! ### Settling the request of a worker -/

theorem Sound.free_of_pending (sound : p.Sound) {worker : Worker} {item : Nat × Nat}
    (member : item ∈ (p.table w).pending.items) (answered : worker.pending.items = []) :
    Free { p with table := Function.update p.table w worker } item.2 where
  known := (sound.unsettled w item member).2
  unclaimed := (sound.unsettled w item member).1
  unsent := by
    refine (Function.forall_update_iff p.table fun _ worker =>
      ∀ item' ∈ worker.pending.items, item'.2 ≠ item.2).mpr ⟨?_, ?_⟩
    · rw [answered]
      exact fun _ none_ => nomatch none_
    · intro v other item' member' same
      exact other (sound.apart v w item' member' item member same)

theorem erase_eq_empty {d : Dict Nat Nat} {item : Nat × Nat} (only : d.items = [item]) :
    d.erase item.1 = .empty := by
  apply Dict.ext
  simp [Dict.erase, only, Dict.empty]

theorem settle_eq_of_failed (p : Pool) (w requestId : Nat) (outcome : Settlement)
    (failed : (p.table w).failed = true) (is : (p.table w).pending.get requestId = some call) :
    p.settle w requestId outcome true =
      (p.change w fun worker => { worker with pending := worker.pending.erase requestId }).settleWith
        call outcome := by
  unfold settle
  rw [is]
  cases outcome with
  | rejected message => rfl
  | resolved result =>
      have still : ((p.change w fun worker =>
          { worker with pending := worker.pending.erase requestId }).table w).failed = true := by
        simpa [change] using failed
      simp [release, still]

theorem retireWorker_eq (p : Pool) (w : Nat) (outcome : Settlement)
    (short : (p.table w).pending.items.length ≤ 1) :
    p.retireWorker w outcome =
      { p with
        table := Function.update p.table w { p.table w with failed := true, pending := .empty }
        available := p.available.filter (· ≠ w)
        settled := p.settled ++ (p.table w).pending.items.map fun item => (item.2, outcome) } := by
  match only : (p.table w).pending.items with
  | [] =>
      have empty : (p.table w).pending = .empty := Dict.ext only
      simp [retireWorker, change, Dict.keys, only, ← empty]
  | [item] =>
      have is : (p.table w).pending.get item.1 = some item.2 := by
        rw [Dict.get_eq_some_iff, only]
        exact List.mem_singleton_self _
      have gone := erase_eq_empty only
      simp only [retireWorker, change, Function.update_self, Dict.keys, only, List.map_cons,
        List.map_nil, List.foldl_cons, List.foldl_nil]
      rw [settle_eq_of_failed _ w item.1 outcome (by simp) (show _ = some item.2 by simpa using is)]
      simp [change, settleWith, gone]
  | one :: two :: rest =>
      rw [only] at short
      simp at short

theorem Sound.retireWorker (sound : p.Sound) (created : w < p.created)
    (unhanded : w ∉ p.handed.map Prod.snd)
    (fresh : w ∈ p.replacements → (p.table w).boot = .rejected) (outcome : Settlement) :
    (p.retireWorker w outcome).Sound := by
  rw [retireWorker_eq p w outcome (sound.pending_length w)]
  have withdrawn : Sound { p with available := p.available.filter (· ≠ w) } := by
    refine sound.rearrange ⟨rfl, rfl, rfl, ?_, ?_, List.Subset.refl _, fun _ => Or.inl le_rfl⟩
    · intro v
      refine Or.inl ?_
      have fewer := (List.filter_sublist (l := p.available) (p := fun v => decide (v ≠ w))).count_le v
      simp only [places]
      omega
    · intro v held
      exact sound.live v (held.imp_left fun member => (List.mem_filter.mp member).1)
  have retired := withdrawn.put (u := { p.table w with failed := true, pending := .empty }) created
    (Nat.le_of_add_right_le (withdrawn.once w)) (fun _ none_ => nomatch none_) (withdrawn.idle w) ?_
    (fun member boot => absurd (fresh member) boot) fun _ none_ => nomatch none_
  · match only : (p.table w).pending.items with
    | [] => simpa [only] using retired
    | item :: rest =>
        have member : item ∈ (p.table w).pending.items := only ▸ List.mem_cons_self
        obtain rfl : rest = [] := (List.cons.inj (only.symm.trans (sound.pending_eq member))).2
        exact retired.settleWith (withdrawn.free_of_pending member rfl) outcome
  · rintro (available | handed)
    · exact absurd rfl (of_decide_eq_true (List.mem_filter.mp available).2)
    · exact absurd handed unhanded

/-! ### Workers and calls that are new -/

theorem count_range' (s n v : Nat) :
    (List.range' s n).count v = if s ≤ v ∧ v < s + n then 1 else 0 := by
  rw [List.Nodup.count List.nodup_range']
  simp only [List.mem_range'_1]

theorem Sound.createWorkers (sound : p.Sound) (table : p'.table = p.table)
    (sources : p'.sources = p.sources) (available : p'.available = p.available)
    (handed : p'.handed = p.handed) {n : Nat} (created : p'.created = p.created + n)
    (places : ∀ v, p'.places v = p.places v + (List.range' p.created n).count v)
    (replacements : ∀ v ∈ p'.replacements, v ∈ p.replacements ∨ p.created ≤ v)
    (claims : ∀ c, p'.claims c = p.claims c) : p'.Sound := by
  have source : ∀ call, p'.source call = p.source call := fun call => by rw [Pool.source, sources]; rfl
  refine ⟨?_, ?_, ?_, ?_, ?_, ?_, ?_, ?_, ?_, ?_⟩
  · intro v
    rw [places, count_range', table]
    split
    · rename_i new
      obtain ⟨unplaced, is⟩ := sound.uncreated v new.1
      rw [unplaced, is]
      exact le_rfl
    · exact sound.once v
  · intro v above
    rw [created] at above
    obtain ⟨unplaced, is⟩ := sound.uncreated v (le_trans (Nat.le_add_right _ _) above)
    rw [places, count_range', if_neg fun new => absurd new.2 (Nat.not_lt.mpr above), table]
    exact ⟨unplaced, is⟩
  · intro v placed
    rw [table]
    rw [places, count_range'] at placed
    split at placed
    · rename_i new
      rw [(sound.uncreated v new.1).2]
    · exact sound.idle v placed
  · rw [available, handed, table]
    exact sound.live
  · intro v member boot
    rw [table] at boot ⊢
    rcases replacements v member with old | new
    · exact sound.fresh v old boot
    · rw [(sound.uncreated v new).2]
  · intro v item member
    rw [table] at member ⊢
    rw [source]
    exact sound.busy v item member
  · exact fun c => (claims c).trans_le (sound.settles c)
  · exact fun c above => (claims c).trans (sound.known c (sources ▸ above))
  · intro v item member
    rw [table] at member
    obtain ⟨unclaimed, known⟩ := sound.unsettled v item member
    exact ⟨(claims item.2).trans unclaimed, sources ▸ known⟩
  · rw [table]
    exact sound.apart

theorem Sound.init (sound : p.Sound) (settings : PoolSettings) : (p.init settings).Sound := by
  refine sound.createWorkers rfl rfl rfl rfl (n := settings.poolSize) rfl ?_ (fun _ => Or.inl) fun _ => rfl
  intro v
  simp only [Pool.init, Pool.createWorkers, Pool.places, List.flatten_append, List.flatten_singleton,
    List.count_append]
  omega

theorem Sound.replaceWorker (sound : p.Sound) (dead : Nat) : (p.replaceWorker dead).Sound := by
  unfold Pool.replaceWorker
  split
  · refine sound.createWorkers rfl rfl rfl rfl (n := 1) rfl ?_ ?_ fun _ => rfl
    · intro v
      simp only [Pool.createWorkers, Pool.places, List.count_append]
      omega
    · intro v member
      rcases List.mem_append.mp member with old | new
      · exact Or.inl old
      · exact Or.inr (List.mem_range'_1.mp new).1
  · exact sound

theorem Sound.calls (sound : p.Sound) (source : String) :
    Sound { p with sources := p.sources ++ [source] } ∧
      Free { p with sources := p.sources ++ [source] } p.sources.length := by
  constructor
  · refine ⟨sound.once, sound.uncreated, sound.idle, sound.live, sound.fresh, ?_, sound.settles, ?_, ?_,
      sound.apart⟩
    · intro v item member
      have below := (sound.unsettled v item member).2
      have same : Pool.source { p with sources := p.sources ++ [source] } item.2 = p.source item.2 := by
        simp [Pool.source, List.getElem?_append_left below]
      rw [same]
      exact sound.busy v item member
    · intro c above
      refine sound.known c (le_trans ?_ above)
      simp
    · intro v item member
      obtain ⟨unclaimed, known⟩ := sound.unsettled v item member
      refine ⟨unclaimed, known.trans_le ?_⟩
      simp
  · refine ⟨?_, sound.known _ le_rfl, ?_⟩
    · simp
    · intro v item member
      exact Nat.ne_of_lt (sound.unsettled v item member).2

/-! ## Events -/

/-- An init hands out no worker that failed, and a request meets no jobs of an earlier source. -/
def Good (p : Pool) : PoolEvent → Prop
  | .initEnds k => ∀ fresh ∈ p.inits[k]?, (∀ w ∈ fresh, (p.table w).boot = .ready) →
      ∀ w ∈ fresh, (p.table w).failed = false
  | .dispatch _ w throws => throws = false → (p.table w).jobs = []
  | _ => True

instance (p : Pool) : (event : PoolEvent) → Decidable (p.Good event)
  | .initEnds k => inferInstanceAs (Decidable (∀ fresh ∈ p.inits[k]?, (∀ w ∈ fresh, _) → ∀ w ∈ fresh, _))
  | .dispatch _ w throws => inferInstanceAs (Decidable (throws = false → (p.table w).jobs = []))
  | .init | .validate _ | .replaceEnds _ | .terminated | .shutdown | .shutdownEnds | .ready _
  | .result _ _ _ | .error _ _ | .exit _ | .timer _ _ | .jobsEnd _ => isTrue trivial

theorem count_flatten_eraseIdx {lists : List (List Nat)} {k : Nat} {list : List Nat}
    (is : lists[k]? = some list) (v : Nat) :
    lists.flatten.count v = (lists.eraseIdx k).flatten.count v + list.count v := by
  induction lists generalizing k with
  | nil => cases is
  | cons first rest ih =>
      cases k with
      | zero =>
          obtain rfl := Option.some.inj is
          simp only [List.flatten_cons, List.count_append, List.eraseIdx_cons_zero]
          omega
      | succ k =>
          have later := ih is
          simp only [List.flatten_cons, List.count_append, List.eraseIdx_cons_succ]
          omega

theorem Sound.initEnds (sound : p.Sound) {k : Nat} (good : p.Good (.initEnds k))
    (ended : p.initEnds k = some p') : p'.Sound := by
  unfold Pool.initEnds at ended
  split at ended
  · cases ended
  rename_i fresh is
  have moved := count_flatten_eraseIdx is
  dsimp only at ended
  split at ended
  · obtain rfl := Option.some.inj ended
    refine sound.rearrange ⟨rfl, rfl, rfl, ?_, sound.live, List.Subset.refl _, fun _ => Or.inl le_rfl⟩
    intro v
    have count := moved v
    refine Or.inl ?_
    simp only [places]
    omega
  split at ended
  · rename_i ready
    obtain rfl := Option.some.inj ended
    refine sound.rearrange ⟨rfl, rfl, rfl, ?_, ?_, List.Subset.refl _, fun _ => Or.inl le_rfl⟩
    · intro v
      have count := moved v
      refine Or.inl ?_
      simp only [places, List.count_append]
      omega
    · rintro v (available | handed)
      · rcases List.mem_append.mp available with old | new
        · exact sound.live v (Or.inl old)
        · exact good fresh is ready v new
      · exact sound.live v (Or.inr handed)
  · cases ended

theorem Sound.rejectWaiting (sound : p.Sound) (message : String) : (p.rejectWaiting message).Sound := by
  refine sound.rearrange ⟨rfl, rfl, rfl, fun _ => Or.inl le_rfl, sound.live, List.Subset.refl _, ?_⟩
  intro c
  refine Or.inl (le_of_eq ?_)
  simp only [Pool.rejectWaiting, claims, List.map_append, List.map_map, Function.comp_def,
    List.map_id', List.count_append, List.count_nil]
  omega

theorem Sound.replaced (sound : p.Sound) : p.replaced.Sound := by
  have less : Sound { p with replacing := p.replacing - 1 } := sound.rearrange
    ⟨rfl, rfl, rfl, fun _ => Or.inl le_rfl, sound.live, List.Subset.refl _, fun _ => Or.inl le_rfl⟩
  unfold Pool.replaced
  dsimp only
  split
  · exact less.rejectWaiting _
  · exact less

theorem Sound.validate (sound : p.Sound) (source : String) : (p.validate source).Sound := by
  obtain ⟨called, free⟩ := sound.calls source
  unfold Pool.validate
  dsimp only
  split
  · exact called.settleWith free _
  split
  · rename_i w rest available
    refine called.rearrange ⟨rfl, rfl, rfl, ?_, ?_, List.Subset.refl _, ?_⟩
    · intro v
      refine Or.inl (le_of_eq ?_)
      simp only [places, available, List.map_append, List.count_append, List.map_cons, List.map_nil,
        List.count_cons, List.count_nil]
      omega
    · intro v held
      refine sound.live v ?_
      rw [available]
      simp only [List.map_append, List.map_cons, List.map_nil, List.mem_append, List.mem_singleton,
        List.mem_cons] at held ⊢
      tauto
    · intro c
      by_cases same : c = p.sources.length
      · refine Or.inr ⟨same ▸ free, ?_⟩
        have none_ := same ▸ free.unclaimed
        simp only [claims, List.map_append, List.count_append, List.map_cons, List.map_nil,
          List.count_singleton, same, beq_self_eq_true, if_true] at none_ ⊢
        omega
      · refine Or.inl (le_of_eq ?_)
        simp [claims, List.count_singleton, Ne.symm same]
  · refine called.rearrange ⟨rfl, rfl, rfl, fun _ => Or.inl le_rfl, sound.live, List.Subset.refl _, ?_⟩
    intro c
    by_cases same : c = p.sources.length
    · refine Or.inr ⟨same ▸ free, ?_⟩
      have none_ := same ▸ free.unclaimed
      simp only [claims, List.count_append, List.count_singleton, same, beq_self_eq_true, if_true]
        at none_ ⊢
      omega
    · refine Or.inl (le_of_eq ?_)
      simp [claims, List.count_singleton, Ne.symm same]

theorem Sound.shutdown (sound : p.Sound) : p.shutdown.Sound := by
  have marked : Sound { p with shuttingDown := true, shutdowns := p.shutdowns + 1 } := sound.rearrange
    ⟨rfl, rfl, rfl, fun _ => Or.inl le_rfl, sound.live, List.Subset.refl _, fun _ => Or.inl le_rfl⟩
  exact marked.rejectWaiting _

theorem Sound.shutdownEnds (sound : p.Sound) (ended : p.shutdownEnds = some p') : p'.Sound := by
  unfold Pool.shutdownEnds at ended
  split at ended
  · cases ended
  obtain rfl := Option.some.inj ended
  refine sound.rearrange ⟨rfl, rfl, rfl, ?_, ?_, List.Subset.refl _, ?_⟩
  · intro v
    refine Or.inl ?_
    simp only [places, List.count_nil]
    omega
  · rintro v (none_ | handed)
    · cases none_
    · exact sound.live v (Or.inr handed)
  · intro c
    refine Or.inl ?_
    simp only [claims, List.count_nil]
    omega

theorem Free.update (free : p.Free call) {worker : Worker} (answered : worker.pending.items = []) :
    Free { p with table := Function.update p.table w worker } call where
  known := free.known
  unclaimed := free.unclaimed
  unsent := by
    refine (Function.forall_update_iff p.table fun _ worker =>
      ∀ item ∈ worker.pending.items, item.2 ≠ call).mpr ⟨?_, fun v _ => free.unsent v⟩
    rw [answered]
    exact fun _ none_ => nomatch none_

theorem Sound.leaveHanded (sound : p.Sound) (handed : (call, w) ∈ p.handed) (requestId : Nat) :
    let p₁ : Pool := { p with handed := p.handed.erase (call, w), nextRequestId := requestId }
    p₁.Sound ∧ p₁.Free call ∧ p₁.places w = 0 ∧ w ∉ p₁.replacements := by
  have perm := List.perm_cons_erase handed
  have workers := fun v => (perm.map Prod.snd).count_eq v
  have calls := fun c => (perm.map Prod.fst).count_eq c
  simp only [List.map_cons, List.count_cons, beq_iff_eq] at workers calls
  have once := sound.once w
  have settles := sound.settles call
  have here := workers w
  have there := calls call
  simp only [if_true] at here there
  refine ⟨sound.rearrange ⟨rfl, rfl, rfl, ?_, ?_, List.Subset.refl _, ?_⟩, ⟨?_, ?_, ?_⟩, ?_, ?_⟩
  · intro v
    have count := workers v
    refine Or.inl ?_
    simp only [places]
    omega
  · rintro v (available | member)
    · exact sound.live v (Or.inl available)
    · exact sound.live v (Or.inr (((List.erase_sublist).map Prod.snd).subset member))
  · intro c
    have count := calls c
    refine Or.inl ?_
    simp only [claims]
    omega
  · by_contra above
    have none_ := sound.known call (Nat.le_of_not_lt above)
    simp only [claims] at none_
    omega
  · simp only [claims] at settles ⊢
    omega
  · intro v item member same
    have none_ := (sound.unsettled v item member).1
    rw [same] at none_
    simp only [claims] at none_
    omega
  · simp only [places] at once ⊢
    omega
  · intro member
    have some_ : 0 < p.replacements.count w := List.count_pos_iff.mpr member
    simp only [places] at once
    omega

theorem Sound.dispatch (sound : p.Sound) {throws : Bool} (good : p.Good (.dispatch call w throws))
    (dispatched : p.dispatch call w throws = some p') : p'.Sound := by
  unfold Pool.dispatch at dispatched
  split at dispatched
  · rename_i handed
    obtain ⟨left, free, unplaced, unreplaced⟩ := sound.leaveHanded handed (p.nextRequestId + 1)
    have placed : 0 < p.places w := by
      have some_ : 0 < (p.handed.map Prod.snd).count w :=
        List.count_pos_iff.mpr (List.mem_map_of_mem (f := Prod.snd) handed)
      simp only [places]
      omega
    have created := sound.created_of_places placed
    have live := sound.live w (Or.inr (List.mem_map_of_mem (f := Prod.snd) handed))
    have idle := sound.idle w placed
    have empty : (p.table w).pending = .empty := Dict.ext (sound.pending_of_places placed)
    have outside : ¬(w ∈ p.available ∨ w ∈ (p.handed.erase (call, w)).map Prod.snd) := by
      have inside : ∀ {l : List Nat}, w ∈ l → 0 < l.count w := fun member => List.count_pos_iff.mpr member
      simp only [places] at unplaced
      rintro (available | member)
      · have some_ := inside available
        omega
      · have some_ := inside member
        omega
    dsimp only at dispatched
    split at dispatched
    · obtain rfl := Option.some.inj dispatched
      rw [retireWorker_eq _ _ _ (by simp [change, empty, Dict.set, Dict.empty, upsert])]
      have kept : p.available.filter (fun v => !decide (v = w)) = p.available := by
        refine List.filter_eq_self.mpr ?_
        intro v member
        simp only [Bool.not_eq_true', decide_eq_false_iff_not]
        rintro rfl
        exact outside (Or.inl member)
      have retired := left.put (w := w) (u := { p.table w with failed := true, pending := .empty })
        created (by simp [unplaced, Dict.empty]) (fun _ none_ => absurd none_ List.not_mem_nil) (fun _ => idle)
        (fun held => absurd held outside) (fun member => absurd member unreplaced)
        fun _ none_ => absurd none_ List.not_mem_nil
      have settled := retired.settleWith (free.update rfl) (.rejected "could not dispatch validation")
      simpa [change, empty, Dict.set, Dict.empty, upsert, Pool.settleWith, kept] using settled
    · rename_i sent
      obtain rfl := Option.some.inj dispatched
      have sends := left.put (w := w) (u := { p.table w with
          pending := Dict.empty.set p.nextRequestId call
          inbox := [⟨p.nextRequestId, p.source call⟩] })
        created (by simp [unplaced, Dict.empty, Dict.set, upsert]) ?_ ?_
        (fun held => absurd held outside) (fun member => absurd member unreplaced) ?_
      · simpa [change, empty, idle, source] using sends
      · intro item member
        obtain rfl := List.mem_singleton.mp member
        exact Or.inr free
      · intro placed
        rw [unplaced] at placed
        cases placed
      · intro item member
        obtain rfl := List.mem_singleton.mp member
        exact ⟨live, rfl, good (Bool.eq_false_iff.mpr sent)⟩
  · cases dispatched

theorem Sound.replaceEnds (sound : p.Sound) (ended : p.replaceEnds w = some p') : p'.Sound := by
  unfold Pool.replaceEnds at ended
  split at ended
  · rename_i member
    have perm := List.perm_cons_erase member
    have counts := fun v => perm.count_eq v
    simp only [List.count_cons, beq_iff_eq] at counts
    have dropped : Sound { p with replacements := p.replacements.erase w } := by
      refine sound.rearrange ⟨rfl, rfl, rfl, ?_, sound.live, List.erase_subset, fun _ => Or.inl le_rfl⟩
      intro v
      have count := counts v
      refine Or.inl ?_
      simp only [places]
      omega
    have once := sound.once w
    have here := counts w
    simp only [if_true] at here
    have placed : 0 < p.places w := by
      simp only [places]
      omega
    dsimp only at ended
    split at ended
    · cases ended
    · obtain rfl := Option.some.inj ended
      exact dropped.replaced
    · rename_i ready
      split at ended
      · obtain rfl := Option.some.inj ended
        exact dropped.rearrange
          ⟨rfl, rfl, rfl, fun _ => Or.inl le_rfl, sound.live, List.Subset.refl _, fun _ => Or.inl le_rfl⟩
      · obtain rfl := Option.some.inj ended
        have joined : Sound { p with
            replacements := p.replacements.erase w
            workers := p.workers ++ [w] } := dropped.rearrange
          ⟨rfl, rfl, rfl, fun _ => Or.inl le_rfl, sound.live, List.Subset.refl _, fun _ => Or.inl le_rfl⟩
        refine (joined.offer (sound.created_of_places placed) ?_ (sound.pending_of_places placed)
          (sound.idle w placed) (sound.fresh w member ?_)).replaced
        · simp only [places] at once ⊢
          omega
        · rw [ready]
          exact nofun
  · cases ended

theorem Sound.onReady (sound : p.Sound) (created : w < p.created) : (p.onReady w).Sound := by
  unfold Pool.onReady
  split
  · rename_i starting
    refine sound.put created (sound.once w) (fun _ => Or.inl) (sound.idle w) (sound.live w) ?_
      (sound.busy w)
    intro member _
    refine sound.fresh w member ?_
    rw [starting]
    exact nofun
  · exact sound

theorem Sound.reject (sound : p.Sound) (created : w < p.created) :
    (p.change w fun worker => { worker with boot := .rejected }).Sound :=
  sound.put created (sound.once w) (fun _ => Or.inl) (sound.idle w) (sound.live w)
    (fun _ boot => absurd rfl boot) (sound.busy w)

theorem Sound.jobsEnd (sound : p.Sound) (created : w < p.created) :
    (p.change w fun worker => { worker with jobs := [] }).Sound :=
  sound.put created (sound.once w) (fun _ => Or.inl) (sound.idle w) (sound.live w) (sound.fresh w)
    fun item member => ⟨(sound.busy w item member).1, (sound.busy w item member).2.1, rfl⟩

theorem Sound.retire_of_quiet (sound : p.Sound) (quiet : p.Quiet) (created : w < p.created)
    (started : (p.table w).boot ≠ .starting) (outcome : Settlement) :
    (p.retireWorker w outcome).Sound := by
  refine sound.retireWorker created ?_ ?_ outcome
  · rw [quiet.1]
    exact List.not_mem_nil
  · exact fun member => absurd (quiet.2.2 w member) started

theorem Sound.onError (sound : p.Sound) (quiet : p.Quiet) (created : w < p.created) (outOfMemory : Bool) :
    (p.onError w outOfMemory).Sound := by
  unfold Pool.onError
  split
  · exact sound.reject created
  · exact sound.retire_of_quiet quiet created ‹_› _

theorem Sound.onExit (sound : p.Sound) (quiet : p.Quiet) (created : w < p.created) :
    (p.onExit w).Sound := by
  unfold Pool.onExit
  split
  · exact sound.reject created
  · have retired := sound.retire_of_quiet quiet created ‹_›
      (.rejected "validation worker exited unexpectedly")
    dsimp only
    split
    · exact retired
    · exact retired.replaceWorker w

theorem Sound.created_of_pending (sound : p.Sound) {item : Nat × Nat}
    (member : item ∈ (p.table w).pending.items) : w < p.created := by
  by_contra above
  rw [(sound.uncreated w (Nat.le_of_not_lt above)).2] at member
  cases member

theorem Sound.answered (sound : p.Sound) {item : Nat × Nat} (member : item ∈ (p.table w).pending.items)
    (inbox : List Message) (jobs : List String) :
    let p₁ := p.change w fun worker =>
      { worker with inbox, jobs, pending := worker.pending.erase item.1 }
    p₁.Sound ∧ p₁.Free item.2 := by
  have only := sound.pending_eq member
  have unplaced := sound.places_of_pending member
  have live := (sound.busy w item member).1
  have none_ : ((p.table w).pending.erase item.1).items = [] := by
    rw [erase_eq_empty only]
    rfl
  have nothing : ∀ other, other ∉ ((p.table w).pending.erase item.1).items := by
    rw [none_]
    exact fun _ => List.not_mem_nil
  refine ⟨sound.put (sound.created_of_pending member) ?_ (fun other inside => absurd inside (nothing other))
    ?_ (fun _ => live) (fun _ _ => live) fun other inside => absurd inside (nothing other),
    sound.free_of_pending member none_⟩
  · change p.places w + ((p.table w).pending.erase item.1).items.length ≤ 1
    rw [unplaced, none_]
    exact Nat.zero_le _
  · intro placed
    rw [unplaced] at placed
    cases placed

theorem change_change (p : Pool) (w : Nat) (f g : Worker → Worker) :
    (p.change w f).change w g = p.change w fun worker => g (f worker) := by
  simp [change]

theorem Sound.onTimer (sound : p.Sound) {settings : PoolSettings} {requestId : Nat}
    (fired : p.onTimer settings w requestId = some p') : p'.Sound := by
  unfold Pool.onTimer at fired
  split at fired
  · rename_i has
    obtain rfl := Option.some.inj fired
    obtain ⟨call, is⟩ := Option.isSome_iff_exists.mp has
    obtain ⟨ended, free⟩ := sound.answered (Dict.get_eq_some_iff.mp is) (p.table w).inbox (p.table w).jobs
    simp only [settle, is]
    exact ended.settleWith free _
  · cases fired

theorem Sound.release (sound : p.Sound) (created : w < p.created) (unplaced : p.places w = 0)
    (pending : (p.table w).pending.items = []) (idle : (p.table w).inbox = []) :
    (p.release w).Sound := by
  unfold Pool.release
  split
  · exact sound
  · rename_i kept
    obtain ⟨live, -⟩ := not_or.mp kept
    exact sound.offer created unplaced pending idle (Bool.eq_false_iff.mpr live)

theorem Free.release (free : p.Free call) (w : Nat) : (p.release w).Free call := by
  unfold Pool.release
  split
  · exact free
  · exact ⟨(offer_sources p w).symm ▸ free.known, (offer_claims p w call).trans free.unclaimed,
      (offer_table p w).symm ▸ free.unsent⟩

theorem Sound.onResult (sound : p.Sound) (created : w < p.created) {result : ValidationResult}
    {leaves : Bool} (answered : p.onResult w result leaves = some p') : p'.Sound := by
  unfold Pool.onResult at answered
  split at answered
  · cases answered
  rename_i message rest inbox
  obtain rfl := Option.some.inj answered
  simp only [settle]
  split
  · rename_i absent
    refine sound.put created (sound.once w) (fun _ => Or.inl) ?_ (sound.live w) (sound.fresh w) ?_
    · intro placed
      rw [sound.idle w placed] at inbox
      cases inbox
    · intro item member
      have first : (p.table w).inbox = [_] := (sound.busy w item member).2.1
      rw [inbox] at first
      obtain ⟨rfl, -⟩ := List.cons.inj first
      have is := Dict.get_eq_some_iff.mpr member
      simp only [change, Function.update_self] at absent
      rw [absent] at is
      cases is
  · rename_i call is
    simp only [change, Function.update_self] at is
    have member := Dict.get_eq_some_iff.mp is
    have first : (p.table w).inbox = [_] := (sound.busy w _ member).2.1
    rw [inbox] at first
    obtain ⟨-, rfl⟩ := List.cons.inj first
    obtain ⟨ended, free⟩ := sound.answered member [] (if leaves then (p.table w).jobs ++ [message.source]
      else (p.table w).jobs)
    rw [change_change]
    refine (ended.release created (sound.places_of_pending member) ?_ ?_).settleWith (free.release w) _
    · simp [change, erase_eq_empty (sound.pending_eq member), Dict.empty]
    · simp [change]

theorem Sound.step (sound : p.Sound) {settings : PoolSettings} {event : PoolEvent} (good : p.Good event)
    (stepped : p.step settings event = some p') : p'.Sound := by
  cases event with
  | init =>
      obtain rfl := Option.some.inj stepped
      exact sound.init settings
  | initEnds k => exact sound.initEnds good stepped
  | validate source =>
      obtain rfl := Option.some.inj stepped
      exact sound.validate source
  | dispatch call w throws => exact sound.dispatch good stepped
  | replaceEnds w => exact sound.replaceEnds stepped
  | terminated =>
      simp only [Pool.step] at stepped
      split at stepped
      · cases stepped
      · obtain rfl := Option.some.inj stepped
        exact Sound.replaced (sound.rearrange
          ⟨rfl, rfl, rfl, fun _ => Or.inl le_rfl, sound.live, List.Subset.refl _, fun _ => Or.inl le_rfl⟩)
  | shutdown =>
      obtain rfl := Option.some.inj stepped
      exact sound.shutdown
  | shutdownEnds => exact sound.shutdownEnds stepped
  | jobsEnd w =>
      simp only [Pool.step] at stepped
      split at stepped
      · obtain rfl := Option.some.inj stepped
        exact sound.jobsEnd ‹_›
      · cases stepped
  | ready w =>
      obtain ⟨-, created, rfl⟩ := by simpa [Pool.step, loop] using stepped
      exact sound.onReady created
  | result w result leaves =>
      obtain ⟨-, created, answered⟩ := by simpa [Pool.step, loop] using stepped
      exact sound.onResult created answered
  | error w outOfMemory =>
      obtain ⟨quiet, created, rfl⟩ := by simpa [Pool.step, loop] using stepped
      exact sound.onError quiet created outOfMemory
  | exit w =>
      obtain ⟨quiet, created, rfl⟩ := by simpa [Pool.step, loop] using stepped
      exact sound.onExit quiet created
  | timer w requestId =>
      obtain ⟨-, fired⟩ := by simpa [Pool.step, loop] using stepped
      exact sound.onTimer fired

theorem sound_initial : Sound {} where
  once _ := Nat.zero_le _
  uncreated _ _ := ⟨rfl, rfl⟩
  idle _ _ := rfl
  live _ _ := rfl
  fresh _ _ _ := rfl
  busy _ _ none_ := nomatch none_
  settles _ := Nat.zero_le _
  known _ _ := rfl
  unsettled _ _ none_ := nomatch none_
  apart _ _ _ none_ := nomatch none_

/-! ## Attribution -/

/-- The call gets the result that its worker computed from its source, or its worker met a limit while
it executed this source only. -/
def Attributed (settings : PoolSettings) (p : Pool) (call : Nat) (result : ValidationResult) :
    PoolEvent → Prop
  | .result w computed _ => result = computed ∧ ∃ message rest, (p.table w).inbox = message :: rest ∧
      (p.table w).pending.get message.requestId = some call ∧ message.source = p.source call
  | .timer w requestId => result = timeoutExceeded settings.timeoutMs ∧
      (p.table w).pending.get requestId = some call ∧
      (p.table w).ExecutesOnly ⟨requestId, p.source call⟩
  | .error w outOfMemory => result = heapExceeded ∧ outOfMemory = true ∧ ∃ requestId,
      (p.table w).pending.get requestId = some call ∧
      (p.table w).ExecutesOnly ⟨requestId, p.source call⟩
  | _ => False

/-- No call is settled with a result. -/
def Rejects (p p' : Pool) : Prop :=
  ∀ call result, (call, .resolved result) ∈ p'.settled → (call, .resolved result) ∈ p.settled

theorem rejects_of_eq (same : p'.settled = p.settled) : Rejects p p' := fun _ _ member => same ▸ member

theorem rejects_rejectWaiting (p : Pool) (message : String) : Rejects p (p.rejectWaiting message) := by
  intro call result member
  rcases List.mem_append.mp member with old | new
  · exact old
  · obtain ⟨_, -, is⟩ := List.mem_map.mp new
    cases is

theorem rejects_settleWith (p : Pool) (call : Nat) (message : String) :
    Rejects p (p.settleWith call (.rejected message)) := by
  intro other result member
  rcases List.mem_append.mp member with old | new
  · exact old
  · cases List.mem_singleton.mp new

theorem rejects_replaced (p : Pool) : Rejects p p.replaced := by
  unfold replaced
  dsimp only
  split
  · exact rejects_rejectWaiting _ _
  · exact rejects_of_eq rfl

theorem rejects_validate (p : Pool) (source : String) : Rejects p (p.validate source) := by
  unfold validate
  dsimp only
  split
  · exact rejects_settleWith _ _ _
  · split <;> exact rejects_of_eq rfl

theorem rejects_initEnds {k : Nat} (ended : p.initEnds k = some p') : Rejects p p' := by
  unfold initEnds at ended
  split at ended
  · cases ended
  dsimp only at ended
  split at ended
  · obtain rfl := Option.some.inj ended
    exact rejects_of_eq rfl
  · split at ended <;> cases ended
    exact rejects_of_eq rfl

theorem rejects_replaceEnds (ended : p.replaceEnds w = some p') : Rejects p p' := by
  unfold replaceEnds at ended
  split at ended
  · dsimp only at ended
    split at ended
    · cases ended
    · obtain rfl := Option.some.inj ended
      exact rejects_replaced _
    · split at ended <;> cases ended
      · exact rejects_of_eq rfl
      · intro call result member
        have before := rejects_replaced _ call result member
        simpa using before
  · cases ended

theorem Sound.retired (sound : p.Sound) {outcome : Settlement} {settlement : Settlement}
    (new : (call, settlement) ∈ (p.retireWorker w outcome).settled) (old : (call, settlement) ∉ p.settled) :
    settlement = outcome ∧ ∃ requestId, (p.table w).pending.get requestId = some call := by
  rw [retireWorker_eq p w outcome (sound.pending_length w)] at new
  rcases List.mem_append.mp new with before | here
  · exact absurd before old
  · obtain ⟨item, member, is⟩ := List.mem_map.mp here
    obtain ⟨rfl, rfl⟩ := Prod.mk.inj is
    exact ⟨rfl, item.1, Dict.get_eq_some_iff.mpr member⟩

theorem Sound.rejects_dispatch (sound : p.Sound) {throws : Bool}
    (dispatched : p.dispatch call w throws = some p') : Rejects p p' := by
  unfold Pool.dispatch at dispatched
  split at dispatched
  · rename_i handed
    have placed : 0 < p.places w := by
      have some_ : 0 < (p.handed.map Prod.snd).count w :=
        List.count_pos_iff.mpr (List.mem_map_of_mem (f := Prod.snd) handed)
      simp only [places]
      omega
    have empty : (p.table w).pending = .empty := Dict.ext (sound.pending_of_places placed)
    dsimp only at dispatched
    split at dispatched
    · obtain rfl := Option.some.inj dispatched
      rw [retireWorker_eq _ _ _ (by simp [change, empty, Dict.set, Dict.empty, upsert])]
      intro other result member
      rcases List.mem_append.mp member with old | new
      · exact old
      · obtain ⟨_, -, is⟩ := List.mem_map.mp new
        cases is
    · obtain rfl := Option.some.inj dispatched
      exact rejects_of_eq rfl
  · cases dispatched

theorem settle_settled {requestId : Nat} {result : ValidationResult} {releases : Bool}
    {settlement : Settlement}
    (new : (call, settlement) ∈ (p.settle w requestId (.resolved result) releases).settled)
    (old : (call, settlement) ∉ p.settled) :
    settlement = .resolved result ∧ (p.table w).pending.get requestId = some call := by
  have release_settled : ∀ q : Pool, (q.release w).settled = q.settled := by
    intro q
    unfold Pool.release
    split
    · rfl
    · exact offer_settled q w
  unfold settle at new
  split at new
  · exact absurd new old
  · rename_i call' is
    rcases List.mem_append.mp new with before | here
    · refine absurd ?_ old
      split at before
      · rwa [release_settled] at before
      · exact before
    · obtain ⟨rfl, rfl⟩ := Prod.mk.inj (List.mem_singleton.mp here)
      exact ⟨rfl, is⟩

theorem Sound.attributed (sound : p.Sound) {settings : PoolSettings} {event : PoolEvent}
    (stepped : p.step settings event = some p') {result : ValidationResult}
    (new : (call, .resolved result) ∈ p'.settled) (old : (call, .resolved result) ∉ p.settled) :
    Attributed settings p call result event := by
  have rejected : ¬Rejects p p' := fun rejects => old (rejects call result new)
  have executes : ∀ w requestId, (p.table w).pending.get requestId = some call →
      (p.table w).ExecutesOnly ⟨requestId, p.source call⟩ :=
    fun w requestId is => sound.busy w _ (Dict.get_eq_some_iff.mp is)
  cases event with
  | init =>
      obtain rfl := Option.some.inj stepped
      exact rejected (rejects_of_eq rfl)
  | initEnds k => exact rejected (rejects_initEnds stepped)
  | validate source =>
      obtain rfl := Option.some.inj stepped
      exact rejected (rejects_validate p source)
  | dispatch call w throws => exact rejected (sound.rejects_dispatch stepped)
  | replaceEnds w => exact rejected (rejects_replaceEnds stepped)
  | terminated =>
      simp only [Pool.step] at stepped
      split at stepped <;> cases stepped
      exact rejected (rejects_replaced _)
  | shutdown =>
      obtain rfl := Option.some.inj stepped
      exact rejected (rejects_rejectWaiting _ _)
  | shutdownEnds =>
      simp only [Pool.step, Pool.shutdownEnds] at stepped
      split at stepped <;> cases stepped
      exact rejected (rejects_of_eq rfl)
  | jobsEnd w =>
      simp only [Pool.step] at stepped
      split at stepped <;> cases stepped
      exact rejected (rejects_of_eq rfl)
  | ready w =>
      obtain ⟨-, -, rfl⟩ := by simpa [Pool.step, loop] using stepped
      refine rejected (rejects_of_eq ?_)
      unfold Pool.onReady
      split <;> rfl
  | result w computed leaves =>
      obtain ⟨-, -, answered⟩ := by simpa [Pool.step, loop] using stepped
      unfold Pool.onResult at answered
      split at answered
      · cases answered
      rename_i message rest inbox
      obtain rfl := Option.some.inj answered
      obtain ⟨same, is⟩ := settle_settled new old
      simp only [change, Function.update_self] at is
      have first : (p.table w).inbox = [_] := (executes w message.requestId is).2.1
      refine ⟨Settlement.resolved.inj same, message, rest, inbox, is, ?_⟩
      rw [inbox] at first
      rw [(List.cons.inj first).1]
  | error w outOfMemory =>
      obtain ⟨-, -, rfl⟩ := by simpa [Pool.step, loop] using stepped
      unfold Pool.onError at new
      split at new
      · exact absurd new old
      · obtain ⟨same, requestId, is⟩ := sound.retired new old
        cases outOfMemory with
        | true => exact ⟨Settlement.resolved.inj same, rfl, requestId, is, executes w requestId is⟩
        | false => cases same
  | exit w =>
      obtain ⟨-, -, rfl⟩ := by simpa [Pool.step, loop] using stepped
      unfold Pool.onExit at new
      split at new
      · exact absurd new old
      · have retired : (call, .resolved result) ∈ (p.retireWorker w
            (.rejected "validation worker exited unexpectedly")).settled := by
          dsimp only at new
          split at new
          · exact new
          · unfold Pool.replaceWorker at new
            split at new <;> exact new
        cases (sound.retired retired old).1
  | timer w requestId =>
      obtain ⟨-, fired⟩ := by simpa [Pool.step, loop] using stepped
      unfold Pool.onTimer at fired
      split at fired
      · obtain rfl := Option.some.inj fired
        obtain ⟨same, is⟩ := settle_settled new old
        exact ⟨Settlement.resolved.inj same, is, executes w requestId is⟩
      · cases fired

end Pool

/-! ## Runs -/

/-- What holds in a state of the pool. -/
structure Pool.Attributable (p : Pool) : Prop where
  /-- No call settles twice. -/
  once : (p.settled.map Prod.fst).Nodup
  /-- No worker has two requests, counting the call that it was given to. -/
  alone : ∀ w, (p.table w).pending.items.length + (p.handed.map Prod.snd).count w ≤ 1
  /-- No worker that failed was given to a call. -/
  live : ∀ call w, (call, w) ∈ p.handed → (p.table w).failed = false

theorem Pool.Sound.attributable {p : Pool} (sound : p.Sound) : p.Attributable where
  once := by
    refine List.nodup_iff_count_le_one.mpr ?_
    intro call
    have settles := sound.settles call
    simp only [Pool.claims] at settles
    omega
  alone w := by
    have once := sound.once w
    simp only [Pool.places] at once
    omega
  live call w handed := sound.live w (Or.inr (List.mem_map_of_mem (f := Prod.snd) handed))

theorem sound_run {settings : PoolSettings} {events : List PoolEvent} {p : Pool}
    (good : Throughout (Pool.step settings) Pool.Good {} events)
    (ran : run (Pool.step settings) {} events = some p) : p.Sound :=
  good.invariant ran (fun _ _ _ sound good stepped => Pool.Sound.step sound good stepped)
    Pool.sound_initial

/-- In a run in which no init hands out a worker that failed and no request meets the jobs of an earlier
source, every result is attributed to the source of its call. -/
theorem verdicts_attributed (settings : PoolSettings) (events : List PoolEvent) (t : Pool)
    (good : Throughout (Pool.step settings) Pool.Good {} events)
    (ran : run (Pool.step settings) {} events = some t) :
    t.Attributable ∧
    ∀ p event p', Takes (Pool.step settings) {} events p event p' → ∀ call result,
      (call, .resolved result) ∈ p'.settled → (call, .resolved result) ∉ p.settled →
      p.Attributed settings call result event := by
  refine ⟨(sound_run good ran).attributable, ?_⟩
  rintro p event p' ⟨before, after, rfl, reached, stepped⟩ call result new old
  exact (sound_run good.append.1 reached).attributed stepped new old

def accepted : ValidationResult := ⟨true, [], some "\x7b\x7d"⟩

/-- A worker answers one source and is killed by the next, which is attributed to it; its replacement
takes over. -/
def heapEvents : List PoolEvent :=
  [.init, .ready 0, .initEnds 0, .validate "box", .dispatch 0 0 false, .result 0 accepted false,
    .validate "cloud", .dispatch 1 0 false, .error 0 true, .exit 0, .ready 1, .replaceEnds 1]

theorem verdicts_attributed_heap : ∃ t, run (Pool.step { poolSize := 1 }) {} heapEvents = some t ∧
    t.Attributable ∧ (1, .resolved heapExceeded) ∈ t.settled := by
  have ends : (run (Pool.step { poolSize := 1 }) {} heapEvents).any
      fun t => (1, .resolved heapExceeded) ∈ t.settled := by decide +kernel
  obtain ⟨t, ran, settled⟩ := (Option.any_eq_true _ _).mp ends
  refine ⟨t, ran, ?_, of_decide_eq_true settled⟩
  exact (verdicts_attributed { poolSize := 1 } heapEvents t (by decide +kernel) ran).1

/-- The first worker exits after its message `ready` and before that of the second, and is handed out. -/
def failedEvents : List PoolEvent :=
  [.init, .ready 0, .exit 0, .ready 1, .initEnds 0, .validate "box"]

/-- The first source leaves jobs, which run when its worker has the second. -/
def leftJobsEvents : List PoolEvent :=
  [.init, .ready 0, .initEnds 0, .validate "later", .dispatch 0 0 false, .result 0 accepted true,
    .validate "box", .dispatch 1 0 false]

theorem failed_worker_handed :
    (∃ t, run (Pool.step {}) {} failedEvents = some t ∧ ¬t.Attributable) ∧
    ∃ p p', run (Pool.step { poolSize := 1 }) {} leftJobsEvents = some p ∧
      p.step { poolSize := 1 } (.timer 0 1) = some p' ∧
      (1, .resolved (timeoutExceeded 5000)) ∈ p'.settled ∧
      (1, .resolved (timeoutExceeded 5000)) ∉ p.settled ∧
      ¬p.Attributed { poolSize := 1 } 1 (timeoutExceeded 5000) (.timer 0 1) := by
  constructor
  · have hands : (run (Pool.step {}) {} failedEvents).any
        fun t => (0, 0) ∈ t.handed ∧ (t.table 0).failed = true := by decide +kernel
    obtain ⟨t, ran, is⟩ := (Option.any_eq_true _ _).mp hands
    obtain ⟨handed, failed⟩ := of_decide_eq_true is
    refine ⟨t, ran, fun attributable => ?_⟩
    rw [attributable.live 0 0 handed] at failed
    cases failed
  · have fires : (run (Pool.step { poolSize := 1 }) {} leftJobsEvents).any fun p =>
        (1, .resolved (timeoutExceeded 5000)) ∉ p.settled ∧ (p.table 0).jobs ≠ [] ∧
        (p.step { poolSize := 1 } (.timer 0 1)).any
          fun p' => (1, .resolved (timeoutExceeded 5000)) ∈ p'.settled := by decide +kernel
    obtain ⟨p, ran, is⟩ := (Option.any_eq_true _ _).mp fires
    obtain ⟨before, jobs, fired⟩ := of_decide_eq_true is
    obtain ⟨p', stepped, after⟩ := (Option.any_eq_true _ _).mp fired
    refine ⟨p, p', ran, stepped, of_decide_eq_true after, before, fun attributed => ?_⟩
    exact jobs attributed.2.2.2.2

end GenSubnet.Render
