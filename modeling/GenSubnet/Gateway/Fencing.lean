import GenSubnet.Gateway.Selection

/-!
# Fenced and served Pods

Over every interleaving of the changes of a selection: a Pod that was retired, where the retirement
did not come before its epoch, is never selected again; and no Pod is both served and expired.
-/

namespace GenSubnet.Gateway
open Library Library.Optimistic

variable {pods : Set Pod}

/-- The Pod of a call is one of the scope. -/
def SelectionOp.Within (pods : Set Pod) (op : SelectionOp) : Prop := op.pod ∈ pods

/-- A retirement that finds the record of another Pod finds one that fences its own Pod. -/
def SelectionOp.Fenced : SelectionOp → Option SelectionRecord → Prop
  | .update pod false, some value => value.podId ≠ pod.id → pod.epochNs ≤ value.epochNs
  | _, _ => True

instance (op : SelectionOp) (record : Option SelectionRecord) : Decidable (op.Fenced record) := by
  unfold SelectionOp.Fenced
  split
  · infer_instance
  · exact isTrue trivial

theorem before_update {old value : SelectionRecord} {pod : Pod} {active : Bool}
    {result : Option Bool} (inventory : Inventory pods) (member : pod ∈ pods) (of : old.Of pods)
    (decides : Selection.update pod active (some old) = .writes value result) :
    old.Before value := by
  obtain ⟨rfl, moves⟩ := Selection.update_writes decides
  obtain ⟨owner, ownerIn, ownerId, ownerStart, ownerEpoch⟩ := of
  rcases moves old rfl with ⟨own, lives⟩ | ⟨other, rfl, earlier, starts⟩
  · have same := (inventory.identified owner ownerIn pod member (ownerId.symm.trans own)).2
    have kept : (Selection.updatedRecord pod active (some old)).accessGranted = old.accessGranted :=
      if_pos own
    refine .pod own.symm (same.symm.trans ownerEpoch.symm) ?_ ?_ ?_
    · intro dead
      rcases lives with retired | alive
      · exact retired
      · exact absurd (dead.symm.trans alive) Bool.false_ne_true
    · rw [kept]
      exact id
    · rw [kept]
      exact id
  · have differ := inventory.epochs owner ownerIn pod member (ownerStart ▸ starts)
    refine .epoch (Nat.lt_of_le_of_ne earlier ?_)
    rw [ownerEpoch]
    exact differ

theorem selection_advances (inventory : Inventory pods) :
    Advances SelectionOp.decision (SelectionOp.Within pods) (Good pods) Later where
  start := trivial
  trans := later_trans
  writes := by
    intro op snapshot value result within good decides
    cases op with
    | update pod active =>
        constructor
        · obtain ⟨rfl, -⟩ := Selection.update_writes decides
          exact ⟨pod, within, rfl, rfl, rfl⟩
        · cases snapshot with
          | none => trivial
          | some old => exact before_update inventory within good decides
    | grant pod =>
        obtain ⟨old, rfl, own, alive, rfl⟩ := Selection.grant_writes decides
        exact ⟨good, .pod rfl rfl id (fun _ => rfl) (nomatch ·)⟩
    | revokeUnserved pod =>
        obtain ⟨old, rfl, own, unserved, rfl⟩ := Selection.revokeUnserved_writes decides
        exact ⟨good, .pod rfl rfl (fun _ => rfl) id id⟩

/-! ## Fences -/

/-- The record keeps a Pod out for good. -/
def SelectionRecord.KeepsOut (value : SelectionRecord) (pod : Pod) : Prop :=
  pod.epochNs ≤ value.epochNs ∧ (value.podId = pod.id → value.active = false)

theorem SelectionRecord.KeepsOut.mono {old new : SelectionRecord} {pod : Pod}
    (inventory : Inventory pods) (member : pod ∈ pods) (of : new.Of pods) (keeps : old.KeepsOut pod)
    (before : old.Before new) : new.KeepsOut pod := by
  cases before with
  | epoch grows =>
      refine ⟨keeps.1.trans (Nat.le_of_lt grows), ?_⟩
      intro own
      obtain ⟨owner, ownerIn, ownerId, -, ownerEpoch⟩ := of
      have same := (inventory.identified owner ownerIn pod member (ownerId.symm.trans own)).2
      have early := keeps.1
      omega
  | pod same epoch dead granted unserved =>
      refine ⟨epoch ▸ keeps.1, ?_⟩
      intro own
      exact dead (keeps.2 (same.symm.trans own))

/-- A call that has fenced its Pod: a retirement that returned, or an expiry that said so. -/
def Fences (pod : Pod) (c : Client SelectionRecord SelectionOp (Option Bool) StateConflict) : Prop :=
  (c.op = .update pod false ∧ ∃ result, c.phase = .returned result) ∨
    (c.op = .revokeUnserved pod ∧ c.phase = .returned (some true))

variable {s : SelectionState}

theorem keepsOut_of_fences (sound : Sound SelectionOp.decision (SelectionOp.Within pods)
      SelectionOp.Fenced (Good pods) Later s) (inventory : Inventory pods)
    {c : Client SelectionRecord SelectionOp (Option Bool) StateConflict} (member : c ∈ s.clients)
    {pod : Pod} (fences : Fences pod c) :
    pod ∈ pods ∧ ∃ value, some value ∈ s.contents ∧ value.KeepsOut pod := by
  obtain ⟨op, phase⟩ := c
  obtain ⟨within, fits⟩ := sound.clients _ member
  have epoch_eq : ∀ old : SelectionRecord, some old ∈ s.contents → old.podId = pod.id →
      pod ∈ pods → pod.epochNs = old.epochNs := by
    intro old present own isIn
    obtain ⟨owner, ownerIn, ownerId, -, ownerEpoch⟩ := sound.good _ present
    rw [ownerEpoch]
    exact ((inventory.identified owner ownerIn pod isIn (ownerId.symm.trans own)).2).symm
  rcases fences with ⟨rfl, result, rfl⟩ | ⟨rfl, rfl⟩
  · refine ⟨within, ?_⟩
    cases fits with
    | returns snapshot present settles decides =>
        obtain ⟨old, rfl, same | ⟨-, other⟩⟩ := Selection.update_returns decides
        · have own : old.podId = pod.id := congrArg SelectionRecord.podId same
          refine ⟨old, present, Nat.le_of_eq (epoch_eq old present own within), fun _ => ?_⟩
          exact congrArg SelectionRecord.active same
        · exact ⟨old, present, settles other, fun own => absurd own other⟩
    | writes snapshot value present written decides =>
        obtain ⟨rfl, -⟩ := Selection.update_writes decides
        exact ⟨_, written, Nat.le_refl _, fun _ => rfl⟩
  · refine ⟨within, ?_⟩
    cases fits with
    | returns snapshot present settles decides =>
        obtain ⟨old, rfl, own, dead, -⟩ := Selection.revokeUnserved_returns_true decides
        exact ⟨old, present, Nat.le_of_eq (epoch_eq old present own within), fun _ => dead⟩
    | writes snapshot value present written decides =>
        obtain ⟨old, rfl, own, -, rfl⟩ := Selection.revokeUnserved_writes decides
        exact ⟨_, written, Nat.le_of_eq (epoch_eq old present own within), fun _ => rfl⟩

theorem selected_of_keepsOut (inventory : Inventory pods) {pod : Pod} (isIn : pod ∈ pods)
    (sound : Sound SelectionOp.decision (SelectionOp.Within pods) SelectionOp.Fenced (Good pods)
      Later s) {value : SelectionRecord} (member : some value ∈ s.contents)
    (keeps : value.KeepsOut pod) : Selection.selected s.data pod.startId pod.id = false := by
  have present : ∃ last, s.data = some last ∧ last.KeepsOut pod := by
    rcases sound.latest member with same | later
    · exact ⟨value, same.symm, keeps⟩
    · cases held : s.data with
      | none =>
          rw [held] at later
          cases later
      | some last =>
          rw [held] at later
          have good := sound.good _ (data_mem_contents s)
          rw [held] at good
          exact ⟨last, rfl, keeps.mono inventory isIn good later⟩
  obtain ⟨last, held, keeps⟩ := present
  rw [held, Selection.selected]
  by_cases own : last.podId = pod.id
  · rw [keeps.2 own]
    rfl
  · simp [own]

theorem Fences.returned {pod : Pod}
    {c : Client SelectionRecord SelectionOp (Option Bool) StateConflict} (fences : Fences pod c) :
    ∃ result, c.phase = .returned result := by
  rcases fences with ⟨-, returned⟩ | ⟨-, returned⟩
  · exact returned
  · exact ⟨_, returned⟩

/-- Where no retirement comes before the epoch of its Pod, a fenced Pod stays fenced. -/
theorem fenced_stays_fenced {pods : Set Pod} (inventory : Inventory pods)
    {before after : List (Event SelectionOp)} {s₀ s : SelectionState}
    (guarded : Throughout (Optimistic.step SelectionOp.decision)
      (Admissible (SelectionOp.Within pods) SelectionOp.Fenced) {} (before ++ after))
    (ran : run (Optimistic.step SelectionOp.decision) {} before = some s₀) {pod : Pod}
    {c : Client SelectionRecord SelectionOp (Option Bool) StateConflict} (member : c ∈ s₀.clients)
    (fences : Fences pod c) (goesOn : run (Optimistic.step SelectionOp.decision) s₀ after = some s) :
    Selection.selected s.data pod.startId pod.id = false := by
  have sound := sound_of_run (selection_advances inventory) guarded
    (run_append.mpr ⟨s₀, ran, goesOn⟩)
  obtain ⟨result, returned⟩ := fences.returned
  have kept := returned_stays returned goesOn member
  obtain ⟨isIn, value, present, keeps⟩ := keepsOut_of_fences sound inventory kept fences
  exact selected_of_keepsOut inventory isIn sound present keeps

/-! ### Two connections of a scope -/

def sampleScope : Scope :=
  ⟨"competition", "7", "5FHneW46xGXgs5mUiveU4sbTyGBzmstUspZC92UhjJM694ty"⟩

def olderPod : Pod where
  id := "pod-older"
  scope := some sampleScope
  startId := "00000000-0000-4000-8000-000000000001"
  epochNs := 1

def newerPod : Pod where
  id := "pod-newer"
  scope := some sampleScope
  startId := "00000000-0000-4000-8000-000000000002"
  epochNs := 2

def samplePods : Set Pod := {olderPod, newerPod}

theorem sample_inventory : Inventory samplePods := by
  constructor <;> rintro p (rfl | rfl) q (rfl | rfl) <;> decide +kernel

instance (op : SelectionOp) : Decidable (op.Within samplePods) :=
  inferInstanceAs (Decidable (op.pod = olderPod ∨ op.pod = newerPod))

/-- A call that loads, decides and writes without being disturbed. -/
def writing (i : Nat) (op : SelectionOp) : List (Event SelectionOp) :=
  [.call op, .load i, .settle i, .land i]

def afterRun (events : List (Event SelectionOp)) : SelectionState :=
  (run (Optimistic.step SelectionOp.decision) {} events).getD {}

theorem run_afterRun {events : List (Event SelectionOp)}
    (enabled : (run (Optimistic.step SelectionOp.decision) {} events).isSome = true) :
    run (Optimistic.step SelectionOp.decision) {} events = some (afterRun events) := by
  obtain ⟨s, ran⟩ := Option.isSome_iff_exists.mp enabled
  rw [afterRun, ran, Option.getD_some]

theorem run_from_afterRun {before after : List (Event SelectionOp)}
    (enabled : (run (Optimistic.step SelectionOp.decision) {} (before ++ after)).isSome = true) :
    run (Optimistic.step SelectionOp.decision) (afterRun before) after = some (afterRun (before ++ after)) := by
  have whole := run_afterRun enabled
  obtain ⟨s, ran, goesOn⟩ := run_append.mp whole
  rw [afterRun, ran, Option.getD_some]
  exact goesOn

/-- The older Pod is selected and retired before the newer one is selected. -/
def replacing : List (Event SelectionOp) :=
  writing 0 (.update olderPod true) ++ writing 1 (.update olderPod false)

theorem fenced_stays_fenced_replaced :
    Selection.selected (afterRun (replacing ++ writing 2 (.update newerPod true))).data
      olderPod.startId olderPod.id = false := by
  have retired : (⟨.update olderPod false, .returned none⟩ :
      Client SelectionRecord SelectionOp (Option Bool) StateConflict) ∈ (afterRun replacing).clients :=
    List.mem_of_getElem? (i := 1) (by decide +kernel)
  exact fenced_stays_fenced sample_inventory (by decide +kernel) (run_afterRun (by decide +kernel))
    retired (Or.inl ⟨rfl, none, rfl⟩) (run_from_afterRun (by decide +kernel))

/-- The retirement of the newer Pod finds the record of the older one, returns, and is undone. -/
theorem early_retirement_undone : Inventory samplePods ∧
    ∃ before after s₀ s, (∀ op, .call op ∈ before ++ after → op.Within samplePods) ∧
      run (Optimistic.step SelectionOp.decision) {} before = some s₀ ∧
      (∃ c ∈ s₀.clients, Fences newerPod c) ∧
      run (Optimistic.step SelectionOp.decision) s₀ after = some s ∧
      Selection.selected s.data newerPod.startId newerPod.id = true := by
  refine ⟨sample_inventory, writing 0 (.update olderPod true) ++
      [.call (.update newerPod false), .load 1, .settle 1], writing 2 (.update newerPod true), _, _,
    ?_, run_afterRun (by decide +kernel), ⟨⟨.update newerPod false, .returned none⟩,
      List.mem_of_getElem? (i := 1) (by decide +kernel), Or.inl ⟨rfl, none, rfl⟩⟩,
    run_from_afterRun (by decide +kernel), by decide +kernel⟩
  intro op member
  simp only [writing, List.cons_append, List.nil_append, List.mem_cons, Event.call.injEq,
    reduceCtorEq, false_or, List.not_mem_nil, or_false] at member
  rcases member with rfl | rfl | rfl
  · exact Or.inl rfl
  · exact Or.inr rfl
  · exact Or.inr rfl

/-! ## Serving and expiring -/

theorem served_record {Settles : SelectionOp → Option SelectionRecord → Prop}
    {contents : List (Option SelectionRecord)} {pod : Pod}
    (justified : Justified SelectionOp.decision Settles contents (.grant pod) (some true)) :
    ∃ value, some value ∈ contents ∧ value.podId = pod.id ∧ value.active = true ∧
      value.accessGranted = some true := by
  cases justified with
  | returns snapshot present settles decides =>
      obtain ⟨old, rfl, own, alive, granted⟩ := Selection.grant_returns_true decides
      exact ⟨old, present, own, alive, granted⟩
  | writes snapshot value present written decides =>
      obtain ⟨old, rfl, own, alive, rfl⟩ := Selection.grant_writes decides
      exact ⟨_, written, own, alive, rfl⟩

theorem expired_record {Settles : SelectionOp → Option SelectionRecord → Prop}
    {contents : List (Option SelectionRecord)} {pod : Pod}
    (justified : Justified SelectionOp.decision Settles contents (.revokeUnserved pod) (some true)) :
    ∃ value, some value ∈ contents ∧ value.podId = pod.id ∧ value.active = false ∧
      value.accessGranted = some false := by
  cases justified with
  | returns snapshot present settles decides =>
      obtain ⟨old, rfl, own, dead, unserved⟩ := Selection.revokeUnserved_returns_true decides
      exact ⟨old, present, own, dead, unserved⟩
  | writes snapshot value present written decides =>
      obtain ⟨old, rfl, own, unserved, rfl⟩ := Selection.revokeUnserved_writes decides
      exact ⟨_, written, own, rfl, unserved⟩

/-- No Pod is both granted and expired as unserved. -/
theorem serve_or_expire {pods : Set Pod} (inventory : Inventory pods)
    {events : List (Event SelectionOp)} {s : SelectionState}
    (calls : ∀ op, .call op ∈ events → op.Within pods)
    (ran : run (Optimistic.step SelectionOp.decision) {} events = some s) {pod pod' : Pod}
    {c c' : Client SelectionRecord SelectionOp (Option Bool) StateConflict}
    (member : c ∈ s.clients) (granted : c.op = .grant pod ∧ c.phase = .returned (some true))
    (member' : c' ∈ s.clients)
    (revoked : c'.op = .revokeUnserved pod' ∧ c'.phase = .returned (some true)) :
    pod.id ≠ pod'.id := by
  intro same
  have admissible : Throughout (Optimistic.step SelectionOp.decision)
      (Admissible (SelectionOp.Within pods) fun _ _ => True) {} events := by
    refine throughout_of_forall fun event member s => admissible_of_allowed fun op is => ?_
    exact calls op (is ▸ member)
  have sound := sound_of_run (selection_advances inventory) admissible ran
  obtain ⟨op, phase⟩ := c
  obtain ⟨op', phase'⟩ := c'
  obtain ⟨rfl, rfl⟩ := granted
  obtain ⟨rfl, rfl⟩ := revoked
  obtain ⟨served, present, own, alive, granted⟩ := served_record (sound.clients _ member).2
  obtain ⟨expired, present', own', dead, unserved⟩ := expired_record (sound.clients _ member').2
  obtain ⟨owner, ownerIn, ownerId, -, ownerEpoch⟩ := sound.good _ present
  obtain ⟨owner', ownerIn', ownerId', -, ownerEpoch'⟩ := sound.good _ present'
  have sameId : owner.id = owner'.id := by rw [← ownerId, own, same, ← own', ownerId']
  have sameEpoch : served.epochNs = expired.epochNs := by
    rw [ownerEpoch, ownerEpoch', (inventory.identified owner ownerIn owner' ownerIn' sameId).2]
  rcases sound.compare present present' with equal | before | before
  · obtain rfl := Option.some.inj equal
    exact Bool.false_ne_true (dead.symm.trans alive)
  · cases before with
    | epoch grows => omega
    | pod _ _ _ keeps _ => exact absurd ((keeps granted).symm.trans unserved) (by decide)
  · cases before with
    | epoch grows => omega
    | pod _ _ dies _ _ => exact Bool.false_ne_true ((dies dead).symm.trans alive)

/-- The older Pod is served, the newer one expires. -/
def servingAndExpiring : List (Event SelectionOp) :=
  writing 0 (.update olderPod true) ++ writing 1 (.grant olderPod) ++
    writing 2 (.update newerPod true) ++ writing 3 (.revokeUnserved newerPod)

theorem serve_or_expire_sample : olderPod.id ≠ newerPod.id := by
  have calls : ∀ op, .call op ∈ servingAndExpiring → op.Within samplePods := by
    intro op member
    simp only [servingAndExpiring, writing, List.cons_append, List.nil_append, List.mem_cons,
      Event.call.injEq, reduceCtorEq, false_or, List.not_mem_nil, or_false] at member
    rcases member with rfl | rfl | rfl | rfl
    · exact Or.inl rfl
    · exact Or.inl rfl
    · exact Or.inr rfl
    · exact Or.inr rfl
  have granted : (⟨.grant olderPod, .returned (some true)⟩ :
      Client SelectionRecord SelectionOp (Option Bool) StateConflict) ∈
        (afterRun servingAndExpiring).clients :=
    List.mem_of_getElem? (i := 1) (by decide +kernel)
  have expired : (⟨.revokeUnserved newerPod, .returned (some true)⟩ :
      Client SelectionRecord SelectionOp (Option Bool) StateConflict) ∈
        (afterRun servingAndExpiring).clients :=
    List.mem_of_getElem? (i := 3) (by decide +kernel)
  exact serve_or_expire sample_inventory calls (run_afterRun (by decide +kernel)) granted ⟨rfl, rfl⟩
    expired ⟨rfl, rfl⟩

end GenSubnet.Gateway
