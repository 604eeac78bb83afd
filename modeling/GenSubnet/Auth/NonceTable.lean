import GenSubnet.Auth.Replay
import Mathlib.Data.String.Basic

/-!
# The nonce table

The heap, the map and the counts hold the same nonces, so a purge finds every count it lowers. The
clock may be read in any order: nothing here depends on its going forward.
-/

namespace GenSubnet.Auth
open Library

variable {Key : Type}

/-- A step of the calls with any clock reading. -/
def anyClockStep (wallet : Wallet Key) (s : State Key) (event : Event) : Option (State Key) :=
  step wallet { s with clock := 0 } event

/-- The nonces of the map, as the heap holds them. -/
def Tables.entries (tables : Tables Key) : List Expiry :=
  tables.nonces.items.map fun item => (item.2, item.1)

/-- How many nonces the map holds for a hotkey. -/
def Tables.heldBy (tables : Tables Key) (owner : String) : Nat :=
  tables.nonces.items.countP fun item => item.1.1 = owner

/-- The heap, the map and the counts describe the same nonces. -/
structure Tables.Agree (tables : Tables Key) : Prop where
  heap : tables.expiry.Perm tables.entries
  counts : ∀ owner, tables.counts.get owner =
    if tables.heldBy owner = 0 then none else some (tables.heldBy owner : Int)

structure Tables.Sound (tables : Tables Key) : Prop extends tables.Agree where
  sorted : tables.expiry.Pairwise Expiry.before
  dated : HeapDated tables
  size : tables.nonces.size ≤ 100000
  owned : ∀ owner, tables.heldBy owner ≤ 256

theorem Expiry.before_fst {a b : Expiry} (before : a.before b) : a.1 ≤ b.1 := by
  rcases before with less | ⟨same, -⟩
  · exact less.le
  · exact same.le

/-! ## The purge -/

theorem entries_keys (tables : Tables Key) :
    tables.entries.map Prod.snd = tables.nonces.keys := by
  simp [Tables.entries, Dict.keys, List.map_map, Function.comp_def]

theorem Tables.Agree.nodup {tables : Tables Key} (agree : tables.Agree) :
    (tables.expiry.map Prod.snd).Nodup := by
  have keys := agree.heap.map Prod.snd
  rw [entries_keys] at keys
  exact keys.nodup_iff.mpr tables.nonces.nodup

theorem heldBy_eq_countP (tables : Tables Key) (owner : String) :
    tables.heldBy owner = tables.entries.countP fun entry => entry.2.1 = owner := by
  simp [Tables.heldBy, Tables.entries, List.countP_map, Function.comp_def]

theorem entries_erase (tables : Tables Key) (pair : String × String) :
    { tables with nonces := tables.nonces.erase pair }.entries =
      tables.entries.filter fun entry => entry.2 ≠ pair := by
  simp [Tables.entries, Dict.erase, List.filter_map, Function.comp_def]

theorem Tables.Agree.rest {tables : Tables Key} {entry : Expiry} {rest : List Expiry}
    (agree : { tables with expiry := entry :: rest }.Agree) :
    rest.Perm { tables with nonces := tables.nonces.erase entry.2 }.entries := by
  have nodup := agree.nodup
  simp only [List.map_cons, List.nodup_cons, List.mem_map, not_exists, not_and] at nodup
  have others : (entry :: rest).filter (fun e => e.2 ≠ entry.2) = rest := by
    rw [List.filter_cons_of_neg (by simp), List.filter_eq_self]
    intro e member
    simpa using nodup.1 e member
  rw [entries_erase, ← others]
  exact agree.heap.filter _

theorem Tables.Agree.heldBy_head {tables : Tables Key} {entry : Expiry} {rest : List Expiry}
    (agree : { tables with expiry := entry :: rest }.Agree) (owner : String) :
    tables.heldBy owner = { tables with nonces := tables.nonces.erase entry.2 }.heldBy owner +
      if entry.2.1 = owner then 1 else 0 := by
  have all := agree.heap.countP_eq fun e => decide (e.2.1 = owner)
  have others := agree.rest.countP_eq fun e => decide (e.2.1 = owner)
  rw [heldBy_eq_countP, heldBy_eq_countP, ← others]
  refine all.symm.trans ?_
  rw [List.countP_cons]
  simp only [decide_eq_true_eq]

/-- The count of the hotkey at the head of the heap is there, and without the head the counts are
those of the rest. -/
theorem Tables.Agree.pop {tables : Tables Key} {entry : Expiry} {rest : List Expiry}
    (agree : { tables with expiry := entry :: rest }.Agree) :
    ∃ counts, decrement tables.counts entry.2.1 = some counts ∧
      Tables.Agree
        { tables with expiry := rest, nonces := tables.nonces.erase entry.2, counts } := by
  have held := agree.heldBy_head
  have here := held entry.2.1
  rw [if_pos rfl] at here
  have count := agree.counts entry.2.1
  rw [if_neg (by change tables.heldBy entry.2.1 ≠ 0; omega)] at count
  change tables.counts.get entry.2.1 = some (tables.heldBy entry.2.1 : Int) at count
  refine ⟨_, by rw [decrement, count, Option.map_some], agree.rest, fun owner => ?_⟩
  have counted := agree.counts owner
  change tables.counts.get owner =
    if tables.heldBy owner = 0 then none else some (tables.heldBy owner : Int) at counted
  change Dict.get (if (tables.heldBy entry.2.1 : Int) - 1 = 0 then _ else _) owner =
    if { tables with nonces := tables.nonces.erase entry.2 }.heldBy owner = 0 then none
    else some ({ tables with nonces := tables.nonces.erase entry.2 }.heldBy owner : Int)
  by_cases mine : owner = entry.2.1
  · subst mine
    split
    · rw [Dict.get_erase, if_pos rfl, if_pos (by omega)]
    · rw [Dict.get_set_self, if_neg (by omega), here]
      congr 1
      omega
  · have same := held owner
    rw [if_neg (Ne.symm mine), Nat.add_zero] at same
    rw [← same, ← counted]
    split
    · rw [Dict.get_erase, if_neg mine]
    · rw [Dict.get_set_of_ne _ _ mine]

theorem purge_spec (now : Nat) (heap : List Expiry) (tables : Tables Key)
    (agree : { tables with expiry := heap }.Agree) (sorted : heap.Pairwise Expiry.before) :
    (purge now tables heap).2 = true ∧ (purge now tables heap).1.Agree ∧
      (purge now tables heap).1.expiry.Sublist heap ∧
      (purge now tables heap).1.nonces.items =
        tables.nonces.items.filter fun item => now < item.2 := by
  induction heap generalizing tables with
  | nil =>
      have empty : tables.nonces.items = [] := by
        have := agree.heap.nil_eq
        simpa [Tables.entries] using this.symm
      refine ⟨rfl, agree, List.Sublist.refl _, ?_⟩
      simp [purge, empty]
  | cons entry rest ih =>
      have later := List.pairwise_cons.mp sorted
      unfold purge
      split
      · rename_i expired
        obtain ⟨counts, counted, popped⟩ := agree.pop
        dsimp only
        rw [counted]
        obtain ⟨complete, agrees, sublist, items⟩ := ih
          { tables with expiry := rest, nonces := tables.nonces.erase entry.2, counts } popped later.2
        refine ⟨complete, agrees, sublist.cons _, items.trans ?_⟩
        -- The nonce at the head is the one that the erasure takes, and it has expired.
        change (tables.nonces.items.filter _).filter _ = _
        rw [List.filter_filter]
        apply List.filter_congr
        intro item member
        by_cases same : item.1 = entry.2
        · have value : (item.2, item.1) = entry := by
            have inHeap : (item.2, item.1) ∈ entry :: rest :=
              agree.heap.mem_iff.mpr (List.mem_map_of_mem (f := fun i => (i.2, i.1)) member)
            have nodup := agree.nodup
            simp only [List.map_cons, List.nodup_cons, List.mem_map, not_exists, not_and] at nodup
            rcases List.mem_cons.mp inHeap with is | inRest
            · exact is
            · exact absurd same (nodup.1 _ inRest)
          have : item.2 ≤ now := by rw [← value] at expired; exact expired
          simp [same, this]
        · simp [same]
      · rename_i current
        refine ⟨rfl, agree, List.Sublist.refl _, ?_⟩
        symm
        rw [List.filter_eq_self]
        intro item member
        have inHeap : (item.2, item.1) ∈ entry :: rest :=
          agree.heap.mem_iff.mpr (List.mem_map_of_mem (f := fun i => (i.2, i.1)) member)
        rcases List.mem_cons.mp inHeap with is | inRest
        · rw [← is] at current
          simpa using current
        · have := Expiry.before_fst (later.1 _ inRest)
          simp only [decide_eq_true_eq]
          omega

theorem Tables.Sound.purged {tables : Tables Key} (sound : tables.Sound) (now : Nat) :
    (purge now tables tables.expiry).2 = true ∧ (purge now tables tables.expiry).1.Sound := by
  obtain ⟨complete, agrees, sublist, items⟩ :=
    purge_spec now tables.expiry tables sound.toAgree sound.sorted
  refine ⟨complete, ⟨agrees, sound.sorted.sublist sublist, ?_, ?_, fun owner => ?_⟩⟩
  · exact fun entry member => sound.dated entry (sublist.subset member)
  · apply le_trans _ sound.size
    change (purge now tables tables.expiry).1.nonces.items.length ≤ tables.nonces.items.length
    rw [items]
    exact List.length_filter_le _ _
  · apply le_trans _ (sound.owned owner)
    rw [Tables.heldBy, items, Tables.heldBy]
    exact List.Sublist.countP_le (List.filter_sublist)

/-! ## The check and the insertion -/

theorem Tables.Agree.count {tables : Tables Key} (agree : tables.Agree) (owner : String) :
    (tables.counts.get owner).getD 0 = tables.heldBy owner := by
  rw [agree.counts]
  split
  · rename_i none
    simp [none]
  · rfl

theorem Tables.Sound.checked {tables : Tables Key} (sound : tables.Sound) {hotkey nonce : String}
    {now : Nat} (passed : (checkNonce tables hotkey nonce now).2 = .ok ()) :
    (purge now tables tables.expiry).1.nonces.contains (hotkey, nonce) = false ∧
      (purge now tables tables.expiry).1.nonces.size < 100000 ∧
      (purge now tables tables.expiry).1.heldBy hotkey < 256 := by
  refine ⟨checkNonce_fresh passed, ?_⟩
  have count := (sound.purged now).2.count hotkey
  unfold checkNonce at passed
  dsimp only at passed
  split at passed
  · cases passed
  split at passed
  · cases passed
  split at passed
  · cases passed
  · rename_i room
    rw [count] at room
    omega

theorem Tables.Sound.no_keyError {tables : Tables Key} (sound : tables.Sound)
    (hotkey nonce : String) (now : Nat) :
    (checkNonce tables hotkey nonce now).2 ≠ .error .keyError := by
  unfold checkNonce
  dsimp only
  rw [(sound.purged now).1]
  split
  · rename_i missing
    cases missing
  split
  · simp
  split <;> simp

theorem before_total : ∀ a b : Expiry, a.before b ∨ b.before a := by
  intro a b
  unfold Expiry.before
  rcases Nat.lt_trichotomy a.1 b.1 with less | same | more
  · exact Or.inl (Or.inl less)
  · rcases lt_trichotomy a.2.1 b.2.1 with less | equal | more
    · exact Or.inl (Or.inr ⟨same, Or.inl less⟩)
    · rcases le_total a.2.2 b.2.2 with le | le
      · exact Or.inl (Or.inr ⟨same, Or.inr ⟨equal, le⟩⟩)
      · exact Or.inr (Or.inr ⟨same.symm, Or.inr ⟨equal.symm, le⟩⟩)
    · exact Or.inr (Or.inr ⟨same.symm, Or.inl more⟩)
  · exact Or.inr (Or.inl more)

theorem before_trans : ∀ a b c : Expiry, a.before b → b.before c → a.before c := by
  rintro a b c (less | ⟨same, first⟩) (less' | ⟨same', second⟩)
  · exact Or.inl (less.trans less')
  · exact Or.inl (same' ▸ less)
  · exact Or.inl (same ▸ less')
  · refine Or.inr ⟨same.trans same', ?_⟩
    rcases first with less | ⟨owner, le⟩
    · rcases second with less' | ⟨owner', -⟩
      · exact Or.inl (less.trans less')
      · exact Or.inl (owner' ▸ less)
    · rcases second with less' | ⟨owner', le'⟩
      · exact Or.inl (owner ▸ less')
      · exact Or.inr ⟨owner.trans owner', le.trans le'⟩

instance : Std.Total Expiry.before := ⟨before_total⟩

instance : IsTrans Expiry Expiry.before := ⟨before_trans⟩

theorem Tables.Sound.insert {tables : Tables Key} (sound : tables.Sound) {hotkey nonce : String}
    (fresh : tables.nonces.contains (hotkey, nonce) = false) (room : tables.nonces.size < 100000)
    (owned : tables.heldBy hotkey < 256) (key : Key) :
    (insertNonce tables hotkey nonce key).Sound := by
  have absent : (hotkey, nonce) ∉ tables.nonces.keys := by
    rw [← Dict.contains_iff, fresh]
    exact Bool.false_ne_true
  have items : (insertNonce tables hotkey nonce key).nonces.items =
      tables.nonces.items ++ [((hotkey, nonce), nonceValue nonce + 30000000001)] :=
    Dict.items_set_of_not_mem absent _
  have held : ∀ owner, (insertNonce tables hotkey nonce key).heldBy owner =
      tables.heldBy owner + if hotkey = owner then 1 else 0 := by
    intro owner
    rw [Tables.heldBy, items, List.countP_append, List.countP_singleton, Tables.heldBy]
    simp only [decide_eq_true_eq]
  refine ⟨⟨?_, fun owner => ?_⟩, ?_, insertNonce_dated sound.dated _ _ _, ?_, fun owner => ?_⟩
  · rw [Tables.entries, items, List.map_append]
    refine (List.perm_orderedInsert _ _ _).trans ?_
    exact (sound.heap.cons _).trans (List.perm_append_singleton _ _).symm
  · rw [held]
    change (tables.counts.set hotkey ((tables.counts.get hotkey).getD 0 + 1)).get owner = _
    by_cases mine : owner = hotkey
    · subst mine
      rw [Dict.get_set_self, sound.count, if_pos rfl, if_neg (by omega)]
      simp
    · rw [Dict.get_set_of_ne _ _ mine, if_neg (Ne.symm mine), Nat.add_zero]
      exact sound.counts owner
  · exact sound.sorted.orderedInsert _ _
  · change (insertNonce tables hotkey nonce key).nonces.items.length ≤ 100000
    rw [items, List.length_append]
    exact room
  · rw [held]
    split
    · rename_i mine
      subst mine
      exact owned
    · exact sound.owned owner

/-! ## The calls -/

/-- The table is sound and no call has ended in the `KeyError` of a missing count. -/
structure Integral (s : State Key) : Prop extends Retained s where
  sound : s.tables.Sound
  counted : ∀ call ∈ s.calls, ∀ failure, call = .failed failure → failure ≠ .keyError

theorem integral_initial : Integral ({} : State Key) where
  toRetained := retained_initial
  sound :=
    { heap := List.Perm.nil
      counts := fun owner => by simp [Tables.heldBy, Dict.empty, Dict.get, lookupIn]
      sorted := List.Pairwise.nil
      dated := by simp [HeapDated]
      size := by simp [Dict.size, Dict.empty]
      owned := by simp [Tables.heldBy, Dict.empty] }
  counted := by simp

theorem counted_set {calls : List (Call Key)} {new : Call Key} {i : Nat}
    (counted : ∀ call ∈ calls, ∀ failure, call = .failed failure → failure ≠ .keyError)
    (fine : ∀ failure, new = .failed failure → failure ≠ .keyError) :
    ∀ call ∈ calls.set i new, ∀ failure, call = .failed failure → failure ≠ .keyError := by
  intro call member
  rcases List.mem_or_eq_of_mem_set member with member | rfl
  · exact counted call member
  · exact fine

theorem admission_counted (wallet : Wallet Key) (request : Request) (now : Nat) :
    ∀ failure, admission wallet request now = .failed failure → failure ≠ .keyError := by
  intro failure ended
  unfold admission at ended
  dsimp only at ended
  split at ended
  · cases ended
    simp
  split at ended
  · cases ended
    simp
  · cases ended

theorem Integral.passed {s : State Key} (inv : Integral s) (i : Nat) (call : Pending)
    (proceed : Tables Key → Tables Key × Call Key)
    (sound : ∀ tables : Tables Key, tables.Sound →
      tables.nonces.contains (call.hotkey, call.nonce) = false → tables.nonces.size < 100000 →
      tables.heldBy call.hotkey < 256 → (proceed tables).1.Sound)
    (fine : ∀ tables failure, (proceed tables).2 ≠ .failed failure) :
    (s.section i call proceed).tables.Sound ∧
      ∀ other ∈ (s.section i call proceed).calls, ∀ failure, other = .failed failure →
        failure ≠ .keyError := by
  unfold State.section
  have tables := checkNonce_tables s.tables call.hotkey call.nonce call.now
  have noKeyError := inv.sound.no_keyError call.hotkey call.nonce call.now
  have purged := (inv.sound.purged call.now).2
  cases checked : checkNonce s.tables call.hotkey call.nonce call.now with
  | mk after outcome =>
      rw [checked] at tables noKeyError
      dsimp only at tables noKeyError
      subst tables
      cases outcome with
      | error failure =>
          refine ⟨purged, counted_set inv.counted ?_⟩
          rintro failure' ⟨⟩
          exact fun is => noKeyError (is ▸ rfl)
      | ok _ =>
          obtain ⟨fresh, room, owned⟩ := inv.sound.checked (by rw [checked] :
            (checkNonce s.tables call.hotkey call.nonce call.now).2 = .ok ())
          exact ⟨sound _ purged fresh room owned,
            counted_set inv.counted fun failure is => absurd is (fine _ failure)⟩

theorem Integral.step {wallet : Wallet Key} {s s' : State Key} {event : Event} (inv : Integral s)
    (stepped : step wallet s event = some s') : Integral s' := by
  refine { toRetained := inv.toRetained.step stepped, sound := ?_, counted := ?_ }
  all_goals
    rcases step_cases stepped with ⟨request, now, -, rfl⟩ | ⟨i, old, reason, -, -, rfl⟩ |
      ⟨i, call, -, at_i, rfl⟩ | ⟨i, call, known, key, -, at_i, rfl⟩
  · exact inv.sound
  · exact inv.sound
  · exact (inv.passed i call _ (fun _ sound _ _ _ => sound) (by simp)).1
  · exact (inv.passed i call _ (fun _ sound fresh room owned => sound.insert fresh room owned key)
      (by simp)).1
  · intro call member
    rcases List.mem_append.mp member with member | member
    · exact inv.counted call member
    · rw [List.mem_singleton.mp member]
      exact admission_counted wallet request now
  · exact counted_set inv.counted (by rintro failure ⟨⟩; simp)
  · exact (inv.passed i call _ (fun _ sound _ _ _ => sound) (by simp)).2
  · exact (inv.passed i call _ (fun _ sound fresh room owned => sound.insert fresh room owned key)
      (by simp)).2

theorem integral_anyClockStep (wallet : Wallet Key) (s : State Key) (event : Event)
    (s' : State Key) (inv : Integral s) (stepped : anyClockStep wallet s event = some s') :
    Integral s' := by
  have zeroed : Integral { s with clock := 0 } :=
    ⟨⟨inv.timely, inv.dated, inv.held⟩, inv.sound, inv.counted⟩
  exact zeroed.step stepped

/-- In every interleaving of calls with any clock readings the heap, the map and the counts agree, no
purge misses a count, the bounds hold, and an accepted nonce is held until a section with a reading
past its window has run. -/
theorem nonce_table_integrity (wallet : Wallet Key) (events : List Event) (s : State Key)
    (ran : run (anyClockStep wallet) {} events = some s) :
    s.tables.Agree ∧
      (∀ call ∈ s.calls, ∀ failure, call = .failed failure → failure ≠ .keyError) ∧
      (∀ now, (purge now s.tables s.tables.expiry).2 = true) ∧
      s.tables.nonces.size ≤ 100000 ∧ (∀ owner, s.tables.heldBy owner ≤ 256) ∧
      ∀ call ∈ s.calls, ∀ pair, call.acceptedAs pair = true → call.Unexpired s.purges →
        s.tables.nonces.contains pair = true := by
  have inv := run_invariant ran (integral_anyClockStep wallet) integral_initial
  exact ⟨inv.sound.toAgree, inv.counted, fun now => (inv.sound.purged now).1, inv.sound.size,
    inv.sound.owned, inv.held⟩

/-- Two calls of one hotkey, the second with an earlier clock reading, and a replay of the first. -/
def turnedBackClock : List Event :=
  [.arrive (signedRequest aliceHotkey aliceNonce) 1700000020000000000,
    .inspect 0 (.ok ()), .conclude 0 (.ok ()),
    .arrive (signedRequest aliceHotkey "1700000000000000001") 1700000010000000000,
    .inspect 1 (.ok ()), .conclude 1 (.ok ()),
    .arrive (signedRequest aliceHotkey aliceNonce) 1700000020000000000, .inspect 2 (.ok ())]

theorem nonce_table_integrity_turned_back :
    ∃ s, run (anyClockStep openWallet) {} turnedBackClock = some s ∧ s.tables.Agree ∧
      s.tables.nonces.size = 2 ∧ s.tables.heldBy aliceHotkey ≤ 256 := by
  have ran : (run (anyClockStep openWallet) {} turnedBackClock).any
      (fun s => s.tables.nonces.size = 2) = true := by decide +kernel
  obtain ⟨s, is, two⟩ := (Option.any_eq_true _ _).mp ran
  have integrity := nonce_table_integrity openWallet turnedBackClock s is
  exact ⟨s, is, integrity.1, of_decide_eq_true two, integrity.2.2.2.2.1 aliceHotkey⟩

end GenSubnet.Auth
