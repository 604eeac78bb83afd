import GenSubnet.Gateway.QueueJournal
import GenSubnet.Gateway.Spent
import GenSubnet.Library.Hex
import Mathlib.Data.List.Dedup

/-!
# The footprint of a hotkey

Over every sequence of queue operations the journal keeps a pending start and a current attempt of a
hotkey, and for each connection that the hotkey asked for at most one record of the history and one
retained create. The connections of a round have no other bound than the length of the journal.
-/

namespace GenSubnet.Gateway
open Library

/-! ## What was asked for -/

/-- Every record is of a connection that its hotkey asked for. -/
structure QueueState.Within (asked : List Asked) (state : QueueState) : Prop where
  pending : ∀ hotkey entry, state.pending.get hotkey = some entry →
    ⟨entry.round, hotkey, entry.startId⟩ ∈ asked
  attempts : ∀ hotkey a, state.attempts.get hotkey = some a → ⟨a.round, hotkey, a.startId⟩ ∈ asked
  history : ∀ hotkey startId a, (state.historyOf hotkey).get startId = some a →
    ⟨a.round, hotkey, startId⟩ ∈ asked ∧ ⟨a.round, hotkey, a.startId⟩ ∈ asked
  retained : ∀ hotkey startId a, state.retained.get (hotkey, startId) = some a →
    ∃ round, ⟨round, hotkey, startId⟩ ∈ asked

variable {settings : QueueSettings} {scope : Scope} {startId : String} {now : Rat}
  {state state' : QueueState} {asked more : List Asked}

theorem QueueState.Within.mono (within : state.Within asked) (subset : asked ⊆ more) :
    state.Within more where
  pending hotkey entry present := subset (within.pending hotkey entry present)
  attempts hotkey a present := subset (within.attempts hotkey a present)
  history hotkey startId a present :=
    ⟨subset (within.history hotkey startId a present).1,
      subset (within.history hotkey startId a present).2⟩
  retained hotkey startId a present := by
    obtain ⟨round, member⟩ := within.retained hotkey startId a present
    exact ⟨round, subset member⟩

theorem within_empty : QueueState.Within asked {} := by
  constructor
  all_goals
    intros
    rename_i present
    cases present

theorem QueueState.Within.setHistory (within : state.Within asked) {hotkey : String}
    {a : CreateAttempt} (key : ⟨a.round, hotkey, startId⟩ ∈ asked)
    (value : ⟨a.round, hotkey, a.startId⟩ ∈ asked) :
    (state.setHistory hotkey startId a).Within asked where
  pending := within.pending
  attempts := within.attempts
  retained := within.retained
  history := by
    intro other otherId found present
    rw [historyOf_setHistory] at present
    split at present
    · rename_i same
      subst same
      rw [Dict.get_set] at present
      split at present
      · rename_i same
        subst same
        obtain rfl := Option.some.inj present
        exact ⟨key, value⟩
      · exact within.history _ _ _ present
    · exact within.history _ _ _ present

theorem QueueState.Within.setPending (within : state.Within asked) (hotkey : String)
    (entry : PendingStart) (member : ⟨entry.round, hotkey, entry.startId⟩ ∈ asked) :
    QueueState.Within asked { state with pending := state.pending.set hotkey entry } where
  attempts := within.attempts
  history := within.history
  retained := within.retained
  pending := by
    intro other found present
    rw [Dict.get_set] at present
    split at present
    · rename_i same
      subst same
      obtain rfl := Option.some.inj present
      exact member
    · exact within.pending _ _ present

theorem QueueState.Within.setAttempt (within : state.Within asked) (hotkey : String)
    (a : CreateAttempt) (member : ⟨a.round, hotkey, a.startId⟩ ∈ asked) :
    QueueState.Within asked { state with attempts := state.attempts.set hotkey a } where
  pending := within.pending
  history := within.history
  retained := within.retained
  attempts := by
    intro other found present
    rw [Dict.get_set] at present
    split at present
    · rename_i same
      subst same
      obtain rfl := Option.some.inj present
      exact member
    · exact within.attempts _ _ present

theorem QueueState.Within.dropPending (within : state.Within asked)
    {pending : Dict String PendingStart}
    (fewer : ∀ hotkey entry, pending.get hotkey = some entry →
      state.pending.get hotkey = some entry) :
    QueueState.Within asked { state with pending } where
  pending hotkey entry present := within.pending hotkey entry (fewer hotkey entry present)
  attempts := within.attempts
  history := within.history
  retained := within.retained

theorem QueueState.Within.numbered (within : state.Within asked) {sequence : Nat}
    {lastCreateAt : Option Int} : QueueState.Within asked { state with sequence, lastCreateAt } :=
  ⟨within.pending, within.attempts, within.history, within.retained⟩

/-! ## Loading -/

theorem get_setDefaults_inv {hotkey key : String} {a : CreateAttempt}
    (items : List (String × CreateAttempt)) {history : Dict String (Dict String CreateAttempt)}
    (present : (((items.foldl (fun history item => history.set item.1
      (((history.get item.1).getD .empty).setDefault item.2.startId item.2)) history).get
        hotkey).getD .empty).get key = some a) :
    ((history.get hotkey).getD .empty).get key = some a ∨ (hotkey, a) ∈ items ∧ a.startId = key := by
  induction items generalizing history with
  | nil => exact Or.inl present
  | cons item rest ih =>
      rcases ih present with earlier | ⟨member, own⟩
      · rw [Dict.get_set] at earlier
        split at earlier
        · rename_i same
          subst same
          rw [Option.getD_some, Dict.get_setDefault] at earlier
          split at earlier
          · rename_i own
            subst own
            cases held : ((history.get item.1).getD .empty).get item.2.startId with
            | some old =>
                rw [held, Option.getD_some] at earlier
                exact Or.inl earlier
            | none =>
                rw [held, Option.getD_none] at earlier
                obtain rfl := Option.some.inj earlier
                exact Or.inr ⟨List.mem_cons_self, rfl⟩
          · exact Or.inl earlier
        · exact Or.inl earlier
      · exact Or.inr ⟨List.mem_cons_of_mem _ member, own⟩

theorem within_loaded (within : state.Within asked) : (state.loaded now).Within asked where
  attempts := within.attempts
  retained := within.retained
  pending := by
    intro hotkey entry present
    obtain ⟨old, found, round, start, -⟩ := get_loaded present
    have member := within.pending hotkey old found
    rw [round, start] at member
    exact member
  history := by
    intro hotkey startId a present
    rcases get_setDefaults_inv state.attempts.items present with found | ⟨member, rfl⟩
    · exact within.history hotkey startId a found
    · have own := within.attempts hotkey a (Dict.get_eq_some_iff.mpr member)
      exact ⟨own, own⟩

/-! ## Changes -/

theorem within_enqueue {replaces : Option String} {entry : PendingStart}
    (within : state.Within asked) (member : ⟨scope.round, scope.hotkey, startId⟩ ∈ asked)
    (changed : state.enqueue settings scope startId now replaces = .ok (state', entry)) :
    state'.Within asked := by
  unfold QueueState.enqueue at changed
  split at changed
  · rename_i current present
    split at changed
    · cases changed
    · rename_i round
      rw [not_not] at round
      split at changed
      · obtain ⟨rfl, -⟩ := Prod.mk.inj (Except.ok.inj changed)
        exact within
      · obtain ⟨rfl, -⟩ := Prod.mk.inj (Except.ok.inj changed)
        -- the record of an alias names the connection that is pending
        have own := within.pending _ _ present
        rw [round] at own
        exact within.setHistory member own
  · split at changed
    · cases changed
    · split at changed
      · cases changed
      · obtain ⟨rfl, -⟩ := Prod.mk.inj (Except.ok.inj changed)
        apply QueueState.Within.setHistory
        · exact within.numbered.setPending _ _ member
        · exact member
        · exact member

theorem within_authorize (within : state.Within asked)
    (changed : state.authorize settings scope startId now = .ok state') : state'.Within asked := by
  unfold QueueState.authorize at changed
  split at changed
  · cases changed
  · rename_i entry present
    split at changed
    · cases changed
    · rename_i own
      rw [not_or, not_not] at own
      obtain ⟨⟨round, start⟩, -⟩ := own
      split at changed
      · cases changed
      · split at changed
        · cases changed
        · obtain rfl := Except.ok.inj changed
          have entered := within.pending _ _ present
          have member := entered
          rw [round, start] at member
          apply QueueState.Within.setHistory
          · have attempted := within.setAttempt scope.hotkey
              { round := scope.round, startId, atTime := ⌈now⌉ } member
            exact (attempted.setPending scope.hotkey { entry with submitted := true } entered).numbered
          · exact member
          · exact member

theorem within_release (within : state.Within asked)
    (changed : state.releaseAuthorization scope startId = .ok state') : state'.Within asked := by
  unfold QueueState.releaseAuthorization at changed
  split at changed
  · obtain rfl := Except.ok.inj changed
    exact within
  · rename_i entry present
    split at changed
    · obtain rfl := Except.ok.inj changed
      exact within
    · split at changed
      · cases changed
      · rename_i history held
        split at changed
        · cases changed
        · rename_i own ownPresent
          obtain rfl := Except.ok.inj changed
          have heldHistory : state.historyOf scope.hotkey = history := by
            rw [QueueState.historyOf, held, Option.getD_some]
          have ownAsked := within.history scope.hotkey startId own (by rw [heldHistory, ownPresent])
          have inHistory : ∀ key a, (history.set startId { own with submitted := false }).get key =
              some a → ⟨a.round, scope.hotkey, key⟩ ∈ asked ∧ ⟨a.round, scope.hotkey, a.startId⟩ ∈ asked := by
            intro key a found
            rw [Dict.get_set] at found
            split at found
            · rename_i same
              subst same
              obtain rfl := Option.some.inj found
              exact ownAsked
            · exact within.history scope.hotkey key a (by rw [heldHistory, found])
          refine ⟨?_, ?_, ?_, within.retained⟩
          · exact (within.setPending scope.hotkey { entry with submitted := false }
              (within.pending scope.hotkey entry present)).pending
          · intro other a found
            simp only at found
            split at found
            · rename_i last latestIs
              rw [Dict.get_set] at found
              split at found
              · rename_i same
                subst same
                obtain rfl := Option.some.inj found
                obtain ⟨⟨key, b⟩, item, rfl⟩ := List.mem_map.mp (List.mem_filter.mp (latest_mem latestIs)).1
                exact (inHistory key b (Dict.get_eq_some_iff.mpr item)).2
              · exact within.attempts other a found
            · rw [Dict.get_erase] at found
              split at found
              · cases found
              · exact within.attempts other a found
          · intro other key a found
            rw [QueueState.historyOf] at found
            simp only at found
            rw [Dict.get_set] at found
            split at found
            · rename_i same
              subst same
              exact inHistory key a found
            · exact within.history other key a found

theorem within_complete (within : state.Within asked) (rejected : Bool) :
    (state.complete scope startId rejected).Within asked := by
  have left : QueueState.Within asked { state with pending := state.withoutEntry scope startId } :=
    within.dropPending fun hotkey _ present => (get_withoutEntry hotkey present).1
  unfold QueueState.complete
  split
  · rename_i previous held
    split
    · rename_i rejects
      have member := within.attempts _ _ held
      have own : previous.startId = startId := rejects.2.2
      apply QueueState.Within.setHistory
      · exact left.setAttempt _ _ member
      · rw [← own]
        exact member
      · exact member
    · exact left
  · exact left

theorem within_cancel (within : state.Within asked) : (state.cancel scope startId).1.Within asked := by
  unfold QueueState.cancel
  split
  · exact within
  · split
    · exact within
    · apply within.dropPending
      intro hotkey entry present
      rw [Dict.get_erase] at present
      split at present
      · cases present
      · exact present

theorem get_historyOf_keepRound {round hotkey key : String} {a : CreateAttempt}
    (present : ((state.keepRound round).historyOf hotkey).get key = some a) :
    (state.historyOf hotkey).get key = some a ∧ a.round = round := by
  rw [QueueState.historyOf, QueueState.keepRound] at present
  simp only at present
  rw [Dict.get_mapValues] at present
  rw [QueueState.historyOf]
  cases held : state.history.get hotkey with
  | none =>
      rw [held] at present
      cases present
  | some history =>
      rw [held, Option.map_some, Option.getD_some, Dict.get_filter, Option.filter_eq_some_iff] at present
      exact ⟨present.1, of_decide_eq_true present.2⟩

theorem within_keepRound (within : state.Within asked) (round : String) :
    (state.keepRound round).Within asked where
  pending := within.pending
  retained := within.retained
  attempts := by
    intro hotkey a present
    rw [QueueState.keepRound, Dict.get_filter, Option.filter_eq_some_iff] at present
    exact within.attempts hotkey a present.1
  history hotkey startId a present :=
    within.history hotkey startId a (get_historyOf_keepRound present).1

theorem retainOld_retained {round : String} {attempts : Dict String CreateAttempt}
    {items : List (String × PendingStart)} {retained result : Dict (String × String) CreateAttempt}
    (retains : retainOld round attempts items retained = .ok result)
    {hotkey startId : String} {a : CreateAttempt} (present : result.get (hotkey, startId) = some a) :
    retained.get (hotkey, startId) = some a ∨
      ∃ entry, (hotkey, entry) ∈ items ∧ entry.startId = startId := by
  induction items generalizing retained with
  | nil =>
      obtain rfl := Except.ok.inj retains
      exact Or.inl present
  | cons item rest ih =>
      obtain ⟨other, entry⟩ := item
      have later : (∃ entry, (hotkey, entry) ∈ rest ∧ entry.startId = startId) →
          ∃ found, (hotkey, found) ∈ (other, entry) :: rest ∧ found.startId = startId := by
        rintro ⟨found, member, own⟩
        exact ⟨found, List.mem_cons_of_mem _ member, own⟩
      rw [retainOld] at retains
      split at retains
      · split at retains
        · cases retains
        · rcases ih retains with earlier | found
          · rw [Dict.get_set] at earlier
            split at earlier
            · rename_i same
              obtain ⟨rfl, rfl⟩ := Prod.mk.inj same
              exact Or.inr ⟨entry, List.mem_cons_self, rfl⟩
            · exact Or.inl earlier
          · exact Or.inr (later found)
      · rcases ih retains with earlier | found
        · exact Or.inl earlier
        · exact Or.inr (later found)

theorem within_rollover {round : String} (within : state.Within asked)
    (rolled : state.rollover now round = .ok state') : state'.Within asked := by
  unfold QueueState.rollover at rolled
  split at rolled
  · cases rolled
  · rename_i retained retains
    obtain rfl := Except.ok.inj rolled
    have kept := within_keepRound within round
    refine ⟨?_, kept.attempts, kept.history, ?_⟩
    · intro hotkey entry present
      exact within.pending hotkey entry (get_of_get_filter present)
    · intro hotkey startId a present
      rw [Dict.get_filter, Option.filter_eq_some_iff] at present
      rcases retainOld_retained retains present.1 with earlier | ⟨entry, item, own⟩
      · exact within.retained hotkey startId a earlier
      · have member := within.pending hotkey entry (Dict.get_eq_some_iff.mpr item)
        rw [own] at member
        exact ⟨entry.round, member⟩

theorem history_of_rollover {round hotkey key : String} {a : CreateAttempt}
    (rolled : state.rollover now round = .ok state')
    (present : (state'.historyOf hotkey).get key = some a) : a.round = round := by
  unfold QueueState.rollover at rolled
  split at rolled
  · cases rolled
  · obtain rfl := Except.ok.inj rolled
    exact (get_historyOf_keepRound present).2

theorem within_change {op : QueueOp} {result : Unit} (within : state.Within asked)
    (changed : op.change settings now state = .ok (state', result)) :
    state'.Within (asked ++ op.asks) := by
  have before : state.Within (asked ++ op.asks) := within.mono (List.subset_append_left _ _)
  have makes := op.makes changed
  cases op with
  | load =>
      obtain rfl := makes
      exact before
  | enqueue scope startId replaces =>
      obtain ⟨entry, enqueued⟩ := makes
      exact within_enqueue before (List.mem_append_right _ List.mem_cons_self) enqueued
  | authorize scope startId => exact within_authorize before makes
  | releaseAuthorization scope startId => exact within_release before makes
  | complete scope startId rejected =>
      obtain rfl := makes
      exact within_complete before rejected
  | cancel scope startId =>
      obtain rfl := makes
      exact within_cancel before
  | discardOld round =>
      obtain rfl := makes
      exact (within_keepRound before round).dropPending fun hotkey entry present =>
        get_of_get_filter present
  | rollover round => exact within_rollover before makes

/-! ## Runs -/

variable {deployment : String}

theorem QueueState.journaled_ok {α : Type} {revision : String} {result : α}
    {changed : Except QueueError (QueueState × α)}
    (journaled : QueueState.journaled deployment revision changed = .ok (state, result)) :
    changed = .ok (state, result) ∧
      (state.json deployment revision).utf8ByteSize ≤ maxJournalBytes := by
  unfold QueueState.journaled at journaled
  split at journaled
  · cases journaled
  · split at journaled
    · cases journaled
    · obtain ⟨rfl, rfl⟩ := Prod.mk.inj (Except.ok.inj journaled)
      exact ⟨rfl, Nat.le_of_not_lt ‹_›⟩

theorem StartQueue.change_stored {α : Type} (q : StartQueue) (saving : Saving)
    (change : QueueState → Except QueueError (QueueState × α)) :
    ((q.change now saving change).1.stored = q.stored ∧
        ∀ result, (q.change now saving change).2 ≠ .ok result) ∨
      ∃ result, change (q.stored.loaded now) = .ok ((q.change now saving change).1.stored, result) := by
  unfold StartQueue.change
  cases changed : change (q.stored.loaded now) with
  | error error => exact Or.inl ⟨rfl, nofun⟩
  | ok r =>
      obtain ⟨state, result⟩ := r
      cases saving with
      | rejected => exact Or.inl ⟨rfl, nofun⟩
      | saved | uncertain => exact Or.inr ⟨result, rfl⟩

theorem performJournal_stored (settings : QueueSettings) (deployment : String) (q : StartQueue)
    (e : JournalEvent) :
    ((q.performJournal settings deployment e).1.stored = q.stored ∧
        ((q.performJournal settings deployment e).2 = .ok () → e.op = .load ∨ q.Cached e.op)) ∨
      ∃ result, e.op.change settings e.now (q.stored.loaded e.now) =
          .ok ((q.performJournal settings deployment e).1.stored, result) ∧
        ((q.performJournal settings deployment e).1.stored.json deployment
          e.revision).utf8ByteSize ≤ maxJournalBytes := by
  have change := @StartQueue.change_stored e.now _ q e.saving fun state =>
      QueueState.journaled deployment e.revision (e.op.change settings e.now state)
  generalize left : (q.change e.now e.saving fun state =>
    QueueState.journaled deployment e.revision (e.op.change settings e.now state)) = r at change
  have known : (r.1.stored = q.stored ∧ (r.2 = .ok () → e.op = .load ∨ q.Cached e.op)) ∨
      ∃ result, e.op.change settings e.now (q.stored.loaded e.now) = .ok (r.1.stored, result) ∧
        (r.1.stored.json deployment e.revision).utf8ByteSize ≤ maxJournalBytes := by
    rcases change with ⟨same, failed⟩ | ⟨result, changed⟩
    · exact Or.inl ⟨same, fun answered => absurd answered (failed ())⟩
    · exact Or.inr ⟨result, QueueState.journaled_ok changed⟩
  obtain ⟨⟨op, now, saving⟩, revision⟩ := e
  unfold StartQueue.performJournal
  cases op with
  | load => exact Or.inl ⟨rfl, fun _ => Or.inl rfl⟩
  | enqueue scope startId replaces =>
      simp only at left ⊢
      split
      · rename_i cached
        exact Or.inl ⟨rfl, fun _ => Or.inr cached⟩
      · rw [left]
        exact known
  | authorize | releaseAuthorization | complete | cancel | discardOld | rollover =>
      simp only [StartQueue.Cached, if_false] at left ⊢
      rw [left]
      exact known

/-- The journal is short enough, and every record was asked for. -/
structure JournalRun.Bounded (deployment : String) (s : JournalRun) : Prop where
  short : s.queue.stored = {} ∨ ∃ revision,
    (s.queue.stored.json deployment revision).utf8ByteSize ≤ maxJournalBytes
  within : s.queue.stored.Within s.asked

theorem JournalRun.Bounded.step {s s' : JournalRun} {e : JournalEvent} (bounded : s.Bounded deployment)
    (stepped : s.step settings deployment e = some s') : s'.Bounded deployment := by
  obtain rfl := Option.some.inj stepped
  rcases performJournal_stored settings deployment s.queue e with
    ⟨same, -⟩ | ⟨result, changed, short⟩
  · refine ⟨?_, ?_⟩
    · rw [same]
      exact bounded.short
    · rw [same]
      exact bounded.within.mono (List.subset_append_left _ _)
  · exact ⟨Or.inr ⟨e.revision, short⟩, within_change (within_loaded bounded.within) changed⟩

/-! ## Counting -/

theorem mem_askedBy {hotkey : String} :
    startId ∈ askedBy asked hotkey ↔ ∃ round, ⟨round, hotkey, startId⟩ ∈ asked := by
  simp only [askedBy, List.mem_dedup, List.mem_map, List.mem_filter, decide_eq_true_eq]
  constructor
  · rintro ⟨⟨round, _, _⟩, ⟨member, rfl⟩, rfl⟩
    exact ⟨round, member⟩
  · rintro ⟨round, member⟩
    exact ⟨⟨round, hotkey, startId⟩, ⟨member, rfl⟩, rfl⟩

theorem mem_askedIn {round hotkey : String} :
    startId ∈ askedIn asked round hotkey ↔ ⟨round, hotkey, startId⟩ ∈ asked := by
  simp only [askedIn, mem_askedBy, List.mem_filter, decide_eq_true_eq]
  constructor
  · rintro ⟨_, member, rfl⟩
    exact member
  · intro member
    exact ⟨round, member, rfl⟩

theorem QueueState.Within.history_le (within : state.Within asked) (hotkey : String) :
    (state.historyOf hotkey).size ≤ (askedBy asked hotkey).length := by
  have subset : (state.historyOf hotkey).keys ⊆ askedBy asked hotkey := by
    intro key member
    obtain ⟨⟨_, a⟩, item, rfl⟩ := List.mem_map.mp member
    exact mem_askedBy.mpr
      ⟨a.round, (within.history hotkey _ a (Dict.get_eq_some_iff.mpr item)).1⟩
  have counted := (List.subperm_of_subset (state.historyOf hotkey).nodup subset).length_le
  rw [List.length_map] at counted
  exact counted

theorem QueueState.Within.roundHistory_le (within : state.Within asked) (hotkey round : String) :
    ((state.historyOf hotkey).items.filter fun item => item.2.round = round).length ≤
      (askedIn asked round hotkey).length := by
  have subset : (((state.historyOf hotkey).items.filter fun item =>
      item.2.round = round).map Prod.fst) ⊆ askedIn asked round hotkey := by
    intro key member
    obtain ⟨⟨_, a⟩, kept, rfl⟩ := List.mem_map.mp member
    obtain ⟨item, own⟩ := List.mem_filter.mp kept
    obtain rfl := of_decide_eq_true own
    exact mem_askedIn.mpr (within.history hotkey _ a (Dict.get_eq_some_iff.mpr item)).1
  have counted := (List.subperm_of_subset ((state.historyOf hotkey).filter_keys_nodup _) subset).length_le
  rw [List.length_map] at counted
  exact counted

theorem QueueState.Within.retained_le (within : state.Within asked) (hotkey : String) :
    (state.retained.items.filter fun item => item.1.1 = hotkey).length ≤
      (askedBy asked hotkey).length := by
  have nodup : ((state.retained.items.filter fun item => item.1.1 = hotkey).map
      fun item => item.1.2).Nodup := by
    have keys := state.retained.filter_keys_nodup fun item => decide (item.1.1 = hotkey)
    rw [List.nodup_map_iff_inj_on (List.Nodup.of_map _ keys)]
    intro a ha b hb same
    have firsts : a.1.1 = b.1.1 :=
      (of_decide_eq_true (List.mem_filter.mp ha).2).trans (of_decide_eq_true (List.mem_filter.mp hb).2).symm
    exact List.inj_on_of_nodup_map keys ha hb (Prod.ext firsts same)
  have subset : ((state.retained.items.filter fun item => item.1.1 = hotkey).map
      fun item => item.1.2) ⊆ askedBy asked hotkey := by
    intro key member
    obtain ⟨⟨⟨_, _⟩, a⟩, kept, rfl⟩ := List.mem_map.mp member
    obtain ⟨item, own⟩ := List.mem_filter.mp kept
    obtain rfl := of_decide_eq_true own
    exact mem_askedBy.mpr (within.retained _ _ a (Dict.get_eq_some_iff.mpr item))
  have counted := (List.subperm_of_subset nodup subset).length_le
  rw [List.length_map] at counted
  exact counted

theorem QueueState.Within.footprint_le (within : state.Within asked) (hotkey : String) :
    state.footprint hotkey ≤ 2 + 2 * (askedBy asked hotkey).length := by
  have pending : (state.pending.get hotkey).toList.length ≤ 1 := by
    cases state.pending.get hotkey <;> simp
  have attempts : (state.attempts.get hotkey).toList.length ≤ 1 := by
    cases state.attempts.get hotkey <;> simp
  have history := within.history_le hotkey
  have retained := within.retained_le hotkey
  unfold QueueState.footprint
  omega

/-- In every run of queue operations the journal is short enough to be saved. For each hotkey it
keeps at most a pending start and a current attempt, and at most one record of the history and one
retained create for each connection that the hotkey asked for; of each round the history keeps at
most one record for each connection asked for in that round. A rollover leaves the history of no
other round. -/
theorem queue_footprint {events : List JournalEvent} {s : JournalRun}
    (ran : run (JournalRun.step settings deployment) {} events = some s) :
    (s.queue.stored = {} ∨ ∃ revision,
        (s.queue.stored.json deployment revision).utf8ByteSize ≤ maxJournalBytes) ∧
      (∀ hotkey, s.queue.stored.footprint hotkey ≤ 2 + 2 * (askedBy s.asked hotkey).length) ∧
      (∀ hotkey round, ((s.queue.stored.historyOf hotkey).items.filter fun item =>
        item.2.round = round).length ≤ (askedIn s.asked round hotkey).length) ∧
      ∀ e s' round, e.op = .rollover round → s.step settings deployment e = some s' →
        (s.queue.performJournal settings deployment e).2 = .ok () →
        ∀ hotkey, ∀ item ∈ (s'.queue.stored.historyOf hotkey).items, item.2.round = round := by
  have bounded : s.Bounded deployment :=
    run_invariant ran (fun s e s' before stepped => before.step stepped) ⟨Or.inl rfl, within_empty⟩
  refine ⟨bounded.short, bounded.within.footprint_le, bounded.within.roundHistory_le, ?_⟩
  intro e s' round op stepped answered hotkey item member
  obtain rfl := Option.some.inj stepped
  rcases performJournal_stored settings deployment s.queue e with ⟨-, why⟩ | ⟨result, changed, -⟩
  · rw [op] at why
    rcases why answered with other | cached
    · cases other
    · exact absurd cached id
  · rw [op] at changed
    have rolled := QueueOp.makes changed
    exact history_of_rollover rolled (Dict.get_eq_some_iff.mpr member)

/-! ## The length of the text -/

theorem size_quoted (text : String) : (quoted text).utf8ByteSize = text.utf8ByteSize + 2 := by
  have quote : "\"".utf8ByteSize = 1 := by decide
  rw [quoted, String.utf8ByteSize_append, String.utf8ByteSize_append, quote]
  omega

theorem size_commaSeparated (text : String) (texts : List String) :
    (commaSeparated (text :: texts)).utf8ByteSize + 1 =
      ((text :: texts).map fun text => text.utf8ByteSize + 1).sum := by
  induction texts generalizing text with
  | nil => simp [commaSeparated]
  | cons next rest ih =>
      have comma : ",".utf8ByteSize = 1 := by decide
      rw [commaSeparated, String.utf8ByteSize_append, String.utf8ByteSize_append, comma, List.map_cons,
        List.sum_cons, ← ih]
      omega

/-- What a member adds to the text of an object. -/
def memberSize (member : String × String) : Nat := member.1.utf8ByteSize + member.2.utf8ByteSize + 4

@[simp] theorem size_objectText_nil : (objectText []).utf8ByteSize = 2 := by decide

@[simp] theorem size_objectText_cons (member : String × String) (members : List (String × String)) :
    (objectText (member :: members)).utf8ByteSize = 1 + ((member :: members).map memberSize).sum := by
  have left : "\x7b".utf8ByteSize = 1 := by decide
  have right : "\x7d".utf8ByteSize = 1 := by decide
  have colon : ":".utf8ByteSize = 1 := by decide
  have each : (fun text : String => text.utf8ByteSize + 1) ∘
      (fun m : String × String => quoted m.1 ++ ":" ++ m.2) = memberSize := by
    funext m
    simp only [Function.comp_apply, String.utf8ByteSize_append, size_quoted, colon, memberSize]
    omega
  have inner := size_commaSeparated (quoted member.1 ++ ":" ++ member.2)
    (members.map fun m => quoted m.1 ++ ":" ++ m.2)
  rw [← List.map_cons (f := fun m : String × String => quoted m.1 ++ ":" ++ m.2), List.map_map, each]
    at inner
  rw [objectText, String.utf8ByteSize_append, String.utf8ByteSize_append, left, right]
  omega

/-! ## Filling the journal -/

def digitsText (n : Nat) : String :=
  String.ofList
    [hexDigit (n / 4096 % 16), hexDigit (n / 256 % 16), hexDigit (n / 16 % 16), hexDigit (n % 16)]

/-- Canonical identifiers, as many as four digits tell apart. -/
def connection (n : Nat) : String := "00000000-0000-0000-0000-00000000" ++ digitsText n

theorem connection_injective {m n : Nat} (hm : m < 65536) (hn : n < 65536)
    (same : connection m = connection n) : m = n := by
  have digit : ∀ a < 16, ∀ b < 16, hexDigit a = hexDigit b → a = b := by decide
  have texts := String.append_right_inj _ |>.mp same
  have digits := String.ofList_injective texts
  simp only [List.cons.injEq, and_true] at digits
  obtain ⟨first, second, third, last⟩ := digits
  have first := digit _ (Nat.mod_lt _ (by decide)) _ (Nat.mod_lt _ (by decide)) first
  have second := digit _ (Nat.mod_lt _ (by decide)) _ (Nat.mod_lt _ (by decide)) second
  have third := digit _ (Nat.mod_lt _ (by decide)) _ (Nat.mod_lt _ (by decide)) third
  have last := digit _ (Nat.mod_lt _ (by decide)) _ (Nat.mod_lt _ (by decide)) last
  omega

theorem size_connection (n : Nat) : (connection n).utf8ByteSize = 36 := by
  have stem : "00000000-0000-0000-0000-00000000".utf8ByteSize = 32 := by decide
  have digit : ∀ a < 16, (hexDigit a).utf8Size = 1 := by decide
  have split : digitsText n = String.singleton (hexDigit (n / 4096 % 16)) ++
      String.singleton (hexDigit (n / 256 % 16)) ++ String.singleton (hexDigit (n / 16 % 16)) ++
      String.singleton (hexDigit (n % 16)) := by
    apply String.toList_injective
    simp [digitsText]
  have first := digit (n / 4096 % 16) (Nat.mod_lt _ (by decide))
  have second := digit (n / 256 % 16) (Nat.mod_lt _ (by decide))
  have third := digit (n / 16 % 16) (Nat.mod_lt _ (by decide))
  have last := digit (n % 16) (Nat.mod_lt _ (by decide))
  have digits : (digitsText n).utf8ByteSize = 4 := by
    simp only [split, String.utf8ByteSize_append, String.utf8ByteSize_singleton, first, second, third, last]
  have whole : (connection n).utf8ByteSize =
      "00000000-0000-0000-0000-00000000".utf8ByteSize + (digitsText n).utf8ByteSize :=
    String.utf8ByteSize_append
  omega

def flooder : Scope := ⟨"prod", "round-1", "5GrwvaEF5zXb26Fz9rcQpDWS57CtERHpNehXCPcNoHGKutQY"⟩

def neighbour : Scope := ⟨"prod", "round-1", "5FHneW46xGXgs5mUiveU4sbTyGBzmstUspZC92UhjJM694ty"⟩

def sampleRevision : String := "00000000-0000-4000-8000-000000000000"

def floodRequest (n : Nat) : JournalEvent where
  op := .enqueue flooder (connection n) none
  now := 0
  revision := sampleRevision

/-- The first start of another hotkey. -/
def neighbourRequest : JournalEvent where
  op := .enqueue neighbour (connection 0) none
  now := 0
  revision := sampleRevision

def floodRecord : CreateAttempt := unsubmitted flooder.round (connection 0) 0

def floodHistory : Nat → Dict String CreateAttempt
  | 0 => Dict.empty.set (connection 0) floodRecord
  | n + 1 => (floodHistory n).set (connection (n + 1)) floodRecord

def floodEntry : PendingStart where
  round := flooder.round
  startId := connection 0
  replaces := none
  sequence := 1
  eligibleAt := 0

def flooded (n : Nat) : QueueState where
  sequence := 1
  pending := Dict.empty.set flooder.hotkey floodEntry
  history := Dict.empty.set flooder.hotkey (floodHistory n)

theorem floodHistory_items {n : Nat} (few : n < 65536) :
    (floodHistory n).items = (List.range (n + 1)).map fun i => (connection i, floodRecord) := by
  induction n with
  | zero => rfl
  | succ n ih =>
      have before := ih (by omega)
      have fresh : connection (n + 1) ∉ (floodHistory n).keys := by
        rw [Dict.keys, before, List.map_map]
        intro member
        obtain ⟨i, range, same⟩ := List.mem_map.mp member
        have below := List.mem_range.mp range
        have := connection_injective (by omega) few same
        omega
      rw [floodHistory, Dict.items_set_of_not_mem fresh, before, List.range_succ (n := n + 1),
        List.map_append]
      rfl

theorem get_floodHistory {n m : Nat} (few : m < 65536) (later : n < m) :
    (floodHistory n).get (connection m) = none := by
  rw [Dict.get_eq_none_iff, Dict.keys, floodHistory_items (by omega), List.map_map]
  intro member
  obtain ⟨i, range, same⟩ := List.mem_map.mp member
  have below := List.mem_range.mp range
  have := connection_injective (by omega) few same
  omega

/-- The text of a history. -/
def historyText (history : Dict String (Dict String CreateAttempt)) : String :=
  objectText (history.items.map fun item =>
    (item.1, objectText (item.2.items.map fun item => (item.1, item.2.json))))

theorem size_json (state : QueueState) (deployment revision : String) :
    (state.json deployment revision).utf8ByteSize + 2 =
      ({ state with history := .empty }.json deployment revision).utf8ByteSize +
        (historyText state.history).utf8ByteSize := by
  have none : objectText [] = "\x7b\x7d" := by decide
  simp only [QueueState.json, size_objectText_cons, List.map_cons, List.map_nil, List.sum_cons,
    List.sum_nil, memberSize, Dict.empty, size_objectText_nil, historyText]
  omega

theorem size_floodHistory {n : Nat} (few : n < 65536) :
    (objectText ((floodHistory n).items.map fun item => (item.1, item.2.json))).utf8ByteSize =
      152 + 151 * n := by
  have record : floodRecord.json.utf8ByteSize = 111 := by decide +kernel
  have member (i : Nat) : memberSize (connection i, floodRecord.json) = 151 := by
    rw [memberSize, size_connection, record]
  rw [floodHistory_items few, List.map_map, List.range_succ_eq_map, List.map_cons, size_objectText_cons]
  simp only [List.map_cons, List.sum_cons, List.map_map]
  have rest : (List.range n).map (memberSize ∘ (fun item => (item.1, item.2.json)) ∘
      (fun i => (connection i, floodRecord)) ∘ Nat.succ) = List.replicate n 151 := by
    rw [List.eq_replicate_iff]
    simp [member]
  simp only [Function.comp_assoc, Function.comp_apply, member] at rest ⊢
  rw [rest, List.sum_replicate]
  simp
  omega

theorem size_flooded {n : Nat} (few : n < 65536) :
    ((flooded n).json "prod" sampleRevision).utf8ByteSize = 558 + 151 * n := by
  have rest : ({ flooded n with history := .empty }.json "prod" sampleRevision).utf8ByteSize = 355 := by
    show (QueueState.json { flooded 0 with history := .empty } "prod" sampleRevision).utf8ByteSize = 355
    decide +kernel
  have hotkey : flooder.hotkey.utf8ByteSize = 48 := by decide
  have history : (historyText (flooded n).history).utf8ByteSize = 205 + 151 * n := by
    show (objectText [(flooder.hotkey, objectText ((floodHistory n).items.map fun item =>
      (item.1, item.2.json)))]).utf8ByteSize = 205 + 151 * n
    rw [size_objectText_cons]
    simp only [List.map_cons, List.map_nil, List.sum_cons, List.sum_nil, memberSize,
      size_floodHistory few, hotkey]
    omega
  have whole := size_json (flooded n) "prod" sampleRevision
  rw [rest, history] at whole
  omega

theorem flooded_loaded (n : Nat) : (flooded n).loaded 0 = flooded n := rfl

theorem flooded_historyOf (n : Nat) : (flooded n).historyOf flooder.hotkey = floodHistory n := rfl

theorem change_flooded {n : Nat} (few : n + 1 ≤ 6940) :
    (floodRequest (n + 1)).op.change {} 0 (flooded n) = .ok (flooded (n + 1), ()) := by
  have fresh : (floodHistory n).get (connection (n + 1)) = none := get_floodHistory (by omega) (by omega)
  have unknown : ¬ (flooded n).Known flooder (connection (n + 1)) := by
    rintro ⟨a, member, -⟩
    rw [flooded_historyOf, fresh] at member
    cases member
  have pending : (flooded n).pending.get flooder.hotkey = some floodEntry := rfl
  have enqueued : (flooded n).enqueue {} flooder (connection (n + 1)) 0 none =
      .ok ((flooded n).setHistory flooder.hotkey (connection (n + 1)) floodRecord, floodEntry) := by
    rw [QueueState.enqueue, pending]
    simp only [floodEntry, ne_eq, not_true_eq_false, if_false, if_neg unknown]
    rfl
  simp only [floodRequest, QueueOp.change, enqueued]
  rfl

theorem perform_flooded {n : Nat} (few : n + 1 ≤ 6940) :
    StartQueue.performJournal {} "prod" ⟨flooded n, flooded n⟩ (floodRequest (n + 1)) =
      (⟨flooded (n + 1), flooded (n + 1)⟩, .ok ()) := by
  have differs : floodEntry.startId ≠ connection (n + 1) := by
    intro same
    have := connection_injective (by omega) (by omega) same
    omega
  have uncached : ¬ StartQueue.Cached ⟨flooded n, flooded n⟩ (.enqueue flooder (connection (n + 1)) none) := by
    rintro ⟨cached, member, own | attempted⟩
    · obtain rfl : cached = floodEntry := (Option.some.inj member).symm
      exact differs own
    · have fresh : (floodHistory n).get (connection (n + 1)) = none :=
        get_floodHistory (by omega) (by omega)
      simp only [QueueState.attempt, flooded_historyOf, fresh, Option.filter_none] at attempted
      cases attempted
  have short : ¬ maxJournalBytes < ((flooded (n + 1)).json "prod" sampleRevision).utf8ByteSize := by
    rw [size_flooded (by omega), maxJournalBytes]
    omega
  have changed := change_flooded few
  simp only [StartQueue.performJournal, floodRequest, if_neg uncached, StartQueue.change, flooded_loaded]
    at changed ⊢
  simp only [changed, QueueState.journaled, if_neg short]

theorem perform_first : StartQueue.performJournal {} "prod" {} (floodRequest 0) =
    (⟨flooded 0, flooded 0⟩, .ok ()) := by
  have uncached : ¬ StartQueue.Cached {} (.enqueue flooder (connection 0) none) := by
    rintro ⟨cached, member, -⟩
    cases member
  have short : ¬ maxJournalBytes < ((flooded 0).json "prod" sampleRevision).utf8ByteSize := by
    rw [size_flooded (by omega), maxJournalBytes]
    omega
  have changed : (floodRequest 0).op.change {} 0 (QueueState.loaded {} 0) = .ok (flooded 0, ()) := by
    decide
  simp only [StartQueue.performJournal, floodRequest, if_neg uncached, StartQueue.change] at changed ⊢
  simp only [changed, QueueState.journaled, if_neg short]

theorem step_flood {s : JournalRun} {q : StartQueue} {n : Nat} {answer : Except QueueError Unit}
    (performs : s.queue.performJournal {} "prod" (floodRequest n) = (q, answer)) :
    ∃ s', s.step {} "prod" (floodRequest n) = some s' ∧ s'.queue = q :=
  ⟨_, rfl, congrArg Prod.fst performs⟩

theorem run_flood {n : Nat} (few : n ≤ 6940) :
    ∃ s, run (JournalRun.step {} "prod") {} ((List.range (n + 1)).map floodRequest) = some s ∧
      s.queue = ⟨flooded n, flooded n⟩ := by
  induction n with
  | zero =>
      obtain ⟨s, stepped, queue⟩ := @step_flood {} _ _ _ perform_first
      exact ⟨s, run_cons.mpr ⟨s, stepped, rfl⟩, queue⟩
  | succ n ih =>
      obtain ⟨s, ran, queue⟩ := ih (by omega)
      obtain ⟨s', stepped, queue'⟩ := @step_flood s _ _ _ (queue ▸ perform_flooded few)
      rw [List.range_succ, List.map_append]
      exact ⟨s', run_concat.mpr ⟨s, ran, stepped⟩, queue'⟩

theorem footprint_flooded {n : Nat} (few : n < 65536) :
    (flooded n).footprint flooder.hotkey = n + 2 := by
  have history := congrArg List.length (floodHistory_items few)
  rw [List.length_map, List.length_range] at history
  have pending : (flooded n).pending.get flooder.hotkey = some floodEntry := rfl
  have attempts : (flooded n).attempts.get flooder.hotkey = none := rfl
  have retained : (flooded n).retained.items = [] := rfl
  rw [QueueState.footprint, flooded_historyOf, Dict.size, history, pending, attempts, retained]
  simp only [Option.toList_some, Option.toList_none, List.length_cons, List.length_nil, List.filter_nil]
  omega

def neighbourEntry : PendingStart where
  round := neighbour.round
  startId := connection 0
  replaces := none
  sequence := 2
  eligibleAt := 0

/-- What the first start of the other hotkey would save. -/
def joined (n : Nat) : QueueState where
  sequence := 2
  pending := (flooded n).pending.set neighbour.hotkey neighbourEntry
  history := (flooded n).history.set neighbour.hotkey (floodHistory 0)

theorem change_joined (n : Nat) : neighbourRequest.op.change {} 0 (flooded n) = .ok (joined n, ()) := by
  have pending : (flooded n).pending.get neighbour.hotkey = none := rfl
  have history : (flooded n).historyOf neighbour.hotkey = .empty := rfl
  have unknown : ¬ (flooded n).Known neighbour (connection 0) := by
    rintro ⟨a, member, -⟩
    rw [history] at member
    cases member
  have room : ¬ ({} : QueueSettings).capacity ≤ (flooded n).pending.size := by
    show ¬ 1024 ≤ 1
    omega
  have enqueued : (flooded n).enqueue {} neighbour (connection 0) 0 none =
      .ok (joined n, neighbourEntry) := by
    rw [QueueState.enqueue, pending]
    simp only [if_neg room, if_neg unknown, QueueState.setHistory, Except.ok.injEq, Prod.mk.injEq]
    exact ⟨rfl, rfl⟩
  simp only [neighbourRequest, QueueOp.change, enqueued]
  rfl

theorem size_joined {n : Nat} (few : n < 65536) :
    ((joined n).json "prod" sampleRevision).utf8ByteSize = 946 + 151 * n := by
  have rest : ({ joined n with history := .empty }.json "prod" sampleRevision).utf8ByteSize = 539 := by
    show (QueueState.json { joined 0 with history := .empty } "prod" sampleRevision).utf8ByteSize = 539
    decide +kernel
  have hotkey : flooder.hotkey.utf8ByteSize = 48 := by decide
  have otherHotkey : neighbour.hotkey.utf8ByteSize = 48 := by decide
  have first := size_floodHistory (n := 0) (by omega)
  have history : (historyText (joined n).history).utf8ByteSize = 409 + 151 * n := by
    show (objectText [(flooder.hotkey, objectText ((floodHistory n).items.map fun item =>
      (item.1, item.2.json))), (neighbour.hotkey, objectText ((floodHistory 0).items.map fun item =>
      (item.1, item.2.json)))]).utf8ByteSize = 409 + 151 * n
    rw [size_objectText_cons]
    simp only [List.map_cons, List.map_nil, List.sum_cons, List.sum_nil, memberSize,
      size_floodHistory few, first, hotkey, otherHotkey]
    omega
  have whole := size_json (joined n) "prod" sampleRevision
  rw [rest, history] at whole
  omega

theorem perform_joined {n : Nat} (few : n < 65536) (long : maxJournalBytes < 946 + 151 * n) :
    (StartQueue.performJournal {} "prod" ⟨flooded n, flooded n⟩ neighbourRequest).2 =
      .error .capacityReached := by
  have uncached : ¬ StartQueue.Cached ⟨flooded n, flooded n⟩
      (.enqueue neighbour (connection 0) none) := by
    rintro ⟨cached, member, -⟩
    cases member
  rw [← size_joined few] at long
  have changed := change_joined n
  simp only [StartQueue.performJournal, neighbourRequest, if_neg uncached, StartQueue.change,
    flooded_loaded] at changed ⊢
  simp only [changed, QueueState.journaled, if_pos long]

theorem flood {n : Nat} (few : n ≤ 6940) (long : maxJournalBytes < 946 + 151 * n) :
    ∃ s, run (JournalRun.step {} "prod") {} ((List.range (n + 1)).map floodRequest) = some s ∧
      s.queue.stored.pending.size = 1 ∧ s.queue.stored.footprint flooder.hotkey = n + 2 ∧
      (s.queue.performJournal {} "prod" neighbourRequest).2 = .error .capacityReached := by
  obtain ⟨s, ran, queue⟩ := run_flood few
  refine ⟨s, ran, ?_⟩
  rw [queue]
  exact ⟨rfl, footprint_flooded (by omega), perform_joined (by omega) long⟩

theorem queue_footprint_flooded :
    ∃ s, run (JournalRun.step {} "prod") {} ((List.range 2).map floodRequest) = some s ∧
      s.queue.stored.footprint flooder.hotkey = 3 ∧
      s.queue.stored.footprint flooder.hotkey ≤ 2 + 2 * (askedBy s.asked flooder.hotkey).length := by
  obtain ⟨s, ran, queue⟩ := @run_flood 1 (by omega)
  refine ⟨s, ran, ?_, (queue_footprint ran).2.1 flooder.hotkey⟩
  rw [queue]
  exact footprint_flooded (by omega)

/-- A hotkey asks for enough connections while one start is pending, and the first start of another
hotkey finds the journal full. -/
theorem hotkey_fills_journal :
    ∃ s, run (JournalRun.step {} "prod") {} ((List.range 6941).map floodRequest) = some s ∧
      s.queue.stored.pending.size = 1 ∧ s.queue.stored.footprint flooder.hotkey = 6942 ∧
      (s.queue.performJournal {} "prod" neighbourRequest).2 = .error .capacityReached :=
  flood (Nat.le_refl 6940) (by decide)

end GenSubnet.Gateway
