import GenSubnet.Gateway.Consistency

/-!
# Spent connections

What the journal remembers of a connection whose create was sent, so that it is not authorized again
in its round: every operation of the queue but the one that hands this authorization back keeps it.
-/

namespace GenSubnet.Gateway
open Library

/-- The connection was submitted in this round, which is that of the last attempt. -/
structure QueueState.Spent (state : QueueState) (scope : Scope) (startId : String) : Prop where
  history : state.Submitted scope startId
  entry : ∀ entry, state.pending.get scope.hotkey = some entry → entry.Is scope startId →
    entry.submitted = true
  attempts : ∀ a, state.attempts.get scope.hotkey = some a →
    a.round = scope.round ∧ (a.startId = startId → a.submitted = true)

/-- The connection is the pending one of its hotkey. -/
def QueueState.Has (state : QueueState) (scope : Scope) (startId : String) : Prop :=
  ∃ entry, state.pending.get scope.hotkey = some entry ∧ entry.Is scope startId

/-- The operation concerns no other round of the hotkey, and hands back another connection. -/
def QueueOp.Respects (scope : Scope) (startId : String) : QueueOp → Prop
  | .enqueue s _ _ | .authorize s _ => s.hotkey = scope.hotkey → s.round = scope.round
  | .releaseAuthorization s other =>
      s.hotkey = scope.hotkey → s.round = scope.round ∧ other ≠ startId
  | .discardOld round | .rollover round => round = scope.round
  | .load | .complete _ _ _ | .cancel _ _ => True

/-- What a change keeps of a spent connection; it does not come back as the pending one. -/
structure Spends (scope : Scope) (startId : String) (state state' : QueueState) : Prop where
  spent : state'.Spent scope startId
  has : state'.Has scope startId → state.Has scope startId

variable {settings : QueueSettings} {scope other : Scope} {startId otherId : String} {now : Rat}
  {state state' : QueueState}

theorem Spends.refl (spent : state.Spent scope startId) : Spends scope startId state state :=
  ⟨spent, id⟩

theorem QueueState.Submitted.known (submitted : state.Submitted scope startId) :
    state.Known scope startId := by
  obtain ⟨a, member, round, -⟩ := submitted
  exact ⟨a, member, round⟩

theorem historyOf_setHistory (hotkey key : String) (a : CreateAttempt) (h : String) :
    (state.setHistory hotkey key a).historyOf h =
      if h = hotkey then (state.historyOf hotkey).set key a else state.historyOf h := by
  rw [QueueState.historyOf, QueueState.setHistory]
  simp only
  rw [Dict.get_set]
  split
  · rfl
  · rfl

theorem QueueState.Submitted.setHistory (submitted : state.Submitted scope startId) {hotkey : String}
    {a : CreateAttempt} (keeps : hotkey = scope.hotkey → otherId = startId →
      a.round = scope.round ∧ a.submitted = true) :
    (state.setHistory hotkey otherId a).Submitted scope startId := by
  obtain ⟨old, member, was⟩ := submitted
  unfold QueueState.Submitted
  rw [historyOf_setHistory]
  split
  · rename_i same
    by_cases own : startId = otherId
    · refine ⟨a, ?_, keeps same.symm own.symm⟩
      rw [own]
      exact Dict.get_set_self _ _ _
    · refine ⟨old, ?_, was⟩
      rw [Dict.get_set_of_ne _ _ own, ← same]
      exact member
  · exact ⟨old, member, was⟩

/-! ## Loading -/

theorem get_setDefaults {hotkey key : String} {a : CreateAttempt} (items : List (String × CreateAttempt))
    {history : Dict String (Dict String CreateAttempt)}
    (present : ((history.get hotkey).getD .empty).get key = some a) :
    (((items.foldl (fun history item => history.set item.1
      (((history.get item.1).getD .empty).setDefault item.2.startId item.2)) history).get
        hotkey).getD .empty).get key = some a := by
  induction items generalizing history with
  | nil => exact present
  | cons item rest ih =>
      refine ih ?_
      rw [Dict.get_set]
      split
      · rename_i same
        subst same
        rw [Option.getD_some, Dict.get_setDefault]
        split
        · rename_i same
          subst same
          rw [present, Option.getD_some]
        · exact present
      · exact present

theorem get_loaded {hotkey : String} {entry : PendingStart}
    (present : (state.loaded now).pending.get hotkey = some entry) :
    ∃ old, state.pending.get hotkey = some old ∧ old.round = entry.round ∧
      old.startId = entry.startId ∧ old.submitted = entry.submitted := by
  rw [QueueState.loaded, Dict.get_mapValues, Option.map_eq_some_iff] at present
  obtain ⟨old, present, rfl⟩ := present
  exact ⟨old, present, rfl, rfl, rfl⟩

theorem spends_loaded (spent : state.Spent scope startId) (now : Rat) :
    Spends scope startId state (state.loaded now) := by
  refine ⟨⟨?_, ?_, spent.attempts⟩, ?_⟩
  · obtain ⟨a, member, was⟩ := spent.history
    exact ⟨a, get_setDefaults state.attempts.items member, was⟩
  · intro entry present is
    obtain ⟨old, found, round, start, submitted⟩ := get_loaded present
    rw [← submitted]
    exact spent.entry old found ⟨round.trans is.1, start.trans is.2⟩
  · rintro ⟨entry, present, is⟩
    obtain ⟨old, found, round, start, -⟩ := get_loaded present
    exact ⟨old, found, round.trans is.1, start.trans is.2⟩

/-! ## Changes -/

theorem spends_enqueue {replaces : Option String} {entry : PendingStart}
    (spent : state.Spent scope startId) (respects : other.hotkey = scope.hotkey → other.round = scope.round)
    (changed : state.enqueue settings other otherId now replaces = .ok (state', entry)) :
    Spends scope startId state state' := by
  -- an unknown connection is not the spent one
  have differs : ¬ state.Known other otherId → other.hotkey = scope.hotkey → otherId ≠ startId := by
    rintro unknown sameHotkey rfl
    refine unknown ?_
    obtain ⟨a, member, round⟩ := spent.history.known
    exact ⟨a, sameHotkey ▸ member, round.trans (respects sameHotkey).symm⟩
  unfold QueueState.enqueue at changed
  split at changed
  · split at changed
    · cases changed
    · split at changed
      · obtain ⟨rfl, -⟩ := Prod.mk.inj (Except.ok.inj changed)
        exact Spends.refl spent
      · rename_i unknown
        obtain ⟨rfl, -⟩ := Prod.mk.inj (Except.ok.inj changed)
        refine ⟨⟨spent.history.setHistory fun sameHotkey own => ?_, spent.entry, spent.attempts⟩, id⟩
        exact absurd own (differs unknown sameHotkey)
  · rename_i absent
    split at changed
    · cases changed
    · split at changed
      · cases changed
      · rename_i unknown
        obtain ⟨rfl, -⟩ := Prod.mk.inj (Except.ok.inj changed)
        have found : ∀ (held : PendingStart), (state.pending.set other.hotkey
            { round := other.round, startId := otherId, replaces, sequence := state.sequence + 1
              eligibleAt := truncate now }).get scope.hotkey = some held →
            held.Is scope startId → state.pending.get scope.hotkey = some held := by
          intro held present is
          rw [Dict.get_set] at present
          split at present
          · rename_i same
            obtain rfl := Option.some.inj present
            exact absurd is.2 (differs unknown same.symm)
          · exact present
        refine ⟨⟨?_, ?_, spent.attempts⟩, ?_⟩
        · refine QueueState.Submitted.setHistory ?_ fun sameHotkey own => ?_
          · exact spent.history
          · exact absurd own (differs unknown sameHotkey)
        · intro held present is
          exact spent.entry held (found held present is) is
        · rintro ⟨held, present, is⟩
          exact ⟨held, found held present is, is⟩

theorem spends_authorize (spent : state.Spent scope startId)
    (respects : other.hotkey = scope.hotkey → other.round = scope.round)
    (changed : state.authorize settings other otherId now = .ok state') :
    Spends scope startId state state' := by
  unfold QueueState.authorize at changed
  split at changed
  · cases changed
  · rename_i entry present
    split at changed
    · cases changed
    · rename_i own
      split at changed
      · cases changed
      · split at changed
        · cases changed
        · rename_i unsubmitted
          obtain rfl := Except.ok.inj changed
          rw [not_or, not_not] at own
          have differs : other.hotkey = scope.hotkey → otherId ≠ startId := by
            rintro sameHotkey rfl
            obtain ⟨a, member, round, submitted⟩ := spent.history
            exact unsubmitted ⟨a, sameHotkey ▸ member, round.trans (respects sameHotkey).symm, submitted⟩
          have found : ∀ (held : PendingStart), (state.pending.set other.hotkey
              { entry with submitted := true }).get scope.hotkey = some held →
              held.Is scope startId → state.pending.get scope.hotkey = some held := by
            intro held found is
            rw [Dict.get_set] at found
            split at found
            · rename_i same
              obtain rfl := Option.some.inj found
              exact absurd (own.1.2.symm.trans is.2) (differs same.symm)
            · exact found
          refine ⟨⟨?_, ?_, ?_⟩, ?_⟩
          · refine QueueState.Submitted.setHistory ?_ fun sameHotkey same => ?_
            · exact spent.history
            · exact absurd same (differs sameHotkey)
          · intro held present is
            exact spent.entry held (found held present is) is
          · intro a attempt
            simp only [QueueState.setHistory] at attempt
            rw [Dict.get_set] at attempt
            split at attempt
            · rename_i same
              obtain rfl := Option.some.inj attempt
              exact ⟨respects same.symm, fun _ => rfl⟩
            · exact spent.attempts a attempt
          · rintro ⟨held, present, is⟩
            exact ⟨held, found held present is, is⟩

theorem latest_mem {attempts : List CreateAttempt} {a : CreateAttempt}
    (found : latest attempts = some a) : a ∈ attempts := by
  induction attempts generalizing a with
  | nil => cases found
  | cons first rest ih =>
      rw [latest] at found
      split at found
      · obtain rfl := Option.some.inj found
        exact List.mem_cons_self
      · rename_i later held
        split at found
        · obtain rfl := Option.some.inj found
          exact List.mem_cons_of_mem _ (ih held)
        · obtain rfl := Option.some.inj found
          exact List.mem_cons_self

theorem spends_release (spent : state.Spent scope startId)
    (respects : other.hotkey = scope.hotkey → other.round = scope.round ∧ otherId ≠ startId)
    (changed : state.releaseAuthorization other otherId = .ok state') :
    Spends scope startId state state' := by
  unfold QueueState.releaseAuthorization at changed
  split at changed
  · obtain rfl := Except.ok.inj changed
    exact Spends.refl spent
  · rename_i entry present
    split at changed
    · obtain rfl := Except.ok.inj changed
      exact Spends.refl spent
    · rename_i own
      rw [not_or, not_not] at own
      split at changed
      · cases changed
      · rename_i history held
        split at changed
        · cases changed
        · rename_i ownAttempt _
          obtain rfl := Except.ok.inj changed
          have found : ∀ (pending : PendingStart), (state.pending.set other.hotkey
              { entry with submitted := false }).get scope.hotkey = some pending →
              pending.Is scope startId → state.pending.get scope.hotkey = some pending := by
            intro pending found is
            rw [Dict.get_set] at found
            split at found
            · rename_i same
              obtain rfl := Option.some.inj found
              exact absurd (own.1.2.symm.trans is.2) (respects same.symm).2
            · exact found
          refine ⟨⟨?_, ?_, ?_⟩, ?_⟩
          · obtain ⟨a, member, was⟩ := spent.history
            refine ⟨a, ?_, was⟩
            simp only [QueueState.historyOf]
            rw [Dict.get_set]
            split
            · rename_i same
              rw [Option.getD_some, Dict.get_set_of_ne _ _ (respects same.symm).2.symm]
              simp only [QueueState.historyOf] at member
              rw [same, held] at member
              exact member
            · exact member
          · intro pending present is
            exact spent.entry pending (found pending present is) is
          · intro a attempt
            simp only at attempt
            split at attempt
            · rename_i last latestIs
              rw [Dict.get_set] at attempt
              split at attempt
              · rename_i same
                obtain rfl := Option.some.inj attempt
                have chosen := (List.mem_filter.mp (latest_mem latestIs)).2
                rw [Bool.and_eq_true, decide_eq_true_iff] at chosen
                exact ⟨chosen.1.trans (respects same.symm).1, fun _ => chosen.2⟩
              · exact spent.attempts a attempt
            · rw [Dict.get_erase] at attempt
              split at attempt
              · cases attempt
              · exact spent.attempts a attempt
          · rintro ⟨pending, present, is⟩
            exact ⟨pending, found pending present is, is⟩

theorem spends_complete (spent : state.Spent scope startId) (rejected : Bool) :
    Spends scope startId state (state.complete other otherId rejected) := by
  have found : ∀ entry, (state.withoutEntry other otherId).get scope.hotkey = some entry →
      state.pending.get scope.hotkey = some entry := fun entry present =>
    (get_withoutEntry scope.hotkey present).1
  have kept (has : ∃ entry, (state.withoutEntry other otherId).get scope.hotkey = some entry ∧
      entry.Is scope startId) : state.Has scope startId := by
    obtain ⟨entry, present, is⟩ := has
    exact ⟨entry, found entry present, is⟩
  unfold QueueState.complete
  split
  · rename_i previous held
    split
    · rename_i rejects
      refine ⟨⟨?_, fun entry present is => spent.entry entry (found entry present) is, ?_⟩,
        kept⟩
      · refine QueueState.Submitted.setHistory ?_ fun sameHotkey own => ?_
        · exact spent.history
        · obtain ⟨round, submits⟩ := spent.attempts previous (sameHotkey ▸ held)
          exact ⟨round, submits (rejects.2.2.trans own)⟩
      · intro a attempt
        simp only [QueueState.setHistory] at attempt
        rw [Dict.get_set] at attempt
        split at attempt
        · rename_i same
          obtain rfl := Option.some.inj attempt
          exact spent.attempts previous (same ▸ held)
        · exact spent.attempts a attempt
    · exact ⟨⟨spent.history, fun entry present is => spent.entry entry (found entry present) is,
        spent.attempts⟩, kept⟩
  · exact ⟨⟨spent.history, fun entry present is => spent.entry entry (found entry present) is,
      spent.attempts⟩, kept⟩

theorem spends_cancel (spent : state.Spent scope startId) :
    Spends scope startId state (state.cancel other otherId).1 := by
  unfold QueueState.cancel
  split
  · exact Spends.refl spent
  · split
    · exact Spends.refl spent
    · have found : ∀ entry, (state.pending.erase other.hotkey).get scope.hotkey = some entry →
          state.pending.get scope.hotkey = some entry := by
        intro entry present
        rw [Dict.get_erase] at present
        split at present
        · cases present
        · exact present
      exact ⟨⟨spent.history, fun entry present is => spent.entry entry (found entry present) is,
        spent.attempts⟩, fun ⟨entry, present, is⟩ => ⟨entry, found entry present, is⟩⟩

theorem spends_keepRound (spent : state.Spent scope startId) {pending : Dict String PendingStart}
    {retained : Dict (String × String) CreateAttempt}
    (kept : ∀ entry, pending.get scope.hotkey = some entry → state.pending.get scope.hotkey = some entry) :
    Spends scope startId state { state.keepRound scope.round with pending, retained } := by
  refine ⟨⟨?_, fun entry present is => spent.entry entry (kept entry present) is, ?_⟩,
    fun ⟨entry, present, is⟩ => ⟨entry, kept entry present, is⟩⟩
  · obtain ⟨a, member, round, submitted⟩ := spent.history
    refine ⟨a, ?_, round, submitted⟩
    simp only [QueueState.historyOf, QueueState.keepRound] at member ⊢
    rw [Dict.get_mapValues]
    cases held : state.history.get scope.hotkey with
    | none =>
        rw [held] at member
        cases member
    | some history =>
        rw [held, Option.getD_some] at member
        rw [Option.map_some, Option.getD_some, Dict.get_filter, member]
        simp [round]
  · intro a attempt
    simp only [QueueState.keepRound] at attempt
    rw [Dict.get_filter, Option.filter_eq_some_iff] at attempt
    exact spent.attempts a attempt.1

theorem get_of_get_filter {d : Dict String PendingStart} {keep : String → PendingStart → Bool}
    {hotkey : String} {entry : PendingStart} (present : (d.filter keep).get hotkey = some entry) :
    d.get hotkey = some entry := by
  rw [Dict.get_filter, Option.filter_eq_some_iff] at present
  exact present.1

theorem spends_change {op : QueueOp} {result : Unit} (spent : state.Spent scope startId)
    (respects : op.Respects scope startId) (changed : op.change settings now state = .ok (state', result)) :
    Spends scope startId state state' := by
  have makes := op.makes changed
  cases op with
  | load =>
      obtain rfl := makes
      exact Spends.refl spent
  | enqueue other otherId replaces =>
      obtain ⟨entry, enqueued⟩ := makes
      exact spends_enqueue spent respects enqueued
  | authorize other otherId => exact spends_authorize spent respects makes
  | releaseAuthorization other otherId => exact spends_release spent respects makes
  | complete other otherId rejected =>
      obtain rfl := makes
      exact spends_complete spent rejected
  | cancel other otherId =>
      obtain rfl := makes
      exact spends_cancel spent
  | discardOld round =>
      obtain rfl := makes
      obtain rfl := respects
      exact spends_keepRound spent fun entry present => get_of_get_filter present
  | rollover round =>
      have rolled : state.rollover now round = .ok state' := makes
      unfold QueueState.rollover at rolled
      split at rolled
      · cases rolled
      · obtain rfl := Except.ok.inj rolled
        obtain rfl := respects
        exact spends_keepRound spent fun entry present => get_of_get_filter present

theorem authorize_spends (changed : state.authorize settings scope startId now = .ok state') :
    state'.Spent scope startId := by
  unfold QueueState.authorize at changed
  split at changed
  · cases changed
  · split at changed
    · cases changed
    · split at changed
      · cases changed
      · split at changed
        · cases changed
        · obtain rfl := Except.ok.inj changed
          refine ⟨⟨{ round := scope.round, startId, atTime := ⌈now⌉ }, ?_, rfl, rfl⟩, ?_, ?_⟩
          · rw [historyOf_setHistory, if_pos rfl]
            exact Dict.get_set_self _ _ _
          · intro entry present _
            simp only [QueueState.setHistory, Dict.get_set_self, Option.some.injEq] at present
            subst present
            rfl
          · intro a attempt
            simp only [QueueState.setHistory, Dict.get_set_self, Option.some.injEq] at attempt
            subst attempt
            exact ⟨rfl, fun _ => rfl⟩

theorem authorize_of_spent (spent : state.Spent scope startId) :
    state.authorize settings scope startId now ≠ .ok state' := by
  intro changed
  unfold QueueState.authorize at changed
  split at changed
  · cases changed
  · split at changed
    · cases changed
    · split at changed
      · cases changed
      · split at changed
        · cases changed
        · exact absurd spent.history ‹_›

end GenSubnet.Gateway
