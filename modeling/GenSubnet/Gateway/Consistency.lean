import GenSubnet.Gateway.StartQueue
import GenSubnet.Library.Transition

/-!
# Consistency of the queue journal

Over every sequence of queue operations: a submitted entry has an attempt of its own connection, so
a rollover finds it; and a create that was authorized stays unresolved. Both hold where the attempt
of a submitted entry is not discarded before the entry, and no retained create is displaced.
-/

namespace GenSubnet.Gateway
open Library

/-! ## Runs of queue operations -/

inductive QueueOp
  | load
  | enqueue (scope : Scope) (startId : String) (replaces : Option String)
  | authorize (scope : Scope) (startId : String)
  | releaseAuthorization (scope : Scope) (startId : String)
  | complete (scope : Scope) (startId : String) (rejected : Bool)
  | cancel (scope : Scope) (startId : String)
  | discardOld (round : String)
  | rollover (round : String)

structure QueueEvent where
  op : QueueOp
  now : Rat
  saving : Saving := .saved

/-- What an operation makes of the journal that it has loaded. -/
def QueueOp.change (settings : QueueSettings) (now : Rat) (state : QueueState) :
    QueueOp → Except QueueError (QueueState × Unit)
  | .load => .ok (state, ())
  | .enqueue scope startId replaces =>
      (state.enqueue settings scope startId now replaces).map fun r => (r.1, ())
  | .authorize scope startId => (state.authorize settings scope startId now).map (·, ())
  | .releaseAuthorization scope startId => (state.releaseAuthorization scope startId).map (·, ())
  | .complete scope startId rejected => .ok (state.complete scope startId rejected, ())
  | .cancel scope startId => .ok ((state.cancel scope startId).1, ())
  | .discardOld round => .ok (state.discardOld round, ())
  | .rollover round => (state.rollover now round).map (·, ())

/-- A request that the process answers from its copy. -/
def StartQueue.Cached (q : StartQueue) : QueueOp → Prop
  | .enqueue scope startId _ => ∃ cached ∈ q.memory.entry scope,
      cached.startId = startId ∨ (q.memory.attempt scope startId).isSome = true
  | _ => False

instance (q : StartQueue) : ∀ op, Decidable (q.Cached op)
  | .enqueue scope startId _ =>
      match h : q.memory.entry scope with
      | none => isFalse (by rintro ⟨cached, member, -⟩; rw [h] at member; cases member)
      | some cached =>
          decidable_of_iff (cached.startId = startId ∨ (q.memory.attempt scope startId).isSome = true)
            (by simp [StartQueue.Cached, h])
  | .load | .authorize _ _ | .releaseAuthorization _ _ | .complete _ _ _ | .cancel _ _
  | .discardOld _ | .rollover _ => isFalse id

def StartQueue.perform (settings : QueueSettings) (q : StartQueue) (e : QueueEvent) :
    StartQueue × Except QueueError Unit :=
  match e.op with
  | .load => (q.load e.now, .ok ())
  | op =>
      if q.Cached op then (q, .ok ())
      else q.change e.now e.saving fun state => op.change settings e.now state

/-- A create that was authorized, and when. -/
structure Authorization where
  round : String
  hotkey : String
  startId : String
  time : Rat
deriving DecidableEq

def Authorization.Of (o : Authorization) (scope : Scope) (startId : String) : Prop :=
  o.round = scope.round ∧ o.hotkey = scope.hotkey ∧ o.startId = startId

instance (o : Authorization) (scope : Scope) (startId : String) : Decidable (o.Of scope startId) :=
  inferInstanceAs (Decidable (_ ∧ _ ∧ _))

structure QueueRun where
  queue : StartQueue := {}
  /-- Authorized creates that were neither handed back nor completed, and whose 600 seconds no
  operation has seen pass. -/
  outstanding : List Authorization := []

/-- The operation ends the create: it is completed, or handed back. -/
def QueueOp.Ends (state : QueueState) : QueueOp → Authorization → Prop
  | .complete scope startId _, o => o.Of scope startId
  | .releaseAuthorization scope startId, o => o.Of scope startId ∧
      ∃ entry ∈ state.pending.get scope.hotkey, entry.Is scope startId ∧ entry.submitted = true
  | _, _ => False

instance (state : QueueState) (o : Authorization) : ∀ op : QueueOp, Decidable (op.Ends state o)
  | .complete scope startId _ => inferInstanceAs (Decidable (o.Of scope startId))
  | .releaseAuthorization scope startId =>
      match h : state.pending.get scope.hotkey with
      | none => isFalse (by rintro ⟨-, entry, member, -⟩; rw [h] at member; cases member)
      | some entry =>
          decidable_of_iff (o.Of scope startId ∧ entry.Is scope startId ∧ entry.submitted = true)
            (by simp [QueueOp.Ends, h])
  | .load | .enqueue _ _ _ | .authorize _ _ | .cancel _ _ | .discardOld _ | .rollover _ =>
      isFalse id

/-- The change reached the store. -/
def QueueEvent.TookEffect (settings : QueueSettings) (q : StartQueue) (e : QueueEvent) : Bool :=
  e.saving ≠ .rejected && (e.op.change settings e.now (q.stored.loaded e.now)).toOption.isSome

/-- The outstanding creates that the operation leaves. -/
def QueueRun.remaining (settings : QueueSettings) (s : QueueRun) (e : QueueEvent) :
    List Authorization :=
  s.outstanding.filter fun o => e.now < o.time + 600 ∧
    ¬ (e.TookEffect settings s.queue = true ∧ e.op.Ends (s.queue.stored.loaded e.now) o)

/-- The create that the answer authorizes. -/
def QueueEvent.granted (e : QueueEvent) (answer : Except QueueError Unit) : List Authorization :=
  match e.op, answer with
  | .authorize scope startId, .ok _ => [⟨scope.round, scope.hotkey, startId, e.now⟩]
  | _, _ => []

def QueueRun.step (settings : QueueSettings) (s : QueueRun) (e : QueueEvent) : Option QueueRun :=
  let (queue, answer) := s.queue.perform settings e
  some { queue, outstanding := s.remaining settings e ++ e.granted answer }

/-! ## Links -/

/-- A submitted entry has an attempt of its own connection. -/
def QueueState.Linked (state : QueueState) : Prop :=
  ∀ hotkey entry, state.pending.get hotkey = some entry → entry.submitted = true →
    ∃ a, state.attempts.get hotkey = some a ∧ a.round = entry.round ∧ a.startId = entry.startId

/-- A submitted entry stands for the create, with an attempt that is no older. -/
def QueueState.Awaits (state : QueueState) (o : Authorization) : Prop :=
  ∃ entry a, state.pending.get o.hotkey = some entry ∧ entry.submitted = true ∧
    entry.round = o.round ∧ entry.startId = o.startId ∧
    state.attempts.get o.hotkey = some a ∧ o.time ≤ a.atTime

/-- A retained attempt stands for the create, and is no older. -/
def QueueState.Retains (state : QueueState) (o : Authorization) : Prop :=
  ∃ a, state.retained.get (o.hotkey, o.startId) = some a ∧ a.round = o.round ∧ o.time ≤ a.atTime

def QueueState.Counts (state : QueueState) (o : Authorization) : Prop :=
  state.Awaits o ∨ state.Retains o

theorem QueueState.Counts.mem_unresolved {state : QueueState} {o : Authorization}
    (counts : state.Counts o) (deployment : String) {now : Rat} (young : now < o.time + 600) :
    (⟨deployment, o.round, o.hotkey⟩, o.startId) ∈ state.unresolved deployment now := by
  unfold QueueState.unresolved
  rcases counts with ⟨entry, a, present, submitted, round, start, -, -⟩ | ⟨a, present, round, later⟩
  · refine List.mem_append_left _ (List.mem_map.mpr ⟨(⟨deployment, entry.round, o.hotkey⟩, entry),
      List.mem_filter.mpr ⟨?_, submitted⟩, ?_⟩)
    · exact List.mem_map.mpr ⟨(o.hotkey, entry), Dict.get_eq_some_iff.mp present, rfl⟩
    · rw [round, start]
  · refine List.mem_append_right _ (List.mem_map.mpr ⟨((o.hotkey, o.startId), a),
      List.mem_filter.mpr ⟨Dict.get_eq_some_iff.mp present, ?_⟩, ?_⟩)
    · rw [decide_eq_true_iff]
      linarith
    · rw [round]

/-! ## What a change keeps -/

/-- A change keeps the links, and it keeps counting the creates that it does not end. -/
structure Keeps (ends : Authorization → Prop) (state state' : QueueState) : Prop where
  linked : state.Linked → state'.Linked
  counts : ∀ o, state.Linked → ¬ ends o → state.Counts o → state'.Counts o

variable {ends : Authorization → Prop} {state state' : QueueState}

theorem Keeps.of_same (pending : state'.pending = state.pending)
    (attempts : state'.attempts = state.attempts) (retained : state'.retained = state.retained) :
    Keeps ends state state' := by
  constructor
  · unfold QueueState.Linked
    rw [pending, attempts]
    exact id
  · intro o _ _ counts
    unfold QueueState.Counts QueueState.Awaits QueueState.Retains
    rw [pending, attempts, retained]
    exact counts

theorem Keeps.of_hotkey {hotkey : String}
    (pending : ∀ other, other ≠ hotkey → state'.pending.get other = state.pending.get other)
    (attempts : ∀ other, other ≠ hotkey → state'.attempts.get other = state.attempts.get other)
    (retained : state'.retained = state.retained)
    (linked : state.Linked → ∀ entry, state'.pending.get hotkey = some entry →
      entry.submitted = true →
      ∃ a, state'.attempts.get hotkey = some a ∧ a.round = entry.round ∧ a.startId = entry.startId)
    (awaits : ∀ o, o.hotkey = hotkey → ¬ ends o → state.Linked → state.Awaits o → state'.Awaits o) :
    Keeps ends state state' := by
  constructor
  · intro before other entry present submitted
    by_cases same : other = hotkey
    · subst same
      exact linked before entry present submitted
    · rw [pending other same] at present
      rw [attempts other same]
      exact before other entry present submitted
  · intro o before going counts
    rcases counts with awaiting | retains
    · left
      by_cases same : o.hotkey = hotkey
      · exact awaits o same going before awaiting
      · unfold QueueState.Awaits
        rw [pending _ same, attempts _ same]
        exact awaiting
    · right
      unfold QueueState.Retains
      rw [retained]
      exact retains

theorem keeps_loaded (now : Rat) : Keeps ends state (state.loaded now) := by
  constructor
  · intro before hotkey entry present submitted
    rw [QueueState.loaded, Dict.get_mapValues, Option.map_eq_some_iff] at present
    obtain ⟨old, present, rfl⟩ := present
    exact before hotkey old present submitted
  · intro o _ _ counts
    rcases counts with ⟨entry, a, present, submitted, round, start, has, later⟩ | retains
    · left
      refine ⟨{ entry with eligibleAt := min entry.eligibleAt (truncate now) }, a, ?_, submitted,
        round, start, has, later⟩
      rw [QueueState.loaded, Dict.get_mapValues, present]
      rfl
    · exact Or.inr retains

variable {settings : QueueSettings} {scope : Scope} {startId : String} {now : Rat}

theorem keeps_setHistory (hotkey : String) (a : CreateAttempt) :
    Keeps ends state (state.setHistory hotkey startId a) :=
  .of_same rfl rfl rfl

theorem keeps_enqueue {replaces : Option String} {entry : PendingStart}
    (changed : state.enqueue settings scope startId now replaces = .ok (state', entry)) :
    Keeps ends state state' := by
  unfold QueueState.enqueue at changed
  split at changed
  · split at changed
    · cases changed
    · split at changed
      · obtain ⟨rfl, -⟩ := Prod.mk.inj (Except.ok.inj changed)
        exact .of_same rfl rfl rfl
      · obtain ⟨rfl, -⟩ := Prod.mk.inj (Except.ok.inj changed)
        exact keeps_setHistory _ _
  · rename_i absent
    split at changed
    · cases changed
    · split at changed
      · cases changed
      · obtain ⟨rfl, -⟩ := Prod.mk.inj (Except.ok.inj changed)
        refine .of_hotkey (fun other ne => Dict.get_set_of_ne _ _ ne) (fun _ _ => rfl) rfl ?_ ?_
        · intro _ entry present submitted
          simp only [QueueState.setHistory, Dict.get_set_self, Option.some.injEq] at present
          subst present
          cases submitted
        · rintro o same _ _ ⟨entry, a, present, -⟩
          rw [same, absent] at present
          cases present

theorem keeps_authorize (changed : state.authorize settings scope startId now = .ok state') :
    Keeps ends state state' := by
  unfold QueueState.authorize at changed
  split at changed
  · cases changed
  · rename_i entry present
    split at changed
    · cases changed
    · rename_i own
      split at changed
      · cases changed
      · split at changed
        · cases changed
        · obtain rfl := Except.ok.inj changed
          rw [not_or, not_not] at own
          refine .of_hotkey (fun other ne => Dict.get_set_of_ne _ _ ne)
            (fun other ne => Dict.get_set_of_ne _ _ ne) rfl ?_ ?_
          · intro _ found now_ submitted
            simp only [QueueState.setHistory, Dict.get_set_self, Option.some.injEq] at now_
            subst now_
            exact ⟨_, Dict.get_set_self _ _ _, own.1.1.symm, own.1.2.symm⟩
          · rintro o same _ _ ⟨found, a, present', submitted, -⟩
            rw [same] at present'
            obtain rfl := Option.some.inj (present.symm.trans present')
            exact absurd submitted own.2

theorem authorize_counts (changed : state.authorize settings scope startId now = .ok state') :
    state'.Counts ⟨scope.round, scope.hotkey, startId, now⟩ := by
  unfold QueueState.authorize at changed
  split at changed
  · cases changed
  · rename_i entry present
    split at changed
    · cases changed
    · rename_i own
      split at changed
      · cases changed
      · split at changed
        · cases changed
        · obtain rfl := Except.ok.inj changed
          rw [not_or, not_not] at own
          exact Or.inl ⟨_, _, Dict.get_set_self _ _ _, rfl, own.1.1, own.1.2, Dict.get_set_self _ _ _,
            Int.le_ceil now⟩

theorem keeps_release (changed : state.releaseAuthorization scope startId = .ok state') :
    Keeps ((QueueOp.releaseAuthorization scope startId).Ends state) state state' := by
  unfold QueueState.releaseAuthorization at changed
  split at changed
  · obtain rfl := Except.ok.inj changed
    exact .of_same rfl rfl rfl
  · rename_i entry present
    split at changed
    · obtain rfl := Except.ok.inj changed
      exact .of_same rfl rfl rfl
    · rename_i own
      rw [not_or, not_not, Bool.not_eq_false] at own
      split at changed
      · cases changed
      · split at changed
        · cases changed
        · obtain rfl := Except.ok.inj changed
          refine .of_hotkey (fun other ne => Dict.get_set_of_ne _ _ ne) ?_ rfl ?_ ?_
          · intro other ne
            simp only
            split
            · exact Dict.get_set_of_ne _ _ ne
            · rw [Dict.get_erase, if_neg ne]
          · intro _ found present' submitted
            simp only [Dict.get_set_self, Option.some.injEq] at present'
            subst present'
            cases submitted
          · rintro o same going _ ⟨found, a, present', submitted, round, start, -⟩
            rw [same] at present'
            obtain rfl := Option.some.inj (present.symm.trans present')
            exact absurd ⟨⟨round.symm.trans own.1.1, same, start.symm.trans own.1.2⟩, entry, present,
              own⟩ going

theorem get_withoutEntry (other : String) {entry : PendingStart}
    (present : (state.withoutEntry scope startId).get other = some entry) :
    state.pending.get other = some entry ∧ (other = scope.hotkey → ¬ entry.Is scope startId) := by
  unfold QueueState.withoutEntry at present
  split at present
  · rename_i found held
    split at present
    · rw [Dict.get_erase] at present
      split at present
      · cases present
      · rename_i other
        exact ⟨present, fun same => absurd same other⟩
    · rename_i differs
      refine ⟨present, ?_⟩
      rintro rfl
      obtain rfl := Option.some.inj (held.symm.trans present)
      exact differs
  · rename_i absent
    refine ⟨present, ?_⟩
    rintro rfl
    rw [absent] at present
    cases present

theorem get_withoutEntry_of_ne {other : String} (ne : other ≠ scope.hotkey) :
    (state.withoutEntry scope startId).get other = state.pending.get other := by
  unfold QueueState.withoutEntry
  split
  · split
    · rw [Dict.get_erase, if_neg ne]
    · rfl
  · rfl

theorem withoutEntry_keeps {entry : PendingStart}
    (present : state.pending.get scope.hotkey = some entry) (differs : ¬ entry.Is scope startId) :
    (state.withoutEntry scope startId).get scope.hotkey = some entry := by
  unfold QueueState.withoutEntry
  rw [present]
  simp only [if_neg differs]
  exact present

theorem keeps_complete (rejected : Bool) :
    Keeps (fun o => o.Of scope startId) state (state.complete scope startId rejected) := by
  have differs : ∀ (o : Authorization) (entry : PendingStart), o.hotkey = scope.hotkey →
      ¬ o.Of scope startId → entry.round = o.round → entry.startId = o.startId →
      ¬ entry.Is scope startId := by
    intro o entry same going round start is
    exact going ⟨round.symm.trans is.1, same, start.symm.trans is.2⟩
  unfold QueueState.complete
  split
  · rename_i previous held
    split
    · rename_i rejects
      refine .of_hotkey (fun other => get_withoutEntry_of_ne)
        (fun other ne => Dict.get_set_of_ne _ _ ne) rfl ?_ ?_
      · intro before entry present submitted
        obtain ⟨present, -⟩ := get_withoutEntry _ present
        obtain ⟨a, has, round, start⟩ := before _ entry present submitted
        obtain rfl := Option.some.inj (held.symm.trans has)
        exact ⟨_, Dict.get_set_self _ _ _, round, start⟩
      · rintro o same going _ ⟨entry, a, present, submitted, round, start, has, later⟩
        rw [same] at present has
        obtain rfl := Option.some.inj (held.symm.trans has)
        have kept := withoutEntry_keeps present (differs o entry same going round start)
        refine ⟨entry, { previous with rejected := true }, ?_, submitted, round, start, ?_, later⟩
        · rw [same]
          exact kept
        · rw [same]
          exact Dict.get_set_self _ _ _
    · refine .of_hotkey (fun other => get_withoutEntry_of_ne) (fun _ _ => rfl) rfl ?_ ?_
      · intro before entry present submitted
        exact before _ entry (get_withoutEntry _ present).1 submitted
      · rintro o same going _ ⟨entry, a, present, submitted, round, start, has, later⟩
        have kept := withoutEntry_keeps (same ▸ present) (differs o entry same going round start)
        exact ⟨entry, a, same ▸ kept, submitted, round, start, has, later⟩
  · refine .of_hotkey (fun other => get_withoutEntry_of_ne) (fun _ _ => rfl) rfl ?_ ?_
    · intro before entry present submitted
      exact before _ entry (get_withoutEntry _ present).1 submitted
    · rintro o same going _ ⟨entry, a, present, submitted, round, start, has, later⟩
      have kept := withoutEntry_keeps (same ▸ present) (differs o entry same going round start)
      exact ⟨entry, a, same ▸ kept, submitted, round, start, has, later⟩

theorem keeps_cancel : Keeps ends state (state.cancel scope startId).1 := by
  unfold QueueState.cancel
  split
  · exact .of_same rfl rfl rfl
  · rename_i entry present
    split
    · exact .of_same rfl rfl rfl
    · rename_i own
      rw [not_or, not_not] at own
      refine @Keeps.of_hotkey _ _ _ scope.hotkey ?_ (fun _ _ => rfl) rfl ?_ ?_
      · intro other ne
        rw [Dict.get_erase, if_neg ne]
      · intro _ found present'
        rw [Dict.get_erase, if_pos rfl] at present'
        cases present'
      · rintro o same _ _ ⟨found, a, present', submitted, -⟩
        rw [same] at present'
        obtain rfl := Option.some.inj (present.symm.trans present')
        exact absurd submitted own.2

/-! ## Changes of rounds -/

/-- Every submitted entry is of the round. -/
def QueueState.SubmittedIn (state : QueueState) (round : String) : Prop :=
  ∀ item ∈ state.pending.items, item.2.submitted = true → item.2.round = round

instance (state : QueueState) (round : String) : Decidable (state.SubmittedIn round) :=
  inferInstanceAs (Decidable (∀ item ∈ state.pending.items, _ → _))

/-- No rollover puts an attempt in the place of a retained one that is younger than 600 seconds, but
for a later attempt of the same connection. -/
def QueueState.DisplacesNone (state : QueueState) (now : Rat) (round : String) : Prop :=
  ∀ item ∈ state.pending.items, item.2.round ≠ round → item.2.submitted = true →
    ∀ older ∈ state.retained.get (item.1, item.2.startId), now - older.atTime < 600 →
      older.round = item.2.round ∧ ∀ a ∈ state.attempts.get item.1, older.atTime ≤ a.atTime

instance (state : QueueState) (now : Rat) (round : String) :
    Decidable (state.DisplacesNone now round) :=
  inferInstanceAs (Decidable (∀ item ∈ state.pending.items, _ → _ → ∀ older ∈
    state.retained.get (item.1, item.2.startId), _ → _ ∧ ∀ a ∈ state.attempts.get item.1, _))

theorem get_keepRound {hotkey round : String} {a : CreateAttempt}
    (present : state.attempts.get hotkey = some a) (of : a.round = round) :
    (state.keepRound round).attempts.get hotkey = some a := by
  rw [QueueState.keepRound, Dict.get_filter, present]
  simp [of]

theorem keeps_discardOld {round : String} (submittedIn : state.SubmittedIn round) :
    Keeps ends state (state.discardOld round) := by
  have found : ∀ hotkey entry, (state.discardOld round).pending.get hotkey = some entry →
      state.pending.get hotkey = some entry := by
    intro hotkey entry present
    rw [QueueState.discardOld, Dict.get_filter, Option.filter_eq_some_iff] at present
    exact present.1
  have kept : ∀ hotkey entry, state.pending.get hotkey = some entry → entry.submitted = true →
      (state.discardOld round).pending.get hotkey = some entry := by
    intro hotkey entry present submitted
    rw [QueueState.discardOld, Dict.get_filter, Option.filter_eq_some_iff]
    exact ⟨present, by simp [submitted]⟩
  have inRound : ∀ hotkey entry, state.pending.get hotkey = some entry → entry.submitted = true →
      entry.round = round := fun hotkey entry present =>
    submittedIn (hotkey, entry) (Dict.get_eq_some_iff.mp present)
  constructor
  · intro before hotkey entry present submitted
    have present := found hotkey entry present
    obtain ⟨a, has, of, start⟩ := before hotkey entry present submitted
    exact ⟨a, get_keepRound has (of.trans (inRound hotkey entry present submitted)), of, start⟩
  · intro o before _ counts
    rcases counts with ⟨entry, a, present, submitted, of, start, has, later⟩ | retains
    · obtain ⟨a', has', of', -⟩ := before o.hotkey entry present submitted
      obtain rfl := Option.some.inj (has.symm.trans has')
      exact Or.inl ⟨entry, a, kept _ _ present submitted, submitted, of, start,
        get_keepRound has (of'.trans (inRound _ _ present submitted)), later⟩
    · exact Or.inr retains

/-- A submitted entry that a rollover takes out of the queue. -/
def PendingStart.Leaves (entry : PendingStart) (round : String) : Prop :=
  entry.round ≠ round ∧ entry.submitted = true

theorem retainOld_ok {round : String} {attempts : Dict String CreateAttempt}
    {items : List (String × PendingStart)} (retained : Dict (String × String) CreateAttempt)
    (linked : ∀ item ∈ items, item.2.submitted = true → (attempts.get item.1).isSome = true) :
    ∃ result, retainOld round attempts items retained = .ok result := by
  induction items generalizing retained with
  | nil => exact ⟨retained, rfl⟩
  | cons item rest ih =>
      have later := fun retained => ih retained fun i member => linked i (.tail _ member)
      unfold retainOld
      split
      · rename_i leaves
        obtain ⟨a, has⟩ := Option.isSome_iff_exists.mp (linked item List.mem_cons_self leaves.2)
        simp only [has]
        exact later _
      · exact later retained

theorem get_retainOld {round : String} {attempts : Dict String CreateAttempt}
    {items : List (String × PendingStart)} {retained result : Dict (String × String) CreateAttempt}
    (kept : retainOld round attempts items retained = .ok result) (key : String × String) :
    (∃ item ∈ items, item.2.Leaves round ∧ (item.1, item.2.startId) = key ∧
        result.get key = attempts.get item.1) ∨
      (∀ item ∈ items, item.2.Leaves round → (item.1, item.2.startId) ≠ key) ∧
        result.get key = retained.get key := by
  induction items generalizing retained with
  | nil =>
      obtain rfl := Except.ok.inj kept
      exact Or.inr ⟨fun _ member => absurd member List.not_mem_nil, rfl⟩
  | cons item rest ih =>
      unfold retainOld at kept
      split at kept
      · rename_i leaves
        split at kept
        · cases kept
        · rename_i a has
          rcases ih kept with ⟨i, member, rest⟩ | ⟨others, same⟩
          · exact Or.inl ⟨i, .tail _ member, rest⟩
          · rw [Dict.get_set] at same
            by_cases own : key = (item.1, item.2.startId)
            · rw [if_pos own] at same
              exact Or.inl ⟨item, List.mem_cons_self, leaves, own.symm, same.trans has.symm⟩
            · rw [if_neg own] at same
              refine Or.inr ⟨?_, same⟩
              intro i member leaving
              rcases List.mem_cons.mp member with rfl | member
              · exact fun eq => own eq.symm
              · exact others i member leaving
      · rename_i stays
        rcases ih kept with ⟨i, member, rest⟩ | ⟨others, same⟩
        · exact Or.inl ⟨i, .tail _ member, rest⟩
        · refine Or.inr ⟨?_, same⟩
          intro i member leaving
          rcases List.mem_cons.mp member with rfl | member
          · exact absurd leaving stays
          · exact others i member leaving

theorem QueueState.Linked.rollover_ok (linked : state.Linked) (now : Rat) (round : String) :
    ∃ state', state.rollover now round = .ok state' := by
  have created (item : String × PendingStart) (member : item ∈ state.pending.items)
      (submitted : item.2.submitted = true) : (state.attempts.get item.1).isSome = true := by
    obtain ⟨a, has, -⟩ := linked item.1 item.2 (Dict.get_eq_some_iff.mpr member) submitted
    rw [has]
    rfl
  have retains : ∃ result, retainOld round state.attempts state.pending.items state.retained = .ok result :=
    retainOld_ok state.retained created
  obtain ⟨result, kept⟩ := retains
  exact ⟨_, by rw [QueueState.rollover, kept]⟩

theorem keeps_rollover {round : String} (changed : state.rollover now round = .ok state')
    (displaces : state.DisplacesNone now round) :
    Keeps (fun o => ¬ now < o.time + 600) state state' := by
  unfold QueueState.rollover at changed
  split at changed
  · cases changed
  · rename_i result kept
    obtain rfl := Except.ok.inj changed
    constructor
    · intro before hotkey entry present submitted
      rw [Dict.get_filter, Option.filter_eq_some_iff, decide_eq_true_iff] at present
      obtain ⟨a, has, of, start⟩ := before hotkey entry present.1 submitted
      exact ⟨a, get_keepRound has (of.trans present.2), of, start⟩
    · intro o before young counts
      rw [not_not] at young
      rcases counts with ⟨entry, a, present, submitted, of, start, has, later⟩ |
        ⟨older, present, of, later⟩
      · obtain ⟨a', has', of', -⟩ := before o.hotkey entry present submitted
        obtain rfl := Option.some.inj (has.symm.trans has')
        by_cases stays : entry.round = round
        · refine Or.inl ⟨entry, a, ?_, submitted, of, start, get_keepRound has (of'.trans stays),
            later⟩
          rw [Dict.get_filter, present]
          simp [stays]
        · refine Or.inr ⟨a, ?_, of'.trans of, later⟩
          have moved : result.get (o.hotkey, o.startId) = some a := by
            rcases get_retainOld kept (o.hotkey, o.startId) with ⟨item, -, -, key, same⟩ | ⟨others, -⟩
            · rw [same, (Prod.mk.inj key).1, has]
            · refine absurd ?_ (others (o.hotkey, entry) (Dict.get_eq_some_iff.mp present)
                ⟨stays, submitted⟩)
              rw [start]
          rw [Dict.get_filter, moved, Option.filter_eq_some_iff, decide_eq_true_iff]
          exact ⟨rfl, by linarith⟩
      · right
        rcases get_retainOld kept (o.hotkey, o.startId) with
          ⟨item, member, leaves, key, same⟩ | ⟨-, same⟩
        · obtain ⟨a, has, of', -⟩ :=
            before item.1 item.2 (Dict.get_eq_some_iff.mpr member) leaves.2
          obtain ⟨sameRound, newer⟩ := displaces item member leaves.1 leaves.2 older
            (by rw [key]; exact present) (by linarith)
          have after := newer a has
          refine ⟨a, ?_, (of'.trans sameRound.symm).trans of, ?_⟩
          · rw [Dict.get_filter, same, has, Option.filter_eq_some_iff, decide_eq_true_iff]
            have : (older.atTime : Rat) ≤ a.atTime := Int.cast_le.mpr after
            exact ⟨rfl, by linarith⟩
          · have : (older.atTime : Rat) ≤ a.atTime := Int.cast_le.mpr after
            linarith
        · refine ⟨older, ?_, of, later⟩
          rw [Dict.get_filter, same, present, Option.filter_eq_some_iff, decide_eq_true_iff]
          exact ⟨rfl, by linarith⟩

/-! ## Runs -/

/-- The operation neither drops the attempt of a submitted entry nor displaces a retained one. -/
def QueueOp.Orderly (state : QueueState) (now : Rat) : QueueOp → Prop
  | .discardOld round => state.SubmittedIn round
  | .rollover round => state.DisplacesNone now round
  | _ => True

instance (state : QueueState) (now : Rat) : ∀ op : QueueOp, Decidable (op.Orderly state now)
  | .discardOld round => inferInstanceAs (Decidable (state.SubmittedIn round))
  | .rollover round => inferInstanceAs (Decidable (state.DisplacesNone now round))
  | .load | .enqueue _ _ _ | .authorize _ _ | .releaseAuthorization _ _ | .complete _ _ _
  | .cancel _ _ => isTrue trivial

def QueueEvent.Orderly (s : QueueRun) (e : QueueEvent) : Prop :=
  e.saving ≠ .rejected → e.op.Orderly (s.queue.stored.loaded e.now) e.now

instance (s : QueueRun) (e : QueueEvent) : Decidable (e.Orderly s) :=
  inferInstanceAs (Decidable (_ → _))

/-- A create that needs no longer be counted: it is over, or its 600 seconds have passed. -/
def QueueOp.Over (state : QueueState) (now : Rat) (op : QueueOp) (o : Authorization) : Prop :=
  ¬ now < o.time + 600 ∨ op.Ends state o

theorem Keeps.mono {ends' : Authorization → Prop} (keeps : Keeps ends state state')
    (weaker : ∀ o, ends o → ends' o) : Keeps ends' state state' :=
  ⟨keeps.linked, fun o linked going => keeps.counts o linked fun is => going (weaker o is)⟩

/-- How an operation makes one journal of another. -/
def QueueOp.Makes (settings : QueueSettings) (now : Rat) (state state' : QueueState) : QueueOp → Prop
  | .load => state' = state
  | .enqueue scope startId replaces =>
      ∃ entry, state.enqueue settings scope startId now replaces = .ok (state', entry)
  | .authorize scope startId => state.authorize settings scope startId now = .ok state'
  | .releaseAuthorization scope startId => state.releaseAuthorization scope startId = .ok state'
  | .complete scope startId rejected => state' = state.complete scope startId rejected
  | .cancel scope startId => state' = (state.cancel scope startId).1
  | .discardOld round => state' = state.discardOld round
  | .rollover round => state.rollover now round = .ok state'

theorem QueueOp.makes {op : QueueOp} {result : Unit}
    (changed : op.change settings now state = .ok (state', result)) :
    op.Makes settings now state state' := by
  have unpaired : ∀ {e : Except QueueError QueueState}, e.map (·, ()) = .ok (state', result) →
      e = .ok state' := by
    rintro (_ | t) mapped
    · cases mapped
    · obtain ⟨rfl, -⟩ := Prod.mk.inj (Except.ok.inj mapped)
      rfl
  cases op with
  | load | complete scope startId rejected | cancel scope startId | discardOld round =>
      exact (Prod.mk.inj (Except.ok.inj changed)).1.symm
  | enqueue scope startId replaces =>
      simp only [QueueOp.change] at changed
      cases enqueued : state.enqueue settings scope startId now replaces with
      | error e =>
          rw [enqueued] at changed
          cases changed
      | ok r =>
          rw [enqueued] at changed
          obtain ⟨rfl, -⟩ := Prod.mk.inj (Except.ok.inj changed)
          exact ⟨r.2, enqueued⟩
  | authorize scope startId | releaseAuthorization scope startId | rollover round =>
      exact unpaired changed

theorem QueueOp.keeps {op : QueueOp} {result : Unit} (orderly : op.Orderly state now)
    (changed : op.change settings now state = .ok (state', result)) :
    Keeps (op.Over state now) state state' := by
  have makes := op.makes changed
  cases op with
  | load =>
      obtain rfl := makes
      exact .of_same rfl rfl rfl
  | enqueue scope startId replaces =>
      obtain ⟨entry, enqueued⟩ := makes
      exact keeps_enqueue enqueued
  | authorize scope startId => exact keeps_authorize makes
  | releaseAuthorization scope startId => exact (keeps_release makes).mono fun o is => Or.inr is
  | complete scope startId rejected =>
      obtain rfl := makes
      exact (keeps_complete rejected).mono fun o is => Or.inr is
  | cancel scope startId =>
      obtain rfl := makes
      exact keeps_cancel
  | discardOld round =>
      obtain rfl := makes
      exact keeps_discardOld orderly
  | rollover round => exact (keeps_rollover makes orderly).mono fun o is => Or.inl is

/-- The journal and the copy of the process are linked and count every outstanding create. -/
structure QueueRun.Consistent (s : QueueRun) : Prop where
  storedLinked : s.queue.stored.Linked
  memoryLinked : s.queue.memory.Linked
  stored : ∀ o ∈ s.outstanding, s.queue.stored.Counts o
  memory : ∀ o ∈ s.outstanding, s.queue.memory.Counts o

/-- What an operation leaves: the journal and the copy as they were, the copy of a load, a changed
journal whose answer was lost, or the change in both. -/
inductive Performed (settings : QueueSettings) (q : StartQueue) (e : QueueEvent) : StartQueue →
    Except QueueError Unit → Prop
  | unchanged (answer : Except QueueError Unit)
      (noAuthorization : ∀ scope startId, e.op = .authorize scope startId → answer ≠ .ok ()) :
      Performed settings q e q answer
  | loaded (op : e.op = .load) : Performed settings q e (q.load e.now) (.ok ())
  | uncertain (state : QueueState) (saving : e.saving ≠ .rejected)
      (changed : e.op.change settings e.now (q.stored.loaded e.now) = .ok (state, ())) :
      Performed settings q e { q with stored := state } (.error .unsaved)
  | saved (state : QueueState) (saving : e.saving ≠ .rejected)
      (changed : e.op.change settings e.now (q.stored.loaded e.now) = .ok (state, ())) :
      Performed settings q e ⟨state, state⟩ (.ok ())

theorem StartQueue.change_performed (settings : QueueSettings) (q : StartQueue) (e : QueueEvent) :
    Performed settings q e
      (q.change e.now e.saving fun state => e.op.change settings e.now state).1
      (q.change e.now e.saving fun state => e.op.change settings e.now state).2 := by
  unfold StartQueue.change
  cases changed : e.op.change settings e.now (q.stored.loaded e.now) with
  | error error =>
      simp only [changed]
      exact .unchanged (.error error) fun _ _ _ => nofun
  | ok r =>
      obtain ⟨state, ⟨⟩⟩ := r
      simp only [changed]
      cases saving : e.saving with
      | saved => exact .saved state (by simp [saving]) changed
      | rejected => exact .unchanged (.error .unsaved) fun _ _ _ => nofun
      | uncertain => exact .uncertain state (by simp [saving]) changed

theorem StartQueue.perform_performed (settings : QueueSettings) (q : StartQueue) (e : QueueEvent) :
    Performed settings q e (q.perform settings e).1 (q.perform settings e).2 := by
  obtain ⟨op, now, saving⟩ := e
  unfold StartQueue.perform
  cases op with
  | load => exact .loaded rfl
  | enqueue scope startId replaces =>
      simp only
      split
      · exact .unchanged _ fun _ _ other => by cases other
      · exact q.change_performed settings _
  | authorize | releaseAuthorization | complete | cancel | discardOld | rollover =>
      simp only [StartQueue.Cached]
      exact q.change_performed settings _

theorem QueueRun.step_eq (s : QueueRun) (e : QueueEvent) :
    s.step settings e = some ⟨(s.queue.perform settings e).1,
      s.remaining settings e ++ e.granted (s.queue.perform settings e).2⟩ := rfl

theorem QueueEvent.granted_eq_nil {e : QueueEvent} {answer : Except QueueError Unit}
    (none : ∀ scope startId, e.op = .authorize scope startId → answer ≠ .ok ()) :
    e.granted answer = [] := by
  unfold QueueEvent.granted
  split
  · exact absurd rfl (none _ _ ‹_›)
  · rfl

theorem QueueEvent.granted_counts {e : QueueEvent} {answer : Except QueueError Unit}
    {result : Unit} (changed : e.op.change settings e.now state = .ok (state', result)) :
    ∀ o ∈ e.granted answer, state'.Counts o := by
  intro o member
  unfold QueueEvent.granted at member
  split at member
  · rename_i scope startId _ op
    obtain rfl := List.mem_singleton.mp member
    rw [op] at changed
    exact authorize_counts (QueueOp.makes changed)
  · cases member

theorem QueueRun.Consistent.changed {s : QueueRun} {e : QueueEvent} {result : Unit}
    (consistent : s.Consistent) (orderly : e.Orderly s) (saving : e.saving ≠ .rejected)
    (changed : e.op.change settings e.now (s.queue.stored.loaded e.now) = .ok (state, result)) :
    state.Linked ∧ ∀ o ∈ s.remaining settings e, state.Counts o := by
  have loaded := @keeps_loaded (fun _ => False) s.queue.stored e.now
  have linked := loaded.linked consistent.storedLinked
  have keeps := QueueOp.keeps (orderly saving) changed
  have effect : e.TookEffect settings s.queue = true := by
    rw [QueueEvent.TookEffect, changed]
    simpa [Except.toOption] using saving
  refine ⟨keeps.linked linked, fun o member => keeps.counts o linked ?_ ?_⟩
  · rw [QueueRun.remaining, List.mem_filter, decide_eq_true_iff] at member
    rintro (old | ends)
    · exact old member.2.1
    · exact member.2.2 ⟨effect, ends⟩
  · exact loaded.counts o consistent.storedLinked id
      (consistent.stored o (List.mem_of_mem_filter member))

theorem QueueRun.Consistent.step {s s' : QueueRun} {e : QueueEvent} (consistent : s.Consistent)
    (orderly : e.Orderly s) (stepped : s.step settings e = some s') : s'.Consistent := by
  have performed := s.queue.perform_performed settings e
  rw [QueueRun.step_eq] at stepped
  obtain rfl := Option.some.inj stepped
  have before : ∀ o ∈ s.remaining settings e, o ∈ s.outstanding := fun o member =>
    List.mem_of_mem_filter member
  generalize s.queue.perform settings e = result at performed
  obtain ⟨queue, answer⟩ := result
  cases performed with
  | unchanged _ noAuthorization =>
      have nothing := QueueEvent.granted_eq_nil noAuthorization
      refine ⟨consistent.storedLinked, consistent.memoryLinked, ?_, ?_⟩
      · rw [nothing, List.append_nil]
        exact fun o member => consistent.stored o (before o member)
      · rw [nothing, List.append_nil]
        exact fun o member => consistent.memory o (before o member)
  | loaded op =>
      have loaded := @keeps_loaded (fun _ => False) s.queue.stored e.now
      have nothing : e.granted (.ok ()) = [] :=
        QueueEvent.granted_eq_nil fun _ _ other => nomatch op.symm.trans other
      refine ⟨consistent.storedLinked, loaded.linked consistent.storedLinked, ?_, ?_⟩
      · rw [nothing, List.append_nil]
        exact fun o member => consistent.stored o (before o member)
      · rw [nothing, List.append_nil]
        exact fun o member => loaded.counts o consistent.storedLinked id
          (consistent.stored o (before o member))
  | uncertain state saving changed =>
      obtain ⟨linked, counts⟩ := consistent.changed orderly saving changed
      have nothing : e.granted (.error .unsaved) = [] := QueueEvent.granted_eq_nil fun _ _ _ => nofun
      refine ⟨linked, consistent.memoryLinked, ?_, ?_⟩
      · rw [nothing, List.append_nil]
        exact counts
      · rw [nothing, List.append_nil]
        exact fun o member => consistent.memory o (before o member)
  | saved state saving changed =>
      obtain ⟨linked, counts⟩ := consistent.changed orderly saving changed
      have all : ∀ o ∈ s.remaining settings e ++ e.granted (.ok ()), state.Counts o := by
        intro o member
        rcases List.mem_append.mp member with member | member
        · exact counts o member
        · exact QueueEvent.granted_counts changed o member
      exact ⟨linked, linked, all, all⟩

theorem consistent_start : ({} : QueueRun).Consistent where
  storedLinked _ _ present := nomatch present
  memoryLinked _ _ present := nomatch present
  stored _ member := nomatch member
  memory _ member := nomatch member

/-- In every run of queue operations whose changes are orderly: each submitted entry has an attempt
of its own connection, a rollover finds every attempt, and an authorized create stays unresolved
until it is completed or handed back, or its 600 seconds are over. -/
theorem queue_consistent {events : List QueueEvent} {s : QueueRun}
    (orderly : Throughout (QueueRun.step settings) (fun s e => e.Orderly s) {} events)
    (ran : run (QueueRun.step settings) {} events = some s) :
    s.queue.stored.Linked ∧ s.queue.memory.Linked ∧
      (∀ now saving round, (s.queue.perform settings ⟨.rollover round, now, saving⟩).2 ≠
        .error .keyError) ∧
      ∀ o ∈ s.outstanding, ∀ deployment now, now < o.time + 600 →
        (⟨deployment, o.round, o.hotkey⟩, o.startId) ∈ s.queue.memory.unresolved deployment now := by
  have consistent : s.Consistent := orderly.invariant ran
    (fun s e s' before orderly stepped => before.step orderly stepped) consistent_start
  refine ⟨consistent.storedLinked, consistent.memoryLinked, ?_, ?_⟩
  · intro now saving round
    have linked := (@keeps_loaded (fun _ => False) _ now).linked consistent.storedLinked
    obtain ⟨state', rolled⟩ := linked.rollover_ok now round
    simp only [StartQueue.perform, StartQueue.Cached, StartQueue.change, QueueOp.change, rolled,
      Except.map]
    cases saving <;> simp
  · exact fun o member deployment now young => (consistent.memory o member).mem_unresolved _ young

/-! ## Samples -/

def sampleSettings : QueueSettings where
  interval := 0

def firstScope : Scope := ⟨"d", "r1", "miner"⟩

def secondScope : Scope := ⟨"d", "r2", "miner"⟩

/-- A create of the first round is authorized, and the old round is rolled over. -/
def rolledOver : List QueueEvent :=
  [⟨.enqueue firstScope "c1" none, 0, .saved⟩, ⟨.authorize firstScope "c1", 1, .saved⟩,
    ⟨.rollover "r2", 2, .saved⟩]


/-- The run after the events. -/
def queueAfter (events : List QueueEvent) : QueueRun :=
  (run (QueueRun.step sampleSettings) {} events).getD {}

theorem run_queueAfter {events : List QueueEvent}
    (runs : (run (QueueRun.step sampleSettings) {} events).isSome = true) :
    run (QueueRun.step sampleSettings) {} events = some (queueAfter events) := by
  obtain ⟨s, ran⟩ := Option.isSome_iff_exists.mp runs
  rw [queueAfter, ran]
  rfl

theorem rolledOver_orderly :
    Throughout (QueueRun.step sampleSettings) (fun s e => e.Orderly s) {} rolledOver := by
  decide +kernel

theorem queue_consistent_sample :
    (⟨"d", "r1", "miner"⟩, "c1") ∈ (queueAfter rolledOver).queue.memory.unresolved "d" 600 :=
  (queue_consistent rolledOver_orderly (run_queueAfter (by decide +kernel))).2.2.2
    ⟨"r1", "miner", "c1", 1⟩ (by decide +kernel) "d" 600 (by decide +kernel)

/-- The old round is discarded while its create is uncertain. -/
def discarded : List QueueEvent :=
  [⟨.enqueue firstScope "c1" none, 0, .saved⟩, ⟨.authorize firstScope "c1", 1, .saved⟩,
    ⟨.discardOld "r2", 2, .saved⟩]

/-- The same connection is authorized in the next round, and that round is rolled over as well. -/
def displaced : List QueueEvent :=
  rolledOver ++ [⟨.enqueue secondScope "c1" none, 3, .saved⟩,
    ⟨.authorize secondScope "c1", 4, .saved⟩, ⟨.rollover "r3", 5, .saved⟩]

/-- A submitted entry loses its attempt and the rollover fails; and a create that was authorized four
seconds ago, and not completed, is not unresolved. -/
theorem attempts_lost :
    (∃ s, run (QueueRun.step sampleSettings) {} discarded = some s ∧ ¬ s.queue.stored.Linked ∧
      (s.queue.perform sampleSettings ⟨.rollover "r2", 3, .saved⟩).2 = .error .keyError) ∧
    ∃ s, run (QueueRun.step sampleSettings) {} displaced = some s ∧
      ⟨"r1", "miner", "c1", 1⟩ ∈ s.outstanding ∧
      (⟨"d", "r1", "miner"⟩, "c1") ∉ s.queue.memory.unresolved "d" 5 := by
  constructor
  · refine ⟨queueAfter discarded, run_queueAfter (by decide +kernel), ?_, by decide +kernel⟩
    intro linked
    obtain ⟨a, has, -⟩ := linked "miner"
      { round := "r1", startId := "c1", replaces := none, sequence := 1, eligibleAt := 0
        submitted := true } (by decide +kernel) rfl
    have none : (queueAfter discarded).queue.stored.attempts.get "miner" = none := by
      decide +kernel
    rw [none] at has
    cases has
  · exact ⟨queueAfter displaced, run_queueAfter (by decide +kernel), by decide +kernel,
      by decide +kernel⟩

end GenSubnet.Gateway
