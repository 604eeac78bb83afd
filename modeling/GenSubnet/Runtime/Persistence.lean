import GenSubnet.Runtime.Recording

/-!
# Persisted recordings

An execution is persisted whenever it changes. As long as no step is called while another call for it
waits to begin, and nothing finishes while a call waits to be recorded, a new schedule takes every
execution that was persisted, and goes on from it.
-/

namespace GenSubnet.Runtime
open Library

/-! ## Sessions -/

inductive SessionEvent
  | call (event : CallEvent)
  /-- The process ends, and another one goes on from what was persisted. -/
  | crash

def Calls.session (c : Calls) : SessionEvent → Option Calls
  | .call event => c.step event
  | .crash => (Schedule.init c.schedule.execution true).map fun s => ⟨s, []⟩

/-- The call waits to be recorded, or for a step that is not recorded to its end. -/
def Point.Waits : Point → Prop
  | .saving | .entering _ false => True
  | _ => False

instance : ∀ point : Point, Decidable point.Waits
  | .saving | .entering _ false => isTrue trivial
  | .entering _ true | .running _ _ | .exiting _ _ | .ended _ | .mismatched => isFalse id

/-- No other call waits for the step, and nothing finishes while a call waits to be recorded. -/
def Apart (c : Calls) : SessionEvent → Prop
  | .call (.step identity _ _) => ∀ call ∈ c.calls, call.identity = identity → ¬call.point.Waits
  | .call (.finish _ _) => ∀ call ∈ c.calls, call.point ≠ .saving
  | _ => True

instance (c : Calls) : ∀ event, Decidable (Apart c event)
  | .call (.step identity _ _) =>
      inferInstanceAs (Decidable (∀ call ∈ c.calls, call.identity = identity → _))
  | .call (.finish _ _) => inferInstanceAs (Decidable (∀ call ∈ c.calls, call.point ≠ .saving))
  | .call (.occurrence _) | .call (.complete _ _ _) | .call (.wake _ _) | .crash => isTrue trivial

/-- What was observed stays in its place, as it is once it has exited. -/
def Execution.Kept (e e' : Execution) : Prop :=
  ∀ (n : Nat) (o : Observation), e.observations[n]? = some o → ∃ o', e'.observations[n]? = some o' ∧
    o'.identity = o.identity ∧ o'.stream = o.stream ∧ o'.entered = o.entered ∧
    (o.exited ≠ none → o' = o)

theorem Execution.Kept.refl (e : Execution) : e.Kept e :=
  fun _ o found => ⟨o, found, rfl, rfl, rfl, fun _ => rfl⟩

theorem Execution.Kept.trans {a b c : Execution} (first : a.Kept b) (second : b.Kept c) :
    a.Kept c := by
  intro n o found
  obtain ⟨o', found', identity, stream, entered, same⟩ := first n o found
  obtain ⟨o'', found'', identity', stream', entered', same'⟩ := second n o' found'
  refine ⟨o'', found'', identity'.trans identity, stream'.trans stream, entered'.trans entered, ?_⟩
  intro exited
  obtain rfl := same exited
  exact same' exited

/-! ## What a call changes -/

/-- The call may still record something of the step. -/
def Point.Pending : Point → Prop
  | .saving | .entering _ false | .running _ false => True
  | _ => False

/-- What a call for a step does to the execution. -/
inductive Changes (s : Schedule) (identity : Identity) (s' : Schedule) : Prop
  | still (execution : s'.execution = s.execution) (steps : s'.steps = s.steps)
  | adds (stream : Bool) (new : s.steps.get identity = none)
      (unfinished : s.execution.finished = false)
      (execution : s'.execution = (s.add identity stream).execution)
  | closes (n : Nat) (o : Observation) (ending : Ending) (found : s.observations[n]? = some o)
      (own : o.identity = identity) (running : o.exited = none)
      (execution : s'.execution =
        { s.execution with observations := s.observations.set n (o.close s.tick ending) })

/-- What becomes of a call. -/
structure Progress (s : Schedule) (identity : Identity) (result : Schedule × Point) : Prop where
  changes : Changes s identity result.1
  started : s.started ⊆ result.1.started
  runs : ∀ n replay, result.2 = .running n replay → identity ∈ result.1.started
  saves : result.2 = .saving → s.execution.finished = false

variable {s s' : Schedule} {identity : Identity} {stream expired : Bool} {n : Nat}

theorem progress_hold {point : Point} (rests : ∀ n replay, point ≠ .running n replay)
    (saves : point = .saving → s.execution.finished = false) :
    Progress s identity (s.hold point expired) := by
  unfold Schedule.hold
  split
  · exact ⟨.still rfl rfl, subset_rfl, nofun, nofun⟩
  · split
    · exact ⟨.still rfl rfl, subset_rfl, nofun, nofun⟩
    · exact ⟨.still rfl rfl, subset_rfl, fun n replay is => absurd is (rests n replay), saves⟩

theorem progress_enter {o : Observation} (found : s.observations[n]? = some o)
    (own : o.identity = identity) (replay : Bool) :
    Progress s identity (s.enter n replay expired) := by
  unfold Schedule.enter
  rw [found]
  dsimp only
  split
  · refine ⟨.still rfl rfl, Finset.subset_insert _ _, ?_, nofun⟩
    rintro _ _ ⟨⟩
    exact own ▸ Finset.mem_insert_self _ _
  · exact progress_hold nofun nofun

theorem progress_found {o : Observation} (found : s.observations[n]? = some o)
    (own : o.identity = identity) : Progress s identity (s.found n stream expired) := by
  unfold Schedule.found
  rw [found]
  dsimp only
  split
  · exact ⟨.still rfl rfl, subset_rfl, nofun, nofun⟩
  · exact progress_enter found own _

theorem Progress.after_add (new : s.steps.get identity = none)
    (unfinished : s.execution.finished = false) {result : Schedule × Point}
    (still : result.1.execution = (s.add identity stream).execution)
    (progress : Progress (s.add identity stream) identity result) :
    Progress s identity result where
  changes := .adds stream new unfinished still
  started := progress.started
  runs := progress.runs
  saves _ := unfinished

theorem execution_hold (point : Point) : (s.hold point expired).1.execution = s.execution := by
  unfold Schedule.hold
  split
  · rfl
  · split <;> rfl

theorem execution_enter (replay : Bool) : (s.enter n replay expired).1.execution = s.execution := by
  unfold Schedule.enter
  split
  · rfl
  · split
    · rfl
    · exact execution_hold _

theorem execution_found : (s.found n stream expired).1.execution = s.execution := by
  unfold Schedule.found
  split
  · rfl
  · split
    · rfl
    · exact execution_enter _

theorem progress_create (new : s.steps.get identity = none)
    (unfinished : s.execution.finished = false) :
    Progress s identity (s.create identity stream expired) := by
  unfold Schedule.create
  split
  · have last : (s.add identity stream).observations[s.observations.length]? =
        some { identity, stream, entered := s.tick } := List.getElem?_concat_length
    exact (progress_found last rfl).after_add new unfinished execution_found
  · exact progress_hold nofun fun _ => unfinished

theorem progress_arrive (indexed : s.Indexed) :
    Progress s identity (s.arrive identity stream expired) := by
  unfold Schedule.arrive
  split
  · exact ⟨.still rfl rfl, subset_rfl, nofun, nofun⟩
  · split
    · rename_i entry at_
      obtain ⟨o, found, own⟩ := (indexed identity entry).mp at_
      exact progress_found found own
    · rename_i new
      split
      · exact ⟨.still rfl rfl, subset_rfl, nofun, nofun⟩
      · rename_i records
        rw [not_or] at records
        exact progress_create new (Bool.eq_false_iff.mpr records.2)

theorem progress_exit (ending : Ending) : Progress s identity (s.exit n ending expired) := by
  unfold Schedule.exit
  split
  · exact ⟨.still rfl rfl, subset_rfl, nofun, nofun⟩
  · split
    · exact ⟨.still rfl rfl, subset_rfl, nofun, nofun⟩
    · exact progress_hold nofun nofun

theorem progress_complete {replay : Bool} {ending : Ending}
    (records : (Point.running n replay).Records s identity) :
    Progress s identity (s.complete n replay ending expired) := by
  obtain ⟨o, found, own, rfl⟩ := records
  unfold Schedule.complete
  rw [found]
  dsimp only
  split
  · split
    · exact ⟨.still rfl rfl, subset_rfl, nofun, nofun⟩
    · exact progress_exit _
  · rename_i running
    rw [Option.isSome_iff_ne_none, not_not] at running
    exact ⟨.closes n o ending found own running rfl, subset_rfl, nofun, nofun⟩

theorem progress_wake {point : Point} {result : Schedule × Point}
    (records : point.Records s identity)
    (unfinished : point = .saving → s.execution.finished = false)
    (woke : s.wake identity stream expired point = some result) : Progress s identity result := by
  cases point with
  | saving =>
      obtain rfl := Option.some.inj woke
      exact progress_create records (unfinished rfl)
  | entering entry replay =>
      obtain rfl := Option.some.inj woke
      obtain ⟨o, found, own, -⟩ := records
      exact progress_enter found own replay
  | exiting entry ending =>
      obtain rfl := Option.some.inj woke
      exact progress_exit ending
  | running | ended | mismatched => cases woke

/-! ## What a change leaves -/

theorem Changes.kept (changes : Changes s identity s') : s.execution.Kept s'.execution := by
  cases changes with
  | still execution steps =>
      rw [execution]
      exact Execution.Kept.refl _
  | adds stream new unfinished execution =>
      intro n o found
      have inside : n < s.observations.length := (List.getElem?_eq_some_iff.mp found).1
      refine ⟨o, ?_, rfl, rfl, rfl, fun _ => rfl⟩
      rw [execution]
      change (s.observations ++ [_])[n]? = some o
      rw [List.getElem?_append_left inside]
      exact found
  | closes k closed ending at_k own running execution =>
      intro n o found
      rw [execution]
      by_cases same : k = n
      · subst same
        have inside : k < s.observations.length := (List.getElem?_eq_some_iff.mp found).1
        obtain rfl := Option.some.inj (at_k.symm.trans found)
        refine ⟨closed.close s.tick ending, ?_, rfl, rfl, rfl, fun exited => absurd running exited⟩
        rw [List.getElem?_set, if_pos rfl, if_pos inside]
      · refine ⟨o, ?_, rfl, rfl, rfl, fun _ => rfl⟩
        rw [List.getElem?_set, if_neg same]
        exact found

theorem Changes.closed (changes : Changes s identity s')
    (closed : s.execution.finished = true → ∀ o ∈ s.observations, o.exited ≠ none)
    (finished : s'.execution.finished = true) :
    s.execution.finished = true ∧ ∀ o ∈ s'.observations, o.exited ≠ none := by
  cases changes with
  | still execution steps =>
      rw [execution] at finished
      refine ⟨finished, ?_⟩
      unfold Schedule.observations
      rw [execution]
      exact closed finished
  | adds stream new unfinished execution =>
      rw [execution] at finished
      rw [show (s.add identity stream).execution.finished = s.execution.finished from rfl,
        unfinished] at finished
      cases finished
  | closes n o ending found own running execution =>
      rw [execution] at finished
      exact absurd running (closed finished o (List.mem_of_getElem? found))

/-- The call has come to its end. -/
def Point.Over : Point → Prop
  | .ended _ | .mismatched => True
  | _ => False

theorem Changes.still_or_over (changes : Changes s identity s') (indexed : s.Indexed) {point : Point}
    (free : ¬point.Pending) (records : point.Records s identity) :
    (s'.execution = s.execution ∧ s'.steps = s.steps) ∨ point.Over := by
  cases changes with
  | still execution steps => exact Or.inl ⟨execution, steps⟩
  | adds stream new unfinished execution =>
      have absent : ∀ {k : Nat} {o : Observation}, s.observations[k]? = some o →
          o.identity ≠ identity := by
        rintro k o found rfl
        rw [(indexed o.identity k).mpr ⟨o, found, rfl⟩] at new
        cases new
      cases point with
      | saving => exact absurd trivial free
      | entering k replay | running k replay =>
          obtain ⟨o, found, same, -⟩ := records
          exact absurd same (absent found)
      | exiting k ending =>
          obtain ⟨o, found, same, -⟩ := records
          exact absurd same (absent found)
      | ended | mismatched => exact Or.inr trivial
  | closes n closing ending at_n own running execution =>
      have there : ∀ {k : Nat} {o : Observation}, s.observations[k]? = some o →
          o.identity = identity → o.exited = none := by
        intro k o found same
        have is := indexed.unique (List.mem_of_getElem? found) (List.mem_of_getElem? at_n)
          (same.trans own.symm)
        rw [is]
        exact running
      cases point with
      | saving => exact absurd trivial free
      | entering k replay | running k replay =>
          obtain ⟨o, found, same, rfl⟩ := records
          rw [there found same] at free
          exact absurd trivial free
      | exiting k ending =>
          obtain ⟨o, found, same, exited⟩ := records
          exact absurd (there found same) exited
      | ended | mismatched => exact Or.inr trivial

theorem Changes.spares (changes : Changes s identity s') (indexed : s.Indexed) {point : Point}
    (free : ¬point.Pending) (records : point.Records s identity) : point.Records s' identity := by
  rcases changes.still_or_over indexed free records with ⟨execution, steps⟩ | atEnd
  · exact records.congr (congrArg Execution.observations execution) steps
  · cases point with
    | ended | mismatched => trivial
    | _ => exact absurd atEnd id

/-! ## Which calls are pending -/

theorem pending_hold {point : Point} (pending : (s.hold point expired).2.Pending) : point.Pending := by
  unfold Schedule.hold at pending
  split at pending
  · exact absurd pending id
  · split at pending
    · exact absurd pending id
    · exact pending

theorem pending_enter {replay : Bool} (pending : (s.enter n replay expired).2.Pending) :
    replay = false := by
  unfold Schedule.enter at pending
  split at pending
  · exact absurd pending id
  · split at pending
    · cases replay with
      | false => rfl
      | true => exact absurd pending id
    · cases replay with
      | false => rfl
      | true => exact absurd (pending_hold pending) id

theorem pending_exit {ending : Ending} : ¬(s.exit n ending expired).2.Pending := by
  intro pending
  unfold Schedule.exit at pending
  split at pending
  · exact pending
  · split at pending
    · exact pending
    · exact pending_hold pending

theorem pending_complete {replay : Bool} {ending : Ending} :
    ¬(s.complete n replay ending expired).2.Pending := by
  intro pending
  unfold Schedule.complete at pending
  split at pending
  · exact pending
  · split at pending
    · dsimp only at pending
      split at pending
      · exact pending
      · exact pending_exit pending
    · exact pending

theorem pending_wake {point : Point} {result : Schedule × Point}
    (woke : s.wake identity stream expired point = some result) (pending : result.2.Pending) :
    point.Pending := by
  cases point with
  | saving => trivial
  | entering entry replay =>
      obtain rfl := Option.some.inj woke
      rw [pending_enter pending]
      trivial
  | exiting entry ending =>
      obtain rfl := Option.some.inj woke
      exact absurd pending pending_exit
  | running | ended | mismatched => cases woke

/-! ## Runs -/

/-- What holds as long as the calls are apart. -/
structure Persisting (c : Calls) : Prop where
  recording : Recording c
  closed : c.schedule.execution.finished = true → ∀ o ∈ c.schedule.observations, o.exited ≠ none
  saving : c.schedule.execution.finished = true → ∀ call ∈ c.calls, call.point ≠ .saving
  started : ∀ call ∈ c.calls, ∀ n replay, call.point = .running n replay →
    call.identity ∈ c.schedule.started
  apart : ∀ (i j : Nat) (a b : Call), c.calls[i]? = some a → c.calls[j]? = some b →
    a.point.Pending → b.point.Pending → a.identity = b.identity → i = j

variable {c c' : Calls}

theorem Persisting.move (persisting : Persisting c) {call : Call} (found : c.calls[n]? = some call)
    {result : Schedule × Point} (records : Records c.schedule call.identity result)
    (progress : Progress c.schedule call.identity result)
    (pending : result.2.Pending → call.point.Pending) (active : ¬call.point.Over) :
    Persisting (c.move n call result) := by
  have indexed := persisting.recording.recorded.indexed
  have own := persisting.recording.points call (List.mem_of_getElem? found)
  have others : ∀ (k : Nat) (other : Call), c.calls[k]? = some other → k ≠ n →
      other.point.Records result.1 other.identity := by
    intro k other at_k different
    have before := persisting.recording.points other (List.mem_of_getElem? at_k)
    by_cases same : other.identity = call.identity
    · by_cases live : call.point.Pending
      · have free : ¬other.point.Pending := fun both =>
          different (persisting.apart k n other call at_k found both live same)
        rw [same] at before ⊢
        exact progress.changes.spares indexed free before
      · obtain ⟨execution, steps⟩ :=
          (progress.changes.still_or_over indexed live own).resolve_right active
        exact before.congr (congrArg Execution.observations execution) steps
    · exact records.others _ same _ before
  have members : ∀ other ∈ (c.move n call result).calls,
      other = { call with point := result.2 } ∨ other ∈ c.calls := fun other member =>
    (List.mem_or_eq_of_mem_set member).symm
  have at_move : ∀ (k : Nat) (other : Call), (c.move n call result).calls[k]? = some other →
      k = n ∧ other = { call with point := result.2 } ∨ k ≠ n ∧ c.calls[k]? = some other := by
    intro k other at_k
    rw [Calls.move, List.getElem?_set] at at_k
    split at at_k
    · split at at_k
      · exact Or.inl ⟨Eq.symm ‹_›, (Option.some.inj at_k).symm⟩
      · cases at_k
    · exact Or.inr ⟨fun same => absurd same.symm ‹_›, at_k⟩
  constructor
  · refine ⟨records.recorded, fun other member => ?_⟩
    obtain ⟨k, at_k⟩ := List.mem_iff_getElem?.mp member
    rcases at_move k other at_k with ⟨-, rfl⟩ | ⟨different, at_k⟩
    · exact records.point
    · exact others k other at_k different
  · exact fun finished => (progress.changes.closed persisting.closed finished).2
  · intro finished other member saving
    have before := (progress.changes.closed persisting.closed finished).1
    rcases members other member with rfl | member
    · rw [progress.saves saving] at before
      cases before
    · exact persisting.saving before other member saving
  · intro other member k replay running
    rcases members other member with rfl | member
    · exact progress.runs k replay running
    · exact progress.started (persisting.started other member k replay running)
  · intro i j a b at_i at_j pending_a pending_b same
    rcases at_move i a at_i with ⟨is_i, rfl⟩ | ⟨-, old_i⟩ <;>
      rcases at_move j b at_j with ⟨is_j, rfl⟩ | ⟨-, old_j⟩
    · exact is_i.trans is_j.symm
    · rw [is_i]
      exact persisting.apart n j call b found old_j (pending pending_a) pending_b same
    · rw [is_j]
      exact persisting.apart i n a call old_i found pending_a (pending pending_b) same
    · exact persisting.apart i j a b old_i old_j pending_a pending_b same

theorem arrive_of_started {entry : Nat} {o : Observation} (at_ : s.steps.get identity = some entry)
    (found : s.observations[entry]? = some o) (started : o.identity ∈ s.started) :
    (s.arrive identity stream expired).1.execution = s.execution ∧
      (s.arrive identity stream expired).1.steps = s.steps ∧
      ¬(s.arrive identity stream expired).2.Pending := by
  unfold Schedule.arrive
  split
  · exact ⟨rfl, rfl, id⟩
  · rw [at_]
    dsimp only
    unfold Schedule.found
    rw [found]
    dsimp only
    rw [if_pos (Or.inr started)]
    exact ⟨rfl, rfl, id⟩

theorem waits_or_running {point : Point} (pending : point.Pending) :
    point.Waits ∨ ∃ n, point = .running n false := by
  cases point with
  | saving => exact Or.inl trivial
  | entering k replay =>
      cases replay with
      | false => exact Or.inl trivial
      | true => exact absurd pending id
  | running k replay =>
      cases replay with
      | false => exact Or.inr ⟨k, rfl⟩
      | true => exact absurd pending id
  | _ => exact absurd pending id

theorem Persisting.arrive_again (persisting : Persisting c) {other : Call} (member : other ∈ c.calls)
    (pending : other.point.Pending) (apart : ¬other.point.Waits) :
    (c.schedule.arrive other.identity stream expired).1.execution = c.schedule.execution ∧
      (c.schedule.arrive other.identity stream expired).1.steps = c.schedule.steps ∧
      ¬(c.schedule.arrive other.identity stream expired).2.Pending := by
  obtain ⟨k, running⟩ := (waits_or_running pending).resolve_left apart
  have records := persisting.recording.points other member
  have started := persisting.started other member k false running
  rw [running] at records
  obtain ⟨o, found, own, -⟩ := records
  apply arrive_of_started ((persisting.recording.recorded.indexed _ k).mpr ⟨o, found, own⟩) found
  rw [own]
  exact started

theorem Persisting.arrive (persisting : Persisting c)
    (apart : ∀ call ∈ c.calls, call.identity = identity → ¬call.point.Waits) :
    Persisting ⟨(c.schedule.arrive identity stream expired).1,
      c.calls ++ [⟨identity, stream, (c.schedule.arrive identity stream expired).2⟩]⟩ := by
  have recorded := persisting.recording.recorded
  have records := @records_arrive _ identity stream expired recorded
  have progress := @progress_arrive _ identity stream expired recorded.indexed
  have at_new : ∀ (k : Nat) (other : Call), (c.calls ++ [⟨identity, stream,
      (c.schedule.arrive identity stream expired).2⟩])[k]? = some other →
      c.calls[k]? = some other ∨ k = c.calls.length ∧
        other = ⟨identity, stream, (c.schedule.arrive identity stream expired).2⟩ :=
    fun k other at_k => getElem?_concat at_k
  constructor
  · refine ⟨records.recorded, fun other member => ?_⟩
    rcases List.mem_append.mp member with old | member
    · have before := persisting.recording.points other old
      by_cases same : other.identity = identity
      · by_cases pending : other.point.Pending
        · subst same
          obtain ⟨execution, steps, -⟩ :=
            persisting.arrive_again old pending (apart other old rfl)
          exact before.congr (congrArg Execution.observations execution) steps
        · rw [same] at before ⊢
          exact progress.changes.spares recorded.indexed pending before
      · exact records.others _ same _ before
    · obtain rfl := List.mem_singleton.mp member
      exact records.point
  · exact fun finished => (progress.changes.closed persisting.closed finished).2
  · intro finished other member saving
    have before := (progress.changes.closed persisting.closed finished).1
    rcases List.mem_append.mp member with member | member
    · exact persisting.saving before other member saving
    · obtain rfl := List.mem_singleton.mp member
      rw [progress.saves saving] at before
      cases before
  · intro other member k replay running
    rcases List.mem_append.mp member with member | member
    · exact progress.started (persisting.started other member k replay running)
    · obtain rfl := List.mem_singleton.mp member
      exact progress.runs k replay running
  · intro i j a b at_i at_j pending_a pending_b same
    rcases at_new i a at_i with old_i | ⟨is_i, rfl⟩ <;>
      rcases at_new j b at_j with old_j | ⟨is_j, rfl⟩
    · exact persisting.apart i j a b old_i old_j pending_a pending_b same
    · have member := List.mem_of_getElem? old_i
      subst same
      exact absurd pending_b (persisting.arrive_again member pending_a (apart a member rfl)).2.2
    · have member := List.mem_of_getElem? old_j
      subst same
      exact absurd pending_a (persisting.arrive_again member pending_b (apart b member rfl)).2.2
    · exact is_i.trans is_j.symm

theorem Persisting.same (persisting : Persisting c) {schedule : Schedule}
    (execution : schedule.execution = c.schedule.execution)
    (steps : schedule.steps = c.schedule.steps) (tick : schedule.tick = c.schedule.tick)
    (started : schedule.started = c.schedule.started) (done : schedule.done = c.schedule.done) :
    Persisting { c with schedule } := by
  have observations : schedule.observations = c.schedule.observations :=
    congrArg Execution.observations execution
  refine ⟨persisting.recording.same observations steps tick done, ?_, ?_, ?_, persisting.apart⟩
  · rw [execution, observations]
    exact persisting.closed
  · rw [execution]
    exact persisting.saving
  · rw [started]
    exact persisting.started

theorem Persisting.finish (persisting : Persisting c) (digest : String) (isNone : Bool)
    (apart : ∀ call ∈ c.calls, call.point ≠ .saving) :
    Persisting { c with schedule := (c.schedule.finish digest isNone).1 } ∧
      c.schedule.execution.Kept (c.schedule.finish digest isNone).1.execution := by
  unfold Schedule.finish
  split
  · exact ⟨persisting.same rfl rfl rfl rfl rfl, Execution.Kept.refl _⟩
  · rename_i consumed
    rw [not_or, not_not] at consumed
    split
    · split
      · exact ⟨persisting.same rfl rfl rfl rfl rfl, Execution.Kept.refl _⟩
      · exact ⟨persisting, Execution.Kept.refl _⟩
    · have exited := persisting.recording.recorded.all_exited consumed.2
      refine ⟨⟨persisting.recording.same rfl rfl rfl rfl, fun _ => exited, fun _ => apart,
        persisting.started, persisting.apart⟩, ?_⟩
      intro n o found
      exact ⟨o, found, rfl, rfl, rfl, fun _ => rfl⟩

theorem persisting_init {e : Execution} {record : Bool}
    (started : Schedule.init e record = some s) : Persisting ⟨s, []⟩ ∧ s.execution = e := by
  have recording := recording_init started
  unfold Schedule.init at started
  split at started
  · rename_i valid
    obtain rfl := Option.some.inj started
    refine ⟨⟨recording, valid.2.2.2.2, ?_, ?_, ?_⟩, rfl⟩
    · exact fun _ _ => nofun
    · exact fun _ => nofun
    · exact fun _ _ _ _ => nofun
  · cases started

theorem Persisting.valid (persisting : Persisting c) : c.schedule.execution.Valid :=
  persisting.recording.recorded.valid persisting.closed

theorem Persisting.session {event : SessionEvent} (persisting : Persisting c) (apart : Apart c event)
    (stepped : c.session event = some c') :
    Persisting c' ∧ c.schedule.execution.Kept c'.schedule.execution := by
  cases event with
  | crash =>
      obtain ⟨s, started, rfl⟩ := Option.map_eq_some_iff.mp stepped
      obtain ⟨persisting', is⟩ := persisting_init started
      exact ⟨persisting', is ▸ Execution.Kept.refl _⟩
  | call event =>
      cases event with
      | occurrence key =>
          obtain rfl := Option.some.inj stepped
          have same : Persisting { c with schedule := (c.schedule.occurrence key).1 } :=
            persisting.same rfl rfl rfl rfl rfl
          exact ⟨same, Execution.Kept.refl _⟩
      | step identity stream expired =>
          obtain rfl := Option.some.inj stepped
          exact ⟨persisting.arrive apart,
            (progress_arrive persisting.recording.recorded.indexed).changes.kept⟩
      | complete n ending expired =>
          simp only [Calls.session, Calls.step] at stepped
          split at stepped
          · rename_i call found
            split at stepped
            · rename_i entry replay point
              obtain rfl := Option.some.inj stepped
              have records := persisting.recording.points call (List.mem_of_getElem? found)
              rw [point] at records
              have progress := @progress_complete _ _ expired _ replay ending records
              refine ⟨persisting.move found (records_complete persisting.recording.recorded records)
                progress ?_ ?_, progress.changes.kept⟩
              · exact fun pending => absurd pending pending_complete
              · rw [point]
                exact id
            · cases stepped
          · cases stepped
      | wake n expired =>
          simp only [Calls.session, Calls.step] at stepped
          split at stepped
          · rename_i call found
            obtain ⟨result, woke, rfl⟩ := Option.map_eq_some_iff.mp stepped
            have member := List.mem_of_getElem? found
            have records := persisting.recording.points call member
            have unfinished : call.point = .saving → c.schedule.execution.finished = false := by
              intro saving
              rw [Bool.eq_false_iff]
              exact fun finished => persisting.saving finished call member saving
            have progress := progress_wake records unfinished woke
            refine ⟨persisting.move found (records_wake persisting.recording.recorded records woke)
              progress (pending_wake woke) ?_, progress.changes.kept⟩
            intro atEnd
            cases point : call.point with
            | ended | mismatched =>
                rw [point] at woke
                cases woke
            | _ =>
                rw [point] at atEnd
                exact atEnd
          · cases stepped
      | finish digest isNone =>
          obtain rfl := Option.some.inj stepped
          exact persisting.finish digest isNone apart

theorem persisting_run {events : List SessionEvent}
    (apart : Throughout Calls.session Apart c events) (ran : run Calls.session c events = some c')
    (persisting : Persisting c) : Persisting c' ∧ c.schedule.execution.Kept c'.schedule.execution := by
  have step : ∀ (b : Calls) (event : SessionEvent) (b' : Calls),
      (Persisting b ∧ c.schedule.execution.Kept b.schedule.execution) → Apart b event →
      b.session event = some b' →
      Persisting b' ∧ c.schedule.execution.Kept b'.schedule.execution := by
    rintro b event b' ⟨before, kept⟩ holds stepped
    obtain ⟨after, kept'⟩ := before.session holds stepped
    exact ⟨after, kept.trans kept'⟩
  exact apart.invariant ran step ⟨persisting, Execution.Kept.refl _⟩

/-- Every execution that a recording persists is taken by a new schedule, also after any crashes, and
it keeps what was persisted before, as long as the calls are apart. -/
theorem persisted_execution_reloads {e : Execution} (started : Schedule.init e true = some s)
    (events later : List SessionEvent) (b c : Calls)
    (ran : run Calls.session ⟨s, []⟩ events = some b) (goes : run Calls.session b later = some c)
    (apart : Throughout Calls.session Apart ⟨s, []⟩ (events ++ later)) :
    b.schedule.execution.Valid ∧ (∃ s', Schedule.init b.schedule.execution true = some s') ∧
      b.schedule.execution.Kept c.schedule.execution := by
  obtain ⟨apart, apart'⟩ := apart.append
  have persisting := (persisting_run apart ran (persisting_init started).1).1
  refine ⟨persisting.valid, ?_, (persisting_run (apart' b ran) goes persisting).2⟩
  rw [Schedule.init, if_pos persisting.valid]
  exact ⟨_, rfl⟩

/-! ## A stream that is closed twice -/

/-- A stream was created and another call has returned, and then the process has ended. -/
def observed : Execution where
  observations :=
    [{ identity := firstCall, stream := true, entered := 0, exited := some 1,
       outcome := some "return", exchangeId := some "x" },
     { identity := secondCall, stream := false, entered := 2, exited := some 3,
       outcome := some "return", exchangeId := some "y" }]

theorem observed_valid : observed.Valid := by
  refine ⟨by decide, by decide, ?_, by decide, by decide⟩
  exact List.mergeSort_of_pairwise (by decide)

def resumed : Schedule where
  execution := observed
  record := true
  steps := positions 0 observed.observations .empty
  tick := 4
  saved := {firstCall, secondCall}

theorem init_observed : Schedule.init observed true = some resumed := by
  rw [Schedule.init, if_pos observed_valid]
  rfl

def closing : Identity := ⟨"a", 0, .close, 0⟩

/-- Two threads close the stream before the other call is replayed. -/
def closedTwice : List SessionEvent :=
  [.call (.step firstCall true), .call (.complete 0 (.returned (some "x"))),
    .call (.step closing true), .call (.step closing true), .call (.step secondCall false),
    .call (.complete 3 (.returned (some "y"))), .call (.wake 1), .call (.wake 2)]

/-- Both are recorded, under one identity. -/
theorem step_recorded_twice : ∃ c, run Calls.session ⟨resumed, []⟩ closedTwice = some c ∧
    ¬c.schedule.execution.Valid ∧ Schedule.init c.schedule.execution true = none := by
  have twice : (run Calls.session ⟨resumed, []⟩ closedTwice).any
      (fun c => ¬c.schedule.execution.identities.Nodup) = true := by
    decide +kernel
  obtain ⟨c, ran, holds⟩ := (Option.any_eq_true _ _).mp twice
  have invalid : ¬c.schedule.execution.Valid := fun valid => of_decide_eq_true holds valid.1
  refine ⟨c, ran, invalid, ?_⟩
  rw [Schedule.init, if_neg invalid]

/-- The stream is closed once, and its operation goes on when the process ends. -/
def closedOnce : List SessionEvent :=
  [.call (.step firstCall true), .call (.complete 0 (.returned (some "x"))),
    .call (.step closing true), .call (.step secondCall false),
    .call (.complete 2 (.returned (some "y"))), .call (.wake 1)]

theorem persisted_execution_reloads_closed : ∃ c,
    run Calls.session ⟨resumed, []⟩ closedOnce = some c ∧ c.schedule.execution.Valid ∧
      (∃ s', Schedule.init c.schedule.execution true = some s') ∧
      c.schedule.execution.Kept c.schedule.execution := by
  have apart : Throughout Calls.session Apart ⟨resumed, []⟩ (closedOnce ++ []) := by
    decide +kernel
  obtain ⟨c, ran⟩ := Option.isSome_iff_exists.mp
    (show (run Calls.session ⟨resumed, []⟩ closedOnce).isSome = true by decide +kernel)
  exact ⟨c, ran, persisted_execution_reloads init_observed closedOnce [] c c ran rfl apart⟩

end GenSubnet.Runtime
