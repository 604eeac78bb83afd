import GenSubnet.Runtime.Schedule
import Mathlib.Data.Nat.Find

/-!
# Replays

A replay of a finished execution keeps the recorded order, and the waits never hold back the earliest
event that was not replayed yet.
-/

namespace GenSubnet.Runtime
open Library

/-! ## Positions -/

theorem get_positions {observations : List Observation}
    (nodup : (observations.map Observation.identity).Nodup) (n : Nat) {steps : Dict Identity Nat}
    {identity : Identity} {position : Nat} :
    (positions n observations steps).get identity = some position ↔
      (∃ k o, observations[k]? = some o ∧ o.identity = identity ∧ position = n + k) ∨
        identity ∉ observations.map Observation.identity ∧ steps.get identity = some position := by
  induction observations generalizing n steps with
  | nil => simp [positions]
  | cons o rest ih =>
      obtain ⟨new, nodup⟩ := List.nodup_cons.mp nodup
      rw [positions, ih nodup]
      constructor
      · rintro (⟨k, other, found, same, rfl⟩ | ⟨absent, there⟩)
        · exact Or.inl ⟨k + 1, other, found, same, by omega⟩
        · rw [Dict.get_set] at there
          split at there
          · rename_i own
            exact Or.inl ⟨0, o, rfl, own.symm, (Option.some.inj there).symm⟩
          · rename_i other
            exact Or.inr ⟨by simpa using ⟨other, by simpa using absent⟩, there⟩
      · rintro (⟨k, other, found, same, rfl⟩ | ⟨absent, there⟩)
        · cases k with
          | zero =>
              obtain rfl := Option.some.inj found
              refine Or.inr ⟨same ▸ new, ?_⟩
              rw [← same, Dict.get_set_self]
              rfl
          | succ k => exact Or.inl ⟨k, other, found, same, by omega⟩
        · rw [List.map_cons, List.mem_cons, not_or] at absent
          exact Or.inr ⟨absent.2, by rw [Dict.get_set_of_ne _ _ absent.1]; exact there⟩

/-- Each identity stands for its observation, and each observation has one. -/
def Schedule.Indexed (s : Schedule) : Prop :=
  ∀ identity n, s.steps.get identity = some n ↔
    ∃ o, s.observations[n]? = some o ∧ o.identity = identity

theorem indexed_init {e : Execution} {record : Bool} {s : Schedule}
    (started : Schedule.init e record = some s) : s.Indexed := by
  unfold Schedule.init at started
  split at started
  · rename_i valid
    obtain rfl := Option.some.inj started
    intro identity n
    rw [show (positions 0 e.observations .empty).get identity = some n ↔ _ from
      get_positions valid.1 0]
    constructor
    · rintro (⟨k, o, found, same, rfl⟩ | ⟨-, there⟩)
      · exact ⟨o, by rw [Nat.zero_add]; exact found, same⟩
      · cases there
    · rintro ⟨o, found, same⟩
      exact Or.inl ⟨n, o, found, same, (Nat.zero_add n).symm⟩
  · cases started

variable {s s' : Schedule}

theorem Schedule.Indexed.item {o : Observation} (indexed : s.Indexed) (member : o ∈ s.observations) :
    ∃ n, (o.identity, n) ∈ s.steps.items ∧ s.observations[n]? = some o := by
  obtain ⟨n, found⟩ := List.mem_iff_getElem?.mp member
  exact ⟨n, Dict.get_eq_some_iff.mp ((indexed _ n).mpr ⟨o, found, rfl⟩), found⟩

theorem mayEnter_iff (indexed : s.Indexed) (entry : Observation) :
    s.MayEnter entry ↔ ∀ other ∈ s.observations, ∀ exited ∈ other.exited,
      exited < entry.entered → other.identity ∈ s.done := by
  constructor
  · intro may other member
    obtain ⟨n, item, found⟩ := indexed.item member
    exact may (other.identity, n) item other found
  · intro all item member other found
    exact all other (List.mem_of_getElem? found)

theorem mayExit_iff (indexed : s.Indexed) (exit : Nat) :
    s.MayExit exit ↔ ∀ other ∈ s.observations, (other.entered < exit → other.identity ∈ s.started) ∧
      ∀ exited ∈ other.exited, exited < exit → other.identity ∈ s.done := by
  constructor
  · intro may other member
    obtain ⟨n, item, found⟩ := indexed.item member
    exact may (other.identity, n) item other found
  · intro all item member other found
    exact all other (List.mem_of_getElem? found)

/-! ## What a call does in a replay -/

/-- A call is at the observation of its identity, and replays it. -/
def Point.Follows (observations : List Observation) (identity : Identity) : Point → Prop
  | .saving => False
  | .entering n replay | .running n replay =>
      replay = true ∧ ∃ o, observations[n]? = some o ∧ o.identity = identity
  | .exiting n _ => ∃ o, observations[n]? = some o ∧ o.identity = identity
  | .ended _ | .mismatched => True

/-- A step of a replay: nothing, or a step starts that may enter, or one is done that may exit. -/
inductive Replays (s : Schedule) : Schedule → Prop
  | still (s' : Schedule) (execution : s'.execution = s.execution) (steps : s'.steps = s.steps)
      (started : s'.started = s.started) (done : s'.done = s.done) : Replays s s'
  | enters (o : Observation) (member : o ∈ s.observations) (may : s.MayEnter o) :
      Replays s { s with started := insert o.identity s.started }
  | exits (o : Observation) (exit : Nat) (member : o ∈ s.observations) (exited : o.exited = some exit)
      (may : s.MayExit exit) : Replays s { s with done := insert o.identity s.done }

theorem replays_refl (s : Schedule) : Replays s s := .still s rfl rfl rfl rfl

theorem replays_mismatch (message : String) : Replays s (s.mismatch message).1 :=
  .still _ rfl rfl rfl rfl

variable {identity : Identity} {stream expired : Bool} {n : Nat}

theorem hold_replays {point : Point} (follows : point.Follows s.observations identity) :
    Replays s (s.hold point expired).1 ∧ (s.hold point expired).2.Follows s.observations identity := by
  unfold Schedule.hold
  split
  · exact ⟨replays_refl s, trivial⟩
  · split
    · exact ⟨replays_mismatch _, trivial⟩
    · exact ⟨replays_refl s, follows⟩

theorem enter_replays {o : Observation} (found : s.observations[n]? = some o)
    (own : o.identity = identity) :
    Replays s (s.enter n true expired).1 ∧
      (s.enter n true expired).2.Follows s.observations identity := by
  unfold Schedule.enter
  rw [found]
  simp only
  split
  · rename_i may
    exact ⟨.enters o (List.mem_of_getElem? found) may, rfl, o, found, own⟩
  · exact hold_replays ⟨rfl, o, found, own⟩

theorem exit_replays {o : Observation} {ending : Ending} (found : s.observations[n]? = some o)
    (own : o.identity = identity) (exited : o.exited ≠ none) :
    Replays s (s.exit n ending expired).1 ∧
      (s.exit n ending expired).2.Follows s.observations identity := by
  unfold Schedule.exit
  rw [found]
  simp only
  split
  · rename_i may
    obtain ⟨exit, is⟩ := Option.ne_none_iff_exists'.mp exited
    rw [is] at may
    exact ⟨.exits o exit (List.mem_of_getElem? found) is may, trivial⟩
  · exact hold_replays ⟨o, found, own⟩

/-- The schedule of a finished execution. -/
structure Schedule.Complete (s : Schedule) : Prop where
  finished : s.execution.finished = true
  indexed : s.Indexed
  exited : ∀ o ∈ s.observations, o.exited ≠ none

theorem arrive_replays (complete : s.Complete) :
    Replays s (s.arrive identity stream expired).1 ∧
      (s.arrive identity stream expired).2.Follows s.observations identity := by
  unfold Schedule.arrive
  split
  · exact ⟨replays_refl s, trivial⟩
  · split
    · rename_i entry found
      obtain ⟨o, at_, own⟩ := (complete.indexed identity entry).mp found
      have exited := complete.exited o (List.mem_of_getElem? at_)
      unfold Schedule.found
      rw [at_]
      simp only
      split
      · exact ⟨replays_mismatch _, trivial⟩
      · rw [Option.isSome_iff_ne_none.mpr exited]
        exact enter_replays at_ own
    · rw [if_pos (Or.inr complete.finished)]
      exact ⟨replays_mismatch _, trivial⟩

theorem complete_replays (complete : s.Complete) {replay : Bool} {ending : Ending}
    (follows : (Point.running n replay).Follows s.observations identity) :
    Replays s (s.complete n replay ending expired).1 ∧
      (s.complete n replay ending expired).2.Follows s.observations identity := by
  obtain ⟨rfl, o, found, own⟩ := follows
  unfold Schedule.complete
  rw [found]
  simp only [if_true]
  split
  · exact ⟨replays_mismatch _, trivial⟩
  · exact exit_replays found own (complete.exited o (List.mem_of_getElem? found))

theorem wake_replays (complete : s.Complete) {point : Point} {result : Schedule × Point}
    (follows : point.Follows s.observations identity)
    (woke : s.wake identity stream expired point = some result) :
    Replays s result.1 ∧ result.2.Follows s.observations identity := by
  cases point with
  | saving => cases follows
  | entering entry replay =>
      obtain rfl := Option.some.inj woke
      obtain ⟨rfl, o, found, own⟩ := follows
      exact enter_replays found own
  | exiting entry ending =>
      obtain rfl := Option.some.inj woke
      obtain ⟨o, found, own⟩ := follows
      exact exit_replays found own (complete.exited o (List.mem_of_getElem? found))
  | running | ended | mismatched => cases woke

/-! ## The recorded order -/

/-- What has been started and done so far keeps the recorded order. -/
structure Schedule.InOrder (s : Schedule) : Prop where
  /-- A step that had exited before another one entered is done before that starts. -/
  enters : ∀ o ∈ s.observations, o.identity ∈ s.started → s.MayEnter o
  /-- Exits are in recorded order, and come after the starts that came before them. -/
  exits : ∀ o ∈ s.observations, ∀ exit ∈ o.exited, o.identity ∈ s.done → s.MayExit exit

theorem Schedule.MayEnter.mono {o : Observation} (may : s.MayEnter o)
    (execution : s'.execution = s.execution) (steps : s'.steps = s.steps) (done : s.done ⊆ s'.done) :
    s'.MayEnter o := by
  unfold MayEnter Schedule.observations
  rw [execution, steps]
  exact fun item member other found exited is before => done (may item member other found exited is before)

theorem Schedule.MayExit.mono {exit : Nat} (may : s.MayExit exit)
    (execution : s'.execution = s.execution) (steps : s'.steps = s.steps)
    (started : s.started ⊆ s'.started) (done : s.done ⊆ s'.done) : s'.MayExit exit := by
  unfold MayExit Schedule.observations
  rw [execution, steps]
  intro item member other found
  obtain ⟨entered, exits⟩ := may item member other found
  exact ⟨fun before => started (entered before), fun exited is before => done (exits exited is before)⟩

theorem Replays.frame (replays : Replays s s') : s'.execution = s.execution ∧ s'.steps = s.steps ∧
    s.started ⊆ s'.started ∧ s.done ⊆ s'.done := by
  cases replays with
  | still _ execution steps started done =>
      exact ⟨execution, steps, started ▸ Finset.Subset.refl _, done ▸ Finset.Subset.refl _⟩
  | enters o => exact ⟨rfl, rfl, Finset.subset_insert _ _, Finset.Subset.refl _⟩
  | exits o => exact ⟨rfl, rfl, Finset.Subset.refl _, Finset.subset_insert _ _⟩

theorem Schedule.Complete.replays (complete : s.Complete) (replays : Replays s s') :
    s'.Complete := by
  obtain ⟨execution, steps, -⟩ := replays.frame
  obtain ⟨finished, indexed, exited⟩ := complete
  constructor
  · rw [execution]
    exact finished
  · unfold Indexed Schedule.observations
    rw [steps, execution]
    exact indexed
  · unfold Schedule.observations
    rw [execution]
    exact exited

theorem Schedule.Indexed.unique (indexed : s.Indexed) {o o' : Observation}
    (member : o ∈ s.observations) (member' : o' ∈ s.observations) (same : o.identity = o'.identity) :
    o = o' := by
  obtain ⟨n, -, found⟩ := indexed.item member
  obtain ⟨n', -, found'⟩ := indexed.item member'
  have at_ := (indexed o.identity n).mpr ⟨o, found, rfl⟩
  have at_' := (indexed o.identity n').mpr ⟨o', found', same.symm⟩
  obtain rfl := Option.some.inj (at_.symm.trans at_')
  exact Option.some.inj (found.symm.trans found')

theorem Schedule.InOrder.replays (inOrder : s.InOrder) (complete : s.Complete)
    (replays : Replays s s') : s'.InOrder := by
  obtain ⟨execution, steps, moreStarted, moreDone⟩ := replays.frame
  have observations : s'.observations = s.observations := congrArg Execution.observations execution
  constructor
  · intro o member isStarted
    rw [observations] at member
    refine Schedule.MayEnter.mono ?_ execution steps moreDone
    cases replays with
    | still _ _ _ started _ =>
        rw [started] at isStarted
        exact inOrder.enters o member isStarted
    | enters entry entryIn may =>
        rcases Finset.mem_insert.mp isStarted with same | before
        · rw [complete.indexed.unique member entryIn same]
          exact may
        · exact inOrder.enters o member before
    | exits => exact inOrder.enters o member isStarted
  · intro o member exit exited isDone
    rw [observations] at member
    refine Schedule.MayExit.mono ?_ execution steps moreStarted moreDone
    cases replays with
    | still _ _ _ _ done =>
        rw [done] at isDone
        exact inOrder.exits o member exit exited isDone
    | enters => exact inOrder.exits o member exit exited isDone
    | exits entry entryExit entryIn entryExited may =>
        rcases Finset.mem_insert.mp isDone with same | before
        · obtain rfl := complete.indexed.unique member entryIn same
          obtain rfl := Option.some.inj (entryExited.symm.trans exited)
          exact may
        · exact inOrder.exits o member exit exited before

/-! ## Runs of a replay -/

structure Replaying (e : Execution) (s : Calls) : Prop where
  execution : s.schedule.execution = e
  complete : s.schedule.Complete
  inOrder : s.schedule.InOrder
  points : ∀ call ∈ s.calls, call.point.Follows e.observations call.identity

theorem finish_replays (complete : s.Complete) (digest : String) (isNone : Bool) :
    Replays s (s.finish digest isNone).1 := by
  unfold Schedule.finish
  split
  · exact .still _ rfl rfl rfl rfl
  · rw [if_pos complete.finished]
    split
    · exact .still _ rfl rfl rfl rfl
    · exact replays_refl s

variable {e : Execution}

theorem Replaying.moved {c : Calls} (replaying : Replaying e c) {schedule : Schedule}
    (replays : Replays c.schedule schedule) {calls : List Call}
    (points : ∀ call ∈ calls, call.point.Follows e.observations call.identity) :
    Replaying e ⟨schedule, calls⟩ where
  execution := replays.frame.1.trans replaying.execution
  complete := replaying.complete.replays replays
  inOrder := replaying.inOrder.replays replaying.complete replays
  points := points

theorem Replaying.move {c : Calls} (replaying : Replaying e c) {n : Nat} {call : Call}
    (found : c.calls[n]? = some call) {result : Schedule × Point}
    (result_replays : Replays c.schedule result.1 ∧
      result.2.Follows c.schedule.observations call.identity) :
    Replaying e (c.move n call result) := by
  refine replaying.moved result_replays.1 fun other member => ?_
  rcases List.mem_or_eq_of_mem_set member with member | rfl
  · exact replaying.points other member
  · have follows := result_replays.2
    rw [Schedule.observations, replaying.execution] at follows
    exact follows

theorem Replaying.step {c c' : Calls} {event : CallEvent} (replaying : Replaying e c)
    (stepped : c.step event = some c') : Replaying e c' := by
  have observations : c.schedule.observations = e.observations :=
    congrArg Execution.observations replaying.execution
  cases event with
  | occurrence key =>
      obtain rfl := Option.some.inj stepped
      have still : Replays c.schedule (c.schedule.occurrence key).1 := .still _ rfl rfl rfl rfl
      exact replaying.moved still replaying.points
  | step identity stream expired =>
      obtain rfl := Option.some.inj stepped
      have arrived := @arrive_replays _ identity stream expired replaying.complete
      refine replaying.moved arrived.1 fun call member => ?_
      rcases List.mem_append.mp member with member | member
      · exact replaying.points call member
      · obtain rfl := List.mem_singleton.mp member
        rw [← observations]
        exact arrived.2
  | complete n ending expired =>
      simp only [Calls.step] at stepped
      split at stepped
      · rename_i call found
        split at stepped
        · rename_i entry replay point
          obtain rfl := Option.some.inj stepped
          have follows := replaying.points call (List.mem_of_getElem? found)
          rw [point, ← observations] at follows
          exact replaying.move found (complete_replays replaying.complete follows)
        · cases stepped
      · cases stepped
  | wake n expired =>
      simp only [Calls.step] at stepped
      split at stepped
      · rename_i call found
        obtain ⟨result, woke, rfl⟩ := Option.map_eq_some_iff.mp stepped
        have follows := replaying.points call (List.mem_of_getElem? found)
        rw [← observations] at follows
        exact replaying.move found (wake_replays replaying.complete follows woke)
      · cases stepped
  | finish digest isNone =>
      obtain rfl := Option.some.inj stepped
      exact replaying.moved (finish_replays replaying.complete digest isNone) replaying.points

theorem init_eq {record : Bool} (started : Schedule.init e record = some s) :
    e.Valid ∧ s.execution = e ∧ s.started = ∅ ∧ s.done = ∅ ∧ s.failure = none := by
  unfold Schedule.init at started
  split at started
  · rename_i valid
    obtain rfl := Option.some.inj started
    exact ⟨valid, rfl, rfl, rfl, rfl⟩
  · cases started

theorem replaying_init {record : Bool} (finished : e.finished = true)
    (started : Schedule.init e record = some s) : Replaying e ⟨s, []⟩ := by
  obtain ⟨valid, rfl, none, undone, -⟩ := init_eq started
  refine ⟨rfl, ⟨finished, indexed_init started, valid.2.2.2.2 finished⟩, ?_, fun _ member => nomatch member⟩
  constructor
  · intro o _ isStarted
    rw [none] at isStarted
    cases isStarted
  · intro o _ exit _ isDone
    rw [undone] at isDone
    cases isDone

/-! ## The earliest event -/

/-- At this time of the recording the step enters, or exits, and it did not do so yet. -/
def Schedule.Unreplayed (s : Schedule) (o : Observation) (time : Nat) : Prop :=
  time = o.entered ∧ o.identity ∉ s.started ∨ o.exited = some time ∧ o.identity ∉ s.done

/-- The earliest event of the recording that was not replayed yet. -/
structure Schedule.Earliest (s : Schedule) (o : Observation) (time : Nat) : Prop where
  member : o ∈ s.observations
  unreplayed : s.Unreplayed o time
  first : ∀ other ∈ s.observations, ∀ later, s.Unreplayed other later → time ≤ later

theorem Schedule.Earliest.done {o : Observation} {time : Nat} (earliest : s.Earliest o time)
    {other : Observation} (member : other ∈ s.observations) {exited : Nat}
    (is : exited ∈ other.exited) (before : exited < time) : other.identity ∈ s.done := by
  by_contra undone
  have := earliest.first other member exited (Or.inr ⟨is, undone⟩)
  omega

theorem Schedule.Earliest.started {o : Observation} {time : Nat} (earliest : s.Earliest o time)
    {other : Observation} (member : other ∈ s.observations) (before : other.entered < time) :
    other.identity ∈ s.started := by
  by_contra unstarted
  have := earliest.first other member other.entered (Or.inl ⟨rfl, unstarted⟩)
  omega

theorem Schedule.Earliest.mayEnter {o : Observation} (earliest : s.Earliest o o.entered)
    (indexed : s.Indexed) : s.MayEnter o :=
  (mayEnter_iff indexed o).mpr fun _ member _ is before => earliest.done member is before

theorem Schedule.Earliest.mayExit {o : Observation} {exit : Nat} (earliest : s.Earliest o exit)
    (indexed : s.Indexed) : s.MayExit exit :=
  (mayExit_iff indexed exit).mpr fun _ member =>
    ⟨earliest.started member, fun _ is before => earliest.done member is before⟩

theorem exists_earliest (left : ∃ o ∈ s.observations, o.identity ∉ s.done)
    (exited : ∀ o ∈ s.observations, o.exited ≠ none) : ∃ o time, s.Earliest o time := by
  obtain ⟨o, member, undone⟩ := left
  obtain ⟨exit, is⟩ := Option.ne_none_iff_exists'.mp (exited o member)
  have some_time : ∃ time, ∃ o ∈ s.observations, s.Unreplayed o time :=
    ⟨exit, o, member, Or.inr ⟨is, undone⟩⟩
  classical
  obtain ⟨first, firstIn, unreplayed⟩ := Nat.find_spec some_time
  exact ⟨first, Nat.find some_time, firstIn, unreplayed,
    fun other member later unreplayed => Nat.find_min' some_time ⟨other, member, unreplayed⟩⟩

/-- A call goes on when it looks again, or at once when it only arrives. -/
structure Schedule.Passes (s : Schedule) (o : Observation) (time : Nat) : Prop where
  arrives : time = o.entered → o.identity ∉ s.started → s.failure = none → ∀ expired, ∃ n,
    (s.arrive o.identity o.stream expired).2 = .running n true
  enters : ∀ n, s.observations[n]? = some o → time = o.entered → ∀ expired,
    (s.enter n true expired).2 = .running n true
  exits : ∀ n, s.observations[n]? = some o → o.exited = some time → ∀ ending expired,
    (s.exit n ending expired).2 = .ended ending

theorem Schedule.Earliest.passes {o : Observation} {time : Nat} (earliest : s.Earliest o time)
    (complete : s.Complete) : s.Passes o time := by
  have enters : ∀ n, s.observations[n]? = some o → time = o.entered → ∀ expired,
      (s.enter n true expired).2 = .running n true := by
    rintro n found rfl expired
    unfold Schedule.enter
    rw [found]
    simp only
    rw [if_pos (earliest.mayEnter complete.indexed)]
  refine ⟨?_, enters, ?_⟩
  · intro entering unstarted sound expired
    obtain ⟨n, item, found⟩ := complete.indexed.item earliest.member
    refine ⟨n, ?_⟩
    unfold Schedule.arrive
    rw [sound, Dict.get_eq_some_iff.mpr item]
    simp only
    unfold Schedule.found
    rw [found]
    simp only
    rw [if_neg (by simpa using unstarted),
      Option.isSome_iff_ne_none.mpr (complete.exited o earliest.member)]
    exact enters n found entering expired
  · intro n found exited ending expired
    unfold Schedule.exit
    rw [found]
    simp only
    rw [exited, Option.getD_some, if_pos (earliest.mayExit complete.indexed)]

end GenSubnet.Runtime
