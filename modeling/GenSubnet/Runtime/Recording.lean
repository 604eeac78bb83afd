import GenSubnet.Runtime.Replay
import Mathlib.Data.Finset.Card

/-!
# Recordings

A recording in which no two calls are for the same step ends with a valid execution, whatever was
recorded before it and however its calls were interleaved.
-/

namespace GenSubnet.Runtime
open Library

/-! ## What a recording keeps -/

/-- The ticks of the recording are those of its events, and done steps have exited. -/
structure Schedule.Recorded (s : Schedule) : Prop where
  indexed : s.Indexed
  times : s.execution.times.Perm (List.range s.tick)
  ordered : ∀ o ∈ s.observations, ∀ exited ∈ o.exited, o.entered < exited
  done : ∀ identity ∈ s.done, ∃ o ∈ s.observations, o.identity = identity ∧ o.exited ≠ none

/-- A call is at the observation of its identity; before it is recorded there is none. -/
def Point.Records (s : Schedule) (identity : Identity) : Point → Prop
  | .saving => s.steps.get identity = none
  | .entering n replay | .running n replay =>
      ∃ o, s.observations[n]? = some o ∧ o.identity = identity ∧ replay = o.exited.isSome
  | .exiting n _ => ∃ o, s.observations[n]? = some o ∧ o.identity = identity ∧ o.exited ≠ none
  | .ended _ | .mismatched => True

/-- What becomes of a schedule with a call for a step, whose other calls are for other steps. -/
structure Records (s : Schedule) (identity : Identity) (result : Schedule × Point) : Prop where
  recorded : result.1.Recorded
  point : result.2.Records result.1 identity
  others : ∀ other, other ≠ identity → ∀ point : Point, point.Records s other →
    point.Records result.1 other

variable {s s' : Schedule} {identity : Identity} {stream expired : Bool} {n : Nat}

theorem Point.Records.congr {point : Point} (records : point.Records s identity)
    (observations : s'.observations = s.observations) (steps : s'.steps = s.steps) :
    point.Records s' identity := by
  cases point <;> simp only [Point.Records, observations, steps] at records ⊢ <;> exact records

theorem Schedule.Recorded.congr (recorded : s.Recorded) (observations : s'.observations = s.observations)
    (steps : s'.steps = s.steps) (tick : s'.tick = s.tick) (done : s'.done = s.done) :
    s'.Recorded := by
  obtain ⟨indexed, times, ordered, isDone⟩ := recorded
  have same : s'.execution.times = s.execution.times :=
    congrArg (List.flatMap Observation.times) observations
  constructor
  · unfold Indexed
    rw [observations, steps]
    exact indexed
  · rw [same, tick]
    exact times
  · rw [observations]
    exact ordered
  · rw [observations, done]
    exact isDone

theorem records_still (recorded : s.Recorded) {point : Point}
    (observations : s'.observations = s.observations) (steps : s'.steps = s.steps) (tick : s'.tick = s.tick)
    (done : s'.done = s.done) (records : point.Records s identity) :
    Records s identity (s', point) where
  recorded := recorded.congr observations steps tick done
  point := records.congr observations steps
  others _ _ _ other := other.congr observations steps

theorem records_hold (recorded : s.Recorded) {point : Point} (records : point.Records s identity) :
    Records s identity (s.hold point expired) := by
  unfold Schedule.hold
  split
  · exact records_still recorded rfl rfl rfl rfl trivial
  · split
    · exact records_still recorded rfl rfl rfl rfl trivial
    · exact records_still recorded rfl rfl rfl rfl records

theorem records_enter (recorded : s.Recorded) {o : Observation} (found : s.observations[n]? = some o)
    (own : o.identity = identity) : Records s identity (s.enter n o.exited.isSome expired) := by
  have records : (Point.running n o.exited.isSome).Records s identity := ⟨o, found, own, rfl⟩
  unfold Schedule.enter
  rw [found]
  simp only
  split
  · exact records_still recorded rfl rfl rfl rfl records
  · exact records_hold recorded records

theorem records_found (recorded : s.Recorded) {o : Observation} (found : s.observations[n]? = some o)
    (own : o.identity = identity) : Records s identity (s.found n stream expired) := by
  unfold Schedule.found
  rw [found]
  simp only
  split
  · exact records_still recorded rfl rfl rfl rfl trivial
  · exact records_enter recorded found own

theorem records_exit (recorded : s.Recorded) {o : Observation} {ending : Ending}
    (found : s.observations[n]? = some o) (own : o.identity = identity) (exited : o.exited ≠ none) :
    Records s identity (s.exit n ending expired) := by
  unfold Schedule.exit
  rw [found]
  simp only
  split
  · refine ⟨⟨recorded.indexed, recorded.times, recorded.ordered, ?_⟩, trivial, ?_⟩
    · intro other isDone
      rcases Finset.mem_insert.mp isDone with rfl | before
      · exact ⟨o, List.mem_of_getElem? found, rfl, exited⟩
      · exact recorded.done other before
    · exact fun _ _ _ other => other.congr rfl rfl
  · exact records_hold recorded ⟨o, found, own, exited⟩

/-! ## New observations -/

theorem getElem?_concat {α : Type} {items : List α} {item found : α} {n : Nat}
    (at_ : (items ++ [item])[n]? = some found) :
    items[n]? = some found ∨ n = items.length ∧ found = item := by
  rcases Nat.lt_or_ge n items.length with inside | outside
  · rw [List.getElem?_append_left inside] at at_
    exact Or.inl at_
  · rw [List.getElem?_append_right outside, List.getElem?_singleton] at at_
    split at at_
    · exact Or.inr ⟨by omega, (Option.some.inj at_).symm⟩
    · cases at_

theorem records_add (recorded : s.Recorded) (new : s.steps.get identity = none) :
    Records s identity (s.add identity stream, .entering s.observations.length false) := by
  have observations : (s.add identity stream).observations =
      s.observations ++ [{ identity, stream, entered := s.tick }] := rfl
  have old : ∀ {n : Nat} {o : Observation}, s.observations[n]? = some o →
      (s.add identity stream).observations[n]? = some o := by
    intro n o found
    rw [observations, List.getElem?_append_left (List.getElem?_eq_some_iff.mp found).1]
    exact found
  have last : (s.add identity stream).observations[s.observations.length]? =
      some { identity, stream, entered := s.tick } := by
    rw [observations, List.getElem?_concat_length]
  have absent : ∀ {n : Nat} {o : Observation}, s.observations[n]? = some o → o.identity ≠ identity := by
    rintro n o found rfl
    rw [(recorded.indexed o.identity n).mpr ⟨o, found, rfl⟩] at new
    cases new
  refine ⟨⟨?_, ?_, ?_, ?_⟩, ⟨_, last, rfl, rfl⟩, ?_⟩
  · intro other n
    rw [show (s.add identity stream).steps = s.steps.set identity s.observations.length from rfl,
      Dict.get_set]
    by_cases own : other = identity
    · subst own
      rw [if_pos rfl, Option.some.injEq]
      constructor
      · rintro rfl
        exact ⟨_, last, rfl⟩
      · rintro ⟨o, found, same⟩
        rw [observations] at found
        rcases getElem?_concat found with before | ⟨rfl, -⟩
        · exact absurd same (absent before)
        · rfl
    · rw [if_neg own, recorded.indexed]
      constructor
      · rintro ⟨o, found, same⟩
        exact ⟨o, old found, same⟩
      · rintro ⟨o, found, same⟩
        rw [observations] at found
        rcases getElem?_concat found with before | ⟨-, rfl⟩
        · exact ⟨o, before, same⟩
        · exact absurd same.symm own
  · rw [show (s.add identity stream).execution.times = s.execution.times ++ [s.tick] by
        simp [Schedule.add, Execution.times, Observation.times, Schedule.observations],
      show (s.add identity stream).tick = s.tick + 1 from rfl, List.range_succ]
    exact recorded.times.append_right [s.tick]
  · intro o member exited is
    rcases List.mem_append.mp member with member | member
    · exact recorded.ordered o member exited is
    · obtain rfl := List.mem_singleton.mp member
      cases is
  · intro other isDone
    obtain ⟨o, member, rest⟩ := recorded.done other isDone
    exact ⟨o, List.mem_append_left _ member, rest⟩
  · intro other different point records
    cases point with
    | saving => exact (Dict.get_set_of_ne _ _ different).trans records
    | entering n replay | running n replay =>
        obtain ⟨o, found, rest⟩ := records
        exact ⟨o, old found, rest⟩
    | exiting n ending =>
        obtain ⟨o, found, rest⟩ := records
        exact ⟨o, old found, rest⟩
    | ended | mismatched => trivial

theorem Records.trans {middle : Schedule} {point : Point} {result : Schedule × Point}
    (first : Records s identity (middle, point)) (second : Records middle identity result) :
    Records s identity result where
  recorded := second.recorded
  point := second.point
  others other different point records :=
    second.others other different point (first.others other different point records)

theorem records_create (recorded : s.Recorded) (new : s.steps.get identity = none) :
    Records s identity (s.create identity stream expired) := by
  unfold Schedule.create
  split
  · have added := @records_add _ _ stream recorded new
    obtain ⟨o, found, own, -⟩ := added.point
    exact added.trans (records_found added.recorded found own)
  · exact records_hold recorded new

theorem records_arrive (recorded : s.Recorded) :
    Records s identity (s.arrive identity stream expired) := by
  unfold Schedule.arrive
  split
  · exact records_still recorded rfl rfl rfl rfl trivial
  · split
    · rename_i entry at_
      obtain ⟨o, found, own⟩ := (recorded.indexed identity entry).mp at_
      exact records_found recorded found own
    · rename_i new
      split
      · exact records_still recorded rfl rfl rfl rfl trivial
      · exact records_create recorded new

/-! ## Exits -/

theorem times_set {observations : List Observation} {o o' : Observation} {tick : Nat}
    (found : observations[n]? = some o) (times : o'.times.Perm (tick :: o.times)) :
    ((observations.set n o').flatMap Observation.times).Perm
      (tick :: observations.flatMap Observation.times) := by
  induction observations generalizing n with
  | nil => cases found
  | cons first rest ih =>
      cases n with
      | zero =>
          obtain rfl := Option.some.inj found
          exact times.append_right _
      | succ n =>
          rw [List.set_cons_succ, List.flatMap_cons, List.flatMap_cons]
          exact ((ih found).append_left first.times).trans List.perm_middle

theorem records_close (recorded : s.Recorded) {o : Observation} {ending : Ending}
    (found : s.observations[n]? = some o) (own : o.identity = identity) (running : o.exited = none) :
    Records s identity (s.complete n false ending expired) := by
  have entered : o.entered < s.tick := by
    have member : o.entered ∈ s.execution.times :=
      List.mem_flatMap.mpr ⟨o, List.mem_of_getElem? found, List.mem_cons_self⟩
    exact List.mem_range.mp (recorded.times.mem_iff.mp member)
  unfold Schedule.complete
  rw [found]
  simp only [Bool.false_eq_true, if_false]
  have inside := (List.getElem?_eq_some_iff.mp found).1
  have kept : ∀ {k : Nat} {other : Observation}, s.observations[k]? = some other → k ≠ n →
      (s.observations.set n (o.close s.tick ending))[k]? = some other := by
    intro k other at_ different
    rw [List.getElem?_set, if_neg fun same => different same.symm]
    exact at_
  have at_n : (s.observations.set n (o.close s.tick ending))[n]? = some (o.close s.tick ending) := by
    rw [List.getElem?_set, if_pos rfl, if_pos inside]
  have back : ∀ {k : Nat} {other : Observation},
      (s.observations.set n (o.close s.tick ending))[k]? = some other →
      k = n ∧ other = o.close s.tick ending ∨ k ≠ n ∧ s.observations[k]? = some other := by
    intro k other at_
    by_cases same : k = n
    · subst same
      exact Or.inl ⟨rfl, Option.some.inj (at_.symm.trans at_n)⟩
    · rw [List.getElem?_set, if_neg fun eq => same eq.symm] at at_
      exact Or.inr ⟨same, at_⟩
  refine ⟨⟨?_, ?_, ?_, ?_⟩, trivial, ?_⟩
  · intro other k
    refine (recorded.indexed other k).trans ⟨?_, ?_⟩
    · rintro ⟨found', at_, same⟩
      by_cases eq : k = n
      · subst eq
        obtain rfl := Option.some.inj (found.symm.trans at_)
        exact ⟨_, at_n, same⟩
      · exact ⟨found', kept at_ eq, same⟩
    · rintro ⟨found', at_, same⟩
      rcases back at_ with ⟨rfl, rfl⟩ | ⟨-, at_⟩
      · exact ⟨o, found, same⟩
      · exact ⟨found', at_, same⟩
  · have times : (o.close s.tick ending).times.Perm (s.tick :: o.times) := by
      simp only [Observation.times, Observation.close, running]
      exact List.Perm.swap _ _ _
    refine (times_set found times).trans ?_
    rw [show s.tick + 1 = s.tick + 1 from rfl, List.range_succ]
    exact (recorded.times.cons s.tick).trans (List.perm_append_singleton _ _).symm
  · intro other member exited is
    rcases List.mem_or_eq_of_mem_set member with member | rfl
    · exact recorded.ordered other member exited is
    · obtain rfl := Option.some.inj is
      exact entered
  · intro other isDone
    rcases Finset.mem_insert.mp isDone with rfl | before
    · exact ⟨_, List.mem_of_getElem? at_n, rfl, Option.some_ne_none _⟩
    · obtain ⟨found', member, same, exited⟩ := recorded.done other before
      obtain ⟨k, at_⟩ := List.mem_iff_getElem?.mp member
      have different : k ≠ n := by
        rintro rfl
        obtain rfl := Option.some.inj (found.symm.trans at_)
        exact exited running
      exact ⟨found', List.mem_of_getElem? (kept at_ different), same, exited⟩
  · intro other different point records
    have elsewhere : ∀ {k : Nat} {found' : Observation}, s.observations[k]? = some found' →
        found'.identity = other → k ≠ n := by
      rintro k found' at_ same rfl
      obtain rfl := Option.some.inj (found.symm.trans at_)
      exact different (same.symm.trans own)
    cases point with
    | saving => exact records
    | entering k replay | running k replay =>
        obtain ⟨found', at_, same, rest⟩ := records
        exact ⟨found', kept at_ (elsewhere at_ same), same, rest⟩
    | exiting k ending =>
        obtain ⟨found', at_, same, rest⟩ := records
        exact ⟨found', kept at_ (elsewhere at_ same), same, rest⟩
    | ended | mismatched => trivial

theorem records_complete (recorded : s.Recorded) {replay : Bool} {ending : Ending}
    (records : (Point.running n replay).Records s identity) :
    Records s identity (s.complete n replay ending expired) := by
  obtain ⟨o, found, own, rfl⟩ := records
  cases exited : o.exited with
  | none => exact records_close recorded found own exited
  | some exit =>
      unfold Schedule.complete
      rw [found]
      simp only [Option.isSome_some, if_true]
      split
      · exact records_still recorded rfl rfl rfl rfl trivial
      · exact records_exit recorded found own (by simp [exited])

theorem records_wake (recorded : s.Recorded) {point : Point} {result : Schedule × Point}
    (records : point.Records s identity)
    (woke : s.wake identity stream expired point = some result) : Records s identity result := by
  cases point with
  | saving =>
      obtain rfl := Option.some.inj woke
      exact records_create recorded records
  | entering entry replay =>
      obtain rfl := Option.some.inj woke
      obtain ⟨o, found, own, rfl⟩ := records
      exact records_enter recorded found own
  | exiting entry ending =>
      obtain rfl := Option.some.inj woke
      obtain ⟨o, found, own, exited⟩ := records
      exact records_exit recorded found own exited
  | running | ended | mismatched => cases woke

/-! ## Runs -/

structure Recording (c : Calls) : Prop where
  recorded : c.schedule.Recorded
  points : ∀ call ∈ c.calls, call.point.Records c.schedule call.identity

variable {c c' : Calls}

theorem Recording.same (recording : Recording c) {schedule : Schedule}
    (observations : schedule.observations = c.schedule.observations)
    (steps : schedule.steps = c.schedule.steps) (tick : schedule.tick = c.schedule.tick)
    (done : schedule.done = c.schedule.done) : Recording { c with schedule } where
  recorded := recording.recorded.congr observations steps tick done
  points call member := (recording.points call member).congr observations steps

theorem Recording.move (recording : Recording c) (distinct : (c.calls.map Call.identity).Nodup)
    {n : Nat} {call : Call} (found : c.calls[n]? = some call) {result : Schedule × Point}
    (records : Records c.schedule call.identity result) : Recording (c.move n call result) := by
  refine ⟨records.recorded, fun other member => ?_⟩
  obtain ⟨k, at_⟩ := List.mem_iff_getElem?.mp member
  rw [Calls.move, List.getElem?_set] at at_
  split at at_
  · split at at_
    · obtain rfl := Option.some.inj at_
      exact records.point
    · cases at_
  · rename_i different
    have apart : other.identity ≠ call.identity := by
      intro same
      have inside : k < (c.calls.map Call.identity).length := by
        rw [List.length_map]
        exact (List.getElem?_eq_some_iff.mp at_).1
      refine different ((List.getElem?_inj inside distinct).mp ?_).symm
      rw [List.getElem?_map, List.getElem?_map, at_, found]
      exact congrArg some same
    exact records.others _ apart _ (recording.points other (List.mem_of_getElem? at_))

theorem move_identities {n : Nat} {call : Call} (found : c.calls[n]? = some call)
    (result : Schedule × Point) :
    (c.move n call result).calls.map Call.identity = c.calls.map Call.identity := by
  rw [Calls.move, List.map_set]
  refine List.ext_getElem? fun k => ?_
  rw [List.getElem?_set]
  split
  · rename_i same
    subst same
    rw [List.getElem?_map, found, if_pos]
    · rfl
    · rw [List.length_map]
      exact (List.getElem?_eq_some_iff.mp found).1
  · rfl

theorem finish_same (s : Schedule) (digest : String) (isNone : Bool) :
    (s.finish digest isNone).1.observations = s.observations ∧
      (s.finish digest isNone).1.steps = s.steps ∧ (s.finish digest isNone).1.tick = s.tick ∧
      (s.finish digest isNone).1.done = s.done := by
  unfold Schedule.finish
  split
  · exact ⟨rfl, rfl, rfl, rfl⟩
  · split
    · split <;> exact ⟨rfl, rfl, rfl, rfl⟩
    · exact ⟨rfl, rfl, rfl, rfl⟩

theorem Recording.step {event : CallEvent}
    (recording : (c.calls.map Call.identity).Nodup → Recording c) (stepped : c.step event = some c')
    (distinct : (c'.calls.map Call.identity).Nodup) : Recording c' := by
  cases event with
  | occurrence key =>
      obtain rfl := Option.some.inj stepped
      have same : Recording { c with schedule := (c.schedule.occurrence key).1 } :=
        (recording distinct).same rfl rfl rfl rfl
      exact same
  | step identity stream expired =>
      obtain rfl := Option.some.inj stepped
      rw [List.map_append] at distinct
      obtain ⟨before, -, apart⟩ := List.nodup_append.mp distinct
      have recording := recording before
      have records := @records_arrive _ identity stream expired recording.recorded
      refine ⟨records.recorded, fun call member => ?_⟩
      rcases List.mem_append.mp member with member | member
      · exact records.others _ (apart _ (List.mem_map_of_mem member) _ List.mem_cons_self) _
          (recording.points call member)
      · obtain rfl := List.mem_singleton.mp member
        exact records.point
  | complete n ending expired =>
      simp only [Calls.step] at stepped
      split at stepped
      · rename_i call found
        split at stepped
        · rename_i entry replay point
          obtain rfl := Option.some.inj stepped
          rw [move_identities found] at distinct
          have recording := recording distinct
          have records := recording.points call (List.mem_of_getElem? found)
          rw [point] at records
          exact recording.move distinct found (records_complete recording.recorded records)
        · cases stepped
      · cases stepped
  | wake n expired =>
      simp only [Calls.step] at stepped
      split at stepped
      · rename_i call found
        obtain ⟨result, woke, rfl⟩ := Option.map_eq_some_iff.mp stepped
        rw [move_identities found] at distinct
        have recording := recording distinct
        exact recording.move distinct found (records_wake recording.recorded
          (recording.points call (List.mem_of_getElem? found)) woke)
      · cases stepped
  | finish digest isNone =>
      obtain rfl := Option.some.inj stepped
      obtain ⟨observations, steps, tick, done⟩ := finish_same c.schedule digest isNone
      have same : Recording { c with schedule := (c.schedule.finish digest isNone).1 } :=
        (recording distinct).same observations steps tick done
      exact same

theorem recording_init {e : Execution} {record : Bool} (started : Schedule.init e record = some s) :
    Recording ⟨s, []⟩ := by
  refine ⟨?_, fun _ member => nomatch member⟩
  have indexed := indexed_init started
  unfold Schedule.init at started
  split at started
  · rename_i valid
    obtain rfl := Option.some.inj started
    refine ⟨indexed, ?_, valid.2.2.2.1, fun _ isDone => absurd isDone (Finset.notMem_empty _)⟩
    rw [← valid.2.2.1]
    exact (List.mergeSort_perm _ _).symm
  · cases started

theorem Schedule.Recorded.identities_nodup (recorded : s.Recorded) : s.execution.identities.Nodup := by
  rw [Execution.identities, List.nodup_iff_getElem?_ne_getElem?]
  intro i k before inside same
  rw [List.length_map] at inside
  rw [List.getElem?_map, List.getElem?_map, List.getElem?_eq_getElem inside,
    List.getElem?_eq_getElem (before.trans inside), Option.map_some, Option.map_some,
    Option.some.injEq] at same
  have at_i := (recorded.indexed _ i).mpr ⟨_, List.getElem?_eq_getElem (before.trans inside), same⟩
  have at_k := (recorded.indexed _ k).mpr ⟨_, List.getElem?_eq_getElem inside, rfl⟩
  have := Option.some.inj (at_i.symm.trans at_k)
  omega

theorem Schedule.Recorded.times_sorted (recorded : s.Recorded) :
    s.execution.times.mergeSort = List.range s.execution.times.length := by
  have tick := recorded.times.length_eq
  rw [List.length_range] at tick
  rw [tick]
  refine @List.Perm.eq_of_pairwise _ (· ≤ ·) _ _ (fun a b _ _ => Nat.le_antisymm) ?_ ?_
    ((List.mergeSort_perm _ _).trans recorded.times)
  · refine (List.pairwise_mergeSort ?_ ?_ _).imp fun le => of_decide_eq_true le
    · exact fun a b c ab bc => by simpa using le_trans (of_decide_eq_true ab) (of_decide_eq_true bc)
    · exact fun a b => by simpa using le_total a b
  · exact List.pairwise_lt_range.imp fun lt => le_of_lt lt

theorem Schedule.Recorded.all_exited (recorded : s.Recorded) (consumed : s.done.card = s.steps.size) :
    ∀ o ∈ s.observations, o.exited ≠ none := by
  intro o member
  have known : s.done ⊆ s.steps.keys.toFinset := by
    intro identity isDone
    obtain ⟨other, otherIn, same, -⟩ := recorded.done identity isDone
    obtain ⟨n, item, -⟩ := recorded.indexed.item otherIn
    rw [List.mem_toFinset]
    exact same ▸ List.mem_map_of_mem item
  have size : s.steps.keys.toFinset.card = s.steps.size := by
    rw [Dict.keys, List.toFinset_card_of_nodup s.steps.nodup, List.length_map]
    rfl
  have all := Finset.eq_of_subset_of_card_le known (size.trans consumed.symm).le
  obtain ⟨n, item, -⟩ := recorded.indexed.item member
  have isDone : o.identity ∈ s.done := by
    rw [all, List.mem_toFinset]
    exact List.mem_map_of_mem item
  obtain ⟨other, otherIn, same, exited⟩ := recorded.done _ isDone
  rw [recorded.indexed.unique member otherIn same.symm]
  exact exited

theorem Schedule.Recorded.valid (recorded : s.Recorded)
    (closed : s.execution.finished = true → ∀ o ∈ s.observations, o.exited ≠ none) :
    s.execution.Valid :=
  ⟨recorded.identities_nodup, recorded.times.nodup_iff.mpr List.nodup_range, recorded.times_sorted,
    recorded.ordered, closed⟩

theorem consumed_of_finish {digest : String} {isNone : Bool}
    (finished : (s.finish digest isNone).2 = true) : s.done.card = s.steps.size := by
  by_contra left
  rw [Schedule.finish, if_pos (Or.inr left)] at finished
  cases finished

theorem Recording.finish (recording : Recording c) {digest : String} {isNone : Bool}
    (finished : (c.schedule.finish digest isNone).2 = true) :
    (c.schedule.finish digest isNone).1.execution.Valid := by
  obtain ⟨observations, steps, tick, done⟩ := finish_same c.schedule digest isNone
  have recorded : (c.schedule.finish digest isNone).1.Recorded :=
    recording.recorded.congr observations steps tick done
  apply recorded.valid
  intro _
  apply recorded.all_exited
  rw [done, steps]
  exact consumed_of_finish finished

theorem recording_run {e : Execution} {record : Bool} (started : Schedule.init e record = some s)
    {events : List CallEvent} (ran : run Calls.step ⟨s, []⟩ events = some c)
    (distinct : (c.calls.map Call.identity).Nodup) : Recording c := by
  have preserved : ∀ (c : Calls) event c',
      ((c.calls.map Call.identity).Nodup → Recording c) → c.step event = some c' →
      (c'.calls.map Call.identity).Nodup → Recording c' :=
    fun c event c' recording stepped => Recording.step recording stepped
  exact run_invariant ran preserved (fun _ => recording_init started) distinct

/-- What a replay has started and done, compared with what was recorded. -/
structure Schedule.Follows (s : Schedule) (observations : List Observation) : Prop where
  /-- What exited before a step entered is done before that starts. -/
  entered : ∀ x ∈ observations, ∀ y ∈ observations, ∀ exited ∈ x.exited, exited < y.entered →
    y.identity ∈ s.started → x.identity ∈ s.done
  /-- Exits are completed in recorded order. -/
  exited : ∀ x ∈ observations, ∀ y ∈ observations, ∀ first ∈ x.exited, ∀ second ∈ y.exited,
    first < second → y.identity ∈ s.done → x.identity ∈ s.done
  /-- What entered before an exit is started before that completes. -/
  started : ∀ x ∈ observations, ∀ y ∈ observations, ∀ exited ∈ y.exited, x.entered < exited →
    y.identity ∈ s.done → x.identity ∈ s.started

theorem Schedule.InOrder.follows (inOrder : s.InOrder) (indexed : s.Indexed) :
    s.Follows s.observations where
  entered x xIn y yIn exited is before started :=
    (mayEnter_iff indexed y).mp (inOrder.enters y yIn started) x xIn exited is before
  exited x xIn y yIn first isFirst second isSecond before done :=
    ((mayExit_iff indexed second).mp (inOrder.exits y yIn second isSecond done) x xIn).2 first isFirst
      before
  started x xIn y yIn exited is before done :=
    ((mayExit_iff indexed exited).mp (inOrder.exits y yIn exited is done) x xIn).1 before

/-- The waits do not hold back a call for the earliest event of the recording: neither when it arrives,
nor when its operation ends, nor when it looks again. -/
structure Calls.Passes (c : Calls) (o : Observation) (time : Nat) : Prop where
  arrives : time = o.entered → o.identity ∉ c.schedule.started → c.schedule.failure = none →
    ∀ expired, ∃ n, (c.schedule.arrive o.identity o.stream expired).2 = .running n true
  enters : ∀ call ∈ c.calls, call.identity = o.identity → ∀ n replay,
    call.point = .entering n replay → time = o.entered → ∀ expired, ∃ result,
      c.schedule.wake call.identity call.stream expired call.point = some result ∧
        result.2 = .running n replay
  completes : ∀ call ∈ c.calls, call.identity = o.identity → ∀ n replay,
    call.point = .running n replay → o.exited = some time → ∀ ending,
      o.outcome = some (o.replayed ending).outcome → ∀ expired,
      (c.schedule.complete n replay ending expired).2 = .ended (o.replayed ending)
  exits : ∀ call ∈ c.calls, call.identity = o.identity → ∀ n ending,
    call.point = .exiting n ending → o.exited = some time → ∀ expired, ∃ result,
      c.schedule.wake call.identity call.stream expired call.point = some result ∧
        result.2 = .ended ending

theorem Replaying.passes {e : Execution} (replaying : Replaying e c) {o : Observation} {time : Nat}
    (earliest : c.schedule.Earliest o time) : c.Passes o time := by
  have passes := earliest.passes replaying.complete
  have own : ∀ {call : Call} {n : Nat} {found : Observation}, call.identity = o.identity →
      e.observations[n]? = some found → found.identity = call.identity →
      c.schedule.observations[n]? = some o := by
    intro call n found isOwn at_ same
    rw [← replaying.execution] at at_
    have is := replaying.complete.indexed.unique (List.mem_of_getElem? at_) earliest.member
      (same.trans isOwn)
    exact is ▸ at_
  constructor
  · exact passes.arrives
  · intro call member isOwn n replay point entering expired
    have follows := replaying.points call member
    rw [point] at follows
    obtain ⟨rfl, found, at_, same⟩ := follows
    rw [point]
    exact ⟨_, rfl, passes.enters n (own isOwn at_ same) entering expired⟩
  · intro call member isOwn n replay point exiting ending outcome expired
    have follows := replaying.points call member
    rw [point] at follows
    obtain ⟨rfl, found, at_, same⟩ := follows
    have at_ := own isOwn at_ same
    unfold Schedule.complete
    rw [at_]
    simp only [if_true]
    rw [if_neg (not_not.mpr outcome)]
    exact passes.exits n at_ exiting _ expired
  · intro call member isOwn n ending point exiting expired
    have follows := replaying.points call member
    rw [point] at follows
    obtain ⟨found, at_, same⟩ := follows
    rw [point]
    exact ⟨_, rfl, passes.exits n (own isOwn at_ same) exiting ending expired⟩

/-- Of every execution that a recording finishes, from whatever was recorded before: if no two calls
were for the same step, a schedule takes it; and in every state of every replay of it, the recorded
order was kept, and unless all is done there is an earliest event left, which no wait holds back. -/
theorem recorded_order_replayable {e : Execution} (started : Schedule.init e true = some s)
    {recording : List CallEvent} (recorded : run Calls.step ⟨s, []⟩ recording = some c) :
    (∀ digest isNone, (c.calls.map Call.identity).Nodup →
      (c.schedule.finish digest isNone).2 = true →
      (c.schedule.finish digest isNone).1.execution.Valid) ∧
    (c.schedule.execution.finished = true → ∀ record s',
      Schedule.init c.schedule.execution record = some s' → ∀ replay c',
      run Calls.step ⟨s', []⟩ replay = some c' →
        c'.schedule.Follows c.schedule.observations ∧
        ((∃ o ∈ c.schedule.observations, o.identity ∉ c'.schedule.done) →
          ∃ o time, c'.schedule.Earliest o time) ∧
        ∀ o time, c'.schedule.Earliest o time → c'.Passes o time) := by
  constructor
  · intro digest isNone distinct finished
    exact (recording_run started recorded distinct).finish finished
  · intro finished record s' restarted replay c' replayed
    have replaying : Replaying c.schedule.execution c' :=
      run_invariant replayed (fun _ _ _ replaying stepped => replaying.step stepped)
        (replaying_init finished restarted)
    have observations : c'.schedule.observations = c.schedule.observations :=
      congrArg Execution.observations replaying.execution
    refine ⟨?_, ?_, fun o time earliest => replaying.passes earliest⟩
    · rw [← observations]
      exact replaying.inOrder.follows replaying.complete.indexed
    · rintro ⟨o, member, undone⟩
      rw [← observations] at member
      exact exists_earliest ⟨o, member, undone⟩ replaying.complete.exited

/-! ## Samples -/

/-- The schedule of an execution that has not begun. -/
def freshSchedule : Schedule where
  execution := {}
  record := true
  steps := .empty
  tick := 0
  saved := ∅

theorem init_fresh : Schedule.init {} true = some freshSchedule := by
  have valid : ({} : Execution).Valid := by
    refine ⟨List.nodup_nil, List.nodup_nil, ?_, ?_, ?_⟩ <;> simp [Execution.times]
  rw [Schedule.init, if_pos valid]
  rfl

def firstCall : Identity := ⟨"a", 0, .create, 0⟩

def secondCall : Identity := ⟨"b", 0, .create, 0⟩

/-- Two calls at once, of which the second returns first. -/
def overlapping : List CallEvent :=
  [.step firstCall false, .step secondCall false, .complete 1 (.returned (some "x")),
    .complete 0 (.returned (some "y")), .finish "out" false]

def overlapped : Calls := (run Calls.step ⟨freshSchedule, []⟩ overlapping).getD ⟨freshSchedule, []⟩

theorem run_overlapped : run Calls.step ⟨freshSchedule, []⟩ overlapping = some overlapped := by
  obtain ⟨c, ran⟩ := Option.isSome_iff_exists.mp
    (show (run Calls.step ⟨freshSchedule, []⟩ overlapping).isSome = true by decide +kernel)
  rw [overlapped, ran]
  rfl

theorem recorded_order_replayable_sample :
    (overlapped.schedule.finish "out" false).1.execution.Valid :=
  (recorded_order_replayable init_fresh run_overlapped).1 "out" false (by decide +kernel)
    (by decide +kernel)

end GenSubnet.Runtime
