import GenSubnet.Runtime.Program
import GenSubnet.Runtime.Recording

/-!
# Executions of a program

What an execution holds of the threads of a program: the endings that each was given, and for each of
their steps its observation. Threads that share no key never ask for one step twice.
-/

namespace GenSubnet.Runtime
open Library

/-! ## Endings -/

/-- What is recorded of the ending raises the same again. -/
def Ending.Proper : Ending → Prop
  | .returned _ => True
  | .raised name failure => failure.restore = .raised name failure
  | .other name => name ≠ "return"

/-- The ending is what was recorded. -/
def Observation.Gave (o : Observation) (ending : Ending) : Prop :=
  o.outcome = some ending.outcome ∧
    match ending with
    | .returned exchangeId => o.failure = none ∧ o.exchangeId = exchangeId
    | .raised _ failure => o.failure = some failure
    | .other _ => o.failure = none

instance : ∀ ending : Ending, Decidable ending.Proper
  | .returned _ => isTrue trivial
  | .raised name failure => inferInstanceAs (Decidable (failure.restore = .raised name failure))
  | .other name => inferInstanceAs (Decidable (name ≠ "return"))

instance (o : Observation) : ∀ ending, Decidable (o.Gave ending)
  | .returned exchangeId =>
      inferInstanceAs (Decidable (_ ∧ o.failure = none ∧ o.exchangeId = exchangeId))
  | .raised _ failure => inferInstanceAs (Decidable (_ ∧ o.failure = some failure))
  | .other _ => inferInstanceAs (Decidable (_ ∧ o.failure = none))

variable {o : Observation}

theorem gave_close {tick : Nat} {ending : Ending} (failure : o.failure = none)
    (exchangeId : o.exchangeId = none) : (o.close tick ending).Gave ending := by
  cases ending with
  | returned given => cases given <;> simp [Observation.Gave, Observation.close, failure, exchangeId]
  | raised | other => simp [Observation.Gave, Observation.close, failure]

theorem replayed_of_gave {given ending : Ending} (gave : o.Gave ending) (proper : ending.Proper)
    (again : o.failure = none → given.Proper ∧ o.Gave given) : o.replayed given = ending := by
  obtain ⟨outcome, rest⟩ := gave
  unfold Observation.replayed
  cases ending with
  | raised name failure =>
      rw [show o.failure = some failure from rest]
      exact proper
  | returned exchangeId =>
      obtain ⟨failure, exchange⟩ := rest
      obtain ⟨properly, outcome', rest'⟩ := again failure
      rw [failure]
      cases given with
      | returned other => simp only [rest'.2.symm.trans exchange]
      | raised name other => cases failure.symm.trans rest'
      | other name => exact absurd (Option.some.inj (outcome'.symm.trans outcome)) properly
  | other name =>
      obtain ⟨properly, outcome', rest'⟩ := again rest
      rw [show o.failure = none from rest]
      cases given with
      | returned other => exact absurd (Option.some.inj (outcome.symm.trans outcome')) proper
      | raised name' other => cases rest.symm.trans rest'
      | other name' => rw [show name' = name from Option.some.inj (outcome'.symm.trans outcome)]

/-! ## The place of a step -/

variable {n : Nat} (program : Fin n → Code)

/-- No two threads ask for one key. -/
def Owned : Prop :=
  ∀ i j results results' request request', program i results = some request →
    program j results' = some request' → request.key = request'.key → i = j

variable (h : Fin n → List Ending)

/-- The step is the one that a thread asks for after the first of its endings. -/
structure AtPlace (i : Fin n) (k : Nat) (identity : Identity) (stream : Bool) : Prop where
  inside : k ≤ (h i).length
  asked : (program i).asks (h i) k = .step identity stream

/-- A stream that was closed is closed. -/
def Closing : Prop :=
  ∀ i k ending identity stream, (h i)[k]? = some ending →
    (program i).asks (h i) k = .step identity stream → identity.action = .close →
    ∃ exchangeId, ending = .returned exchangeId

variable {program h} {i j : Fin n} {k m : Nat} {identity : Identity} {stream : Bool}

theorem request_of_asks {code : Code} {results : List Ending}
    (asked : code.asks results k = .step identity stream) :
    ∃ given request, code given = some request ∧ request.key = identity.key := by
  unfold Code.asks Thread.ask at asked
  simp only at asked
  split at asked
  · cases asked
  · rename_i requested
    obtain ⟨rfl, -⟩ := Ask.step.inj asked
    exact ⟨_, _, requested, rfl⟩
  · rename_i requested
    split at asked
    · obtain ⟨rfl, -⟩ := Ask.step.inj asked
      exact ⟨_, _, requested, rfl⟩
    · cases asked
  · rename_i requested
    split at asked
    · split at asked
      · cases asked
      · obtain ⟨rfl, -⟩ := Ask.step.inj asked
        exact ⟨_, _, requested, rfl⟩
    · cases asked

theorem Closing.not_twice (closing : Closing program h) (before : k < m) {stream' : Bool}
    (first : AtPlace program h i k identity stream)
    (second : AtPlace program h i m identity stream') : False := by
  have spent := asks_spent before second.inside first.asked
    fun ending found closes => closing i k ending identity stream found first.asked closes
  exact ask_unspent second.asked spent

/-- A step has one place. -/
theorem Closing.place (closing : Closing program h) (owned : Owned program) {stream' : Bool}
    (first : AtPlace program h i k identity stream)
    (second : AtPlace program h j m identity stream') : i = j ∧ k = m := by
  obtain ⟨given, request, requested, own⟩ := request_of_asks first.asked
  obtain ⟨given', request', requested', own'⟩ := request_of_asks second.asked
  obtain rfl := owned i j _ _ _ _ requested requested' (own.trans own'.symm)
  refine ⟨rfl, ?_⟩
  rcases Nat.lt_trichotomy k m with before | same | after
  · exact absurd second (closing.not_twice before first)
  · exact same
  · exact absurd first (closing.not_twice after second)

/-- One more ending of a thread. -/
def grow (h : Fin n → List Ending) (i : Fin n) (ending : Ending) : Fin n → List Ending :=
  Function.update h i (h i ++ [ending])

theorem grow_self (ending : Ending) : grow h i ending i = h i ++ [ending] :=
  Function.update_self i _ h

theorem grow_of_ne (ending : Ending) (other : j ≠ i) : grow h i ending j = h j :=
  Function.update_of_ne other _ h

theorem getElem?_grow {ending found : Ending} (at_ : (grow h i ending j)[k]? = some found) :
    (h j)[k]? = some found ∨ j = i ∧ k = (h i).length ∧ found = ending := by
  by_cases own : j = i
  · subst own
    rw [grow_self] at at_
    rcases getElem?_concat at_ with old | ⟨last, new⟩
    · exact Or.inl old
    · exact Or.inr ⟨rfl, last, new⟩
  · rw [grow_of_ne ending own] at at_
    exact Or.inl at_

theorem asks_grow (ending : Ending) (inside : k ≤ (h j).length) :
    (program j).asks (grow h i ending j) k = (program j).asks (h j) k := by
  by_cases own : j = i
  · subst own
    rw [grow_self, asks_append _ _ _ inside]
  · rw [grow_of_ne ending own]

theorem length_le_grow (ending : Ending) : (h j).length ≤ (grow h i ending j).length := by
  by_cases own : j = i
  · subst own
    simp [grow_self]
  · rw [grow_of_ne ending own]

theorem AtPlace.grow (place : AtPlace program h j k identity stream) (ending : Ending) :
    AtPlace program (grow h i ending) j k identity stream :=
  ⟨place.inside.trans (length_le_grow ending), (asks_grow ending place.inside).trans place.asked⟩

theorem Closing.grow (closing : Closing program h) {ending : Ending}
    (closes : ∀ identity stream, (program i).asks (h i) (h i).length = .step identity stream →
      identity.action = .close → ∃ exchangeId, ending = .returned exchangeId) :
    Closing program (grow h i ending) := by
  intro j k found identity stream at_ asked isClose
  rcases getElem?_grow at_ with old | ⟨rfl, rfl, rfl⟩
  · rw [asks_grow ending (List.getElem?_eq_some_iff.mp old).1.le] at asked
    exact closing j k found identity stream old asked isClose
  · rw [asks_grow found le_rfl] at asked
    exact closes identity stream asked isClose

/-! ## Executions of a program -/

/-- The execution holds what the threads of the program were given, in order. -/
structure Traced (program : Fin n → Code) (e : Execution) (h : Fin n → List Ending) : Prop where
  goes : ∀ i k ending, (h i)[k]? = some ending → (program i).asks (h i) k ≠ .returned
  nothing : ∀ i k ending, (h i)[k]? = some ending → (program i).asks (h i) k = .nothing →
    ending = .returned none
  closing : Closing program h
  given : ∀ i k ending identity stream, (h i)[k]? = some ending →
    (program i).asks (h i) k = .step identity stream → ending.Proper ∧
    ∃ o ∈ e.observations, o.identity = identity ∧ o.exited ≠ none ∧ o.Gave ending
  observed : ∀ o ∈ e.observations, ∃ i k, AtPlace program h i k o.identity o.stream ∧
    (o.exited = none ↔ k = (h i).length)
  ordered : ∀ i j k, j < k → ∀ o ∈ e.observations, ∀ o' ∈ e.observations,
    AtPlace program h i j o.identity o.stream → AtPlace program h i k o'.identity o'.stream →
    ∀ exited ∈ o.exited, exited < o'.entered
  blank : ∀ o ∈ e.observations, o.exited = none → o.failure = none ∧ o.exchangeId = none
  finished : e.finished = true → ∀ i, (program i).asks (h i) (h i).length = .returned

theorem traced_fresh : Traced program {} fun _ => [] where
  goes _ _ _ found := by simp at found
  nothing _ _ _ found := by simp at found
  closing _ _ _ _ _ found := by simp at found
  given _ _ _ _ _ found := by simp at found
  observed _ member := by cases member
  ordered _ _ _ _ _ member := by cases member
  blank _ member := by cases member
  finished finished := by cases finished

variable {s : Schedule} {e : Execution} {ending : Ending}

theorem Traced.unfinished (traced : Traced program e h) {identity : Identity} {stream : Bool}
    (asked : (program i).asks (h i) (h i).length = .step identity stream) : e.finished = false := by
  by_contra finished
  have ended := traced.finished (Bool.eq_true_of_not_eq_false finished) i
  rw [asked] at ended
  cases ended

/-- What was not observed yet is the next step of its thread. -/
theorem Traced.next (traced : Traced program e h) (place : AtPlace program h i k identity stream)
    (new : ∀ o ∈ e.observations, o.identity ≠ identity) : k = (h i).length := by
  by_contra inside
  have within := lt_of_le_of_ne place.inside inside
  obtain ⟨-, o, member, own, -⟩ :=
    traced.given i k _ identity stream (List.getElem?_eq_getElem within) place.asked
  exact new o member own

theorem Schedule.Indexed.absent (indexed : s.Indexed) (new : s.steps.get identity = none) :
    ∀ o ∈ s.observations, o.identity ≠ identity := by
  rintro o member rfl
  obtain ⟨m, item, -⟩ := indexed.item member
  rw [Dict.get_eq_some_iff.mpr item] at new
  cases new

theorem Schedule.Recorded.before (recorded : s.Recorded) (member : o ∈ s.observations) :
    ∀ time ∈ o.times, time < s.tick := by
  intro time isTime
  have all : time ∈ s.execution.times := List.mem_flatMap.mpr ⟨o, member, isTime⟩
  exact List.mem_range.mp (recorded.times.mem_iff.mp all)

theorem traced_add (traced : Traced program s.execution h) (recorded : s.Recorded)
    (place : AtPlace program h i k identity stream) (new : s.steps.get identity = none) :
    Traced program (s.add identity stream).execution h := by
  have last := traced.next place (recorded.indexed.absent new)
  subst last
  have old : ∀ {o}, o ∈ (s.add identity stream).execution.observations →
      o ∈ s.observations ∨ o = { identity, stream, entered := s.tick } := by
    intro o member
    exact (List.mem_append.mp member).imp_right List.mem_singleton.mp
  refine ⟨traced.goes, traced.nothing, traced.closing, ?_, ?_, ?_, ?_, traced.finished⟩
  · intro i k ending identity stream found asked
    obtain ⟨proper, o, member, rest⟩ := traced.given i k ending identity stream found asked
    exact ⟨proper, o, List.mem_append_left _ member, rest⟩
  · intro o member
    rcases old member with before | rfl
    · exact traced.observed o before
    · exact ⟨i, _, place, by simp⟩
  · intro i j k before o member o' member' first second exited is
    rcases old member with earlier | rfl
    · rcases old member' with earlier' | rfl
      · exact traced.ordered i j k before o earlier o' earlier' first second exited is
      · exact recorded.before earlier exited (by simp [Observation.times, Option.mem_def.mp is])
    · cases is
  · intro o member running
    rcases old member with before | rfl
    · exact traced.blank o before running
    · exact ⟨rfl, rfl⟩

/-- The thread closes a stream again. -/
theorem traced_nothing (traced : Traced program e h) (owned : Owned program)
    (asked : (program i).asks (h i) (h i).length = .nothing) :
    Traced program e (grow h i (.returned none)) := by
  have closing : Closing program (grow h i (.returned none)) :=
    traced.closing.grow fun _ _ _ _ => ⟨none, rfl⟩
  have place : ∀ {o} {j : Fin n} {k : Nat}, o ∈ e.observations →
      AtPlace program (grow h i (.returned none)) j k o.identity o.stream →
      AtPlace program h j k o.identity o.stream := by
    intro o j k member at_
    obtain ⟨j', k', there, -⟩ := traced.observed o member
    obtain ⟨rfl, rfl⟩ := closing.place owned at_ (there.grow _)
    exact there
  refine ⟨?_, ?_, closing, ?_, ?_, ?_, traced.blank, ?_⟩
  · intro j k ending found
    rcases getElem?_grow found with old | ⟨rfl, rfl, -⟩
    · rw [asks_grow _ (List.getElem?_eq_some_iff.mp old).1.le]
      exact traced.goes j k ending old
    · rw [asks_grow _ le_rfl, asked]
      exact nofun
  · intro j k ending found isNothing
    rcases getElem?_grow found with old | ⟨-, -, rfl⟩
    · rw [asks_grow _ (List.getElem?_eq_some_iff.mp old).1.le] at isNothing
      exact traced.nothing j k ending old isNothing
    · rfl
  · intro j k ending identity stream found isStep
    rcases getElem?_grow found with old | ⟨rfl, rfl, -⟩
    · rw [asks_grow _ (List.getElem?_eq_some_iff.mp old).1.le] at isStep
      exact traced.given j k ending identity stream old isStep
    · rw [asks_grow _ le_rfl, asked] at isStep
      cases isStep
  · intro o member
    obtain ⟨j, k, there, running⟩ := traced.observed o member
    refine ⟨j, k, there.grow _, ?_⟩
    by_cases own : j = i
    · subst own
      have short : k ≠ (h j).length := by
        rintro rfl
        cases asked.symm.trans there.asked
      have inside := there.inside
      rw [running, grow_self, List.length_append, List.length_singleton]
      omega
    · rw [running, grow_of_ne _ own]
  · intro j k k' before o member o' member' first second
    exact traced.ordered j k k' before o member o' member' (place member first) (place member' second)
  · intro finished
    have ended := traced.finished finished i
    rw [asked] at ended
    cases ended

theorem mem_set_close {observations : List Observation} {m : Nat} {closed o : Observation}
    (member : o ∈ observations.set m closed) :
    o = closed ∨ ∃ x, x ≠ m ∧ observations[x]? = some o := by
  obtain ⟨x, found⟩ := List.mem_iff_getElem?.mp member
  rw [List.getElem?_set] at found
  split at found
  · split at found
    · exact Or.inl (Option.some.inj found).symm
    · cases found
  · rename_i different
    exact Or.inr ⟨x, fun same => different same.symm, found⟩

/-- A step that was not replayed comes to its end. -/
theorem traced_close (traced : Traced program s.execution h) (owned : Owned program)
    (recorded : s.Recorded) (place : AtPlace program h i k identity stream)
    (found : s.observations[m]? = some o) (own : o.identity = identity) (running : o.exited = none)
    (proper : ending.Proper)
    (closes : identity.action = .close → ∃ exchangeId, ending = .returned exchangeId) :
    k = (h i).length ∧ Traced program { s.execution with
      observations := s.observations.set m (o.close s.tick ending) } (grow h i ending) := by
  subst own
  obtain ⟨i', k', there, isLast⟩ := traced.observed o (List.mem_of_getElem? found)
  obtain ⟨rfl, rfl⟩ := traced.closing.place owned place there
  obtain rfl := isLast.mp running
  refine ⟨rfl, ?_⟩
  have closing : Closing program (grow h i ending) := by
    apply traced.closing.grow
    intro identity stream asked isClose
    obtain ⟨rfl, -⟩ := Ask.step.inj (place.asked.symm.trans asked)
    exact closes isClose
  have old : ∀ {o'}, o' ∈ s.observations.set m (o.close s.tick ending) →
      o' = o.close s.tick ending ∨ o' ∈ s.observations ∧ o'.identity ≠ o.identity := by
    intro o' member
    rcases mem_set_close member with rfl | ⟨x, other, at_⟩
    · exact Or.inl rfl
    · refine Or.inr ⟨List.mem_of_getElem? at_, fun same => other ?_⟩
      have first := (recorded.indexed _ x).mpr ⟨o', at_, same⟩
      exact Option.some.inj (first.symm.trans ((recorded.indexed _ m).mpr ⟨o, found, rfl⟩))
  have keeps : ∀ {o'}, o' ∈ s.observations → o'.identity ≠ o.identity →
      o' ∈ s.observations.set m (o.close s.tick ending) := by
    intro o' member other
    obtain ⟨x, at_⟩ := List.mem_iff_getElem?.mp member
    refine List.mem_of_getElem? (i := x) ?_
    rw [List.getElem?_set, if_neg, at_]
    rintro rfl
    obtain rfl := Option.some.inj (found.symm.trans at_)
    exact other rfl
  have new : o.close s.tick ending ∈ s.observations.set m (o.close s.tick ending) :=
    List.mem_set (List.getElem?_eq_some_iff.mp found).1 _
  have blank := traced.blank o (List.mem_of_getElem? found) running
  have at_ : ∀ {o'} {j : Fin n} {k : Nat}, o' ∈ s.observations.set m (o.close s.tick ending) →
      AtPlace program (grow h i ending) j k o'.identity o'.stream →
      AtPlace program h j k o'.identity o'.stream := by
    intro o' j k member at_
    rcases old member with rfl | ⟨before, -⟩
    · obtain ⟨rfl, rfl⟩ := closing.place owned at_ (place.grow _)
      exact there
    · obtain ⟨j', k', there', -⟩ := traced.observed o' before
      obtain ⟨rfl, rfl⟩ := closing.place owned at_ (there'.grow _)
      exact there'
  refine ⟨?_, ?_, closing, ?_, ?_, ?_, ?_, ?_⟩
  · intro j k found' at_
    rcases getElem?_grow at_ with old | ⟨rfl, rfl, -⟩
    · rw [asks_grow _ (List.getElem?_eq_some_iff.mp old).1.le]
      exact traced.goes j k found' old
    · rw [asks_grow _ le_rfl, place.asked]
      exact nofun
  · intro j k found' at_ isNothing
    rcases getElem?_grow at_ with old | ⟨rfl, rfl, -⟩
    · rw [asks_grow _ (List.getElem?_eq_some_iff.mp old).1.le] at isNothing
      exact traced.nothing j k found' old isNothing
    · rw [asks_grow _ le_rfl, place.asked] at isNothing
      cases isNothing
  · intro j k found' identity' stream' at_ isStep
    rcases getElem?_grow at_ with before | ⟨rfl, rfl, rfl⟩
    · have inside := (List.getElem?_eq_some_iff.mp before).1
      rw [asks_grow _ inside.le] at isStep
      obtain ⟨proper', o', member, same, exited, gave⟩ :=
        traced.given j k found' identity' stream' before isStep
      refine ⟨proper', o', keeps member fun own => ?_, same, exited, gave⟩
      rw [recorded.indexed.unique member (List.mem_of_getElem? found) own] at exited
      exact exited running
    · rw [asks_grow _ le_rfl] at isStep
      obtain ⟨rfl, -⟩ := Ask.step.inj (place.asked.symm.trans isStep)
      exact ⟨proper, _, new, rfl, Option.some_ne_none _, gave_close blank.1 blank.2⟩
  · intro o' member
    rcases old member with rfl | ⟨before, other⟩
    · exact ⟨i, _, there.grow _, by simp [Observation.close, grow_self]⟩
    · obtain ⟨j, k, there', isLast'⟩ := traced.observed o' before
      refine ⟨j, k, there'.grow _, ?_⟩
      by_cases own : j = i
      · subst own
        have short : k ≠ (h j).length := by
          rintro rfl
          exact other (Ask.step.inj (there'.asked.symm.trans place.asked)).1
        have inside := there'.inside
        rw [isLast', grow_self, List.length_append, List.length_singleton]
        omega
      · rw [isLast', grow_of_ne _ own]
  · intro j x y before first member second member' grown₁ grown₂ exited is
    have place₁ := at_ member grown₁
    have place₂ := at_ member' grown₂
    rcases old member with rfl | ⟨earlier, -⟩
    · obtain ⟨rfl, rfl⟩ := traced.closing.place owned place₁ place
      exact absurd place₂.inside (by omega)
    · rcases old member' with rfl | ⟨earlier', -⟩
      · exact traced.ordered j x y before first earlier o (List.mem_of_getElem? found) place₁ place₂
          exited is
      · exact traced.ordered j x y before first earlier second earlier' place₁ place₂ exited is
  · intro o' member running'
    rcases old member with rfl | ⟨before, -⟩
    · cases running'
    · exact traced.blank o' before running'
  · intro finished
    cases (show s.execution.finished = true from finished).symm.trans (traced.unfinished place.asked)

end GenSubnet.Runtime
