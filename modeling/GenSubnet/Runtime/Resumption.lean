import Mathlib
import GenSubnet.Runtime.Sessions

/-!
# Sessions of a program

A program whose threads share no key can be recorded in any number of sessions, each cut off anywhere,
and replayed: no step ever mismatches, some thread can always go on, and a replay of a finished
execution gives every thread what the recording gave it.
-/

namespace GenSubnet.Runtime
open Library

variable {n m k : Nat} {program : Fin n → Code} {h h' : Fin n → List Ending} {r : Fin n → Nat}
  {i j : Fin n} {identity : Identity} {stream : Bool} {s : Schedule} {o : Observation}
  {e : Execution} {ending : Ending} {c c' : Session n}

/-! ## Going on -/

/-- Some event takes the thread further. -/
def Session.Advances (program : Fin n → Code) (c : Session n) (i : Fin n) : Prop :=
  ∃ event c', c.Faithful event ∧ c.step program event = some c' ∧
    (c'.phases i ≠ c.phases i ∨ (c'.threads i).results ≠ (c.threads i).results)

/-- The thread waits for others. -/
def Point.Blocked : Point → Prop
  | .saving | .entering _ _ | .exiting _ _ => True
  | _ => False

theorem results_resume {t : Thread} {code : Code} {occurrence : Nat} {ending : Ending}
    (goes : code t.results ≠ none) :
    (t.resume code occurrence ending).results ≠ t.results := by
  unfold Thread.resume
  cases requested : code t.results with
  | none => exact absurd requested goes
  | some request => cases request <;> simp

theorem goes_of_nothing {t : Thread} {code : Code} {occurrence : Nat}
    (asked : t.ask code occurrence = .nothing) : code t.results ≠ none := by
  intro requested
  unfold Thread.ask at asked
  simp only [requested] at asked
  cases asked

theorem advances_turn {event : ProgramEvent n} (faithful : c.Faithful event)
    {result : Schedule × Point} (stepped : c.step program event = some (c.turn i identity stream result))
    (moved : c.phases i ≠ .calling identity stream result.2) : c.Advances program i := by
  refine ⟨event, _, faithful, stepped, Or.inl ?_⟩
  simp only [Session.turn, Function.update_self]
  exact fun same => moved same.symm

/-- A thread that has not returned goes on, or waits for others. -/
theorem Kept.advances_or_blocked (kept : Kept program c h r) (i : Fin n) :
    (c.phases i = .idle ∧ (c.threads i).ask (program i) 0 = .returned) ∨ c.Advances program i ∨
      ∃ identity stream point, c.phases i = .calling identity stream point ∧ point.Blocked := by
  have fits := kept.fits i
  cases phase : c.phases i with
  | idle =>
      cases creates : (c.threads i).creates (program i) with
      | some key =>
          refine Or.inr (Or.inl ⟨.number i, { c with
            schedule := (c.schedule.occurrence key).1
            phases := Function.update c.phases i (.numbered (c.schedule.occurrence key).2) },
            trivial, ?_, Or.inl ?_⟩)
          · simp only [Session.step, phase, creates]
          · simp [phase]
      | none =>
          have ask : c.ask program i = (c.threads i).ask (program i) 0 := by
            simp only [Session.ask, phase, creates]
          cases asked : (c.threads i).ask (program i) 0 with
          | returned => exact Or.inl ⟨rfl, rfl⟩
          | nothing =>
              refine Or.inr (Or.inl ⟨.resume i, c.give program i 0 (.returned none), trivial, ?_,
                Or.inr ?_⟩)
              · simp only [Session.step, phase, ask, asked]
              · simp only [Session.give, Function.update_self]
                exact results_resume (goes_of_nothing asked)
          | step identity stream =>
              refine Or.inr (Or.inl (@advances_turn _ _ _ identity stream _ (.arrive i) rfl
                (c.schedule.arrive identity stream false) ?_ ?_))
              · simp only [Session.step, ask, asked]
              · simp [phase]
  | numbered occurrence =>
      rw [phase] at fits
      obtain ⟨creates, -⟩ := fits
      rw [← kept.thread i] at creates
      obtain ⟨key, is⟩ := Option.ne_none_iff_exists'.mp creates
      obtain ⟨flag, requested⟩ := creates_of_numbered is
      refine Or.inr (Or.inl (@advances_turn _ _ _ ⟨key, occurrence, .create, 0⟩ flag _ (.arrive i) rfl
        (c.schedule.arrive ⟨key, occurrence, .create, 0⟩ flag false) ?_ ?_))
      · simp only [Session.step, Session.ask, phase, Thread.ask, requested]
      · simp [phase]
  | calling identity stream point =>
      cases point with
      | saving | entering | exiting => exact Or.inr (Or.inr ⟨_, _, _, rfl, trivial⟩)
      | mismatched =>
          rw [phase] at fits
          exact absurd fits.2.2 id
      | ended ending =>
          refine Or.inr (Or.inl ⟨.resume i, c.give program i identity.occurrence ending, trivial, ?_,
            Or.inl ?_⟩)
          · simp only [Session.step, phase]
          · simp [Session.give, phase]
      | running entry replay =>
          rw [phase] at fits
          obtain ⟨asks, ⟨o, found, own, -⟩, -⟩ := fits
          have again : ∃ ending, ∀ o', c.schedule.observations[entry]? = some o' → o'.Again ending := by
            have member := List.mem_of_getElem? found
            cases exited : o.exited with
            | none =>
                refine ⟨.returned none, fun o' found' => ⟨trivial, fun _ => ⟨none, rfl⟩, ?_⟩⟩
                obtain rfl := Option.some.inj (found.symm.trans found')
                exact fun was => absurd exited was
            | some exit =>
                obtain ⟨j, k, place, isLast⟩ := kept.traced.observed o member
                have inside := lt_of_le_of_ne place.inside
                  fun last => by simp [isLast.mpr last] at exited
                have at_ := List.getElem?_eq_getElem inside
                obtain ⟨proper, o₁, member₁, same, -, gave⟩ :=
                  kept.traced.given j k _ _ _ at_ place.asked
                refine ⟨(h j)[k], fun o' found' => ⟨proper, ?_, ?_⟩⟩
                · obtain rfl := Option.some.inj (found.symm.trans found')
                  exact fun isClose => kept.traced.closing j k _ _ _ at_ place.asked isClose
                · obtain rfl := Option.some.inj (found.symm.trans found')
                  rw [kept.recorded.indexed.unique member member₁ same.symm]
                  exact fun _ _ => gave
          obtain ⟨ending, again⟩ := again
          refine Or.inr (Or.inl (@advances_turn _ _ _ identity stream _ (.complete i ending) ?_
            (c.schedule.complete entry replay ending false) ?_ ?_))
          · refine ⟨rfl, ?_⟩
            rw [phase]
            exact again
          · simp only [Session.step, phase]
          · rw [phase]
            intro same
            have point := (Phase.calling.inj same).2.2
            unfold Schedule.complete Schedule.exit Schedule.hold Schedule.mismatch at point
            simp only [found] at point
            repeat' split at point
            all_goals cases point

theorem earliest_of_unreplayed {o : Observation} {time : Nat} (member : o ∈ s.observations)
    (unreplayed : s.Unreplayed o time) : ∃ o time, s.Earliest o time := by
  have some_time : ∃ time, ∃ o ∈ s.observations, s.Unreplayed o time := ⟨time, o, member, unreplayed⟩
  classical
  obtain ⟨first, firstIn, is⟩ := Nat.find_spec some_time
  exact ⟨first, Nat.find some_time, firstIn, is,
    fun other otherIn later at_ => Nat.find_min' some_time ⟨other, otherIn, at_⟩⟩

/-- While every thread has returned or waits, the thread of the earliest event that is left goes on. -/
theorem Kept.earliest_advances (kept : Kept program c h r) (owned : Owned program)
    (waits : ∀ i, (c.phases i = .idle ∧ (c.threads i).ask (program i) 0 = .returned) ∨
      ∃ identity stream point, c.phases i = .calling identity stream point ∧ point.Blocked)
    {o : Observation} {time : Nat} (earliest : c.schedule.Earliest o time) :
    ∃ i, c.Advances program i := by
  obtain ⟨i, k, place, isLast⟩ := kept.traced.observed o earliest.member
  have returned : ∀ {i}, (program i).asks (h i) (r i) ≠ .returned →
      ∃ identity stream point, c.phases i = .calling identity stream point ∧ point.Blocked := by
    intro i goes
    rcases waits i with ⟨-, ended⟩ | blocked
    · have creates : (c.threads i).creates (program i) = none := by
        unfold Thread.ask at ended
        unfold Thread.creates
        split at ended <;> simp_all
      exact absurd ((kept.asks i).trans ((ask_eq creates 0).symm.trans ended)) goes
    · exact blocked
  have goes : ∀ {i k}, k < (h i).length → (program i).asks (h i) k ≠ .returned := by
    intro i k inside
    exact kept.traced.goes i k _ (List.getElem?_eq_getElem inside)
  have undone : ∀ {i identity stream point}, (program i).asks (h i) (r i) = .step identity stream →
      c.phases i = .calling identity stream point → point.Blocked →
      identity ∉ c.schedule.done := by
    intro i identity stream point asks phase blocked
    rw [(kept.marked owned asks).2, phase]
    cases point <;> first | exact id | exact absurd blocked id
  have called : ∀ {i identity stream point}, c.phases i = .calling identity stream point →
      (program i).asks (h i) (r i) = .step identity stream ∧ point.Records c.schedule identity := by
    intro i identity stream point phase
    have fits := kept.fits i
    rw [phase] at fits
    exact ⟨fits.1, fits.2.1⟩
  have unreached : ∀ {identity}, AtPlace program h i k identity o.stream →
      identity ∉ c.schedule.done → r i ≤ k := by
    intro identity there isDone
    by_contra before
    exact isDone ((kept.done identity).mpr ⟨i, k, _, there, Or.inl (by omega)⟩)
  have isUndone : o.identity ∉ c.schedule.done := by
    rcases earliest.unreplayed with ⟨-, unstarted⟩ | ⟨-, isUndone⟩
    · intro isDone
      obtain ⟨j, m, stream, there, at_⟩ := (kept.done _).mp isDone
      apply unstarted
      refine (kept.started _).mpr ⟨j, m, stream, there, at_.imp_right fun ⟨same, marked⟩ => ⟨same, ?_⟩⟩
      cases phase : c.phases j with
      | calling _ _ point =>
          rw [phase] at marked
          cases point <;> first | exact trivial | exact absurd marked id
      | idle | numbered =>
          rw [phase] at marked
          exact absurd marked id
    · exact isUndone
  have here : k = r i := by
    by_contra apart
    have before : r i < k := lt_of_le_of_ne (unreached place isUndone) fun same => apart same.symm
    have inside : r i < (h i).length := before.trans_le place.inside
    obtain ⟨identity, stream, point, phase, blocked⟩ := returned (goes inside)
    obtain ⟨asks, -⟩ := called phase
    obtain ⟨-, o₂, member₂, rfl, exited, -⟩ :=
      kept.traced.given i _ _ _ _ (List.getElem?_eq_getElem inside) asks
    obtain ⟨exit, is⟩ := Option.ne_none_iff_exists'.mp exited
    have stays := undone asks phase blocked
    obtain ⟨i', k', place₂, -⟩ := kept.traced.observed o₂ member₂
    obtain ⟨rfl, rfl⟩ := kept.traced.closing.place owned ⟨kept.reached i, asks⟩ place₂
    have sooner := kept.traced.ordered i _ k before o₂ member₂ o earliest.member place₂ place exit is
    have entered : o.entered ≤ time := by
      rcases earliest.unreplayed with ⟨rfl, -⟩ | ⟨isExit, -⟩
      · exact le_rfl
      · exact (kept.recorded.ordered o earliest.member time isExit).le
    have := earliest.first o₂ member₂ exit (Or.inr ⟨is, stays⟩)
    omega
  subst here
  have isStep : (program i).asks (h i) (r i) ≠ .returned := by
    rw [place.asked]
    intro same
    cases same
  obtain ⟨identity, stream, point, phase, blocked⟩ := returned isStep
  obtain ⟨asks, records⟩ := called phase
  obtain ⟨rfl, rfl⟩ := Ask.step.inj (place.asked.symm.trans asks)
  have started := (kept.marked owned asks).1
  rw [phase] at started
  have same : ∀ {m : Nat} {found : Observation}, c.schedule.observations[m]? = some found →
      found.identity = o.identity → found = o := fun at_ own =>
    kept.recorded.indexed.unique (List.mem_of_getElem? at_) earliest.member own
  cases point with
  | saving =>
      obtain ⟨m, item, -⟩ := kept.recorded.indexed.item earliest.member
      cases (Dict.get_eq_some_iff.mpr item).symm.trans records
  | entering m replay =>
      obtain ⟨found, at_, own, -⟩ := records
      obtain rfl := same at_ own
      have isTime : time = found.entered := by
        have unstarted : found.identity ∉ c.schedule.started := fun isStarted => started.mp isStarted
        have early := earliest.first found earliest.member found.entered (Or.inl ⟨rfl, unstarted⟩)
        rcases earliest.unreplayed with ⟨is, -⟩ | ⟨is, -⟩
        · exact is
        · have := kept.recorded.ordered found earliest.member time is
          omega
      subst isTime
      have passes : c.schedule.enter m replay false =
          ({ c.schedule with started := insert found.identity c.schedule.started },
            .running m replay) := by
        unfold Schedule.enter
        rw [at_]
        simp only
        rw [if_pos (earliest.mayEnter kept.recorded.indexed)]
      refine ⟨i, @advances_turn _ _ _ found.identity found.stream _ (.wake i) rfl
        (c.schedule.enter m replay false) ?_ ?_⟩
      · simp only [Session.step, phase]
        rfl
      · rw [phase, passes]
        intro same
        cases same
  | exiting m ending =>
      obtain ⟨found, at_, own, -⟩ := records
      obtain rfl := same at_ own
      have isTime : found.exited = some time := by
        rcases earliest.unreplayed with ⟨-, unstarted⟩ | ⟨is, -⟩
        · exact absurd (started.mpr trivial) unstarted
        · exact is
      have passes : c.schedule.exit m ending false =
          ({ c.schedule with done := insert found.identity c.schedule.done }, .ended ending) := by
        unfold Schedule.exit
        rw [at_]
        simp only
        rw [isTime, Option.getD_some, if_pos (earliest.mayExit kept.recorded.indexed)]
      refine ⟨i, @advances_turn _ _ _ found.identity found.stream _ (.wake i) rfl
        (c.schedule.exit m ending false) ?_ ?_⟩
      · simp only [Session.step, phase]
        rfl
      · rw [phase, passes]
        intro same
        cases same
  | running | ended | mismatched => exact absurd blocked id

/-- Unless all threads have returned, some thread goes on. -/
theorem Kept.advances (kept : Kept program c h r) (owned : Owned program)
    (left : ¬c.Over program) : ∃ i, c.Advances program i := by
  by_cases moves : ∃ i, c.Advances program i
  · exact moves
  have waits : ∀ i, (c.phases i = .idle ∧ (c.threads i).ask (program i) 0 = .returned) ∨
      ∃ identity stream point, c.phases i = .calling identity stream point ∧ point.Blocked := by
    intro i
    rcases kept.advances_or_blocked i with ended | advances | blocked
    · exact Or.inl ended
    · exact absurd ⟨i, advances⟩ moves
    · exact Or.inr blocked
  unfold Session.Over at left
  push Not at left
  obtain ⟨i, notOver⟩ := left
  rcases waits i with ⟨idle, ended⟩ | ⟨identity, stream, point, phase, blocked⟩
  · exact absurd ended (notOver idle)
  have fits := kept.fits i
  rw [phase] at fits
  obtain ⟨asks, records, -⟩ := fits
  obtain ⟨started, isDone⟩ := kept.marked owned asks
  rw [phase] at started isDone
  cases point with
  | entering m replay =>
      obtain ⟨o, at_, rfl, -⟩ := records
      obtain ⟨o', time, earliest⟩ := earliest_of_unreplayed (List.mem_of_getElem? at_)
        (Or.inl ⟨rfl, fun isStarted => started.mp isStarted⟩)
      exact kept.earliest_advances owned waits earliest
  | exiting m ending =>
      obtain ⟨o, at_, rfl, exited⟩ := records
      obtain ⟨exit, is⟩ := Option.ne_none_iff_exists'.mp exited
      obtain ⟨o', time, earliest⟩ := earliest_of_unreplayed (List.mem_of_getElem? at_)
        (Or.inr ⟨is, fun done => isDone.mp done⟩)
      exact kept.earliest_advances owned waits earliest
  | saving =>
      by_cases all : c.schedule.saved ⊆ c.schedule.done
      · refine ⟨i, @advances_turn _ _ _ identity stream _ (.wake i) rfl
          (c.schedule.create identity stream false) ?_ ?_⟩
        · simp only [Session.step, phase]
          rfl
        · rw [phase]
          intro same
          have point := (Phase.calling.inj same).2.2
          unfold Schedule.create Schedule.found Schedule.enter Schedule.hold Schedule.mismatch at point
          rw [if_pos all] at point
          repeat' split at point
          all_goals cases point
      · obtain ⟨other, member, undone⟩ := Finset.not_subset.mp all
        obtain ⟨o, there, rfl⟩ := kept.saved other member
        have unreplayed : ∃ time, c.schedule.Unreplayed o time := by
          by_cases isStarted : o.identity ∈ c.schedule.started
          · obtain ⟨j, k, stream', place, at_⟩ := (kept.started _).mp isStarted
            rcases at_ with before | ⟨rfl, entered⟩
            · exact absurd ((kept.done _).mpr ⟨j, k, stream', place, Or.inl before⟩) undone
            · rcases waits j with ⟨idle, -⟩ | ⟨identity', stream'', point, phase', blocked'⟩
              · rw [idle] at entered
                exact absurd entered id
              · have fits := kept.fits j
                rw [phase'] at fits entered
                obtain ⟨asks', records', -⟩ := fits
                obtain ⟨rfl, rfl⟩ := Ask.step.inj (place.asked.symm.trans asks')
                cases point with
                | exiting m ending =>
                    obtain ⟨found, at_, own, exited⟩ := records'
                    rw [kept.recorded.indexed.unique (List.mem_of_getElem? at_) there own] at exited
                    obtain ⟨exit, is⟩ := Option.ne_none_iff_exists'.mp exited
                    exact ⟨exit, Or.inr ⟨is, undone⟩⟩
                | saving | entering | mismatched => exact absurd entered id
                | running | ended => exact absurd blocked' id
          · exact ⟨o.entered, Or.inl ⟨rfl, isStarted⟩⟩
        obtain ⟨time, unreplayed⟩ := unreplayed
        obtain ⟨o', time', earliest⟩ := earliest_of_unreplayed there unreplayed
        exact kept.earliest_advances owned waits earliest
  | running | ended | mismatched => exact absurd blocked id

/-! ## Executions of the program -/

def Session.start (n : Nat) (s : Schedule) : Session n := { schedule := s }

/-- What the program leaves: nothing yet, what was recorded when a session was cut off, or when it
finished. -/
inductive Held (program : Fin n → Code) : Execution → Prop
  | fresh : Held program {}
  | cut {e : Execution} {s : Schedule} {events : List (ProgramEvent n)} {c : Session n}
      (held : Held program e) (started : Schedule.init e true = some s)
      (ran : run (Session.step program) (Session.start n s) events = some c)
      (faithful : Throughout (Session.step program) Session.Faithful (Session.start n s) events) :
      Held program c.schedule.execution
  | finished {e : Execution} {s : Schedule} {events : List (ProgramEvent n)} {c : Session n}
      {digest : String} {isNone : Bool}
      (held : Held program e) (started : Schedule.init e true = some s)
      (ran : run (Session.step program) (Session.start n s) events = some c)
      (faithful : Throughout (Session.step program) Session.Faithful (Session.start n s) events)
      (ended : c.Over program) (finished : (c.schedule.finish digest isNone).2 = true) :
      Held program (c.schedule.finish digest isNone).1.execution

theorem kept_run (owned : Owned program) {e : Execution} (traced : Traced program e h) {record : Bool}
    (started : Schedule.init e record = some s) (may : record = true ∨ e.finished = true)
    {events : List (ProgramEvent n)}
    (ran : run (Session.step program) (Session.start n s) events = some c)
    (faithful : Throughout (Session.step program) Session.Faithful (Session.start n s) events) :
    ∃ h' r, Kept program c h' r ∧ (∀ i, h i <+: h' i) ∧
      ∃ observations, c.schedule.execution = { e with observations } := by
  have kept : Kept program (Session.start n s) h fun _ => 0 := kept_init traced started may
  have start : (Session.start n s).schedule.execution = e := (init_eq started).2.1
  have first : Onward (Session.start n s) h (Session.start n s) h := ⟨fun _ => List.prefix_rfl, _, rfl⟩
  have preserved : ∀ (c : Session n) event c',
      (∃ h' r, Kept program c h' r ∧ Onward (Session.start n s) h c h') → c.Faithful event →
      c.step program event = some c' →
      ∃ h' r, Kept program c' h' r ∧ Onward (Session.start n s) h c' h' := by
    rintro c event c' ⟨h', r, kept, onward⟩ holds stepped
    obtain ⟨h'', r', kept', more⟩ := kept.step owned holds stepped
    exact ⟨h'', r', kept', onward.trans more⟩
  obtain ⟨h', r, kept', onward⟩ := faithful.invariant ran preserved ⟨h, _, kept, first⟩
  obtain ⟨observations, execution⟩ := onward.execution
  rw [start] at execution
  exact ⟨h', r, kept', onward.more, observations, execution⟩

/-- Where all threads have returned, they were given all. -/
theorem Kept.ended (kept : Kept program c h r) (ended : c.Over program) (i : Fin n) :
    r i = (h i).length ∧ (program i).asks (h i) (h i).length = .returned := by
  obtain ⟨-, asked⟩ := ended i
  have creates : (c.threads i).creates (program i) = none := by
    unfold Thread.ask at asked
    unfold Thread.creates
    split at asked <;> simp_all
  have asks := (kept.asks i).trans ((ask_eq creates 0).symm.trans asked)
  rcases (kept.reached i).lt_or_eq with inside | last
  · exact absurd asks (kept.traced.goes i _ _ (List.getElem?_eq_getElem inside))
  · exact ⟨last, last ▸ asks⟩

theorem Traced.exited (traced : Traced program e h)
    (ended : ∀ i, (program i).asks (h i) (h i).length = .returned) :
    ∀ o ∈ e.observations, o.exited ≠ none := by
  intro o member running
  obtain ⟨i, k, place, isLast⟩ := traced.observed o member
  obtain rfl := isLast.mp running
  cases place.asked.symm.trans (ended i)

/-- When all threads have returned, all that was observed is done. -/
theorem Kept.consumed (kept : Kept program c h r) (ended : c.Over program) :
    c.schedule.done.card = c.schedule.steps.size := by
  have same : c.schedule.done = c.schedule.steps.keys.toFinset := by
    ext identity
    rw [List.mem_toFinset]
    constructor
    · intro isDone
      obtain ⟨o, member, rfl, -⟩ := kept.recorded.done identity isDone
      obtain ⟨m, item, -⟩ := kept.recorded.indexed.item member
      exact List.mem_map_of_mem item
    · intro known
      obtain ⟨⟨_, m⟩, item, rfl⟩ := List.mem_map.mp known
      obtain ⟨o, found, rfl⟩ := (kept.recorded.indexed _ m).mp (Dict.get_eq_some_iff.mpr item)
      obtain ⟨i, k, place, -⟩ := kept.traced.observed o (List.mem_of_getElem? found)
      obtain ⟨last, returned⟩ := kept.ended ended i
      refine (kept.done _).mpr ⟨i, k, _, place, Or.inl ?_⟩
      rw [last]
      refine lt_of_le_of_ne place.inside fun same => ?_
      subst same
      cases place.asked.symm.trans returned
  rw [same, Dict.keys, List.toFinset_card_of_nodup c.schedule.steps.nodup, List.length_map]
  rfl

/-- A session whose threads have all returned finishes: with any output if it is the first to, and
with the output that there was otherwise. -/
theorem Kept.finishes (kept : Kept program c h r) (ended : c.Over program) (digest : String)
    (isNone : Bool) : (c.schedule.finish digest isNone).2 = true ↔
      (c.schedule.execution.finished = true →
        c.schedule.execution.outputSha256 = some digest ∧
          c.schedule.execution.outputIsNone = isNone) := by
  unfold Schedule.finish
  rw [if_neg (by simp [kept.sound, kept.consumed ended])]
  split
  · rename_i finished
    split
    · rename_i differs
      simp only [Bool.false_eq_true, finished, forall_const, false_iff]
      rintro ⟨digests, none⟩
      exact differs.elim (absurd digests) (absurd none)
    · rename_i same
      simp only [not_or, not_not] at same
      simp [same]
  · rename_i unfinished
    simp [unfinished]

theorem finish_execution {digest : String} {isNone : Bool}
    (finished : (s.finish digest isNone).2 = true) :
    (s.finish digest isNone).1.execution = { s.execution with
      finished := true, outputSha256 := some digest, outputIsNone := isNone } := by
  unfold Schedule.finish at finished ⊢
  split
  · rename_i fails
    rw [if_pos fails] at finished
    cases finished
  · rename_i sound
    rw [if_neg sound] at finished
    split
    · rename_i already
      rw [if_pos already] at finished
      split
      · rename_i differs
        rw [if_pos differs] at finished
        cases finished
      · rename_i same
        simp only [not_or, not_not] at same
        obtain ⟨digests, none⟩ := same
        rw [← already, ← digests, ← none]
    · rfl

theorem Traced.finish (traced : Traced program e h)
    (ended : ∀ i, (program i).asks (h i) (h i).length = .returned) (output : Option String)
    (isNone : Bool) : Traced program { e with
      finished := true, outputSha256 := output, outputIsNone := isNone } h :=
  ⟨traced.goes, traced.nothing, traced.closing, traced.given, traced.observed, traced.ordered,
    traced.blank, fun _ => ended⟩

theorem valid_congr {e' : Execution} (valid : e.Valid) (observations : e'.observations = e.observations)
    (exited : ∀ o ∈ e.observations, o.exited ≠ none) : e'.Valid := by
  unfold Execution.Valid Execution.times Execution.identities at valid ⊢
  rw [observations]
  exact ⟨valid.1, valid.2.1, valid.2.2.1, valid.2.2.2.1, fun _ => exited⟩

theorem Kept.valid (kept : Kept program c h r) : c.schedule.execution.Valid :=
  kept.recorded.valid fun finished => kept.traced.exited (kept.traced.finished finished)

/-- What the program leaves is valid, and holds what its threads were given. -/
theorem held_traced (owned : Owned program) {e : Execution} (held : Held program e) :
    e.Valid ∧ ∃ h, Traced program e h := by
  induction held with
  | fresh =>
      obtain ⟨valid, -⟩ := init_eq init_fresh
      exact ⟨valid, _, traced_fresh⟩
  | cut held started ran faithful ih =>
      obtain ⟨-, h, traced⟩ := ih
      obtain ⟨h', r, kept, -⟩ := kept_run owned traced started (Or.inl rfl) ran faithful
      exact ⟨kept.valid, h', kept.traced⟩
  | finished held started ran faithful ended finished ih =>
      obtain ⟨-, h, traced⟩ := ih
      obtain ⟨h', r, kept, -⟩ := kept_run owned traced started (Or.inl rfl) ran faithful
      have returned := fun i => (kept.ended ended i).2
      rw [finish_execution finished]
      exact ⟨valid_congr kept.valid rfl (kept.traced.exited returned), h',
        kept.traced.finish returned _ _⟩

def readingThread : Code := fun results =>
  match results with
  | [] => some (.create "a" true)
  | [_] => some (.next "a" 0)
  | [_, _] => some (.close "a" 0)
  | _ => none

def callingThread : Code := fun results =>
  match results with
  | [] => some (.create "b" false)
  | _ => none

def reader : Fin 2 := ⟨0, Nat.zero_lt_two⟩

def caller : Fin 2 := ⟨1, Nat.one_lt_two⟩

/-- One thread reads a stream to its end, while the other one makes a call. -/
def sampleProgram (i : Fin 2) : Code := if i = reader then readingThread else callingThread

def recordingEvents : List (ProgramEvent 2) :=
  [.number reader, .arrive reader, .number caller, .arrive caller, .complete caller (.returned (some "y")),
    .complete reader (.returned (some "x")), .resume reader, .resume caller, .arrive reader,
    .complete reader (.other "StopIteration"), .resume reader, .arrive reader,
    .complete reader (.returned none), .resume reader]

/-- The other thread is first, and waits to exit until the stream is there. -/
def replayEvents : List (ProgramEvent 2) :=
  [.number caller, .arrive caller, .complete caller (.returned (some "y")), .number reader, .arrive reader,
    .complete reader (.returned (some "x")), .wake caller, .wake reader, .resume reader, .arrive reader,
    .complete reader (.other "StopIteration"), .resume reader, .arrive reader,
    .complete reader (.returned none), .resume reader, .resume caller]

def Session.after (s : Session 2) (events : List (ProgramEvent 2)) : Session 2 :=
  (run (Session.step sampleProgram) s events).getD s

/-- The new schedule of a valid execution. -/
def Schedule.renewed (e : Execution) (record : Bool) : Schedule where
  execution := e
  record := record
  steps := positions 0 e.observations .empty
  tick := e.times.length
  saved := e.identities.toFinset

theorem init_renewed {e : Execution} (valid : e.Valid) (record : Bool) :
    Schedule.init e record = some (.renewed e record) := by
  rw [Schedule.init, if_pos valid]
  rfl

def recordedSession : Session 2 := (Session.start 2 (.renewed {} true)).after recordingEvents

def recordedExecution : Execution := (recordedSession.schedule.finish "out" false).1.execution

def replayedSession : Session 2 :=
  (Session.start 2 (.renewed recordedExecution false)).after replayEvents

theorem owned_sampleProgram : Owned sampleProgram := by
  have reading : ∀ results request, readingThread results = some request → request.key = "a" := by
    intro results request requested
    unfold readingThread at requested
    split at requested <;> cases requested <;> rfl
  have calling : ∀ results request, callingThread results = some request → request.key = "b" := by
    intro results request requested
    unfold callingThread at requested
    split at requested <;> cases requested <;> rfl
  have keys : ∀ (i : Fin 2) results request, sampleProgram i results = some request →
      request.key = if i = reader then "a" else "b" := by
    intro i results request requested
    unfold sampleProgram at requested
    split at requested
    · rw [reading _ _ requested]
      simp [*]
    · rw [calling _ _ requested]
      simp [*]
  intro i j results results' request request' requested requested' same
  rw [keys i _ _ requested, keys j _ _ requested'] at same
  clear requested requested'
  revert i j
  decide

theorem run_after {s : Session 2} {events : List (ProgramEvent 2)}
    (ran : (run (Session.step sampleProgram) s events).isSome = true) :
    run (Session.step sampleProgram) s events = some (s.after events) := by
  obtain ⟨c, is⟩ := Option.isSome_iff_exists.mp ran
  rw [Session.after, is]
  rfl

theorem recordedSession_ran :
    run (Session.step sampleProgram) (Session.start 2 (.renewed {} true)) recordingEvents =
        some recordedSession ∧
      Throughout (Session.step sampleProgram) Session.Faithful (Session.start 2 (.renewed {} true))
        recordingEvents ∧
      recordedSession.Over sampleProgram ∧ (recordedSession.schedule.finish "out" false).2 = true :=
  ⟨run_after (by decide +kernel), by decide +kernel⟩

theorem replayedSession_ran :
    run (Session.step sampleProgram) (Session.start 2 (.renewed recordedExecution false)) replayEvents =
        some replayedSession ∧
      Throughout (Session.step sampleProgram) Session.Faithful
        (Session.start 2 (.renewed recordedExecution false)) replayEvents ∧
      replayedSession.Over sampleProgram :=
  ⟨run_after (by decide +kernel), by decide +kernel⟩

end GenSubnet.Runtime
