import GenSubnet.Runtime.Schedule
import Mathlib.Logic.Function.Basic

/-!
# The miner's code under a schedule

`ObservedWitness.create` and `ObservedStream` of `observations.py`, as threads of the miner's code call
them. A thread is deterministic: what it asks for next follows from what it was given so far. What a
captured response holds is found by its exchange, and so an ending stands for all that a call gives.
-/

namespace GenSubnet.Runtime
open Library

/-! ## Threads -/

/-- A request of a thread; a stream is that of an occurrence of its key. -/
inductive Request
  | create (key : String) (stream : Bool)
  | next (key : String) (occurrence : Nat)
  | close (key : String) (occurrence : Nat)

def Request.key : Request → String
  | .create key _ | .next key _ | .close key _ => key

/-- `ObservedStream` -/
structure ObservedStream where
  index : Nat := 0
  closed : Bool := false

/-- The next request of a thread, from what it was given so far; none when it has returned. -/
abbrev Code := List Ending → Option Request

structure Thread where
  results : List Ending := []
  streams : Dict (String × Nat) ObservedStream := .empty
  /-- How often it created from a key. The code does not keep this, the schedule counts. -/
  created : Dict String Nat := .empty

inductive Ask
  /-- The thread has returned. -/
  | returned
  /-- It closes a stream again. -/
  | nothing
  | step (identity : Identity) (stream : Bool)
deriving DecidableEq

variable (t : Thread) (code : Code)

/-- What the thread asks of the schedule; a create has the number of its occurrence already. -/
def Thread.ask (occurrence : Nat) : Ask :=
  match code t.results with
  | none => .returned
  | some (.create key stream) => .step ⟨key, occurrence, .create, 0⟩ stream
  | some (.next key occurrence) =>
      match t.streams.get (key, occurrence) with
      | some stream => .step ⟨key, occurrence, .next, stream.index⟩ true
      -- there is no such stream to ask
      | none => .returned
  | some (.close key occurrence) =>
      match t.streams.get (key, occurrence) with
      | some stream =>
          if stream.closed then .nothing else .step ⟨key, occurrence, .close, stream.index⟩ true
      | none => .returned

/-- The thread is given what its request came to. -/
def Thread.resume (occurrence : Nat) (ending : Ending) : Thread :=
  match code t.results with
  | none => t
  | some (.create key stream) => {
      results := t.results ++ [ending]
      streams :=
        match ending, stream with
        | .returned _, true => t.streams.set (key, occurrence) {}
        | _, _ => t.streams
      created := t.created.set key ((t.created.get key).getD 0 + 1) }
  | some (.next key occurrence) => { t with
      results := t.results ++ [ending]
      streams :=
        match t.streams.get (key, occurrence) with
        | some stream => t.streams.set (key, occurrence) { stream with index := stream.index + 1 }
        | none => t.streams }
  | some (.close key occurrence) => { t with
      results := t.results ++ [ending]
      streams :=
        match ending, t.streams.get (key, occurrence) with
        | .returned _, some stream => t.streams.set (key, occurrence) { stream with closed := true }
        | _, _ => t.streams }

/-- The key that the thread creates from next. -/
def Thread.creates : Option String :=
  match code t.results with
  | some (.create key _) => some key
  | _ => none

/-! ## Sessions -/

/-- Where a thread is: in its own code, with the number of an occurrence, or in a step. -/
inductive Phase
  | idle
  | numbered (occurrence : Nat)
  | calling (identity : Identity) (stream : Bool) (point : Point)
deriving DecidableEq

structure Session (n : Nat) where
  schedule : Schedule
  threads : Fin n → Thread := fun _ => {}
  phases : Fin n → Phase := fun _ => .idle

inductive ProgramEvent (n : Nat)
  /-- A create takes the number of its occurrence. -/
  | number (i : Fin n)
  | arrive (i : Fin n) (expired : Bool := false)
  | wake (i : Fin n) (expired : Bool := false)
  | complete (i : Fin n) (ending : Ending) (expired : Bool := false)
  /-- The thread goes on with what its request came to. -/
  | resume (i : Fin n)

variable {n : Nat} (program : Fin n → Code)

def Session.turn (s : Session n) (i : Fin n) (identity : Identity) (stream : Bool)
    (result : Schedule × Point) : Session n where
  schedule := result.1
  threads := s.threads
  phases := Function.update s.phases i (.calling identity stream result.2)

def Session.give (s : Session n) (i : Fin n) (occurrence : Nat) (ending : Ending) : Session n where
  schedule := s.schedule
  threads := Function.update s.threads i ((s.threads i).resume (program i) occurrence ending)
  phases := Function.update s.phases i .idle

/-- What a thread asks for where it is. -/
def Session.ask (s : Session n) (i : Fin n) : Ask :=
  match s.phases i, (s.threads i).creates (program i) with
  | .idle, none => (s.threads i).ask (program i) 0
  | .numbered occurrence, _ => (s.threads i).ask (program i) occurrence
  | _, _ => .returned

def Session.step (s : Session n) : ProgramEvent n → Option (Session n)
  | .number i =>
      match s.phases i, (s.threads i).creates (program i) with
      | .idle, some key =>
          let (schedule, occurrence) := s.schedule.occurrence key
          some { s with schedule, phases := Function.update s.phases i (.numbered occurrence) }
      | _, _ => none
  | .arrive i expired =>
      match s.ask program i with
      | .step identity stream =>
          some (s.turn i identity stream (s.schedule.arrive identity stream expired))
      | _ => none
  | .wake i expired =>
      match s.phases i with
      | .calling identity stream point =>
          (s.schedule.wake identity stream expired point).map (s.turn i identity stream)
      | _ => none
  | .complete i ending expired =>
      match s.phases i with
      | .calling identity stream (.running entry replay) =>
          some (s.turn i identity stream (s.schedule.complete entry replay ending expired))
      | _ => none
  | .resume i =>
      match s.phases i with
      | .calling identity _ (.ended ending) => some (s.give program i identity.occurrence ending)
      | .idle =>
          match s.ask program i with
          | .nothing => some (s.give program i 0 (.returned none))
          | _ => none
      | _ => none

/-- Every thread has returned. -/
def Session.Over (s : Session n) : Prop :=
  ∀ i, s.phases i = .idle ∧ (s.threads i).ask (program i) 0 = .returned

instance (s : Session n) : Decidable (s.Over program) :=
  inferInstanceAs (Decidable (∀ _, _ ∧ _))

/-! ## The steps of a thread -/

/-- The number of the occurrence, where no other thread creates from the keys of this one. -/
def Thread.occurrence : Nat :=
  match t.creates code with
  | some key => (t.created.get key).getD 0
  | none => 0

/-- A thread that was given these endings. -/
def Code.after (results : List Ending) : Thread :=
  results.foldl (fun t ending => t.resume code (t.occurrence code) ending) {}

/-- What it asks for after the first of the endings. -/
def Code.asks (results : List Ending) (k : Nat) : Ask :=
  let t := code.after (results.take k)
  t.ask code (t.occurrence code)

theorem after_take_succ {results : List Ending} {k : Nat} {ending : Ending}
    (found : results[k]? = some ending) :
    code.after (results.take (k + 1)) =
      (code.after (results.take k)).resume code ((code.after (results.take k)).occurrence code) ending := by
  rw [List.take_add_one, found]
  simp [Code.after, List.foldl_append]

theorem after_append (results more : List Ending) {k : Nat} (inside : k ≤ results.length) :
    code.after ((results ++ more).take k) = code.after (results.take k) := by
  rw [List.take_append_of_le_length inside]

theorem asks_append (results more : List Ending) {k : Nat} (inside : k ≤ results.length) :
    code.asks (results ++ more) k = code.asks results k := by
  unfold Code.asks
  rw [after_append code results more inside]

/-- The thread has asked for the step. -/
def Thread.Spent (identity : Identity) : Prop :=
  match identity.action with
  | .create => identity.occurrence < (t.created.get identity.key).getD 0
  | .next => ∃ stream, t.streams.get (identity.key, identity.occurrence) = some stream ∧
      identity.index < stream.index
  | .close => ∃ stream, t.streams.get (identity.key, identity.occurrence) = some stream ∧
      stream.closed = true

/-- The streams of the thread are those of its own creates. -/
def Thread.Sound : Prop :=
  ∀ key occurrence stream, t.streams.get (key, occurrence) = some stream →
    occurrence < (t.created.get key).getD 0

variable {t code}

theorem ask_unspent {identity : Identity} {stream : Bool}
    (asked : t.ask code (t.occurrence code) = .step identity stream) : ¬t.Spent identity := by
  unfold Thread.ask Thread.occurrence Thread.creates at asked
  split at asked
  · cases asked
  · rename_i key flag requested
    simp only [requested, Ask.step.injEq] at asked
    obtain ⟨rfl, -⟩ := asked
    simp [Thread.Spent]
  · split at asked
    · rename_i found
      obtain ⟨rfl, -⟩ := Ask.step.inj asked
      simp [Thread.Spent, found]
    · cases asked
  · split at asked
    · rename_i observed found
      split at asked
      · cases asked
      · rename_i opened
        obtain ⟨rfl, -⟩ := Ask.step.inj asked
        simp only [Thread.Spent, found]
        rintro ⟨_, ⟨⟩, closed⟩
        exact opened closed
    · cases asked

theorem Thread.Sound.resume (sound : t.Sound) (ending : Ending) :
    (t.resume code (t.occurrence code) ending).Sound := by
  intro key occurrence stream found
  unfold Thread.resume Thread.occurrence Thread.creates at found ⊢
  split at found
  · exact sound key occurrence stream found
  · rename_i created flag requested
    simp only [requested] at found ⊢
    rw [Dict.get_set]
    split at found
    · rw [Dict.get_set] at found
      split at found
      · rename_i own
        obtain ⟨rfl, rfl⟩ := Prod.mk.inj own
        simp
      · have old := sound key occurrence stream found
        split
        · rename_i same
          rw [← same, Option.getD_some]
          exact Nat.lt_succ_of_lt old
        · exact old
    · have old := sound key occurrence stream found
      split
      · rename_i same
        rw [← same, Option.getD_some]
        exact Nat.lt_succ_of_lt old
      · exact old
  all_goals
    simp only at found ⊢
    split at found
    · rename_i there
      rw [Dict.get_set] at found
      split at found
      · rename_i own
        obtain ⟨rfl, rfl⟩ := Prod.mk.inj own
        exact sound _ _ _ (by assumption)
      · exact sound key occurrence stream found
    · exact sound key occurrence stream found

theorem Thread.Spent.resume (sound : t.Sound) {identity : Identity} (spent : t.Spent identity)
    (ending : Ending) : (t.resume code (t.occurrence code) ending).Spent identity := by
  obtain ⟨key, occurrence, action, index⟩ := identity
  unfold Thread.resume Thread.occurrence Thread.creates
  split
  · exact spent
  · rename_i created flag requested
    have other : ∀ {stream : ObservedStream}, t.streams.get (key, occurrence) = some stream →
        (key, occurrence) ≠ (created, (t.created.get created).getD 0) := by
      intro stream found same
      obtain ⟨rfl, rfl⟩ := Prod.mk.inj same
      exact absurd (sound _ _ _ found) (Nat.lt_irrefl _)
    cases action with
    | create =>
        simp only [Thread.Spent, Dict.get_set] at spent ⊢
        split
        · rename_i same
          rw [← same, Option.getD_some]
          exact Nat.lt_succ_of_lt spent
        · exact spent
    | next | close =>
        obtain ⟨stream, found, spent⟩ := spent
        refine ⟨stream, ?_, spent⟩
        simp only [requested]
        split
        · rw [Dict.get_set_of_ne _ _ (other found)]
          exact found
        · exact found
  · cases action with
    | create => exact spent
    | next | close =>
        obtain ⟨stream, found, spent⟩ := spent
        simp only [Thread.Spent]
        split
        · rw [Dict.get_set]
          split
          · rename_i there own
            rw [← own, found] at there
            obtain rfl := Option.some.inj there
            exact ⟨_, rfl, by first | exact Nat.lt_succ_of_lt spent | exact spent⟩
          · exact ⟨stream, found, spent⟩
        · exact ⟨stream, found, spent⟩
  · cases action with
    | create => exact spent
    | next | close =>
        obtain ⟨stream, found, spent⟩ := spent
        simp only [Thread.Spent]
        split
        · rw [Dict.get_set]
          split
          · rename_i there own
            rw [← own, found] at there
            obtain rfl := Option.some.inj there
            exact ⟨_, rfl, by first | exact spent | rfl⟩
          · exact ⟨stream, found, spent⟩
        · exact ⟨stream, found, spent⟩

theorem spent_resume {identity : Identity} {stream : Bool} {ending : Ending}
    (asked : t.ask code (t.occurrence code) = .step identity stream)
    (closes : identity.action = .close → ∃ exchangeId, ending = .returned exchangeId) :
    (t.resume code (t.occurrence code) ending).Spent identity := by
  unfold Thread.ask at asked
  unfold Thread.resume
  split at asked
  · cases asked
  · rename_i key flag requested
    obtain ⟨rfl, -⟩ := Ask.step.inj asked
    simp [Thread.Spent, Thread.occurrence, Thread.creates, requested]
  · split at asked
    · obtain ⟨rfl, -⟩ := Ask.step.inj asked
      simp [Thread.Spent]
    · cases asked
  · split at asked
    · rename_i found
      split at asked
      · cases asked
      · obtain ⟨rfl, -⟩ := Ask.step.inj asked
        obtain ⟨exchangeId, rfl⟩ := closes rfl
        simp [Thread.Spent, found]
    · cases asked

theorem after_sound (results : List Ending) : (code.after results).Sound := by
  induction results using List.reverseRecOn with
  | nil => exact fun _ _ _ found => nomatch found
  | append_singleton results ending ih =>
      unfold Code.after
      rw [List.foldl_append]
      exact ih.resume ending

/-- A step that was asked for is spent ever after. -/
theorem asks_spent {results : List Ending} {j k : Nat} (before : j < k) (inside : k ≤ results.length)
    {identity : Identity} {stream : Bool} (asked : code.asks results j = .step identity stream)
    (closes : ∀ ending, results[j]? = some ending → identity.action = .close →
      ∃ exchangeId, ending = .returned exchangeId) :
    (code.after (results.take k)).Spent identity := by
  induction k with
  | zero => cases before
  | succ k ih =>
      have found := List.getElem?_eq_getElem inside
      rw [after_take_succ code found]
      rcases Nat.lt_succ_iff_lt_or_eq.mp before with earlier | rfl
      · exact (ih earlier (Nat.le_of_lt inside)).resume (after_sound _) _
      · exact spent_resume asked (closes _ found)

end GenSubnet.Runtime
