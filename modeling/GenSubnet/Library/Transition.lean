import Mathlib.Data.List.Basic
import Mathlib.Logic.Relation

/-!
# Event-labelled transition systems

A system is a partial step function `step : σ → ε → Option σ`; an event that is not enabled has no
successor. Runs are executable, so a concrete interleaving can be evaluated, and every invariant of
a system is proved once for a step and carried to all runs by the rules of this file.
-/

namespace GenSubnet.Library

variable {σ ε : Type*}

/-- Run a list of events from a state; `none` when some event of the list is not enabled. -/
def run (step : σ → ε → Option σ) : σ → List ε → Option σ
  | s, [] => some s
  | s, e :: es => (step s e).bind fun s' => run step s' es

/-- Every event of the list meets the condition in the state in which it happens. -/
def Throughout (step : σ → ε → Option σ) (condition : σ → ε → Prop) : σ → List ε → Prop
  | _, [] => True
  | s, e :: es => condition s e ∧ ∀ s', step s e = some s' → Throughout step condition s' es

def Reachable (step : σ → ε → Option σ) (initial : σ → Prop) (s : σ) : Prop :=
  ∃ s₀ es, initial s₀ ∧ run step s₀ es = some s

/-- The run of the events passes through the state. -/
def Visits (step : σ → ε → Option σ) (s : σ) (events : List ε) (u : σ) : Prop :=
  ∃ before after, events = before ++ after ∧ run step s before = some u

/-- The run of the events takes this step. -/
def Takes (step : σ → ε → Option σ) (s : σ) (events : List ε) (u : σ) (e : ε) (v : σ) : Prop :=
  ∃ before after, events = before ++ e :: after ∧ run step s before = some u ∧ step u e = some v

/-- How many steps of the run the condition counts. -/
def countSteps (step : σ → ε → Option σ) (counts : σ → ε → σ → Bool) : σ → List ε → Nat
  | _, [] => 0
  | s, e :: es =>
      match step s e with
      | none => 0
      | some s' => (counts s e s').toNat + countSteps step counts s' es

variable {step : σ → ε → Option σ} {condition : σ → ε → Prop}

@[simp] theorem run_nil (s : σ) : run step s [] = some s := rfl

theorem run_cons {s t : σ} {e : ε} {es : List ε} :
    run step s (e :: es) = some t ↔ ∃ s', step s e = some s' ∧ run step s' es = some t := by
  simp only [run, Option.bind_eq_some_iff]

theorem run_append {s t : σ} {es fs : List ε} :
    run step s (es ++ fs) = some t ↔ ∃ u, run step s es = some u ∧ run step u fs = some t := by
  induction es generalizing s with
  | nil => simp
  | cons e es ih =>
      simp only [List.cons_append, run_cons, ih]
      constructor
      · rintro ⟨s', hs, u, hu, ht⟩
        exact ⟨u, ⟨s', hs, hu⟩, ht⟩
      · rintro ⟨u, ⟨s', hs, hu⟩, ht⟩
        exact ⟨s', hs, u, hu, ht⟩

theorem run_concat {s t : σ} {e : ε} {es : List ε} :
    run step s (es ++ [e]) = some t ↔ ∃ u, run step s es = some u ∧ step u e = some t := by
  simp [run_append, run_cons]

theorem Visits.append {s u : σ} {es : List ε} (visits : Visits step s es u) (fs : List ε) :
    Visits step s (es ++ fs) u := by
  obtain ⟨before, after, rfl, ran⟩ := visits
  exact ⟨before, after ++ fs, List.append_assoc _ _ _, ran⟩

instance Throughout.decidable [∀ s e, Decidable (condition s e)] :
    ∀ s es, Decidable (Throughout step condition s es)
  | _, [] => isTrue trivial
  | s, e :: es =>
      match h : step s e with
      | none => decidable_of_iff (condition s e) (by simp [Throughout, h])
      | some s' =>
          have := Throughout.decidable s' es
          decidable_of_iff (condition s e ∧ Throughout step condition s' es)
            (by simp [Throughout, h])

/-- What holds at first and is preserved by every step that meets the condition holds at the end
of every run whose steps all meet it. -/
theorem Throughout.invariant {invariant : σ → Prop} {s t : σ} {es : List ε}
    (guarded : Throughout step condition s es) (ran : run step s es = some t)
    (preserved : ∀ s e s', invariant s → condition s e → step s e = some s' → invariant s')
    (initial : invariant s) : invariant t := by
  induction es generalizing s with
  | nil =>
      obtain rfl := Option.some.inj ran
      exact initial
  | cons e es ih =>
      obtain ⟨s', hs, ran⟩ := run_cons.mp ran
      exact ih (guarded.2 s' hs) ran (preserved s e s' initial guarded.1 hs)

theorem Throughout.append {s : σ} {es fs : List ε} (throughout : Throughout step condition s (es ++ fs)) :
    Throughout step condition s es ∧ ∀ u, run step s es = some u → Throughout step condition u fs := by
  induction es generalizing s with
  | nil => exact ⟨trivial, by rintro u ⟨⟩; exact throughout⟩
  | cons e es ih =>
      obtain ⟨holds, rest⟩ := throughout
      refine ⟨⟨holds, fun s' stepped => (ih (rest s' stepped)).1⟩, ?_⟩
      intro u ran
      obtain ⟨s', stepped, later⟩ := run_cons.mp ran
      exact (ih (rest s' stepped)).2 u later

theorem Throughout.mono {other : σ → ε → Prop} {s : σ} {es : List ε}
    (throughout : Throughout step condition s es) (implied : ∀ s e, condition s e → other s e) :
    Throughout step other s es := by
  induction es generalizing s with
  | nil => trivial
  | cons e es ih =>
      exact ⟨implied s e throughout.1, fun s' stepped => ih (throughout.2 s' stepped)⟩

theorem throughout_of_forall {s : σ} {es : List ε} (all : ∀ e ∈ es, ∀ s, condition s e) :
    Throughout step condition s es := by
  induction es generalizing s with
  | nil => trivial
  | cons e es ih =>
      exact ⟨all e List.mem_cons_self s, fun s' _ => ih fun e' member => all e' (.tail e member)⟩

theorem run_invariant {invariant : σ → Prop} {s t : σ} {es : List ε}
    (ran : run step s es = some t)
    (preserved : ∀ s e s', invariant s → step s e = some s' → invariant s')
    (initial : invariant s) : invariant t := by
  induction es generalizing s with
  | nil =>
      obtain rfl := Option.some.inj ran
      exact initial
  | cons e es ih =>
      obtain ⟨s', hs, ran⟩ := run_cons.mp ran
      exact ih ran (preserved s e s' initial hs)

theorem run_count {counts : σ → ε → σ → Bool} {invariant : σ → Prop} {bound : σ → Nat → Prop}
    {s t : σ} {es : List ε} {count : Nat} (ran : run step s es = some t)
    (preserved : ∀ s e s', invariant s → step s e = some s' → invariant s')
    (counted : ∀ s e s' count, invariant s → step s e = some s' → bound s count →
      bound s' (count + (counts s e s').toNat))
    (initial : invariant s) (start : bound s count) :
    bound t (count + countSteps step counts s es) := by
  induction es generalizing s count with
  | nil =>
      obtain rfl := Option.some.inj ran
      exact start
  | cons e es ih =>
      obtain ⟨s', hs, ran⟩ := run_cons.mp ran
      have later := ih ran (preserved s e s' initial hs) (counted s e s' count initial hs start)
      simp only [countSteps, hs]
      rwa [← Nat.add_assoc]

/-- Where a step keeps a property exactly when it meets the condition, a run keeps it exactly when
all its steps do. -/
theorem run_iff_throughout {invariant good : σ → Prop} {s t : σ} {es : List ε}
    (ran : run step s es = some t)
    (preserved : ∀ s e s', invariant s → step s e = some s' → invariant s')
    (exactly : ∀ s e s', invariant s → step s e = some s' → (good s' ↔ good s ∧ condition s e))
    (initial : invariant s) : good t ↔ good s ∧ Throughout step condition s es := by
  induction es generalizing s with
  | nil =>
      obtain rfl := Option.some.inj ran
      simp [Throughout]
  | cons e es ih =>
      obtain ⟨s', hs, ran⟩ := run_cons.mp ran
      rw [ih ran (preserved s e s' initial hs), exactly s e s' initial hs]
      simp [Throughout, hs, and_assoc]

theorem Reachable.invariant {invariant initial : σ → Prop} {s : σ}
    (reachable : Reachable step initial s) (start : ∀ s, initial s → invariant s)
    (preserved : ∀ s e s', invariant s → step s e = some s' → invariant s') : invariant s := by
  obtain ⟨s₀, es, h₀, ran⟩ := reachable
  exact run_invariant ran preserved (start s₀ h₀)

end GenSubnet.Library
