import Mathlib.Data.List.Basic

/-!
# Objects written under compare-and-swap

One object of a linearizable store, seen by clients whose load and write take effect together. A
write whose answer was lost stays in flight with the version it was computed from; it arrives later
only if the object still has that version.
-/

namespace GenSubnet.Library

variable {α τ : Type*}

/-- Whether the client of a write learns that it took effect. -/
inductive Answer | confirmed | lost
deriving DecidableEq

structure Delayed (α τ : Type*) where
  etag : Nat
  tag : τ
  value : α

structure Cell (α τ : Type*) where
  etag : Nat := 0
  data : Option α := none
  inFlight : List (Delayed α τ) := []

namespace Cell

def put (c : Cell α τ) (value : α) : Cell α τ :=
  { c with etag := c.etag + 1, data := some value }

def lose (c : Cell α τ) (tag : τ) (value : α) : Cell α τ :=
  { c with inFlight := c.inFlight ++ [⟨c.etag, tag, value⟩] }

def write (c : Cell α τ) (tag : τ) (value : α) : Answer → Cell α τ
  | .confirmed => c.put value
  | .lost => c.lose tag value

def land (c : Cell α τ) (n : Nat) : Option (Cell α τ) :=
  match c.inFlight[n]? with
  | none => none
  | some delayed =>
      let rest := { c with inFlight := c.inFlight.eraseIdx n }
      some (if delayed.etag = c.etag then rest.put delayed.value else rest)

@[simp] theorem put_data (c : Cell α τ) (value : α) : (c.put value).data = some value := rfl

@[simp] theorem lose_data (c : Cell α τ) (tag : τ) (value : α) :
    (c.lose tag value).data = c.data := rfl

/-- What is in flight was computed from an earlier version, or stands in the relation to the
present one. -/
def Pending (related : Option α → τ → α → Prop) (c : Cell α τ) : Prop :=
  ∀ d ∈ c.inFlight, d.etag ≤ c.etag ∧ (d.etag = c.etag → related c.data d.tag d.value)

variable {related : Option α → τ → α → Prop} {c : Cell α τ}

theorem pending_new : Pending related ({} : Cell α τ) := by
  intro d member
  cases member

theorem Pending.put (pending : c.Pending related) (value : α) : (c.put value).Pending related := by
  intro d member
  obtain ⟨bound, -⟩ := pending d member
  refine ⟨Nat.le_succ_of_le bound, ?_⟩
  intro same
  simp only [Cell.put] at same
  omega

theorem Pending.lose (pending : c.Pending related) {tag : τ} {value : α}
    (holds : related c.data tag value) : (c.lose tag value).Pending related := by
  intro d member
  rcases List.mem_append.mp member with member | member
  · exact pending d member
  · obtain rfl := List.mem_singleton.mp member
    exact ⟨Nat.le_refl _, fun _ => holds⟩

theorem Pending.write (pending : c.Pending related) {tag : τ} {value : α}
    (holds : related c.data tag value) (answer : Answer) :
    (c.write tag value answer).Pending related := by
  cases answer with
  | confirmed => exact pending.put value
  | lost => exact pending.lose holds

theorem Pending.erase (pending : c.Pending related) (n : Nat) :
    Pending related { c with inFlight := c.inFlight.eraseIdx n } := by
  intro d member
  exact pending d (List.mem_of_mem_eraseIdx member)

theorem land_cases {c' : Cell α τ} {n : Nat} (landed : c.land n = some c') :
    ∃ d, c.inFlight[n]? = some d ∧
      ((d.etag = c.etag ∧ c' = put { c with inFlight := c.inFlight.eraseIdx n } d.value) ∨
        c' = { c with inFlight := c.inFlight.eraseIdx n }) := by
  unfold land at landed
  split at landed
  · cases landed
  · rename_i delayed at_n
    refine ⟨delayed, at_n, ?_⟩
    split at landed
    · rename_i same
      exact Or.inl ⟨same, (Option.some.inj landed).symm⟩
    · exact Or.inr (Option.some.inj landed).symm

end Cell

end GenSubnet.Library
