import Mathlib.Data.List.Induction
import Mathlib.Tactic.Tauto

/-!
# An object and its writes

One object of a store under compare-and-swap, with the writes that took effect. A write replaces the
contents that its client has loaded, and only these; one whose answer was lost may take effect later.
The store may refuse a write for any reason.
-/

namespace GenSubnet.Library

variable {α τ : Type*}

/-- A write: what it is for, what it replaces and what it writes. -/
structure Put (α τ : Type*) where
  tag : τ
  old : Option α
  new : α

structure Versioned (α τ : Type*) where
  data : Option α
  writes : List (Put α τ) := []
  adrift : List (Put α τ) := []

/-- What becomes of a write. -/
inductive Fate | saved | conflict | rejected | uncertain
deriving DecidableEq

namespace Versioned

def commit (o : Versioned α τ) (write : Put α τ) : Versioned α τ :=
  { o with data := some write.new, writes := o.writes ++ [write] }

variable [DecidableEq α]

def save (o : Versioned α τ) (write : Put α τ) : Fate → Option (Versioned α τ)
  | .saved => if o.data = write.old then some (o.commit write) else none
  | .conflict | .rejected => some o
  | .uncertain => some { o with adrift := o.adrift ++ [write] }

/-- A write whose answer was lost takes effect, or it is dropped. -/
def settle (o : Versioned α τ) (n : Nat) (lands : Bool) : Option (Versioned α τ) :=
  match o.adrift[n]? with
  | none => none
  | some write =>
      let rest := { o with adrift := o.adrift.eraseIdx n }
      if lands then if o.data = write.old then some (rest.commit write) else none else some rest

/-- The answer of a write was lost, and what is read back is what it writes. Its contents stand, and
it may still take effect again. -/
def readBack (o : Versioned α τ) (write : Put α τ) : Option (Versioned α τ) :=
  if o.data = some write.new then
    some { o.commit { write with old := o.data } with adrift := o.adrift ++ [write] }
  else none

theorem save_writes {o o' : Versioned α τ} {write : Put α τ} {fate : Fate}
    (saved : o.save write fate = some o') :
    o.writes <+: o'.writes ∧
      ∀ other ∈ o'.writes ++ o'.adrift, other = write ∨ other ∈ o.writes ++ o.adrift := by
  cases fate with
  | saved =>
      rw [Versioned.save] at saved
      split at saved
      · obtain rfl := Option.some.inj saved
        refine ⟨List.prefix_append _ _, fun other member => ?_⟩
        simp only [commit, List.mem_append, List.mem_singleton] at member ⊢
        tauto
      · cases saved
  | conflict | rejected =>
      obtain rfl := Option.some.inj saved
      exact ⟨List.prefix_rfl, fun other member => Or.inr member⟩
  | uncertain =>
      obtain rfl := Option.some.inj saved
      refine ⟨List.prefix_rfl, fun other member => ?_⟩
      simp only [List.mem_append, List.mem_singleton] at member ⊢
      tauto

theorem settle_writes {o o' : Versioned α τ} {n : Nat} {lands : Bool}
    (settled : o.settle n lands = some o') :
    o.writes <+: o'.writes ∧ ∀ other ∈ o'.writes ++ o'.adrift, other ∈ o.writes ++ o.adrift := by
  rw [Versioned.settle] at settled
  split at settled
  · cases settled
  · rename_i write at_n
    have dropped : ∀ other ∈ o.adrift.eraseIdx n, other ∈ o.adrift := fun other member =>
      List.mem_of_mem_eraseIdx member
    dsimp only at settled
    split at settled
    · split at settled
      · obtain rfl := Option.some.inj settled
        refine ⟨List.prefix_append _ _, fun other member => ?_⟩
        simp only [commit, List.mem_append, List.mem_singleton] at member ⊢
        rcases member with (member | rfl) | member
        · exact Or.inl member
        · exact Or.inr (List.mem_of_getElem? at_n)
        · exact Or.inr (dropped other member)
      · cases settled
    · obtain rfl := Option.some.inj settled
      refine ⟨List.prefix_rfl, fun other member => ?_⟩
      simp only [List.mem_append] at member ⊢
      exact member.imp_right (dropped other)

theorem readBack_writes {o o' : Versioned α τ} {write : Put α τ} (read : o.readBack write = some o') :
    o.data = some write.new ∧
      o' = { o.commit { write with old := o.data } with adrift := o.adrift ++ [write] } := by
  unfold readBack at read
  split at read
  · rename_i same
    exact ⟨same, (Option.some.inj read).symm⟩
  · cases read

/-- The writes lead from the one contents to the other, each from what the last has left. -/
def Leads : Option α → List (Put α τ) → Option α → Prop
  | before, [], after => before = after
  | before, write :: rest, after => before = write.old ∧ Leads (some write.new) rest after

omit [DecidableEq α] in
theorem leads_concat {before after : Option α} {writes : List (Put α τ)} {write : Put α τ} :
    Leads before (writes ++ [write]) after ↔
      Leads before writes write.old ∧ after = some write.new := by
  induction writes generalizing before with
  | nil => simp [Leads, eq_comm]
  | cons first rest ih => simp [Leads, ih, and_assoc]

/-- Every write, also one that is adrift, stands in the relation, and the writes lead to the data. -/
structure Sound (initial : Option α) (related : Put α τ → Prop) (o : Versioned α τ) : Prop where
  leads : Leads initial o.writes o.data
  writes : ∀ write ∈ o.writes, related write
  adrift : ∀ write ∈ o.adrift, related write

variable {initial : Option α} {related : Put α τ → Prop} {o o' : Versioned α τ}

omit [DecidableEq α] in
theorem sound_initial (initial : Option α) (related : Put α τ → Prop) :
    Sound initial related { data := initial } :=
  ⟨rfl, by simp, by simp⟩

omit [DecidableEq α] in
theorem Sound.commit (sound : o.Sound initial related) {write : Put α τ}
    (holds : related write) (current : o.data = write.old) :
    (o.commit write).Sound initial related := by
  refine ⟨leads_concat.mpr ⟨current ▸ sound.leads, rfl⟩, ?_, sound.adrift⟩
  intro other member
  rcases List.mem_append.mp member with member | member
  · exact sound.writes other member
  · obtain rfl := List.mem_singleton.mp member
    exact holds

theorem Sound.save (sound : o.Sound initial related) {write : Put α τ} {fate : Fate}
    (holds : related write) (saved : o.save write fate = some o') : o'.Sound initial related := by
  cases fate with
  | saved =>
      rw [Versioned.save] at saved
      split at saved
      · rename_i current
        obtain rfl := Option.some.inj saved
        exact sound.commit holds current
      · cases saved
  | conflict | rejected =>
      obtain rfl := Option.some.inj saved
      exact sound
  | uncertain =>
      obtain rfl := Option.some.inj saved
      refine ⟨sound.leads, sound.writes, ?_⟩
      intro other member
      rcases List.mem_append.mp member with member | member
      · exact sound.adrift other member
      · obtain rfl := List.mem_singleton.mp member
        exact holds

theorem Sound.settle (sound : o.Sound initial related) {n : Nat} {lands : Bool}
    (settled : o.settle n lands = some o') : o'.Sound initial related := by
  rw [Versioned.settle] at settled
  split at settled
  · cases settled
  · rename_i write at_n
    have rest : Sound initial related { o with adrift := o.adrift.eraseIdx n } :=
      ⟨sound.leads, sound.writes, fun other member =>
        sound.adrift other (List.mem_of_mem_eraseIdx member)⟩
    dsimp only at settled
    split at settled
    · split at settled
      · rename_i current
        obtain rfl := Option.some.inj settled
        exact rest.commit (sound.adrift write (List.mem_of_getElem? at_n)) current
      · cases settled
    · obtain rfl := Option.some.inj settled
      exact rest

theorem Sound.readBack (sound : o.Sound initial related) {write : Put α τ} (holds : related write)
    (again : related { write with old := some write.new }) (read : o.readBack write = some o') :
    o'.Sound initial related := by
  obtain ⟨same, rfl⟩ := readBack_writes read
  have committed : (o.commit { write with old := o.data }).Sound initial related := by
    apply sound.commit _ rfl
    rw [same]
    exact again
  refine ⟨committed.leads, committed.writes, ?_⟩
  intro other member
  rcases List.mem_append.mp member with member | member
  · exact sound.adrift other member
  · obtain rfl := List.mem_singleton.mp member
    exact holds

omit [DecidableEq α] in
theorem Leads.rest {initial before after : Option α} {writes more : List (Put α τ)}
    (first : Leads initial writes before) (all : Leads initial (writes ++ more) after) :
    Leads before more after := by
  induction writes generalizing initial with
  | nil => exact first ▸ all
  | cons write rest ih => exact ih first.2 all.2

omit [DecidableEq α] in
theorem Leads.since {initial before after : Option α} {writes more : List (Put α τ)}
    (first : Leads initial writes before) (all : Leads initial (writes ++ more) after) :
    after = before ∨ ∃ write ∈ more, after = some write.new := by
  have later := first.rest all
  induction more using List.reverseRecOn with
  | nil => exact Or.inl (Eq.symm later)
  | append_singleton more last _ => exact Or.inr ⟨last, by simp, (leads_concat.mp later).2⟩

omit [DecidableEq α] in
theorem Leads.keeps {P : Option α → Prop} {before after : Option α} {writes : List (Put α τ)}
    (leads : Leads before writes after)
    (kept : ∀ write ∈ writes, P write.old → P (some write.new)) (holds : P before) : P after := by
  induction writes generalizing before with
  | nil => exact leads ▸ holds
  | cons write rest ih =>
      obtain ⟨rfl, later⟩ := leads
      exact ih later (fun other member => kept other (List.mem_cons_of_mem _ member))
        (kept write List.mem_cons_self holds)

end Versioned

end GenSubnet.Library
