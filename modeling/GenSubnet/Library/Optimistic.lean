import GenSubnet.Library.Transition

/-!
# Optimistic updates of one object

Any number of clients load an object, decide on what they have loaded, and either return or send a
write that the store applies only while the object is still what was loaded. A refused client loads
again, a bounded number of times; one that gives up on the answer leaves its write adrift.

A store may tell versions apart that hold the same contents, so it may refuse any write.
-/

namespace GenSubnet.Library.Optimistic

variable {α Op ρ ε : Type*}

inductive Decision (α ρ ε : Type*)
  | returns (result : ρ)
  | raises (error : ε)
  | writes (value : α) (result : ρ)

inductive Phase (α ρ ε : Type*)
  | waiting (attempt : Nat)
  | loaded (attempt : Nat) (snapshot : Option α)
  | sent (attempt : Nat) (snapshot : Option α) (value : α) (result : ρ)
  | adrift (snapshot : Option α) (value : α)
  | returned (result : ρ)
  /-- `none` when the attempts ran out or the write is unconfirmed. -/
  | raised (error : Option ε)
deriving DecidableEq

structure Client (α Op ρ ε : Type*) where
  op : Op
  phase : Phase α ρ ε
deriving DecidableEq

structure State (α Op ρ ε : Type*) where
  /-- What the object held before, the latest last. -/
  past : List (Option α) := []
  data : Option α := none
  clients : List (Client α Op ρ ε) := []

inductive Event (Op : Type*)
  | call (op : Op)
  | load (client : Nat)
  | settle (client : Nat)
  | land (client : Nat)
  | refuse (client : Nat)
  | abandon (client : Nat)

def attempts : Nat := 16

def State.contents (s : State α Op ρ ε) : List (Option α) := s.past ++ [s.data]

def State.setPhase (s : State α Op ρ ε) (i : Nat) (op : Op) (phase : Phase α ρ ε) :
    State α Op ρ ε :=
  { s with clients := s.clients.set i ⟨op, phase⟩ }

def State.write (s : State α Op ρ ε) (value : α) : State α Op ρ ε :=
  { s with past := s.past ++ [s.data], data := some value }

variable [DecidableEq α] (decision : Op → Option α → Decision α ρ ε)

def step (s : State α Op ρ ε) : Event Op → Option (State α Op ρ ε)
  | .call op => some { s with clients := s.clients ++ [⟨op, .waiting 0⟩] }
  | .load i =>
      match s.clients[i]? with
      | some ⟨op, .waiting attempt⟩ => some (s.setPhase i op (.loaded attempt s.data))
      | _ => none
  | .settle i =>
      match s.clients[i]? with
      | some ⟨op, .loaded attempt snapshot⟩ =>
          match decision op snapshot with
          | .returns result => some (s.setPhase i op (.returned result))
          | .raises error => some (s.setPhase i op (.raised (some error)))
          | .writes value result => some (s.setPhase i op (.sent attempt snapshot value result))
      | _ => none
  | .land i =>
      match s.clients[i]? with
      | some ⟨op, .sent _ snapshot value result⟩ =>
          if s.data = snapshot then some ((s.write value).setPhase i op (.returned result)) else none
      | some ⟨op, .adrift snapshot value⟩ =>
          if s.data = snapshot then some ((s.write value).setPhase i op (.raised none)) else none
      | _ => none
  | .refuse i =>
      match s.clients[i]? with
      | some ⟨op, .sent attempt _ _ _⟩ =>
          if attempt + 1 < attempts then some (s.setPhase i op (.waiting (attempt + 1)))
          else some (s.setPhase i op (.raised none))
      | some ⟨op, .adrift _ _⟩ => some (s.setPhase i op (.raised none))
      | _ => none
  | .abandon i =>
      match s.clients[i]? with
      | some ⟨op, .sent _ snapshot value _⟩ => some (s.setPhase i op (.adrift snapshot value))
      | _ => none

/-! ## What a result stands for -/

variable (Allowed : Op → Prop) (Settles : Op → Option α → Prop)

/-- What a client that is about to decide has loaded is settled. -/
def Settling : Option (Client α Op ρ ε) → Prop
  | some ⟨op, .loaded _ snapshot⟩ => Settles op snapshot
  | _ => True

/-- The calls of the run are allowed, and what they decide on is settled. -/
def Admissible (s : State α Op ρ ε) : Event Op → Prop
  | .call op => Allowed op
  | .settle i => Settling Settles s.clients[i]?
  | _ => True

instance [∀ op snapshot, Decidable (Settles op snapshot)] :
    ∀ c : Option (Client α Op ρ ε), Decidable (Settling Settles c)
  | some ⟨op, .loaded _ snapshot⟩ => inferInstanceAs (Decidable (Settles op snapshot))
  | some ⟨_, .waiting _⟩ | some ⟨_, .sent _ _ _ _⟩ | some ⟨_, .adrift _ _⟩
  | some ⟨_, .returned _⟩ | some ⟨_, .raised _⟩ | none => isTrue trivial

instance [∀ op, Decidable (Allowed op)] [∀ op snapshot, Decidable (Settles op snapshot)]
    (s : State α Op ρ ε) : ∀ event, Decidable (Admissible Allowed Settles s event)
  | .call op => inferInstanceAs (Decidable (Allowed op))
  | .settle i => inferInstanceAs (Decidable (Settling Settles s.clients[i]?))
  | .load _ | .land _ | .refuse _ | .abandon _ => isTrue trivial

omit [DecidableEq α] in
variable {Allowed} in
theorem admissible_of_allowed {s : State α Op ρ ε} {event : Event Op}
    (allowed : ∀ op, event = .call op → Allowed op) :
    Admissible Allowed (fun _ _ => True) s event := by
  cases event with
  | call op => exact allowed op rfl
  | settle i =>
      rw [Admissible]
      unfold Settling
      split <;> trivial
  | load i | land i | refuse i | abandon i => trivial

/-- A result was decided on contents that the object had, or it is that of a write that took
effect. -/
inductive Justified (contents : List (Option α)) (op : Op) (result : ρ) : Prop
  | returns (snapshot : Option α) (member : snapshot ∈ contents) (settles : Settles op snapshot)
      (decides : decision op snapshot = .returns result)
  | writes (snapshot : Option α) (value : α) (member : snapshot ∈ contents)
      (written : some value ∈ contents) (decides : decision op snapshot = .writes value result)

def Phase.Sound (contents : List (Option α)) (op : Op) : Phase α ρ ε → Prop
  | .waiting _ => True
  | .loaded _ snapshot => snapshot ∈ contents
  | .sent _ snapshot value result =>
      snapshot ∈ contents ∧ decision op snapshot = .writes value result
  | .adrift snapshot value =>
      snapshot ∈ contents ∧ ∃ result, decision op snapshot = .writes value result
  | .returned result => Justified decision Settles contents op result
  | .raised _ => True

/-- Writes keep what is good about the object, and move it forward in an order. -/
structure Advances (Good : Option α → Prop) (Later : Option α → Option α → Prop) : Prop where
  start : Good none
  trans : ∀ a b c, Later a b → Later b c → Later a c
  writes : ∀ op snapshot value result, Allowed op → Good snapshot →
    decision op snapshot = .writes value result → Good (some value) ∧ Later snapshot (some value)

structure Sound (Good : Option α → Prop) (Later : Option α → Option α → Prop)
    (s : State α Op ρ ε) : Prop where
  good : ∀ d ∈ s.contents, Good d
  order : s.contents.Pairwise Later
  clients : ∀ c ∈ s.clients, Allowed c.op ∧ c.phase.Sound decision Settles s.contents c.op

variable {decision Allowed Settles} {Good : Option α → Prop} {Later : Option α → Option α → Prop}
  {s s' : State α Op ρ ε}

omit [DecidableEq α] in
theorem Justified.mono {contents more : List (Option α)} (subset : contents ⊆ more) {op : Op}
    {result : ρ} (justified : Justified decision Settles contents op result) :
    Justified decision Settles more op result := by
  cases justified with
  | returns snapshot member settles decides => exact .returns snapshot (subset member) settles decides
  | writes snapshot value member written decides =>
      exact .writes snapshot value (subset member) (subset written) decides

omit [DecidableEq α] in
theorem Phase.Sound.mono {contents more : List (Option α)} (subset : contents ⊆ more) {op : Op}
    {phase : Phase α ρ ε} (sound : phase.Sound decision Settles contents op) :
    phase.Sound decision Settles more op := by
  cases phase with
  | waiting attempt => trivial
  | loaded attempt snapshot => exact subset sound
  | sent attempt snapshot value result => exact ⟨subset sound.1, sound.2⟩
  | adrift snapshot value => exact ⟨subset sound.1, sound.2⟩
  | returned result => exact Justified.mono subset sound
  | raised error => trivial

omit [DecidableEq α] in
theorem data_mem_contents (s : State α Op ρ ε) : s.data ∈ s.contents :=
  List.mem_append_right _ (List.mem_singleton_self _)

omit [DecidableEq α] in
theorem Sound.setPhase (sound : Sound decision Allowed Settles Good Later s) {i : Nat} {op : Op}
    {old phase : Phase α ρ ε} (present : s.clients[i]? = some ⟨op, old⟩)
    (fits : phase.Sound decision Settles s.contents op) :
    Sound decision Allowed Settles Good Later (s.setPhase i op phase) := by
  refine ⟨sound.good, sound.order, ?_⟩
  intro c member
  rcases List.mem_or_eq_of_mem_set member with member | rfl
  · exact sound.clients c member
  · exact ⟨(sound.clients _ (List.mem_of_getElem? present)).1, fits⟩

omit [DecidableEq α] in
theorem Sound.write (advances : Advances decision Allowed Good Later)
    (sound : Sound decision Allowed Settles Good Later s) {op : Op} {value : α} {result : ρ}
    (allowed : Allowed op) (decides : decision op s.data = .writes value result) :
    Sound decision Allowed Settles Good Later (s.write value) := by
  obtain ⟨good, later⟩ := advances.writes op s.data value result allowed
    (sound.good _ (data_mem_contents s)) decides
  refine ⟨?_, ?_, ?_⟩
  · intro d member
    rcases List.mem_append.mp member with member | member
    · exact sound.good d member
    · obtain rfl := List.mem_singleton.mp member
      exact good
  · refine List.pairwise_append.mpr ⟨sound.order, List.pairwise_singleton _ _, ?_⟩
    intro d member e written
    obtain rfl := List.mem_singleton.mp written
    rcases List.mem_append.mp member with before | last
    · exact advances.trans _ _ _ ((List.pairwise_append.mp sound.order).2.2 d before _
        (List.mem_singleton_self _)) later
    · obtain rfl := List.mem_singleton.mp last
      exact later
  · intro c member
    obtain ⟨allowed, fits⟩ := sound.clients c member
    exact ⟨allowed, fits.mono (List.subset_append_left _ _)⟩

theorem sound_step (advances : Advances decision Allowed Good Later) (s : State α Op ρ ε)
    (event : Event Op) (s' : State α Op ρ ε)
    (sound : Sound decision Allowed Settles Good Later s)
    (admissible : Admissible Allowed Settles s event) (stepped : step decision s event = some s') :
    Sound decision Allowed Settles Good Later s' := by
  cases event with
  | call op =>
      obtain rfl := Option.some.inj stepped
      refine ⟨sound.good, sound.order, ?_⟩
      intro c member
      rcases List.mem_append.mp member with member | member
      · exact sound.clients c member
      · obtain rfl := List.mem_singleton.mp member
        exact ⟨admissible, trivial⟩
  | load i =>
      simp only [step] at stepped
      split at stepped
      · rename_i op attempt present
        obtain rfl := Option.some.inj stepped
        exact sound.setPhase present (data_mem_contents s)
      · cases stepped
  | settle i =>
      simp only [step] at stepped
      split at stepped
      · rename_i op attempt snapshot present
        have loaded : snapshot ∈ s.contents := (sound.clients _ (List.mem_of_getElem? present)).2
        rw [Admissible, present] at admissible
        split at stepped
        · rename_i result decides
          obtain rfl := Option.some.inj stepped
          exact sound.setPhase present
            (.returns snapshot loaded admissible decides)
        · obtain rfl := Option.some.inj stepped
          exact sound.setPhase present trivial
        · rename_i value result decides
          obtain rfl := Option.some.inj stepped
          exact sound.setPhase present ⟨loaded, decides⟩
      · cases stepped
  | land i =>
      simp only [step] at stepped
      split at stepped
      · rename_i op attempt snapshot value result present
        split at stepped
        · rename_i current
          subst current
          obtain rfl := Option.some.inj stepped
          obtain ⟨allowed, loaded, decides⟩ := sound.clients _ (List.mem_of_getElem? present)
          refine (sound.write advances allowed decides).setPhase present ?_
          exact .writes _ value (List.mem_append_left _ loaded) (data_mem_contents _) decides
        · cases stepped
      · rename_i op snapshot value present
        split at stepped
        · rename_i current
          subst current
          obtain rfl := Option.some.inj stepped
          obtain ⟨allowed, loaded, result, decides⟩ := sound.clients _ (List.mem_of_getElem? present)
          exact (sound.write advances allowed decides).setPhase present trivial
        · cases stepped
      · cases stepped
  | refuse i =>
      simp only [step] at stepped
      split at stepped
      · rename_i present
        split at stepped <;> obtain rfl := Option.some.inj stepped <;>
          exact sound.setPhase present trivial
      · rename_i present
        obtain rfl := Option.some.inj stepped
        exact sound.setPhase present trivial
      · cases stepped
  | abandon i =>
      simp only [step] at stepped
      split at stepped
      · rename_i present
        obtain rfl := Option.some.inj stepped
        obtain ⟨-, loaded, decides⟩ := sound.clients _ (List.mem_of_getElem? present)
        exact sound.setPhase present ⟨loaded, _, decides⟩
      · cases stepped

theorem sound_of_run (advances : Advances decision Allowed Good Later) {events : List (Event Op)}
    (admissible : Throughout (step decision) (Admissible Allowed Settles) {} events)
    (ran : run (step decision) {} events = some s) :
    Sound decision Allowed Settles Good Later s := by
  refine admissible.invariant ran (sound_step advances) ⟨?_, List.pairwise_singleton _ _, ?_⟩
  · intro d member
    obtain rfl := List.mem_singleton.mp member
    exact advances.start
  · intro c member
    cases member

omit [DecidableEq α] in
theorem Sound.compare (sound : Sound decision Allowed Settles Good Later s) {d e : Option α}
    (hd : d ∈ s.contents) (he : e ∈ s.contents) : d = e ∨ Later d e ∨ Later e d := by
  obtain ⟨i, hi, rfl⟩ := List.mem_iff_getElem.mp hd
  obtain ⟨j, hj, rfl⟩ := List.mem_iff_getElem.mp he
  have order := List.pairwise_iff_getElem.mp sound.order
  rcases Nat.lt_trichotomy i j with before | rfl | after
  · exact Or.inr (Or.inl (order i j hi hj before))
  · exact Or.inl rfl
  · exact Or.inr (Or.inr (order j i hj hi after))

omit [DecidableEq α] in
theorem Sound.latest (sound : Sound decision Allowed Settles Good Later s) {d : Option α}
    (member : d ∈ s.contents) : d = s.data ∨ Later d s.data := by
  rcases List.mem_append.mp member with before | last
  · exact Or.inr ((List.pairwise_append.mp sound.order).2.2 d before _ (List.mem_singleton_self _))
  · exact Or.inl (List.mem_singleton.mp last)

/-! ## Results are kept -/

theorem step_clients {event : Event Op} (stepped : step decision s event = some s') :
    (∃ c, s'.clients = s.clients ++ [c]) ∨
      ∃ i c c', s.clients[i]? = some c ∧ (∀ result, c.phase ≠ .returned result) ∧
        s'.clients = s.clients.set i c' := by
  cases event with
  | call op =>
      obtain rfl := Option.some.inj stepped
      exact Or.inl ⟨_, rfl⟩
  | load i =>
      simp only [step] at stepped
      split at stepped
      · rename_i present
        obtain rfl := Option.some.inj stepped
        exact Or.inr ⟨i, _, _, present, fun _ => nofun, rfl⟩
      · cases stepped
  | settle i =>
      simp only [step] at stepped
      split at stepped
      · rename_i present
        right
        split at stepped <;> obtain rfl := Option.some.inj stepped <;>
          exact ⟨i, _, _, present, fun _ => nofun, rfl⟩
      · cases stepped
  | land i =>
      simp only [step] at stepped
      split at stepped
      · rename_i present
        split at stepped
        · obtain rfl := Option.some.inj stepped
          exact Or.inr ⟨i, _, _, present, fun _ => nofun, rfl⟩
        · cases stepped
      · rename_i present
        split at stepped
        · obtain rfl := Option.some.inj stepped
          exact Or.inr ⟨i, _, _, present, fun _ => nofun, rfl⟩
        · cases stepped
      · cases stepped
  | refuse i =>
      simp only [step] at stepped
      split at stepped
      · rename_i present
        right
        split at stepped <;> obtain rfl := Option.some.inj stepped <;>
          exact ⟨i, _, _, present, fun _ => nofun, rfl⟩
      · rename_i present
        obtain rfl := Option.some.inj stepped
        exact Or.inr ⟨i, _, _, present, fun _ => nofun, rfl⟩
      · cases stepped
  | abandon i =>
      simp only [step] at stepped
      split at stepped
      · rename_i present
        obtain rfl := Option.some.inj stepped
        exact Or.inr ⟨i, _, _, present, fun _ => nofun, rfl⟩
      · cases stepped

theorem returned_stays {c : Client α Op ρ ε} {result : ρ} (returned : c.phase = .returned result)
    {events : List (Event Op)} (ran : run (step decision) s events = some s')
    (member : c ∈ s.clients) : c ∈ s'.clients := by
  refine @run_invariant _ _ _ (fun s => c ∈ s.clients) _ _ _ ran ?_ member
  intro s event s' member stepped
  rcases step_clients stepped with ⟨added, same⟩ | ⟨i, old, new, present, running, same⟩
  · rw [same]
    exact List.mem_append_left _ member
  · rw [same]
    obtain ⟨j, inside, rfl⟩ := List.mem_iff_getElem.mp member
    have other : i ≠ j := by
      rintro rfl
      obtain rfl := Option.some.inj ((List.getElem?_eq_getElem inside).symm.trans present)
      exact running result returned
    refine List.mem_iff_getElem.mpr ⟨j, by rwa [List.length_set], ?_⟩
    rw [List.getElem_set_of_ne other]

end GenSubnet.Library.Optimistic
