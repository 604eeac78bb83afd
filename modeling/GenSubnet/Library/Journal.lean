import GenSubnet.Library.Transition
import Mathlib.Data.List.Induction
import Mathlib.Data.List.Nodup

/-!
# Journals under compare-and-swap

A journal is one object of a store whose writes carry the etag of the version they replace. Any
number of clients change it: each loads a snapshot, computes the change, and sends a write that the
store applies if and only if the snapshot is still current; on a conflict it starts over, a bounded
number of times. A client may stop waiting for the answer of its write, which can then still arrive.

`linearizable`: whatever the interleaving, the writes that took effect form a sequential history of
the change function, and each call that returned is one of them.
-/

namespace GenSubnet.Library.Journal

variable {α Op Seed Result ε : Type*}

/-- A write that took effect, or one that is under way: its client, the operation with the fresh
values drawn for it, what it replaces, what it writes, and what the operation returns. -/
structure Commit (α Op Seed Result : Type*) where
  client : Nat
  op : Op
  seed : Seed
  before : Option α
  after : α
  result : Result

structure Store (α : Type*) where
  etag : Nat := 0
  data : Option α := none

inductive Phase (α Op Seed Result ε : Type*)
  | waiting (attempt : Nat)
  | loaded (attempt etag : Nat) (snapshot : Option α)
  | sent (attempt etag : Nat) (write : Commit α Op Seed Result)
  /-- The caller has given up on the answer; the write may still arrive. -/
  | uncertain (etag : Nat) (write : Commit α Op Seed Result)
  | returned (result : Result)
  /-- The change raised; `none` when the attempts ran out or the write is unconfirmed. -/
  | raised (error : Option ε)

structure Client (α Op Seed Result ε : Type*) where
  op : Op
  phase : Phase α Op Seed Result ε

structure State (α Op Seed Result ε : Type*) where
  store : Store α := {}
  clients : List (Client α Op Seed Result ε) := []
  commits : List (Commit α Op Seed Result) := []
  seeds : List Seed := []

inductive Event (Op Seed : Type*)
  | call (op : Op)
  | load (client : Nat)
  | send (client : Nat) (seed : Seed)
  | land (client : Nat)
  | abandon (client : Nat)

/-- How often a change is tried before the caller is told that the journal is busy. -/
def attempts : Nat := 16

def State.setPhase (s : State α Op Seed Result ε) (i : Nat) (op : Op)
    (phase : Phase α Op Seed Result ε) : State α Op Seed Result ε :=
  { s with clients := s.clients.set i ⟨op, phase⟩ }

def State.commit (s : State α Op Seed Result ε) (write : Commit α Op Seed Result) :
    State α Op Seed Result ε :=
  { s with
    store := ⟨s.store.etag + 1, some write.after⟩
    commits := s.commits ++ [write] }

variable [DecidableEq Seed] (change : Op → Seed → Option α → Except ε (α × Result))

def step (s : State α Op Seed Result ε) :
    Event Op Seed → Option (State α Op Seed Result ε)
  | .call op => some { s with clients := s.clients ++ [⟨op, .waiting 0⟩] }
  | .load i =>
      match s.clients[i]? with
      | some ⟨op, .waiting attempt⟩ =>
          some (s.setPhase i op (.loaded attempt s.store.etag s.store.data))
      | _ => none
  | .send i seed =>
      match s.clients[i]? with
      | some ⟨op, .loaded attempt etag snapshot⟩ =>
          if seed ∈ s.seeds then none
          else
            let drawn := { s with seeds := s.seeds ++ [seed] }
            match change op seed snapshot with
            | .error error => some (drawn.setPhase i op (.raised (some error)))
            | .ok (after, result) =>
                some (drawn.setPhase i op
                  (.sent attempt etag ⟨i, op, seed, snapshot, after, result⟩))
      | _ => none
  | .land i =>
      match s.clients[i]? with
      | some ⟨op, .sent attempt etag write⟩ =>
          if etag = s.store.etag then some ((s.commit write).setPhase i op (.returned write.result))
          else if attempt + 1 < attempts then some (s.setPhase i op (.waiting (attempt + 1)))
          else some (s.setPhase i op (.raised none))
      | some ⟨op, .uncertain etag write⟩ =>
          if etag = s.store.etag then some ((s.commit write).setPhase i op (.raised none))
          else some (s.setPhase i op (.raised none))
      | _ => none
  | .abandon i =>
      match s.clients[i]? with
      | some ⟨op, .sent _ etag write⟩ => some (s.setPhase i op (.uncertain etag write))
      | _ => none

/-! ## Sequential histories -/

/-- The commits are what the change function does one after the other from an absent journal, each
with a seed and for a client of its own; the journal then holds the last of them. -/
inductive Sequential : List (Commit α Op Seed Result) → Option α → Prop
  | nil : Sequential [] none
  | concat {commits : List (Commit α Op Seed Result)} {c : Commit α Op Seed Result}
      (history : Sequential commits c.before)
      (changed : change c.op c.seed c.before = .ok (c.after, c.result))
      (seed : c.seed ∉ commits.map Commit.seed)
      (client : c.client ∉ commits.map Commit.client) :
      Sequential (commits ++ [c]) (some c.after)

omit [DecidableEq Seed] in
variable {change} in
theorem Sequential.nodup {commits : List (Commit α Op Seed Result)} {data : Option α}
    (history : Sequential change commits data) : (commits.map Commit.client).Nodup := by
  induction history with
  | nil => simp
  | concat history changed seed client ih =>
      rw [List.map_append]
      exact List.Nodup.append ih (List.nodup_singleton _) (by simpa using client)

omit [DecidableEq Seed] in
variable {change} in
/-- A commit of a history is the change function's answer to what it replaced, after a history of
its own. -/
theorem Sequential.split {pre post : List (Commit α Op Seed Result)} {c : Commit α Op Seed Result}
    {data : Option α} (history : Sequential change (pre ++ c :: post) data) :
    Sequential change pre c.before ∧ change c.op c.seed c.before = .ok (c.after, c.result) ∧
      c.seed ∉ pre.map Commit.seed := by
  induction post using List.reverseRecOn generalizing data with
  | nil =>
      generalize h : pre ++ [c] = commits at history
      cases history with
      | nil => simp at h
      | concat history changed seed client =>
          obtain ⟨rfl, last⟩ := List.append_inj' h rfl
          obtain rfl := List.head_eq_of_cons_eq last
          exact ⟨history, changed, seed⟩
  | append_singleton post last ih =>
      generalize h : pre ++ c :: (post ++ [last]) = commits at history
      cases history with
      | nil => simp at h
      | concat history changed seed client =>
          rw [← List.cons_append, ← List.append_assoc] at h
          obtain ⟨rfl, -⟩ := List.append_inj' h rfl
          exact ih history

/-! ## Linearizability -/

/-- What the phase of a client says about the store and the history. -/
def Phase.Sound (s : State α Op Seed Result ε) (i : Nat) (op : Op) :
    Phase α Op Seed Result ε → Prop
  | .waiting _ => i ∉ s.commits.map Commit.client
  | .loaded _ etag snapshot => i ∉ s.commits.map Commit.client ∧
      etag ≤ s.store.etag ∧ (etag = s.store.etag → snapshot = s.store.data)
  | .sent _ etag write | .uncertain etag write => i ∉ s.commits.map Commit.client ∧
      etag ≤ s.store.etag ∧ (etag = s.store.etag → write.before = s.store.data) ∧
      write.client = i ∧ write.op = op ∧ write.seed ∈ s.seeds ∧
      write.seed ∉ s.commits.map Commit.seed ∧
      change write.op write.seed write.before = .ok (write.after, write.result)
  | .returned result => ∃ c ∈ s.commits, c.client = i ∧ c.op = op ∧ c.result = result
  | .raised _ => True

/-- The seed of a write that has not arrived yet. -/
def Phase.pendingSeed : Phase α Op Seed Result ε → Option Seed
  | .sent _ _ write | .uncertain _ write => some write.seed
  | _ => none

/-- Every client is where the store and the history say it is. -/
structure Linearized (s : State α Op Seed Result ε) : Prop where
  history : Sequential change s.commits s.store.data
  sound : ∀ (i : Nat) (client : Client α Op Seed Result ε), s.clients[i]? = some client →
    client.phase.Sound change s i client.op
  known : ∀ c ∈ s.commits, c.client < s.clients.length ∧ c.seed ∈ s.seeds
  distinct : ∀ (i j : Nat) (a b : Client α Op Seed Result ε) (seed : Seed),
    s.clients[i]? = some a → s.clients[j]? = some b →
    a.phase.pendingSeed = some seed → b.phase.pendingSeed = some seed → i = j

omit [DecidableEq Seed] in
theorem linearized_initial : Linearized change ({} : State α Op Seed Result ε) where
  history := .nil
  sound := by simp
  known := by simp
  distinct := by simp

section Steps

omit [DecidableEq Seed]
variable {change}
variable {s : State α Op Seed Result ε} {i : Nat} {op : Op} {old new : Phase α Op Seed Result ε}

theorem clients_setPhase {j : Nat} {client : Client α Op Seed Result ε}
    (at_j : (s.setPhase i op new).clients[j]? = some client) :
    (j = i ∧ client = ⟨op, new⟩) ∨ (j ≠ i ∧ s.clients[j]? = some client) := by
  simp only [State.setPhase] at at_j
  by_cases same : j = i
  · subst same
    obtain ⟨bound, h⟩ := List.getElem?_eq_some_iff.mp at_j
    rw [List.getElem_set_self] at h
    exact Or.inl ⟨rfl, h.symm⟩
  · rw [List.getElem?_set_ne (Ne.symm same)] at at_j
    exact Or.inr ⟨same, at_j⟩

theorem Linearized.setPhase (inv : Linearized change s) (sound : new.Sound change s i op)
    (fresh : ∀ seed, new.pendingSeed = some seed → ∀ j client, j ≠ i →
      s.clients[j]? = some client → client.phase.pendingSeed ≠ some seed) :
    Linearized change (s.setPhase i op new) := by
  refine ⟨inv.history, ?_, ?_, ?_⟩
  · intro j client at_j
    rcases clients_setPhase at_j with ⟨rfl, rfl⟩ | ⟨-, at_j⟩
    · exact sound
    · exact inv.sound j client at_j
  · intro c member
    have known := inv.known c member
    exact ⟨by simpa [State.setPhase] using known.1, known.2⟩
  · intro j k a b seed at_j at_k pending_a pending_b
    rcases clients_setPhase at_j with ⟨rfl, rfl⟩ | ⟨ne_j, at_j⟩
    · rcases clients_setPhase at_k with ⟨rfl, -⟩ | ⟨ne_k, at_k⟩
      · rfl
      · exact absurd pending_b (fresh seed pending_a k b ne_k at_k)
    · rcases clients_setPhase at_k with ⟨rfl, rfl⟩ | ⟨ne_k, at_k⟩
      · exact absurd pending_a (fresh seed pending_b j a ne_j ‹s.clients[j]? = some a›)
      · exact inv.distinct j k a b seed at_j at_k pending_a pending_b

theorem Linearized.settle (inv : Linearized change s) (sound : new.Sound change s i op)
    (none : new.pendingSeed = none) : Linearized change (s.setPhase i op new) := by
  refine inv.setPhase sound ?_
  intro seed pending
  rw [none] at pending
  cases pending

theorem Phase.Sound.draw {phase : Phase α Op Seed Result ε} (sound : phase.Sound change s i op)
    (seed : Seed) : phase.Sound change { s with seeds := s.seeds ++ [seed] } i op := by
  cases phase with
  | sent attempt etag write =>
      obtain ⟨h₁, h₂, h₃, h₄, h₅, h₆, h₇⟩ := sound
      exact ⟨h₁, h₂, h₃, h₄, h₅, List.mem_append_left _ h₆, h₇⟩
  | uncertain etag write =>
      obtain ⟨h₁, h₂, h₃, h₄, h₅, h₆, h₇⟩ := sound
      exact ⟨h₁, h₂, h₃, h₄, h₅, List.mem_append_left _ h₆, h₇⟩
  | waiting attempt => exact sound
  | loaded attempt etag snapshot => exact sound
  | returned result => exact sound
  | raised error => trivial

theorem Linearized.draw (inv : Linearized change s) (seed : Seed) :
    Linearized change { s with seeds := s.seeds ++ [seed] } where
  history := inv.history
  sound i client at_i := (inv.sound i client at_i).draw seed
  known c member := ⟨(inv.known c member).1, List.mem_append_left _ (inv.known c member).2⟩
  distinct := inv.distinct

theorem Phase.Sound.commit {phase : Phase α Op Seed Result ε} (sound : phase.Sound change s i op)
    {write : Commit α Op Seed Result} (other : write.client ≠ i)
    (fresh : phase.pendingSeed ≠ some write.seed) : phase.Sound change (s.commit write) i op := by
  have absent : i ∉ s.commits.map Commit.client →
      i ∉ (s.commits ++ [write]).map Commit.client := by
    intro h
    simpa [h] using fun eq : i = write.client => other eq.symm
  cases phase with
  | waiting attempt => exact absent sound
  | loaded attempt etag snapshot =>
      obtain ⟨h, bound, -⟩ := sound
      refine ⟨absent h, Nat.le_succ_of_le bound, ?_⟩
      intro eq
      simp only [State.commit] at eq
      omega
  | sent attempt etag own =>
      obtain ⟨h, bound, -, h₄, h₅, h₆, h₇, h₈⟩ := sound
      refine ⟨absent h, Nat.le_succ_of_le bound, ?_, h₄, h₅, h₆, ?_, h₈⟩
      · intro eq
        simp only [State.commit] at eq
        omega
      · have ne : own.seed ≠ write.seed := fun eq => fresh (congrArg some eq)
        simpa [State.commit, ne] using h₇
  | uncertain etag own =>
      obtain ⟨h, bound, -, h₄, h₅, h₆, h₇, h₈⟩ := sound
      refine ⟨absent h, Nat.le_succ_of_le bound, ?_, h₄, h₅, h₆, ?_, h₈⟩
      · intro eq
        simp only [State.commit] at eq
        omega
      · have ne : own.seed ≠ write.seed := fun eq => fresh (congrArg some eq)
        simpa [State.commit, ne] using h₇
  | returned result =>
      obtain ⟨c, member, h⟩ := sound
      exact ⟨c, List.mem_append_left _ member, h⟩
  | raised error => trivial

theorem Linearized.commit (inv : Linearized change s) {write : Commit α Op Seed Result} {etag : Nat}
    (at_i : s.clients[i]? = some ⟨op, old⟩) (sound : (Phase.uncertain etag write :
      Phase α Op Seed Result ε).Sound change s i op) (pending : old.pendingSeed = some write.seed)
    (current : etag = s.store.etag)
    (sound' : new.Sound change (s.commit write) i op) (done : new.pendingSeed = none) :
    Linearized change ((s.commit write).setPhase i op new) := by
  obtain ⟨absent, -, before, rfl, rfl, known, fresh, changed⟩ := sound
  have extended : Sequential change (s.commits ++ [write]) (some write.after) :=
    .concat (by rw [before current]; exact inv.history) changed fresh absent
  refine ⟨extended, ?_, ?_, ?_⟩
  · intro j client at_j
    rcases clients_setPhase at_j with ⟨rfl, rfl⟩ | ⟨ne, at_j⟩
    · exact sound'
    · have at_j : s.clients[j]? = some client := at_j
      refine Phase.Sound.commit (inv.sound j client at_j) (Ne.symm ne) ?_
      intro same
      exact ne (inv.distinct j write.client client _ _ at_j at_i same pending)
  · intro c member
    rcases List.mem_append.mp member with member | member
    · have known := inv.known c member
      exact ⟨by simpa [State.setPhase, State.commit] using known.1, known.2⟩
    · obtain rfl := List.mem_singleton.mp member
      obtain ⟨bound, -⟩ := List.getElem?_eq_some_iff.mp at_i
      exact ⟨by simpa [State.setPhase, State.commit] using bound, known⟩
  · intro j k a b seed at_j at_k pending_a pending_b
    rcases clients_setPhase at_j with ⟨rfl, rfl⟩ | ⟨ne_j, at_j⟩
    · rw [done] at pending_a
      cases pending_a
    · rcases clients_setPhase at_k with ⟨rfl, rfl⟩ | ⟨ne_k, at_k⟩
      · rw [done] at pending_b
        cases pending_b
      · exact inv.distinct j k a b seed at_j at_k pending_a pending_b

end Steps

theorem linearized_step (s : State α Op Seed Result ε) (event : Event Op Seed)
    (s' : State α Op Seed Result ε) (inv : Linearized change s)
    (stepped : step change s event = some s') : Linearized change s' := by
  cases event with
  | call op =>
      obtain rfl := Option.some.inj stepped
      have new : ∀ (j : Nat) (client : Client α Op Seed Result ε),
          (s.clients ++ [⟨op, .waiting 0⟩])[j]? = some client →
          s.clients[j]? = some client ∨ j = s.clients.length ∧ client = ⟨op, .waiting 0⟩ := by
        intro j client at_j
        rcases Nat.lt_or_ge j s.clients.length with bound | bound
        · exact Or.inl (by rwa [List.getElem?_append_left bound] at at_j)
        · rw [List.getElem?_append_right bound, List.getElem?_singleton] at at_j
          split at at_j
          · exact Or.inr ⟨by omega, (Option.some.inj at_j).symm⟩
          · cases at_j
      refine ⟨inv.history, ?_, ?_, ?_⟩
      · intro j client at_j
        rcases new j client at_j with at_j | ⟨rfl, rfl⟩
        · exact inv.sound j client at_j
        · intro member
          obtain ⟨c, member, eq⟩ := List.mem_map.mp member
          exact absurd (inv.known c member).1 (by omega)
      · intro c member
        have known := inv.known c member
        exact ⟨by simp only [List.length_append]; omega, known.2⟩
      · intro j k a b seed at_j at_k pending_a pending_b
        rcases new j a at_j with at_j | ⟨rfl, rfl⟩
        · rcases new k b at_k with at_k | ⟨rfl, rfl⟩
          · exact inv.distinct j k a b seed at_j at_k pending_a pending_b
          · cases pending_b
        · cases pending_a
  | load i =>
      simp only [step] at stepped
      split at stepped
      · rename_i op attempt at_i
        obtain rfl := Option.some.inj stepped
        exact inv.settle ⟨inv.sound i _ at_i, Nat.le_refl _, fun _ => rfl⟩ rfl
      · cases stepped
  | send i seed =>
      simp only [step] at stepped
      split at stepped
      · rename_i op attempt etag snapshot at_i
        obtain ⟨absent, bound, current⟩ := inv.sound i _ at_i
        split at stepped
        · cases stepped
        · rename_i fresh
          have drawn := inv.draw seed
          cases changed : change op seed snapshot with
          | error error =>
              simp only [changed] at stepped
              obtain rfl := Option.some.inj stepped
              exact drawn.settle trivial rfl
          | ok answer =>
              simp only [changed] at stepped
              obtain rfl := Option.some.inj stepped
              refine drawn.setPhase ⟨absent, bound, current, rfl, rfl, by simp, ?_, changed⟩ ?_
              · intro member
                obtain ⟨c, member, rfl⟩ := List.mem_map.mp member
                exact fresh (inv.known c member).2
              · intro other pending j client ne at_j same
                obtain rfl : seed = other := Option.some.inj pending
                have sound := inv.sound j client at_j
                cases phase : client.phase with
                | sent attempt etag write =>
                    rw [phase] at sound same
                    exact fresh (Option.some.inj same ▸ sound.2.2.2.2.2.1)
                | uncertain etag write =>
                    rw [phase] at sound same
                    exact fresh (Option.some.inj same ▸ sound.2.2.2.2.2.1)
                | waiting _ | loaded _ _ _ | returned _ | raised _ =>
                    rw [phase] at same
                    cases same
      · cases stepped
  | land i =>
      simp only [step] at stepped
      split at stepped
      · rename_i op attempt etag write at_i
        have sound := inv.sound i _ at_i
        split at stepped
        · rename_i current
          obtain rfl := Option.some.inj stepped
          refine inv.commit at_i sound rfl current ?_ rfl
          exact ⟨write, by simp [State.commit], sound.2.2.2.1, sound.2.2.2.2.1, rfl⟩
        · split at stepped
          · obtain rfl := Option.some.inj stepped
            exact inv.settle sound.1 rfl
          · obtain rfl := Option.some.inj stepped
            exact inv.settle trivial rfl
      · rename_i op etag write at_i
        have sound := inv.sound i _ at_i
        split at stepped
        · rename_i current
          obtain rfl := Option.some.inj stepped
          exact inv.commit at_i sound rfl current trivial rfl
        · obtain rfl := Option.some.inj stepped
          exact inv.settle trivial rfl
      · cases stepped
  | abandon i =>
      simp only [step] at stepped
      split at stepped
      · rename_i op attempt etag write at_i
        obtain rfl := Option.some.inj stepped
        refine inv.setPhase (inv.sound i _ at_i) ?_
        intro seed pending j client ne at_j same
        exact ne (inv.distinct j i client _ seed at_j at_i same pending)
      · cases stepped

/-- In every interleaving the writes that took effect are a sequential history of the change
function, and the store holds what the last of them wrote. -/
theorem linearizable {events : List (Event Op Seed)} {s : State α Op Seed Result ε}
    (ran : run (step change) {} events = some s) : Linearized change s :=
  run_invariant ran (linearized_step change) (linearized_initial change)

end GenSubnet.Library.Journal
