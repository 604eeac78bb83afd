import GenSubnet.Witness.ProofPool
import Mathlib

/-!
# Service of the pool

The pending calls are the latest ones, from some call on. Every context is kept, leased or just made,
and once; so a pending call waits for a context that another call holds.
-/

namespace GenSubnet.Witness.ProofPool
open Library System

variable {X : Type}

/-! ## Contexts in lists -/

section
variable {α : Type} {f : α → Option X}

theorem coe_filterMap_cons (item : α) (rest : List α) :
    ((item :: rest).filterMap f : Multiset X) = (f item).toList + (rest.filterMap f : Multiset X) := by
  cases here : f item <;> simp [List.filterMap_cons, here]

theorem coe_filterMap_concat (items : List α) (item : α) :
    ((items ++ [item]).filterMap f : Multiset X) = (items.filterMap f : Multiset X) + (f item).toList := by
  rw [List.filterMap_append, ← Multiset.coe_add]
  congr 1

theorem coe_filterMap_set {items : List α} {i : Nat} {old : α} (is : items[i]? = some old) (new : α) :
    ((items.set i new).filterMap f : Multiset X) + (f old).toList =
      (items.filterMap f : Multiset X) + (f new).toList := by
  induction items generalizing i with
  | nil => simp at is
  | cons item rest ih =>
      cases i with
      | zero =>
          rw [List.getElem?_cons_zero, Option.some.injEq] at is
          subst is
          rw [List.set_cons_zero, coe_filterMap_cons, coe_filterMap_cons]
          abel
      | succ i =>
          rw [List.getElem?_cons_succ] at is
          rw [List.set_cons_succ, coe_filterMap_cons, coe_filterMap_cons, add_assoc, ih is, add_assoc]

theorem filterMap_set_eq {items : List α} {i : Nat} {old new : α} (is : items[i]? = some old)
    (same : f new = f old) :
    ((items.set i new).filterMap f : Multiset X) = items.filterMap f := by
  have moved := coe_filterMap_set (f := f) is new
  rw [same] at moved
  exact add_right_cancel moved

theorem coe_filterMap_eraseIdx {items : List α} {i : Nat} {old : α} (is : items[i]? = some old) :
    ((items.eraseIdx i).filterMap f : Multiset X) + (f old).toList = items.filterMap f := by
  induction items generalizing i with
  | nil => simp at is
  | cons item rest ih =>
      cases i with
      | zero =>
          rw [List.getElem?_cons_zero, Option.some.injEq] at is
          subst is
          rw [List.eraseIdx_zero, List.tail_cons, coe_filterMap_cons]
          abel
      | succ i =>
          rw [List.getElem?_cons_succ] at is
          rw [List.eraseIdx_cons_succ, coe_filterMap_cons, coe_filterMap_cons, add_assoc, ih is]

end

/-! ## The queue -/

/-- The waiting calls are those that are pending, and all calls from the first of them on. -/
def Queue (calls : List (Call X)) (waiting : List Nat) : Prop :=
  ∃ first ≤ calls.length, waiting = List.range' first (calls.length - first) ∧
    ∀ i call, calls[i]? = some call → (call = .waiting none ↔ first ≤ i)

section
variable {calls : List (Call X)} {waiting : List Nat}

theorem queue_nil_iff : Queue calls [] ↔ ∀ i : Nat, calls[i]? ≠ some (.waiting none) := by
  constructor
  · rintro ⟨first, le, empty, pending⟩ i is
    have none : calls.length - first = 0 := by simpa using congrArg List.length empty.symm
    have inside : i < calls.length := (List.getElem?_eq_some_iff.mp is).1
    have after := (pending i _ is).mp rfl
    omega
  · intro served
    refine ⟨calls.length, le_rfl, by simp, ?_⟩
    intro i call is
    have inside : i < calls.length := (List.getElem?_eq_some_iff.mp is).1
    constructor
    · rintro rfl
      exact absurd is (served i)
    · intro after
      omega

theorem Queue.head {ready : Nat} {rest : List Nat} (queue : Queue calls (ready :: rest)) :
    calls[ready]? = some (.waiting none) ∧ ∀ i < ready, calls[i]? ≠ some (Call.waiting none) := by
  obtain ⟨first, le, range, pending⟩ := queue
  have positive : calls.length - first ≠ 0 := by
    intro zero
    rw [zero] at range
    cases range
  obtain ⟨more, length⟩ := Nat.exists_eq_succ_of_ne_zero positive
  rw [length, List.range'_succ, List.cons.injEq] at range
  obtain ⟨rfl, -⟩ := range
  constructor
  · have inside : ready < calls.length := by omega
    rw [List.getElem?_eq_getElem inside]
    exact congrArg some ((pending ready _ (List.getElem?_eq_getElem inside)).mpr le_rfl)
  · intro i before is
    have after := (pending i _ is).mp rfl
    omega

theorem Queue.send {ready : Nat} {rest : List Nat} (queue : Queue calls (ready :: rest))
    (lease : PythonProofLease X) :
    System.send lease calls ready = some (calls.set ready (.waiting (some lease))) ∧
      Queue (calls.set ready (.waiting (some lease))) rest := by
  have head := queue.head.1
  refine ⟨by simp [System.send, head], ?_⟩
  obtain ⟨first, le, range, pending⟩ := queue
  have positive : calls.length - first ≠ 0 := by
    intro zero
    rw [zero] at range
    cases range
  obtain ⟨more, length⟩ := Nat.exists_eq_succ_of_ne_zero positive
  rw [length, List.range'_succ, List.cons.injEq] at range
  obtain ⟨rfl, range⟩ := range
  refine ⟨ready + 1, by rw [List.length_set]; omega, ?_, ?_⟩
  · rw [range, List.length_set]
    exact congrArg (List.range' (ready + 1)) (by omega)
  · intro i call is
    by_cases here : ready = i
    · subst here
      have inside : ready < calls.length := by omega
      rw [List.getElem?_set_self inside, Option.some.injEq] at is
      subst is
      constructor
      · intro same
        cases same
      · intro after
        omega
    · rw [List.getElem?_set_ne here] at is
      rw [pending i call is]
      omega

theorem Queue.sendAll (queue : Queue calls waiting) (err : String) :
    ∃ after, waiting.foldlM (System.send (.error err)) calls = some after ∧ Queue after [] ∧
      (after.filterMap Call.context : Multiset X) = calls.filterMap Call.context := by
  induction waiting generalizing calls with
  | nil => exact ⟨calls, rfl, queue, rfl⟩
  | cons ready rest ih =>
      obtain ⟨sent, later⟩ := queue.send (.error err)
      obtain ⟨after, folded, served, same⟩ := ih later
      refine ⟨after, ?_, served, ?_⟩
      · rw [List.foldlM_cons, sent]
        exact folded
      · exact same.trans (filterMap_set_eq queue.head.1 rfl)

theorem Queue.arrive (queue : Queue calls waiting) :
    Queue (calls ++ [.waiting none]) (waiting ++ [calls.length]) := by
  obtain ⟨first, le, rfl, pending⟩ := queue
  refine ⟨first, by rw [List.length_append]; omega, ?_, ?_⟩
  · have length : (calls ++ [Call.waiting none]).length - first = (calls.length - first) + 1 := by
      rw [List.length_append, List.length_singleton]
      omega
    rw [length, List.range'_concat, Nat.one_mul, Nat.add_sub_cancel' le]
  · intro i call is
    rw [List.getElem?_append] at is
    split at is
    · exact pending i call is
    · rename_i beyond
      have here : i - calls.length = 0 := by
        by_contra later
        rw [List.getElem?_singleton, if_neg later] at is
        cases is
      rw [here] at is
      cases is
      constructor
      · intro _
        omega
      · intro _
        rfl

theorem Queue.served (queue : Queue calls []) {call : Call X} (answered : call ≠ .waiting none) :
    Queue (calls ++ [call]) [] := by
  rw [queue_nil_iff] at queue ⊢
  intro i is
  rw [List.getElem?_append] at is
  split at is
  · exact queue i is
  · have inside := List.mem_of_getElem? is
    exact answered (List.mem_singleton.mp inside).symm

theorem Queue.set (queue : Queue calls waiting) {i : Nat} {old new : Call X}
    (is : calls[i]? = some old) (before : old ≠ .waiting none) (after : new ≠ .waiting none) :
    Queue (calls.set i new) waiting := by
  obtain ⟨first, le, range, pending⟩ := queue
  refine ⟨first, by rwa [List.length_set], by rwa [List.length_set], ?_⟩
  intro j call js
  by_cases here : i = j
  · subst here
    have inside : i < calls.length := (List.getElem?_eq_some_iff.mp is).1
    rw [List.getElem?_set_self inside, Option.some.injEq] at js
    subst js
    have answered := pending i old is
    constructor
    · intro same
      exact absurd same after
    · intro later
      exact absurd (answered.mpr later) before
  · rw [List.getElem?_set_ne here] at js
    exact pending j call js

theorem Queue.ordered (queue : Queue calls waiting) {i j : Nat} (pending : calls[i]? = some (.waiting none))
    (later : i < j) (arrived : j < calls.length) : calls[j]? = some (.waiting none) := by
  obtain ⟨first, -, -, exactly⟩ := queue
  have after := (exactly i _ pending).mp rfl
  rw [List.getElem?_eq_getElem arrived]
  exact congrArg some ((exactly j _ (List.getElem?_eq_getElem arrived)).mpr (by omega))

theorem Queue.pending_waits (queue : Queue calls waiting) {i : Nat}
    (pending : calls[i]? = some (.waiting none)) : waiting ≠ [] := by
  rintro rfl
  exact queue_nil_iff.mp queue i pending

end


/-! ## The invariant -/

def leased (calls : List (Call X)) : Multiset X := calls.filterMap Call.context

def Initializer.context : Initializer X → Option X
  | .finished (.ok context) => some context
  | _ => none

def made (initializers : List (Initializer X)) : Multiset X := initializers.filterMap Initializer.context

/-- The pool between two steps, and inside a step that has contexts in hand. -/
structure Sound (s : System X) (hand : List X) : Prop where
  contexts : (s.pool.available : Multiset X) + leased s.calls + made s.initializers + hand = s.created
  distinct : s.created.Nodup
  count : s.pool.count = s.pool.available.length + (leased s.calls).card + hand.length
  positive : 0 < s.pool.count
  bound : s.pool.count + s.initializers.length ≤ s.pool.limit
  flag : s.initializers.length = s.pool.initializing.toNat
  queue : Queue s.calls s.pool.waiting
  idle : s.pool.waiting ≠ [] → s.pool.available = []
  failed : s.pool.initializeError ≠ none → s.pool.waiting = [] ∧ s.initializers = []

theorem sound_new (first : X) {limit : Nat} (positive : 0 < limit) :
    Sound (newPythonProofPool first limit) [] where
  contexts := rfl
  distinct := List.nodup_singleton first
  count := rfl
  positive := Nat.one_pos
  bound := positive
  flag := rfl
  queue := queue_nil_iff.mpr fun i => by simp [newPythonProofPool]
  idle none := absurd rfl none
  failed none := absurd rfl none

section
variable {s s' : System X} {hand : List X}

theorem Sound.growIfNeeded (sound : Sound s hand) : Sound s.growIfNeeded hand := by
  unfold System.growIfNeeded
  split
  · rename_i needed
    obtain ⟨demand, room, free⟩ := needed
    have none : s.initializers.length = 0 := by
      rw [sound.flag, Bool.eq_false_of_not_eq_true free]
      rfl
    have same : made (s.initializers ++ [.running]) = made s.initializers :=
      (coe_filterMap_concat _ _).trans (add_zero _)
    refine { sound with contexts := ?_, bound := ?_, flag := ?_, failed := ?_ }
    · simp only [same]
      exact sound.contexts
    · simp only [List.length_append, List.length_singleton, none]
      exact room
    · simp [none]
    · intro failed
      exact absurd (sound.failed failed).1 demand
  · exact sound

theorem Sound.acquire (sound : Sound s []) : Sound s.acquire [] := by
  unfold System.acquire
  split
  · rename_i err failed
    have quiet := sound.failed (by simp [failed])
    have same : leased (s.calls ++ [.returned (.error err)]) = leased s.calls :=
      (coe_filterMap_concat _ _).trans (add_zero _)
    refine { sound with contexts := ?_, count := ?_, queue := ?_ }
    · simp only [same]
      exact sound.contexts
    · simp only [same]
      exact sound.count
    · have served := sound.queue
      rw [quiet.1] at served ⊢
      exact served.served (by simp)
  · split
    · rename_i context last
      have parts : s.pool.available = s.pool.available.dropLast ++ [context] :=
        (List.dropLast_append_getLast? context last).symm
      have one : leased (s.calls ++ [.returned (.ok context)]) = leased s.calls + {context} :=
        coe_filterMap_concat _ _
      have kept : s.pool.available ≠ [] := by
        rw [parts]
        simp
      have quiet : s.pool.waiting = [] := by
        by_contra waits
        exact kept (sound.idle waits)
      refine { sound with contexts := ?_, count := ?_, queue := ?_, idle := ?_ }
      · have contexts := sound.contexts
        rw [parts, ← Multiset.coe_add, Multiset.coe_singleton] at contexts
        simp only [one]
        rw [← contexts]
        abel
      · have count := sound.count
        rw [parts, List.length_append, List.length_singleton] at count
        simp only [one, Multiset.card_add, Multiset.card_singleton]
        omega
      · have served := sound.queue
        rw [quiet] at served ⊢
        exact served.served (by simp)
      · intro waits
        exact absurd quiet waits
    · rename_i running _ empty
      have nothing : s.pool.available = [] := List.getLast?_eq_none_iff.mp empty
      have same : leased (s.calls ++ [.waiting none]) = leased s.calls :=
        (coe_filterMap_concat _ _).trans (add_zero _)
      apply Sound.growIfNeeded
      refine { sound with contexts := ?_, count := ?_, queue := sound.queue.arrive, idle := ?_, failed := ?_ }
      · simp only [same]
        exact sound.contexts
      · simp only [same]
        exact sound.count
      · intro _
        exact nothing
      · intro failed
        exact absurd running failed

theorem Sound.receive {call : Nat} (sound : Sound s []) (stepped : s.receive call = some s') :
    Sound s' [] := by
  unfold System.receive at stepped
  split at stepped
  · rename_i lease is
    obtain rfl := Option.some.inj stepped
    have same : leased (s.calls.set call (.returned lease)) = leased s.calls := by
      apply filterMap_set_eq is
      cases lease <;> rfl
    refine { sound with contexts := ?_, count := ?_, queue := ?_ }
    · simp only [same]
      exact sound.contexts
    · simp only [same]
      exact sound.count
    · exact sound.queue.set is (by simp) (by simp)
  · cases stepped

theorem Sound.handoff {context : X} (sound : Sound s [context]) :
    ∃ after, s.handoff context = some after ∧ Sound after [] ∧ Serves s context after := by
  unfold System.handoff
  split
  · rename_i quiet
    refine ⟨_, rfl, ?_, ?_⟩
    · refine { sound with contexts := ?_, count := ?_, idle := fun waits => absurd quiet waits }
      · have contexts := sound.contexts
        rw [← contexts]
        simp only [← Multiset.coe_add]
        abel
      · have count := sound.count
        simp only [List.length_append, List.length_singleton, List.length_nil] at count ⊢
        omega
    · constructor
      · rintro ⟨call, pending⟩
        exact absurd quiet (sound.queue.pending_waits pending)
      · intro _
        exact List.mem_append_right _ List.mem_cons_self
  · rename_i ready rest waits
    have queue := sound.queue
    rw [waits] at queue
    obtain ⟨sent, later⟩ := queue.send (.ok context)
    obtain ⟨pending, first⟩ := queue.head
    rw [sent]
    have one : leased (s.calls.set ready (.waiting (some (.ok context)))) = leased s.calls + {context} := by
      have moved := coe_filterMap_set (f := Call.context) pending (.waiting (some (.ok context)))
      simpa [leased, Call.context] using moved
    refine ⟨_, rfl, ?_, ?_⟩
    · refine { sound with contexts := ?_, count := ?_, queue := later, idle := ?_, failed := ?_ }
      · have contexts := sound.contexts
        rw [← contexts]
        simp only [one, Multiset.coe_singleton]
        abel
      · have count := sound.count
        simp only [one, Multiset.card_add, Multiset.card_singleton, List.length_singleton,
          List.length_nil] at count ⊢
        omega
      · intro _
        exact sound.idle (by simp [waits])
      · intro failed
        have quiet := (sound.failed failed).1
        rw [waits] at quiet
        cases quiet
    · constructor
      · intro _
        refine ⟨ready, pending, first, ?_⟩
        have inside : ready < s.calls.length := (List.getElem?_eq_some_iff.mp pending).1
        exact List.getElem?_set_self inside
      · intro none
        exact absurd ⟨ready, pending⟩ none

end


section
variable {s s' : System X} {context : X}

theorem Serves.of_set {call : Nat} {old new : Call X} {after : System X} (is : s.calls[call]? = some old)
    (before : old ≠ .waiting none) (answered : new ≠ .waiting none)
    (serves : Serves { s with calls := s.calls.set call new } context after) : Serves s context after := by
  have pending (i : Nat) : System.Pending { s with calls := s.calls.set call new } i ↔ s.Pending i := by
    unfold System.Pending
    by_cases here : call = i
    · subst here
      have inside : call < s.calls.length := (List.getElem?_eq_some_iff.mp is).1
      simp only [List.getElem?_set_self inside, is, Option.some.injEq, answered, before]
    · simp only [List.getElem?_set_ne here]
  constructor
  · rintro ⟨i, waits⟩
    obtain ⟨first, waiting, least, given⟩ := serves.oldest ⟨i, (pending i).mpr waits⟩
    exact ⟨first, (pending first).mp waiting,
      fun other earlier waits => least other earlier ((pending other).mpr waits), given⟩
  · intro none
    exact serves.kept fun ⟨i, waits⟩ => none ⟨i, (pending i).mp waits⟩

theorem Sound.release {call : Nat} (sound : Sound s [])
    (is : s.calls[call]? = some (.returned (.ok context))) :
    ∃ after, s.release call = some after ∧ Sound after [] ∧ Serves s context after := by
  have moved := coe_filterMap_set (f := Call.context) is .released
  have one : leased (s.calls.set call .released) + {context} = leased s.calls := by
    simpa [leased, Call.context] using moved
  have hand : Sound { s with calls := s.calls.set call .released } [context] := by
    refine { sound with contexts := ?_, count := ?_, queue := ?_ }
    · have contexts := sound.contexts
      rw [← contexts, ← one, Multiset.coe_singleton]
      simp only [Multiset.coe_nil]
      abel
    · have count := sound.count
      rw [← one, Multiset.card_add, Multiset.card_singleton] at count
      simp only [List.length_singleton, List.length_nil] at count ⊢
      omega
    · exact sound.queue.set is (by simp) (by simp)
  obtain ⟨after, handed, sound', serves⟩ := hand.handoff
  refine ⟨after, ?_, sound', serves.of_set is (by simp) (by simp)⟩
  simp only [System.release, is]
  exact handed

variable [DecidableEq X]

theorem Sound.finish {i : Nat} {outcome : Outcome X} (sound : Sound s [])
    (stepped : s.finish i outcome = some s') : Sound s' [] := by
  have failing (err : String) (is : s.initializers[i]? = some .running) :
      Sound { s with initializers := s.initializers.set i (.finished (.error err)) } [] := by
    have same : made (s.initializers.set i (.finished (.error err))) = made s.initializers :=
      filterMap_set_eq is rfl
    refine { sound with contexts := ?_, bound := ?_, flag := ?_, failed := ?_ }
    · simp only [same]
      exact sound.contexts
    · simp only [List.length_set]
      exact sound.bound
    · simp only [List.length_set]
      exact sound.flag
    · intro failed
      obtain ⟨quiet, none⟩ := sound.failed failed
      simp [quiet, none]
  unfold System.finish at stepped
  split at stepped
  · rename_i is
    cases outcome with
    | failure err =>
        obtain rfl := Option.some.inj stepped
        exact failing err is
    | panic =>
        obtain rfl := Option.some.inj stepped
        exact failing _ is
    | success context =>
        simp only at stepped
        split at stepped
        · cases stepped
        · rename_i fresh
          obtain rfl := Option.some.inj stepped
          have one : made (s.initializers.set i (.finished (.ok context))) = made s.initializers + {context} := by
            have moved := coe_filterMap_set (f := Initializer.context) is (.finished (.ok context))
            simpa [made, Initializer.context] using moved
          refine { sound with contexts := ?_, distinct := ?_, bound := ?_, flag := ?_, failed := ?_ }
          · have contexts := sound.contexts
            simp only [one]
            rw [← Multiset.coe_add, ← contexts, Multiset.coe_singleton]
            abel
          · rw [List.nodup_append]
            refine ⟨sound.distinct, List.nodup_singleton context, ?_⟩
            rintro other member same inside rfl
            exact fresh (List.mem_singleton.mp inside ▸ member)
          · simp only [List.length_set]
            exact sound.bound
          · simp only [List.length_set]
            exact sound.flag
          · intro failed
            obtain ⟨quiet, none⟩ := sound.failed failed
            simp [quiet, none]
  · cases stepped

theorem growIfNeeded_calls (s : System X) : s.growIfNeeded.calls = s.calls := by
  unfold System.growIfNeeded
  split <;> rfl

theorem growIfNeeded_available (s : System X) : s.growIfNeeded.pool.available = s.pool.available := by
  unfold System.growIfNeeded
  split <;> rfl

theorem Sound.grow {i : Nat} {result : PythonProofLease X} (sound : Sound s [])
    (is : s.initializers[i]? = some (.finished result)) :
    ∃ after, s.grow i = some after ∧ Sound after [] ∧
      ∀ context, result = .ok context → Serves s context after := by
  have inside : i < s.initializers.length := (List.getElem?_eq_some_iff.mp is).1
  have one : s.initializers.length = 1 := by
    have flag := sound.flag
    have most := Bool.toNat_le s.pool.initializing
    omega
  have none : s.initializers.eraseIdx i = [] := by
    apply List.eq_nil_of_length_eq_zero
    rw [List.length_eraseIdx_of_lt inside]
    omega
  have erased := coe_filterMap_eraseIdx (f := Initializer.context) is
  rw [none] at erased
  have room : s.pool.count + 1 ≤ s.pool.limit := one ▸ sound.bound
  cases result with
  | error err =>
      obtain ⟨calls, sent, served, same⟩ := sound.queue.sendAll err
      have grown : s.grow i = some
          { s with
            pool := { s.pool with initializing := false, initializeError := some err, waiting := [] }
            calls, initializers := s.initializers.eraseIdx i } := by
        simp only [System.grow, is, sent, Option.map_some]
      refine ⟨_, grown, ?_, by simp⟩
      have nothing : made s.initializers = 0 := erased.symm
      refine {
        contexts := ?_, distinct := sound.distinct, count := ?_, positive := sound.positive, bound := ?_,
        flag := ?_, queue := served, idle := fun waits => absurd rfl waits, failed := ?_ }
      · have contexts := sound.contexts
        have kept : leased calls = leased s.calls := same
        rw [nothing] at contexts
        simp only [kept, none]
        exact contexts
      · have kept : leased calls = leased s.calls := same
        simp only [kept]
        exact sound.count
      · simp only [none, List.length_nil]
        omega
      · simp only [none]
        rfl
      · intro _
        exact ⟨rfl, none⟩
  | ok context =>
      have added : made s.initializers = {context} := erased.symm
      have hand : Sound
          { s with
            pool := { s.pool with initializing := false, count := s.pool.count + 1 }
            initializers := s.initializers.eraseIdx i } [context] := by
        refine { sound with
          contexts := ?_, count := ?_, positive := Nat.succ_pos _, bound := ?_, flag := ?_, failed := ?_ }
        · have contexts := sound.contexts
          rw [← contexts, added]
          simp only [none, made, List.filterMap_nil, Multiset.coe_nil, Multiset.coe_singleton]
          abel
        · have count := sound.count
          simp only [List.length_singleton, List.length_nil] at count ⊢
          omega
        · simp only [none, List.length_nil]
          omega
        · simp only [none]
          rfl
        · intro failed
          exact ⟨(sound.failed failed).1, none⟩
      obtain ⟨after, handed, sound', serves⟩ := hand.handoff
      refine ⟨after.growIfNeeded, ?_, sound'.growIfNeeded, ?_⟩
      · simp only [System.grow, is]
        rw [handed, Option.map_some]
      · rintro other same
        cases same
        constructor
        · intro pending
          obtain ⟨first, waits, least, given⟩ := serves.oldest pending
          exact ⟨first, waits, least, by rw [growIfNeeded_calls]; exact given⟩
        · intro quiet
          rw [growIfNeeded_available]
          exact serves.kept quiet

theorem Sound.step {e : Event X} (sound : Sound s []) (stepped : step s e = some s') : Sound s' [] := by
  cases e with
  | acquire =>
      obtain rfl := Option.some.inj stepped
      exact sound.acquire
  | receive call => exact sound.receive stepped
  | release call =>
      cases is : s.calls[call]? with
      | none => simp [ProofPool.step, System.release, is] at stepped
      | some state =>
          match state with
          | .returned (.ok context) =>
              obtain ⟨after, released, sound', -⟩ := sound.release is
              cases released.symm.trans stepped
              exact sound'
          | .returned (.error err) => simp [ProofPool.step, System.release, is] at stepped
          | .waiting ready => simp [ProofPool.step, System.release, is] at stepped
          | .released => simp [ProofPool.step, System.release, is] at stepped
  | finish i outcome => exact sound.finish stepped
  | grow i =>
      cases is : s.initializers[i]? with
      | none => simp [ProofPool.step, System.grow, is] at stepped
      | some state =>
          match state with
          | .running => simp [ProofPool.step, System.grow, is] at stepped
          | .finished result =>
              obtain ⟨after, grown, sound', -⟩ := sound.grow is
              cases grown.symm.trans stepped
              exact sound'

end


/-! ## What holds in every run -/

section
variable {s s' : System X}

theorem handoff_limit {context : X} (handed : s.handoff context = some s') :
    s'.pool.limit = s.pool.limit := by
  unfold System.handoff at handed
  split at handed
  · obtain rfl := Option.some.inj handed
    rfl
  · obtain ⟨calls, -, rfl⟩ := Option.map_eq_some_iff.mp handed
    rfl

theorem growIfNeeded_limit (s : System X) : s.growIfNeeded.pool.limit = s.pool.limit := by
  unfold System.growIfNeeded
  split <;> rfl

theorem step_limit [DecidableEq X] {e : Event X} (stepped : step s e = some s') :
    s'.pool.limit = s.pool.limit := by
  cases e with
  | acquire =>
      obtain rfl := Option.some.inj stepped
      unfold System.acquire
      split
      · rfl
      · split
        · rfl
        · exact growIfNeeded_limit _
  | receive call =>
      simp only [step, System.receive] at stepped
      split at stepped
      · obtain rfl := Option.some.inj stepped
        rfl
      · cases stepped
  | release call =>
      simp only [step, System.release] at stepped
      split at stepped
      · exact (handoff_limit stepped).trans rfl
      · cases stepped
  | finish i outcome =>
      simp only [step, System.finish] at stepped
      split at stepped
      · cases outcome with
        | failure err =>
            obtain rfl := Option.some.inj stepped
            rfl
        | panic =>
            obtain rfl := Option.some.inj stepped
            rfl
        | success context =>
            simp only at stepped
            split at stepped
            · cases stepped
            · obtain rfl := Option.some.inj stepped
              rfl
      · cases stepped
  | grow i =>
      simp only [step, System.grow] at stepped
      split at stepped
      · split at stepped
        · obtain ⟨calls, -, rfl⟩ := Option.map_eq_some_iff.mp stepped
          rfl
        · obtain ⟨after, handed, rfl⟩ := Option.map_eq_some_iff.mp stepped
          rw [growIfNeeded_limit]
          exact (handoff_limit handed).trans rfl
      · cases stepped

theorem place_unique {calls : List (Call X)} (nodup : (calls.filterMap Call.context).Nodup) {i j : Nat}
    {context : X} (left : (calls[i]?.bind Call.context) = some context)
    (right : (calls[j]?.bind Call.context) = some context) : i = j := by
  induction calls generalizing i j with
  | nil => simp at left
  | cons call rest ih =>
      have later {k : Nat} (is : (rest[k]?.bind Call.context) = some context) :
          context ∈ rest.filterMap Call.context := by
        obtain ⟨other, there, value⟩ := Option.bind_eq_some_iff.mp is
        exact List.mem_filterMap.mpr ⟨other, List.mem_of_getElem? there, value⟩
      have once {k : Nat} (here : call.context = some context)
          (is : (rest[k]?.bind Call.context) = some context) : False := by
        rw [List.filterMap_cons_some here] at nodup
        exact (List.nodup_cons.mp nodup).1 (later is)
      have below : (rest.filterMap Call.context).Nodup :=
        (List.Sublist.filterMap _ (List.sublist_cons_self call rest)).nodup nodup
      cases i with
      | zero =>
          cases j with
          | zero => rfl
          | succ j => exact (once left right).elim
      | succ i =>
          cases j with
          | zero => exact (once right left).elim
          | succ j => exact congrArg Nat.succ (ih below left right)

theorem Sound.leased_nodup (sound : Sound s []) : (s.calls.filterMap Call.context).Nodup := by
  have all : (s.created : Multiset X).Nodup := sound.distinct
  rw [← sound.contexts] at all
  apply Multiset.coe_nodup.mp
  apply Multiset.nodup_of_le _ all
  have part : leased s.calls ≤ (s.pool.available : Multiset X) + leased s.calls := Multiset.le_add_left _ _
  exact (part.trans (Multiset.le_add_right _ _)).trans (Multiset.le_add_right _ _)

theorem Sound.created_le (sound : Sound s []) : s.created.length ≤ s.pool.limit := by
  have cards := congrArg Multiset.card sound.contexts
  simp only [Multiset.card_add, Multiset.coe_card, List.length_nil] at cards
  have few : (made s.initializers).card ≤ s.initializers.length := List.length_filterMap_le _ _
  have count := sound.count
  have bound := sound.bound
  simp only [List.length_nil] at count
  omega

theorem Sound.pending (sound : Sound s []) {i : Nat} (pending : s.Pending i) :
    s.pool.available = [] ∧ (∃ j context, s.Leases j context) ∧ s.pool.initializeError = none := by
  have waits := sound.queue.pending_waits pending
  have empty := sound.idle waits
  refine ⟨empty, ?_, ?_⟩
  · have count := sound.count
    have positive := sound.positive
    simp only [empty, List.length_nil] at count
    obtain ⟨context, member⟩ := Multiset.card_pos_iff_exists_mem.mp (show 0 < (leased s.calls).card by omega)
    obtain ⟨call, inside, value⟩ := List.mem_filterMap.mp (Multiset.mem_coe.mp member)
    obtain ⟨j, is⟩ := List.getElem?_of_mem inside
    exact ⟨j, context, Option.bind_eq_some_iff.mpr ⟨call, is, value⟩⟩
  · by_contra failed
    exact waits (sound.failed failed).1

variable [DecidableEq X]

theorem Sound.serves (sound : Sound s []) {e : Event X} {context : X} (offer : offered s e = some context)
    (stepped : ProofPool.step s e = some s') : Serves s context s' := by
  cases e with
  | acquire => cases offer
  | receive call => cases offer
  | finish i outcome => cases offer
  | release call =>
      obtain ⟨state, is, value⟩ := Option.bind_eq_some_iff.mp offer
      have released := stepped
      simp only [ProofPool.step, System.release] at released
      split at released
      · rename_i other has
        rw [is, Option.some.injEq] at has
        subst has
        cases value
        obtain ⟨after, handed, -, serves⟩ := sound.release is
        cases handed.symm.trans stepped
        exact serves
      · cases released
  | grow i =>
      simp only [offered] at offer
      split at offer
      · rename_i other is
        cases offer
        obtain ⟨after, grown, -, serves⟩ := sound.grow is
        cases grown.symm.trans stepped
        exact serves context rfl
      · cases offer

end

/-- In every run of the pool: there are at most as many contexts as the limit allows, no two calls have
one context, no call that has come later is served before a pending one, a context goes to the call that
has been pending longest, no send blocks, and a pending call waits for a context that is leased. -/
theorem pool_serves {X : Type} [DecidableEq X] (first : X) (limit : Nat) (positive : 0 < limit)
    (s : System X) (reachable : Reachable step (· = newPythonProofPool first limit) s) :
    s.created.length ≤ limit ∧
      (∀ i j context, s.Leases i context → s.Leases j context → i = j) ∧
      (∀ i j, s.Pending i → i < j → j < s.calls.length → s.Pending j) ∧
      (∀ e context s', offered s e = some context → step s e = some s' → Serves s context s') ∧
      (∀ i context, s.calls[i]? = some (.returned (.ok context)) → (step s (.release i)).isSome) ∧
      (∀ i result, s.initializers[i]? = some (.finished result) → (step s (.grow i)).isSome) ∧
      ∀ i, s.Pending i →
        s.pool.available = [] ∧ (∃ j context, s.Leases j context) ∧ s.pool.initializeError = none := by
  have invariant : Sound s [] ∧ s.pool.limit = limit := by
    apply reachable.invariant
    · rintro s rfl
      exact ⟨sound_new first positive, rfl⟩
    · intro s e s' holds stepped
      exact ⟨holds.1.step stepped, (step_limit stepped).trans holds.2⟩
  obtain ⟨sound, same⟩ := invariant
  refine ⟨same ▸ sound.created_le, ?_, ?_, ?_, ?_, ?_, fun i pending => sound.pending pending⟩
  · intro i j context left right
    exact place_unique sound.leased_nodup left right
  · intro i j pending later arrived
    exact sound.queue.ordered pending later arrived
  · intro e context s' offer stepped
    exact sound.serves offer stepped
  · intro i context is
    obtain ⟨after, released, -, -⟩ := sound.release is
    exact Option.isSome_of_eq_some released
  · intro i result is
    obtain ⟨after, grown, -, -⟩ := sound.grow is
    exact Option.isSome_of_eq_some grown

/-- Two calls of a pool of one context, of which the second waits. -/
def oneContext : System Nat where
  pool := { available := [], waiting := [1], count := 1, limit := 1 }
  calls := [.returned (.ok 0), .waiting none]
  created := [0]

theorem oneContext_serves : ∃ j context, oneContext.Leases j context := by
  have reachable : Reachable step (· = newPythonProofPool 0 1) oneContext :=
    ⟨_, [.acquire, .acquire], rfl, rfl⟩
  obtain ⟨-, -, -, -, -, -, pending⟩ := pool_serves 0 1 (by decide) oneContext reachable
  exact (pending 1 rfl).2.1

end GenSubnet.Witness.ProofPool
