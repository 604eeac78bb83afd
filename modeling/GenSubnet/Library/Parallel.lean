import GenSubnet.Library.Effects

/-!
# Programs side by side

Any number of programs run over one world, which answers one request at a time. What each of them
ensures while the others keep the rules, all of them ensure together.
-/

namespace GenSubnet.Library.Effects

/-- The world with the programs that may be started in it; a move is no program's. -/
structure Shared (σ : Type) (Q : Type) (R : Q → Type) (ε α M C K : Type) where
  move : σ → M → Option σ
  answer : σ → (request : Q) → C → Option (Except ε (R request) × σ)
  body : K → Prog Q R ε α

/-- A call with the world in which it began and what is left of its program. -/
structure Process (σ : Type) (Q : Type) (R : Q → Type) (ε α K : Type) where
  call : K
  began : σ
  rest : Prog Q R ε α

structure Crowd (σ : Type) (Q : Type) (R : Q → Type) (ε α K : Type) where
  world : σ
  processes : List (Process σ Q R ε α K) := []

inductive CrowdEvent (M C K : Type)
  | move (m : M)
  | start (k : K)
  | answer (process : Nat) (c : C)

variable {σ Q : Type} {R : Q → Type} {ε α M C K : Type} (shared : Shared σ Q R ε α M C K)

def Shared.step (s : Crowd σ Q R ε α K) : CrowdEvent M C K → Option (Crowd σ Q R ε α K)
  | .move m => (shared.move s.world m).map fun world => { s with world }
  | .start k => some { s with processes := s.processes ++ [⟨k, s.world, shared.body k⟩] }
  | .answer i c =>
      match s.processes[i]? with
      | some ⟨k, began, .ask request next⟩ =>
          (shared.answer s.world request c).map fun answered =>
            ⟨answered.2, s.processes.set i ⟨k, began, next answered.1⟩⟩
      | _ => none

/-- A call that began in a world has ended. -/
def Crowd.Ended (s : Crowd σ Q R ε α K) (k : K) (began : σ) (outcome : Except ε α) : Prop :=
  ⟨k, began, .done outcome⟩ ∈ s.processes

/-- The outcome of a call, by its number. -/
def Crowd.outcome (s : Crowd σ Q R ε α K) (i : Nat) : Option (K × Except ε α) :=
  match s.processes[i]? with
  | some ⟨k, _, .done outcome⟩ => some (k, outcome)
  | _ => none

theorem Crowd.ended_of_outcome {s : Crowd σ Q R ε α K} {i : Nat} {k : K} {outcome : Except ε α}
    (found : s.outcome i = some (k, outcome)) :
    ∃ began, (s.processes[i]?.map Process.began) = some began ∧ s.Ended k began outcome := by
  unfold Crowd.outcome at found
  split at found
  · rename_i k' began outcome' at_i
    cases found
    exact ⟨began, by rw [at_i]; rfl, List.mem_of_getElem? at_i⟩
  · cases found

/-- The moves of a run meet a condition. -/
def MovesMeet (condition : σ → M → Prop) (s : Crowd σ Q R ε α K) : CrowdEvent M C K → Prop
  | .move m => condition s.world m
  | _ => True

instance (condition : σ → M → Prop) [∀ w m, Decidable (condition w m)] (s : Crowd σ Q R ε α K) :
    ∀ event : CrowdEvent M C K, Decidable (MovesMeet condition s event)
  | .move m => inferInstanceAs (Decidable (condition s.world m))
  | .start _ | .answer _ _ => isTrue trivial

/-- The world and every program keep the rules, and what the one does is what the others expect. -/
structure Shared.Follows (rules : Rules σ Q R ε) (post : K → σ → Except ε α → σ → Prop)
    (condition : σ → M → Prop) : Prop where
  move : ∀ w m w', rules.invariant w → condition w m → shared.move w m = some w' → rules.others w w'
  answer : ∀ w request c reply w', rules.invariant w →
    shared.answer w request c = some (reply, w') → rules.answers w request reply w'
  body : ∀ k w, rules.invariant w → rules.Ensures (post k w) (shared.body k) w
  others : ∀ w w', rules.invariant w → rules.others w w' → rules.invariant w'
  guarantee : ∀ w w', rules.invariant w → rules.guarantee w w' → rules.others w w'

structure Crowd.Safe (rules : Rules σ Q R ε) (post : K → σ → Except ε α → σ → Prop)
    (s : Crowd σ Q R ε α K) : Prop where
  invariant : rules.invariant s.world
  processes : ∀ p ∈ s.processes, rules.Ensures (post p.call p.began) p.rest s.world

variable {shared} {rules : Rules σ Q R ε} {post : K → σ → Except ε α → σ → Prop}
  {condition : σ → M → Prop} {s t : Crowd σ Q R ε α K}

/-- What a step is. -/
inductive Shared.Stepped (shared : Shared σ Q R ε α M C K) (s : Crowd σ Q R ε α K) :
    CrowdEvent M C K → Crowd σ Q R ε α K → Prop
  | move {m : M} {w : σ} (moved : shared.move s.world m = some w) :
      Stepped shared s (.move m) { s with world := w }
  | start (k : K) :
      Stepped shared s (.start k) { s with processes := s.processes ++ [⟨k, s.world, shared.body k⟩] }
  | answer {i : Nat} {c : C} {k : K} {began w : σ} {request : Q}
      {next : Except ε (R request) → Prog Q R ε α} {reply : Except ε (R request)}
      (running : s.processes[i]? = some ⟨k, began, .ask request next⟩)
      (answered : shared.answer s.world request c = some (reply, w)) :
      Stepped shared s (.answer i c) ⟨w, s.processes.set i ⟨k, began, next reply⟩⟩

theorem Shared.stepped {event : CrowdEvent M C K} (stepped : shared.step s event = some t) :
    shared.Stepped s event t := by
  cases event with
  | move m =>
      obtain ⟨w, moved, rfl⟩ := Option.map_eq_some_iff.mp stepped
      exact .move moved
  | start k =>
      obtain rfl := Option.some.inj stepped
      exact .start k
  | answer i c =>
      rw [Shared.step] at stepped
      split at stepped
      · rename_i k began request next running
        obtain ⟨⟨reply, w⟩, answered, rfl⟩ := Option.map_eq_some_iff.mp stepped
        exact .answer running answered
      · cases stepped

theorem Crowd.Safe.moved (safe : s.Safe rules post) (follows : shared.Follows rules post condition)
    {w : σ} (move : rules.others s.world w) :
    rules.invariant w ∧ ∀ p ∈ s.processes, rules.Ensures (post p.call p.began) p.rest w :=
  ⟨follows.others _ _ safe.invariant move, fun p member =>
    (safe.processes p member).later (.single ⟨safe.invariant, move⟩)⟩

theorem Shared.Follows.step (follows : shared.Follows rules post condition)
    (s : Crowd σ Q R ε α K) (event : CrowdEvent M C K) (t : Crowd σ Q R ε α K)
    (safe : s.Safe rules post) (meets : MovesMeet condition s event)
    (stepped : shared.step s event = some t) : t.Safe rules post := by
  cases Shared.stepped stepped with
  | move moved =>
      obtain ⟨kept, processes⟩ := safe.moved follows (follows.move _ _ _ safe.invariant meets moved)
      exact ⟨kept, processes⟩
  | start k =>
      refine ⟨safe.invariant, fun p member => ?_⟩
      rcases List.mem_append.mp member with member | member
      · exact safe.processes p member
      · obtain rfl := List.mem_singleton.mp member
        exact follows.body k _ safe.invariant
  | answer running answered =>
      have answer := follows.answer _ _ _ _ _ safe.invariant answered
      obtain ⟨guaranteed, rest⟩ := safe.processes _ (List.mem_of_getElem? running) _ .refl
        safe.invariant _ _ answer
      obtain ⟨kept, processes⟩ := safe.moved follows
        (follows.guarantee _ _ safe.invariant guaranteed)
      refine ⟨kept, fun p member => ?_⟩
      rcases List.mem_or_eq_of_mem_set member with member | rfl
      · exact processes p member
      · exact rest

theorem Shared.Follows.run (follows : shared.Follows rules post condition)
    {events : List (CrowdEvent M C K)} (meets : Throughout shared.step (MovesMeet condition) s events)
    (ran : run shared.step s events = some t) (safe : s.Safe rules post) : t.Safe rules post :=
  meets.invariant ran (fun s event t => follows.step s event t) safe

theorem Shared.Follows.world_step (follows : shared.Follows rules post condition)
    {event : CrowdEvent M C K} (safe : s.Safe rules post) (meets : MovesMeet condition s event)
    (stepped : shared.step s event = some t) :
    t.world = s.world ∨ rules.others s.world t.world := by
  cases Shared.stepped stepped with
  | move moved => exact Or.inr (follows.move _ _ _ safe.invariant meets moved)
  | start k => exact Or.inl rfl
  | answer running answered =>
      have answer := follows.answer _ _ _ _ _ safe.invariant answered
      obtain ⟨guaranteed, -⟩ := safe.processes _ (List.mem_of_getElem? running) _ .refl
        safe.invariant _ _ answer
      exact Or.inr (follows.guarantee _ _ safe.invariant guaranteed)

theorem Shared.Follows.both_step {T : σ → σ → Prop} {w : σ}
    (follows : shared.Follows rules post condition) (steady : rules.Steady T)
    {event : CrowdEvent M C K} (before : s.Safe rules post ∧ T w s.world)
    (meets : MovesMeet condition s event) (stepped : shared.step s event = some t) :
    t.Safe rules post ∧ T w t.world := by
  refine ⟨follows.step s event t before.1 meets stepped, ?_⟩
  rcases follows.world_step before.1 meets stepped with same | move
  · rw [same]
    exact before.2
  · exact steady.trans _ _ _ before.2 (steady.moves _ _ before.1.invariant move)

theorem Shared.Follows.world_run {T : σ → σ → Prop} (follows : shared.Follows rules post condition)
    (steady : rules.Steady T) {events : List (CrowdEvent M C K)}
    (meets : Throughout shared.step (MovesMeet condition) s events)
    (ran : Library.run shared.step s events = some t) (safe : s.Safe rules post) : T s.world t.world := by
  have both : t.Safe rules post ∧ T s.world t.world := by
    apply meets.invariant ran _ ⟨safe, steady.refl _⟩
    exact fun u event v before holds stepped => follows.both_step steady before holds stepped
  exact both.2

theorem Shared.Follows.run_all (follows : shared.Follows rules post fun _ _ => True)
    {events : List (CrowdEvent M C K)} (ran : Library.run shared.step s events = some t)
    (safe : s.Safe rules post) : t.Safe rules post := by
  apply follows.run _ ran safe
  apply throughout_of_forall
  intro event _ u
  cases event <;> trivial

theorem Crowd.Safe.ended (safe : s.Safe rules post) {k : K} {began : σ} {outcome : Except ε α}
    (ended : s.Ended k began outcome) : post k began outcome s.world :=
  safe.processes _ ended _ .refl safe.invariant

/-! ## What the calls may ask -/

def Crowd.calls (s : Crowd σ Q R ε α K) : List K := s.processes.map Process.call

/-- What is left of each program asks only what its call may ask. -/
def Crowd.Asks (allowed : K → Q → Prop) (s : Crowd σ Q R ε α K) : Prop :=
  ∀ p ∈ s.processes, p.rest.Asks (allowed p.call)

theorem Shared.Stepped.calls {event : CrowdEvent M C K} (stepped : shared.Stepped s event t) :
    s.calls <+: t.calls := by
  cases stepped with
  | move moved => exact List.prefix_rfl
  | start k =>
      rw [Crowd.calls, Crowd.calls, List.map_append]
      exact List.prefix_append _ _
  | @answer i c k began w request next reply running answered =>
      obtain ⟨inside, is⟩ := List.getElem?_eq_some_iff.mp running
      have inside' : i < (s.processes.map Process.call).length := by simpa using inside
      have same : k = (s.processes.map Process.call)[i] := by simp [is]
      have stays : (s.processes.set i ⟨k, began, next reply⟩).map Process.call =
          s.processes.map Process.call := by
        rw [List.map_set]
        exact (congrArg _ same).trans (List.set_getElem_self _)
      change s.processes.map Process.call <+: (s.processes.set i _).map Process.call
      exact ⟨[], (List.append_nil _).trans stays.symm⟩

theorem Shared.Stepped.asks {allowed : K → Q → Prop} {event : CrowdEvent M C K}
    (bodies : ∀ k, (shared.body k).Asks (allowed k)) (asks : s.Asks allowed)
    (stepped : shared.Stepped s event t) : t.Asks allowed := by
  cases stepped with
  | move moved => exact asks
  | start k =>
      intro p member
      rcases List.mem_append.mp member with member | member
      · exact asks p member
      · obtain rfl := List.mem_singleton.mp member
        exact bodies k
  | answer running answered =>
      intro p member
      rcases List.mem_or_eq_of_mem_set member with member | rfl
      · exact asks p member
      · exact (asks _ (List.mem_of_getElem? running)).2 _

end GenSubnet.Library.Effects
