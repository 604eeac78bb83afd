import GenSubnet.Library.Transition

/-!
# Programs among others

A program asks its surroundings one request after another and goes on with the replies; others move
the world between two requests. What a program ensures is stated once for each program, whatever the
others do, and composed; a system that runs one program at a time then keeps its invariant.
-/

namespace GenSubnet.Library.Effects

inductive Prog (Q : Type) (R : Q → Type) (ε α : Type)
  | done (outcome : Except ε α)
  | ask (request : Q) (next : Except ε (R request) → Prog Q R ε α)

variable {Q : Type} {R : Q → Type} {σ ε α β : Type}

namespace Prog

def andThen (p : Prog Q R ε α) (f : Except ε α → Prog Q R ε β) : Prog Q R ε β :=
  match p with
  | .done outcome => f outcome
  | .ask request next => .ask request fun reply => (next reply).andThen f

instance : Monad (Prog Q R ε) where
  pure a := .done (.ok a)
  bind p f := p.andThen fun
    | .ok a => f a
    | .error e => .done (.error e)

instance : MonadExcept ε (Prog Q R ε) where
  throw e := .done (.error e)
  tryCatch p handler := p.andThen fun
    | .ok a => .done (.ok a)
    | .error e => handler e

/-- A request whose error ends the program. -/
def request (q : Q) : Prog Q R ε (R q) := .ask q .done

/-- The outcome of a program as a value. -/
def outcome (p : Prog Q R ε α) : Prog Q R ε (Except ε α) := p.andThen fun r => .done (.ok r)

/-- The program over other surroundings, where each request is a program. -/
def via {Q' : Type} {R' : Q' → Type} (handler : (q : Q) → Prog Q' R' ε (R q)) :
    Prog Q R ε α → Prog Q' R' ε α
  | .done outcome => .done outcome
  | .ask q next => (handler q).andThen fun reply => (next reply).via handler

/-- Whatever the replies, the program asks nothing else. -/
def Asks (allowed : Q → Prop) : Prog Q R ε α → Prop
  | .done _ => True
  | .ask q next => allowed q ∧ ∀ reply, Asks allowed (next reply)

variable {allowed : Q → Prop}

theorem Asks.mono {wider : Q → Prop} {p : Prog Q R ε α} (asks : p.Asks allowed)
    (implies : ∀ q, allowed q → wider q) : p.Asks wider := by
  induction p with
  | done outcome => trivial
  | ask q next ih => exact ⟨implies q asks.1, fun reply => ih reply (asks.2 reply)⟩

theorem Asks.andThen {p : Prog Q R ε α} {f : Except ε α → Prog Q R ε β} (asks : p.Asks allowed)
    (rest : ∀ outcome, (f outcome).Asks allowed) : (p.andThen f).Asks allowed := by
  induction p with
  | done outcome => exact rest outcome
  | ask q next ih => exact ⟨asks.1, fun reply => ih reply (asks.2 reply)⟩

theorem asks_request {q : Q} (member : allowed q) : (request q : Prog Q R ε (R q)).Asks allowed :=
  ⟨member, fun _ => trivial⟩

theorem asks_pure (a : α) : (pure a : Prog Q R ε α).Asks allowed := trivial

theorem asks_throw (e : ε) : (throw e : Prog Q R ε α).Asks allowed := trivial

theorem Asks.bind {p : Prog Q R ε α} {f : α → Prog Q R ε β} (asks : p.Asks allowed)
    (rest : ∀ a, (f a).Asks allowed) : (p >>= f).Asks allowed := by
  refine asks.andThen ?_
  intro outcome
  cases outcome with
  | ok a => exact rest a
  | error e => trivial

theorem Asks.map {p : Prog Q R ε α} (asks : p.Asks allowed) (f : α → β) : (f <$> p).Asks allowed :=
  asks.bind fun a => asks_pure (f a)

theorem Asks.tryCatch {p : Prog Q R ε α} {handler : ε → Prog Q R ε α} (asks : p.Asks allowed)
    (rest : ∀ e, (handler e).Asks allowed) : (tryCatch p handler).Asks allowed := by
  refine asks.andThen ?_
  intro outcome
  cases outcome with
  | ok a => trivial
  | error e => exact rest e

theorem Asks.outcome {p : Prog Q R ε α} (asks : p.Asks allowed) : p.outcome.Asks allowed :=
  asks.andThen fun _ => trivial

end Prog

/-! ## What a program ensures -/

/-- `others` is one move of the others in the world, `answers` what a request may do there, and
`guarantee` what the others may rely on. -/
structure Rules (σ : Type) (Q : Type) (R : Q → Type) (ε : Type) where
  invariant : σ → Prop
  others : σ → σ → Prop
  answers : σ → (request : Q) → Except ε (R request) → σ → Prop
  guarantee : σ → σ → Prop

variable (rules : Rules σ Q R ε)

/-- Any number of moves of the others. -/
def Rules.Later : σ → σ → Prop :=
  Relation.ReflTransGen fun w w' => rules.invariant w ∧ rules.others w w'

def Rules.Ensures (post : Except ε α → σ → Prop) : Prog Q R ε α → σ → Prop
  | .done outcome, w => ∀ w', rules.Later w w' → rules.invariant w' → post outcome w'
  | .ask request next, w => ∀ w₁, rules.Later w w₁ → rules.invariant w₁ →
      ∀ reply w₂, rules.answers w₁ request reply w₂ →
        rules.guarantee w₁ w₂ ∧ Rules.Ensures post (next reply) w₂

variable {rules} {post mid : Except ε α → σ → Prop} {w w' : σ}

theorem Rules.Later.refl : rules.Later w w := Relation.ReflTransGen.refl

theorem Rules.Later.trans {w'' : σ} (first : rules.Later w w') (second : rules.Later w' w'') :
    rules.Later w w'' :=
  Relation.ReflTransGen.trans first second

theorem Rules.Later.preserves {P : σ → Prop} (later : rules.Later w w')
    (preserved : ∀ v v', rules.invariant v → rules.others v v' → P v → P v') (holds : P w) : P w' := by
  induction later with
  | refl => exact holds
  | tail _ move ih => exact preserved _ _ move.1 move.2 ih

theorem Rules.Later.within {T : σ → σ → Prop} (later : rules.Later w w') (refl : ∀ v, T v v)
    (trans : ∀ u v v', T u v → T v v' → T u v') (moves : ∀ v v', rules.others v v' → T v v') :
    T w w' :=
  later.preserves (fun v v' _ move so => trans w v v' so (moves v v' move)) (refl w)

namespace Rules.Ensures

theorem later {p : Prog Q R ε α} (ensures : rules.Ensures post p w) (later : rules.Later w w') :
    rules.Ensures post p w' := by
  cases p with
  | done outcome => exact fun v moved => ensures v (later.trans moved)
  | ask request next => exact fun v moved => ensures v (later.trans moved)

theorem mono {p : Prog Q R ε α} (ensures : rules.Ensures mid p w)
    (implies : ∀ outcome v, rules.invariant v → mid outcome v → post outcome v) : rules.Ensures post p w := by
  induction p generalizing w with
  | done outcome => exact fun v moved kept => implies outcome v kept (ensures v moved kept)
  | ask request next ih =>
      intro v moved kept reply v' answer
      obtain ⟨guaranteed, rest⟩ := ensures v moved kept reply v' answer
      exact ⟨guaranteed, ih reply rest⟩

theorem of_later {p : Prog Q R ε α}
    (ensures : ∀ v, rules.Later w v → rules.invariant v → rules.Ensures post p v) :
    rules.Ensures post p w := by
  cases p with
  | done outcome => exact fun v moved kept => ensures v moved kept v .refl kept
  | ask request next => exact fun v moved kept => ensures v moved kept v .refl kept

theorem andThen {p : Prog Q R ε α} {f : Except ε α → Prog Q R ε β} {final : Except ε β → σ → Prop}
    (first : rules.Ensures mid p w)
    (rest : ∀ outcome v, rules.Ensures mid (.done outcome) v → rules.Ensures final (f outcome) v) :
    rules.Ensures final (p.andThen f) w := by
  induction p generalizing w with
  | done outcome => exact rest outcome w first
  | ask request next ih =>
      intro v moved kept reply v' answer
      obtain ⟨guaranteed, ensures⟩ := first v moved kept reply v' answer
      exact ⟨guaranteed, ih reply ensures⟩

theorem pure {a : α} (holds : ∀ v, rules.Later w v → rules.invariant v → post (.ok a) v) :
    rules.Ensures post (Pure.pure a) w :=
  holds

theorem throw {e : ε} (holds : ∀ v, rules.Later w v → rules.invariant v → post (.error e) v) :
    rules.Ensures post (MonadExcept.throw e) w :=
  holds

theorem bind {p : Prog Q R ε α} {f : α → Prog Q R ε β} {final : Except ε β → σ → Prop}
    (first : rules.Ensures mid p w)
    (rest : ∀ a v, rules.invariant v → mid (.ok a) v → rules.Ensures final (f a) v)
    (raised : ∀ e v, rules.invariant v → mid (.error e) v → final (.error e) v) :
    rules.Ensures final (p >>= f) w := by
  refine andThen first ?_
  intro outcome v holds
  cases outcome with
  | ok a => exact of_later fun v' moved kept => rest a v' kept (holds v' moved kept)
  | error e => exact fun v' moved kept => raised e v' kept (holds v' moved kept)

theorem tryCatch {p : Prog Q R ε α} {handler : ε → Prog Q R ε α}
    (first : rules.Ensures mid p w)
    (returned : ∀ a v, rules.invariant v → mid (.ok a) v → post (.ok a) v)
    (caught : ∀ e v, rules.invariant v → mid (.error e) v → rules.Ensures post (handler e) v) :
    rules.Ensures post (MonadExcept.tryCatch p handler) w := by
  refine andThen first ?_
  intro outcome v holds
  cases outcome with
  | ok a => exact fun v' moved kept => returned a v' kept (holds v' moved kept)
  | error e => exact of_later fun v' moved kept => caught e v' kept (holds v' moved kept)

theorem outcome {p : Prog Q R ε α} (ensures : rules.Ensures mid p w) :
    rules.Ensures (fun outcome v => ∃ r, outcome = .ok r ∧ mid r v) p.outcome w := by
  apply andThen ensures
  intro r v holds v' moved kept
  exact ⟨r, rfl, holds v' moved kept⟩

theorem request {q : Q} {post : Except ε (R q) → σ → Prop}
    (answered : ∀ v, rules.Later w v → rules.invariant v → ∀ reply v', rules.answers v q reply v' →
      rules.guarantee v v' ∧ ∀ v'', rules.Later v' v'' → rules.invariant v'' → post reply v'') :
    rules.Ensures post (Prog.request q) w :=
  answered

theorem of_asks {allowed : Q → Prop} {T : σ → σ → Prop} {p : Prog Q R ε α} (asks : p.Asks allowed)
    (refl : ∀ v, T v v) (trans : ∀ u v v', T u v → T v v' → T u v')
    (moves : ∀ v v', rules.invariant v → rules.others v v' → T v v')
    (answered : ∀ q, allowed q → ∀ v reply v', rules.invariant v → rules.answers v q reply v' →
      rules.guarantee v v' ∧ T v v') : rules.Ensures (fun _ v => T w v) p w := by
  have later : ∀ {u v}, rules.Later u v → T u v := fun {u v} after =>
    after.preserves (fun v v' kept move so => trans u v v' so (moves v v' kept move)) (refl u)
  suffices ∀ u, T w u → rules.Ensures (fun _ v => T w v) p u from this w (refl w)
  induction p with
  | done outcome => exact fun u so v after _ => trans w u v so (later after)
  | ask q next ih =>
      intro u so v after kept reply v' answer
      obtain ⟨guaranteed, step⟩ := answered q asks.1 v reply v' kept answer
      exact ⟨guaranteed, ih reply (asks.2 reply) v' (trans w v v' (trans w u v so (later after)) step)⟩

end Rules.Ensures

/-! ## What a program leaves when it returns -/

/-- A preorder that the moves of the others are in. -/
structure Rules.Steady (rules : Rules σ Q R ε) (T : σ → σ → Prop) : Prop where
  refl : ∀ v, T v v
  trans : ∀ u v v', T u v → T v v' → T u v'
  moves : ∀ v v', rules.invariant v → rules.others v v' → T v v'

variable {T : σ → σ → Prop}

theorem Rules.Steady.later (steady : rules.Steady T) (later : rules.Later w w') : T w w' :=
  later.preserves (fun v v' kept move so => steady.trans w v v' so (steady.moves v v' kept move))
    (steady.refl w)

theorem Rules.Ensures.frame {post : Except ε α → σ → Prop} (steady : rules.Steady T)
    (own : ∀ v v', rules.invariant v → rules.guarantee v v' → T v v') {p : Prog Q R ε α}
    (ensures : rules.Ensures post p w) : rules.Ensures (fun outcome v => T w v ∧ post outcome v) p w := by
  suffices ∀ u, T w u → rules.Ensures post p u →
      rules.Ensures (fun outcome v => T w v ∧ post outcome v) p u from
    this w (steady.refl w) ensures
  clear ensures
  induction p with
  | done outcome =>
      exact fun u so ensures v after kept =>
        ⟨steady.trans w u v so (steady.later after), ensures v after kept⟩
  | ask q next ih =>
      intro u so ensures v after kept reply v' answer
      obtain ⟨guaranteed, rest⟩ := ensures v after kept reply v' answer
      have before := steady.trans w u v so (steady.later after)
      exact ⟨guaranteed, ih reply v' (steady.trans w v v' before (own v v' kept guaranteed)) rest⟩

theorem Rules.Ensures.bindFrom {mid : Except ε α → σ → Prop} {final : Except ε β → σ → Prop}
    (steady : rules.Steady T) (own : ∀ v v', rules.invariant v → rules.guarantee v v' → T v v')
    {p : Prog Q R ε α} {f : α → Prog Q R ε β} (first : rules.Ensures mid p w)
    (rest : ∀ a v, rules.invariant v → T w v → mid (.ok a) v → rules.Ensures final (f a) v)
    (raised : ∀ e v, rules.invariant v → T w v → mid (.error e) v → final (.error e) v) :
    rules.Ensures final (p >>= f) w :=
  (first.frame steady own).bind (fun a v kept holds => rest a v kept holds.1 holds.2)
    fun e v kept holds => raised e v kept holds.1 holds.2

theorem Rules.Ensures.catchFrom {mid post : Except ε α → σ → Prop} (steady : rules.Steady T)
    (own : ∀ v v', rules.invariant v → rules.guarantee v v' → T v v') {p : Prog Q R ε α}
    {handler : ε → Prog Q R ε α} (first : rules.Ensures mid p w)
    (returned : ∀ a v, rules.invariant v → T w v → mid (.ok a) v → post (.ok a) v)
    (caught : ∀ e v, rules.invariant v → T w v → mid (.error e) v →
      rules.Ensures post (handler e) v) :
    rules.Ensures post (MonadExcept.tryCatch p handler) w :=
  (first.frame steady own).tryCatch (fun a v kept holds => returned a v kept holds.1 holds.2)
    fun e v kept holds => caught e v kept holds.1 holds.2

/-- The program stays in the preorder, and what it returns meets the condition. -/
def Rules.Leads (rules : Rules σ Q R ε) (T : σ → σ → Prop) (post : α → σ → Prop)
    (p : Prog Q R ε α) (w : σ) : Prop :=
  rules.Ensures (fun outcome w' => T w w' ∧ ∀ a, outcome = .ok a → post a w') p w

namespace Rules.Leads

variable {post mid : α → σ → Prop} {final : β → σ → Prop}

theorem ensures {p : Prog Q R ε α} (leads : rules.Leads T post p w) :
    rules.Ensures (fun _ _ => True) p w :=
  Ensures.mono leads fun _ _ _ _ => trivial

theorem mono {p : Prog Q R ε α} (leads : rules.Leads T mid p w)
    (implies : ∀ a v, rules.invariant v → T w v → mid a v → post a v) : rules.Leads T post p w := by
  refine Ensures.mono leads ?_
  rintro outcome v kept ⟨so, returned⟩
  exact ⟨so, fun a same => implies a v kept so (returned a same)⟩

theorem pure (steady : rules.Steady T) {a : α}
    (holds : ∀ v, T w v → rules.invariant v → post a v) : rules.Leads T post (Pure.pure a) w := by
  intro v later kept
  refine ⟨steady.later later, ?_⟩
  rintro b ⟨⟩
  exact holds v (steady.later later) kept

theorem throw (steady : rules.Steady T) (e : ε) : rules.Leads T post (MonadExcept.throw e) w :=
  fun _ later _ => ⟨steady.later later, nofun⟩

theorem bind (steady : rules.Steady T) {p : Prog Q R ε α} {f : α → Prog Q R ε β}
    (first : rules.Leads T mid p w)
    (rest : ∀ a v, rules.invariant v → T w v → mid a v → rules.Leads T final (f a) v) :
    rules.Leads T final (p >>= f) w := by
  refine Ensures.bind first ?_ ?_
  · rintro a v kept ⟨so, returned⟩
    refine Ensures.mono (rest a v kept so (returned a rfl)) ?_
    rintro outcome v' - ⟨after, posted⟩
    exact ⟨steady.trans w v v' so after, posted⟩
  · rintro e v - ⟨so, -⟩
    exact ⟨so, nofun⟩

theorem tryCatch (steady : rules.Steady T) {p : Prog Q R ε α} {handler : ε → Prog Q R ε α}
    (first : rules.Leads T post p w)
    (caught : ∀ e v, rules.invariant v → T w v → rules.Leads T post (handler e) v) :
    rules.Leads T post (MonadExcept.tryCatch p handler) w := by
  refine Ensures.tryCatch first (fun a v _ holds => holds) ?_
  rintro e v kept ⟨so, -⟩
  refine Ensures.mono (caught e v kept so) ?_
  rintro outcome v' - ⟨after, posted⟩
  exact ⟨steady.trans w v v' so after, posted⟩

theorem of_asks (steady : rules.Steady T) {allowed : Q → Prop} {p : Prog Q R ε α}
    (asks : p.Asks allowed)
    (answered : ∀ q, allowed q → ∀ v reply v', rules.invariant v → rules.answers v q reply v' →
      rules.guarantee v v' ∧ T v v') : rules.Leads T (fun _ _ => True) p w :=
  (Ensures.of_asks asks steady.refl steady.trans steady.moves answered).mono
    fun _ _ _ so => ⟨so, fun _ _ => trivial⟩

theorem request (steady : rules.Steady T) {q : Q} {post : R q → σ → Prop}
    (answered : ∀ v, T w v → rules.invariant v → ∀ reply v', rules.answers v q reply v' →
      rules.guarantee v v' ∧ T v v' ∧ ∀ a, reply = .ok a → ∀ v'', T v' v'' → post a v'') :
    rules.Leads T post (Prog.request q) w := by
  refine Ensures.request ?_
  intro v later kept reply v' answer
  have before := steady.later later
  obtain ⟨guaranteed, step, returned⟩ := answered v before kept reply v' answer
  refine ⟨guaranteed, fun v'' after _ => ?_⟩
  have since := steady.later after
  exact ⟨steady.trans w v v'' before (steady.trans v v' v'' step since),
    fun a same => returned a same v'' since⟩

end Rules.Leads

/-! ## Systems -/

/-- A process runs the bodies of its calls one at a time. `restart` is what a crash leaves. -/
structure System (σ : Type) (Q : Type) (R : Q → Type) (ε α M C K : Type) where
  move : σ → M → Option σ
  answer : σ → (request : Q) → C → Option (Except ε (R request) × σ)
  body : K → Prog Q R ε α
  restart : σ → σ

structure State (σ : Type) (Q : Type) (R : Q → Type) (ε α : Type) where
  world : σ
  running : Option (Prog Q R ε α) := none

inductive Event (M C K : Type)
  | move (m : M)
  | call (k : K)
  | answer (c : C)
  | leave
  | crash
deriving DecidableEq

variable {M C K : Type} (system : System σ Q R ε α M C K)

def System.step (s : State σ Q R ε α) : Event M C K → Option (State σ Q R ε α)
  | .move m => (system.move s.world m).map fun world => { s with world }
  | .call k =>
      match s.running with
      | none => some { s with running := some (system.body k) }
      | some _ => none
  | .answer c =>
      match s.running with
      | some (.ask request next) =>
          (system.answer s.world request c).map fun answered => ⟨answered.2, some (next answered.1)⟩
      | _ => none
  | .leave =>
      match s.running with
      | some (.done _) => some { s with running := none }
      | _ => none
  | .crash => some ⟨system.restart s.world, none⟩

/-- Under the condition on its events, the system follows the rules. -/
structure System.Follows (rules : Rules σ Q R ε) (condition : State σ Q R ε α → Event M C K → Prop) :
    Prop where
  move : ∀ s m w, condition s (.move m) → system.move s.world m = some w → rules.others s.world w
  answer : ∀ s c request next reply w, s.running = some (.ask request next) → condition s (.answer c) →
    system.answer s.world request c = some (reply, w) → rules.answers s.world request reply w
  body : ∀ s k, condition s (.call k) → rules.invariant s.world →
    rules.Ensures (fun _ _ => True) (system.body k) s.world
  restart : ∀ w, rules.invariant w → rules.invariant (system.restart w)
  others : ∀ w w', rules.invariant w → rules.others w w' → rules.invariant w'
  guarantee : ∀ w w', rules.invariant w → rules.guarantee w w' → rules.invariant w'

/-- The invariant holds, and what is still to run keeps the rules. -/
structure State.Safe (rules : Rules σ Q R ε) (s : State σ Q R ε α) : Prop where
  invariant : rules.invariant s.world
  running : ∀ p, s.running = some p → rules.Ensures (fun _ _ => True) p s.world

variable {system} {condition : State σ Q R ε α → Event M C K → Prop} {s t : State σ Q R ε α}
  {event : Event M C K}

/-- What one step does to the world. -/
inductive Moved (rules : Rules σ Q R ε) (restart : σ → σ) (w w' : σ) : Prop
  | stays (same : w' = w)
  | others (move : rules.others w w')
  | guarantee (move : rules.guarantee w w')
  | restart (crashed : w' = restart w)

theorem System.Follows.step (follows : system.Follows rules condition) (safe : s.Safe rules)
    (holds : condition s event) (stepped : system.step s event = some t) :
    t.Safe rules ∧ Moved rules system.restart s.world t.world := by
  cases event with
  | move m =>
      obtain ⟨w, moved, rfl⟩ := Option.map_eq_some_iff.mp stepped
      have move := follows.move s m w holds moved
      refine ⟨⟨follows.others _ _ safe.invariant move, ?_⟩, .others move⟩
      intro p running
      exact (safe.running p running).later (.single ⟨safe.invariant, move⟩)
  | call k =>
      rw [System.step] at stepped
      split at stepped
      · obtain rfl := Option.some.inj stepped
        refine ⟨⟨safe.invariant, ?_⟩, .stays rfl⟩
        rintro p ⟨⟩
        exact follows.body s k holds safe.invariant
      · cases stepped
  | answer c =>
      rw [System.step] at stepped
      split at stepped
      · rename_i request next running
        obtain ⟨⟨reply, w⟩, answered, rfl⟩ := Option.map_eq_some_iff.mp stepped
        have answer := follows.answer s c request next reply w running holds answered
        obtain ⟨guaranteed, rest⟩ := safe.running _ running _ .refl safe.invariant reply w answer
        refine ⟨⟨follows.guarantee _ _ safe.invariant guaranteed, ?_⟩, .guarantee guaranteed⟩
        rintro p ⟨⟩
        exact rest
      · cases stepped
  | leave =>
      rw [System.step] at stepped
      split at stepped
      · obtain rfl := Option.some.inj stepped
        exact ⟨⟨safe.invariant, fun p none => nomatch none⟩, .stays rfl⟩
      · cases stepped
  | crash =>
      obtain rfl := Option.some.inj stepped
      exact ⟨⟨follows.restart _ safe.invariant, fun p none => nomatch none⟩, .restart rfl⟩

theorem System.Follows.run (follows : system.Follows rules condition) {events : List (Event M C K)}
    (guarded : Throughout system.step condition s events) (ran : run system.step s events = some t)
    (safe : s.Safe rules) : t.Safe rules :=
  guarded.invariant ran (fun _ _ _ safe holds stepped => (follows.step safe holds stepped).1) safe

end GenSubnet.Library.Effects
