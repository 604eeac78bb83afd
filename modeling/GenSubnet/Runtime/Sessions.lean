import GenSubnet.Runtime.Traces

/-!
# What a session keeps

Every step of a session keeps each thread at the place that its endings lead to, with its steps
started and done up to there.
-/

namespace GenSubnet.Runtime
open Library

variable {n m k : Nat} {program : Fin n → Code} {h h' : Fin n → List Ending} {i j : Fin n}
  {identity : Identity} {stream : Bool} {s : Schedule} {o : Observation} {ending : Ending}
  {point : Point} {result : Schedule × Point}

/-! ## What a call comes to -/

def Point.Entered : Point → Prop
  | .running _ _ | .exiting _ _ | .ended _ => True
  | _ => False

def Point.Done : Point → Prop
  | .ended _ => True
  | _ => False

/-- The call gives this, and does not fail. -/
def Point.Gives (given : Option Ending) : Point → Prop
  | .exiting _ ending | .ended ending => given = some ending
  | .mismatched => False
  | _ => True

/-- The steps that are recorded so far. -/
def Schedule.Observed (s : Schedule) : Set Identity := fun identity => ∃ o ∈ s.observations, o.identity = identity

/-- What becomes of a schedule with a call for the step after the first of the endings of a thread. -/
structure Turns (program : Fin n → Code) (s : Schedule) (h : Fin n → List Ending) (i : Fin n) (k : Nat)
    (identity : Identity) (result : Schedule × Point) (h' : Fin n → List Ending) : Prop where
  records : Records s identity result
  traced : Traced program result.1.execution h'
  sound : result.1.failure = none
  record : result.1.record = s.record
  execution : ∃ observations, result.1.execution = { s.execution with observations }
  saved : result.1.saved = s.saved
  observed : s.Observed ⊆ result.1.Observed
  counts : result.1.counts = s.counts
  gives : result.2.Gives (h' i)[k]?
  grows : h' = h ∨ ∃ ending, h' = grow h i ending
  started : ∀ other, other ∈ result.1.started ↔
    other ∈ s.started ∨ other = identity ∧ result.2.Entered
  done : ∀ other, other ∈ result.1.done ↔ other ∈ s.done ∨ other = identity ∧ result.2.Done

theorem turns_rest (traced : Traced program s.execution h) (recorded : s.Recorded)
    (sound : s.failure = none) (records : point.Records s identity) (gives : point.Gives (h i)[k]?)
    (started : point.Entered → identity ∈ s.started) (undone : ¬point.Done) :
    Turns program s h i k identity (s, point) h where
  records := records_still recorded rfl rfl rfl rfl records
  traced := traced
  sound := sound
  record := rfl
  execution := ⟨_, rfl⟩
  saved := rfl
  observed := subset_rfl
  counts := rfl
  gives := gives
  grows := Or.inl rfl
  started other := by
    constructor
    · exact Or.inl
    · rintro (before | ⟨rfl, entered⟩)
      · exact before
      · exact started entered
  done other := by simp [undone]

theorem turns_hold (traced : Traced program s.execution h) (recorded : s.Recorded)
    (sound : s.failure = none) (records : point.Records s identity) (gives : point.Gives (h i)[k]?)
    (started : point.Entered → identity ∈ s.started) (undone : ¬point.Done) :
    Turns program s h i k identity (s.hold point false) h := by
  unfold Schedule.hold
  rw [sound]
  exact turns_rest traced recorded sound records gives started undone

theorem Turns.trans {middle : Schedule}
    (first : Turns program s h i k identity (middle, point) h) (waits : ¬point.Entered)
    (second : Turns program middle h i k identity result h') :
    Turns program s h i k identity result h' where
  records := first.records.trans second.records
  traced := second.traced
  sound := second.sound
  record := second.record.trans first.record
  execution := by
    obtain ⟨observations, execution⟩ := second.execution
    obtain ⟨_, execution'⟩ := first.execution
    exact ⟨observations, by rw [execution, execution']⟩
  saved := second.saved.trans first.saved
  observed := first.observed.trans second.observed
  counts := second.counts.trans first.counts
  gives := second.gives
  grows := second.grows
  started other := by
    rw [second.started, first.started]
    simp [waits]
  done other := by
    have undone : ¬point.Done := by
      cases point with
      | ended => exact absurd trivial waits
      | _ => exact id
    rw [second.done, first.done]
    simp [undone]

theorem turns_enter (traced : Traced program s.execution h) (recorded : s.Recorded)
    (sound : s.failure = none) (found : s.observations[m]? = some o) (own : o.identity = identity) :
    Turns program s h i k identity (s.enter m o.exited.isSome false) h := by
  have records := @records_enter s identity false m recorded o found own
  unfold Schedule.enter at records ⊢
  rw [found] at records ⊢
  simp only at records ⊢
  split
  · rename_i may
    rw [if_pos may] at records
    refine ⟨records, traced, sound, rfl, ⟨_, rfl⟩, rfl, subset_rfl, rfl, trivial, Or.inl rfl, ?_, ?_⟩
    · intro other
      simp [Point.Entered, own, or_comm]
    · intro other
      simp [Point.Done]
  · exact turns_hold traced recorded sound ⟨o, found, own, rfl⟩ trivial nofun nofun

theorem turns_found (traced : Traced program s.execution h) (recorded : s.Recorded)
    (sound : s.failure = none) (found : s.observations[m]? = some o) (own : o.identity = identity)
    (same : o.stream = stream) (new : identity ∉ s.started) :
    Turns program s h i k identity (s.found m stream false) h := by
  unfold Schedule.found
  rw [found]
  simp only
  rw [if_neg]
  · exact turns_enter traced recorded sound found own
  · rintro (different | started)
    · exact different same
    · exact new (own ▸ started)

theorem turns_add (traced : Traced program s.execution h) (recorded : s.Recorded)
    (sound : s.failure = none) (place : AtPlace program h i k identity stream)
    (new : s.steps.get identity = none) :
    Turns program s h i k identity
      (s.add identity stream, .entering s.observations.length false) h where
  records := records_add recorded new
  traced := traced_add traced recorded place new
  sound := sound
  record := rfl
  execution := ⟨_, rfl⟩
  saved := rfl
  observed := fun _ ⟨o, member, own⟩ => ⟨o, List.mem_append_left _ member, own⟩
  counts := rfl
  gives := trivial
  grows := Or.inl rfl
  started other := by simp [Point.Entered, Schedule.add]
  done other := by simp [Point.Done, Schedule.add]

theorem turns_create (traced : Traced program s.execution h) (recorded : s.Recorded)
    (sound : s.failure = none) (place : AtPlace program h i k identity stream)
    (new : s.steps.get identity = none) (unstarted : identity ∉ s.started) :
    Turns program s h i k identity (s.create identity stream false) h := by
  unfold Schedule.create
  split
  · have added := turns_add traced recorded sound place new
    have last : (s.add identity stream).observations[s.observations.length]? =
        some { identity, stream, entered := s.tick } := List.getElem?_concat_length
    apply added.trans id
    exact turns_found added.traced added.records.recorded added.sound last rfl rfl unstarted
  · exact turns_hold traced recorded sound new trivial nofun nofun

theorem turns_arrive (traced : Traced program s.execution h) (owned : Owned program)
    (recorded : s.Recorded) (sound : s.failure = none)
    (may : s.record = true ∨ s.execution.finished = true)
    (place : AtPlace program h i k identity stream) (unstarted : identity ∉ s.started) :
    Turns program s h i k identity (s.arrive identity stream false) h := by
  unfold Schedule.arrive
  rw [sound]
  cases known : s.steps.get identity with
  | some entry =>
      obtain ⟨o, found, rfl⟩ := (recorded.indexed identity entry).mp known
      obtain ⟨i', k', there, -⟩ := traced.observed o (List.mem_of_getElem? found)
      obtain ⟨rfl, rfl⟩ := traced.closing.place owned place there
      have same := (Ask.step.inj (there.asked.symm.trans place.asked)).2
      exact turns_found traced recorded sound found rfl same unstarted
  | none =>
      have last := traced.next place (recorded.indexed.absent known)
      subst last
      have unfinished := traced.unfinished place.asked
      have recording : s.record = true := by
        rcases may with recording | finished
        · exact recording
        · cases finished.symm.trans unfinished
      simp only
      rw [if_neg (by simp [recording, unfinished])]
      exact turns_create traced recorded sound place known unstarted

theorem turns_exit (traced : Traced program s.execution h) (recorded : s.Recorded)
    (sound : s.failure = none) (found : s.observations[m]? = some o) (own : o.identity = identity)
    (exited : o.exited ≠ none) (given : (h i)[k]? = some ending) (started : identity ∈ s.started) :
    Turns program s h i k identity (s.exit m ending false) h := by
  have records := @records_exit s identity false m recorded o ending found own exited
  unfold Schedule.exit at records ⊢
  rw [found] at records ⊢
  simp only at records ⊢
  split
  · rename_i may
    rw [if_pos may] at records
    refine ⟨records, traced, sound, rfl, ⟨_, rfl⟩, rfl, subset_rfl, rfl, given, Or.inl rfl, ?_, ?_⟩
    · intro other
      constructor
      · exact Or.inl
      · rintro (before | ⟨rfl, -⟩)
        · exact before
        · exact started
    · intro other
      simp [Point.Done, own, or_comm]
  · exact turns_hold traced recorded sound ⟨o, found, own, exited⟩ given (fun _ => started) nofun

theorem exit_entered (sound : s.failure = none) (found : s.observations[m]? = some o) :
    (s.exit m ending false).2.Entered := by
  unfold Schedule.exit Schedule.hold
  rw [found, sound]
  simp only
  split <;> trivial

/-- What an operation gives that runs again is what was recorded, unless an error was. -/
def Observation.Again (o : Observation) (ending : Ending) : Prop :=
  ending.Proper ∧ (o.identity.action = .close → ∃ exchangeId, ending = .returned exchangeId) ∧
    (o.exited ≠ none → o.failure = none → o.Gave ending)

instance : ∀ ending : Ending, Decidable (∃ exchangeId, ending = .returned exchangeId)
  | .returned exchangeId => isTrue ⟨exchangeId, rfl⟩
  | .raised _ _ | .other _ => isFalse nofun

instance (o : Observation) (ending : Ending) : Decidable (o.Again ending) :=
  inferInstanceAs (Decidable (_ ∧ _ ∧ _))

theorem turns_complete {replay : Bool} (traced : Traced program s.execution h)
    (owned : Owned program) (recorded : s.Recorded) (sound : s.failure = none)
    (place : AtPlace program h i k identity stream)
    (records : (Point.running m replay).Records s identity) (started : identity ∈ s.started)
    (again : ∀ o, s.observations[m]? = some o → o.Again ending) :
    ∃ h', Turns program s h i k identity (s.complete m replay ending false) h' ∧
      (s.complete m replay ending false).2.Entered := by
  obtain ⟨o, found, own, rfl⟩ := records
  obtain ⟨proper, closes, gave⟩ := again o found
  have member := List.mem_of_getElem? found
  cases exited : o.exited with
  | some exit =>
      have was : o.exited ≠ none := by simp [exited]
      refine ⟨h, ?_⟩
      obtain ⟨i', k', there, isLast⟩ := traced.observed o member
      subst own
      obtain ⟨rfl, rfl⟩ := traced.closing.place owned place there
      have inside := lt_of_le_of_ne place.inside fun last => was (isLast.mpr last)
      have at_ := List.getElem?_eq_getElem inside
      obtain ⟨proper', o', member', same, -, gave'⟩ := traced.given i k _ _ _ at_ place.asked
      obtain rfl := recorded.indexed.unique member' member same
      have replayed : o'.replayed ending = (h i)[k] :=
        replayed_of_gave gave' proper' fun failure => ⟨proper, gave was failure⟩
      unfold Schedule.complete
      rw [found]
      simp only [Option.isSome_some, if_true]
      rw [replayed, if_neg (not_not.mpr gave'.1)]
      exact ⟨turns_exit traced recorded sound found rfl was at_ started, exit_entered sound found⟩
  | none =>
      obtain ⟨rfl, closed⟩ :=
        traced_close traced owned recorded place found own exited proper (own ▸ closes)
      have records := @records_close s identity false m recorded o ending found own exited
      unfold Schedule.complete at records ⊢
      rw [found] at records ⊢
      simp only [Option.isSome_none, Bool.false_eq_true, if_false] at records ⊢
      refine ⟨grow h i ending, ⟨records, closed, sound, rfl, ⟨_, rfl⟩, rfl, ?_, rfl, ?_,
        Or.inr ⟨ending, rfl⟩, ?_, ?_⟩, trivial⟩
      · rintro identity' ⟨other, member', same⟩
        obtain ⟨x, at_⟩ := List.mem_iff_getElem?.mp member'
        by_cases here : m = x
        · subst here
          obtain rfl := Option.some.inj (found.symm.trans at_)
          exact ⟨_, List.mem_set (List.getElem?_eq_some_iff.mp found).1 _, same⟩
        · refine ⟨other, List.mem_of_getElem? (i := x) ?_, same⟩
          change (s.observations.set m (o.close s.tick ending))[x]? = some other
          rw [List.getElem?_set, if_neg here, at_]
      · simp [Point.Gives, grow_self]
      · intro other
        constructor
        · exact Or.inl
        · rintro (before | ⟨rfl, -⟩)
          · exact before
          · exact started
      · intro other
        simp [Point.Done, own, or_comm]

theorem turns_wake (traced : Traced program s.execution h) (recorded : s.Recorded)
    (sound : s.failure = none) (place : AtPlace program h i k identity stream)
    (records : point.Records s identity) (gives : point.Gives (h i)[k]?)
    (started : identity ∈ s.started ↔ point.Entered)
    (woke : s.wake identity stream false point = some result) :
    Turns program s h i k identity result h := by
  cases point with
  | saving =>
      obtain rfl := Option.some.inj woke
      exact turns_create traced recorded sound place records fun entered => started.mp entered
  | entering entry replay =>
      obtain rfl := Option.some.inj woke
      obtain ⟨o, found, own, rfl⟩ := records
      exact turns_enter traced recorded sound found own
  | exiting entry ending =>
      obtain rfl := Option.some.inj woke
      obtain ⟨o, found, own, exited⟩ := records
      exact turns_exit traced recorded sound found own exited gives (started.mpr trivial)
  | running | ended | mismatched => cases woke

/-! ## What a session keeps -/

def Phase.Entered : Phase → Prop
  | .calling _ _ point => point.Entered
  | _ => False

def Phase.Done : Phase → Prop
  | .calling _ _ point => point.Done
  | _ => False

/-- A thread that was given the first of its endings is at the next step. -/
def Phase.Fits (s : Schedule) (code : Code) (results : List Ending) (k : Nat) : Phase → Prop
  | .idle => True
  | .numbered occurrence =>
      (code.after (results.take k)).creates code ≠ none ∧
        occurrence = (code.after (results.take k)).occurrence code
  | .calling identity stream point =>
      code.asks results k = .step identity stream ∧ point.Records s identity ∧
        point.Gives results[k]?

/-- How far the count of a key is ahead of the thread. -/
def Phase.ahead (t : Thread) (code : Code) (key : String) : Phase → Nat
  | .idle => 0
  | _ => if t.creates code = some key then 1 else 0

/-- Each thread was given the first of its endings. -/
structure Kept (program : Fin n → Code) (s : Session n) (h : Fin n → List Ending) (r : Fin n → Nat) :
    Prop where
  recorded : s.schedule.Recorded
  traced : Traced program s.schedule.execution h
  sound : s.schedule.failure = none
  may : s.schedule.record = true ∨ s.schedule.execution.finished = true
  saved : ∀ identity ∈ s.schedule.saved, identity ∈ s.schedule.Observed
  reached : ∀ i, r i ≤ (h i).length
  thread : ∀ i, s.threads i = (program i).after ((h i).take (r i))
  fits : ∀ i, (s.phases i).Fits s.schedule (program i) (h i) (r i)
  started : ∀ identity, identity ∈ s.schedule.started ↔ ∃ i k stream,
    AtPlace program h i k identity stream ∧ (k < r i ∨ k = r i ∧ (s.phases i).Entered)
  done : ∀ identity, identity ∈ s.schedule.done ↔ ∃ i k stream,
    AtPlace program h i k identity stream ∧ (k < r i ∨ k = r i ∧ (s.phases i).Done)
  counts : ∀ i key results stream, program i results = some (.create key stream) →
    (s.schedule.counts.get key).getD 0 =
      ((s.threads i).created.get key).getD 0 + (s.phases i).ahead (s.threads i) (program i) key

theorem init_counts {record : Bool} (started : Schedule.init e record = some s) :
    s.counts = .empty ∧ s.record = record ∧ ∀ identity ∈ s.saved, identity ∈ s.Observed := by
  unfold Schedule.init at started
  split at started
  · obtain rfl := Option.some.inj started
    refine ⟨rfl, rfl, fun identity member => ?_⟩
    obtain ⟨o, there, own⟩ := List.mem_map.mp (List.mem_toFinset.mp member)
    exact ⟨o, there, own⟩
  · cases started

theorem kept_init {record : Bool} (traced : Traced program e h)
    (started : Schedule.init e record = some s) (may : record = true ∨ e.finished = true) :
    Kept program ⟨s, fun _ => {}, fun _ => .idle⟩ h fun _ => 0 := by
  obtain ⟨-, rfl, none, undone, sound⟩ := init_eq started
  obtain ⟨counts, rfl, saved⟩ := init_counts started
  refine ⟨(recording_init started).recorded, traced, sound, may, saved, fun _ => Nat.zero_le _,
    fun _ => rfl, fun _ => trivial, ?_, ?_, ?_⟩
  · intro identity
    simp [none, Phase.Entered]
  · intro identity
    simp [undone, Phase.Done]
  · intro i key results stream _
    simp [counts, Phase.ahead]

variable {c c' : Session n} {r : Fin n → Nat}

/-- Where a thread is, seen from what it asks for. -/
theorem Kept.asks (kept : Kept program c h r) (i : Fin n) :
    (program i).asks (h i) (r i) = (c.threads i).ask (program i) ((c.threads i).occurrence (program i)) := by
  rw [kept.thread i]
  rfl

theorem ask_eq {t : Thread} {code : Code} (creates : t.creates code = none) (occurrence : Nat) :
    t.ask code occurrence = t.ask code (t.occurrence code) := by
  unfold Thread.creates at creates
  unfold Thread.ask
  split at creates
  · cases creates
  · rename_i other
    split
    · rfl
    · rename_i requested
      exact absurd requested (other _ _)
    · rfl
    · rfl

theorem Kept.asks_of_ask (kept : Kept program c h r)
    (asked : c.ask program i = .step identity stream) :
    (program i).asks (h i) (r i) = .step identity stream ∧ ¬(c.phases i).Entered ∧
      ∀ key, (c.phases i).ahead (c.threads i) (program i) key =
        if (c.threads i).creates (program i) = some key then 1 else 0 := by
  have fits := kept.fits i
  rw [kept.asks i]
  unfold Session.ask at asked
  cases phase : c.phases i with
  | idle =>
      cases creates : (c.threads i).creates (program i) with
      | none =>
          simp only [phase, creates] at asked
          exact ⟨(ask_eq creates 0).symm.trans asked, id, fun key => by simp [Phase.ahead]⟩
      | some key =>
          simp only [phase, creates] at asked
          cases asked
  | numbered occurrence =>
      simp only [phase] at asked fits
      obtain ⟨-, rfl⟩ := fits
      rw [← kept.thread i] at asked
      exact ⟨asked, id, fun _ => rfl⟩
  | calling => simp only [phase, reduceCtorEq] at asked

theorem take_grow (ending : Ending) (inside : k ≤ (h j).length) :
    (grow h i ending j).take k = (h j).take k := by
  by_cases own : j = i
  · subst own
    rw [grow_self, List.take_append_of_le_length inside]
  · rw [grow_of_ne ending own]

/-- The first of the endings of the threads are as they were. -/
def Agree (h h' : Fin n → List Ending) (r : Fin n → Nat) : Prop :=
  ∀ j k, k ≤ r j → (h' j).take k = (h j).take k ∧ k ≤ (h j).length ∧ k ≤ (h' j).length

theorem Kept.agree (kept : Kept program c h r) (grows : h' = h ∨ ∃ ending, h' = grow h i ending) :
    Agree h h' r := by
  intro j k inside
  have within := inside.trans (kept.reached j)
  rcases grows with rfl | ⟨ending, rfl⟩
  · exact ⟨rfl, within, within⟩
  · exact ⟨take_grow ending within, within, within.trans (length_le_grow ending)⟩

theorem Agree.place (agree : Agree h h' r) (inside : k ≤ r j) :
    AtPlace program h' j k identity stream ↔ AtPlace program h j k identity stream := by
  obtain ⟨same, within, within'⟩ := agree j k inside
  constructor
  · rintro ⟨-, asked⟩
    refine ⟨within, ?_⟩
    rw [← asked, Code.asks, Code.asks, same]
  · rintro ⟨-, asked⟩
    refine ⟨within', ?_⟩
    rw [← asked, Code.asks, Code.asks, same]

/-- A thread takes a turn. -/
theorem Kept.turn (kept : Kept program c h r) {result : Schedule × Point}
    (asked : (program i).asks (h i) (r i) = .step identity stream)
    (turns : Turns program c.schedule h i (r i) identity result h')
    (owned : Owned program)
    (entered : (c.phases i).Entered → result.2.Entered) (undone : ¬(c.phases i).Done)
    (ahead : ∀ key, (c.phases i).ahead (c.threads i) (program i) key =
      if (c.threads i).creates (program i) = some key then 1 else 0) :
    Kept program (c.turn i identity stream result) h' r := by
  have place : AtPlace program h i (r i) identity stream := ⟨kept.reached i, asked⟩
  have agree := kept.agree turns.grows
  have phase : ∀ j, j ≠ i → (c.turn i identity stream result).phases j = c.phases j :=
    fun j other => Function.update_of_ne other _ _
  have own : (c.turn i identity stream result).phases i = .calling identity stream result.2 :=
    Function.update_self _ _ _
  have marks : ∀ {mark : Phase → Prop} {here : Prop} (identity' : Identity),
      (∀ j, j ≠ i → (mark ((c.turn i identity stream result).phases j) ↔ mark (c.phases j))) →
      (mark ((c.turn i identity stream result).phases i) ↔ here) → (mark (c.phases i) → here) →
      (((∃ j k stream', AtPlace program h j k identity' stream' ∧
          (k < r j ∨ k = r j ∧ mark (c.phases j))) ∨ identity' = identity ∧ here) ↔
        ∃ j k stream', AtPlace program h' j k identity' stream' ∧
          (k < r j ∨ k = r j ∧ mark ((c.turn i identity stream result).phases j))) := by
    intro mark here identity' others mine before
    constructor
    · rintro (⟨j, k, stream', there, at_⟩ | ⟨rfl, now⟩)
      · refine ⟨j, k, stream', (agree.place (by omega)).mpr there, ?_⟩
        rcases at_ with earlier | ⟨rfl, marked⟩
        · exact Or.inl earlier
        · refine Or.inr ⟨rfl, ?_⟩
          by_cases same : j = i
          · subst same
            exact mine.mpr (before marked)
          · exact (others j same).mpr marked
      · exact ⟨i, r i, stream, (agree.place le_rfl).mpr place, Or.inr ⟨rfl, mine.mpr now⟩⟩
    · rintro ⟨j, k, stream', there, at_⟩
      have was := (agree.place (by omega)).mp there
      rcases at_ with earlier | ⟨rfl, marked⟩
      · exact Or.inl ⟨j, k, stream', was, Or.inl earlier⟩
      · by_cases same : j = i
        · subst same
          obtain ⟨rfl, -⟩ := Ask.step.inj (was.asked.symm.trans asked)
          exact Or.inr ⟨rfl, mine.mp marked⟩
        · exact Or.inl ⟨j, _, stream', was, Or.inr ⟨rfl, (others j same).mp marked⟩⟩
  refine ⟨turns.records.recorded, turns.traced, turns.sound, ?_, ?_, ?_, ?_, ?_, ?_, ?_, ?_⟩
  · obtain ⟨_, execution⟩ := turns.execution
    refine kept.may.imp turns.record.trans fun finished => ?_
    exact (congrArg Execution.finished execution).trans finished
  · intro identity' member
    exact turns.observed (kept.saved identity' (turns.saved ▸ member))
  · exact fun j => (agree j (r j) le_rfl).2.2
  · intro j
    rw [(agree j (r j) le_rfl).1]
    exact kept.thread j
  · intro j
    by_cases same : j = i
    · subst same
      rw [own]
      refine ⟨?_, turns.records.point, turns.gives⟩
      exact ((agree.place le_rfl).mpr place).asked
    · rw [phase j same]
      have fits := kept.fits j
      have sameTake := (agree j (r j) le_rfl).1
      cases at_ : c.phases j with
      | idle => trivial
      | numbered occurrence =>
          rw [at_] at fits
          unfold Phase.Fits at fits ⊢
          rw [sameTake]
          exact fits
      | calling other stream' point =>
          rw [at_] at fits
          obtain ⟨asks, records, gives⟩ := fits
          have there : AtPlace program h j (r j) other stream' := ⟨kept.reached j, asks⟩
          have apart : other ≠ identity := by
            rintro rfl
            exact same (kept.traced.closing.place owned there place).1
          refine ⟨((agree.place le_rfl).mpr there).asked, turns.records.others other apart _ records, ?_⟩
          rcases turns.grows with rfl | ⟨ending, rfl⟩
          · exact gives
          · rw [grow_of_ne ending same]
            exact gives
  · intro identity'
    change identity' ∈ result.1.started ↔ _
    rw [turns.started, kept.started]
    apply @marks Phase.Entered result.2.Entered identity'
    · intro j other
      rw [phase j other]
    · rw [own]
      exact Iff.rfl
    · exact entered
  · intro identity'
    change identity' ∈ result.1.done ↔ _
    rw [turns.done, kept.done]
    apply @marks Phase.Done result.2.Done identity'
    · intro j other
      rw [phase j other]
    · rw [own]
      exact Iff.rfl
    · exact fun done => absurd done undone
  · intro j key results stream' creates
    have before := kept.counts j key results stream' creates
    change (result.1.counts.get key).getD 0 = _
    rw [turns.counts, before]
    by_cases same : j = i
    · subst same
      rw [own, ahead]
      rfl
    · rw [phase j same]
      rfl

/-! ## Steps of a session -/

def Phase.Again (s : Schedule) (ending : Ending) : Phase → Prop
  | .calling _ _ (.running entry _) => ∀ o ∈ s.observations[entry]?, o.Again ending
  | _ => True

instance (s : Schedule) (ending : Ending) : ∀ phase : Phase, Decidable (phase.Again s ending)
  | .calling _ _ (.running entry _) =>
      inferInstanceAs (Decidable (∀ o ∈ s.observations[entry]?, o.Again ending))
  | .idle | .numbered _ | .calling _ _ .saving | .calling _ _ (.entering _ _)
  | .calling _ _ (.exiting _ _) | .calling _ _ (.ended _) | .calling _ _ .mismatched => isTrue trivial

/-- An operation that runs again gives what was recorded, closing a stream does not raise, and no wait
is given up. -/
def Session.Faithful (s : Session n) : ProgramEvent n → Prop
  | .number _ | .resume _ => True
  | .arrive _ expired | .wake _ expired => expired = false
  | .complete i ending expired => expired = false ∧ (s.phases i).Again s.schedule ending

instance (s : Session n) : ∀ event, Decidable (s.Faithful event)
  | .number _ | .resume _ => isTrue trivial
  | .arrive _ expired | .wake _ expired => inferInstanceAs (Decidable (expired = false))
  | .complete _ _ _ => inferInstanceAs (Decidable (_ ∧ _))

theorem creates_of_numbered {t : Thread} {code : Code} {key : String}
    (creates : t.creates code = some key) :
    ∃ stream, code t.results = some (.create key stream) := by
  unfold Thread.creates at creates
  split at creates
  · rename_i requested
    obtain rfl := Option.some.inj creates
    exact ⟨_, requested⟩
  · cases creates

theorem Kept.number (kept : Kept program c h r) (owned : Owned program) {key : String}
    (idle : c.phases i = .idle) (creates : (c.threads i).creates (program i) = some key) :
    Kept program { c with
      schedule := (c.schedule.occurrence key).1
      phases := Function.update c.phases i (.numbered (c.schedule.occurrence key).2) } h r := by
  obtain ⟨flag, requested⟩ := creates_of_numbered creates
  have count := kept.counts i key _ flag requested
  rw [idle, Phase.ahead, Nat.add_zero] at count
  have others : ∀ (mark : Phase → Prop) {value : Nat}, ¬mark .idle → ¬mark (.numbered value) →
      ∀ j, mark (Function.update c.phases i (.numbered value) j) ↔ mark (c.phases j) := by
    intro mark value before after j
    by_cases same : j = i
    · subst same
      rw [Function.update_self, idle]
      simp [before, after]
    · rw [Function.update_of_ne same]
  refine ⟨kept.recorded.congr rfl rfl rfl rfl, kept.traced, kept.sound, kept.may, kept.saved,
    kept.reached, kept.thread, ?_, ?_, ?_, ?_⟩
  · intro j
    by_cases same : j = i
    · subst same
      simp only [Function.update_self, Phase.Fits, ← kept.thread, creates]
      refine ⟨nofun, ?_⟩
      simp only [Schedule.occurrence, Thread.occurrence, creates]
      exact count
    · simp only [Function.update_of_ne same]
      have fits := kept.fits j
      cases at_ : c.phases j with
      | idle => trivial
      | numbered occurrence =>
          rw [at_] at fits
          exact fits
      | calling other stream' point =>
          rw [at_] at fits
          exact ⟨fits.1, fits.2.1.congr rfl rfl, fits.2.2⟩
  · intro identity
    change identity ∈ c.schedule.started ↔ _
    rw [kept.started]
    simp only [others Phase.Entered id id]
  · intro identity
    change identity ∈ c.schedule.done ↔ _
    rw [kept.done]
    simp only [others Phase.Done id id]
  · intro j key' results stream' asked
    have before := kept.counts j key' results stream' asked
    simp only [Schedule.occurrence, Dict.get_set]
    by_cases same : j = i
    · subst same
      rw [idle, Phase.ahead, Nat.add_zero] at before
      rw [Function.update_self]
      simp only [Phase.ahead, creates, Option.some.injEq]
      by_cases is : key' = key
      · subst is
        rw [if_pos rfl, if_pos rfl, Option.getD_some, count]
      · rw [if_neg is, if_neg fun same => is same.symm, Nat.add_zero]
        exact before
    · rw [Function.update_of_ne same, if_neg]
      · exact before
      · rintro rfl
        exact same (owned j i _ _ _ _ asked requested rfl)

theorem resume_created {t : Thread} {code : Code} (occurrence : Nat) (ending : Ending) (key : String) :
    ((t.resume code occurrence ending).created.get key).getD 0 =
      (t.created.get key).getD 0 + if t.creates code = some key then 1 else 0 := by
  unfold Thread.resume Thread.creates
  cases code t.results with
  | none => rfl
  | some request =>
      cases request with
      | create created stream =>
          simp only [Dict.get_set, Option.some.injEq]
          by_cases same : key = created
          · subst same
            simp
          · rw [if_neg same, if_neg fun is => same is.symm]
            rfl
      | next | close => rfl

theorem resume_eq {t : Thread} {code : Code} {ending : Ending}
    (asked : t.ask code (t.occurrence code) = .step identity stream) :
    t.resume code identity.occurrence ending = t.resume code (t.occurrence code) ending := by
  unfold Thread.ask at asked
  unfold Thread.resume
  split at asked
  · cases asked
  · obtain ⟨rfl, -⟩ := Ask.step.inj asked
    rfl
  · rfl
  · rfl

/-- A thread goes on with its next ending. -/
theorem Kept.give (kept : Kept program c h r) {ending : Ending} {occurrence : Nat}
    (given : (h i)[r i]? = some ending)
    (resumes : (c.threads i).resume (program i) occurrence ending =
      (c.threads i).resume (program i) ((c.threads i).occurrence (program i)) ending)
    (done : ∀ identity stream, (program i).asks (h i) (r i) = .step identity stream →
      (c.phases i).Done)
    (ahead : ∀ key, (c.phases i).ahead (c.threads i) (program i) key =
      if (c.threads i).creates (program i) = some key then 1 else 0) :
    Kept program (c.give program i occurrence ending) h (Function.update r i (r i + 1)) := by
  have inside := (List.getElem?_eq_some_iff.mp given).1
  have marks : ∀ (mark : Phase → Prop) (identity : Identity), ¬mark .idle →
      ((c.phases i).Done → mark (c.phases i)) →
      ((∃ j k stream, AtPlace program h j k identity stream ∧
          (k < r j ∨ k = r j ∧ mark (c.phases j))) ↔
        ∃ j k stream, AtPlace program h j k identity stream ∧
          (k < Function.update r i (r i + 1) j ∨ k = Function.update r i (r i + 1) j ∧
            mark (Function.update c.phases i .idle j))) := by
    intro mark identity idle isDone
    refine exists_congr fun j => exists_congr fun k => exists_congr fun stream =>
      and_congr_right fun place => ?_
    by_cases same : j = i
    · subst same
      rw [Function.update_self, Function.update_self]
      constructor
      · rintro (earlier | ⟨rfl, -⟩)
        · exact Or.inl (Nat.lt_succ_of_lt earlier)
        · exact Or.inl (Nat.lt_succ_self _)
      · rintro (earlier | ⟨-, marked⟩)
        · rcases Nat.lt_succ_iff_lt_or_eq.mp earlier with before | rfl
          · exact Or.inl before
          · exact Or.inr ⟨rfl, isDone (done identity stream place.asked)⟩
        · exact absurd marked idle
    · rw [Function.update_of_ne same, Function.update_of_ne same]
  refine ⟨kept.recorded, kept.traced, kept.sound, kept.may, kept.saved, ?_, ?_, ?_, ?_, ?_, ?_⟩
  · intro j
    by_cases same : j = i
    · subst same
      rw [Function.update_self]
      exact inside
    · rw [Function.update_of_ne same]
      exact kept.reached j
  · intro j
    unfold Session.give
    by_cases same : j = i
    · subst same
      simp only [Function.update_self]
      rw [after_take_succ _ given, ← kept.thread, resumes]
    · simp only [Function.update_of_ne same]
      exact kept.thread j
  · intro j
    unfold Session.give
    by_cases same : j = i
    · subst same
      simp only [Function.update_self]
      trivial
    · simp only [Function.update_of_ne same]
      exact kept.fits j
  · intro identity
    refine (kept.started identity).trans (marks Phase.Entered identity id ?_)
    cases c.phases i with
    | calling _ _ point => cases point <;> simp [Phase.Done, Phase.Entered, Point.Done, Point.Entered]
    | idle | numbered => exact id
  · intro identity
    exact (kept.done identity).trans (marks Phase.Done identity id id)
  · intro j key results stream asked
    have before := kept.counts j key results stream asked
    unfold Session.give
    by_cases same : j = i
    · subst same
      simp only [Function.update_self]
      rw [before, ahead, resume_created]
      rfl
    · simp only [Function.update_of_ne same]
      exact before

/-- A thread closes a stream again. -/
theorem Kept.nothing (kept : Kept program c h r) (owned : Owned program)
    (asked : (program i).asks (h i) (r i) = .nothing) :
    ∃ h', Kept program c h' r ∧ (h' i)[r i]? = some (.returned none) ∧
      (program i).asks (h' i) (r i) = .nothing ∧ (h' = h ∨ ∃ ending, h' = grow h i ending) := by
  rcases (kept.reached i).lt_or_eq with inside | last
  · have at_ := List.getElem?_eq_getElem inside
    refine ⟨h, kept, ?_, asked, Or.inl rfl⟩
    rw [at_, kept.traced.nothing i _ _ at_ asked]
  · have grows : grow h i (.returned none) = h ∨ ∃ ending, grow h i (.returned none) = grow h i ending :=
      Or.inr ⟨_, rfl⟩
    have agree := kept.agree grows
    have isNothing : (program i).asks (grow h i (.returned none) i) (r i) = .nothing := by
      rw [asks_grow _ (kept.reached i)]
      exact asked
    have there : (grow h i (.returned none) i)[r i]? = some (.returned none) := by
      rw [grow_self, last, List.getElem?_concat_length]
    refine ⟨grow h i (.returned none), ⟨kept.recorded, ?_, kept.sound, kept.may, kept.saved, ?_, ?_,
      ?_, ?_, ?_, kept.counts⟩, there, isNothing, Or.inr ⟨_, rfl⟩⟩
    · rw [last] at asked
      exact traced_nothing kept.traced owned asked
    · exact fun j => (agree j (r j) le_rfl).2.2
    · intro j
      rw [(agree j (r j) le_rfl).1]
      exact kept.thread j
    · intro j
      have fits := kept.fits j
      cases at_ : c.phases j with
      | idle => trivial
      | numbered occurrence =>
          rw [at_] at fits
          unfold Phase.Fits at fits ⊢
          rw [(agree j (r j) le_rfl).1]
          exact fits
      | calling other stream' point =>
          rw [at_] at fits
          obtain ⟨asks, records, gives⟩ := fits
          have apart : j ≠ i := by
            rintro rfl
            cases asks.symm.trans asked
          refine ⟨?_, records, ?_⟩
          · rw [asks_grow _ (kept.reached j)]
            exact asks
          · rw [grow_of_ne _ apart]
            exact gives
    · intro identity
      rw [kept.started]
      refine exists_congr fun j => exists_congr fun k => exists_congr fun stream => ?_
      constructor <;> rintro ⟨place, at_⟩
      · exact ⟨(agree.place (by omega)).mpr place, at_⟩
      · exact ⟨(agree.place (by omega)).mp place, at_⟩
    · intro identity
      rw [kept.done]
      refine exists_congr fun j => exists_congr fun k => exists_congr fun stream => ?_
      constructor <;> rintro ⟨place, at_⟩
      · exact ⟨(agree.place (by omega)).mpr place, at_⟩
      · exact ⟨(agree.place (by omega)).mp place, at_⟩

/-- The step that a thread is at is started, or done, as its phase has it. -/
theorem Kept.marked (kept : Kept program c h r) (owned : Owned program)
    (asked : (program i).asks (h i) (r i) = .step identity stream) :
    (identity ∈ c.schedule.started ↔ (c.phases i).Entered) ∧
      (identity ∈ c.schedule.done ↔ (c.phases i).Done) := by
  have place : AtPlace program h i (r i) identity stream := ⟨kept.reached i, asked⟩
  rw [kept.started, kept.done]
  constructor
  all_goals
    constructor
    · rintro ⟨j, k, stream', there, at_⟩
      obtain ⟨rfl, rfl⟩ := kept.traced.closing.place owned place there
      exact at_.elim (fun before => absurd before (Nat.lt_irrefl _)) And.right
    · exact fun marked => ⟨i, r i, stream, place, Or.inr ⟨rfl, marked⟩⟩

/-- What a session goes on to: the threads were given no less, and only the observations changed. -/
structure Onward (c : Session n) (h : Fin n → List Ending) (c' : Session n)
    (h' : Fin n → List Ending) : Prop where
  more : ∀ i, h i <+: h' i
  execution : ∃ observations, c'.schedule.execution = { c.schedule.execution with observations }

theorem onward_of_grows (grows : h' = h ∨ ∃ ending, h' = grow h i ending)
    (execution : ∃ observations, c'.schedule.execution = { c.schedule.execution with observations }) :
    Onward c h c' h' := by
  refine ⟨fun j => ?_, execution⟩
  rcases grows with rfl | ⟨ending, rfl⟩
  · exact List.prefix_rfl
  · by_cases own : j = i
    · subst own
      rw [grow_self]
      exact List.prefix_append _ _
    · rw [grow_of_ne ending own]

theorem Onward.trans {c'' : Session n} {h'' : Fin n → List Ending} (first : Onward c h c' h')
    (second : Onward c' h' c'' h'') : Onward c h c'' h'' := by
  obtain ⟨_, execution⟩ := first.execution
  obtain ⟨observations, execution'⟩ := second.execution
  refine ⟨fun i => (first.more i).trans (second.more i), observations, ?_⟩
  rw [execution', execution]

theorem Kept.step (kept : Kept program c h r) (owned : Owned program) {event : ProgramEvent n}
    (faithful : c.Faithful event) (stepped : c.step program event = some c') :
    ∃ h' r', Kept program c' h' r' ∧ Onward c h c' h' := by
  cases event with
  | number i =>
      simp only [Session.step] at stepped
      split at stepped
      · rename_i key idle creates
        obtain rfl := Option.some.inj stepped
        exact ⟨h, r, kept.number owned idle creates, onward_of_grows (i := i) (Or.inl rfl) ⟨_, rfl⟩⟩
      · cases stepped
  | arrive i expired =>
      obtain rfl : expired = false := faithful
      simp only [Session.step] at stepped
      split at stepped
      · rename_i identity stream asked
        obtain rfl := Option.some.inj stepped
        obtain ⟨asks, before, ahead⟩ := kept.asks_of_ask asked
        obtain ⟨started, -⟩ := kept.marked owned asks
        have turns := turns_arrive kept.traced owned kept.recorded kept.sound kept.may
          ⟨kept.reached i, asks⟩ fun isStarted => before (started.mp isStarted)
        refine ⟨h, r, kept.turn asks turns owned (fun entered => absurd entered before) ?_ ahead,
          onward_of_grows turns.grows turns.execution⟩
        · intro isDone
          apply before
          cases at_ : c.phases i with
          | calling _ _ point =>
              rw [at_] at isDone
              cases point <;> first | exact trivial | exact absurd isDone id
          | idle | numbered =>
              rw [at_] at isDone
              exact absurd isDone id
      · cases stepped
  | wake i expired =>
      obtain rfl : expired = false := faithful
      simp only [Session.step] at stepped
      split at stepped
      · rename_i identity stream point phase
        obtain ⟨result, woke, rfl⟩ := Option.map_eq_some_iff.mp stepped
        have fits := kept.fits i
        rw [phase] at fits
        obtain ⟨asks, records, gives⟩ := fits
        obtain ⟨started, -⟩ := kept.marked owned asks
        rw [phase] at started
        have turns := turns_wake kept.traced kept.recorded kept.sound ⟨kept.reached i, asks⟩ records
          gives started woke
        refine ⟨h, r, kept.turn asks turns owned ?_ ?_ ?_, onward_of_grows turns.grows turns.execution⟩
        · rw [phase]
          intro entered
          cases point with
          | exiting entry ending =>
              obtain ⟨o, found, -⟩ := records
              obtain rfl := Option.some.inj woke
              exact exit_entered kept.sound found
          | saving | entering | mismatched => exact absurd entered id
          | running | ended => cases woke
        · rw [phase]
          cases point with
          | ended => cases woke
          | _ => exact id
        · rw [phase]
          exact fun _ => rfl
      · cases stepped
  | complete i ending expired =>
      obtain ⟨rfl, again⟩ := faithful
      simp only [Session.step] at stepped
      split at stepped
      · rename_i identity stream entry replay phase
        obtain rfl := Option.some.inj stepped
        have fits := kept.fits i
        rw [phase] at fits again
        obtain ⟨asks, records, -⟩ := fits
        obtain ⟨started, -⟩ := kept.marked owned asks
        rw [phase] at started
        obtain ⟨h', turns, entered⟩ := turns_complete kept.traced owned kept.recorded kept.sound
          ⟨kept.reached i, asks⟩ records (started.mpr trivial) again
        refine ⟨h', r, kept.turn asks turns owned (fun _ => entered) ?_ ?_,
          onward_of_grows turns.grows turns.execution⟩
        · rw [phase]
          exact id
        · rw [phase]
          exact fun _ => rfl
      · cases stepped
  | resume i =>
      simp only [Session.step] at stepped
      split at stepped
      · rename_i identity stream ending phase
        obtain rfl := Option.some.inj stepped
        have fits := kept.fits i
        rw [phase] at fits
        obtain ⟨asks, -, gives⟩ := fits
        refine ⟨h, _, kept.give gives ?_ ?_ ?_, onward_of_grows (i := i) (Or.inl rfl) ⟨_, rfl⟩⟩
        · exact resume_eq ((kept.asks i).symm.trans asks)
        · rw [phase]
          exact fun _ _ _ => trivial
        · rw [phase]
          exact fun _ => rfl
      · rename_i idle
        split at stepped
        · rename_i asked
          obtain rfl := Option.some.inj stepped
          have creates : (c.threads i).creates (program i) = none := by
            unfold Session.ask at asked
            cases creates : (c.threads i).creates (program i) with
            | none => rfl
            | some key =>
                simp only [idle, creates] at asked
                cases asked
          have asks : (program i).asks (h i) (r i) = .nothing := by
            rw [kept.asks i, ← ask_eq creates 0, ← asked, Session.ask]
            simp only [idle, creates]
          obtain ⟨h', kept', given, asks', grows⟩ := kept.nothing owned asks
          refine ⟨h', _, kept'.give given ?_ ?_ ?_, onward_of_grows grows ⟨_, rfl⟩⟩
          · rw [Thread.occurrence, creates]
          · intro identity stream isStep
            cases isStep.symm.trans asks'
          · rw [idle, creates]
            exact fun _ => rfl
        · cases stepped
      · cases stepped

end GenSubnet.Runtime
