import GenSubnet.Witness.Pods
import GenSubnet.Witness.Dispatch

/-!
# Orphaned reservations

A reservation is fenced against a second dispatch by the ledger alone, and discarded by whoever
replaces its exchange. Nothing orders the two journals: a reservation that comes after the discard,
but whose exchange is replaced before its capture looks it up, stays in the ledger for good. The
charge of a call belongs to its current exchange as long as no reservation and no replacement is
late in that sense.
-/

namespace GenSubnet.Witness
open Library

/-- The ledger holds no charge of the exchange. -/
def Pods.Free (s : Pods) (exchange : Uuid) : Prop :=
  ∀ ledger ∈ s.ledger.data, ∀ item ∈ ledger.charges.items, item.2.exchangeId ≠ exchange

variable (x : CallContext)

/-- The ledger is empty, or its single charge belongs to the current exchange. -/
def Pods.NoOrphan (s : Pods) : Prop :=
  ∀ ledger, s.ledger.data = some ledger → ledger.charges.items = [] ∨
    ∃ charge, ledger.charges.items = [(x.base, charge)] ∧ s.current = some charge.exchangeId

instance (s : Pods) (exchange : Uuid) : Decidable (s.Free exchange) :=
  match h : s.ledger.data with
  | none => isTrue (by simp [Pods.Free, h])
  | some ledger =>
      decidable_of_iff (∀ item ∈ ledger.charges.items, item.2.exchangeId ≠ exchange)
        (by simp [Pods.Free, h])

/-- A reservation takes effect, at once or when its write arrives, only while its exchange is the
current one; an exchange is replaced only while the ledger holds no charge of it. -/
def Timely (s : Pods) : PodEvent → Prop
  | .reserve i _ _ => ∀ c ∈ s.captures[i]?,
      (∀ ledger ∈ s.ledger.data, ledger.charges.contains x.base = false) →
        s.current = some c.exchange
  | .perform k _ =>
      match s.requests[k]?, s.record.data with
      | some (.assign _ _ expected :: _), some record =>
          some record.call.exchangeId = expected → record.call.phase = .failed →
            s.Free record.call.exchangeId
      | _, _ => True
  | .recordLands n => ∀ d ∈ s.record.inFlight[n]?, ∀ record ∈ s.record.data,
      d.etag = s.record.etag → d.value.call.exchangeId ≠ record.call.exchangeId →
        s.Free record.call.exchangeId
  | .ledgerLands n => ∀ d ∈ s.ledger.inFlight[n]?, ∀ exchange ∈ d.tag,
      d.etag = s.ledger.etag → s.current = some exchange
  | _ => True

instance (s : Pods) (event : PodEvent) : Decidable (Timely x s event) := by
  unfold Timely
  split
  · infer_instance
  · split <;> infer_instance
  all_goals infer_instance

/-! ## What holds in every state -/

def chargedExchanges (data : Option Ledger) : Set Uuid :=
  {exchange | ∃ ledger ∈ data, ∃ item ∈ ledger.charges.items, item.2.exchangeId = exchange}

/-- A delayed write of the ledger adds at most the exchange that it reserves. -/
def AddsReserved (data : Option Ledger) (reserves : Option Uuid) (value : Ledger) : Prop :=
  value.Charged x.base (chargedExchanges data ∪ {exchange | reserves = some exchange})

structure Held (s : Pods) : Prop where
  charged : ∀ ledger ∈ s.ledger.data, ledger.Charged x.base {exchange | s.current = some exchange}
  pending : s.ledger.Pending (AddsReserved x)
  refusals : ∀ refusal ∈ s.refusals, refusal.1 = refusal.2

variable {x}
variable {s s' : Pods}

theorem Held.noOrphan (held : Held x s) : s.NoOrphan x := by
  intro ledger data
  have charged := held.charged ledger data
  have nodup := ledger.charges.nodup
  match items : ledger.charges.items with
  | [] => exact Or.inl rfl
  | [(key, charge)] =>
      obtain ⟨rfl, current⟩ := charged (key, charge) (by simp [items])
      exact Or.inr ⟨charge, rfl, current⟩
  | a :: b :: rest =>
      have same : a.1 = b.1 := by
        rw [(charged a (by simp [items])).1, (charged b (by simp [items])).1]
      simp [items, same] at nodup

theorem Held.of_same (held : Held x s) (record : s'.record.data = s.record.data)
    (ledger : s'.ledger = s.ledger) (refusals : s'.refusals = s.refusals) : Held x s' := by
  have current : s'.current = s.current := congrArg (Option.map _) record
  refine ⟨?_, ?_, ?_⟩
  · rw [ledger, current]
    exact held.charged
  · rw [ledger]
    exact held.pending
  · rw [refusals]
    exact held.refusals

@[simp] theorem Held.setPhase {i : Nat} {c : Capture} {phase : CapturePhase} :
    Held x (s.setPhase i c phase) ↔ Held x s :=
  ⟨fun held => held.of_same rfl rfl rfl, fun held => held.of_same rfl rfl rfl⟩

theorem Held.put_record (held : Held x s) {record : CallRecord}
    (data : s'.record.data = some record) (ledger : s'.ledger = s.ledger)
    (refusals : s'.refusals = s.refusals)
    (keeps : ∀ old ∈ s.record.data, record.call.exchangeId = old.call.exchangeId ∨
      s.Free old.call.exchangeId) : Held x s' := by
  refine ⟨?_, ?_, ?_⟩
  · rw [ledger]
    intro l member item charge
    obtain ⟨key, current⟩ := held.charged l member item charge
    refine ⟨key, ?_⟩
    obtain ⟨old, present, exchange⟩ := Option.map_eq_some_iff.mp current
    rcases keeps old present with same | free
    · simp [Pods.current, data, same, exchange]
    · exact absurd exchange.symm (free l member item charge)
  · rw [ledger]
    exact held.pending
  · rw [refusals]
    exact held.refusals

theorem Held.write_record (held : Held x s) {record : CallRecord} {answer : Answer}
    (written : s'.record = s.record.write () record answer) (ledger : s'.ledger = s.ledger)
    (refusals : s'.refusals = s.refusals)
    (keeps : ∀ old ∈ s.record.data, record.call.exchangeId = old.call.exchangeId ∨
      s.Free old.call.exchangeId) : Held x s' := by
  cases answer with
  | confirmed => exact held.put_record (congrArg Cell.data written) ledger refusals keeps
  | lost => exact held.of_same (by rw [written]; rfl) ledger refusals

theorem change_exchange {op : Op} {seed : Nat} {before after : CallRecord} {reply : Reply}
    (changed : change x.digests x.exchangeSeconds x.scope x.request op seed (some before) =
      .ok (after, reply)) :
    after.call.exchangeId = before.call.exchangeId ∨ before.call.phase = .failed ∧
      (op = .retry before.call.exchangeId ∨ ∃ startId podId allowReassign,
        op = .assign startId podId allowReassign (some before.call.exchangeId)) := by
  have moves := change_moves x.digests x.exchangeSeconds x.scope x.request changed
  simp only [startingCall, Option.map_some, Option.getD_some] at moves
  generalize after.call = call at moves
  cases moves with
  | stays quiet unclaimed => exact Or.inl rfl
  | replaced failed exchange unauthorized phase asked => exact Or.inr ⟨failed, asked⟩
  | assigned phase exchange authorized phase' quiet => exact Or.inl exchange
  | claimed phase owner => exact Or.inl rfl
  | authorized phase owner unauthorized => exact Or.inl rfl
  | ended phase exchange authorized phase' quiet => exact Or.inl exchange

theorem Held.change (held : Held x s) {op : Op} {answer : Answer} {reply : Reply}
    (changed : s.change x op answer = .ok (s', reply))
    (replaces : ∀ old ∈ s.record.data, old.call.phase = .failed →
      (op = .retry old.call.exchangeId ∨ ∃ startId podId allowReassign,
        op = .assign startId podId allowReassign (some old.call.exchangeId)) →
      s.Free old.call.exchangeId) : Held x s' := by
  unfold Pods.change at changed
  split at changed
  · cases changed
  · rename_i record reply' result
    obtain ⟨rfl, -⟩ := Prod.mk.inj (Except.ok.inj changed)
    refine held.write_record rfl rfl rfl ?_
    intro old present
    rw [Option.mem_def.mp present] at result
    exact (change_exchange result).imp_right fun h => replaces old present h.1 h.2

theorem Held.change_kept (held : Held x s) {op : Op} {answer : Answer} {reply : Reply}
    (changed : s.change x op answer = .ok (s', reply)) (retry : ∀ exchange, op ≠ .retry exchange)
    (assign : ∀ startId podId allowReassign expected,
      op ≠ .assign startId podId allowReassign expected) : Held x s' := by
  refine held.change changed ?_
  rintro old - - (asked | ⟨startId, podId, allowReassign, asked⟩)
  · exact absurd asked (retry _)
  · exact absurd asked (assign _ _ _ _)

/-! ## Writes of the ledger -/

theorem loadLedger_charged (held : Held x s) {ledger : Ledger} (loaded : s.loadLedger x = .ok ledger) :
    ledger.Charged x.base {exchange | s.current = some exchange} ∧
      ledger.Charged x.base (chargedExchanges s.ledger.data) := by
  unfold Pods.loadLedger at loaded
  simp only at loaded
  split at loaded
  · cases loaded
  · obtain rfl := Except.ok.inj loaded
    cases data : s.ledger.data with
    | none => exact ⟨newLedger_charged _ _ _ _ _, newLedger_charged _ _ _ _ _⟩
    | some ledger =>
        have charged := held.charged ledger data
        exact ⟨charged, fun item member => ⟨(charged item member).1, ledger, rfl, item, member, rfl⟩⟩

theorem Held.saveLedger (held : Held x s) {reserves : Option Uuid} {ledger : Ledger}
    {answer : Answer} (adds : AddsReserved x s.ledger.data reserves ledger)
    (current : ledger.Charged x.base {exchange | s.current = some exchange}) :
    Held x (s.saveLedger reserves ledger answer) := by
  refine ⟨?_, held.pending.write adds answer, held.refusals⟩
  intro l member
  cases answer with
  | confirmed =>
      obtain rfl := Option.some.inj member
      exact current
  | lost => exact held.charged l member

theorem Ledger.Charged.mono {ledger : Ledger} {base : String} {exchanges more : Set Uuid}
    (charged : ledger.Charged base exchanges) (subset : exchanges ⊆ more) :
    ledger.Charged base more :=
  fun item member => ⟨(charged item member).1, subset (charged item member).2⟩

theorem Held.perform (held : Held x s) {answer : Answer} {write : Write}
    (performed : s.perform x answer write = some s') : Held x s' := by
  cases write with
  | discard exchange =>
      simp only [Pods.perform] at performed
      split at performed
      · cases performed
      · rename_i ledger loaded
        obtain ⟨current, charged⟩ := loadLedger_charged held loaded
        split at performed
        · exact Option.some.inj performed ▸ held
        · rename_i after discarded
          obtain rfl := Option.some.inj performed
          exact held.saveLedger ((charged.discard discarded).mono Set.subset_union_left)
            (current.discard discarded)
  | settle exchange usage =>
      simp only [Pods.perform] at performed
      split at performed
      · cases performed
      · rename_i ledger loaded
        obtain ⟨current, charged⟩ := loadLedger_charged held loaded
        split at performed
        · cases performed
        · exact Option.some.inj performed ▸ held
        · rename_i after settled
          obtain rfl := Option.some.inj performed
          exact held.saveLedger ((charged.settle settled).mono Set.subset_union_left)
            (current.settle settled)
  | issued podId manifest exchange =>
      simp only [Pods.perform] at performed
      split at performed
      · rename_i after reply changed
        obtain rfl := Option.some.inj performed
        exact held.change_kept changed (by simp) (by simp)
      · cases performed
  | failed podId failure exchange notDispatched manifest =>
      simp only [Pods.perform] at performed
      split at performed
      · rename_i after reply changed
        obtain rfl := Option.some.inj performed
        exact held.change_kept changed (by simp) (by simp)
      · cases performed

theorem Held.performTask (held : Held x s) {k : Nat} {answer : Answer} {task : Task}
    {rest entailed : List Task} (at_k : s.requests[k]? = some (task :: rest))
    (timely : Timely x s (.perform k answer))
    (performed : s.performTask x answer task = some (s', entailed)) : Held x s' := by
  cases task with
  | write write =>
      obtain ⟨after, written, same⟩ := Option.map_eq_some_iff.mp performed
      obtain ⟨rfl, -⟩ := Prod.mk.inj same
      exact held.perform written
  | assign startId podId expected =>
      simp only [Pods.performTask] at performed
      split at performed
      · rename_i after call changed
        obtain ⟨rfl, -⟩ := Prod.mk.inj (Option.some.inj performed)
        refine held.change changed ?_
        rintro old present failed (asked | ⟨_, _, _, asked⟩)
        · cases asked
        · obtain ⟨-, -, -, expected⟩ := Op.assign.inj asked
          simp only [Timely, at_k, Option.mem_def.mp present] at timely
          exact timely expected.symm failed
      · cases performed
  | index exchange =>
      obtain ⟨rfl, -⟩ := Prod.mk.inj (Option.some.inj performed)
      exact held.of_same rfl rfl rfl

theorem Held.reserve (held : Held x s) {i : Nat} {c : Capture} {body : Body} {answer : ReserveAnswer}
    (at_i : s.captures[i]? = some c) (timely : Timely x s (.reserve i body answer)) :
    Held x (s.reserve x i c body answer) := by
  cases answer with
  | notReserved reason => exact Held.setPhase.mpr held
  | stored answer =>
      simp only [Pods.reserve]
      split
      · exact Held.setPhase.mpr held
      · exact Held.setPhase.mpr held
      · rename_i ledger checked loaded
        obtain ⟨current, charged⟩ := loadLedger_charged held loaded
        split
        · rename_i rejected reserved
          have present : ledger.charges.contains x.base = true := by
            unfold Ledger.reserve at reserved
            split at reserved
            · assumption
            · cases reserved
          obtain ⟨charge, at_base⟩ := Option.isSome_iff_exists.mp present
          refine Held.setPhase.mpr ⟨held.charged, held.pending, ?_⟩
          intro refusal member
          rcases List.mem_append.mp member with member | member
          · exact held.refusals refusal member
          · obtain rfl := List.mem_singleton.mp member
            have own := (current _ (Dict.get_eq_some_iff.mp at_base)).2
            simpa [at_base] using own.symm
        · rename_i after reserved
          have absent : ∀ l ∈ s.ledger.data, l.charges.contains x.base = false := by
            intro l member
            have same : ledger = l := by
              unfold Pods.loadLedger at loaded
              rw [Option.mem_def.mp member] at loaded
              simp only [Option.getD_some] at loaded
              split at loaded
              · cases loaded
              · exact (Except.ok.inj loaded).symm
            subst same
            unfold Ledger.reserve at reserved
            split at reserved
            · cases reserved
            · rename_i absent
              simpa using absent
          have own : s.current = some c.exchange := timely c at_i absent
          have saved : Held x (s.saveLedger (some c.exchange) after answer) := by
            refine held.saveLedger ?_ ?_
            · refine (charged.reserve reserved).mono ?_
              rintro exchange (rfl | member)
              · exact Or.inr rfl
              · exact Or.inl member
            · refine (current.reserve reserved).mono ?_
              rintro exchange (rfl | member)
              · exact own
              · exact member
          cases answer with
          | confirmed => exact Held.setPhase.mpr saved
          | lost => exact Held.setPhase.mpr saved

theorem Held.recordLands (held : Held x s) {n : Nat} {record : Cell CallRecord Unit}
    (timely : Timely x s (.recordLands n)) (landed : s.record.land n = some record) :
    Held x { s with record } := by
  obtain ⟨d, at_n, ⟨current, rfl⟩ | rfl⟩ := Cell.land_cases landed
  · refine @Held.put_record _ _ _ held d.value rfl rfl rfl ?_
    intro old present
    by_cases same : d.value.call.exchangeId = old.call.exchangeId
    · exact Or.inl same
    · exact Or.inr (timely d at_n old present current same)
  · exact held.of_same rfl rfl rfl

theorem Held.ledgerLands (held : Held x s) {n : Nat} {ledger : Cell Ledger (Option Uuid)}
    (timely : Timely x s (.ledgerLands n)) (landed : s.ledger.land n = some ledger) :
    Held x { s with ledger } := by
  obtain ⟨d, at_n, ⟨current, rfl⟩ | rfl⟩ := Cell.land_cases landed
  · refine ⟨?_, (held.pending.erase n).put d.value, held.refusals⟩
    intro l member
    obtain rfl := Option.some.inj member
    obtain ⟨-, adds⟩ := held.pending d (List.mem_of_getElem? at_n)
    refine (adds current).mono ?_
    rintro exchange (⟨l, member, item, charge, rfl⟩ | reserved)
    · exact (held.charged l member item charge).2
    · exact timely d at_n exchange reserved current
  · exact ⟨held.charged, held.pending.erase n, held.refusals⟩

theorem Held.claim (held : Held x s) {i : Nat} {c : Capture} {answer : Answer}
    (claimed : s.claim x i c answer = some s') : Held x s' := by
  unfold Pods.claim at claimed
  split at claimed
  · rename_i after changed
    obtain rfl := Option.some.inj claimed
    exact Held.setPhase.mpr (held.change_kept changed (by simp) (by simp))
  · rename_i after changed
    obtain rfl := Option.some.inj claimed
    exact Held.setPhase.mpr (held.change_kept changed (by simp) (by simp))
  · rename_i after reply changed
    obtain rfl := Option.some.inj claimed
    exact Held.setPhase.mpr (held.change_kept changed (by simp) (by simp))
  · cases claimed

theorem Held.authorize (held : Held x s) (i : Nat) (c : Capture) (now : Nat) (answer : Answer) :
    Held x (s.authorize x i c now answer) := by
  unfold Pods.authorize
  split
  · exact Held.setPhase.mpr held
  · rename_i after reply changed
    exact Held.setPhase.mpr (held.change_kept changed (by simp) (by simp))
  · rename_i after reply changed
    exact Held.setPhase.mpr (held.change_kept changed (by simp) (by simp))

theorem Held.of_phase (held : Held x s) {i : Nat} {c : Capture} {phase : CapturePhase}
    (stepped : some (s.setPhase i c phase) = some s') : Held x s' := by
  obtain rfl := Option.some.inj stepped
  exact Held.setPhase.mpr held

theorem Held.recover (held : Held x s) {i : Nat} {c : Capture} {evidence : Option Evidence}
    {outcome : Outcome} (recovered : s.recover x i c evidence outcome = some s') : Held x s' := by
  unfold Pods.recover at recovered
  split at recovered
  · cases recovered
  · exact held.of_phase recovered
  · rename_i call located
    split at recovered
    · cases recovered
    · split at recovered
      · exact held.of_phase recovered
      · simp only at recovered
        split at recovered
        · exact held.of_phase recovered
        · exact held.of_phase recovered
        · split at recovered
          · split at recovered
            · rename_i after changed
              obtain rfl := Option.some.inj recovered
              exact Held.setPhase.mpr (held.change_kept changed (by simp) (by simp))
            · cases recovered
          · exact held.of_phase recovered
        · exact held.of_phase recovered
        · cases recovered

theorem held_step (s : Pods) (event : PodEvent) (s' : Pods) (held : Held x s)
    (timely : Timely x s event) (stepped : s.step x event = some s') : Held x s' := by
  cases event with
  | start startId podId expected =>
      obtain rfl := Option.some.inj stepped
      exact held.of_same rfl rfl rfl
  | snapshot podId expired evidence =>
      obtain ⟨record, -, rfl⟩ := Option.map_eq_some_iff.mp stepped
      exact held.of_same rfl rfl rfl
  | perform k answer =>
      simp only [Pods.step] at stepped
      split at stepped
      · rename_i task rest at_k
        split at stepped
        · rename_i after entailed performed
          obtain rfl := Option.some.inj stepped
          exact (held.performTask at_k timely performed).of_same rfl rfl rfl
        · rename_i after entailed performed
          obtain rfl := Option.some.inj stepped
          exact (held.performTask at_k timely performed).of_same rfl rfl rfl
        · obtain rfl := Option.some.inj stepped
          exact held.of_same rfl rfl rfl
      · cases stepped
  | connect startId podId exchange =>
      simp only [Pods.step] at stepped
      split at stepped
      · split at stepped
        · obtain ⟨captureId, -, rfl⟩ := Option.map_eq_some_iff.mp stepped
          exact held.of_same rfl rfl rfl
        · cases stepped
      · cases stepped
  | claim i answer =>
      obtain ⟨c, at_i, stepped⟩ := Option.bind_eq_some_iff.mp stepped
      split at stepped
      · exact held.claim stepped
      · cases stepped
  | begin i =>
      obtain ⟨c, at_i, stepped⟩ := Option.bind_eq_some_iff.mp stepped
      split at stepped
      · exact held.of_phase stepped
      · cases stepped
  | reserve i body answer =>
      obtain ⟨c, at_i, stepped⟩ := Option.bind_eq_some_iff.mp stepped
      split at stepped
      · obtain rfl := Option.some.inj stepped
        exact held.reserve at_i timely
      · cases stepped
  | authorize i now answer =>
      obtain ⟨c, at_i, stepped⟩ := Option.bind_eq_some_iff.mp stepped
      split at stepped
      · obtain rfl := Option.some.inj stepped
        exact held.authorize i c now answer
      · cases stepped
  | outcome i outcome =>
      obtain ⟨c, at_i, stepped⟩ := Option.bind_eq_some_iff.mp stepped
      split at stepped
      · exact held.of_phase stepped
      · exact held.of_phase stepped
      · exact held.of_phase stepped
      · exact held.of_phase stepped
      · cases stepped
  | locate i evidence =>
      obtain ⟨c, at_i, stepped⟩ := Option.bind_eq_some_iff.mp stepped
      split at stepped
      · exact held.of_phase stepped
      · exact held.of_phase stepped
      · cases stepped
  | finish i answer =>
      obtain ⟨c, at_i, stepped⟩ := Option.bind_eq_some_iff.mp stepped
      split at stepped
      · split at stepped
        · rename_i after performed
          exact (held.perform performed).of_phase stepped
        · rename_i after performed
          exact (held.perform performed).of_phase stepped
        · exact held.of_phase stepped
      · cases stepped
  | interrupt i =>
      obtain ⟨c, at_i, stepped⟩ := Option.bind_eq_some_iff.mp stepped
      split at stepped
      · exact held.of_phase stepped
      · cases stepped
  | restart i =>
      obtain ⟨c, at_i, stepped⟩ := Option.bind_eq_some_iff.mp stepped
      split at stepped
      · exact held.of_phase stepped
      · cases stepped
  | recover i evidence outcome =>
      obtain ⟨c, at_i, stepped⟩ := Option.bind_eq_some_iff.mp stepped
      split at stepped
      · exact held.recover stepped
      · cases stepped
  | recordLands n =>
      obtain ⟨record, landed, rfl⟩ := Option.map_eq_some_iff.mp stepped
      exact held.recordLands timely landed
  | ledgerLands n =>
      obtain ⟨ledger, landed, rfl⟩ := Option.map_eq_some_iff.mp stepped
      exact held.ledgerLands timely landed

theorem held_initial : Held x {} where
  charged := by simp
  pending := Cell.pending_new
  refusals := by simp

def sampleContext : CallContext where
  digests := sampleDigests
  exchangeSeconds := 1800
  scope := sampleScope
  request := sampleRequest
  rates :=
    { require := fun model => if model = "gpt-5" then .ok () else .error .unsupportedModel
      credits := fun _ tokens => toString (tokens.input + tokens.output) }
  pricingSha256 := emptyObjectHash
  exchangeText exchange := match exchange with
    | .named name => name
    | .drawn seed draw => s!"{seed}-{draw}"

def sampleBody : Body := ⟨emptyObjectHash, "gpt-5", none⟩

/-- A capture on the first Pod claims the call. -/
def claimingEvents : List PodEvent := [
  .start "start-1" "pod-1" none, .perform 0 .confirmed, .perform 0 .confirmed,
  .connect "start-1" "pod-1" sampleExchange, .claim 0 .confirmed, .begin 0]

/-- The second Pod records the capture as interrupted. -/
def interruptingEvents : List PodEvent := [
  .snapshot "pod-2" false none, .perform 1 .confirmed, .perform 1 .confirmed]

/-- The first Pod reserves before it is interrupted, and the second one starts the call again. -/
def timelyEvents : List PodEvent :=
  claimingEvents ++ [.reserve 0 sampleBody (.stored .confirmed)] ++ interruptingEvents ++ [
  .start "start-2" "pod-2" none, .perform 2 .confirmed, .perform 2 .confirmed,
  .perform 2 .confirmed, .authorize 0 1700000000 .confirmed, .locate 0 none,
  .connect "start-2" "pod-2" (.drawn 6 0), .claim 1 .confirmed, .begin 1,
  .reserve 1 sampleBody (.stored .confirmed), .outcome 1 (.failed "ConnectionError"),
  .locate 1 none, .finish 1 .confirmed, .finish 1 .confirmed]

/-- The second Pod discards and replaces the exchange while the first one reserves it in between;
the first capture then finds its exchange replaced, and the second one is refused. -/
def orphaningEvents : List PodEvent :=
  claimingEvents ++ interruptingEvents ++ [
  .start "start-2" "pod-2" none, .perform 2 .confirmed,
  .reserve 0 sampleBody (.stored .confirmed),
  .perform 2 .confirmed, .perform 2 .confirmed, .authorize 0 1700000000 .confirmed, .locate 0 none,
  .connect "start-2" "pod-2" (.drawn 6 0), .claim 1 .confirmed, .begin 1,
  .reserve 1 sampleBody (.stored .confirmed), .locate 1 none, .finish 1 .confirmed,
  .finish 1 .confirmed]

def timelyState : Pods := (run (Pods.step sampleContext) {} timelyEvents).getD {}

def orphaningState : Pods := (run (Pods.step sampleContext) {} orphaningEvents).getD {}

theorem run_getD {events : List PodEvent} (x : CallContext)
    (enabled : (run (Pods.step x) {} events).isSome = true) :
    run (Pods.step x) {} events = some ((run (Pods.step x) {} events).getD {}) := by
  obtain ⟨s, ran⟩ := Option.isSome_iff_exists.mp enabled
  rw [ran, Option.getD_some]

end GenSubnet.Witness
