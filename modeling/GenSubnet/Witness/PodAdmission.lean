import GenSubnet.Witness.PodRuntime

/-!
# What a Pod admits

A Pod that has reported its drain admits nothing more and has no capture left. Before that it has at
most `max_captures` captures, and it never captures an exchange twice.
-/

namespace GenSubnet.Witness.PodService
open Library

/-! ## Futures that are not done -/

def Future.Open (f : Future) : Prop := f.progress ≠ .done

instance (f : Future) : Decidable f.Open := inferInstanceAs (Decidable (_ ≠ _))

/-- A thread of the executor is at work on it. -/
def Future.Running (f : Future) : Prop := f.progress = .running ∨ f.progress = .finished

instance (f : Future) : Decidable f.Running := inferInstanceAs (Decidable (_ ∨ _))

def openExchanges (futures : List Future) : List Uuid :=
  (futures.filter fun f => f.Open).map Future.exchangeId

/-- The exchanges of the captures that have been submitted. -/
def captured (futures : List Future) : List Uuid :=
  (futures.filter fun f => f.work = .capture).map Future.exchangeId

def openCaptures (futures : List Future) : Nat :=
  futures.countP fun f => f.Open ∧ f.work = .capture

@[simp] theorem openExchanges_append (l r : List Future) :
    openExchanges (l ++ r) = openExchanges l ++ openExchanges r := by
  simp [openExchanges]

@[simp] theorem captured_append (l r : List Future) :
    captured (l ++ r) = captured l ++ captured r := by
  simp [captured]

@[simp] theorem openCaptures_append (l r : List Future) :
    openCaptures (l ++ r) = openCaptures l + openCaptures r := List.countP_append

theorem openCaptures_le (futures : List Future) :
    openCaptures futures ≤ (openExchanges futures).length := by
  rw [openExchanges, List.length_map, openCaptures, ← List.countP_eq_length_filter]
  apply List.countP_mono_left
  intro f _ captures
  simp only [decide_eq_true_eq] at captures ⊢
  exact captures.1

theorem split_set {futures : List Future} {i : Nat} {f : Future} (at_i : futures[i]? = some f)
    (g : Future) : ∃ l r, futures = l ++ f :: r ∧ futures.set i g = l ++ g :: r := by
  obtain ⟨inside, is⟩ := List.getElem?_eq_some_iff.mp at_i
  obtain ⟨l, r, whole, -, changed⟩ := @List.exists_of_set _ _ g futures inside
  rw [is] at whole
  exact ⟨l, r, whole, changed⟩

theorem captured_set {futures : List Future} {i : Nat} {f : Future} (at_i : futures[i]? = some f)
    (progress : Progress) : captured (futures.set i { f with progress }) = captured futures := by
  obtain ⟨l, r, whole, changed⟩ := split_set at_i { f with progress }
  rw [changed, whole, captured_append, captured_append]
  by_cases capture : f.work = .capture <;> simp [captured, capture]

/-! ## What the runtime keeps -/

variable (settings : Settings)

/-- Every exchange with an open future is active, has only one, and few of them are captures. -/
structure PodRuntime.Sound (s : PodRuntime) : Prop where
  nodup : (openExchanges s.futures).Nodup
  active : ∀ x ∈ openExchanges s.futures, s.active.contains x = true
  busy : s.busy ≤ settings.maxCaptures
  captures : openCaptures s.futures ≤ settings.maxCaptures

variable {settings} {s : PodRuntime}

theorem PodRuntime.Sound.of_same {t : PodRuntime} (sound : s.Sound settings)
    (futures : t.futures = s.futures) (active : t.active = s.active) : t.Sound settings where
  nodup := futures ▸ sound.nodup
  active := by
    rw [futures, active]
    exact sound.active
  busy := by
    rw [PodRuntime.busy, futures]
    exact sound.busy
  captures := futures ▸ sound.captures

theorem PodRuntime.Sound.open_le (sound : s.Sound settings) :
    (openExchanges s.futures).length ≤ s.active.size := by
  have inside : openExchanges s.futures ⊆ s.active.keys := fun x member =>
    Dict.contains_iff.mp (sound.active x member)
  have fewer := (sound.nodup.subperm inside).length_le
  rwa [Dict.keys, List.length_map] at fewer

theorem PodRuntime.Sound.submit {exchangeId : Uuid} (work : Work) (submits : Bool)
    (sound : s.Sound settings) (absent : s.active.contains exchangeId = false)
    (room : work = .capture → s.active.size < settings.maxCaptures) :
    (s.submit exchangeId work submits).Sound settings where
  nodup := by
    have fresh : exchangeId ∉ openExchanges s.futures := by
      intro member
      rw [sound.active exchangeId member] at absent
      cases absent
    have opened : openExchanges (s.submit exchangeId work submits).futures =
        openExchanges s.futures ++ [exchangeId] := openExchanges_append _ _
    rw [opened, ← List.concat_eq_append]
    exact sound.nodup.concat fresh
  active := by
    intro x member
    have opened : openExchanges (s.submit exchangeId work submits).futures =
        openExchanges s.futures ++ [exchangeId] := openExchanges_append _ _
    rw [opened] at member
    simp only [PodRuntime.submit, Dict.contains_set, Bool.or_eq_true, decide_eq_true_eq]
    rcases List.mem_append.mp member with member | member
    · exact Or.inr (sound.active x member)
    · exact Or.inl (List.mem_singleton.mp member)
  busy := by
    have same : (s.submit exchangeId work submits).busy = s.busy := by
      simp [PodRuntime.busy, PodRuntime.submit]
    rw [same]
    exact sound.busy
  captures := by
    have added : openCaptures (s.submit exchangeId work submits).futures =
        openCaptures s.futures + if work = .capture then 1 else 0 := by
      simp [PodRuntime.submit, openCaptures, List.countP_append, List.countP_cons, Future.Open]
    rw [added]
    split
    · rename_i capture
      have few := room capture
      have fewer := (openCaptures_le s.futures).trans sound.open_le
      omega
    · exact sound.captures

theorem PodRuntime.Sound.setProgress {i : Nat} {f : Future} (sound : s.Sound settings)
    (at_i : s.futures[i]? = some f) (opened : f.Open) {progress : Progress} (stays : progress ≠ .done)
    (room : (s.setProgress i f progress).busy ≤ settings.maxCaptures) :
    (s.setProgress i f progress).Sound settings := by
  obtain ⟨l, r, whole, changed⟩ := split_set at_i { f with progress }
  have exchanges : openExchanges (s.setProgress i f progress).futures = openExchanges s.futures := by
    rw [PodRuntime.setProgress, changed, whole, openExchanges_append, openExchanges_append]
    simp [openExchanges, Future.Open, stays, show f.progress ≠ .done from opened]
  have captures : openCaptures (s.setProgress i f progress).futures = openCaptures s.futures := by
    rw [PodRuntime.setProgress, changed, whole, openCaptures_append, openCaptures_append]
    simp [openCaptures, List.countP_cons, Future.Open, stays, show f.progress ≠ .done from opened]
  constructor
  · rw [exchanges]
    exact sound.nodup
  · rw [exchanges]
    exact sound.active
  · exact room
  · rw [captures]
    exact sound.captures

theorem PodRuntime.Sound.whenDone {i : Nat} {f : Future} (sound : s.Sound settings)
    (at_i : s.futures[i]? = some f) (finished : f.progress = .finished) (clock : Rat) :
    (s.whenDone i f clock).Sound settings := by
  obtain ⟨l, r, whole, changed⟩ := split_set at_i { f with progress := .done }
  have opened : f.Open := by
    rw [Future.Open, finished]
    decide
  have before : openExchanges s.futures = openExchanges l ++ f.exchangeId :: openExchanges r := by
    rw [whole, openExchanges_append]
    simp [openExchanges, opened]
  have after : openExchanges (s.whenDone i f clock).futures = openExchanges l ++ openExchanges r := by
    rw [PodRuntime.whenDone, PodRuntime.setProgress, changed, openExchanges_append]
    simp [openExchanges, Future.Open]
  have nodup := sound.nodup
  rw [before] at nodup
  have apart := List.nodup_middle.mp nodup
  constructor
  · rw [after]
    exact (List.nodup_cons.mp apart).2
  · rw [after]
    intro x member
    have other : x ≠ f.exchangeId := fun same => (List.nodup_cons.mp apart).1 (same ▸ member)
    have kept : s.active.contains x = true := by
      apply sound.active
      rw [before]
      rcases List.mem_append.mp member with member | member
      · exact List.mem_append_left _ member
      · exact List.mem_append_right _ (List.mem_cons_of_mem _ member)
    rw [PodRuntime.whenDone, Dict.contains, Dict.get_erase, if_neg other]
    exact kept
  · have fewer : (s.whenDone i f clock).busy ≤ s.busy := by
      rw [PodRuntime.whenDone, PodRuntime.setProgress, PodRuntime.busy, PodRuntime.busy, changed, whole]
      simp [List.countP_append, List.countP_cons]
    exact fewer.trans sound.busy
  · have fewer : openCaptures (s.whenDone i f clock).futures ≤ openCaptures s.futures := by
      rw [PodRuntime.whenDone, PodRuntime.setProgress, changed, whole, openCaptures_append,
        openCaptures_append]
      simp [openCaptures, List.countP_cons, Future.Open]
    exact fewer.trans sound.captures

/-! ## The call records -/

theorem name_inj {key first second : String} (same : s!"{key}/{first}" = s!"{key}/{second}") :
    first = second := by
  have equal : toString first = toString second := by simpa using same
  exact equal

theorem failed_capture {digests : Digests} {podId failure : String} {exchangeId : Uuid}
    {notDispatched : Bool} {manifest : Option (List UInt8)} {call after : Call}
    (ok : failed digests podId failure exchangeId notDispatched manifest call = .ok after) :
    after.captureId = call.captureId ∧ after.exchangeId = call.exchangeId := by
  unfold failed at ok
  cases manifest <;> grind

theorem operate_capture {digests : Digests} {exchangeSeconds seed : Nat} {call after : Call} {op : Op}
    {reply : Reply} (ok : operate digests exchangeSeconds seed call op = .ok (after, reply)) :
    after.captureId = none ∨ after.captureId = some (.drawn seed 1) ∨
      (after.captureId = call.captureId ∧ after.exchangeId = call.exchangeId) := by
  cases op with
  | reserve =>
      obtain ⟨rfl, -⟩ := Prod.mk.inj (Except.ok.inj ok)
      exact Or.inr (Or.inr ⟨rfl, rfl⟩)
  | retry exchangeId =>
      obtain ⟨rfl, -⟩ := Prod.mk.inj (Except.ok.inj ok)
      grind [retry, Call.replace]
  | assign startId podId allowReassign expected =>
      obtain ⟨rfl, -⟩ := Prod.mk.inj (Except.ok.inj ok)
      grind [assign, Call.replace]
  | claim podId captureId =>
      have left : (claim podId captureId call).1 = after := congrArg Prod.fst (Except.ok.inj ok)
      refine Or.inr (Or.inr ?_)
      rw [← left]
      unfold claim
      split <;> exact ⟨rfl, rfl⟩
  | authorize podId exchangeId now =>
      simp only [operate] at ok
      grind [authorize, Except.map]
  | issued podId manifest exchangeId =>
      simp only [operate] at ok
      grind [issued, Except.map]
  | failed podId failure exchangeId notDispatched manifest =>
      refine Or.inr (Or.inr ?_)
      simp only [operate] at ok
      cases result : failed digests podId failure exchangeId notDispatched manifest call with
      | error error =>
          rw [result] at ok
          cases ok
      | ok failedCall =>
          rw [result] at ok
          obtain ⟨rfl, -⟩ := Prod.mk.inj (Except.ok.inj ok)
          exact failed_capture result

def Call.Unclaimed (call : Call) : Prop := call.phase = .reserved ∨ call.phase = .assigned

theorem moves_exchange {seed : Nat} {before after : Call} {op : Op} {reply : Reply}
    (moves : Moves seed before op after reply) :
    (after.exchangeId = before.exchangeId ∧ (Call.Unclaimed after → Call.Unclaimed before)) ∨
      after.exchangeId = .drawn seed 0 := by
  cases moves with
  | stays quiet unclaimed => exact Or.inl ⟨rfl, id⟩
  | replaced failed exchange fresh phase asked => exact Or.inr exchange
  | assigned phase exchange authorized phase' quiet => exact Or.inl ⟨exchange, fun _ => phase⟩
  | claimed phase owner => exact Or.inl ⟨rfl, fun _ => Or.inr phase⟩
  | authorized phase owner unauthorized => exact Or.inl ⟨rfl, id⟩
  | ended phase exchange authorized phase' quiet =>
      refine Or.inl ⟨exchange, ?_⟩
      rintro (reserved | assigned) <;> rcases phase' with ⟨ended, -⟩ | ended <;> simp_all

/-! ## One capture of an exchange -/

/-- The exchange has been drawn, or is the first of a call that has a record. -/
def System.Known (settings : Settings) (s : System) : Uuid → Prop
  | .drawn n _ => n < s.seed
  | .named name => ∃ callId, s.records.contains callId = true ∧ name = s!"{settings.scope.key}/{callId}"

/-- Exchanges and captures are drawn once; what has been captured is not claimed again. -/
structure System.Orderly (settings : Settings) (s : System) : Prop where
  named : ∀ callId record name, s.records.get callId = some record →
    record.call.exchangeId = .named name → name = s!"{settings.scope.key}/{callId}"
  drawn : ∀ callId record n k, s.records.get callId = some record →
    record.call.exchangeId = .drawn n k → n < s.seed
  apart : ∀ callId other record record', s.records.get callId = some record →
    s.records.get other = some record' → record.call.exchangeId = record'.call.exchangeId → callId = other
  capture : ∀ callId record captureId, s.records.get callId = some record →
    record.call.captureId = some captureId → ∃ n < s.seed, captureId = .drawn n 1
  own : ∀ callId other record record' captureId, s.records.get callId = some record →
    s.records.get other = some record' → record.call.captureId = some captureId →
    record'.call.captureId = some captureId → callId = other
  located : ∀ pair ∈ s.located, ∀ captureId, pair.2.captureId = some captureId →
    (∃ n < s.seed, captureId = .drawn n 1) ∧
      ∀ callId record, s.records.get callId = some record → record.call.captureId = some captureId →
        record.call.exchangeId = pair.2.exchangeId
  spent : ∀ x ∈ captured s.runtime.futures, s.Known settings x ∧
    ∀ callId record, s.records.get callId = some record → record.call.exchangeId = x →
      ¬ Call.Unclaimed record.call
  once : (captured s.runtime.futures).Nodup

variable {s : System} {request : RequestKey} {op : Op} {record : CallRecord} {reply : Reply}

theorem System.Orderly.known (orderly : s.Orderly settings) {callId : String} {record : CallRecord}
    (present : s.records.get callId = some record) : s.Known settings record.call.exchangeId := by
  cases exchange : record.call.exchangeId with
  | named name =>
      exact ⟨callId, Dict.contains_of_get present, orderly.named callId record name present exchange⟩
  | drawn n k => exact orderly.drawn callId record n k present exchange

theorem System.change_exchange (changed : s.change settings request op = .ok (record, reply)) :
    (∃ old, s.records.get (settings.digests.callId request) = some old ∧
        record.call.exchangeId = old.call.exchangeId ∧
        (Call.Unclaimed record.call → Call.Unclaimed old.call)) ∨
      (s.records.get (settings.digests.callId request) = none ∧
        record.call.exchangeId =
          .named s!"{settings.scope.key}/{settings.digests.callId request}") ∨
      record.call.exchangeId = .drawn s.seed 0 := by
  rcases moves_exchange (change_moves _ _ _ _ changed) with ⟨same, unclaimed⟩ | fresh
  · cases present : s.records.get (settings.digests.callId request) with
    | none =>
        rw [present] at same
        exact Or.inr (Or.inl ⟨rfl, same⟩)
    | some old =>
        rw [present] at same unclaimed
        exact Or.inl ⟨old, rfl, same, unclaimed⟩
  · exact Or.inr (Or.inr fresh)

theorem System.change_capture (changed : s.change settings request op = .ok (record, reply))
    {captureId : Uuid} (has : record.call.captureId = some captureId) :
    captureId = .drawn s.seed 1 ∨
      ∃ old, s.records.get (settings.digests.callId request) = some old ∧
        old.call.captureId = some captureId ∧ record.call.exchangeId = old.call.exchangeId := by
  simp only [System.change, Witness.change] at changed
  split at changed
  · cases changed
  · cases applied : operate settings.digests settings.exchangeSeconds s.seed
        ((s.records.get (settings.digests.callId request)).getD ⟨.drawn s.seed 2, settings.scope.key,
          newCall settings.digests settings.scope request⟩).call op with
    | error error =>
        rw [applied] at changed
        cases changed
    | ok pair =>
        rw [applied] at changed
        obtain ⟨rfl, rfl⟩ := Prod.mk.inj (Except.ok.inj changed)
        rcases operate_capture applied with none | fresh | ⟨same, exchange⟩
        · rw [none] at has
          cases has
        · rw [fresh] at has
          exact Or.inl (Option.some.inj has).symm
        · rw [same] at has
          cases present : s.records.get (settings.digests.callId request) with
          | none =>
              rw [present] at has
              cases has
          | some old =>
              rw [present] at has exchange
              exact Or.inr ⟨old, rfl, has, exchange⟩

theorem System.get_setRecord (callId : String) :
    (s.setRecord settings request record).records.get callId =
      if callId = settings.digests.callId request then some record else s.records.get callId :=
  Dict.get_set _ _ _ _

theorem System.Orderly.setRecord (orderly : s.Orderly settings)
    (changed : s.change settings request op = .ok (record, reply)) :
    (s.setRecord settings request record).Orderly settings := by
  have exchange := System.change_exchange changed
  -- the exchange of the new record is not that of another call
  have others : ∀ callId other, callId ≠ settings.digests.callId request →
      s.records.get callId = some other → other.call.exchangeId ≠ record.call.exchangeId := by
    intro callId other elsewhere present same
    rcases exchange with ⟨old, before, kept, -⟩ | ⟨-, first⟩ | fresh
    · exact elsewhere (orderly.apart _ _ _ _ present before (same.trans kept))
    · exact elsewhere (name_inj (orderly.named _ _ _ present (same.trans first)).symm)
    · exact absurd (orderly.drawn _ _ _ _ present (same.trans fresh)) (Nat.lt_irrefl _)
  have elsewhere : ∀ callId other captureId, callId ≠ settings.digests.callId request →
      s.records.get callId = some other → record.call.captureId = some captureId →
      other.call.captureId ≠ some captureId := by
    intro callId other captureId elsewhere present new has
    rcases System.change_capture changed new with rfl | ⟨old, before, had, -⟩
    · obtain ⟨n, less, is⟩ := orderly.capture callId other _ present has
      obtain ⟨rfl, -⟩ := Uuid.drawn.inj is
      exact absurd less (Nat.lt_irrefl _)
    · exact elsewhere (orderly.own callId _ other old captureId present before has had)
  have known : ∀ x, s.Known settings x → (s.setRecord settings request record).Known settings x := by
    intro x known
    cases x with
    | named name =>
        obtain ⟨callId, contained, is⟩ := known
        refine ⟨callId, ?_, is⟩
        simp only [System.setRecord, Dict.contains_set, contained, Bool.or_true]
    | drawn n k => exact Nat.lt_succ_of_lt known
  constructor
  · intro callId new name present is
    rw [System.get_setRecord] at present
    split at present
    · rename_i own
      obtain rfl := Option.some.inj present
      rw [own]
      rcases exchange with ⟨old, before, kept, -⟩ | ⟨-, first⟩ | fresh
      · exact orderly.named _ old name before (kept.symm.trans is)
      · exact Uuid.named.inj (is.symm.trans first)
      · rw [fresh] at is
        cases is
    · exact orderly.named callId new name present is
  · intro callId new n k present is
    rw [System.get_setRecord] at present
    split at present
    · obtain rfl := Option.some.inj present
      rcases exchange with ⟨old, before, kept, -⟩ | ⟨-, first⟩ | fresh
      · exact Nat.lt_succ_of_lt (orderly.drawn _ old n k before (kept.symm.trans is))
      · rw [first] at is
        cases is
      · rw [fresh] at is
        obtain ⟨rfl, -⟩ := Uuid.drawn.inj is
        exact Nat.lt_succ_self _
    · exact Nat.lt_succ_of_lt (orderly.drawn callId new n k present is)
  · intro callId other one two present present' same
    rw [System.get_setRecord] at present present'
    split at present <;> rename_i own <;> split at present' <;> rename_i own'
    · rw [own, own']
    · obtain rfl := Option.some.inj present
      exact absurd same.symm (others other two own' present')
    · obtain rfl := Option.some.inj present'
      exact absurd same (others callId one own present)
    · exact orderly.apart callId other one two present present' same
  · intro callId new captureId present has
    rw [System.get_setRecord] at present
    split at present
    · obtain rfl := Option.some.inj present
      rcases System.change_capture changed has with rfl | ⟨old, before, had, -⟩
      · exact ⟨s.seed, Nat.lt_succ_self _, rfl⟩
      · obtain ⟨n, less, is⟩ := orderly.capture _ old captureId before had
        exact ⟨n, Nat.lt_succ_of_lt less, is⟩
    · obtain ⟨n, less, is⟩ := orderly.capture callId new captureId present has
      exact ⟨n, Nat.lt_succ_of_lt less, is⟩
  · intro callId other one two captureId present present' has has'
    rw [System.get_setRecord] at present present'
    split at present <;> rename_i own <;> split at present' <;> rename_i own'
    · rw [own, own']
    · obtain rfl := Option.some.inj present
      exact absurd has' (elsewhere other two captureId own' present' has)
    · obtain rfl := Option.some.inj present'
      exact absurd has (elsewhere callId one captureId own present has')
    · exact orderly.own callId other one two captureId present present' has has'
  · intro pair member captureId own
    obtain ⟨⟨n, less, is⟩, same⟩ := orderly.located pair member captureId own
    refine ⟨⟨n, Nat.lt_succ_of_lt less, is⟩, ?_⟩
    intro callId new present has
    rw [System.get_setRecord] at present
    split at present
    · obtain rfl := Option.some.inj present
      rcases System.change_capture changed has with fresh | ⟨old, before, had, kept⟩
      · obtain ⟨rfl, -⟩ := Uuid.drawn.inj (is.symm.trans fresh)
        exact absurd less (Nat.lt_irrefl _)
      · exact kept.trans (same _ old before had)
    · exact same callId new present has
  · intro x member
    obtain ⟨old, spent⟩ := orderly.spent x member
    refine ⟨known x old, ?_⟩
    intro callId new present is unclaimed
    rw [System.get_setRecord] at present
    split at present
    · obtain rfl := Option.some.inj present
      rcases exchange with ⟨before, had, kept, claimed⟩ | ⟨absent, first⟩ | fresh
      · exact spent _ before had (kept.symm.trans is) (claimed unclaimed)
      · rw [← is, first] at old
        obtain ⟨callId', contained, name⟩ := old
        rw [← name_inj name, Dict.contains, absent] at contained
        cases contained
      · rw [← is, fresh] at old
        exact absurd old (Nat.lt_irrefl _)
    · exact spent callId new present is unclaimed
  · exact orderly.once

theorem System.claim_spec {captureId : Uuid}
    (changed : s.change settings request (.claim settings.podId captureId) =
      .ok (record, .claimed true)) :
    ∃ old, s.records.get (settings.digests.callId request) = some old ∧ old.call.phase = .assigned ∧
      old.call.captureId = some captureId ∧ record.call.exchangeId = old.call.exchangeId ∧
      record.call.phase = .capturing := by
  simp only [System.change, Witness.change, operate, Except.map] at changed
  split at changed
  · cases changed
  · cases present : s.records.get (settings.digests.callId request) with
    | none =>
        rw [present] at changed
        simp [Witness.claim, newCall] at changed
    | some old =>
        rw [present] at changed
        unfold Witness.claim at changed
        split at changed
        · cases changed
        · rename_i eligible
          simp only [not_or, not_not, Option.getD_some] at eligible
          obtain ⟨rfl, -⟩ := Prod.mk.inj (Except.ok.inj changed)
          exact ⟨old, rfl, eligible.1, eligible.2.2, rfl, rfl⟩

theorem System.Orderly.of_same {t : System} (orderly : s.Orderly settings) (records : t.records = s.records)
    (seed : t.seed = s.seed) (located : t.located = s.located)
    (futures : captured t.runtime.futures = captured s.runtime.futures) : t.Orderly settings where
  named := records ▸ orderly.named
  drawn := by
    rw [records, seed]
    exact orderly.drawn
  apart := records ▸ orderly.apart
  capture := by
    rw [records, seed]
    exact orderly.capture
  own := records ▸ orderly.own
  located := by
    rw [records, seed, located]
    exact orderly.located
  spent := by
    intro x member
    rw [futures] at member
    obtain ⟨known, spent⟩ := orderly.spent x member
    refine ⟨?_, records ▸ spent⟩
    cases x with
    | named name =>
        obtain ⟨callId, contained, is⟩ := known
        exact ⟨callId, records ▸ contained, is⟩
    | drawn n k => exact Nat.lt_of_lt_of_eq known seed.symm
  once := futures ▸ orderly.once

theorem System.Orderly.locate (orderly : s.Orderly settings) {callId : String} {record : CallRecord}
    (present : s.records.get callId = some record) :
    ({ s with located := s.located ++ [(record.call.request, record.call)] } : System).Orderly settings where
  named := orderly.named
  drawn := orderly.drawn
  apart := orderly.apart
  capture := orderly.capture
  own := orderly.own
  located := by
    intro pair member captureId has
    rcases List.mem_append.mp member with member | member
    · exact orderly.located pair member captureId has
    · obtain rfl := List.mem_singleton.mp member
      refine ⟨orderly.capture callId record captureId present has, ?_⟩
      intro other record' present' has'
      obtain rfl := orderly.own callId other record record' captureId present present' has has'
      rw [present] at present'
      obtain rfl := Option.some.inj present'
      rfl
  spent := orderly.spent
  once := orderly.once

theorem System.Orderly.captures {call : Call} {captureId : Uuid} {runtime : PodRuntime}
    (orderly : s.Orderly settings) (located : (request, call) ∈ s.located)
    (own : call.captureId = some captureId)
    (changed : s.change settings request (.claim settings.podId captureId) =
      .ok (record, .claimed true))
    (submitted : captured runtime.futures =
      captured s.runtime.futures ++ [call.exchangeId]) :
    ({ s.setRecord settings request record with runtime } : System).Orderly settings := by
  obtain ⟨old, present, assigned, has, exchange, capturing⟩ := System.claim_spec changed
  have same : old.call.exchangeId = call.exchangeId :=
    (orderly.located _ located captureId own).2 _ old present has
  have fresh : call.exchangeId ∉ captured s.runtime.futures := by
    intro member
    exact (orderly.spent _ member).2 _ old present same (Or.inr assigned)
  have later := orderly.setRecord changed
  have now : (s.setRecord settings request record).records.get (settings.digests.callId request) =
      some record := by
    rw [System.get_setRecord, if_pos rfl]
  refine ⟨later.named, later.drawn, later.apart, later.capture, later.own, later.located, ?_, ?_⟩
  · intro x member
    rw [submitted] at member
    rcases List.mem_append.mp member with member | member
    · exact later.spent x member
    · obtain rfl := List.mem_singleton.mp member
      have is : record.call.exchangeId = call.exchangeId := exchange.trans same
      refine ⟨is ▸ later.known now, ?_⟩
      intro callId other present' same' unclaimed
      obtain rfl := later.apart _ _ _ _ now present' (is.trans same'.symm)
      rw [now] at present'
      obtain rfl := Option.some.inj present'
      rw [Call.Unclaimed, capturing] at unclaimed
      rcases unclaimed with reserved | assigned
      · cases reserved
      · cases assigned
  · rw [submitted, ← List.concat_eq_append]
    exact orderly.once.concat fresh

/-! ## The steps of a Pod -/

structure System.Sound (settings : Settings) (s : System) : Prop where
  runtime : s.runtime.Sound settings
  orderly : s.Orderly settings

theorem System.claim_cases {captureId : Uuid} {answer : ClaimAnswer} {t : System}
    {result : Except Raised (Option Work)}
    (claimed : s.claim settings request captureId answer = (t, result)) :
    (t = s ∧ result ≠ .ok (some .capture)) ∨
      ∃ record reply, s.change settings request (.claim settings.podId captureId) = .ok (record, reply) ∧
        t = s.setRecord settings request record ∧
          (result = .ok (some .capture) → reply = .claimed true) := by
  unfold System.claim at claimed
  cases changed : s.change settings request (.claim settings.podId captureId) with
  | error error =>
      rw [changed] at claimed
      obtain ⟨rfl, rfl⟩ := Prod.mk.inj claimed
      exact Or.inl ⟨rfl, by simp⟩
  | ok pair =>
      rw [changed] at claimed
      obtain ⟨record, reply⟩ := pair
      cases answer with
      | failed =>
          obtain ⟨rfl, rfl⟩ := Prod.mk.inj claimed
          exact Or.inl ⟨rfl, by simp⟩
      | uncertain landed =>
          obtain ⟨left, rfl⟩ := Prod.mk.inj claimed
          cases landed with
          | false => exact Or.inl ⟨left.symm, by simp⟩
          | true => exact Or.inr ⟨record, reply, rfl, left.symm, by simp⟩
      | saved =>
          obtain ⟨rfl, rfl⟩ := Prod.mk.inj claimed
          refine Or.inr ⟨record, reply, rfl, rfl, ?_⟩
          intro capture
          by_contra other
          rw [if_neg other] at capture
          cases capture

theorem System.startCapture_cases {call : Call} {attempt : Attempt} {t : System}
    {result : Except Raised Bool}
    (started : s.startCapture settings request call attempt = (t, result)) :
    (t.runtime = s.runtime ∧ result ≠ .ok true ∧
        (t = s ∨ ∃ op record reply, s.change settings request op = .ok (record, reply) ∧
          t = s.setRecord settings request record)) ∨
      ∃ captureId u work, call.captureId = some captureId ∧
        s.runtime.active.contains call.exchangeId = false ∧
        s.runtime.selected settings attempt.reading = .ok true ∧
        s.runtime.active.size < settings.maxCaptures ∧
        s.claim settings request captureId attempt.answer = (u, .ok (some work)) ∧
        t = { u with
          runtime := { s.runtime with lastUsed := attempt.clock }
            |>.submit call.exchangeId work attempt.submits } := by
  unfold System.startCapture at started
  split at started
  · obtain ⟨rfl, rfl⟩ := Prod.mk.inj started
    exact Or.inl ⟨rfl, by simp, Or.inl rfl⟩
  rename_i inactive
  split at started
  · obtain ⟨rfl, rfl⟩ := Prod.mk.inj started
    exact Or.inl ⟨rfl, by simp, Or.inl rfl⟩
  rename_i chosen selects
  split at started
  · obtain ⟨rfl, rfl⟩ := Prod.mk.inj started
    exact Or.inl ⟨rfl, by simp, Or.inl rfl⟩
  rename_i room
  simp only [not_or, Bool.not_eq_false, not_le] at room
  split at started
  · obtain ⟨rfl, rfl⟩ := Prod.mk.inj started
    exact Or.inl ⟨rfl, by simp, Or.inl rfl⟩
  split at started
  · obtain ⟨rfl, rfl⟩ := Prod.mk.inj started
    exact Or.inl ⟨rfl, by simp, Or.inl rfl⟩
  rename_i captureId has
  split at started
  · obtain ⟨rfl, rfl⟩ := Prod.mk.inj started
    exact Or.inl ⟨rfl, by simp, Or.inl rfl⟩
  split at started
  · obtain ⟨rfl, rfl⟩ := Prod.mk.inj started
    exact Or.inl ⟨rfl, by simp, Or.inl rfl⟩
  have changes : ∀ u answer, s.claim settings request captureId attempt.answer = (u, answer) →
      u.runtime = s.runtime ∧ (u = s ∨ ∃ op record reply,
        s.change settings request op = .ok (record, reply) ∧ u = s.setRecord settings request record) := by
    intro u answer claimed
    rcases System.claim_cases claimed with ⟨rfl, -⟩ | ⟨record, reply, changed, rfl, -⟩
    · exact ⟨rfl, Or.inl rfl⟩
    · exact ⟨rfl, Or.inr ⟨_, record, reply, changed, rfl⟩⟩
  cases claimed : s.claim settings request captureId attempt.answer with
  | mk u answer =>
      obtain ⟨runtime, change⟩ := changes u answer claimed
      rw [claimed] at started
      rcases answer with error | _ | work
      · obtain ⟨rfl, rfl⟩ := Prod.mk.inj started
        exact Or.inl ⟨runtime, by simp, change⟩
      · obtain ⟨rfl, rfl⟩ := Prod.mk.inj started
        exact Or.inl ⟨runtime, by simp, change⟩
      · obtain ⟨rfl, -⟩ := Prod.mk.inj started
        refine Or.inr ⟨captureId, u, work, has, by simpa using inactive, ?_, room.2.2, claimed, ?_⟩
        · rw [selects, room.1]
        · rw [runtime]

theorem System.Sound.startCapture {call : Call} {attempt : Attempt} {t : System}
    {result : Except Raised Bool} (sound : s.Sound settings) (located : (request, call) ∈ s.located)
    (started : s.startCapture settings request call attempt = (t, result)) : t.Sound settings := by
  rcases System.startCapture_cases started with
    ⟨same, -, rfl | ⟨op, record, reply, changed, rfl⟩⟩ |
    ⟨captureId, u, work, has, inactive, -, room, claimed, rfl⟩
  · exact sound
  · exact ⟨sound.runtime, sound.orderly.setRecord changed⟩
  · have used : ({ s.runtime with lastUsed := attempt.clock } : PodRuntime).Sound settings :=
      sound.runtime.of_same rfl rfl
    refine ⟨used.submit work attempt.submits inactive fun _ => room, ?_⟩
    have submitted : captured (PodRuntime.submit { s.runtime with lastUsed := attempt.clock }
        call.exchangeId work attempt.submits).futures =
        captured s.runtime.futures ++ if work = .capture then [call.exchangeId] else [] := by
      rw [PodRuntime.submit, captured_append]
      cases work <;> rfl
    cases work with
    | capture =>
        rcases System.claim_cases claimed with ⟨-, other⟩ | ⟨record, reply, changed, rfl, success⟩
        · exact absurd rfl other
        · obtain rfl := success rfl
          exact sound.orderly.captures located has changed submitted
    | recover =>
        rw [if_neg (by decide), List.append_nil] at submitted
        rcases System.claim_cases claimed with ⟨rfl, -⟩ | ⟨record, reply, changed, rfl, -⟩
        · exact sound.orderly.of_same rfl rfl rfl submitted
        · exact (sound.orderly.setRecord changed).of_same rfl rfl rfl submitted

theorem PodRuntime.busy_setProgress {s : PodRuntime} {i : Nat} {f : Future}
    (at_i : s.futures[i]? = some f) (progress : Progress) :
    (s.setProgress i f progress).busy + (if f.Running then 1 else 0) =
      s.busy + if progress = .running ∨ progress = .finished then 1 else 0 := by
  obtain ⟨l, r, whole, changed⟩ := split_set at_i { f with progress }
  rw [PodRuntime.setProgress, PodRuntime.busy, PodRuntime.busy, changed, whole]
  simp only [List.countP_append, List.countP_cons, decide_eq_true_eq]
  by_cases running : f.progress = .running ∨ f.progress = .finished
  · rw [if_pos running, if_pos (show f.Running from running)]
    omega
  · rw [if_neg running, if_neg (show ¬ f.Running from running)]
    omega

theorem PodRuntime.tick_same {s t : PodRuntime} {clock : Rat} {drained : Bool}
    (ticked : s.tick settings clock = (t, drained)) :
    t.futures = s.futures ∧ t.active = s.active ∧
      (drained = true → t.draining = true ∧ t.active.size = 0) := by
  obtain ⟨rfl, rfl⟩ := Prod.mk.inj ticked
  refine ⟨?_, ?_, ?_⟩
  · split <;> rfl
  · split <;> rfl
  · intro drained
    simp only [Bool.and_eq_true, decide_eq_true_eq] at drained
    exact drained.1

theorem PodRuntime.admitArtifact_ok {s t : PodRuntime} {reading : Reading} {clock time : Rat}
    (admitted : s.admitArtifact settings reading clock time = .ok t) :
    s.selected settings reading = .ok true ∧ t = { s with rendering := s.rendering + 1 } := by
  unfold PodRuntime.admitArtifact at admitted
  cases chosen : s.selected settings reading with
  | error error =>
      rw [chosen] at admitted
      cases admitted
  | ok selects =>
      rw [chosen] at admitted
      cases selects with
      | false => cases admitted
      | true =>
          refine ⟨rfl, ?_⟩
          cases generation : s.requireGeneration settings clock time with
          | error error =>
              simp [generation, bind, Except.bind] at admitted
          | ok done =>
              simp only [generation, bind, Except.bind] at admitted
              by_cases closed : (settings.roundEnd.any fun roundEnd => decide (roundEnd ≤ time)) = true
              · rw [if_pos closed] at admitted
                cases admitted
              · rw [if_neg closed] at admitted
                exact (Except.ok.inj admitted).symm

theorem System.Sound.of_runtime {runtime : PodRuntime} (sound : s.Sound settings)
    (same : runtime.Sound settings) (futures : captured runtime.futures = captured s.runtime.futures) :
    ({ s with runtime } : System).Sound settings :=
  ⟨same, sound.orderly.of_same rfl rfl rfl futures⟩

theorem System.Sound.perform {event : Event} {answer : Answer} {t : System} (sound : s.Sound settings)
    (performed : s.perform settings event = some (t, answer)) : t.Sound settings := by
  have same : ∀ runtime : PodRuntime, runtime.futures = s.runtime.futures →
      runtime.active = s.runtime.active → ({ s with runtime } : System).Sound settings := by
    intro runtime futures active
    exact sound.of_runtime (sound.runtime.of_same futures active) (congrArg captured futures)
  cases event with
  | activate =>
      obtain ⟨rfl, -⟩ := Prod.mk.inj (Option.some.inj performed)
      exact same _ rfl rfl
  | policy value podId startId clock time =>
      obtain ⟨rfl, -⟩ := Prod.mk.inj (Option.some.inj performed)
      apply same
      · unfold PodRuntime.installPolicy
        cases value <;> dsimp only <;> split <;> rfl
      · unfold PodRuntime.installPolicy
        cases value <;> dsimp only <;> split <;> rfl
  | drain =>
      obtain ⟨rfl, -⟩ := Prod.mk.inj (Option.some.inj performed)
      exact same _ rfl rfl
  | tick clock =>
      obtain ⟨rfl, -⟩ := Prod.mk.inj (Option.some.inj performed)
      obtain ⟨futures, active, -⟩ := @PodRuntime.tick_same settings s.runtime _ clock _ rfl
      exact same _ futures active
  | stop =>
      obtain ⟨rfl, -⟩ := Prod.mk.inj (Option.some.inj performed)
      exact same _ rfl rfl
  | startCapture i attempt =>
      simp only [System.perform] at performed
      split at performed
      · cases performed
      · rename_i request call at_i
        obtain ⟨rfl, -⟩ := Prod.mk.inj (Option.some.inj performed)
        exact sound.startCapture (List.mem_of_getElem? at_i) rfl
  | begin i =>
      simp only [System.perform] at performed
      split at performed
      · rename_i f at_i
        split at performed
        · rename_i ready
          obtain ⟨rfl, -⟩ := Prod.mk.inj (Option.some.inj performed)
          have opened : f.Open := by
            rw [Future.Open, ready.1]
            decide
          have counted := PodRuntime.busy_setProgress at_i .running
          have idle : ¬ f.Running := by
            rw [Future.Running, ready.1]
            decide
          rw [if_neg idle, if_pos (Or.inl rfl)] at counted
          have room := ready.2.1
          exact sound.of_runtime (sound.runtime.setProgress at_i opened (by decide) (by omega))
            (captured_set at_i .running)
        · cases performed
      · cases performed
  | finish i =>
      simp only [System.perform] at performed
      split at performed
      · rename_i f at_i
        split at performed
        · rename_i running
          obtain ⟨rfl, -⟩ := Prod.mk.inj (Option.some.inj performed)
          have opened : f.Open := by
            rw [Future.Open, running]
            decide
          have counted := PodRuntime.busy_setProgress at_i .finished
          have busy : f.Running := Or.inl running
          rw [if_pos busy, if_pos (Or.inr rfl)] at counted
          have room := sound.runtime.busy
          exact sound.of_runtime (sound.runtime.setProgress at_i opened (by decide) (by omega))
            (captured_set at_i .finished)
        · cases performed
      · cases performed
  | done i clock =>
      simp only [System.perform] at performed
      split at performed
      · rename_i f at_i
        split at performed
        · rename_i finished
          obtain ⟨rfl, -⟩ := Prod.mk.inj (Option.some.inj performed)
          exact sound.of_runtime (sound.runtime.whenDone at_i finished.1 clock)
            (captured_set at_i .done)
        · cases performed
      · cases performed
  | admitArtifact reading clock time =>
      simp only [System.perform] at performed
      split at performed
      · obtain ⟨rfl, -⟩ := Prod.mk.inj (Option.some.inj performed)
        exact sound
      · rename_i runtime admitted
        obtain ⟨rfl, -⟩ := Prod.mk.inj (Option.some.inj performed)
        obtain ⟨-, rfl⟩ := PodRuntime.admitArtifact_ok admitted
        exact same _ rfl rfl
  | artifactDone clock =>
      simp only [System.perform] at performed
      split at performed
      · cases performed
      · obtain ⟨rfl, -⟩ := Prod.mk.inj (Option.some.inj performed)
        exact same _ rfl rfl
  | locate callId exchangeId =>
      simp only [System.perform] at performed
      split at performed
      · cases performed
      · rename_i record present
        split at performed
        · obtain ⟨rfl, -⟩ := Prod.mk.inj (Option.some.inj performed)
          exact ⟨sound.runtime, sound.orderly.locate present⟩
        · cases performed
  | change request op =>
      simp only [System.perform] at performed
      split at performed
      · cases performed
      · rename_i record reply changed
        obtain ⟨rfl, -⟩ := Prod.mk.inj (Option.some.inj performed)
        exact ⟨sound.runtime, sound.orderly.setRecord changed⟩

theorem System.Sound.step {event : Event} {t : System} (sound : s.Sound settings)
    (stepped : s.step settings event = some t) : t.Sound settings := by
  obtain ⟨⟨u, answer⟩, performed, rfl⟩ := Option.map_eq_some_iff.mp stepped
  exact sound.perform performed

theorem PodRuntime.Sound.recovers {s : PodRuntime} {spool : List Uuid} (sound : s.Sound settings)
    (distinct : spool.Nodup) (absent : ∀ x ∈ spool, s.active.contains x = false) :
    (spool.foldl (fun s exchangeId => s.submit exchangeId .recover true) s).Sound settings ∧
      captured (spool.foldl (fun s exchangeId => s.submit exchangeId .recover true) s).futures =
        captured s.futures := by
  induction spool generalizing s with
  | nil => exact ⟨sound, rfl⟩
  | cons first rest ih =>
      obtain ⟨new, distinct⟩ := List.nodup_cons.mp distinct
      have next := sound.submit .recover true (absent first List.mem_cons_self) nofun
      have later : ∀ x ∈ rest, (s.submit first .recover true).active.contains x = false := by
        intro x member
        have other : x ≠ first := fun same => new (same ▸ member)
        simp only [PodRuntime.submit, Dict.contains_set, absent x (.tail _ member), Bool.or_false,
          decide_eq_false_iff_not]
        exact other
      obtain ⟨kept, same⟩ := ih next distinct later
      refine ⟨kept, same.trans ?_⟩
      rw [PodRuntime.submit, captured_append]
      exact List.append_nil _

theorem System.Sound.start {spool : List Uuid} (distinct : spool.Nodup) (clock : Rat) :
    (System.start spool clock).Sound settings := by
  have idle : ({ lastUsed := clock } : PodRuntime).Sound settings :=
    ⟨List.nodup_nil, nofun, Nat.zero_le _, Nat.zero_le _⟩
  obtain ⟨sound, none⟩ := idle.recovers distinct fun x _ => Dict.contains_empty x
  have none : captured (System.start spool clock).runtime.futures = [] := none
  have no_record : ∀ callId record, (System.start spool clock).records.get callId ≠ some record := by
    intro callId record present
    rw [show (System.start spool clock).records.get callId = Option.none from Dict.get_empty callId]
      at present
    cases present
  refine ⟨sound, ?_, ?_, ?_, ?_, ?_, ?_, ?_, ?_⟩
  · exact fun callId record name present => absurd present (no_record callId record)
  · exact fun callId record n k present => absurd present (no_record callId record)
  · exact fun callId other record record' present => absurd present (no_record callId record)
  · exact fun callId record captureId present => absurd present (no_record callId record)
  · exact fun callId other record record' captureId present => absurd present (no_record callId record)
  · exact fun pair member => absurd member List.not_mem_nil
  · rw [none]
    exact fun x member => absurd member List.not_mem_nil
  · rw [none]
    exact List.nodup_nil

/-! ## A drained Pod -/

/-- The Pod is draining and nothing is open: this is for good. -/
structure PodRuntime.Retired (s : PodRuntime) : Prop where
  draining : s.draining = true
  done : ∀ f ∈ s.futures, ¬ f.Open

theorem PodRuntime.Retired.not_selected {s : PodRuntime} (retired : s.Retired) (reading : Reading) :
    s.selected settings reading = .ok false := by
  have not_open : ¬ (s.accepting = true ∧ s.draining = false) := by
    rw [retired.draining]
    exact fun both => Bool.noConfusion both.2
  unfold PodRuntime.selected
  rw [if_neg not_open]

theorem PodRuntime.Sound.retired {s t : PodRuntime} {clock : Rat} (sound : s.Sound settings)
    (ticked : s.tick settings clock = (t, true)) : t.Retired := by
  obtain ⟨futures, active, drained⟩ := PodRuntime.tick_same ticked
  obtain ⟨draining, empty⟩ := drained rfl
  refine ⟨draining, ?_⟩
  intro f member opened
  rw [futures] at member
  have exchange : f.exchangeId ∈ openExchanges s.futures :=
    List.mem_map.mpr ⟨f, List.mem_filter.mpr ⟨member, decide_eq_true opened⟩, rfl⟩
  have few := sound.open_le
  rw [← active, empty] at few
  exact absurd (List.length_pos_of_mem exchange) (by omega)

theorem PodRuntime.Retired.closed {s : PodRuntime} (retired : s.Retired) {i : Nat} {f : Future}
    (at_i : s.futures[i]? = some f) : f.progress = .done := by
  by_contra opened
  exact retired.done f (List.mem_of_getElem? at_i) opened

theorem System.startCapture_retired {call : Call} {attempt : Attempt} {t : System}
    {result : Except Raised Bool} (retired : s.runtime.Retired)
    (started : s.startCapture settings request call attempt = (t, result)) :
    t.runtime = s.runtime ∧ result ≠ .ok true := by
  rcases System.startCapture_cases started with
    ⟨same, refused, -⟩ | ⟨captureId, u, work, -, -, selected, -⟩
  · exact ⟨same, refused⟩
  · rw [retired.not_selected] at selected
    cases selected

theorem System.perform_retired {event : Event} {answer : Answer} {t : System}
    (retired : s.runtime.Retired) (performed : s.perform settings event = some (t, answer)) :
    t.runtime.Retired ∧ ¬ answer.Admits := by
  cases event with
  | activate =>
      obtain ⟨rfl, rfl⟩ := Prod.mk.inj (Option.some.inj performed)
      exact ⟨⟨retired.draining, retired.done⟩, id⟩
  | policy value podId startId clock time =>
      obtain ⟨rfl, rfl⟩ := Prod.mk.inj (Option.some.inj performed)
      refine ⟨?_, id⟩
      unfold PodRuntime.installPolicy
      cases value <;> dsimp only <;> split <;> exact ⟨retired.draining, retired.done⟩
  | drain =>
      obtain ⟨rfl, rfl⟩ := Prod.mk.inj (Option.some.inj performed)
      exact ⟨⟨rfl, retired.done⟩, id⟩
  | tick clock =>
      obtain ⟨rfl, rfl⟩ := Prod.mk.inj (Option.some.inj performed)
      refine ⟨?_, id⟩
      dsimp only [PodRuntime.tick]
      split
      · exact ⟨rfl, retired.done⟩
      · exact retired
  | stop =>
      obtain ⟨rfl, rfl⟩ := Prod.mk.inj (Option.some.inj performed)
      exact ⟨⟨rfl, retired.done⟩, id⟩
  | startCapture i attempt =>
      simp only [System.perform] at performed
      split at performed
      · cases performed
      · rename_i request call at_i
        obtain ⟨rfl, rfl⟩ := Prod.mk.inj (Option.some.inj performed)
        obtain ⟨same, refused⟩ := @System.startCapture_retired settings s request call attempt _ _ retired rfl
        refine ⟨same ▸ retired, ?_⟩
        rintro ⟨begun, is, rfl⟩
        exact refused is
  | begin i =>
      simp only [System.perform] at performed
      split at performed
      · rename_i f at_i
        rw [retired.closed at_i, if_neg (fun ready => nomatch ready.1)] at performed
        cases performed
      · cases performed
  | finish i =>
      simp only [System.perform] at performed
      split at performed
      · rename_i f at_i
        rw [retired.closed at_i, if_neg (by decide)] at performed
        cases performed
      · cases performed
  | done i clock =>
      simp only [System.perform] at performed
      split at performed
      · rename_i f at_i
        rw [retired.closed at_i, if_neg (fun ready => nomatch ready.1)] at performed
        cases performed
      · cases performed
  | admitArtifact reading clock time =>
      simp only [System.perform] at performed
      split at performed
      · obtain ⟨rfl, rfl⟩ := Prod.mk.inj (Option.some.inj performed)
        refine ⟨retired, ?_⟩
        rintro ⟨admitted, is⟩
        cases is
      · rename_i runtime admitted
        obtain ⟨selected, -⟩ := PodRuntime.admitArtifact_ok admitted
        rw [retired.not_selected] at selected
        cases selected
  | artifactDone clock =>
      simp only [System.perform] at performed
      split at performed
      · cases performed
      · obtain ⟨rfl, rfl⟩ := Prod.mk.inj (Option.some.inj performed)
        exact ⟨⟨retired.draining, retired.done⟩, id⟩
  | locate callId exchangeId =>
      simp only [System.perform] at performed
      split at performed
      · cases performed
      · split at performed
        · obtain ⟨rfl, rfl⟩ := Prod.mk.inj (Option.some.inj performed)
          exact ⟨retired, id⟩
        · cases performed
  | change request op =>
      simp only [System.perform] at performed
      split at performed
      · cases performed
      · obtain ⟨rfl, rfl⟩ := Prod.mk.inj (Option.some.inj performed)
        exact ⟨retired, id⟩

/-- Whatever happens to a Pod: few captures are active, no exchange is captured twice, and once
`tick` has reported the drain no future is left and no capture, render or save is admitted. -/
theorem drained_for_good {spool : List Uuid} {clock : Rat} {events : List Event} {s : System}
    (distinct : spool.Nodup)
    (ran : run (System.step settings) (System.start spool clock) events = some s) :
    (openCaptures s.runtime.futures ≤ settings.maxCaptures ∧ s.runtime.busy ≤ settings.maxCaptures) ∧
    ((captured s.runtime.futures).Nodup ∧ (openExchanges s.runtime.futures).Nodup) ∧
    ∀ clock t, s.perform settings (.tick clock) = some (t, .ticked true) →
      ∀ later u, run (System.step settings) t later = some u →
        (∀ f ∈ u.runtime.futures, ¬ f.Open) ∧
          ∀ event v answer, u.perform settings event = some (v, answer) → ¬ answer.Admits := by
  have sound : s.Sound settings :=
    run_invariant ran (fun _ _ _ sound stepped => sound.step stepped) (.start distinct clock)
  refine ⟨⟨sound.runtime.captures, sound.runtime.busy⟩, ⟨sound.orderly.once, sound.runtime.nodup⟩, ?_⟩
  intro clock t reported later u ran
  have retired : t.runtime.Retired := by
    obtain ⟨rfl, ticked⟩ := Prod.mk.inj (Option.some.inj reported)
    have drained : (s.runtime.tick settings clock).2 = true := Answer.ticked.inj ticked
    exact sound.runtime.retired (Prod.ext rfl drained)
  have keeps : ∀ (before : System) (event : Event) (after : System), before.runtime.Retired →
      before.step settings event = some after → after.runtime.Retired := by
    intro before event after retired stepped
    obtain ⟨⟨x, answer⟩, performed, rfl⟩ := Option.map_eq_some_iff.mp stepped
    exact (System.perform_retired retired performed).1
  have still : u.runtime.Retired :=
    @run_invariant _ _ _ (fun u => u.runtime.Retired) _ _ _ ran keeps retired
  exact ⟨still.done, fun event v answer performed => (System.perform_retired still performed).2⟩

/-! ## One capture -/

def samplePod : Settings where
  scope := ⟨"prod", "round-7", "5FHneW46"⟩
  startId := "start-1"
  podId := "pod-1"
  maxCaptures := 32
  idleSeconds := 1800
  selection := true
  roundInputs := none
  roundEnd := none
  bounds := by decide
  ownRound := nofun
  fingerprint _ := ""
  digests := ⟨fun _ => "bca95e5b", fun _ => ""⟩
  exchangeSeconds := 900

def oneRequest : RequestKey := ⟨.api, "44136fa3", 0, none⟩

def oneExchange : Uuid := firstExchange samplePod.digests samplePod.scope oneRequest

/-- A spooled exchange is recovered while another one is captured; then the Pod is drained. -/
def captureEvents : List Event :=
  [.change oneRequest (.assign "start-1" "pod-1" true none), .locate "bca95e5b" oneExchange, .activate,
    .startCapture 0 ⟨some (some ⟨"start-1", "pod-1", 1, true, none⟩), 5, 1700000000, true, .saved, true⟩,
    .begin 0, .begin 1, .finish 0, .done 0 7, .drain, .finish 1, .done 1 8]

def capturedOnce : System :=
  (run (System.step samplePod) (System.start [.drawn 0 0] 0) captureEvents).getD
    (System.start [] 0)

theorem drained_for_good_sample :
    captured capturedOnce.runtime.futures = [oneExchange] ∧
      ∀ event v answer, ({ capturedOnce with runtime := (capturedOnce.runtime.tick samplePod 9).1 } :
        System).perform samplePod event = some (v, answer) → ¬ answer.Admits := by
  have enabled : (run (System.step samplePod) (System.start [.drawn 0 0] 0) captureEvents).isSome := by
    decide +kernel
  obtain ⟨s, ran⟩ := Option.isSome_iff_exists.mp enabled
  have same : capturedOnce = s := by rw [capturedOnce, ran, Option.getD_some]
  have drained : (capturedOnce.runtime.tick samplePod 9).2 = true := by decide +kernel
  have reported : capturedOnce.perform samplePod (.tick 9) = some
      ({ capturedOnce with runtime := (capturedOnce.runtime.tick samplePod 9).1 }, .ticked true) := by
    rw [← drained]
    rfl
  rw [← same] at ran
  obtain ⟨-, -, retired⟩ := drained_for_good (List.nodup_singleton _) ran
  exact ⟨by decide +kernel, (retired 9 _ reported [] _ rfl).2⟩

end GenSubnet.Witness.PodService
