import GenSubnet.Gateway.Middleware
import GenSubnet.Library.Transition
import Mathlib

/-!
# The request rate of a miner

An entry that the purge drops is full, so a table without the purge makes the same decisions. There
every request takes a token of its hotkey's bucket, which bounds the requests of a window; the bound
is exact but for the rounding of the refills.
-/

namespace GenSubnet.Gateway.Middleware
open Library Rounding

variable {settings : Settings} {interval : Rat}

/-! ## The bucket -/

theorem available_mono (positive : 0 < interval) {entry : Rate} {earlier later : Rat}
    (nonneg : 0 ≤ entry.1) (since : entry.2 ≤ earlier) (le : earlier ≤ later) :
    available interval entry earlier ≤ available interval entry later := by
  have elapsed : nearest (earlier - entry.2) ≤ nearest (later - entry.2) :=
    nearest_mono (sub_nonneg.mpr since) (by linarith)
  have started : 0 ≤ nearest (earlier - entry.2) := nearest_nonneg (sub_nonneg.mpr since)
  have refill : nearest (nearest (earlier - entry.2) / interval) ≤
      nearest (nearest (later - entry.2) / interval) :=
    nearest_mono (div_nonneg started positive.le) (div_le_div_of_nonneg_right elapsed positive.le)
  have refilled : 0 ≤ nearest (nearest (earlier - entry.2) / interval) :=
    nearest_nonneg (div_nonneg started positive.le)
  exact nearest_mono (by linarith) (by linarith)

theorem two_le_available (positive : 0 < interval) {entry : Rate} {now : Rat}
    (nonneg : 0 ≤ entry.1) (idle : 2 * interval ≤ nearest (now - entry.2)) :
    2 ≤ available interval entry now := by
  have refilled : 2 ≤ nearest (nearest (now - entry.2) / interval) :=
    two_le_nearest ((le_div_iff₀ positive).mpr idle)
  exact two_le_nearest (by linarith)

theorem spend_tokens (positive : 0 < interval) {entry : Option Rate} {now : Rat}
    (enough : 1 ≤ available interval (entry.getD (2, now)) now) :
    (spend interval entry now).1 = min 2 (available interval (entry.getD (2, now)) now) - 1 ∧
      0 ≤ (spend interval entry now).1 ∧ (spend interval entry now).1 ≤ 1 := by
  have low : (1 : Rat) ≤ min 2 (available interval (entry.getD (2, now)) now) :=
    le_min (by norm_num) enough
  have high : min 2 (available interval (entry.getD (2, now)) now) ≤ 2 := min_le_left _ _
  have exact_ : Exact (min 2 (available interval (entry.getD (2, now)) now) - 1) :=
    exact_min_two_sub_one enough
  rw [spend, if_pos positive, exact_]
  exact ⟨rfl, by linarith, by linarith⟩

theorem available_fresh (positive : 0 < interval) {at_ now : Rat} (le : at_ ≤ now) :
    2 ≤ available interval (2, at_) now := by
  have started : 0 ≤ nearest (now - at_) := nearest_nonneg (sub_nonneg.mpr le)
  have refilled : 0 ≤ nearest (nearest (now - at_) / interval) :=
    nearest_nonneg (div_nonneg started positive.le)
  apply two_le_nearest
  change 2 ≤ 2 + nearest (nearest (now - at_) / interval)
  linarith

theorem min_available_le (positive : 0 < interval) {entry : Rate} {now : Rat}
    (nonneg : 0 ≤ entry.1) (since : entry.2 ≤ now) (exact_ : Exact entry.2) (exact' : Exact now) :
    min 2 (available interval entry now) ≤
      entry.1 + (now - entry.2) / interval * (1 + 1 / 2 ^ 51) + 1 / 2 ^ 52 := by
  have elapsed : nearest (now - entry.2) ≤ (now - entry.2) * (1 + 1 / 2 ^ 53) := by
    have := nearest_sub_le exact' exact_ since
    linarith
  have started : 0 ≤ nearest (now - entry.2) := nearest_nonneg (sub_nonneg.mpr since)
  have quotient : nearest (now - entry.2) / interval ≤
      (now - entry.2) / interval * (1 + 1 / 2 ^ 53) := by
    rw [div_mul_eq_mul_div]
    exact div_le_div_of_nonneg_right elapsed positive.le
  have ratio : 0 ≤ (now - entry.2) / interval := div_nonneg (sub_nonneg.mpr since) positive.le
  have relative := nearest_le_relative (div_nonneg started positive.le)
  have tiny : (2 : Rat) ^ (-1075 : Int) ≤ 2 ^ (-54 : Int) :=
    zpow_le_zpow_right₀ (by norm_num) (by norm_num)
  have value : (2 : Rat) ^ (-54 : Int) = 1 / 2 ^ 54 := by norm_num [zpow_neg]
  rw [value] at tiny
  have refill : nearest (nearest (now - entry.2) / interval) ≤
      (now - entry.2) / interval * (1 + 1 / 2 ^ 51) + 1 / 2 ^ 54 := by
    generalize (2 : Rat) ^ (-1075 : Int) = smallest at relative tiny
    linarith
  have refilled : 0 ≤ nearest (nearest (now - entry.2) / interval) :=
    nearest_nonneg (div_nonneg started positive.le)
  rcases le_or_gt 2 (entry.1 + nearest (nearest (now - entry.2) / interval)) with full | room
  · have := min_le_left 2 (available interval entry now)
    linarith
  · have rounded : available interval entry now ≤
        entry.1 + nearest (nearest (now - entry.2) / interval) + 1 / 2 ^ 53 :=
      nearest_le_add (by rw [abs_of_nonneg (by linarith)]; exact room)
    have := min_le_right 2 (available interval entry now)
    linarith

/-! ## A log of admissions -/

/-- Every admission of the log takes a token that its bucket has, with the clock going forward. -/
inductive Regular (interval : Rat) : List (String × Rat) → Prop
  | nil : Regular interval []
  | allow {log : List (String × Rat)} {hotkey : String} {now : Rat} :
      Regular interval log → (∀ admission ∈ log, admission.2 ≤ now) → Exact now →
      1 ≤ available interval (((unpurged interval log).get hotkey).getD (2, now)) now →
      Regular interval (log ++ [(hotkey, now)])

theorem unpurged_concat (interval : Rat) (log : List (String × Rat)) (hotkey : String) (now : Rat) :
    unpurged interval (log ++ [(hotkey, now)]) = (unpurged interval log).set hotkey
      (spend interval ((unpurged interval log).get hotkey) now) := by
  simp [unpurged, List.foldl_append]

theorem Regular.entry {log : List (String × Rat)} (positive : 0 < interval)
    (regular : Regular interval log) {hotkey : String} {entry : Rate}
    (found : (unpurged interval log).get hotkey = some entry) :
    0 ≤ entry.1 ∧ entry.1 ≤ 1 ∧ Exact entry.2 ∧ (hotkey, entry.2) ∈ log := by
  induction regular with
  | nil => cases found
  | @allow log owner now regular past exact_ enough ih =>
      rw [unpurged_concat, Dict.get_set] at found
      split at found
      · rename_i same
        obtain rfl := Option.some.inj found
        obtain ⟨-, low, high⟩ := spend_tokens positive enough
        exact ⟨low, high, exact_, by simp [same, spend]⟩
      · obtain ⟨low, high, exact', member⟩ := ih found
        exact ⟨low, high, exact', List.mem_append_left _ member⟩

/-- The admissions of a hotkey from a time on. -/
def since (log : List (String × Rat)) (hotkey : String) (begins : Rat) : Nat :=
  log.countP fun admission => decide (admission.1 = hotkey ∧ begins ≤ admission.2)

theorem since_concat (log : List (String × Rat)) (hotkey owner : String) (begins now : Rat) :
    since (log ++ [(owner, now)]) hotkey begins =
      since log hotkey begins + if owner = hotkey ∧ begins ≤ now then 1 else 0 := by
  simp [since, List.countP_append, List.countP_singleton]

theorem Regular.potential {log : List (String × Rat)} (positive : 0 < interval)
    (regular : Regular interval log) (hotkey : String) (begins : Rat) :
    since log hotkey begins = 0 ∨
      ∃ entry, (unpurged interval log).get hotkey = some entry ∧ begins ≤ entry.2 ∧
        ((since log hotkey begins : Rat) - 1) * (1 - 1 / 2 ^ 52) + entry.1 ≤
          1 + (entry.2 - begins) / interval * (1 + 1 / 2 ^ 51) := by
  induction regular with
  | nil => exact Or.inl rfl
  | @allow log owner now regular past exact_ enough ih =>
      rw [since_concat, unpurged_concat]
      by_cases counts : owner = hotkey ∧ begins ≤ now
      · obtain ⟨rfl, after⟩ := counts
        rw [if_pos ⟨rfl, after⟩]
        refine Or.inr ⟨_, Dict.get_set_self _ _ _, after, ?_⟩
        obtain ⟨left, -, high⟩ := spend_tokens positive enough
        change ((since log owner begins + 1 : Nat) - 1 : Rat) * (1 - 1 / 2 ^ 52) + _ ≤
          1 + (now - begins) / interval * (1 + 1 / 2 ^ 51)
        push_cast
        rcases ih with none | ⟨entry, found, from_, bound⟩
        · rw [none]
          have : 0 ≤ (now - begins) / interval := div_nonneg (sub_nonneg.mpr after) positive.le
          norm_num
          linarith
        · obtain ⟨low, -, exact', member⟩ := regular.entry positive found
          have refill := min_available_le positive low (past _ member) exact' exact_
          rw [left, found, Option.getD_some]
          have split : (now - begins) / interval =
              (now - entry.2) / interval + (entry.2 - begins) / interval := by
            rw [← add_div]
            congr 1
            ring
          rw [split]
          linarith
      · rw [if_neg counts, Nat.add_zero]
        by_cases mine : hotkey = owner
        · subst mine
          -- The admission lies before the time, and so does every earlier one.
          have before : now < begins := not_le.mp fun le => counts ⟨rfl, le⟩
          refine Or.inl (List.countP_eq_zero.mpr fun admission member => ?_)
          have := past admission member
          simp only [decide_eq_true_eq, not_and, not_le]
          intro _
          linarith
        · rw [Dict.get_set_of_ne _ _ mine]
          exact ih

/-- The admissions of a hotkey in a window. -/
def within (log : List (String × Rat)) (hotkey : String) (begins ends : Rat) : Nat :=
  log.countP fun admission =>
    decide (admission.1 = hotkey ∧ begins ≤ admission.2 ∧ admission.2 ≤ ends)

theorem Regular.within_le {log : List (String × Rat)} (positive : 0 < interval)
    (regular : Regular interval log) (hotkey : String) {begins ends : Rat} (le : begins ≤ ends) :
    (within log hotkey begins ends : Rat) * (1 - 1 / 2 ^ 52) ≤
      2 + (ends - begins) / interval * (1 + 1 / 2 ^ 51) := by
  have window : 0 ≤ (ends - begins) / interval := div_nonneg (sub_nonneg.mpr le) positive.le
  induction regular with
  | nil =>
      simp only [within, List.countP_nil, Nat.cast_zero, zero_mul]
      linarith
  | @allow log owner now regular past exact_ enough ih =>
      by_cases late : ends < now
      · have same : within (log ++ [(owner, now)]) hotkey begins ends =
            within log hotkey begins ends := by
          simp [within, List.countP_append, not_le.mpr late]
        rw [same]
        exact ih
      · have all := Regular.allow regular past exact_ enough
        have inWindow : ∀ admission ∈ log ++ [(owner, now)], admission.2 ≤ ends := by
          intro admission member
          rcases List.mem_append.mp member with member | member
          · exact (past admission member).trans (not_lt.mp late)
          · rw [List.mem_singleton.mp member]
            exact not_lt.mp late
        have same : within (log ++ [(owner, now)]) hotkey begins ends =
            since (log ++ [(owner, now)]) hotkey begins := by
          apply List.countP_congr
          intro admission member
          simp [inWindow admission member]
        rw [same]
        rcases all.potential positive hotkey begins with none | ⟨entry, found, from_, bound⟩
        · rw [none]
          norm_num
          linarith
        · obtain ⟨low, -, -, member⟩ := all.entry positive found
          have : (entry.2 - begins) / interval ≤ (ends - begins) / interval :=
            div_le_div_of_nonneg_right (by linarith [inWindow _ member]) positive.le
          linarith

/-! ## The purge -/

/-- The table holds what the table without purges holds, but for entries that are full. -/
def Agrees (interval : Rat) (rate whole : Dict String Rate) (now : Rat) : Prop :=
  ∀ hotkey, rate.get hotkey = whole.get hotkey ∨
    rate.get hotkey = none ∧
      ∀ entry, whole.get hotkey = some entry → 2 * interval ≤ nearest (now - entry.2)

theorem Agrees.later {rate whole : Dict String Rate} {earlier later : Rat}
    (agrees : Agrees interval rate whole earlier)
    (past : ∀ hotkey entry, whole.get hotkey = some entry → entry.2 ≤ earlier)
    (le : earlier ≤ later) : Agrees interval rate whole later := by
  intro hotkey
  rcases agrees hotkey with same | ⟨absent, idle⟩
  · exact Or.inl same
  · refine Or.inr ⟨absent, fun entry found => (idle entry found).trans ?_⟩
    exact nearest_mono (sub_nonneg.mpr (past hotkey entry found)) (by linarith)

theorem Agrees.purge {rate whole : Dict String Rate} {now : Rat}
    (agrees : Agrees interval rate whole now) :
    Agrees interval (purgeRate interval rate now) whole now := by
  unfold purgeRate
  split
  · intro hotkey
    rcases agrees hotkey with same | ⟨absent, idle⟩
    · rw [Dict.get_filter, same]
      cases found : whole.get hotkey with
      | none => exact Or.inl rfl
      | some entry =>
          by_cases recent : nearest (now - entry.2) < max 60 (2 * interval)
          · exact Or.inl (by simp [Option.filter, recent])
          · refine Or.inr ⟨by simp [Option.filter, recent], ?_⟩
            rintro other ⟨⟩
            exact (le_max_right _ _).trans (not_lt.mp recent)
    · exact Or.inr ⟨by rw [Dict.get_filter, absent]; rfl, idle⟩
  · exact agrees

theorem Agrees.available {rate whole : Dict String Rate} {clock first second : Rat}
    (positive : 0 < interval) (agrees : Agrees interval rate whole clock)
    (sound : ∀ hotkey entry, whole.get hotkey = some entry → 0 ≤ entry.1 ∧ entry.2 ≤ clock)
    (from_ : clock ≤ first) (le : first ≤ second) (hotkey : String) :
    rate.get hotkey = whole.get hotkey ∨
      2 ≤ available interval ((rate.get hotkey).getD (2, first)) second ∧
        2 ≤ available interval ((whole.get hotkey).getD (2, first)) second := by
  rcases agrees hotkey with same | ⟨absent, idle⟩
  · exact Or.inl same
  · rw [absent]
    refine Or.inr ⟨available_fresh positive le, ?_⟩
    cases found : whole.get hotkey with
    | none => exact available_fresh positive le
    | some entry =>
        obtain ⟨nonneg, past⟩ := sound hotkey entry found
        apply two_le_available positive nonneg
        exact (idle entry found).trans (nearest_mono (sub_nonneg.mpr past) (by simp; linarith))

theorem Agrees.spend {rate whole : Dict String Rate} {now : Rat} (positive : 0 < interval)
    (agrees : Agrees interval rate whole now)
    (sound : ∀ hotkey entry, whole.get hotkey = some entry → 0 ≤ entry.1 ∧ entry.2 ≤ now)
    (hotkey : String) :
    Middleware.spend interval (rate.get hotkey) now =
      Middleware.spend interval (whole.get hotkey) now := by
  rcases agrees.available positive sound le_rfl le_rfl hotkey with same | ⟨left, right⟩
  · rw [same]
  · rw [Middleware.spend, Middleware.spend, min_eq_left left, min_eq_left right]

theorem Agrees.set {rate whole : Dict String Rate} {now : Rat}
    (agrees : Agrees interval rate whole now) (hotkey : String) (entry : Rate) :
    Agrees interval (rate.set hotkey entry) (whole.set hotkey entry) now := by
  intro other
  rw [Dict.get_set, Dict.get_set]
  split
  · exact Or.inl rfl
  · exact agrees other

/-! ## What a step does -/

/-- Nothing changes for the miners but the time. -/
structure Quiet (s s' : State) : Prop where
  rate : s'.rate = s.rate
  busy : s'.busy = s.busy
  admissions : s'.admissions = s.admissions
  clock : s.clock ≤ s'.clock
  handlers : ∀ hotkey, s'.handlers hotkey = s.handlers hotkey

theorem handlers_set {requests : List Phase} {i : Nat} {old : Phase} (at_i : requests[i]? = some old)
    (hotkey : String) (new : Phase) :
    (requests.set i new).countP (Phase.handles hotkey) + (old.handles hotkey).toNat =
      requests.countP (Phase.handles hotkey) + (new.handles hotkey).toNat := by
  obtain ⟨bound, rfl⟩ := List.getElem?_eq_some_iff.mp at_i
  rw [List.countP_set bound]
  have positive : (requests[i].handles hotkey) = true →
      0 < requests.countP (Phase.handles hotkey) := fun h =>
    List.countP_pos_iff.mpr ⟨_, List.getElem_mem bound, h⟩
  cases before : requests[i].handles hotkey <;> cases after : new.handles hotkey
  · simp
  · simp
  · have := positive before
    simp
    omega
  · have := positive before
    simp
    omega

theorem handles_finished (hotkey : String) (outcome : Except Raised Unit) :
    (Event.finished outcome).handles hotkey = false := by
  cases outcome <;> rfl

theorem arrive_quiet (settings : Settings) (s : State) (request : Request)
    (control : Except Raised Unit) (first second now : Rat) (hotkey : String) :
    (arrive settings s request control first second now).1.rate = s.rate ∧
      (arrive settings s request control first second now).1.busy = s.busy ∧
      (arrive settings s request control first second now).1.admissions = s.admissions ∧
      (arrive settings s request control first second now).1.clock = s.clock ∧
      (arrive settings s request control first second now).2.handles hotkey = false := by
  unfold arrive
  split
  · simp [Phase.handles]
  split
  · simp [Phase.handles]
  split
  · simp [Phase.handles]
  split
  · split <;> simp [Phase.handles]
  split
  · simp [Phase.handles]
  split
  · simp [Phase.handles]
  dsimp only
  split
  · simp [Phase.handles]
  split <;> simp [Phase.handles]

theorem receive_quiet (settings : Settings) (s : State) (request : Request)
    (body : Except Raised Nat) (hotkey : String) :
    (receive settings s request body).1.rate = s.rate ∧
      (receive settings s request body).1.busy = s.busy ∧
      (receive settings s request body).1.admissions = s.admissions ∧
      (receive settings s request body).1.clock = s.clock ∧
      (receive settings s request body).1.requests = s.requests ∧
      (receive settings s request body).2.handles hotkey = false := by
  unfold receive
  split
  · simp [Phase.handles]
  split
  · simp [Phase.handles]
  split <;> simp [Phase.handles]

/-- What `allow` does for the miners. -/
inductive Admission (settings : Settings) (s : State) (owner : String) (first second now : Rat)
    (result : State × Phase) : Prop
  | refused (rate : result.1.rate = s.rate ∨
      result.1.rate = purgeRate settings.requestInterval s.rate now)
      (busy : result.1.busy = s.busy) (admissions : result.1.admissions = s.admissions)
      (phase : ∀ hotkey, result.2.handles hotkey = false)
  | admitted (allowed : limited settings s owner first second = false)
      (rate : result.1.rate = (purgeRate settings.requestInterval s.rate now).set owner
        (spend settings.requestInterval
          ((purgeRate settings.requestInterval s.rate now).get owner) now))
      (admissions : result.1.admissions = s.admissions ++ [(owner, now)])
      (handler : result.1.busy = insert owner s.busy ∧ result.2 = .handling (some owner) ∨
        result.1.busy = s.busy.erase owner ∧ ∀ hotkey, result.2.handles hotkey = false)

theorem allow_cases (settings : Settings) (s : State) (owner : String) (first second now : Rat)
    (live : Bool) :
    Admission settings s owner first second now (allow settings s owner first second now live) ∧
      (allow settings s owner first second now live).1.clock = s.clock ∧
      (allow settings s owner first second now live).1.requests = s.requests := by
  unfold allow
  split
  · exact ⟨.refused (Or.inl rfl) rfl rfl fun _ => rfl, rfl, rfl⟩
  rename_i allowed
  dsimp only
  split
  · exact ⟨.refused (Or.inr rfl) rfl rfl fun _ => rfl, rfl, rfl⟩
  have allowed := Bool.eq_false_iff.mpr allowed
  split
  · exact ⟨.admitted allowed rfl rfl (Or.inl ⟨rfl, rfl⟩), rfl, rfl⟩
  · exact ⟨.admitted allowed rfl rfl (Or.inr ⟨rfl, fun _ => rfl⟩), rfl, rfl⟩

theorem quiet_next {s : State} {i : Nat} {old : Phase} (at_i : s.requests[i]? = some old)
    {result : State × Phase} (requests : result.1.requests = s.requests)
    (rate : result.1.rate = s.rate) (busy : result.1.busy = s.busy)
    (admissions : result.1.admissions = s.admissions) (clock : s.clock ≤ result.1.clock)
    (phases : ∀ hotkey, result.2.handles hotkey = old.handles hotkey) :
    Quiet s (State.next i result) := by
  refine ⟨rate, busy, admissions, clock, fun hotkey => ?_⟩
  have count := handlers_set at_i hotkey result.2
  rw [phases] at count
  change (result.1.requests.set i result.2).countP _ = _
  rw [requests]
  exact Nat.add_right_cancel count

theorem step_cases {s s' : State} {event : Event} (stepped : step settings s event = some s') :
    Quiet s s' ∨
    (∃ i old owner first second now result, s.requests[i]? = some old ∧
      (∀ hotkey, old.handles hotkey = false) ∧ Readings s first second now ∧
      Admission settings { s with clock := now } owner first second now result ∧
      result.1.clock = now ∧ result.1.requests = s.requests ∧ s' = State.next i result) ∨
    (∃ i hotkey outcome, s.requests[i]? = some (.handling (some hotkey)) ∧
      s' = State.next i ({ s with busy := s.busy.erase hotkey }, Event.finished outcome)) := by
  cases event with
  | arrive request control first second now =>
      simp only [step] at stepped
      split at stepped
      · rename_i readings
        obtain rfl := Option.some.inj stepped
        have quiet := arrive_quiet settings { s with clock := now } request control first second now
        have le : s.clock ≤ now := readings.2.2.2.1.trans (readings.2.2.2.2.1.trans readings.2.2.2.2.2)
        refine Or.inl ⟨(quiet "").1, (quiet "").2.1, (quiet "").2.2.1, ?_, fun hotkey => ?_⟩
        · rw [(quiet "").2.2.2.1]
          exact le
        · simp [State.handlers, List.countP_append, (quiet hotkey).2.2.2.2]
      · cases stepped
  | body i body =>
      simp only [step] at stepped
      split at stepped
      · rename_i request at_i
        obtain rfl := Option.some.inj stepped
        have quiet := receive_quiet settings s request body
        exact Or.inl (quiet_next at_i (quiet "").2.2.2.2.1 (quiet "").1 (quiet "").2.1
          (quiet "").2.2.1 (quiet "").2.2.2.1.ge fun hotkey => (quiet hotkey).2.2.2.2.2)
      · cases stepped
  | verified i =>
      simp only [step] at stepped
      split at stepped
      · rename_i request at_i
        obtain rfl := Option.some.inj stepped
        exact Or.inl (quiet_next at_i rfl rfl rfl rfl le_rfl fun _ => rfl)
      · rename_i at_i
        obtain rfl := Option.some.inj stepped
        exact Or.inl (quiet_next at_i rfl rfl rfl rfl le_rfl fun _ => rfl)
      · cases stepped
  | resume i answer first second now live =>
      simp only [step] at stepped
      split at stepped
      · rename_i request at_i
        split at stepped
        · rename_i readings
          have le : s.clock ≤ now :=
            readings.2.2.2.1.trans (readings.2.2.2.2.1.trans readings.2.2.2.2.2)
          cases answer with
          | error raised =>
              obtain rfl := Option.some.inj stepped
              exact Or.inl (quiet_next at_i rfl rfl rfl rfl le fun _ => rfl)
          | ok owner =>
              obtain ⟨admission, clock, requests⟩ :=
                allow_cases settings { s with clock := now } owner first second now live
              exact Or.inr (Or.inl ⟨i, _, owner, first, second, now, _, at_i, fun _ => rfl, readings,
                admission, clock, requests, (Option.some.inj stepped).symm⟩)
        · cases stepped
      · cases stepped
  | cancel i =>
      simp only [step] at stepped
      split at stepped
      · rename_i request done at_i
        obtain rfl := Option.some.inj stepped
        exact Or.inl (quiet_next at_i rfl rfl rfl rfl le_rfl fun _ => by cases done <;> rfl)
      · cases stepped
  | finish i outcome =>
      simp only [step] at stepped
      split at stepped
      · rename_i at_i
        obtain rfl := Option.some.inj stepped
        exact Or.inl (quiet_next at_i rfl rfl rfl rfl le_rfl fun hotkey =>
          handles_finished hotkey outcome)
      · rename_i hotkey at_i
        exact Or.inr (Or.inr ⟨i, hotkey, outcome, at_i, (Option.some.inj stepped).symm⟩)
      · cases stepped

/-! ## The invariant -/

structure Sound (settings : Settings) (s : State) : Prop where
  regular : Regular settings.requestInterval s.admissions
  past : ∀ admission ∈ s.admissions, admission.2 ≤ s.clock
  agrees : Agrees settings.requestInterval s.rate
    (unpurged settings.requestInterval s.admissions) s.clock
  handlers : ∀ hotkey, s.handlers hotkey = if hotkey ∈ s.busy then 1 else 0

theorem sound_started (settings : Settings) (start : Rat) :
    Sound settings (State.started start) where
  regular := .nil
  past := by simp [State.started]
  agrees := fun _ => Or.inl rfl
  handlers := by simp [State.handlers, State.started]

theorem Sound.entries {s : State} (sound : Sound settings s)
    (positive : 0 < settings.requestInterval) (hotkey : String) (entry : Rate)
    (found : (unpurged settings.requestInterval s.admissions).get hotkey = some entry) :
    0 ≤ entry.1 ∧ entry.2 ≤ s.clock := by
  obtain ⟨nonneg, -, -, member⟩ := sound.regular.entry positive found
  exact ⟨nonneg, sound.past _ member⟩

theorem Sound.quiet {s s' : State} (sound : Sound settings s)
    (positive : 0 < settings.requestInterval) (quiet : Quiet s s') : Sound settings s' := by
  refine ⟨?_, ?_, ?_, fun hotkey => ?_⟩
  · rw [quiet.admissions]
    exact sound.regular
  · rw [quiet.admissions]
    exact fun admission member => (sound.past admission member).trans quiet.clock
  · rw [quiet.admissions, quiet.rate]
    exact sound.agrees.later (fun hotkey entry found => (sound.entries positive hotkey entry found).2)
      quiet.clock
  · rw [quiet.handlers, quiet.busy]
    exact sound.handlers hotkey

theorem Sound.limited {s : State} (sound : Sound settings s)
    (positive : 0 < settings.requestInterval) {first second : Rat} (from_ : s.clock ≤ first)
    (le : first ≤ second) (hotkey : String) :
    Middleware.limited settings s hotkey first second = Middleware.limited settings
      { s with rate := unpurged settings.requestInterval s.admissions } hotkey first second := by
  unfold Middleware.limited
  dsimp only
  rcases sound.agrees.available positive (sound.entries positive) from_ le hotkey with
    same | ⟨left, right⟩
  · rw [same]
  · have notLeft := not_lt.mpr (one_le_two.trans left)
    have notRight := not_lt.mpr (one_le_two.trans right)
    simp only [notLeft, notRight, and_false]

theorem Sound.enough {s : State} (sound : Sound settings s)
    (positive : 0 < settings.requestInterval) {owner : String} {first second now : Rat}
    (readings : Readings s first second now)
    (allowed : Middleware.limited settings s owner first second = false) :
    owner ∉ s.busy ∧ 1 ≤ available settings.requestInterval
      (((unpurged settings.requestInterval s.admissions).get owner).getD (2, now)) now := by
  obtain ⟨-, -, -, from_, le, le'⟩ := readings
  rw [sound.limited positive from_ le] at allowed
  simp only [Middleware.limited, Bool.or_eq_false_iff, decide_eq_false_iff_not, positive, true_and,
    not_lt] at allowed
  refine ⟨allowed.1, ?_⟩
  cases found : (unpurged settings.requestInterval s.admissions).get owner with
  | none => exact one_le_two.trans (available_fresh positive le_rfl)
  | some entry =>
      obtain ⟨nonneg, past⟩ := sound.entries positive owner entry found
      rw [found] at allowed
      exact allowed.2.trans
        (available_mono positive nonneg (past.trans (from_.trans le)) le')

theorem Sound.admission {s : State} (sound : Sound settings s)
    (positive : 0 < settings.requestInterval) {i : Nat} {old : Phase} {owner : String}
    {first second now : Rat} {result : State × Phase} (at_i : s.requests[i]? = some old)
    (waits : ∀ hotkey, old.handles hotkey = false) (readings : Readings s first second now)
    (admission : Admission settings { s with clock := now } owner first second now result)
    (clock : result.1.clock = now) (requests : result.1.requests = s.requests) :
    Sound settings (State.next i result) := by
  have le : s.clock ≤ now := readings.2.2.2.1.trans (readings.2.2.2.2.1.trans readings.2.2.2.2.2)
  have later := sound.agrees.later
    (fun hotkey entry found => (sound.entries positive hotkey entry found).2) le
  have past : ∀ admission ∈ s.admissions, admission.2 ≤ now :=
    fun admission member => (sound.past admission member).trans le
  have counts : ∀ hotkey, (State.next i result).handlers hotkey =
      s.handlers hotkey + (result.2.handles hotkey).toNat := by
    intro hotkey
    have count := handlers_set at_i hotkey result.2
    rw [waits, Bool.toNat_false, Nat.add_zero] at count
    change (result.1.requests.set i result.2).countP _ = _
    rw [requests]
    exact count
  cases admission with
  | refused rate busy admissions phase =>
      refine ⟨?_, ?_, ?_, fun hotkey => ?_⟩
      · change Regular _ result.1.admissions
        rw [admissions]
        exact sound.regular
      · change ∀ admission ∈ result.1.admissions, admission.2 ≤ result.1.clock
        rw [admissions, clock]
        exact past
      · change Agrees _ result.1.rate (unpurged _ result.1.admissions) result.1.clock
        rw [admissions, clock]
        rcases rate with same | purged
        · rw [same]
          exact later
        · rw [purged]
          exact later.purge
      · rw [counts, phase, sound.handlers]
        change _ = if hotkey ∈ result.1.busy then 1 else 0
        rw [busy]
        rfl
  | admitted allowed rate admissions handler =>
      obtain ⟨idle, enough⟩ := sound.enough positive readings allowed
      refine ⟨?_, ?_, ?_, fun hotkey => ?_⟩
      · change Regular _ result.1.admissions
        rw [admissions]
        exact .allow sound.regular past readings.2.2.1 enough
      · change ∀ admission ∈ result.1.admissions, admission.2 ≤ result.1.clock
        rw [admissions, clock]
        intro admission member
        rcases List.mem_append.mp member with member | member
        · exact past admission member
        · rw [List.mem_singleton.mp member]
      · change Agrees _ result.1.rate (unpurged _ result.1.admissions) result.1.clock
        rw [admissions, clock, rate, unpurged_concat]
        have entries : ∀ hotkey entry,
            (unpurged settings.requestInterval s.admissions).get hotkey = some entry →
            0 ≤ entry.1 ∧ entry.2 ≤ now := fun hotkey entry found =>
          ⟨(sound.entries positive hotkey entry found).1,
            (sound.entries positive hotkey entry found).2.trans le⟩
        rw [later.purge.spend positive entries]
        exact later.purge.set _ _
      · rw [counts, sound.handlers]
        change _ = if hotkey ∈ result.1.busy then 1 else 0
        rcases handler with ⟨busy, phase⟩ | ⟨busy, phase⟩
        · rw [busy, phase]
          by_cases mine : hotkey = owner
          · subst mine
            simp [Phase.handles, idle]
          · simp [Phase.handles, mine, Ne.symm mine]
        · rw [busy, phase]
          by_cases mine : hotkey = owner
          · subst mine
            simp [idle]
          · simp [mine]

theorem Sound.finish {s : State} (sound : Sound settings s) {i : Nat} {hotkey : String}
    (at_i : s.requests[i]? = some (.handling (some hotkey))) (outcome : Except Raised Unit) :
    Sound settings
      (State.next i ({ s with busy := s.busy.erase hotkey }, Event.finished outcome)) := by
  refine ⟨sound.regular, sound.past, sound.agrees, fun other => ?_⟩
  have count := handlers_set at_i other (Event.finished outcome)
  rw [handles_finished, Bool.toNat_false, Nat.add_zero] at count
  have before := sound.handlers other
  change (s.requests.set i (Event.finished outcome)).countP _ =
    if other ∈ s.busy.erase hotkey then 1 else 0
  unfold State.handlers at before
  by_cases mine : other = hotkey
  · subst mine
    simp only [Phase.handles, decide_true, Bool.toNat_true] at count
    rw [if_neg (by simp)]
    split at before <;> omega
  · simp only [Phase.handles, Ne.symm mine, decide_false, Bool.toNat_false, Nat.add_zero] at count
    rw [count, before]
    simp [mine]

theorem Sound.step (positive : 0 < settings.requestInterval) (s : State) (event : Event)
    (s' : State) (sound : Sound settings s) (stepped : step settings s event = some s') :
    Sound settings s' := by
  rcases step_cases stepped with quiet |
    ⟨i, old, owner, first, second, now, result, at_i, waits, readings, admission, clock, requests,
      rfl⟩ | ⟨i, hotkey, outcome, at_i, rfl⟩
  · exact sound.quiet positive quiet
  · exact sound.admission positive at_i waits readings admission clock requests
  · exact sound.finish at_i outcome

/-- In every run, a hotkey's requests in a window of time are bounded up to the rounding of the
refills, one of them at most is in a handler, and no purge has changed any decision. -/
theorem requests_in_window_le (settings : Settings) (positive : 0 < settings.requestInterval)
    (start : Rat) (events : List Event) (s : State)
    (ran : run (step settings) (State.started start) events = some s) :
    (∀ hotkey begins ends, begins ≤ ends →
      (s.admittedIn hotkey begins ends : Rat) ≤
        (2 + (ends - begins) / settings.requestInterval) * (1 + 1 / 2 ^ 50)) ∧
      (∀ hotkey, s.handlers hotkey ≤ 1) ∧
      ∀ hotkey first second, s.clock ≤ first → first ≤ second →
        limited settings s hotkey first second = limited settings
          { s with rate := unpurged settings.requestInterval s.admissions } hotkey first second := by
  have sound := run_invariant ran (Sound.step positive) (sound_started settings start)
  refine ⟨?_, fun hotkey => ?_, fun hotkey first second from_ le =>
    sound.limited positive from_ le hotkey⟩
  · intro hotkey begins ends le
    have bound := sound.regular.within_le positive hotkey le
    have window : 0 ≤ (ends - begins) / settings.requestInterval :=
      div_nonneg (sub_nonneg.mpr le) positive.le
    change (within s.admissions hotkey begins ends : Rat) ≤ _
    nlinarith
  · rw [sound.handlers]
    split <;> omega

/-! ## Three requests -/

def lookup : Request where
  query := false
  routed := true
  method := "GET"
  path := "/v1/pods/current"
  headers := [("X-Bittensor-Version", "1"), ("X-Bittensor-Hotkey", "alice"),
    ("X-Bittensor-Nonce", "1700000000000000000"), ("X-Bittensor-Signature", "0x00"),
    ("X-Bittensor-Receiver", "404-witness")]
  contentLength := none
  canReadBody := false

/-- The request that is the numbered one, from its arrival to the end of its handler. -/
def visit (i : Nat) (now : Rat) : List Event :=
  [.arrive lookup (.ok ()) now now now, .body i (.ok 0), .verified i,
    .resume i (.ok "alice") now now now true, .finish i (.ok ())]

/-- The readings 0.1 and 10.1 differ by less than ten, but their difference is rounded to ten. -/
def threeVisits : List Event :=
  visit 0 (nearest (1 / 10)) ++ visit 1 (nearest (1 / 10)) ++ visit 2 (nearest (101 / 10))

theorem requests_in_window_le_three :
    ∃ s, run (step {}) (State.started 0) threeVisits = some s ∧
      (s.admittedIn "alice" 0 20 : Rat) ≤ (2 + (20 - 0) / 10) * (1 + 1 / 2 ^ 50) := by
  have ran : (run (step {}) (State.started 0) threeVisits).isSome = true := by decide +kernel
  obtain ⟨s, is⟩ := Option.isSome_iff_exists.mp ran
  have positive : (0 : Rat) < ({} : Settings).requestInterval := by decide +kernel
  exact ⟨s, is, (requests_in_window_le {} positive 0 threeVisits s is).1 "alice" 0 20 (by norm_num)⟩

theorem third_request_early :
    ∃ s, run (step {}) (State.started 0) threeVisits = some s ∧
      2 + (nearest (101 / 10) - nearest (1 / 10)) / ({} : Settings).requestInterval <
        s.admittedIn "alice" (nearest (1 / 10)) (nearest (101 / 10)) := by
  have early : (run (step {}) (State.started 0) threeVisits).any (fun s => decide
      (2 + (nearest (101 / 10) - nearest (1 / 10)) / ({} : Settings).requestInterval <
        s.admittedIn "alice" (nearest (1 / 10)) (nearest (101 / 10)))) = true := by
    decide +kernel
  obtain ⟨s, is, holds⟩ := (Option.any_eq_true _ _).mp early
  exact ⟨s, is, of_decide_eq_true holds⟩

end GenSubnet.Gateway.Middleware
