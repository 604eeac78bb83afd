import GenSubnet.Competition.PromptIds
import Mathlib.Data.List.Perm.Subperm
import Mathlib.Data.List.Nodup

/-!
# The selection of the prompts of a round

`select_prompts` draws from the prompts of the previous round and from the pool. The draws are kept
apart by the text of the URLs alone, but the gateway opens a round only with distinct ids, so the
selection is acceptable whatever is drawn exactly when no two prompts that can meet have one id, and
no more prompts are carried over than the round has.
-/

namespace GenSubnet.Collector
open Competition List

/-! ## The code -/

/-- `random.Random`: a draw takes distinct positions of the items, in any order. -/
structure Random (σ : Type) where
  draw : σ → List String → Nat → List String × σ
  subperm : ∀ state items k, k ≤ items.length → (draw state items k).1.Subperm items
  length : ∀ state items k, k ≤ items.length → (draw state items k).1.length = k

variable {σ : Type}

/-- `Random.sample`, that raises for a negative size, and for one larger than the items. -/
def Random.sample (rng : Random σ) (state : σ) (items : List String) (k : Int) :
    Option (List String × σ) :=
  if 0 ≤ k ∧ k ≤ items.length then some (rng.draw state items k.toNat) else none

def _sample_up_to (rng : Random σ) (state : σ) (items : List String) (k : Int) :
    Option (List String × σ) :=
  if items.length ≤ k then some (items, state) else rng.sample state items k

/-- The prompts of the previous round, of which some are carried over. -/
def previousPrompts (previous : List String) (roundNum carryoverPrompts : Nat) : List String :=
  if 0 < roundNum ∧ 0 < carryoverPrompts then previous else []

/-- The part of the pool that is not carried over. -/
def freshPool (allPrompts carryover : List String) : List String :=
  allPrompts.filter (· ∉ carryover)

/-- `select_prompts`, on the prompts of the pool and of the previous round. -/
def selectPrompts (rng : Random σ) (seed : σ) (allPrompts previous : List String)
    (roundNum promptsPerRound carryoverPrompts : Nat) : Option (List String) := do
  let previousPrompts := previousPrompts previous roundNum carryoverPrompts
  let (carryover, state) ←
    if 0 < carryoverPrompts then _sample_up_to rng seed previousPrompts carryoverPrompts
    else some ([], seed)
  let newCount : Int := promptsPerRound - carryover.length
  let (new, _) ← _sample_up_to rng state (freshPool allPrompts carryover) newCount
  return carryover ++ new

/-- What `_resolve` and `RoundInputs` require of the ids of a round with at most so many prompts. -/
def Acceptable (promptsPerRound : Nat) (selected : Option (List String)) : Prop :=
  ∃ prompts, selected = some prompts ∧ prompts.length ≤ promptsPerRound ∧
    (prompts.map gatewayId).Nodup

instance (promptsPerRound : Nat) (selected : Option (List String)) :
    Decidable (Acceptable promptsPerRound selected) :=
  match selected with
  | none => isFalse (by rintro ⟨_, missing, _⟩; cases missing)
  | some prompts => decidable_of_iff
      (prompts.length ≤ promptsPerRound ∧ (prompts.map gatewayId).Nodup)
      (by simp [Acceptable])

/-! ## Draws -/

/-- A possible result of `_sample_up_to`. -/
def Drawn (items : List String) (k : Nat) (drawn : List String) : Prop :=
  if items.length ≤ k then drawn = items else drawn.Subperm items ∧ drawn.length = k

variable {items drawn : List String} {k : Nat}

theorem Drawn.subperm (possible : Drawn items k drawn) : drawn.Subperm items := by
  unfold Drawn at possible
  split at possible
  · subst possible
    exact Subperm.refl _
  · exact possible.1

theorem Drawn.length (possible : Drawn items k drawn) : drawn.length = min items.length k := by
  unfold Drawn at possible
  split at possible
  · subst possible
    omega
  · omega

theorem Drawn.mem (possible : Drawn items k drawn) {item : String} (member : item ∈ drawn) :
    item ∈ items :=
  possible.subperm.subset member

theorem exists_drawn (p : String → Bool) {chosen : List String}
    (among : chosen.Subperm (items.filter p)) (few : chosen.length ≤ min items.length k)
    (enough : min items.length k ≤ items.countP p) :
    ∃ drawn, Drawn items k drawn ∧ chosen.Subperm drawn ∧ ∀ item ∈ drawn, p item := by
  by_cases all : items.length ≤ k
  · have satisfied : items.filter p = items := by
      apply List.filter_eq_self.mpr
      apply List.countP_eq_length.mp
      have bound := List.countP_le_length (p := p) (l := items)
      omega
    refine ⟨items, ?_, ?_, ?_⟩
    · simp [Drawn, all]
    · rwa [satisfied] at among
    · exact List.filter_eq_self.mp satisfied
  · obtain ⟨sorted, permuted, kept⟩ := among
    obtain ⟨rest, split⟩ := kept.exists_perm_append
    have size : (items.filter p).length = chosen.length + rest.length := by
      rw [split.length_eq, List.length_append, permuted.length_eq]
    have within : (chosen ++ rest.take (k - chosen.length)).Subperm (items.filter p) := by
      apply Subperm.trans _ (split.trans (permuted.append_right rest)).symm.subperm
      exact ((Sublist.refl chosen).append (List.take_sublist _ _)).subperm
    refine ⟨chosen ++ rest.take (k - chosen.length), ?_, ?_, ?_⟩
    · rw [Drawn, if_neg all]
      refine ⟨within.trans (List.filter_sublist (p := p)).subperm, ?_⟩
      rw [← List.countP_eq_length_filter] at size
      simp only [List.length_append, List.length_take]
      omega
    · exact (List.sublist_append_left _ _).subperm
    · intro item member
      exact (List.mem_filter.mp (within.subset member)).2

theorem exists_drawn_of_subperm {chosen : List String} (among : chosen.Subperm items)
    (few : chosen.length ≤ min items.length k) :
    ∃ drawn, Drawn items k drawn ∧ chosen.Subperm drawn := by
  have all : items.filter (fun _ => true) = items := List.filter_eq_self.mpr fun _ _ => rfl
  obtain ⟨drawn, possible, contained, _⟩ :=
    exists_drawn (k := k) (fun _ => true) (by rwa [all]) few (by simp)
  exact ⟨drawn, possible, contained⟩

theorem exists_drawn_any (items : List String) (k : Nat) : ∃ drawn, Drawn items k drawn := by
  obtain ⟨drawn, possible, _⟩ := exists_drawn_of_subperm (k := k) (nil_subperm (l := items)) (by simp)
  exact ⟨drawn, possible⟩

theorem sampleUpTo_drawn (rng : Random σ) (state : σ) (items : List String) (k : Nat) :
    ∃ result, _sample_up_to rng state items k = some result ∧ Drawn items k result.1 := by
  unfold _sample_up_to
  by_cases all : items.length ≤ k
  · refine ⟨(items, state), ?_, ?_⟩
    · simp [all]
    · simp [Drawn, all]
  · have fits : k ≤ items.length := by omega
    refine ⟨rng.draw state items k, ?_, ?_⟩
    · simp [all, Random.sample, fits]
    · rw [Drawn, if_neg all]
      exact ⟨rng.subperm state items k fits, rng.length state items k fits⟩

theorem sampleUpTo_negative (rng : Random σ) (state : σ) (items : List String) {k : Int}
    (negative : k < 0) : _sample_up_to rng state items k = none := by
  have more : ¬(items.length : Int) ≤ k := by omega
  have refused : ¬(0 ≤ k ∧ k ≤ items.length) := by omega
  simp [_sample_up_to, Random.sample, more, refused]

/-- The generator that draws the lists that it is given. -/
def scripted : Random (List (List String)) where
  draw script items k :=
    let next := script.headD []
    (if next.Subperm items ∧ next.length = k then next else items.take k, script.tail)
  subperm script items k fits := by
    by_cases possible : (script.headD []).Subperm items ∧ (script.headD []).length = k
    · simpa only [possible, and_self, if_true] using possible.1
    · simpa only [possible, if_false] using (List.take_sublist k items).subperm
  length script items k fits := by
    by_cases possible : (script.headD []).Subperm items ∧ (script.headD []).length = k
    · simpa only [possible, and_self, if_true] using possible.2
    · simpa only [possible, if_false, List.length_take] using Nat.min_eq_left fits

theorem sampleUpTo_scripted (script : List (List String)) (possible : Drawn items k drawn) :
    (items.length ≤ k ∧ _sample_up_to scripted script items k = some (drawn, script)) ∨
      (k < items.length ∧ ∀ later, script = drawn :: later →
        _sample_up_to scripted script items k = some (drawn, later)) := by
  by_cases all : items.length ≤ k
  · rw [Drawn, if_pos all] at possible
    exact .inl ⟨all, by simp [_sample_up_to, all, possible]⟩
  · rw [Drawn, if_neg all] at possible
    refine .inr ⟨by omega, ?_⟩
    rintro later rfl
    have fits : k ≤ items.length := by omega
    simp [_sample_up_to, all, Random.sample, fits, scripted, possible]

/-! ## Selections -/

variable {allPrompts previous carryover new : List String}
variable {roundNum promptsPerRound carryoverPrompts : Nat}

/-- The number of prompts that are carried over. -/
def carriedCount (previous : List String) (roundNum carryoverPrompts : Nat) : Nat :=
  min (previousPrompts previous roundNum carryoverPrompts).length carryoverPrompts

theorem carryover_drawn (rng : Random σ) (seed : σ) (previous : List String)
    (roundNum carryoverPrompts : Nat) :
    ∃ result, (if 0 < carryoverPrompts then
        _sample_up_to rng seed (previousPrompts previous roundNum carryoverPrompts) carryoverPrompts
      else some ([], seed)) = some result ∧
      Drawn (previousPrompts previous roundNum carryoverPrompts) carryoverPrompts result.1 := by
  by_cases some : 0 < carryoverPrompts
  · rw [if_pos some]
    exact sampleUpTo_drawn rng seed _ carryoverPrompts
  · rw [if_neg some]
    refine ⟨([], seed), rfl, ?_⟩
    simp [Drawn, previousPrompts, some]

theorem selectPrompts_eq (rng : Random σ) (seed : σ) (allPrompts previous : List String)
    (roundNum promptsPerRound carryoverPrompts : Nat) :
    selectPrompts rng seed allPrompts previous roundNum promptsPerRound carryoverPrompts =
      (if 0 < carryoverPrompts then
        _sample_up_to rng seed (previousPrompts previous roundNum carryoverPrompts) carryoverPrompts
      else some ([], seed)).bind fun first =>
        (_sample_up_to rng first.2 (freshPool allPrompts first.1)
          (promptsPerRound - first.1.length)).bind fun second => some (first.1 ++ second.1) := by
  unfold selectPrompts
  split
  · rfl
  · rfl

/-- A selection carries some prompts over, and draws the others from the rest of the pool; it raises
when it carries too many over. -/
theorem selectPrompts_cases (rng : Random σ) (seed : σ) (allPrompts previous : List String)
    (roundNum promptsPerRound carryoverPrompts : Nat) :
    ∃ carryover, Drawn (previousPrompts previous roundNum carryoverPrompts) carryoverPrompts
        carryover ∧
      (carryover.length ≤ promptsPerRound → ∃ new,
        Drawn (freshPool allPrompts carryover) (promptsPerRound - carryover.length) new ∧
        selectPrompts rng seed allPrompts previous roundNum promptsPerRound carryoverPrompts =
          some (carryover ++ new)) := by
  obtain ⟨⟨carryover, state⟩, first, possible⟩ :=
    carryover_drawn rng seed previous roundNum carryoverPrompts
  refine ⟨carryover, possible, ?_⟩
  intro fits
  obtain ⟨⟨new, final⟩, second, drawn⟩ := sampleUpTo_drawn rng state
    (freshPool allPrompts carryover) (promptsPerRound - carryover.length)
  refine ⟨new, drawn, ?_⟩
  rw [Int.ofNat_sub fits] at second
  simp [selectPrompts_eq, first, second]

theorem selectPrompts_raises (rng : Random σ) (seed : σ)
    (many : promptsPerRound < carriedCount previous roundNum carryoverPrompts) :
    selectPrompts rng seed allPrompts previous roundNum promptsPerRound carryoverPrompts = none := by
  obtain ⟨⟨carryover, state⟩, first, possible⟩ :=
    carryover_drawn rng seed previous roundNum carryoverPrompts
  have size := possible.length
  rw [← carriedCount] at size
  have negative : (promptsPerRound : Int) - carryover.length < 0 := by
    simp only at size
    omega
  simp [selectPrompts_eq, first, sampleUpTo_negative rng state _ negative]

theorem selectPrompts_scripted
    (carried : Drawn (previousPrompts previous roundNum carryoverPrompts) carryoverPrompts carryover)
    (fits : carryover.length ≤ promptsPerRound)
    (drawn : Drawn (freshPool allPrompts carryover) (promptsPerRound - carryover.length) new) :
    ∃ script, selectPrompts scripted script allPrompts previous roundNum promptsPerRound
      carryoverPrompts = some (carryover ++ new) := by
  have second (script : List (List String)) (next : script = [new]) :
      ∃ later, _sample_up_to scripted script (freshPool allPrompts carryover)
        ((promptsPerRound : Int) - carryover.length) = some (new, later) := by
    rw [← Int.ofNat_sub fits]
    obtain ⟨_, sampled⟩ | ⟨_, sampled⟩ := sampleUpTo_scripted script drawn
    · exact ⟨_, sampled⟩
    · exact ⟨[], sampled [] next⟩
  by_cases some : 0 < carryoverPrompts
  · obtain ⟨_, sampled⟩ | ⟨_, sampled⟩ := sampleUpTo_scripted [new] carried
    · obtain ⟨later, last⟩ := second [new] rfl
      exact ⟨[new], by simp [selectPrompts_eq, some, sampled, last]⟩
    · obtain ⟨_, other⟩ | ⟨_, other⟩ := sampleUpTo_scripted [carryover, new] carried
      · omega
      · obtain ⟨later, last⟩ := second [new] rfl
        exact ⟨[carryover, new], by simp [selectPrompts_eq, some, other [new] rfl, last]⟩
  · obtain rfl : carryover = [] := by
      have size := carried.length
      apply List.length_eq_zero_iff.mp
      omega
    obtain ⟨later, last⟩ := second [new] rfl
    refine ⟨[new], ?_⟩
    rw [selectPrompts_eq, if_neg some, Option.bind_some, last]
    rfl

/-! ## Acceptable selections -/

/-- No two of the prompts that can be selected together have one id, and there are not more of the
previous round than the round has. -/
structure Compatible (allPrompts previous : List String)
    (roundNum promptsPerRound carryoverPrompts : Nat) : Prop where
  fits : carriedCount previous roundNum carryoverPrompts ≤ promptsPerRound
  carried : 2 ≤ carriedCount previous roundNum carryoverPrompts →
    ((previousPrompts previous roundNum carryoverPrompts).map gatewayId).Nodup
  pool : carriedCount previous roundNum carryoverPrompts + 2 ≤ promptsPerRound →
    allPrompts.Pairwise fun p q => gatewayId p = gatewayId q →
      (previousPrompts previous roundNum carryoverPrompts).countP (fun r => r ≠ p ∧ r ≠ q) <
        carriedCount previous roundNum carryoverPrompts
  across : carriedCount previous roundNum carryoverPrompts + 1 ≤ promptsPerRound →
    1 ≤ carriedCount previous roundNum carryoverPrompts →
    ∀ p ∈ previousPrompts previous roundNum carryoverPrompts, ∀ q ∈ allPrompts,
      p ≠ q → gatewayId p = gatewayId q →
      (previousPrompts previous roundNum carryoverPrompts).countP (fun r => r ≠ q) <
        carriedCount previous roundNum carryoverPrompts

theorem nodup_of_length_le_one {items : List String} (short : items.length ≤ 1) : items.Nodup := by
  match items, short with
  | [], _ => exact List.nodup_nil
  | [item], _ => exact List.nodup_singleton item

theorem nodup_map_of_subperm {chosen items : List String} (among : chosen.Subperm items)
    (nodup : (items.map gatewayId).Nodup) : (chosen.map gatewayId).Nodup := by
  obtain ⟨sorted, permuted, kept⟩ := among
  exact (permuted.map gatewayId).nodup_iff.mp (nodup.sublist (kept.map gatewayId))

theorem count_le_of_drawn (p : String → Bool)
    (carried : Drawn (previousPrompts previous roundNum carryoverPrompts) carryoverPrompts carryover)
    (holds : ∀ prompt ∈ carryover, p prompt) :
    carriedCount previous roundNum carryoverPrompts ≤
      (previousPrompts previous roundNum carryoverPrompts).countP p := by
  calc
    carriedCount previous roundNum carryoverPrompts = carryover.length := carried.length.symm
    _ = carryover.countP p := (List.countP_eq_length.mpr holds).symm
    _ ≤ _ := carried.subperm.countP_le p

theorem Compatible.nodup
    (compatible : Compatible allPrompts previous roundNum promptsPerRound carryoverPrompts)
    (carried : Drawn (previousPrompts previous roundNum carryoverPrompts) carryoverPrompts carryover)
    (drawn : Drawn (freshPool allPrompts carryover) (promptsPerRound - carryover.length) new) :
    ((carryover ++ new).map gatewayId).Nodup := by
  have size : carryover.length = carriedCount previous roundNum carryoverPrompts := carried.length
  have newSize := drawn.length
  have fresh : ∀ q ∈ new, q ∈ allPrompts ∧ q ∉ carryover := by
    intro q member
    simpa [freshPool] using drawn.mem member
  rw [List.map_append, List.nodup_append]
  refine ⟨?_, ?_, ?_⟩
  · by_cases several : 2 ≤ carriedCount previous roundNum carryoverPrompts
    · exact nodup_map_of_subperm carried.subperm (compatible.carried several)
    · apply nodup_of_length_le_one
      rw [List.length_map]
      omega
  · by_cases several : carriedCount previous roundNum carryoverPrompts + 2 ≤ promptsPerRound
    · -- The new prompts are all outside what is carried over, so two with one id would not fit.
      have apart := compatible.pool several
      obtain ⟨sorted, permuted, kept⟩ :=
        drawn.subperm.trans (List.filter_sublist (p := (· ∉ carryover))).subperm
      have distinct : sorted.Pairwise fun p q => gatewayId p ≠ gatewayId q := by
        apply (apart.sublist kept).imp_of_mem
        intro p q memberP memberQ few same
        have outside : ∀ r ∈ carryover, decide (r ≠ p ∧ r ≠ q) = true := by
          intro r member
          simp only [decide_eq_true_eq]
          constructor
          · rintro rfl
            exact (fresh r (permuted.subset memberP)).2 member
          · rintro rfl
            exact (fresh r (permuted.subset memberQ)).2 member
        have enough := count_le_of_drawn _ carried outside
        have less := few same
        omega
      have nodup : (sorted.map gatewayId).Nodup := List.pairwise_map.mpr distinct
      exact (permuted.map gatewayId).nodup_iff.mp nodup
    · apply nodup_of_length_le_one
      rw [List.length_map]
      omega
  · intro id carriedId other newId
    obtain ⟨p, memberP, rfl⟩ := List.mem_map.mp carriedId
    obtain ⟨q, memberQ, rfl⟩ := List.mem_map.mp newId
    intro same
    have first : 0 < carryover.length := List.length_pos_of_mem memberP
    have second : 0 < new.length := List.length_pos_of_mem memberQ
    have outside : ∀ r ∈ carryover, decide (r ≠ q) = true := by
      intro r member
      simp only [decide_eq_true_eq]
      rintro rfl
      exact (fresh r memberQ).2 member
    have differ : p ≠ q := by simpa using outside p memberP
    have enough := count_le_of_drawn _ carried outside
    have less := compatible.across (by omega) (by omega) p (carried.mem memberP) q
      (fresh q memberQ).1 differ same
    omega

theorem Compatible.acceptable
    (compatible : Compatible allPrompts previous roundNum promptsPerRound carryoverPrompts)
    (rng : Random σ) (seed : σ) :
    Acceptable promptsPerRound
      (selectPrompts rng seed allPrompts previous roundNum promptsPerRound carryoverPrompts) := by
  obtain ⟨carryover, carried, rest⟩ := selectPrompts_cases rng seed allPrompts previous roundNum
    promptsPerRound carryoverPrompts
  have size : carryover.length = carriedCount previous roundNum carryoverPrompts := carried.length
  have fits := compatible.fits
  obtain ⟨new, drawn, selected⟩ := rest (by omega)
  refine ⟨carryover ++ new, selected, ?_, compatible.nodup carried drawn⟩
  have newSize := drawn.length
  rw [List.length_append]
  omega

theorem nodup_of_acceptable
    (acceptable : ∀ (σ : Type) (rng : Random σ) (seed : σ), Acceptable promptsPerRound
      (selectPrompts rng seed allPrompts previous roundNum promptsPerRound carryoverPrompts))
    (carried : Drawn (previousPrompts previous roundNum carryoverPrompts) carryoverPrompts carryover)
    (fits : carryover.length ≤ promptsPerRound)
    (drawn : Drawn (freshPool allPrompts carryover) (promptsPerRound - carryover.length) new) :
    ((carryover ++ new).map gatewayId).Nodup := by
  obtain ⟨script, selected⟩ := selectPrompts_scripted carried fits drawn
  obtain ⟨prompts, same, _, nodup⟩ := acceptable _ scripted script
  obtain rfl := Option.some.inj (selected.symm.trans same)
  exact nodup

theorem ne_of_nodup_of_subperm {p q : String} {items : List String}
    (nodup : (items.map gatewayId).Nodup) (among : [p, q].Subperm items) :
    gatewayId p ≠ gatewayId q := by
  simpa using nodup_map_of_subperm among nodup

theorem carried_fits
    (acceptable : ∀ (σ : Type) (rng : Random σ) (seed : σ), Acceptable promptsPerRound
      (selectPrompts rng seed allPrompts previous roundNum promptsPerRound carryoverPrompts)) :
    carriedCount previous roundNum carryoverPrompts ≤ promptsPerRound := by
  by_contra many
  obtain ⟨prompts, selected, _⟩ := acceptable _ scripted []
  rw [selectPrompts_raises scripted [] (Nat.lt_of_not_le many)] at selected
  cases selected

theorem compatible_of_acceptable
    (acceptable : ∀ (σ : Type) (rng : Random σ) (seed : σ), Acceptable promptsPerRound
      (selectPrompts rng seed allPrompts previous roundNum promptsPerRound carryoverPrompts)) :
    Compatible allPrompts previous roundNum promptsPerRound carryoverPrompts := by
  have fits := carried_fits acceptable
  refine ⟨fits, ?_, ?_, ?_⟩
  · intro several
    refine List.pairwise_map.mpr (List.pairwise_iff_forall_sublist.mpr ?_)
    intro p q kept
    obtain ⟨carryover, carried, both⟩ := exists_drawn_of_subperm kept.subperm several
    have size : carryover.length = _ := carried.length
    obtain ⟨new, drawn⟩ := exists_drawn_any (freshPool allPrompts carryover)
      (promptsPerRound - carryover.length)
    have nodup := nodup_of_acceptable acceptable carried (size.trans_le fits) drawn
    exact ne_of_nodup_of_subperm nodup (both.trans (List.sublist_append_left _ _).subperm)
  · intro several
    apply List.pairwise_iff_forall_sublist.mpr
    intro p q kept same
    by_contra many
    -- Enough prompts differ from both, so that both stay in the pool.
    obtain ⟨carryover, carried, _, outside⟩ := @exists_drawn
      (previousPrompts previous roundNum carryoverPrompts) carryoverPrompts
      (fun r => r ≠ p ∧ r ≠ q) [] nil_subperm (Nat.zero_le _) (Nat.le_of_not_lt many)
    have size : carryover.length = carriedCount previous roundNum carryoverPrompts := carried.length
    have fresh : [p, q].Sublist (freshPool allPrompts carryover) := by
      have kept := kept.filter (· ∉ carryover)
      have first : p ∉ carryover := fun member => by simpa using outside p member
      have second : q ∉ carryover := fun member => by simpa using outside q member
      simpa [first, second, freshPool] using kept
    have both := fresh.length_le
    obtain ⟨new, drawn, together⟩ := exists_drawn_of_subperm
      (k := promptsPerRound - carryover.length) fresh.subperm (by
        simp only [List.length_cons, List.length_nil] at both ⊢
        omega)
    have nodup := nodup_of_acceptable acceptable carried (size.trans_le fits) drawn
    exact ne_of_nodup_of_subperm nodup (together.trans (List.sublist_append_right _ _).subperm) same
  · intro more some p memberP q memberQ differ same
    by_contra many
    -- The one can be carried over while the other stays in the pool.
    obtain ⟨carryover, carried, chosen, outside⟩ := @exists_drawn
      (previousPrompts previous roundNum carryoverPrompts) carryoverPrompts (fun r => r ≠ q) [p]
      (singleton_subperm_iff.mpr (List.mem_filter.mpr ⟨memberP, by simpa using differ⟩))
      some (Nat.le_of_not_lt many)
    have size : carryover.length = carriedCount previous roundNum carryoverPrompts := carried.length
    have fresh : q ∈ freshPool allPrompts carryover := by
      have absent : q ∉ carryover := fun member => by simpa using outside q member
      simp [freshPool, memberQ, absent]
    have first : 0 < (freshPool allPrompts carryover).length := List.length_pos_of_mem fresh
    obtain ⟨new, drawn, together⟩ := exists_drawn_of_subperm
      (k := promptsPerRound - carryover.length) (singleton_subperm_iff.mpr fresh) (by
        simp only [List.length_cons, List.length_nil]
        omega)
    have nodup := nodup_of_acceptable acceptable carried (size.trans_le fits) drawn
    exact ne_of_nodup_of_subperm nodup (chosen.append together) same

/-- Whatever is drawn is acceptable exactly when the prompts are compatible. -/
theorem selection_acceptable_iff (allPrompts previous : List String)
    (roundNum promptsPerRound carryoverPrompts : Nat) :
    (∀ (σ : Type) (rng : Random σ) (seed : σ), Acceptable promptsPerRound
      (selectPrompts rng seed allPrompts previous roundNum promptsPerRound carryoverPrompts)) ↔
    Compatible allPrompts previous roundNum promptsPerRound carryoverPrompts := by
  constructor
  · exact compatible_of_acceptable
  · intro compatible σ rng seed
    exact compatible.acceptable rng seed

/-- Two images of the pool with one file name are both selected for a round of two. -/
theorem equal_stems_selected : ¬∀ (allPrompts previous : List String)
    (roundNum promptsPerRound carryoverPrompts : Nat) (σ : Type) (rng : Random σ) (seed : σ),
    Acceptable promptsPerRound
      (selectPrompts rng seed allPrompts previous roundNum promptsPerRound carryoverPrompts) := by
  intro always
  have accepted := always ["https://a.com/p.png", "https://b.com/p.png"] [] 0 2 0 _ scripted []
  revert accepted
  decide +kernel

end GenSubnet.Collector
