import GenSubnet.Library.Dict
import Mathlib.Algebra.Order.Field.Rat
import Mathlib.Data.List.Chain

/-!
# The timeline of a round

`Timeline` of `judge_service/timeline.py`: from the cached match results and the external verdicts
to the chain of winners. Each qualified miner that beats the last of the chain becomes the next
defender; a rejected one is passed over.
-/

namespace GenSubnet.Judge
open Library

/-- Margins are finite floats, so rational numbers. -/
abbrev MatchMatrix := Dict (String × String) Rat

inductive Verdict | passed | failed
deriving DecidableEq

structure ValidationResult where
  verdict : Verdict
  reason : String := ""
deriving DecidableEq

structure AuditResult where
  hotkey : String
  verdict : Verdict
  reason : String := ""
deriving DecidableEq

/-- The external verdicts that the judge has read. -/
structure Verdicts where
  validations : Dict String ValidationResult := .empty
  audits : Dict String AuditResult := .empty

def candidateRejectionReason (validation : Option ValidationResult) (sourceAudit : Option AuditResult) :
    Option String :=
  match validation, sourceAudit with
  | some ⟨.failed, reason⟩, _ => some ("validation: " ++ reason)
  | _, some ⟨_, .failed, reason⟩ =>
      some ("source audit" ++ if reason.isEmpty then ""
        else ": " ++ String.ofList (reason.toList.take 64))
  | _, _ => none

def Verdicts.rejection (verdicts : Verdicts) (hotkey : String) : Option String :=
  candidateRejectionReason (verdicts.validations.get hotkey) (verdicts.audits.get hotkey)

/-- Both checks of the hotkey passed. -/
def Verdicts.Passed (verdicts : Verdicts) (hotkey : String) : Prop :=
  (∃ audit, verdicts.audits.get hotkey = some audit ∧ audit.verdict = .passed) ∧
    ∃ validation, verdicts.validations.get hotkey = some validation ∧ validation.verdict = .passed

instance (verdicts : Verdicts) (hotkey : String) : Decidable (verdicts.Passed hotkey) :=
  decidable_of_iff ((∃ audit ∈ verdicts.audits.get hotkey, audit.verdict = .passed) ∧
    ∃ validation ∈ verdicts.validations.get hotkey, validation.verdict = .passed) Iff.rfl

inductive EntryStatus | won | lost | pending | rejected
deriving DecidableEq

structure TimelineEntry where
  hotkey : String
  status : EntryStatus
  defender : String
  margin : Option Rat := none
  verified : Bool := false
  reason : Option String := none
deriving DecidableEq

structure Timeline where
  entries : List TimelineEntry := []
deriving DecidableEq

def Timeline.leaders (timeline : Timeline) : List TimelineEntry :=
  timeline.entries.filter fun e => e.status = .won

def Timeline.nextMatch (timeline : Timeline) : Option (String × String) :=
  (timeline.entries.find? fun e => e.status = .pending).map fun e => (e.defender, e.hotkey)

/-- The first pair of candidates, in order, without a cached match. -/
def unmatchedPair (matrix : MatchMatrix) : List String → Option (String × String)
  | [] => none
  | left :: rest =>
      match rest.find? fun right => !matrix.contains (left, right) with
      | some right => some (left, right)
      | none => unmatchedPair matrix rest

def Timeline.findExploratoryDuel (timeline : Timeline) (matrix : MatchMatrix) :
    Option (String × String) :=
  unmatchedPair matrix
    ((timeline.entries.filter fun e => e.status ≠ .rejected).map TimelineEntry.hotkey)

def Timeline.winner (timeline : Timeline) : String :=
  (timeline.leaders.getLast?.map TimelineEntry.hotkey).getD "leader"

def Timeline.isFinalized (timeline : Timeline) : Bool :=
  timeline.entries.all fun e => e.status ≠ .pending && (e.status ≠ .won || e.verified)

/-! ## The fold -/

variable (matrix : MatchMatrix) (winMargin : Rat) (verdicts : Verdicts)

/-- The entries of the hotkeys that are left, from the last defender on. -/
def deriveFrom (defender : String) (defenderVerified : Bool) : List String → List TimelineEntry
  | [] => []
  | hotkey :: rest =>
      match matrix.get ("leader", hotkey) with
      | none => deriveFrom defender defenderVerified rest
      | some qualification =>
          if qualification < winMargin then deriveFrom defender defenderVerified rest
          else
            match verdicts.rejection hotkey with
            | some reason =>
                { hotkey, status := .rejected, defender, reason := some reason } ::
                  deriveFrom defender defenderVerified rest
            | none =>
                match matrix.get (defender, hotkey) with
                | none =>
                    { hotkey, status := .pending, defender } ::
                      deriveFrom defender defenderVerified rest
                | some margin =>
                    if margin < winMargin then
                      { hotkey, status := .lost, defender, margin := some margin } ::
                        deriveFrom defender defenderVerified rest
                    else
                      let verified := defenderVerified && decide (verdicts.Passed hotkey)
                      { hotkey, status := .won, defender, margin := some margin, verified } ::
                        deriveFrom hotkey verified rest

def Timeline.derive (allHotkeys : List String) : Timeline :=
  ⟨deriveFrom matrix winMargin verdicts "leader" true allHotkeys⟩

/-! ## The chain of winners -/

/-- The cached match has the challenger win against the defender. -/
def Beats (defender challenger : String) : Prop :=
  ∃ margin, matrix.get (defender, challenger) = some margin ∧ winMargin ≤ margin

variable {matrix winMargin verdicts}

theorem deriveFrom_cons (defender : String) (defenderVerified : Bool) (hotkey : String)
    (rest : List String) :
    (¬ Beats matrix winMargin "leader" hotkey ∧
      deriveFrom matrix winMargin verdicts defender defenderVerified (hotkey :: rest) =
        deriveFrom matrix winMargin verdicts defender defenderVerified rest) ∨
    (Beats matrix winMargin "leader" hotkey ∧ ∃ entry : TimelineEntry, entry.status ≠ .won ∧
      (Beats matrix winMargin defender hotkey → (verdicts.rejection hotkey).isSome) ∧
      deriveFrom matrix winMargin verdicts defender defenderVerified (hotkey :: rest) =
        entry :: deriveFrom matrix winMargin verdicts defender defenderVerified rest) ∨
    (Beats matrix winMargin "leader" hotkey ∧ verdicts.rejection hotkey = none ∧
      ∃ margin, matrix.get (defender, hotkey) = some margin ∧ winMargin ≤ margin ∧
      deriveFrom matrix winMargin verdicts defender defenderVerified (hotkey :: rest) =
        ⟨hotkey, .won, defender, some margin,
          defenderVerified && decide (verdicts.Passed hotkey), none⟩ ::
          deriveFrom matrix winMargin verdicts hotkey
            (defenderVerified && decide (verdicts.Passed hotkey)) rest) := by
  simp only [deriveFrom]
  cases qualified : matrix.get ("leader", hotkey) with
  | none =>
      refine Or.inl ⟨?_, rfl⟩
      rintro ⟨margin, cached, -⟩
      simp [qualified] at cached
  | some qualification =>
      by_cases low : qualification < winMargin
      · refine Or.inl ⟨?_, by simp only [if_pos low]⟩
        rintro ⟨margin, cached, high⟩
        obtain rfl := Option.some.inj (qualified.symm.trans cached)
        exact absurd low (not_lt.mpr high)
      · have beats : Beats matrix winMargin "leader" hotkey :=
          ⟨qualification, qualified, not_lt.mp low⟩
        refine Or.inr ?_
        simp only [if_neg low]
        cases rejected : verdicts.rejection hotkey with
        | some reason => exact Or.inl ⟨beats, _, by simp, by simp, rfl⟩
        | none =>
            cases duel : matrix.get (defender, hotkey) with
            | none =>
                refine Or.inl ⟨beats, _, by simp, ?_, rfl⟩
                rintro ⟨margin, cached, -⟩
                simp [duel] at cached
            | some margin =>
                by_cases lost : margin < winMargin
                · simp only [if_pos lost]
                  refine Or.inl ⟨beats, _, by simp, ?_, rfl⟩
                  rintro ⟨margin', cached, high⟩
                  obtain rfl := Option.some.inj (duel.symm.trans cached)
                  exact absurd lost (not_lt.mpr high)
                · simp only [if_neg lost]
                  exact Or.inr ⟨beats, trivial, margin, rfl, not_lt.mp lost, rfl⟩

/-- The winners of a list of entries, in order. -/
def winners (entries : List TimelineEntry) : List String :=
  (entries.filter fun e => e.status = .won).map TimelineEntry.hotkey

theorem winners_cons_won (entry : TimelineEntry) (entries : List TimelineEntry)
    (won : entry.status = .won) : winners (entry :: entries) = entry.hotkey :: winners entries := by
  simp [winners, won]

theorem winners_cons_other (entry : TimelineEntry) (entries : List TimelineEntry)
    (other : entry.status ≠ .won) : winners (entry :: entries) = winners entries := by
  simp [winners, other]

/-- What the fold says about its winners: they are submitted in that order, each beats the one
before it, and each qualified and was not rejected. -/
structure Chain (matrix : MatchMatrix) (winMargin : Rat) (verdicts : Verdicts) (defender : String)
    (hotkeys chain : List String) : Prop where
  order : chain.Sublist hotkeys
  beats : (defender :: chain).IsChain (Beats matrix winMargin)
  qualified : ∀ hotkey ∈ chain, Beats matrix winMargin "leader" hotkey
  accepted : ∀ hotkey ∈ chain, verdicts.rejection hotkey = none

theorem chain_deriveFrom (defender : String) (defenderVerified : Bool) (hotkeys : List String) :
    Chain matrix winMargin verdicts defender hotkeys
      (winners (deriveFrom matrix winMargin verdicts defender defenderVerified hotkeys)) := by
  induction hotkeys generalizing defender defenderVerified with
  | nil => exact ⟨List.nil_sublist _, .singleton _, by simp [winners, deriveFrom],
      by simp [winners, deriveFrom]⟩
  | cons hotkey rest ih =>
      rcases @deriveFrom_cons matrix winMargin verdicts
          defender defenderVerified hotkey rest with
        ⟨-, same⟩ | ⟨-, entry, notWon, -, same⟩ | ⟨qualified, accepted, margin, duel, high, same⟩
      · rw [same]
        have chain := ih defender defenderVerified
        exact ⟨chain.order.cons _, chain.beats, chain.qualified, chain.accepted⟩
      · rw [same, winners_cons_other _ _ notWon]
        have chain := ih defender defenderVerified
        exact ⟨chain.order.cons _, chain.beats, chain.qualified, chain.accepted⟩
      · rw [same, winners_cons_won _ _ rfl]
        have chain := ih hotkey (defenderVerified && decide (verdicts.Passed hotkey))
        exact ⟨chain.order.cons_cons _, chain.beats.cons_cons ⟨margin, duel, high⟩,
          List.forall_mem_cons.mpr ⟨qualified, chain.qualified⟩,
          List.forall_mem_cons.mpr ⟨accepted, chain.accepted⟩⟩

theorem verified_deriveFrom (defender : String) (defenderVerified : Bool) (hotkeys : List String) :
    ∀ entry ∈ deriveFrom matrix winMargin verdicts defender defenderVerified hotkeys,
      entry.status = .won → entry.verified = true → verdicts.Passed entry.hotkey := by
  induction hotkeys generalizing defender defenderVerified with
  | nil => simp [deriveFrom]
  | cons hotkey rest ih =>
      rcases @deriveFrom_cons matrix winMargin verdicts
          defender defenderVerified hotkey rest with
        ⟨-, same⟩ | ⟨-, entry, notWon, -, same⟩ | ⟨-, -, margin, duel, high, same⟩
      · rw [same]
        exact ih defender defenderVerified
      · rw [same]
        refine List.forall_mem_cons.mpr ⟨fun won => absurd won notWon, ih defender defenderVerified⟩
      · rw [same]
        refine List.forall_mem_cons.mpr ⟨?_, ih hotkey _⟩
        intro _ verified
        simp only [Bool.and_eq_true, decide_eq_true_eq] at verified
        exact verified.2

theorem rejected_of_no_winners (defenderVerified : Bool) (hotkeys : List String)
    (none : winners (deriveFrom matrix winMargin verdicts "leader" defenderVerified hotkeys) = []) :
    ∀ hotkey ∈ hotkeys, Beats matrix winMargin "leader" hotkey →
      (verdicts.rejection hotkey).isSome := by
  induction hotkeys with
  | nil => simp
  | cons hotkey rest ih =>
      rcases @deriveFrom_cons matrix winMargin verdicts
          "leader" defenderVerified hotkey rest with
        ⟨unqualified, same⟩ | ⟨-, entry, notWon, rejected, same⟩ | ⟨-, -, margin, -, -, same⟩
      · rw [same] at none
        exact List.forall_mem_cons.mpr ⟨fun qualified => absurd qualified unqualified, ih none⟩
      · rw [same, winners_cons_other _ _ notWon] at none
        exact List.forall_mem_cons.mpr ⟨rejected, ih none⟩
      · rw [same, winners_cons_won _ _ rfl] at none
        cases none

theorem won_margin (defender : String) (defenderVerified : Bool) (hotkeys : List String) :
    ∀ entry ∈ deriveFrom matrix winMargin verdicts defender defenderVerified hotkeys,
      entry.status = .won → entry.margin.isSome := by
  induction hotkeys generalizing defender defenderVerified with
  | nil => simp [deriveFrom]
  | cons hotkey rest ih =>
      rcases @deriveFrom_cons matrix winMargin verdicts
          defender defenderVerified hotkey rest with
        ⟨-, same⟩ | ⟨-, entry, notWon, -, same⟩ | ⟨-, -, margin, -, -, same⟩
      · rw [same]
        exact ih defender defenderVerified
      · rw [same]
        exact List.forall_mem_cons.mpr ⟨fun won => absurd won notWon, ih defender defenderVerified⟩
      · rw [same]
        exact List.forall_mem_cons.mpr ⟨fun _ => rfl, ih hotkey _⟩

end GenSubnet.Judge
