import GenSubnet.Judge.Finalization

/-!
# A finalized timeline is final

Verdicts and matches that come later can reject a miner that had lost and fill pairs off the chain
of winners. They cannot change the chain: each of its members has both verdicts already, and nobody
is left who still has to meet one of them.
-/

namespace GenSubnet.Judge
open Library

/-- Later matches and verdicts: those known stay, and no miner is newly matched with the leader. -/
structure Extends (matrix later : MatchMatrix) (verdicts laterVerdicts : Verdicts) : Prop where
  cached : ∀ pair margin, matrix.get pair = some margin → later.get pair = some margin
  qualification : ∀ hotkey, later.get ("leader", hotkey) = matrix.get ("leader", hotkey)
  read : verdicts.Within laterVerdicts

/-- Nothing about the entry is open. -/
def TimelineEntry.Final (entry : TimelineEntry) : Prop :=
  entry.status ≠ .pending ∧ (entry.status = .won → entry.verified = true)

variable {matrix later : MatchMatrix} {winMargin : Rat} {verdicts laterVerdicts : Verdicts}

theorem Timeline.isFinalized_iff (timeline : Timeline) :
    timeline.isFinalized = true ↔ ∀ entry ∈ timeline.entries, entry.Final := by
  rw [Timeline.isFinalized, List.all_eq_true]
  apply forall₂_congr
  intro entry _
  by_cases won : entry.status = .won <;> simp [TimelineEntry.Final, won]

theorem Verdicts.Passed.rejection {hotkey : String} (passed : verdicts.Passed hotkey) :
    verdicts.rejection hotkey = none := by
  obtain ⟨⟨⟨_, _, _⟩, audit, rfl⟩, ⟨_, _⟩, validation, rfl⟩ := passed
  simp [Verdicts.rejection, candidateRejectionReason, audit, validation]

/-- The induction is on the hotkeys, with whatever defender the fold has reached: the defender
changes only at a winner, where the extended fold has the same winner. -/
theorem deriveFrom_extension (extended : Extends matrix later verdicts laterVerdicts)
    (defender : String) (defenderVerified : Bool) (hotkeys : List String)
    (final : ∀ entry ∈ deriveFrom matrix winMargin verdicts defender defenderVerified hotkeys,
      entry.Final) :
    (∀ entry ∈ deriveFrom later winMargin laterVerdicts defender defenderVerified hotkeys,
      entry.Final) ∧
    (deriveFrom later winMargin laterVerdicts defender defenderVerified hotkeys).filter
        (fun entry => entry.status = .won) =
      (deriveFrom matrix winMargin verdicts defender defenderVerified hotkeys).filter
        fun entry => entry.status = .won := by
  induction hotkeys generalizing defender defenderVerified with
  | nil => exact ⟨final, rfl⟩
  | cons hotkey rest ih =>
      simp only [deriveFrom, extended.qualification] at final ⊢
      cases qualified : matrix.get ("leader", hotkey) with
      | none =>
          simp only [qualified] at final
          exact ih defender defenderVerified final
      | some qualification =>
          simp only [qualified] at final
          by_cases low : qualification < winMargin
          · simp only [if_pos low] at final ⊢
            exact ih defender defenderVerified final
          · simp only [if_neg low] at final ⊢
            cases rejected : verdicts.rejection hotkey with
            | some reason =>
                have known : (verdicts.rejection hotkey).isSome := by simp [rejected]
                obtain ⟨reason', still⟩ := Option.isSome_iff_exists.mp (extended.read.rejection known)
                simp only [rejected, still, List.forall_mem_cons] at final ⊢
                obtain ⟨others, same⟩ := ih defender defenderVerified final.2
                exact ⟨⟨by simp [TimelineEntry.Final], others⟩, by simpa using same⟩
            | none =>
                cases duel : matrix.get (defender, hotkey) with
                | none => simp [rejected, duel, TimelineEntry.Final] at final
                | some margin =>
                    simp only [rejected, duel, extended.cached _ _ duel] at final ⊢
                    by_cases lost : margin < winMargin
                    · -- The loser may be rejected by now; it is no defender either way.
                      simp only [if_pos lost, List.forall_mem_cons] at final ⊢
                      obtain ⟨others, same⟩ := ih defender defenderVerified final.2
                      cases laterVerdicts.rejection hotkey with
                      | some reason =>
                          simp only [List.forall_mem_cons]
                          exact ⟨⟨by simp [TimelineEntry.Final], others⟩, by simpa using same⟩
                      | none =>
                          simp only [List.forall_mem_cons]
                          exact ⟨⟨by simp [TimelineEntry.Final], others⟩, by simpa using same⟩
                    · simp only [if_neg lost, List.forall_mem_cons] at final ⊢
                      have verified := final.1.2 rfl
                      simp only [Bool.and_eq_true, decide_eq_true_eq] at verified
                      have passed := extended.read.passed verified.2
                      simp only [passed.rejection, verified.1, verified.2, passed,
                        List.forall_mem_cons] at final ⊢
                      obtain ⟨others, same⟩ := ih hotkey _ final.2
                      exact ⟨⟨final.1, others⟩, by simpa using same⟩

/-- A finalized timeline stays finalized, with the same winner and the same chain of leaders. -/
theorem finalized_extension (hotkeys : List String) (winMargin : Rat) (matrix later : MatchMatrix)
    (verdicts laterVerdicts : Verdicts) (extended : Extends matrix later verdicts laterVerdicts)
    (finalized : (Timeline.derive matrix winMargin verdicts hotkeys).isFinalized = true) :
    (Timeline.derive later winMargin laterVerdicts hotkeys).isFinalized = true ∧
    (Timeline.derive later winMargin laterVerdicts hotkeys).winner =
      (Timeline.derive matrix winMargin verdicts hotkeys).winner ∧
    (Timeline.derive later winMargin laterVerdicts hotkeys).leaders =
      (Timeline.derive matrix winMargin verdicts hotkeys).leaders := by
  rw [Timeline.isFinalized_iff] at finalized ⊢
  obtain ⟨final, same⟩ := deriveFrom_extension extended "leader" true hotkeys finalized
  have leaders : (Timeline.derive later winMargin laterVerdicts hotkeys).leaders =
    (Timeline.derive matrix winMargin verdicts hotkeys).leaders := same
  refine ⟨final, ?_, leaders⟩
  rw [Timeline.winner, Timeline.winner, leaders]

/-! ## A loser is rejected later -/

def sampleMatches : MatchMatrix :=
  .ofList [(("leader", "5HotkeyOfMinerA"), 1), (("leader", "5HotkeyOfMinerB"), 1 / 2),
    (("5HotkeyOfMinerA", "5HotkeyOfMinerB"), -1)]

def sampleVerdicts : Verdicts where
  validations := .ofList [("5HotkeyOfMinerA", ⟨.passed, ""⟩)]
  audits := .ofList [("5HotkeyOfMinerA", ⟨"5HotkeyOfMinerA", .passed, ""⟩)]

/-- The validation of the second miner fails after the winner is known. -/
def sampleLaterVerdicts : Verdicts :=
  { sampleVerdicts with
    validations := sampleVerdicts.validations.set "5HotkeyOfMinerB" ⟨.failed, "views"⟩ }

theorem finalized_extension_sample :
    (Timeline.derive sampleMatches (1 / 20) sampleVerdicts sampleHotkeys).isFinalized = true ∧
    (Timeline.derive (sampleMatches.set ("5HotkeyOfMinerB", "5HotkeyOfMinerA") 1) (1 / 20)
      sampleLaterVerdicts sampleHotkeys).winner =
        (Timeline.derive sampleMatches (1 / 20) sampleVerdicts sampleHotkeys).winner := by
  have finalized : (Timeline.derive sampleMatches (1 / 20) sampleVerdicts
      sampleHotkeys).isFinalized = true := by decide +kernel
  have unmatched : sampleMatches.get ("5HotkeyOfMinerB", "5HotkeyOfMinerA") = none := by
    decide +kernel
  have unread : ¬ sampleVerdicts.validations.contains "5HotkeyOfMinerB" = true := by
    decide +kernel
  refine ⟨finalized, (finalized_extension _ _ _ _ _ _ ⟨?_, ?_, ?_⟩ finalized).2.1⟩
  · intro pair margin cached
    have ne : pair ≠ ("5HotkeyOfMinerB", "5HotkeyOfMinerA") := by
      rintro rfl
      simp [unmatched] at cached
    rw [Dict.get_set_of_ne _ _ ne]
    exact cached
  · intro hotkey
    apply Dict.get_set_of_ne
    simp
  · exact within_deliverValidation (.refl _) unread _

end GenSubnet.Judge
