import GenSubnet.Judge.RoundRunner

/-!
# What a finalized round rests on

The invariant of a run says, for each phase, what the cached matches, the verdicts that were read
and the requests already guarantee. It is kept by every step, whenever verdicts arrive or a shutdown
is requested, and at the moment in which the winner is written it is the soundness of the winner.
-/

namespace GenSubnet.Judge
open Library

/-! ## Verdicts are only added -/

def Verdicts.Within (verdicts later : Verdicts) : Prop :=
  (∀ hotkey result, verdicts.validations.get hotkey = some result →
    later.validations.get hotkey = some result) ∧
  ∀ hotkey audit, verdicts.audits.get hotkey = some audit → later.audits.get hotkey = some audit

theorem Verdicts.Within.refl (verdicts : Verdicts) : verdicts.Within verdicts :=
  ⟨fun _ _ h => h, fun _ _ h => h⟩

theorem Verdicts.Within.trans {a b c : Verdicts} (ab : a.Within b) (bc : b.Within c) : a.Within c :=
  ⟨fun hotkey result h => bc.1 hotkey result (ab.1 hotkey result h),
    fun hotkey audit h => bc.2 hotkey audit (ab.2 hotkey audit h)⟩

theorem Verdicts.empty_within (verdicts : Verdicts) : ({} : Verdicts).Within verdicts :=
  ⟨by simp, by simp⟩

theorem Verdicts.rejection_isSome {verdicts : Verdicts} {hotkey : String} :
    (verdicts.rejection hotkey).isSome ↔
      (∃ result, verdicts.validations.get hotkey = some result ∧ result.verdict = .failed) ∨
        ∃ audit, verdicts.audits.get hotkey = some audit ∧ audit.verdict = .failed := by
  unfold Verdicts.rejection candidateRejectionReason
  rcases verdicts.validations.get hotkey with _ | ⟨_ | _, _⟩ <;>
    rcases verdicts.audits.get hotkey with _ | ⟨_, _ | _, _⟩ <;> simp

theorem Verdicts.Within.rejection {verdicts later : Verdicts} (within : verdicts.Within later)
    {hotkey : String} (rejected : (verdicts.rejection hotkey).isSome) :
    (later.rejection hotkey).isSome := by
  rw [Verdicts.rejection_isSome] at rejected ⊢
  rcases rejected with ⟨result, read, failed⟩ | ⟨audit, read, failed⟩
  · exact Or.inl ⟨result, within.1 hotkey result read, failed⟩
  · exact Or.inr ⟨audit, within.2 hotkey audit read, failed⟩

theorem Verdicts.Within.passed {verdicts later : Verdicts} (within : verdicts.Within later)
    {hotkey : String} (passed : verdicts.Passed hotkey) : later.Passed hotkey := by
  obtain ⟨⟨audit, read, ok⟩, validation, read', ok'⟩ := passed
  exact ⟨⟨audit, within.2 _ _ read, ok⟩, validation, within.1 _ _ read', ok'⟩

/-! ## The invariant of a run -/

variable (setup : RoundSetup)

/-- The hotkey needs no qualification match any more. -/
def Runner.Settled (s : Runner) (hotkey : String) : Prop :=
  (s.verdicts.rejection hotkey).isSome ∨ s.matrix.contains ("leader", hotkey)

def Runner.Qualified (s : Runner) : Prop := ∀ hotkey ∈ setup.hotkeys, s.Settled hotkey

def Runner.Requested (s : Runner) (entries : List TimelineEntry) : Prop :=
  ∀ entry ∈ entries, entry.status = .won → entry.hotkey ∈ s.requests

def Runner.PhaseSound (s : Runner) : Phase → Prop
  | .starting | .transitioning _ | .returned | .raised => True
  | .qualifying rest _ => ∀ hotkey ∈ setup.hotkeys,
      hotkey ∈ rest ∨ s.Settled hotkey ∨ s.shutdown = true
  | .qualifyingMatch current rest => ∀ hotkey ∈ setup.hotkeys,
      hotkey ∈ current :: rest ∨ s.Settled hotkey ∨ s.shutdown = true
  | .looping _ => s.shutdown = true ∨ s.Qualified setup
  | .matching _ _ | .awaiting => s.Qualified setup
  | .announcing timeline => s.Qualified setup ∧ timeline = s.derive setup
  | .requesting timeline rest => s.Qualified setup ∧ timeline = s.derive setup ∧
      ∃ done, timeline.entries = done ++ rest ∧ s.Requested done
  | .deciding timeline => s.Qualified setup ∧ timeline = s.derive setup ∧
      s.Requested timeline.entries
  | .finalizing winner _ => (setup.hotkeys = [] ∧ winner = "leader") ∨
      s.Qualified setup ∧ (s.derive setup).isFinalized = true ∧
        s.Requested (s.derive setup).entries ∧ winner = (s.derive setup).winner

structure Runner.Sound (s : Runner) : Prop where
  read : s.verdicts.Within s.delivered
  phase : s.PhaseSound setup s.phase

variable {setup} {s s' : Runner}

theorem Runner.PhaseSound.congr {phase : Phase} (sound : s.PhaseSound setup phase)
    (matrix : s'.matrix = s.matrix) (verdicts : s'.verdicts = s.verdicts)
    (requests : s'.requests = s.requests) (shutdown : s.shutdown = true → s'.shutdown = true) :
    s'.PhaseSound setup phase := by
  have settled : ∀ hotkey, s'.Settled hotkey ↔ s.Settled hotkey := by
    intro hotkey
    rw [Runner.Settled, Runner.Settled, matrix, verdicts]
  have derive : s'.derive setup = s.derive setup := by
    rw [Runner.derive, Runner.derive, matrix, verdicts]
  cases phase with
  | starting | transitioning _ | returned | raised => trivial
  | qualifying rest reload =>
      intro hotkey member
      rw [settled]
      exact (sound hotkey member).imp_right fun h => h.imp_right shutdown
  | qualifyingMatch current rest =>
      intro hotkey member
      rw [settled]
      exact (sound hotkey member).imp_right fun h => h.imp_right shutdown
  | looping reload =>
      simpa only [Runner.PhaseSound, Runner.Qualified, settled] using sound.imp_left shutdown
  | matching left right | awaiting =>
      simpa only [Runner.PhaseSound, Runner.Qualified, settled] using sound
  | announcing timeline | requesting timeline rest | deciding timeline | finalizing winner reason =>
      simpa only [Runner.PhaseSound, Runner.Qualified, Runner.Requested, settled, derive, requests]
        using sound

theorem Runner.Settled.reload {hotkey : String} (settled : s.Settled hotkey)
    (read : s.verdicts.Within s.delivered) : s.reload.Settled hotkey :=
  settled.imp_left read.rejection

theorem Runner.Settled.cacheMatch {hotkey : String} (settled : s.Settled hotkey)
    (left right : String) (margin : Rat) : (s.cacheMatch left right margin).Settled hotkey := by
  unfold Runner.cacheMatch
  split
  · exact settled
  · refine settled.imp_right fun cached => ?_
    rw [Dict.contains_set, cached, Bool.or_true]

@[simp] theorem Runner.cacheMatch_verdicts (left right : String) (margin : Rat) :
    (s.cacheMatch left right margin).verdicts = s.verdicts := by
  unfold Runner.cacheMatch
  split <;> rfl

@[simp] theorem Runner.cacheMatch_delivered (left right : String) (margin : Rat) :
    (s.cacheMatch left right margin).delivered = s.delivered := by
  unfold Runner.cacheMatch
  split <;> rfl

@[simp] theorem Runner.cacheMatch_shutdown (left right : String) (margin : Rat) :
    (s.cacheMatch left right margin).shutdown = s.shutdown := by
  unfold Runner.cacheMatch
  split <;> rfl

theorem Runner.cacheMatch_settled (hotkey : String) (margin : Rat) :
    (s.cacheMatch "leader" hotkey margin).Settled hotkey ∨ s.shutdown = true := by
  unfold Runner.cacheMatch
  split
  · rename_i shutdown
    exact Or.inr shutdown
  · refine Or.inl (Or.inr ?_)
    rw [Dict.contains_set, decide_eq_true rfl, Bool.true_or]

theorem Runner.requestValidation_requests (entry : TimelineEntry) {hotkey : String}
    (member : hotkey ∈ s.requests) : hotkey ∈ (s.requestValidation entry).requests := by
  unfold Runner.requestValidation
  split
  · exact member
  · exact List.mem_append_left _ member

theorem Runner.requestValidation_won {entry : TimelineEntry} (won : entry.status = .won)
    (margin : entry.margin.isSome) : entry.hotkey ∈ (s.requestValidation entry).requests := by
  unfold Runner.requestValidation
  split
  · rename_i skipped
    rcases skipped with lost | unplayed | requested
    · exact absurd won lost
    · simp [unplayed] at margin
    · exact requested
  · simp

/-! ## Steps -/

theorem Runner.Sound.advance (sound : s.Sound setup) (stepped : s.advance setup = some s') :
    s'.Sound setup := by
  obtain ⟨read, phase⟩ := sound
  unfold Runner.advance at stepped
  split at stepped
  · split at stepped
    · rename_i empty
      obtain rfl := Option.some.inj stepped
      exact ⟨read, Or.inl ⟨List.isEmpty_iff.mp empty, rfl⟩⟩
    · cases stepped
  · rename_i rest at_phase
    obtain rfl := Option.some.inj stepped
    rw [at_phase] at phase
    refine ⟨.refl _, ?_⟩
    intro hotkey member
    exact (phase hotkey member).imp_right fun h => h.imp_left fun settled => settled.reload read
  · rename_i at_phase
    obtain rfl := Option.some.inj stepped
    rw [at_phase] at phase
    refine ⟨read, ?_⟩
    by_cases shutdown : s.shutdown = true
    · exact Or.inl shutdown
    · refine Or.inr fun hotkey member => ?_
      rcases phase hotkey member with rest | settled | stop
      · cases rest
      · exact settled
      · exact absurd stop shutdown
  · rename_i current rest at_phase
    rw [at_phase] at phase
    split at stepped
    · rename_i shutdown
      obtain rfl := Option.some.inj stepped
      exact ⟨read, Or.inl shutdown⟩
    · split at stepped
      · rename_i settled
        obtain rfl := Option.some.inj stepped
        refine ⟨read, ?_⟩
        intro hotkey member
        rcases phase hotkey member with left | h
        · rcases List.mem_cons.mp left with rfl | left
          · exact Or.inr (Or.inl settled)
          · exact Or.inl left
        · exact Or.inr h
      · obtain rfl := Option.some.inj stepped
        exact ⟨read, phase⟩
  · rename_i reload at_phase
    rw [at_phase] at phase
    split at stepped
    · obtain rfl := Option.some.inj stepped
      exact ⟨read, trivial⟩
    · rename_i running
      have qualified : s.Qualified setup := phase.resolve_left running
      obtain rfl := Option.some.inj stepped
      cases reload with
      | false => exact ⟨read, qualified, rfl⟩
      | true =>
          exact ⟨.refl _, fun hotkey member => (qualified hotkey member).reload read, rfl⟩
  · rename_i timeline at_phase
    obtain rfl := Option.some.inj stepped
    rw [at_phase] at phase
    exact ⟨read, phase.1, phase.2, [], rfl, by simp [Runner.Requested]⟩
  · rename_i timeline entry rest at_phase
    obtain rfl := Option.some.inj stepped
    rw [at_phase] at phase
    obtain ⟨qualified, derived, done, entries, requested⟩ := phase
    have kept : (s.requestValidation entry).matrix = s.matrix ∧
        (s.requestValidation entry).verdicts = s.verdicts ∧
        (s.requestValidation entry).delivered = s.delivered := by
      unfold Runner.requestValidation
      split <;> exact ⟨rfl, rfl, rfl⟩
    refine ⟨?_, ?_, ?_, done ++ [entry], by simp [entries], ?_⟩
    · simpa only [kept.2.1, kept.2.2] using read
    · intro hotkey member
      simpa only [Runner.Settled, kept.1, kept.2.1] using qualified hotkey member
    · simpa only [Runner.derive, kept.1, kept.2.1] using derived
    · intro other member won
      rcases List.mem_append.mp member with member | member
      · exact Runner.requestValidation_requests entry (requested other member won)
      · obtain rfl := List.mem_singleton.mp member
        have listed : other ∈ (s.derive setup).entries := by
          rw [← derived, entries]
          simp
        exact Runner.requestValidation_won won (won_margin "leader" true setup.hotkeys other listed won)
  · rename_i timeline at_phase
    obtain rfl := Option.some.inj stepped
    rw [at_phase] at phase
    obtain ⟨qualified, derived, done, entries, requested⟩ := phase
    rw [List.append_nil] at entries
    exact ⟨read, qualified, derived, entries ▸ requested⟩
  · rename_i timeline at_phase
    rw [at_phase] at phase
    obtain ⟨qualified, rfl, requested⟩ := phase
    have ensured : ∀ left right, (s.ensureMatch left right).Sound setup := by
      intro left right
      unfold Runner.ensureMatch
      split
      · exact ⟨read, Or.inr qualified⟩
      · exact ⟨read, qualified⟩
    split at stepped
    · rename_i finalized
      obtain rfl := Option.some.inj stepped
      exact ⟨read, Or.inr ⟨qualified, finalized, requested, rfl⟩⟩
    · split at stepped
      · obtain rfl := Option.some.inj stepped
        exact ensured _ _
      · obtain rfl := Option.some.inj stepped
        exact ensured _ _
      · obtain rfl := Option.some.inj stepped
        exact ⟨read, qualified⟩
  · obtain rfl := Option.some.inj stepped
    exact ⟨read, trivial⟩
  · cases stepped
  · cases stepped
  · cases stepped
  · cases stepped
  · cases stepped
  · cases stepped

theorem within_deliverValidation {verdicts delivered : Verdicts} (read : verdicts.Within delivered)
    {hotkey : String} (fresh : ¬ delivered.validations.contains hotkey = true)
    (result : ValidationResult) :
    verdicts.Within { delivered with validations := delivered.validations.set hotkey result } := by
  refine ⟨?_, read.2⟩
  intro other verdict known
  have delivered_other := read.1 other verdict known
  have ne : other ≠ hotkey := by
    rintro rfl
    exact fresh (by simp [Dict.contains, delivered_other])
  rw [Dict.get_set_of_ne _ _ ne]
  exact delivered_other

theorem within_deliverAudit {verdicts delivered : Verdicts} (read : verdicts.Within delivered)
    {audit : AuditResult} (fresh : ¬ delivered.audits.contains audit.hotkey = true) :
    verdicts.Within { delivered with audits := delivered.audits.set audit.hotkey audit } := by
  refine ⟨read.1, ?_⟩
  intro other verdict known
  have delivered_other := read.2 other verdict known
  have ne : other ≠ audit.hotkey := by
    rintro rfl
    exact fresh (by simp [Dict.contains, delivered_other])
  rw [Dict.get_set_of_ne _ _ ne]
  exact delivered_other

theorem sound_step (s : Runner) (event : RunEvent) (s' : Runner) (sound : s.Sound setup)
    (stepped : s.step setup event = some s') : s'.Sound setup := by
  obtain ⟨read, phase⟩ := sound
  cases event with
  | deliverValidation hotkey result =>
      simp only [Runner.step] at stepped
      split at stepped
      · cases stepped
      · rename_i fresh
        obtain rfl := Option.some.inj stepped
        exact ⟨within_deliverValidation read fresh result, phase.congr rfl rfl rfl id⟩
  | deliverAudit audit =>
      simp only [Runner.step] at stepped
      split at stepped
      · cases stepped
      · rename_i fresh
        obtain rfl := Option.some.inj stepped
        exact ⟨within_deliverAudit read fresh, phase.congr rfl rfl rfl id⟩
  | requestShutdown =>
      obtain rfl := Option.some.inj stepped
      exact ⟨read, phase.congr rfl rfl rfl fun _ => rfl⟩
  | fail =>
      simp only [Runner.step] at stepped
      split at stepped
      · cases stepped
      · cases stepped
      · obtain rfl := Option.some.inj stepped
        exact ⟨read, trivial⟩
  | baseline complete =>
      simp only [Runner.step] at stepped
      split at stepped
      · split at stepped
        · cases stepped
        · split at stepped
          · obtain rfl := Option.some.inj stepped
            exact ⟨read, fun hotkey member => Or.inl member⟩
          · obtain rfl := Option.some.inj stepped
            exact ⟨read, trivial⟩
      · cases stepped
  | matchFinished margin =>
      simp only [Runner.step] at stepped
      split at stepped
      · rename_i current rest at_phase
        obtain rfl := Option.some.inj stepped
        rw [at_phase] at phase
        refine ⟨by simpa using read, ?_⟩
        intro hotkey member
        rcases phase hotkey member with left | settled | shutdown
        · rcases List.mem_cons.mp left with rfl | left
          · refine Or.inr ((Runner.cacheMatch_settled hotkey margin).imp_right ?_)
            intro shutdown
            simpa using shutdown
          · exact Or.inl left
        · exact Or.inr (Or.inl (settled.cacheMatch _ _ _))
        · exact Or.inr (Or.inr (by simpa using shutdown))
      · rename_i left right at_phase
        obtain rfl := Option.some.inj stepped
        rw [at_phase] at phase
        exact ⟨by simpa using read,
          Or.inr fun hotkey member => (phase hotkey member).cacheMatch _ _ _⟩
      · cases stepped
  | wake =>
      simp only [Runner.step] at stepped
      split at stepped
      · rename_i at_phase
        obtain rfl := Option.some.inj stepped
        rw [at_phase] at phase
        exact ⟨read, Or.inr phase⟩
      · cases stepped
  | readLeader leader =>
      simp only [Runner.step] at stepped
      split at stepped
      · split at stepped
        · obtain rfl := Option.some.inj stepped
          exact ⟨read, trivial⟩
        · obtain rfl := Option.some.inj stepped
          exact ⟨read, trivial⟩
      · cases stepped
  | advance => exact Runner.Sound.advance ⟨read, phase⟩ stepped

theorem Runner.Fresh.sound (fresh : s.Fresh) : s.Sound setup := by
  refine ⟨?_, ?_⟩
  · rw [fresh.verdicts]
    exact Verdicts.empty_within _
  · rw [fresh.phase]
    trivial

/-! ## The winner -/

theorem winner_eq (timeline : Timeline) :
    timeline.winner = ((winners timeline.entries).getLast?).getD "leader" := by
  rw [Timeline.winner, winners, List.getLast?_map]
  rfl

theorem passed_of_finalized (finalized : (s.derive setup).isFinalized = true) :
    ∀ hotkey ∈ winners (s.derive setup).entries, s.verdicts.Passed hotkey := by
  intro hotkey member
  obtain ⟨entry, listed, rfl⟩ := List.mem_map.mp member
  obtain ⟨listed, won⟩ := List.mem_filter.mp listed
  have won : entry.status = .won := of_decide_eq_true won
  have verified : entry.verified = true := by
    have final := List.all_eq_true.mp finalized entry listed
    simpa [won] using final
  exact verified_deriveFrom "leader" true setup.hotkeys entry listed won verified

theorem resolveWinner_hotkey {winner : String} {leader : Option LeaderEntry} {result : RoundResult}
    (resolved : resolveWinner setup winner leader = some result) : result.winnerHotkey = winner := by
  unfold resolveWinner at resolved
  split at resolved
  · obtain ⟨submission, -, rfl⟩ := Option.map_eq_some_iff.mp resolved
    rfl
  · rename_i same
    obtain ⟨leader, -, rfl⟩ := Option.map_eq_some_iff.mp resolved
    exact (not_not.mp same).symm

theorem advance_result (stepped : s.advance setup = some s') : s'.result = s.result := by
  have requested : ∀ entry, (s.requestValidation entry).result = s.result := by
    intro entry
    unfold Runner.requestValidation
    split <;> rfl
  have ensured : ∀ left right, (s.ensureMatch left right).result = s.result := by
    intro left right
    unfold Runner.ensureMatch
    split <;> rfl
  unfold Runner.advance at stepped
  (repeat' split at stepped) <;> first
    | (cases stepped; done)
    | (obtain rfl := Option.some.inj stepped
       simp [requested, ensured, Runner.reload])

theorem result_step {event : RunEvent} {result : RoundResult} (stepped : s.step setup event = some s')
    (before : s.result = none) (written : s'.result = some result) :
    ∃ reason, s.phase = .finalizing result.winnerHotkey reason ∧ s'.matrix = s.matrix ∧
      s'.verdicts = s.verdicts ∧ s'.delivered = s.delivered ∧ s'.requests = s.requests := by
  have cached : ∀ left right margin, (s.cacheMatch left right margin).result = s.result := by
    intro left right margin
    unfold Runner.cacheMatch
    split <;> rfl
  have unwritten : s'.result ≠ s.result := by simp [before, written]
  cases event with
  | readLeader leader =>
      simp only [Runner.step] at stepped
      split at stepped
      · rename_i winner reason at_phase
        split at stepped
        · rename_i resolved resolution
          obtain rfl := Option.some.inj stepped
          obtain rfl := Option.some.inj written
          rw [resolveWinner_hotkey resolution]
          exact ⟨reason, at_phase, rfl, rfl, rfl, rfl⟩
        · obtain rfl := Option.some.inj stepped
          exact absurd rfl unwritten
      · cases stepped
  | deliverValidation _ _ | deliverAudit _ | requestShutdown | fail | baseline _ | matchFinished _
  | wake =>
      simp only [Runner.step] at stepped
      (repeat' split at stepped) <;> first
        | (cases stepped; done)
        | (obtain rfl := Option.some.inj stepped
           exact absurd (by simp [cached]) unwritten)
  | advance => exact absurd (advance_result stepped) unwritten

/-- When a run writes the winner: every hotkey that was not rejected has been matched with the
leader; a winning miner is the last of a chain of winners in the order of the submissions, each of
which beat the leader and the one before it, passed both checks and was requested; and the leader
stays only when no miner that was not rejected has qualified. -/
theorem winner_sound {s₀ : Runner} {events : List RunEvent} {event : RunEvent} {result : RoundResult}
    (fresh : s₀.Fresh) (ran : run (Runner.step setup) s₀ events = some s)
    (stepped : s.step setup event = some s') (before : s.result = none)
    (written : s'.result = some result) :
    s'.verdicts.Within s'.delivered ∧
    (∀ hotkey ∈ setup.hotkeys, s'.verdicts.rejection hotkey = none →
      (s'.matrix.get ("leader", hotkey)).isSome) ∧
    (result.winnerHotkey ≠ "leader" → ∃ chain : List String, chain.Sublist setup.hotkeys ∧
      chain.getLast? = some result.winnerHotkey ∧
      ("leader" :: chain).IsChain (Beats s'.matrix setup.winMargin) ∧
      ∀ hotkey ∈ chain, Beats s'.matrix setup.winMargin "leader" hotkey ∧
        s'.delivered.Passed hotkey ∧ hotkey ∈ s'.requests) ∧
    (result.winnerHotkey = "leader" → ∀ hotkey ∈ setup.hotkeys,
      s'.verdicts.rejection hotkey = none → ¬ Beats s'.matrix setup.winMargin "leader" hotkey) := by
  have sound : s.Sound setup := run_invariant ran sound_step fresh.sound
  obtain ⟨reason, at_phase, matrix, verdicts, delivered, requests⟩ :=
    result_step stepped before written
  have phase := sound.phase
  rw [at_phase] at phase
  rw [matrix, verdicts, delivered, requests]
  rcases phase with ⟨empty, leader⟩ | ⟨qualified, finalized, requested, winner⟩
  · refine ⟨sound.read, by simp [empty], fun miner => absurd leader miner, by simp [empty]⟩
  · have chain : Chain s.matrix setup.winMargin s.verdicts "leader" setup.hotkeys
        (winners (s.derive setup).entries) := chain_deriveFrom "leader" true setup.hotkeys
    refine ⟨sound.read, ?_, ?_, ?_⟩
    · intro hotkey member accepted
      rcases qualified hotkey member with rejected | cached
      · simp [accepted] at rejected
      · exact cached
    · intro miner
      refine ⟨winners (s.derive setup).entries, chain.order, ?_, chain.beats, ?_⟩
      · rw [winner_eq] at winner
        cases last : (winners (s.derive setup).entries).getLast? with
        | none => simp [last, winner] at miner
        | some hotkey => simp [last, winner]
      · intro hotkey member
        refine ⟨chain.qualified hotkey member,
          sound.read.passed (passed_of_finalized finalized hotkey member), ?_⟩
        obtain ⟨entry, listed, rfl⟩ := List.mem_map.mp member
        obtain ⟨listed, won⟩ := List.mem_filter.mp listed
        exact requested entry listed (of_decide_eq_true won)
    · intro leader hotkey member accepted beats
      have none : winners (s.derive setup).entries = [] := by
        rw [winner_eq] at winner
        cases last : (winners (s.derive setup).entries).getLast? with
        | none => exact List.getLast?_eq_none_iff.mp last
        | some first =>
            have same : first = "leader" := by simpa [last, leader] using winner.symm
            have listed := chain.order.subset (List.mem_of_getLast? last)
            exact absurd (same ▸ listed) setup.submissions.leader_not_mem
      have rejected := rejected_of_no_winners true setup.hotkeys none hotkey member beats
      simp [accepted] at rejected

/-! ## A round with two winners -/

def sampleHotkeys : List String := ["5HotkeyOfMinerA", "5HotkeyOfMinerB"]

def sampleSubmission : MinerSubmission := ⟨"test/model", "aaaa", 150, "00", "404-1"⟩

def sampleSetup : RoundSetup where
  submissions :=
    { entries := .ofList (sampleHotkeys.map fun hotkey => (hotkey, sampleSubmission))
      hotkey_length := by decide +kernel }
  winMargin := 1 / 20

/-- Both miners beat the leader, the second one also the first; the verdicts arrive while the run
waits. -/
def sampleEvents : List RunEvent :=
  [.baseline true, .advance, .advance, .matchFinished 1, .advance, .advance, .matchFinished 1] ++
  List.replicate 8 .advance ++ [.matchFinished (1 / 2)] ++ List.replicate 6 .advance ++
  sampleHotkeys.map (fun hotkey => .deliverValidation hotkey ⟨.passed, ""⟩) ++
  sampleHotkeys.map (fun hotkey => .deliverAudit ⟨hotkey, .passed, ""⟩) ++
  [.wake] ++ List.replicate 6 .advance

def sampleRunner : Runner := (run (Runner.step sampleSetup) {} sampleEvents).getD {}

/-- The run as it writes the winner. -/
def sampleFinalized : Runner := (sampleRunner.step sampleSetup (.readLeader none)).getD {}

theorem winner_sound_sample :
    sampleFinalized.result = some ⟨"5HotkeyOfMinerB", "test/model", "aaaa"⟩ ∧
    ∃ chain : List String, chain.Sublist sampleHotkeys ∧
      chain.getLast? = some "5HotkeyOfMinerB" ∧
      ("leader" :: chain).IsChain (Beats sampleFinalized.matrix (1 / 20)) ∧
      ∀ hotkey ∈ chain, Beats sampleFinalized.matrix (1 / 20) "leader" hotkey ∧
        sampleFinalized.delivered.Passed hotkey ∧ hotkey ∈ sampleFinalized.requests := by
  have enabled : (run (Runner.step sampleSetup) {} sampleEvents).isSome = true := by decide +kernel
  have enabled' : (sampleRunner.step sampleSetup (.readLeader none)).isSome = true := by
    decide +kernel
  have ran : run (Runner.step sampleSetup) {} sampleEvents = some sampleRunner := by
    obtain ⟨s, h⟩ := Option.isSome_iff_exists.mp enabled
    rw [sampleRunner, h, Option.getD_some]
  have stepped : sampleRunner.step sampleSetup (.readLeader none) = some sampleFinalized := by
    obtain ⟨s, h⟩ := Option.isSome_iff_exists.mp enabled'
    rw [sampleFinalized, h, Option.getD_some]
  have written : sampleFinalized.result = some ⟨"5HotkeyOfMinerB", "test/model", "aaaa"⟩ := by
    decide +kernel
  have hotkeys : sampleSetup.hotkeys = sampleHotkeys := by decide +kernel
  obtain ⟨-, -, miner, -⟩ := winner_sound ⟨rfl, rfl, rfl⟩ ran stepped (by decide +kernel) written
  rw [hotkeys] at miner
  exact ⟨written, miner (by decide)⟩

end GenSubnet.Judge
