import GenSubnet.Competition.StageRun

/-!
# Transitions that overwrite

A commit is taken only on the head, so what a transition replaces is the `state.json` of the base on
which the batcher makes it. That base is not the one the run began on: a refresh, or a commit that
was refused, moves it past the commits of others, and the pending `state.json` then goes on top of
theirs. A run replaces what it has read exactly as long as nobody else's `state.json` is in between.
-/

namespace GenSubnet.Competition
open Library

/-- Every `state.json` of the run replaced the one it had read. -/
def StageRun.ReplacesRead (s : StageRun) : Prop := ∀ entry ∈ s.replaced, entry.1 = entry.2

/-- When a commit with a `state.json` is taken, what others have committed there since the run has
read the state, if anything, is that same state. -/
def Undisturbed (s : StageRun) : StageRunEvent → Prop
  | .land n => ∀ send ∈ s.repo.sends[n]?, send.base = s.repo.head ∧ send.files.contains .state →
      ∀ state ∈ s.foreign, state = s.read
  | _ => True

/-! ## The state at the head -/

/-- The branch has a head, whose state is the last that was committed by the run or by others. -/
def StageRun.Tracked (s : StageRun) : Prop :=
  ∃ tree, s.repo.headTree = some tree ∧ Tree.state tree = s.foreign.getD s.read

variable {s s' : StageRun}

theorem StageRun.Tracked.of_same (tracked : s.Tracked) (branch : s'.repo.branch = s.repo.branch)
    (foreign : s'.foreign = s.foreign) (read : s'.read = s.read) : s'.Tracked := by
  obtain ⟨tree, head, state⟩ := tracked
  refine ⟨tree, ?_, ?_⟩
  · rw [← head, Repository.headTree, Repository.headTree, Repository.head, Repository.head, branch]
  · rw [state, foreign, read]

theorem StageRun.Tracked.external (tracked : s.Tracked) (files : Tree) : (s.external files).Tracked := by
  obtain ⟨tree, head, state⟩ := tracked
  refine ⟨tree.commit files, headTree_push head, ?_⟩
  rw [Tree.state_commit]
  simp only [StageRun.external]
  split
  · rfl
  · exact state

theorem StageRun.Tracked.land (tracked : s.Tracked) {n : Nat} (landed : s.land n = some s') :
    s'.Tracked ∧ (s'.ReplacesRead ↔ s.ReplacesRead ∧ Undisturbed s (.land n)) := by
  obtain ⟨tree, head, state⟩ := tracked
  unfold StageRun.land at landed
  split at landed
  · rename_i repo send handled at_n
    obtain ⟨send', at_n', branch⟩ := land_cases handled
    obtain rfl := Option.some.inj (at_n'.symm.trans at_n)
    split at landed
    · rename_i taken
      obtain rfl := Option.some.inj landed
      rcases branch with ⟨-, branch⟩ | ⟨outdated, -⟩
      · refine ⟨⟨tree.commit send'.files, ?_, ?_⟩, ?_⟩
        · rw [headTree_congr branch]
          exact headTree_push head
        · rw [Tree.state_commit, if_pos taken.2]
          rfl
        · have replaced : s.repo.headTree.bind Tree.state = s.foreign.getD s.read := by
            rw [head, Option.bind_some, state]
          simp only [ReplacesRead, List.forall_mem_append, List.forall_mem_singleton, replaced,
            Undisturbed, at_n, Option.mem_def, Option.some.injEq, forall_eq', taken, and_self,
            forall_const]
          refine and_congr_right fun _ => ?_
          cases s.foreign <;> simp
      · exact absurd taken.1 outdated
    · rename_i untaken
      obtain rfl := Option.some.inj landed
      refine ⟨?_, ?_⟩
      · rcases branch with ⟨current, branch⟩ | ⟨-, branch⟩
        · refine ⟨tree.commit send'.files, ?_, ?_⟩
          · rw [headTree_congr branch]
            exact headTree_push head
          · have absent : ¬ send'.files.contains .state = true := fun present =>
              untaken ⟨current, present⟩
            rw [Tree.state_commit, if_neg absent]
            exact state
        · exact StageRun.Tracked.of_same ⟨tree, head, state⟩ branch rfl rfl
      · have undisturbed : Undisturbed s (.land n) := by
          intro other member taken
          rw [Option.mem_def, at_n] at member
          obtain rfl := Option.some.inj member
          exact absurd taken untaken
        simp only [undisturbed, and_true]
        rfl
  · cases landed

/-! ## Runs -/

theorem startCommit_branch (repo : Repository) (b : GitBatcher) :
    (b.startCommit repo).1.branch = repo.branch := by
  unfold GitBatcher.startCommit
  split <;> rfl

theorem write_branch (repo : Repository) (b : GitBatcher) (files : Tree) (now : Nat) :
    (b.write repo files now).1.branch = repo.branch := by
  unfold GitBatcher.write
  simp only
  split
  · exact startCommit_branch _ _
  · rfl

theorem step_same {event : StageRunEvent} (stepped : s.step event = some s')
    (land : ∀ n, event ≠ .land n) (external : ∀ files, event ≠ .external files) :
    s'.repo.branch = s.repo.branch ∧ s'.foreign = s.foreign ∧ s'.read = s.read ∧
      s'.replaced = s.replaced := by
  cases event with
  | land n => exact absurd rfl (land n)
  | external files => exact absurd rfl (external files)
  | write files now =>
      simp only [StageRun.step] at stepped
      split at stepped
      · obtain rfl := Option.some.inj stepped
        exact ⟨write_branch _ _ _ _, rfl, rfl, rfl⟩
      · cases stepped
  | flush =>
      simp only [StageRun.step] at stepped
      split at stepped
      · obtain rfl := Option.some.inj stepped
        exact ⟨startCommit_branch _ _, rfl, rfl, rfl⟩
      · split at stepped
        · cases stepped
        · obtain rfl := Option.some.inj stepped
          exact ⟨startCommit_branch _ _, rfl, rfl, rfl⟩
      · cases stepped
  | transition now =>
      simp only [StageRun.step] at stepped
      split at stepped
      · obtain rfl := Option.some.inj stepped
        exact ⟨write_branch _ _ _ _, rfl, rfl, rfl⟩
      · cases stepped
  | sendDirect | directSucceeds | directFails | refresh =>
      simp only [StageRun.step] at stepped
      (repeat' split at stepped) <;> first
        | (cases stepped; done)
        | (obtain rfl := Option.some.inj stepped
           exact ⟨rfl, rfl, rfl, rfl⟩)
  | commitSucceeds now =>
      obtain ⟨batcher, -, rfl⟩ := Option.map_eq_some_iff.mp stepped
      exact ⟨rfl, rfl, rfl, rfl⟩
  | commitFails refreshed =>
      obtain ⟨batcher, -, rfl⟩ := Option.map_eq_some_iff.mp stepped
      exact ⟨rfl, rfl, rfl, rfl⟩

theorem tracked_step (s : StageRun) (event : StageRunEvent) (s' : StageRun) (tracked : s.Tracked)
    (stepped : s.step event = some s') :
    s'.Tracked ∧ (s'.ReplacesRead ↔ s.ReplacesRead ∧ Undisturbed s event) := by
  cases event with
  | land n => exact tracked.land stepped
  | external files =>
      obtain rfl := Option.some.inj stepped
      exact ⟨tracked.external files, (and_iff_left trivial).symm⟩
  | sendDirect | directSucceeds | directFails | write _ _ | flush | refresh | transition _
  | commitSucceeds _ | commitFails _ =>
      obtain ⟨branch, foreign, read, replaced⟩ := step_same stepped (by simp) (by simp)
      refine ⟨tracked.of_same branch foreign read, ?_⟩
      rw [StageRun.ReplacesRead, replaced]
      exact (and_iff_left trivial).symm

theorem StageRun.begin_tracked {service : StageService} {pause : Bool} {branch : List Tree}
    (began : StageRun.begin service pause branch = some s) : s.Tracked ∧ s.replaced = [] := by
  unfold StageRun.begin at began
  simp only at began
  split at began
  · cases began
  · rename_i state read
    obtain ⟨tree, head, state'⟩ := Option.bind_eq_some_iff.mp read
    split at began
    all_goals first
      | (cases began; done)
      | (obtain rfl := Option.some.inj began
         exact ⟨⟨tree, head, state'⟩, rfl⟩)

def duelsBranch : List Tree := [stateFile ⟨3, .duels, none⟩]

def winnerFile (round : Nat) : Tree :=
  .ofList [(.winner round, .result ⟨"leader", "test/model", "aaaa"⟩)]

/-- The judge's transition, with its only commit. -/
def transitionEvents : List StageRunEvent :=
  [.write (winnerFile 3) 10, .transition 10, .flush, .land 0, .commitSucceeds 11]

/-- The operator pauses the round, and the judge reloads its verdicts before its transition. -/
def pausedEvents : List StageRunEvent :=
  .external (stateFile ⟨3, .paused, none⟩) :: .refresh :: transitionEvents

def judgeRun (events : List StageRunEvent) : Option StageRun :=
  (StageRun.begin .judge false duelsBranch).bind fun s => run StageRun.step s events

end GenSubnet.Competition
