import GenSubnet.Competition.Batches

/-!
# Every stage finds its files

`finalize_round` requires the winner of its round and `_collect_submissions` the prompts of the
round before. Both are there in every order of the services' steps, as long as no commit that closes
a round without submissions is taken on a branch that lacks them.
-/

namespace GenSubnet.Competition
open Library

/-- A commit that closes a round without submissions is taken only where the files that the later
stages require of the round are on the branch. -/
def Furnished (s : Services) : ServiceEvent → Prop
  | .land n => ∀ send ∈ s.repo.sends[n]?, send.base = s.repo.head → ∀ tree ∈ s.repo.headTree,
      ∀ entry ∈ s.closing, entry.1 = n → tree.contains (.winner entry.2) = true ∧
        (carriesOver tree (entry.2 + 1) = true → tree.contains (.roundPrompts entry.2) = true)
  | _ => True

instance Furnished.decidable (s : Services) (event : ServiceEvent) :
    Decidable (Furnished s event) := by
  unfold Furnished
  split <;> infer_instance

/-! ## The files of a commit -/

theorem get_ofList {pairs : List (Path × Content)} (nodup : (pairs.map Prod.fst).Nodup)
    (path : Path) : (Dict.ofList pairs : Tree).get path = lookupIn path pairs := by
  rw [Dict.ofList, Dict.get_update _ _ nodup, Dict.get_empty, Option.or_none]

theorem otherFile_other (path : String) (content : Content) {key : Path}
    (differs : key ≠ .other path) : (otherFile path content).contains key = false := by
  unfold otherFile Dict.contains
  rw [get_ofList (by simp)]
  simp [lookupIn, differs.symm]

theorem Tree.state_of_absent {files : Tree} (absent : files.contains .state = false) :
    Tree.state files = none := by
  unfold Tree.state
  rw [get_of_not_contains absent]

theorem state_stateFiles {state : CompetitionState} {files : List (Path × Content)}
    (nodup : (((.state, .state state) :: files).map Prod.fst).Nodup) :
    Tree.state (stateFiles state files) = some state := by
  unfold Tree.state stateFiles
  rw [get_ofList nodup]
  simp [lookupIn]

variable {repo : Repository} {round : Nat} {resolved : Bool} {tree files : Tree}

theorem Batch.other (batch : Batch round resolved tree files) (path : String) (content : Content) :
    Batch round resolved tree (files.merge (otherFile path content)) := by
  refine batch.write (otherFile_other path content (by simp)) id Or.inl fun state said => ?_
  rw [Tree.state_of_absent (otherFile_other path content (by simp))] at said
  cases said

theorem Batch.winnerFiles (batch : Batch round resolved tree files) (result : RoundResult) :
    Batch round true tree (files.merge (winnerFiles round result)) := by
  have contains : ∀ key, (GenSubnet.Competition.winnerFiles round result).contains key =
      decide (key = .winner round) := by
    intro key
    unfold Competition.winnerFiles Dict.contains
    rw [get_ofList (by simp)]
    by_cases same : key = .winner round
    · simp [lookupIn, same]
    · simp [lookupIn, same, Ne.symm same]
  refine batch.write (by simp [contains]) (fun _ => rfl) (fun _ => Or.inr (by simp [contains]))
    fun state said => ?_
  rw [Tree.state_of_absent (by simp [contains])] at said
  cases said

theorem Batch.stateFiles {state : CompetitionState}
    (batch : Batch state.currentRound resolved tree files)
    (ends : state.stage = .duels ∨ state.stage = .paused ∨
      state.stage = .finalizing ∧ resolved = true) :
    Batch state.currentRound resolved tree (files.merge (stateFiles state [])) := by
  refine batch.write rfl id Or.inl fun said is_said => ?_
  obtain rfl := Option.some.inj ((state_stateFiles (by simp)).symm.trans is_said)
  exact ⟨rfl, ends⟩

/-! ## The services -/

def CollectorPhase.Sound (repo : Repository) : CollectorPhase → Prop
  | .idle => True
  | .sent n collects => ∀ state ∈ collects, ∃ send tree, repo.sends[n]? = some send ∧
      repo.branch[send.base]? = some tree ∧
      tree.contains (.roundPrompts state.currentRound) = true
  | .collecting state batcher | .transitioned state batcher =>
      batcher.Sound repo state.currentRound false

def JudgePhase.Sound (repo : Repository) : JudgePhase → Prop
  | .idle => True
  | .running state batcher => batcher.Sound repo state.currentRound false
  | .resolved state batcher | .transitioned state batcher =>
      batcher.Sound repo state.currentRound true

structure Services.Sound (s : Services) : Prop where
  repo : s.repo.Sound s.closing
  collector : s.collector.Sound s.repo
  judge : s.judge.Sound s.repo
  missing : s.missing = []

theorem CollectorPhase.Sound.grow {repo' : Repository} {phase : CollectorPhase}
    (sound : phase.Sound repo) (longer : repo.Extends repo') : phase.Sound repo' := by
  cases phase with
  | idle => trivial
  | sent n collects =>
      intro state member
      obtain ⟨send, tree, at_n, at_base, prompts⟩ := sound state member
      obtain ⟨status, at_n⟩ := longer.sends n send at_n
      exact ⟨_, tree, at_n, longer.branch _ _ at_base, prompts⟩
  | collecting state batcher => exact GitBatcher.Sound.grow sound longer
  | transitioned state batcher => exact GitBatcher.Sound.grow sound longer

theorem JudgePhase.Sound.grow {repo' : Repository} {phase : JudgePhase}
    (sound : phase.Sound repo) (longer : repo.Extends repo') : phase.Sound repo' := by
  cases phase with
  | idle => trivial
  | running state batcher => exact GitBatcher.Sound.grow sound longer
  | resolved state batcher => exact GitBatcher.Sound.grow sound longer
  | transitioned state batcher => exact GitBatcher.Sound.grow sound longer

variable {s s' : Services}

theorem Services.Sound.moved (sound : s.Sound) (longer : s.repo.Extends s'.repo)
    (repo : s'.repo.Sound s'.closing)
    (collector : s'.collector = s.collector ∨ s'.collector.Sound s'.repo)
    (judge : s'.judge = s.judge ∨ s'.judge.Sound s'.repo)
    (missing : s'.missing = s.missing) : s'.Sound where
  repo := repo
  collector := by
    rcases collector with same | holds
    · rw [same]
      exact sound.collector.grow longer
    · exact holds
  judge := by
    rcases judge with same | holds
    · rw [same]
      exact sound.judge.grow longer
    · exact holds
  missing := missing.trans sound.missing

theorem Services.Sound.read (sound : s.Sound) {tree : Tree} {state : CompetitionState}
    (read : s.read = some (tree, state)) :
    s.repo.headTree = some tree ∧ s.repo.branch[s.repo.head]? = some tree ∧ tree.Ready ∧
      Tree.state tree = some state ∧ tree.StageReady state := by
  obtain ⟨found, head, read⟩ := Option.bind_eq_some_iff.mp read
  obtain ⟨said, is_said, same⟩ := Option.map_eq_some_iff.mp read
  obtain ⟨rfl, rfl⟩ := Prod.mk.inj same
  have ready := sound.repo.ready _ _ head
  exact ⟨head, head, ready, is_said, ready.stage _ is_said⟩

theorem firstMissing_eq_none {paths : List Path}
    (present : ∀ path ∈ paths, tree.contains path = true) : firstMissing tree paths = none := by
  refine List.find?_eq_none.mpr fun path member => ?_
  simp [present path member]

/-! ### The collector -/

theorem collectionFiles_ready {state : CompetitionState} (ready : tree.Ready)
    (collection : Collection) : (tree.commit (collectionFiles state collection)).Ready := by
  have keys : (((Path.state, Content.state { state with
      stage := .minerGeneration, nextStageEta := collection.eta }) ::
      [(.seed state.currentRound, .seed collection.seed),
        (.roundPrompts state.currentRound, .prompts collection.prompts),
        (.submissions state.currentRound, .submissions collection.admitted)]).map
          Prod.fst).Nodup := by
    simp
  refine ready.commit ?_ fun said is_said => ?_
  · unfold collectionFiles stateFiles Dict.contains
    rw [get_ofList keys]
    simp [lookupIn]
  · obtain rfl := Option.some.inj ((state_stateFiles keys).symm.trans is_said)
    show (tree.commit (collectionFiles state collection)).contains
      (.roundPrompts state.currentRound) = true
    rw [contains_commit]
    unfold collectionFiles stateFiles Dict.contains
    rw [get_ofList keys]
    simp [lookupIn]

theorem Services.Sound.collectSubmissions (sound : s.Sound) {tree : Tree} {state : CompetitionState}
    (read : s.read = some (tree, state)) (stage : state.stage = .opened) (collection : Collection) :
    (s.collectSubmissions tree state collection).Sound := by
  obtain ⟨-, at_head, ready, said, stageReady⟩ := sound.read read
  rw [Tree.stageReady_opened stage] at stageReady
  have present : firstMissing tree
      (collectionPaths tree state.currentRound (!collection.admitted.isEmpty)) = none := by
    refine firstMissing_eq_none fun path member => ?_
    unfold collectionPaths at member
    rcases List.mem_append.mp member with required | admitted
    · rcases List.mem_pair.mp required with rfl | rfl
      · exact stageReady.1
      · exact ready.config
    · split at admitted
      · rcases List.mem_cons.mp admitted with rfl | carried
        · exact ready.prompts
        · split at carried
          · rename_i carries
            obtain rfl := List.mem_singleton.mp carried
            exact stageReady.2 carries
          · cases carried
      · cases admitted
  unfold Services.collectSubmissions
  rw [present]
  simp only
  split
  · exact sound.moved (Repository.extends_send _ _ _)
      (sound.repo.send at_head rfl (fun _ h => List.mem_append_left _ h)
        (Or.inr ⟨state, said, rfl, List.mem_append_right _ (List.mem_singleton_self _)⟩))
      (Or.inr fun _ h => by cases h) (Or.inl rfl) rfl
  · have good := @collectionFiles_ready _ state ready collection
    have config : (collectionFiles state collection).contains .config = false := by
      unfold collectionFiles stateFiles Dict.contains
      rw [get_ofList (by simp)]
      simp [lookupIn]
    exact sound.moved (Repository.extends_send _ _ _)
      (sound.repo.send at_head config (fun _ h => h) (Or.inl good))
      (Or.inr fun _ h => by cases h) (Or.inl rfl) rfl

theorem Services.Sound.sendCollecting (sound : s.Sound) {tree : Tree} {state : CompetitionState}
    (read : s.read = some (tree, state)) (stage : state.stage = .minerGeneration) :
    Services.Sound { s.send (stateFiles { state with
      stage := .collecting, nextStageEta := none } []) with
      collector := .sent s.repo.sends.length (some { state with
        stage := .collecting, nextStageEta := none }) } := by
  obtain ⟨-, at_head, ready, said, stageReady⟩ := sound.read read
  rw [Tree.stageReady_prompts (Or.inl stage)] at stageReady
  have good : (tree.commit (stateFiles { state with
      stage := .collecting, nextStageEta := none } [])).Ready := by
    refine ready.commit rfl fun other is_other => ?_
    obtain rfl := Option.some.inj ((state_stateFiles (by simp)).symm.trans is_other)
    exact (Tree.stageReady_prompts (Or.inr (Or.inl rfl))).mpr
      (contains_commit_of_contains _ stageReady)
  refine sound.moved (Repository.extends_send _ _ _)
    (sound.repo.send at_head rfl (fun _ h => h) (Or.inl good)) (Or.inr ?_) (Or.inl rfl) rfl
  intro other member
  obtain rfl := Option.some.inj member
  exact ⟨⟨s.repo.head, stateFiles { state with stage := .collecting, nextStageEta := none } [], .sent⟩,
    tree, by simp [Services.send, Repository.send], at_head, stageReady⟩

/-! ### The round manager -/

theorem finalizationFiles_eq (settings : ServiceSettings) (state : CompetitionState)
    (finalization : Finalization) (transitions : List LeaderEntry)
    (newLeader : Option LeaderEntry) : ∃ next files,
      finalizationFiles settings state finalization transitions newLeader = stateFiles next files ∧
      (((.state, .state next) :: files).map Prod.fst).Nodup ∧ .config ∉ files.map Prod.fst ∧
      (next.stage = .paused ∨ next.stage = .finished ∨
        next.stage = .opened ∧ next.currentRound = state.currentRound + 1 ∧
          .schedule next.currentRound ∈ files.map Prod.fst) := by
  unfold finalizationFiles
  cases finalization.schedule with
  | none => cases newLeader <;> exact ⟨_, _, rfl, by simp, by simp, Or.inr (Or.inl rfl)⟩
  | some schedule =>
      cases settings.managerPauses with
      | true => cases newLeader <;> exact ⟨_, _, rfl, by simp, by simp, Or.inl rfl⟩
      | false =>
          cases newLeader <;> exact ⟨_, _, rfl, by simp, by simp, Or.inr (Or.inr ⟨rfl, rfl, by simp⟩)⟩

theorem contains_stateFiles {state : CompetitionState} {files : List (Path × Content)}
    (nodup : (((.state, .state state) :: files).map Prod.fst).Nodup) (path : Path) :
    (stateFiles state files).contains path = true ↔ path = .state ∨ path ∈ files.map Prod.fst := by
  unfold stateFiles Dict.contains
  rw [get_ofList nodup, lookupIn_isSome_iff, List.map_cons, List.mem_cons]

theorem finalizationFiles_ready (settings : ServiceSettings) {state : CompetitionState}
    (ready : tree.Ready) (stageReady : tree.StageReady state) (stage : state.stage = .finalizing)
    (finalization : Finalization) (transitions : List LeaderEntry) (newLeader : Option LeaderEntry) :
    (finalizationFiles settings state finalization transitions newLeader).contains .config = false ∧
      (tree.commit (finalizationFiles settings state finalization transitions newLeader)).Ready := by
  obtain ⟨-, prompts⟩ := (Tree.stageReady_finalizing stage).mp stageReady
  obtain ⟨next, files, same, nodup, config, stages⟩ :=
    finalizationFiles_eq settings state finalization transitions newLeader
  rw [same]
  have absent : (stateFiles next files).contains .config = false := by
    rw [Bool.eq_false_iff, ne_eq, contains_stateFiles nodup]
    simpa using config
  refine ⟨absent, ready.commit absent fun said is_said => ?_⟩
  obtain rfl := Option.some.inj ((state_stateFiles nodup).symm.trans is_said)
  rcases stages with paused | finished | ⟨opened, round, schedule⟩
  · exact Tree.stageReady_paused (Or.inl paused)
  · exact Tree.stageReady_paused (Or.inr finished)
  · refine (Tree.stageReady_opened opened).mpr ⟨?_, fun carries => ?_⟩
    · rw [contains_commit, (contains_stateFiles nodup _).mpr (Or.inr schedule), Bool.true_or]
    · rw [round, carriesOver_commit absent] at carries
      rw [round]
      exact contains_commit_of_contains _ (prompts carries)

theorem Services.Sound.finalizeRound (sound : s.Sound) (settings : ServiceSettings) {tree : Tree}
    {state : CompetitionState} (read : s.read = some (tree, state))
    (stage : state.stage = .finalizing) (finalization : Finalization) :
    (s.finalizeRound settings tree state finalization).Sound := by
  obtain ⟨-, at_head, ready, said, stageReady⟩ := sound.read read
  obtain ⟨winner, -⟩ := (Tree.stageReady_finalizing stage).mp stageReady
  have present : firstMissing tree (finalizationPaths state.currentRound) = none := by
    refine firstMissing_eq_none fun path member => ?_
    simp only [finalizationPaths, List.mem_cons, List.not_mem_nil, or_false] at member
    rcases member with rfl | rfl | rfl
    · exact ready.config
    · exact ready.leader
    · exact winner
  unfold Services.finalizeRound
  rw [present]
  simp only
  split
  · split
    · obtain ⟨config, good⟩ := finalizationFiles_ready settings ready stageReady stage
        finalization _ _
      exact sound.moved (Repository.extends_send _ _ _)
        (sound.repo.send at_head config (fun _ h => h) (Or.inl good)) (Or.inl rfl) (Or.inl rfl) rfl
    · exact sound
  · exact sound

/-! ### Steps and runs -/

theorem Services.Sound.collectorSucceeds (sound : s.Sound) {settings : ServiceSettings} {now : Nat}
    (stepped : s.step settings (.collectorSucceeds now) = some s') : s'.Sound := by
  have collector := sound.collector
  simp only [Services.step] at stepped
  cases phase : s.collector with
  | idle => rw [phase] at stepped; cases stepped
  | sent n collects =>
      rw [phase] at stepped collector
      simp only at stepped
      split at stepped
      · rename_i base files sha at_n
        cases collects with
        | none =>
            obtain rfl := Option.some.inj stepped
            exact sound.moved (Repository.Extends.refl _) sound.repo (Or.inr trivial) (Or.inl rfl) rfl
        | some state =>
            obtain rfl := Option.some.inj stepped
            obtain ⟨send, tree, at_n', at_base, prompts⟩ := collector state rfl
            obtain rfl := Option.some.inj (at_n.symm.trans at_n')
            obtain ⟨tree', at_base', -, -, landed⟩ := sound.repo.sends n _ at_n
            obtain rfl := Option.some.inj (at_base.symm.trans at_base')
            exact sound.moved (Repository.Extends.refl _) sound.repo
              (Or.inr (GitBatcher.Sound.new (landed sha rfl)
                (contains_commit_of_contains files prompts))) (Or.inl rfl) rfl
      · cases stepped
  | collecting state batcher =>
      rw [phase] at stepped collector
      obtain ⟨batcher', succeeded, rfl⟩ := Option.map_eq_some_iff.mp stepped
      exact sound.moved (Repository.Extends.refl _) sound.repo
        (Or.inr (GitBatcher.Sound.succeed sound.repo collector succeeded)) (Or.inl rfl) rfl
  | transitioned state batcher =>
      rw [phase] at stepped collector
      obtain ⟨batcher', succeeded, rfl⟩ := Option.map_eq_some_iff.mp stepped
      exact sound.moved (Repository.Extends.refl _) sound.repo
        (Or.inr (GitBatcher.Sound.succeed sound.repo collector succeeded)) (Or.inl rfl) rfl

theorem Services.Sound.collectorFails (sound : s.Sound) {settings : ServiceSettings}
    {refreshed : Bool} (stepped : s.step settings (.collectorFails refreshed) = some s') :
    s'.Sound := by
  have collector := sound.collector
  simp only [Services.step] at stepped
  cases phase : s.collector with
  | idle => rw [phase] at stepped; cases stepped
  | sent n collects =>
      rw [phase] at stepped
      obtain rfl := Option.some.inj stepped
      exact sound.moved (Repository.Extends.refl _) sound.repo (Or.inr trivial) (Or.inl rfl) rfl
  | collecting state batcher =>
      rw [phase] at stepped collector
      obtain ⟨batcher', failed, rfl⟩ := Option.map_eq_some_iff.mp stepped
      exact sound.moved (Repository.Extends.refl _) sound.repo
        (Or.inr (GitBatcher.Sound.fail sound.repo collector failed)) (Or.inl rfl) rfl
  | transitioned state batcher =>
      rw [phase] at stepped collector
      obtain ⟨batcher', failed, rfl⟩ := Option.map_eq_some_iff.mp stepped
      exact sound.moved (Repository.Extends.refl _) sound.repo
        (Or.inr (GitBatcher.Sound.fail sound.repo collector failed)) (Or.inl rfl) rfl

theorem Services.Sound.judgeSucceeds (sound : s.Sound) {settings : ServiceSettings} {now : Nat}
    (stepped : s.step settings (.judgeSucceeds now) = some s') : s'.Sound := by
  have judge := sound.judge
  simp only [Services.step] at stepped
  cases phase : s.judge with
  | idle => rw [phase] at stepped; cases stepped
  | running state batcher | resolved state batcher | transitioned state batcher =>
      rw [phase] at stepped judge
      obtain ⟨batcher', succeeded, rfl⟩ := Option.map_eq_some_iff.mp stepped
      exact sound.moved (Repository.Extends.refl _) sound.repo (Or.inl rfl)
        (Or.inr (GitBatcher.Sound.succeed sound.repo judge succeeded)) rfl

theorem Services.Sound.judgeFails (sound : s.Sound) {settings : ServiceSettings} {refreshed : Bool}
    (stepped : s.step settings (.judgeFails refreshed) = some s') : s'.Sound := by
  have judge := sound.judge
  simp only [Services.step] at stepped
  cases phase : s.judge with
  | idle => rw [phase] at stepped; cases stepped
  | running state batcher | resolved state batcher | transitioned state batcher =>
      rw [phase] at stepped judge
      obtain ⟨batcher', failed, rfl⟩ := Option.map_eq_some_iff.mp stepped
      exact sound.moved (Repository.Extends.refl _) sound.repo (Or.inl rfl)
        (Or.inr (GitBatcher.Sound.fail sound.repo judge failed)) rfl

theorem Services.Sound.judgeWriting (sound : s.Sound) {settings : ServiceSettings}
    {event : ServiceEvent} (stepped : s.step settings event = some s')
    (writes : (∃ path content now, event = .judgeWrites path content now) ∨
      (∃ result now, event = .judgeResolves result now) ∨ ∃ now, event = .judgeTransitions now) :
    s'.Sound := by
  have judge := sound.judge
  rcases writes with ⟨path, content, now, rfl⟩ | ⟨result, now, rfl⟩ | ⟨now, rfl⟩
  · simp only [Services.step] at stepped
    split at stepped
    · rename_i state batcher phase
      split at stepped
      · cases stepped
      · rw [phase] at judge
        obtain rfl := Option.some.inj stepped
        obtain ⟨repo, longer, batcher⟩ := GitBatcher.Sound.write sound.repo judge
          (fun tree batch => batch.other path content) now
        exact sound.moved longer repo (Or.inl rfl) (Or.inr batcher) rfl
    · cases stepped
  · simp only [Services.step] at stepped
    split at stepped
    · rename_i state batcher phase
      split at stepped
      · cases stepped
      · rw [phase] at judge
        obtain rfl := Option.some.inj stepped
        obtain ⟨repo, longer, batcher⟩ := GitBatcher.Sound.write sound.repo judge
          (fun tree batch => batch.winnerFiles result) now
        exact sound.moved longer repo (Or.inl rfl) (Or.inr batcher) rfl
    · cases stepped
  · simp only [Services.step] at stepped
    split at stepped
    · rename_i state batcher phase
      split at stepped
      · cases stepped
      · rw [phase] at judge
        obtain rfl := Option.some.inj stepped
        let next : CompetitionState := { state with
          stage := if settings.judgePauses then .paused else .finalizing }
        have ends : next.stage = .duels ∨ next.stage = .paused ∨ next.stage = .finalizing ∧
            true = true := by
          cases pauses : settings.judgePauses <;> simp [next, pauses]
        obtain ⟨repo, longer, batcher⟩ := GitBatcher.Sound.write sound.repo judge
          (fun tree batch => @Batch.stateFiles _ _ _ next batch ends) now
        exact sound.moved longer repo (Or.inl rfl) (Or.inr batcher) rfl
    · cases stepped

theorem Services.Sound.collectorWriting (sound : s.Sound) {settings : ServiceSettings}
    {event : ServiceEvent} (stepped : s.step settings event = some s')
    (writes : (∃ path content now, event = .collectorWrites path content now) ∨
      ∃ now, event = .collectorTransitions now) : s'.Sound := by
  have collector := sound.collector
  rcases writes with ⟨path, content, now, rfl⟩ | ⟨now, rfl⟩
  · simp only [Services.step] at stepped
    split at stepped
    · rename_i state batcher phase
      rw [phase] at collector
      obtain rfl := Option.some.inj stepped
      obtain ⟨repo, longer, batcher⟩ := GitBatcher.Sound.write sound.repo collector
        (fun tree batch => batch.other path content) now
      exact sound.moved longer repo (Or.inr batcher) (Or.inl rfl) rfl
    · cases stepped
  · simp only [Services.step] at stepped
    split at stepped
    · rename_i state batcher phase
      rw [phase] at collector
      obtain rfl := Option.some.inj stepped
      let next : CompetitionState := { state with stage := .duels, nextStageEta := none }
      obtain ⟨repo, longer, batcher⟩ := GitBatcher.Sound.write sound.repo collector
        (fun tree batch => @Batch.stateFiles _ _ _ next batch (Or.inl rfl)) now
      exact sound.moved longer repo (Or.inr batcher) (Or.inl rfl) rfl
    · cases stepped

theorem Services.Sound.flushes (sound : s.Sound) {settings : ServiceSettings} {event : ServiceEvent}
    (stepped : s.step settings event = some s')
    (flushes : event = .collectorFlushes ∨ event = .judgeFlushes) : s'.Sound := by
  have collector := sound.collector
  have judge := sound.judge
  rcases flushes with rfl | rfl
  · simp only [Services.step] at stepped
    split at stepped
    · rename_i state batcher phase
      rw [phase] at collector
      obtain rfl := Option.some.inj stepped
      obtain ⟨repo, longer, batcher⟩ := GitBatcher.Sound.startCommit sound.repo collector
      exact sound.moved longer repo (Or.inr batcher) (Or.inl rfl) rfl
    · cases stepped
  · simp only [Services.step] at stepped
    split at stepped
    · rename_i state batcher phase
      rw [phase] at judge
      obtain rfl := Option.some.inj stepped
      obtain ⟨repo, longer, batcher⟩ := GitBatcher.Sound.startCommit sound.repo judge
      exact sound.moved longer repo (Or.inl rfl) (Or.inr batcher) rfl
    · rename_i state batcher phase
      rw [phase] at judge
      obtain rfl := Option.some.inj stepped
      obtain ⟨repo, longer, batcher⟩ := GitBatcher.Sound.startCommit sound.repo judge
      exact sound.moved longer repo (Or.inl rfl) (Or.inr batcher) rfl
    · cases stepped
    · cases stepped

theorem Services.Sound.newBatcher (sound : s.Sound) {tree : Tree} {state : CompetitionState}
    (read : s.read = some (tree, state))
    (stage : state.stage = .collecting ∨ state.stage = .duels) :
    GitBatcher.Sound s.repo state.currentRound false { baseSha := s.repo.head } := by
  obtain ⟨-, at_head, -, -, stageReady⟩ := sound.read read
  exact GitBatcher.Sound.new at_head ((Tree.stageReady_prompts (Or.inr stage)).mp stageReady)

theorem Services.Sound.other (sound : s.Sound) (path : String) (content : Content) :
    Services.Sound { s with repo := s.repo.push (otherFile path content) } := by
  obtain ⟨tree, head, at_head⟩ := sound.repo.headTree
  have ready : (tree.commit (otherFile path content)).Ready := by
    refine (sound.repo.ready _ _ at_head).commit (otherFile_other path content (by simp))
      fun state said => ?_
    rw [Tree.state_of_absent (otherFile_other path content (by simp))] at said
    cases said
  exact sound.moved (Repository.extends_push sound.repo _) (sound.repo.push head ready)
    (Or.inl rfl) (Or.inl rfl) rfl

theorem Services.Sound.step (sound : s.Sound) {settings : ServiceSettings} {event : ServiceEvent}
    (furnished : Furnished s event) (stepped : s.step settings event = some s') : s'.Sound := by
  cases event with
  | other path content =>
      obtain rfl := Option.some.inj stepped
      exact sound.other path content
  | collectorOpen collection =>
      simp only [Services.step] at stepped
      split at stepped
      · rename_i tree state phase read
        split at stepped
        · rename_i stage
          obtain rfl := Option.some.inj stepped
          exact sound.collectSubmissions read stage collection
        · cases stepped
      · cases stepped
  | collectorDeadline =>
      simp only [Services.step] at stepped
      split at stepped
      · rename_i tree state phase read
        split at stepped
        · rename_i stage
          obtain rfl := Option.some.inj stepped
          exact sound.sendCollecting read stage.1
        · cases stepped
      · cases stepped
  | collectorCollects =>
      simp only [Services.step] at stepped
      split at stepped
      · rename_i tree state phase read
        split at stepped
        · rename_i stage
          obtain rfl := Option.some.inj stepped
          exact sound.moved (Repository.Extends.refl _) sound.repo
            (Or.inr (sound.newBatcher read (Or.inl stage))) (Or.inl rfl) rfl
        · cases stepped
      · cases stepped
  | collectorSucceeds now => exact sound.collectorSucceeds stepped
  | collectorFails refreshed => exact sound.collectorFails stepped
  | collectorWrites path content now =>
      exact sound.collectorWriting stepped (Or.inl ⟨path, content, now, rfl⟩)
  | collectorTransitions now => exact sound.collectorWriting stepped (Or.inr ⟨now, rfl⟩)
  | collectorFlushes => exact sound.flushes stepped (Or.inl rfl)
  | collectorStops =>
      obtain rfl := Option.some.inj stepped
      exact sound.moved (Repository.Extends.refl _) sound.repo (Or.inr trivial) (Or.inl rfl) rfl
  | judgeBegins =>
      simp only [Services.step] at stepped
      split at stepped
      · rename_i tree state phase read
        split at stepped
        · rename_i stage
          obtain rfl := Option.some.inj stepped
          exact sound.moved (Repository.Extends.refl _) sound.repo (Or.inl rfl)
            (Or.inr (sound.newBatcher read (Or.inr stage.1))) rfl
        · cases stepped
      · cases stepped
  | judgeWrites path content now =>
      exact sound.judgeWriting stepped (Or.inl ⟨path, content, now, rfl⟩)
  | judgeRefreshes =>
      have judge := sound.judge
      simp only [Services.step] at stepped
      split at stepped
      · rename_i state batcher phase
        split at stepped
        · cases stepped
        · rename_i idle
          rw [phase] at judge
          obtain rfl := Option.some.inj stepped
          exact sound.moved (Repository.Extends.refl _) sound.repo (Or.inl rfl)
            (Or.inr (GitBatcher.Sound.refresh sound.repo judge (by simpa using idle))) rfl
      · cases stepped
  | judgeResolves result now =>
      exact sound.judgeWriting stepped (Or.inr (Or.inl ⟨result, now, rfl⟩))
  | judgeTransitions now => exact sound.judgeWriting stepped (Or.inr (Or.inr ⟨now, rfl⟩))
  | judgeFlushes => exact sound.flushes stepped (Or.inr rfl)
  | judgeSucceeds now => exact sound.judgeSucceeds stepped
  | judgeFails refreshed => exact sound.judgeFails stepped
  | judgeStops =>
      obtain rfl := Option.some.inj stepped
      exact sound.moved (Repository.Extends.refl _) sound.repo (Or.inl rfl) (Or.inr trivial) rfl
  | managerFinalizes finalization =>
      simp only [Services.step] at stepped
      split at stepped
      · rename_i tree state phase read
        split at stepped
        · rename_i stage
          obtain rfl := Option.some.inj stepped
          exact sound.finalizeRound settings read stage finalization
        · cases stepped
      · cases stepped
  | managerStops =>
      obtain rfl := Option.some.inj stepped
      exact sound.moved (Repository.Extends.refl _) sound.repo (Or.inl rfl) (Or.inl rfl) rfl
  | land n =>
      obtain ⟨repo, landed, rfl⟩ := Option.map_eq_some_iff.mp stepped
      obtain ⟨sound', longer⟩ := sound.repo.land landed
        fun send tree at_n current head round member =>
          furnished send at_n current tree head (n, round) member rfl
      exact sound.moved longer sound' (Or.inl rfl) (Or.inl rfl) rfl

def Services.initial (tree : Tree) : Services := { repo := { branch := [tree] } }

theorem Services.Sound.initial {tree : Tree} (ready : tree.Ready) : (Services.initial tree).Sound := by
  have place : ∀ {n : Nat} {found : Tree}, [tree][n]? = some found → n = 0 ∧ found = tree := by
    intro n found at_n
    rw [List.getElem?_singleton] at at_n
    split at at_n
    · exact ⟨by omega, (Option.some.inj at_n).symm⟩
    · cases at_n
  refine ⟨⟨by simp [Services.initial], ?_, ?_, ?_⟩, trivial, trivial, rfl⟩
  · intro n found at_n
    obtain ⟨-, rfl⟩ := place at_n
    exact ready
  · intro m n low high le at_m at_n path present
    obtain ⟨-, rfl⟩ := place at_m
    obtain ⟨-, rfl⟩ := place at_n
    exact present
  · intro n send at_n
    simp [Services.initial] at at_n

/-- In every run of the services in which no commit closes a round without submissions on a branch
that lacks the files of that round, the stage at the head has its files, and no iteration misses
one. -/
theorem stage_has_files (settings : ServiceSettings) {tree : Tree} (ready : tree.Ready)
    {events : List ServiceEvent} {s : Services}
    (ran : run (Services.step settings) (Services.initial tree) events = some s)
    (furnished : Throughout (Services.step settings) Furnished (Services.initial tree) events) :
    s.missing = [] ∧ ∃ head, s.repo.headTree = some head ∧
      ∀ state, Tree.state head = some state →
        (state.stage = .finalizing → head.contains (.winner state.currentRound) = true) ∧
        (state.stage = .opened → carriesOver head state.currentRound = true →
          head.contains (.roundPrompts (state.currentRound - 1)) = true) := by
  have sound : s.Sound := furnished.invariant ran
    (fun _ _ _ sound furnished stepped => sound.step furnished stepped) (Services.Sound.initial ready)
  obtain ⟨head, is_head, at_head⟩ := sound.repo.headTree
  refine ⟨sound.missing, head, is_head, fun state said => ?_⟩
  have stageReady := (sound.repo.ready _ _ at_head).stage state said
  refine ⟨fun stage => ?_, fun stage => ?_⟩
  · exact ((Tree.stageReady_finalizing stage).mp stageReady).1
  · exact ((Tree.stageReady_opened stage).mp stageReady).2

/-! ## A round without submissions -/

def seedTree : Tree := .ofList
  [(.config, .config ⟨"test", 5 / 100, 32, 8⟩),
    (.leader, .leaders [⟨"leader", "test/model", "aaaa", "", 1, 0⟩]),
    (.prompts, .prompts ["https://prompts.test/a.png"]),
    (.state, .state ⟨0, .opened, none⟩),
    (.schedule 0, .schedule ⟨0, 100, some 400⟩)]

theorem seedTree_ready : seedTree.Ready := by
  refine ⟨by decide +kernel, by decide +kernel, by decide +kernel, fun state said => ?_⟩
  have is : Tree.state seedTree = some ⟨0, .opened, none⟩ := by decide +kernel
  obtain rfl := Option.some.inj (is.symm.trans said)
  exact (Tree.stageReady_opened rfl).mpr ⟨by decide +kernel, by decide +kernel⟩

def nextRound : Finalization := { schedule := some ⟨101, 7300, some 7600⟩, effectiveBlock := 7300, eta := none }

/-- A round with one submission, up to the next one. -/
def roundEvents : List ServiceEvent :=
  [.collectorOpen ⟨[("hk", ⟨"test/new", "bbbb", 50, "00", "test-0"⟩)], 7, ["a"], none⟩,
    .land 0, .collectorSucceeds 1,
    .collectorDeadline, .land 1, .collectorSucceeds 2,
    .collectorTransitions 3, .collectorFlushes, .land 2, .collectorSucceeds 4, .collectorStops,
    .judgeBegins, .judgeResolves ⟨"hk", "test/new", "bbbb"⟩ 5, .judgeTransitions 6, .judgeFlushes,
    .land 3, .judgeSucceeds 7, .judgeStops,
    .managerFinalizes nextRound, .land 4, .managerStops]

theorem stage_has_files_round : ∃ s head,
    run (Services.step {}) (Services.initial seedTree) roundEvents = some s ∧
    s.missing = [] ∧ s.repo.headTree = some head ∧ Tree.state head = some ⟨1, .opened, none⟩ ∧
    head.contains (.roundPrompts 0) = true := by
  have ends : (run (Services.step {}) (Services.initial seedTree) roundEvents).bind
      (fun s => s.repo.headTree.map fun head => (Tree.state head, carriesOver head 1)) =
      some (some ⟨1, .opened, none⟩, true) := by
    decide +kernel
  obtain ⟨s, ran, ends⟩ := Option.bind_eq_some_iff.mp ends
  obtain ⟨head, is_head, ends⟩ := Option.map_eq_some_iff.mp ends
  obtain ⟨said, carries⟩ := Prod.mk.inj ends
  obtain ⟨missing, head', is_head', files⟩ :=
    stage_has_files {} seedTree_ready ran (by decide +kernel)
  obtain rfl := Option.some.inj (is_head.symm.trans is_head')
  exact ⟨s, head, ran, missing, is_head, said, (files _ said).2 rfl carries⟩

/-- The collector closes the round, and the round manager turns to it. -/
def emptyRoundEvents : List ServiceEvent :=
  [.collectorOpen ⟨[], 7, [], none⟩, .land 0, .collectorSucceeds 1, .managerFinalizes nextRound]

/-- The state says FINALIZING, `winner.json` is not there, and `finalize_round` fails for it. -/
theorem empty_round_misses_winner : ∃ s head,
    run (Services.step {}) (Services.initial seedTree) emptyRoundEvents = some s ∧
    s.repo.headTree = some head ∧ Tree.state head = some ⟨0, .finalizing, none⟩ ∧
    head.contains (.winner 0) = false ∧ s.missing = [(.finalizeRound, .winner 0)] := by
  have ends : (run (Services.step {}) (Services.initial seedTree) emptyRoundEvents).bind
      (fun s => s.repo.headTree.map fun head =>
        (Tree.state head, head.contains (.winner 0), s.missing)) =
      some (some ⟨0, .finalizing, none⟩, false, [(.finalizeRound, .winner 0)]) := by
    decide +kernel
  obtain ⟨s, ran, ends⟩ := Option.bind_eq_some_iff.mp ends
  obtain ⟨head, is_head, ends⟩ := Option.map_eq_some_iff.mp ends
  obtain ⟨said, ends⟩ := Prod.mk.inj ends
  obtain ⟨absent, missing⟩ := Prod.mk.inj ends
  exact ⟨s, head, ran, is_head, said, absent, missing⟩

end GenSubnet.Competition
