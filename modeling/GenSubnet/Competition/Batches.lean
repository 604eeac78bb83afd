import GenSubnet.Competition.Services

/-!
# What a stage needs, and what is still to be committed

The files that each stage of a round relies on, and a batcher whose unconfirmed files, put on the
commit it builds on, never say a stage whose files are not there.
-/

namespace GenSubnet.Competition
open Library

/-! ## Ready trees -/

def Tree.StageReady (tree : Tree) (state : CompetitionState) : Prop :=
  match state.stage with
  | .opened => tree.contains (.schedule state.currentRound) = true ∧
      (carriesOver tree state.currentRound = true →
        tree.contains (.roundPrompts (state.currentRound - 1)) = true)
  | .minerGeneration | .collecting | .duels =>
      tree.contains (.roundPrompts state.currentRound) = true
  | .finalizing => tree.contains (.winner state.currentRound) = true ∧
      (carriesOver tree (state.currentRound + 1) = true →
        tree.contains (.roundPrompts state.currentRound) = true)
  | .finished | .paused => True

theorem Tree.stageReady_opened {tree : Tree} {state : CompetitionState}
    (stage : state.stage = .opened) : tree.StageReady state ↔
      tree.contains (.schedule state.currentRound) = true ∧
        (carriesOver tree state.currentRound = true →
          tree.contains (.roundPrompts (state.currentRound - 1)) = true) := by
  unfold Tree.StageReady
  rw [stage]

theorem Tree.stageReady_prompts {tree : Tree} {state : CompetitionState}
    (stage : state.stage = .minerGeneration ∨ state.stage = .collecting ∨ state.stage = .duels) :
    tree.StageReady state ↔ tree.contains (.roundPrompts state.currentRound) = true := by
  unfold Tree.StageReady
  rcases stage with stage | stage | stage <;> rw [stage]

theorem Tree.stageReady_finalizing {tree : Tree} {state : CompetitionState}
    (stage : state.stage = .finalizing) : tree.StageReady state ↔
      tree.contains (.winner state.currentRound) = true ∧
        (carriesOver tree (state.currentRound + 1) = true →
          tree.contains (.roundPrompts state.currentRound) = true) := by
  unfold Tree.StageReady
  rw [stage]

theorem Tree.stageReady_paused {tree : Tree} {state : CompetitionState}
    (stage : state.stage = .paused ∨ state.stage = .finished) : tree.StageReady state := by
  unfold Tree.StageReady
  rcases stage with stage | stage <;> (rw [stage]; trivial)

/-- A tree with the files of the competition and those of its stage. -/
structure Tree.Ready (tree : Tree) : Prop where
  config : tree.contains .config = true
  leader : tree.contains .leader = true
  prompts : tree.contains .prompts = true
  stage : ∀ state, Tree.state tree = some state → tree.StageReady state

theorem contains_commit (tree files : Tree) (path : Path) :
    (tree.commit files).contains path = (files.contains path || tree.contains path) := by
  unfold Dict.contains
  rw [get_commit]
  cases files.get path <;> simp

theorem contains_commit_of_contains {tree : Tree} (files : Tree) {path : Path}
    (present : tree.contains path = true) : (tree.commit files).contains path = true := by
  rw [contains_commit, present, Bool.or_true]

theorem carriesOver_commit {tree files : Tree} (config : files.contains .config = false)
    (round : Nat) : carriesOver (tree.commit files) round = carriesOver tree round := by
  unfold carriesOver Tree.config
  rw [get_commit, get_of_not_contains config, Option.none_or]

theorem Tree.StageReady.commit {tree files : Tree} {state : CompetitionState}
    (ready : tree.StageReady state) (config : files.contains .config = false) :
    (tree.commit files).StageReady state := by
  unfold StageReady at ready ⊢
  split at ready
  · refine ⟨contains_commit_of_contains files ready.1, fun carries => ?_⟩
    rw [carriesOver_commit config] at carries
    exact contains_commit_of_contains files (ready.2 carries)
  · exact contains_commit_of_contains files ready
  · exact contains_commit_of_contains files ready
  · exact contains_commit_of_contains files ready
  · refine ⟨contains_commit_of_contains files ready.1, fun carries => ?_⟩
    rw [carriesOver_commit config] at carries
    exact contains_commit_of_contains files (ready.2 carries)
  · trivial
  · trivial

theorem Tree.Ready.commit {tree files : Tree} (ready : tree.Ready)
    (config : files.contains .config = false)
    (stage : ∀ state, Tree.state files = some state → (tree.commit files).StageReady state) :
    (tree.commit files).Ready where
  config := contains_commit_of_contains files ready.config
  leader := contains_commit_of_contains files ready.leader
  prompts := contains_commit_of_contains files ready.prompts
  stage := by
    intro state said
    rw [Tree.state_commit] at said
    split at said
    · exact stage state said
    · exact (ready.stage state said).commit config

/-! ## Files to be committed -/

/-- What a run on a round has not yet confirmed, over the tree that it builds on. -/
structure Batch (round : Nat) (resolved : Bool) (tree files : Tree) : Prop where
  prompts : tree.contains (.roundPrompts round) = true
  config : files.contains .config = false
  winner : resolved = true → (tree.commit files).contains (.winner round) = true
  stage : ∀ state, Tree.state files = some state → state.currentRound = round ∧
    (state.stage = .duels ∨ state.stage = .paused ∨ state.stage = .finalizing ∧ resolved = true)

variable {round : Nat} {resolved : Bool} {tree tree' files files' : Tree}

theorem Batch.ready (batch : Batch round resolved tree files) (ready : tree.Ready) :
    (tree.commit files).Ready := by
  refine ready.commit batch.config fun state said => ?_
  obtain ⟨rfl, stage⟩ := batch.stage state said
  have prompts := contains_commit_of_contains files batch.prompts
  rcases stage with stage | stage | ⟨stage, won⟩
  · exact (Tree.stageReady_prompts (Or.inr (Or.inr stage))).mpr prompts
  · exact Tree.stageReady_paused (Or.inl stage)
  · exact (Tree.stageReady_finalizing stage).mpr ⟨batch.winner won, fun _ => prompts⟩

theorem contains_congr (same : ∀ path, files'.get path = files.get path) (path : Path) :
    files'.contains path = files.contains path := by
  unfold Dict.contains
  rw [same]

theorem Tree.state_congr (same : ∀ path, files'.get path = files.get path) :
    Tree.state files' = Tree.state files := by
  unfold Tree.state
  rw [same]

theorem Batch.congr (batch : Batch round resolved tree files)
    (same : ∀ path, files'.get path = files.get path) : Batch round resolved tree files' where
  prompts := batch.prompts
  config := by rw [contains_congr same, batch.config]
  winner := by
    intro won
    rw [contains_commit, contains_congr same, ← contains_commit]
    exact batch.winner won
  stage := by
    rw [Tree.state_congr same]
    exact batch.stage

theorem Batch.grow (batch : Batch round resolved tree files)
    (grows : ∀ path, tree.contains path = true → tree'.contains path = true) :
    Batch round resolved tree' files where
  prompts := grows _ batch.prompts
  config := batch.config
  winner := by
    intro won
    have either := batch.winner won
    rw [contains_commit, Bool.or_eq_true] at either ⊢
    exact either.imp_right (grows _)
  stage := batch.stage

theorem Batch.committed {snapshot pending : Tree}
    (batch : Batch round resolved tree (restorePending pending snapshot)) :
    Batch round resolved (tree.commit snapshot) pending where
  prompts := contains_commit_of_contains snapshot batch.prompts
  config := by
    have absent := batch.config
    rw [restorePending, ← Tree.commit, contains_commit, Bool.or_eq_false_iff] at absent
    exact absent.1
  winner := by
    intro won
    have present := batch.winner won
    rw [restorePending, ← Tree.commit, contains_commit, contains_commit] at present
    rw [contains_commit, contains_commit, ← Bool.or_assoc]
    exact present
  stage := by
    intro state said
    refine batch.stage state ?_
    have present : pending.contains .state = true := by
      unfold Tree.state at said
      unfold Dict.contains
      cases found : pending.get .state with
      | none => rw [found] at said; cases said
      | some content => rfl
    rw [restorePending, ← Tree.commit, Tree.state_commit, if_pos present]
    exact said

theorem Batch.write {later : Bool} (batch : Batch round resolved tree files)
    (config : files'.contains .config = false) (keeps : resolved = true → later = true)
    (winner : later = true → resolved = true ∨ files'.contains (.winner round) = true)
    (stage : ∀ state, Tree.state files' = some state → state.currentRound = round ∧
      (state.stage = .duels ∨ state.stage = .paused ∨ state.stage = .finalizing ∧ later = true)) :
    Batch round later tree (files.merge files') where
  prompts := batch.prompts
  config := by rw [← Tree.commit, contains_commit, config, batch.config, Bool.or_false]
  winner := by
    intro won
    rw [← Tree.commit, contains_commit, contains_commit]
    rcases winner won with won | present
    · have present := batch.winner won
      rw [contains_commit] at present
      rw [Bool.or_assoc, present, Bool.or_true]
    · rw [present, Bool.true_or, Bool.true_or]
  stage := by
    intro state said
    rw [← Tree.commit, Tree.state_commit] at said
    split at said
    · exact stage state said
    · obtain ⟨same, ends⟩ := batch.stage state said
      exact ⟨same, ends.imp_right (Or.imp_right fun h => ⟨h.1, keeps h.2⟩)⟩

/-! ## The repository -/

/-- The later branch goes on from the earlier one; what was sent keeps its base and files. -/
structure Repository.Extends (repo repo' : Repository) : Prop where
  branch : ∀ (n : Nat) tree, repo.branch[n]? = some tree → repo'.branch[n]? = some tree
  sends : ∀ (n : Nat) send, repo.sends[n]? = some send →
    ∃ status, repo'.sends[n]? = some { send with status }
  landed : ∀ (n : Nat) send sha, repo.sends[n]? = some send → send.status = .landed sha →
    repo'.sends[n]? = some send

/-- A commit that closes a round without submissions. -/
def Closes (closing : List (Nat × Nat)) (n : Nat) (tree files : Tree) : Prop :=
  ∃ state, Tree.state tree = some state ∧ files = closingFiles state ∧
    (n, state.currentRound) ∈ closing

/-- Every tree of the branch is ready, and so is what each commit makes of its base, but for those
that close a round without submissions. -/
structure Repository.Sound (repo : Repository) (closing : List (Nat × Nat)) : Prop where
  nonempty : repo.branch ≠ []
  ready : ∀ (n : Nat) tree, repo.branch[n]? = some tree → tree.Ready
  grows : ∀ (m n : Nat) tree tree', m ≤ n → repo.branch[m]? = some tree →
    repo.branch[n]? = some tree' → ∀ path, tree.contains path = true → tree'.contains path = true
  sends : ∀ (n : Nat) send, repo.sends[n]? = some send →
    ∃ tree, repo.branch[send.base]? = some tree ∧ send.files.contains .config = false ∧
      ((tree.commit send.files).Ready ∨ Closes closing n tree send.files) ∧
      ∀ sha, send.status = .landed sha → repo.branch[sha]? = some (tree.commit send.files)

theorem Repository.Extends.refl (repo : Repository) : repo.Extends repo :=
  ⟨fun _ _ h => h, fun _ send h => ⟨send.status, h⟩, fun _ _ _ h _ => h⟩

variable {repo repo' : Repository} {closing : List (Nat × Nat)}

theorem Repository.Sound.headTree (sound : repo.Sound closing) :
    ∃ tree, repo.headTree = some tree ∧ repo.branch[repo.head]? = some tree := by
  have pos : 0 < repo.branch.length := List.length_pos_iff.mpr sound.nonempty
  have inside : repo.head < repo.branch.length := by
    unfold Repository.head
    omega
  exact ⟨repo.branch[repo.head], List.getElem?_eq_getElem inside, List.getElem?_eq_getElem inside⟩

theorem Repository.Sound.head_grows (sound : repo.Sound closing) {n : Nat} {tree : Tree}
    (at_n : repo.branch[n]? = some tree) :
    ∃ top, repo.branch[repo.head]? = some top ∧
      ∀ path, tree.contains path = true → top.contains path = true := by
  obtain ⟨top, -, at_head⟩ := sound.headTree
  have below : n ≤ repo.head := by
    have inside := (List.getElem?_eq_some_iff.mp at_n).1
    unfold Repository.head
    omega
  exact ⟨top, at_head, sound.grows _ _ tree top below at_n at_head⟩

theorem push_branch {tree : Tree} (head : repo.headTree = some tree) (files : Tree) :
    (repo.push files).branch = repo.branch ++ [tree.commit files] ∧
      (repo.push files).sends = repo.sends := by
  unfold Repository.push
  rw [head]
  exact ⟨rfl, rfl⟩

theorem Repository.extends_push (sound : repo.Sound closing) (files : Tree) :
    repo.Extends (repo.push files) := by
  obtain ⟨tree, head, -⟩ := sound.headTree
  obtain ⟨branch, sends⟩ := push_branch head files
  refine ⟨fun n tree at_n => ?_, fun n send at_n => ?_, fun n send sha at_n _ => ?_⟩
  · rw [branch, List.getElem?_append_left (List.getElem?_eq_some_iff.mp at_n).1]
    exact at_n
  · exact ⟨send.status, by rw [sends]; exact at_n⟩
  · rw [sends]
    exact at_n

theorem Repository.Sound.push (sound : repo.Sound closing) {tree files : Tree}
    (head : repo.headTree = some tree) (ready : (tree.commit files).Ready) :
    (repo.push files).Sound closing := by
  have longer := Repository.extends_push sound files
  obtain ⟨branch, sends⟩ := push_branch head files
  have last : repo.branch[repo.head]? = some tree := head
  have top : repo.branch.length = repo.head + 1 := by
    have inside := (List.getElem?_eq_some_iff.mp last).1
    unfold Repository.head at inside ⊢
    omega
  -- A place of the longer branch is one of the branch or the new one.
  have place : ∀ {n : Nat} {found : Tree}, (repo.push files).branch[n]? = some found →
      repo.branch[n]? = some found ∨ n = repo.head + 1 ∧ found = tree.commit files := by
    intro n found at_n
    rw [branch] at at_n
    rcases Nat.lt_or_ge n repo.branch.length with inside | outside
    · rw [List.getElem?_append_left inside] at at_n
      exact Or.inl at_n
    · rw [List.getElem?_append_right outside, List.getElem?_singleton] at at_n
      split at at_n
      · exact Or.inr ⟨by omega, (Option.some.inj at_n).symm⟩
      · cases at_n
  refine ⟨?_, ?_, ?_, ?_⟩
  · rw [branch]
    simp
  · intro n found at_n
    rcases place at_n with old | ⟨-, rfl⟩
    · exact sound.ready n found old
    · exact ready
  · intro m n low high le at_m at_n path present
    rcases place at_n with old | ⟨rfl, rfl⟩
    · rcases place at_m with old' | ⟨rfl, -⟩
      · exact sound.grows m n low high le old' old path present
      · have inside := (List.getElem?_eq_some_iff.mp old).1
        omega
    · rcases place at_m with old' | ⟨-, rfl⟩
      · have inside := (List.getElem?_eq_some_iff.mp old').1
        exact contains_commit_of_contains files
          (sound.grows m repo.head low tree (by omega) old' last path present)
      · exact present
  · intro n send at_n
    rw [sends] at at_n
    obtain ⟨base, at_base, config, good, landed⟩ := sound.sends n send at_n
    exact ⟨base, longer.branch _ _ at_base, config, good,
      fun sha status => longer.branch _ _ (landed sha status)⟩

theorem Repository.extends_send (repo : Repository) (base : Nat) (files : Tree) :
    repo.Extends (repo.send base files) := by
  have old : ∀ (n : Nat) send, repo.sends[n]? = some send →
      (repo.send base files).sends[n]? = some send := by
    intro n send at_n
    unfold Repository.send
    rw [List.getElem?_append_left (List.getElem?_eq_some_iff.mp at_n).1]
    exact at_n
  exact ⟨fun _ _ h => h, fun n send at_n => ⟨send.status, old n send at_n⟩,
    fun n send _ at_n _ => old n send at_n⟩

theorem Closes.mono {closing' : List (Nat × Nat)} {n : Nat} (closes : Closes closing n tree files)
    (more : ∀ entry ∈ closing, entry ∈ closing') : Closes closing' n tree files := by
  obtain ⟨state, read, rfl, member⟩ := closes
  exact ⟨state, read, rfl, more _ member⟩

theorem Repository.Sound.send {closing' : List (Nat × Nat)} (sound : repo.Sound closing)
    {base : Nat} {tree files : Tree} (at_base : repo.branch[base]? = some tree)
    (config : files.contains .config = false) (more : ∀ entry ∈ closing, entry ∈ closing')
    (good : (tree.commit files).Ready ∨ Closes closing' repo.sends.length tree files) :
    (repo.send base files).Sound closing' := by
  refine ⟨sound.nonempty, sound.ready, sound.grows, fun n send at_n => ?_⟩
  unfold Repository.send at at_n
  simp only at at_n
  rcases Nat.lt_or_ge n repo.sends.length with inside | outside
  · rw [List.getElem?_append_left inside] at at_n
    obtain ⟨tree, found, config, good, landed⟩ := sound.sends n send at_n
    exact ⟨tree, found, config, good.imp_right (Closes.mono · more), landed⟩
  · rw [List.getElem?_append_right outside, List.getElem?_singleton] at at_n
    split at at_n
    · rename_i first
      obtain rfl := Option.some.inj at_n
      obtain rfl : n = repo.sends.length := by omega
      exact ⟨tree, at_base, config, good, fun sha status => by cases status⟩
    · cases at_n

theorem Repository.Extends.trans {repo'' : Repository} (first : repo.Extends repo')
    (second : repo'.Extends repo'') : repo.Extends repo'' := by
  refine ⟨fun n tree at_n => second.branch n tree (first.branch n tree at_n),
    fun n send at_n => ?_, fun n send sha at_n status =>
      second.landed n send sha (first.landed n send sha at_n status) status⟩
  obtain ⟨status, at_n⟩ := first.sends n send at_n
  obtain ⟨status', at_n⟩ := second.sends n _ at_n
  exact ⟨status', at_n⟩

theorem setStatus_sends {n : Nat} {send : Send} (at_n : repo.sends[n]? = some send)
    (status : SendStatus) (m : Nat) :
    (repo.setStatus n send status).sends[m]? =
      if n = m then some { send with status } else repo.sends[m]? := by
  have inside := (List.getElem?_eq_some_iff.mp at_n).1
  unfold Repository.setStatus
  rw [List.getElem?_set]
  split
  · rename_i same
    subst same
    simp [inside]
  · rfl

theorem Repository.extends_setStatus {n : Nat} {send : Send} (at_n : repo.sends[n]? = some send)
    (waiting : send.status = .sent) (status : SendStatus) :
    repo.Extends (repo.setStatus n send status) := by
  refine ⟨fun _ _ h => h, fun m other at_m => ?_, fun m other sha at_m landed => ?_⟩
  · rw [setStatus_sends at_n]
    split
    · rename_i same
      subst same
      obtain rfl := Option.some.inj (at_n.symm.trans at_m)
      exact ⟨status, rfl⟩
    · exact ⟨other.status, at_m⟩
  · rw [setStatus_sends at_n]
    split
    · rename_i same
      subst same
      obtain rfl := Option.some.inj (at_n.symm.trans at_m)
      rw [waiting] at landed
      cases landed
    · exact at_m

theorem Repository.Sound.setStatus (sound : repo.Sound closing) {n : Nat} {send : Send}
    (at_n : repo.sends[n]? = some send) {status : SendStatus} (landed : ∀ sha, status = .landed sha →
      ∃ tree, repo.branch[send.base]? = some tree ∧
        repo.branch[sha]? = some (tree.commit send.files)) :
    (repo.setStatus n send status).Sound closing := by
  refine ⟨sound.nonempty, sound.ready, sound.grows, fun m other at_m => ?_⟩
  rw [setStatus_sends at_n] at at_m
  split at at_m
  · rename_i same
    subst same
    obtain rfl := Option.some.inj at_m
    obtain ⟨tree, at_base, config, good, -⟩ := sound.sends n send at_n
    refine ⟨tree, at_base, config, good, fun sha is_landed => ?_⟩
    obtain ⟨tree', at_base', at_sha⟩ := landed sha is_landed
    obtain rfl := Option.some.inj (at_base.symm.trans at_base')
    exact at_sha
  · exact sound.sends m other at_m

theorem Closes.ready {n : Nat} (closes : Closes closing n tree files) (ready : tree.Ready)
    (furnished : ∀ round, (n, round) ∈ closing → tree.contains (.winner round) = true ∧
      (carriesOver tree (round + 1) = true → tree.contains (.roundPrompts round) = true)) :
    (tree.commit files).Ready := by
  obtain ⟨state, -, rfl, member⟩ := closes
  obtain ⟨winner, prompts⟩ := furnished _ member
  refine ready.commit rfl fun said is_said => ?_
  obtain rfl := Option.some.inj (is_said : some { state with
    stage := .finalizing, nextStageEta := none } = some said)
  have stageReady : tree.StageReady { state with stage := .finalizing, nextStageEta := none } :=
    ⟨winner, prompts⟩
  exact stageReady.commit rfl

theorem Repository.Sound.land (sound : repo.Sound closing) {n : Nat}
    (landed : repo.land n = some repo')
    (furnished : ∀ send tree, repo.sends[n]? = some send → send.base = repo.head →
      repo.headTree = some tree → ∀ round, (n, round) ∈ closing →
        tree.contains (.winner round) = true ∧
          (carriesOver tree (round + 1) = true → tree.contains (.roundPrompts round) = true)) :
    repo'.Sound closing ∧ repo.Extends repo' := by
  unfold Repository.land at landed
  split at landed
  · rename_i send at_n
    split at landed
    · cases landed
    · rename_i waiting
      have waiting := Decidable.of_not_not waiting
      split at landed
      · rename_i current
        obtain rfl := Option.some.inj landed
        obtain ⟨tree, head, at_head⟩ := sound.headTree
        obtain ⟨base, at_base, config, good, -⟩ := sound.sends n send at_n
        obtain rfl : base = tree := by
          rw [current, at_head] at at_base
          exact (Option.some.inj at_base).symm
        have ready : (base.commit send.files).Ready := by
          rcases good with ready | closes
          · exact ready
          · exact closes.ready (sound.ready _ base at_head) (furnished send base at_n current head)
        obtain ⟨branch, sends⟩ := push_branch head send.files
        have pushed := sound.push head ready
        have longer := Repository.extends_push sound send.files
        have at_n' : (repo.push send.files).sends[n]? = some send := by rw [sends, at_n]
        refine ⟨pushed.setStatus at_n' fun sha is_sha => ?_,
          longer.trans (Repository.extends_setStatus at_n' waiting _)⟩
        obtain rfl := SendStatus.landed.inj is_sha
        exact ⟨base, longer.branch _ _ at_base, by rw [branch]; simp⟩
      · obtain rfl := Option.some.inj landed
        exact ⟨sound.setStatus at_n fun sha is_sha => (by cases is_sha),
          Repository.extends_setStatus at_n waiting _⟩
  · cases landed

/-! ## Batchers -/

/-- The files of the commit in progress. -/
def GitBatcher.snapshot (repo : Repository) (b : GitBatcher) : Tree :=
  match b.awaited repo with
  | some send => send.files
  | none => .empty

def GitBatcher.unconfirmed (repo : Repository) (b : GitBatcher) : Tree :=
  restorePending b.pendingFiles (b.snapshot repo)

structure GitBatcher.Sound (repo : Repository) (round : Nat) (resolved : Bool) (b : GitBatcher) :
    Prop where
  base : ∃ tree, repo.branch[b.baseSha]? = some tree ∧
    Batch round resolved tree (b.unconfirmed repo)
  sent : ∀ n, b.inProgress = some n →
    ∃ send, repo.sends[n]? = some send ∧ send.base = b.baseSha

variable {b b' : GitBatcher}

theorem get_unconfirmed (repo : Repository) (b : GitBatcher) (path : Path) :
    (b.unconfirmed repo).get path = (b.pendingFiles.get path).or ((b.snapshot repo).get path) :=
  get_commit (b.snapshot repo) b.pendingFiles path

theorem GitBatcher.Sound.grow (sound : b.Sound repo round resolved) (longer : repo.Extends repo') :
    b.Sound repo' round resolved := by
  have same : b.snapshot repo' = b.snapshot repo := by
    unfold GitBatcher.snapshot GitBatcher.awaited
    cases progress : b.inProgress with
    | none => rfl
    | some n =>
        obtain ⟨send, at_n, -⟩ := sound.sent n progress
        obtain ⟨status, at_n'⟩ := longer.sends n send at_n
        simp only [Option.bind_some, at_n, at_n']
  refine ⟨?_, fun n progress => ?_⟩
  · obtain ⟨tree, at_base, batch⟩ := sound.base
    refine ⟨tree, longer.branch _ _ at_base, ?_⟩
    unfold GitBatcher.unconfirmed at batch ⊢
    rw [same]
    exact batch
  · obtain ⟨send, at_n, based⟩ := sound.sent n progress
    obtain ⟨status, at_n'⟩ := longer.sends n send at_n
    exact ⟨_, at_n', based⟩

theorem snapshot_of_idle (progress : b.inProgress = none) : b.snapshot repo = .empty := by
  unfold GitBatcher.snapshot GitBatcher.awaited
  rw [progress]
  rfl

theorem GitBatcher.Sound.new {sha : Nat} (at_sha : repo.branch[sha]? = some tree)
    (prompts : tree.contains (.roundPrompts round) = true) :
    GitBatcher.Sound repo round false { baseSha := sha } :=
  ⟨⟨tree, at_sha, prompts, rfl, (nomatch ·), fun _ said => by cases said⟩, fun _ h => by cases h⟩

theorem GitBatcher.Sound.startCommit (repoSound : repo.Sound closing)
    (sound : b.Sound repo round resolved) :
    (b.startCommit repo).1.Sound closing ∧ repo.Extends (b.startCommit repo).1 ∧
      (b.startCommit repo).2.Sound (b.startCommit repo).1 round resolved := by
  unfold GitBatcher.startCommit
  split
  · exact ⟨repoSound, Repository.Extends.refl repo, sound⟩
  · rename_i starts
    obtain ⟨tree, at_base, batch⟩ := sound.base
    have idle : b.inProgress = none := by
      simpa using fun progress => starts (Or.inl progress)
    have pending : Batch round resolved tree b.pendingFiles := by
      refine batch.congr fun path => ?_
      rw [get_unconfirmed, snapshot_of_idle idle, Dict.get_empty, Option.or_none]
    have ready := pending.ready (repoSound.ready _ tree at_base)
    refine ⟨repoSound.send at_base pending.config (fun _ h => h) (Or.inl ready),
      Repository.extends_send repo b.baseSha b.pendingFiles, ⟨tree, at_base, ?_⟩, fun n progress => ?_⟩
    · refine pending.congr fun path => ?_
      rw [get_unconfirmed]
      simp [GitBatcher.snapshot, GitBatcher.awaited, Repository.send]
    · obtain rfl := Option.some.inj progress
      exact ⟨⟨b.baseSha, b.pendingFiles, .sent⟩, by simp [Repository.send], rfl⟩

theorem GitBatcher.Sound.write {later : Bool} {files : Tree} (repoSound : repo.Sound closing)
    (sound : b.Sound repo round resolved)
    (batched : ∀ tree, Batch round resolved tree (b.unconfirmed repo) →
      Batch round later tree ((b.unconfirmed repo).merge files)) (now : Nat) :
    (b.write repo files now).1.Sound closing ∧ repo.Extends (b.write repo files now).1 ∧
      (b.write repo files now).2.Sound (b.write repo files now).1 round later := by
  have written : { b with pendingFiles := b.pendingFiles.merge files }.Sound repo round later := by
    refine ⟨?_, sound.sent⟩
    obtain ⟨tree, at_base, batch⟩ := sound.base
    refine ⟨tree, at_base, (batched tree batch).congr fun path => ?_⟩
    rw [get_unconfirmed, Dict.get_merge, Dict.get_merge, get_unconfirmed, Option.or_assoc]
    rfl
  unfold GitBatcher.write
  simp only
  split
  · exact written.startCommit repoSound
  · exact ⟨repoSound, Repository.Extends.refl repo, written⟩

theorem awaited_send {send : Send} (awaited : b.awaited repo = some send) :
    ∃ n, b.inProgress = some n ∧ repo.sends[n]? = some send :=
  Option.bind_eq_some_iff.mp awaited

theorem GitBatcher.Sound.succeed (repoSound : repo.Sound closing)
    (sound : b.Sound repo round resolved) {now : Nat} (succeeded : b.succeed repo now = some b') :
    b'.Sound repo round resolved := by
  unfold GitBatcher.succeed at succeeded
  split at succeeded
  · rename_i base files sha awaited
    obtain rfl := Option.some.inj succeeded
    obtain ⟨n, progress, at_n⟩ := awaited_send awaited
    obtain ⟨send, at_n', based⟩ := sound.sent n progress
    obtain rfl := Option.some.inj (at_n.symm.trans at_n')
    obtain ⟨tree, at_base, batch⟩ := sound.base
    obtain ⟨tree', at_base', -, -, landed⟩ := repoSound.sends n _ at_n
    rw [based] at at_base'
    obtain rfl := Option.some.inj (at_base.symm.trans at_base')
    refine ⟨⟨_, landed sha rfl, ?_⟩, fun _ h => by cases h⟩
    have snapshot : b.snapshot repo = files := by
      unfold GitBatcher.snapshot
      rw [awaited]
    rw [GitBatcher.unconfirmed, snapshot] at batch
    refine batch.committed.congr fun path => ?_
    rw [get_unconfirmed, snapshot_of_idle rfl, Dict.get_empty, Option.or_none]
  · cases succeeded

theorem GitBatcher.Sound.fail (repoSound : repo.Sound closing)
    (sound : b.Sound repo round resolved) {refreshed : Bool}
    (failed : b.fail repo refreshed = some b') : b'.Sound repo round resolved := by
  unfold GitBatcher.fail at failed
  obtain ⟨send, awaited, rfl⟩ := Option.map_eq_some_iff.mp failed
  obtain ⟨tree, at_base, batch⟩ := sound.base
  have snapshot : b.snapshot repo = send.files := by
    unfold GitBatcher.snapshot
    rw [awaited]
  rw [GitBatcher.unconfirmed, snapshot] at batch
  refine ⟨?_, fun _ h => by cases h⟩
  cases refreshed with
  | false =>
      refine ⟨tree, at_base, batch.congr fun path => ?_⟩
      rw [get_unconfirmed, snapshot_of_idle rfl, Dict.get_empty, Option.or_none]
  | true =>
      obtain ⟨top, at_head, grows⟩ := repoSound.head_grows at_base
      refine ⟨top, at_head, (batch.grow grows).congr fun path => ?_⟩
      rw [get_unconfirmed, snapshot_of_idle rfl, Dict.get_empty, Option.or_none]

theorem GitBatcher.Sound.refresh (repoSound : repo.Sound closing)
    (sound : b.Sound repo round resolved) (idle : b.inProgress = none) :
    (b.refreshBaseSha repo).Sound repo round resolved := by
  obtain ⟨tree, at_base, batch⟩ := sound.base
  obtain ⟨top, at_head, grows⟩ := repoSound.head_grows at_base
  refine ⟨⟨top, at_head, batch.grow grows⟩, fun n progress => ?_⟩
  cases idle.symm.trans progress

end GenSubnet.Competition
