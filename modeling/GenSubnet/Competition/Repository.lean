import GenSubnet.Competition.State
import GenSubnet.Library.Dict

/-!
# The repository of the competition

The branch on which the services commit, as `GitHubClient` sees it: a commit is made on the tree of
its base and moves the branch forward only if the base is still the head. A commit under way may
take effect although its answer is lost.
-/

namespace GenSubnet.Competition
open Library

inductive Path
  | state
  | config
  | leader
  | prompts
  | schedule (round : Nat)
  | seed (round : Nat)
  | roundPrompts (round : Nat)
  | submissions (round : Nat)
  | winner (round : Nat)
  | other (path : String)
deriving DecidableEq

def Path.text : Path → String
  | .state => "state.json"
  | .config => "config.json"
  | .leader => "leader.json"
  | .prompts => "prompts.txt"
  | .schedule round => s!"rounds/{round}/schedule.json"
  | .seed round => s!"rounds/{round}/seed.json"
  | .roundPrompts round => s!"rounds/{round}/prompts.txt"
  | .submissions round => s!"rounds/{round}/submissions.json"
  | .winner round => s!"rounds/{round}/winner.json"
  | .other path => path

inductive Content
  | state (state : CompetitionState)
  | config (config : CompetitionConfig)
  | leaders (transitions : List LeaderEntry)
  | prompts (prompts : List String)
  | schedule (schedule : RoundSchedule)
  | seed (seed : Nat)
  | submissions (submissions : List (String × MinerSubmission))
  | result (result : RoundResult)
  | text (content : String)
deriving DecidableEq

/-- The files of a commit, or those that it changes. -/
abbrev Tree := Dict Path Content

def Tree.state (tree : Tree) : Option CompetitionState :=
  match tree.get .state with
  | some (.state state) => some state
  | _ => none

def Tree.config (tree : Tree) : Option CompetitionConfig :=
  match tree.get .config with
  | some (.config config) => some config
  | _ => none

def Tree.commit (tree : Tree) (files : Tree) : Tree := tree.merge files

inductive SendStatus
  | sent
  | landed (sha : Nat)
  | rejected
deriving DecidableEq

/-- A commit under way. -/
structure Send where
  base : Nat
  files : Tree
  status : SendStatus := .sent

/-- The branch, whose trees are numbered by their commits, and all commits that were ever sent. -/
structure Repository where
  branch : List Tree
  sends : List Send := []

def Repository.head (repo : Repository) : Nat := repo.branch.length - 1

def Repository.headTree (repo : Repository) : Option Tree := repo.branch[repo.head]?

/-- The tree of the head, where there is one. -/
def Repository.push (repo : Repository) (files : Tree) : Repository :=
  match repo.headTree with
  | some tree => { repo with branch := repo.branch ++ [tree.commit files] }
  | none => repo

def Repository.setStatus (repo : Repository) (n : Nat) (send : Send) (status : SendStatus) :
    Repository :=
  { repo with sends := repo.sends.set n { send with status } }

/-- The service handles the update of the branch: it is a fast-forward exactly when the base is the
head. -/
def Repository.land (repo : Repository) (n : Nat) : Option Repository :=
  match repo.sends[n]? with
  | some send =>
      if send.status ≠ .sent then none
      else if send.base = repo.head then
        some ((repo.push send.files).setStatus n send (.landed repo.branch.length))
      else some (repo.setStatus n send .rejected)
  | none => none

def Repository.send (repo : Repository) (base : Nat) (files : Tree) : Repository :=
  { repo with sends := repo.sends ++ [{ base, files }] }

/-! ## Files of a commit -/

theorem get_commit (tree files : Tree) (path : Path) :
    (tree.commit files).get path = (files.get path).or (tree.get path) :=
  Dict.get_merge tree files path

theorem get_of_not_contains {files : Tree} {path : Path} (absent : files.contains path = false) :
    files.get path = none := by
  rw [← Option.isNone_iff_eq_none, ← Option.isSome_eq_false_iff]
  exact absent

theorem Tree.state_commit (tree files : Tree) :
    Tree.state (tree.commit files) =
      if files.contains .state then Tree.state files else Tree.state tree := by
  unfold Tree.state
  rw [get_commit]
  cases present : files.get .state with
  | none => simp [Dict.contains, present]
  | some content => simp [Dict.contains, present]

/-! ## The head -/

theorem headTree_congr {repo repo' : Repository} (same : repo'.branch = repo.branch) :
    repo'.headTree = repo.headTree := by
  rw [Repository.headTree, Repository.headTree, Repository.head, Repository.head, same]

theorem headTree_push {repo : Repository} {tree files : Tree} (head : repo.headTree = some tree) :
    (repo.push files).headTree = some (tree.commit files) := by
  unfold Repository.push
  rw [head]
  simp [Repository.headTree, Repository.head]

theorem land_cases {repo repo' : Repository} {n : Nat} (landed : repo.land n = some repo') :
    ∃ send, repo.sends[n]? = some send ∧
      ((send.base = repo.head ∧ repo'.branch = (repo.push send.files).branch) ∨
        (send.base ≠ repo.head ∧ repo'.branch = repo.branch)) := by
  unfold Repository.land at landed
  split at landed
  · rename_i send at_n
    refine ⟨send, at_n, ?_⟩
    split at landed
    · cases landed
    · split at landed
      · rename_i current
        obtain rfl := Option.some.inj landed
        exact Or.inl ⟨current, rfl⟩
      · rename_i outdated
        obtain rfl := Option.some.inj landed
        exact Or.inr ⟨outdated, rfl⟩
  · cases landed

end GenSubnet.Competition
