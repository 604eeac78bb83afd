import GenSubnet.Competition.Repository

/-!
# The commit batcher

`GitBatcher` of `subnet_common/git_batcher.py`, between its awaits. Writes collect in the pending
files; a commit takes them all and is made on the base the batcher knows. A commit that raises, for
whatever reason, gives its files back, and the base is refreshed to the head of the branch.
-/

namespace GenSubnet.Competition
open Library

def interval : Nat := 600

def conflictInterval : Nat := 60

structure GitBatcher where
  baseSha : Nat
  pendingFiles : Tree := .empty
  lastCommitTime : Nat := 0
  currentInterval : Nat := interval
  /-- The commit that is in progress, among those that were sent. -/
  inProgress : Option Nat := none

variable (repo : Repository) (b : GitBatcher)

/-- `_commit`, up to its first await. -/
def GitBatcher.startCommit : Repository × GitBatcher :=
  if b.inProgress.isSome ∨ b.pendingFiles.items.isEmpty then (repo, b)
  else (repo.send b.baseSha b.pendingFiles,
    { b with pendingFiles := .empty, inProgress := some repo.sends.length })

/-- `write_many` at a time, and `write` of one file. -/
def GitBatcher.write (files : Tree) (now : Nat) : Repository × GitBatcher :=
  let b := { b with pendingFiles := b.pendingFiles.merge files }
  if b.currentInterval ≤ now - b.lastCommitTime then b.startCommit repo else (repo, b)

def GitBatcher.flush : Repository × GitBatcher := b.startCommit repo

/-- The commit that the batcher waits for. -/
def GitBatcher.awaited : Option Send := b.inProgress.bind fun n => repo.sends[n]?

/-- The commit returned its sha. -/
def GitBatcher.succeed (now : Nat) : Option GitBatcher :=
  match b.awaited repo with
  | some ⟨_, _, .landed sha⟩ => some { b with
      baseSha := sha
      lastCommitTime := now
      currentInterval := interval
      inProgress := none }
  | _ => none

/-- Put the files of a snapshot back where no newer write has taken their place. -/
def restorePending (pending snapshot : Tree) : Tree := snapshot.merge pending

/-- The commit raised, and the head could be read again or not. -/
def GitBatcher.fail (refreshed : Bool) : Option GitBatcher :=
  (b.awaited repo).map fun send => { b with
    baseSha := if refreshed then repo.head else b.baseSha
    pendingFiles := restorePending b.pendingFiles send.files
    currentInterval := conflictInterval
    inProgress := none }

def GitBatcher.refreshBaseSha : GitBatcher := { b with baseSha := repo.head }

end GenSubnet.Competition
