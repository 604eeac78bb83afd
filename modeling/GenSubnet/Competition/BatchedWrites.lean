import GenSubnet.Competition.GitBatcher
import GenSubnet.Library.Transition
import Mathlib.Data.List.Induction

/-!
# Batched writes

One `GitBatcher` that any number of coroutines write to. Between two awaits a call is one step; the
branch is updated, and its head is read, at any time in between. No write is lost: the latest value
of a path is pending, in the commit that is in flight, or on the branch. And the branch only goes
from older to newer values.
-/

namespace GenSubnet.Competition
open Library

/-- The commit raised; `answer` is what `get_ref_sha` has returned since, if anything. -/
def GitBatcher.failAt (repo : Repository) (b : GitBatcher) (answer : Option Nat) :
    Option GitBatcher :=
  (b.awaited repo).map fun send => { b with
    baseSha := answer.getD b.baseSha
    pendingFiles := restorePending b.pendingFiles send.files
    currentInterval := conflictInterval
    inProgress := none }

/-- The latest value of each path. -/
def latestWrites (writes : List Tree) : Tree := writes.foldl Tree.commit .empty

structure BatcherRun where
  repo : Repository
  batcher : GitBatcher
  /-- Everything that was written, in order. -/
  writes : List Tree := []
  /-- For each commit that was sent, how many writes came before its snapshot. -/
  counts : List Nat := []
  /-- For each commit of the branch, how many writes it holds. -/
  holds : List Nat
  /-- What `get_ref_sha` has read; the answers arrive later. -/
  answers : List Nat := []

/-- A batcher for a branch, on one of its commits. -/
def BatcherRun.start (branch : List Tree) (baseSha : Nat) : BatcherRun where
  repo := { branch }
  batcher := { baseSha }
  holds := List.replicate branch.length 0

inductive BatcherEvent
  /-- Someone else commits files that the batcher has not written. -/
  | external (files : Tree)
  | write (files : Tree) (now : Nat)
  | flush
  /-- The branch is updated with a commit that was sent. -/
  | land (send : Nat)
  | succeed (now : Nat)
  | readHead
  /-- The commit in flight raised, and the refresh of the base returned an answer or raised too. -/
  | fail (answer : Option Nat)
  | refreshBaseSha (answer : Nat)

def BatcherRun.become (s : BatcherRun) (repo : Repository) (batcher : GitBatcher) : BatcherRun :=
  { s with
    repo, batcher
    counts := s.counts ++
      List.replicate (repo.sends.length - s.repo.sends.length) s.writes.length }

def BatcherRun.external (s : BatcherRun) (files : Tree) : BatcherRun :=
  { s with repo := s.repo.push files, holds := s.holds ++ [s.holds.getLastD 0] }

def BatcherRun.step (s : BatcherRun) : BatcherEvent → Option BatcherRun
  | .external files =>
      if ∀ path ∈ files.keys, (latestWrites s.writes).contains path = false then
        some (s.external files)
      else none
  | .write files now =>
      let (repo, batcher) := s.batcher.write s.repo files now
      some (BatcherRun.become { s with writes := s.writes ++ [files] } repo batcher)
  | .flush =>
      let (repo, batcher) := s.batcher.flush s.repo
      some (s.become repo batcher)
  | .land n => (s.repo.land n).map fun repo =>
      { s with
        repo
        holds := s.holds ++
          List.replicate (repo.branch.length - s.repo.branch.length) (s.counts.getD n 0) }
  | .succeed now => (s.batcher.succeed s.repo now).map fun batcher => { s with batcher }
  | .readHead => some { s with answers := s.answers ++ [s.repo.head] }
  | .fail none => (s.batcher.failAt s.repo none).map fun batcher => { s with batcher }
  | .fail (some answer) => s.answers[answer]?.bind fun sha =>
      (s.batcher.failAt s.repo (some sha)).map fun batcher => { s with batcher }
  | .refreshBaseSha answer => s.answers[answer]?.map fun sha =>
      { s with batcher := { s.batcher with baseSha := sha } }

/-! ## Latest values -/

theorem latestWrites_concat (writes : List Tree) (files : Tree) :
    latestWrites (writes ++ [files]) = (latestWrites writes).commit files := by
  simp [latestWrites]

theorem get_latestWrites_append (writes later : List Tree) (path : Path) :
    (latestWrites (writes ++ later)).get path =
      ((latestWrites later).get path).or ((latestWrites writes).get path) := by
  induction later using List.reverseRecOn with
  | nil => simp [latestWrites]
  | append_singleton later files ih =>
      rw [← List.append_assoc, latestWrites_concat, latestWrites_concat, get_commit, get_commit, ih,
        Option.or_assoc]

theorem contains_latestWrites_take {writes : List Tree} {count : Nat} {path : Path}
    (written : (latestWrites (writes.take count)).contains path = true) :
    (latestWrites writes).contains path = true := by
  unfold Dict.contains at written ⊢
  have split := get_latestWrites_append (writes.take count) (writes.drop count) path
  rw [List.take_append_drop] at split
  rw [split, Option.isSome_or, written, Bool.or_true]

/-- The files hold the latest value of every path that was written. -/
def Tree.Holds (tree : Tree) (writes : List Tree) : Prop :=
  ∀ path content, (latestWrites writes).get path = some content → tree.get path = some content

theorem Tree.Holds.commit {tree : Tree} {writes : List Tree} (holds : tree.Holds writes)
    {files : Tree}
    (elsewhere : ∀ path, files.contains path = true → (latestWrites writes).get path = none) :
    (tree.commit files).Holds writes := by
  intro path content written
  rw [get_commit]
  cases present : files.get path with
  | none => exact holds path content written
  | some other =>
      have absent := elsewhere path (Dict.contains_of_get present)
      rw [absent] at written
      cases written

/-! ## The invariant -/

/-- The files of the commit in flight. -/
def BatcherRun.flying (s : BatcherRun) : Tree :=
  ((s.batcher.awaited s.repo).map Send.files).getD .empty

/-- A commit that may still become the head. -/
def BatcherRun.Open (s : BatcherRun) (n : Nat) (send : Send) : Prop :=
  s.repo.sends[n]? = some send ∧ send.status = .sent ∧ send.base = s.repo.head

structure BatcherRun.Kept (s : BatcherRun) (tree : Tree) : Prop where
  head : s.repo.headTree = some tree
  lengths : s.counts.length = s.repo.sends.length ∧ s.holds.length = s.repo.branch.length
  base : s.batcher.baseSha ≤ s.repo.head
  answers : ∀ sha ∈ s.answers, sha ≤ s.repo.head
  bases : ∀ send ∈ s.repo.sends, send.base ≤ s.repo.head
  counted : ∀ count ∈ s.counts, count ≤ s.writes.length
  held : ∀ held ∈ s.holds, held ≤ s.writes.length
  inProgress : ∀ n ∈ s.batcher.inProgress, n < s.repo.sends.length
  /-- Whatever is pending or was sent has been written. -/
  pending : ∀ path, s.batcher.pendingFiles.contains path = true →
    (latestWrites s.writes).contains path = true
  sent : ∀ send ∈ s.repo.sends, ∀ path, send.files.contains path = true →
    (latestWrites s.writes).contains path = true
  /-- The latest value is pending, in flight or at the head. -/
  newest : ((tree.commit s.flying).commit s.batcher.pendingFiles).Holds s.writes
  /-- An open commit brings the head to what was written before its snapshot. -/
  opened : ∀ n send, s.Open n send → ∃ count, s.counts[n]? = some count ∧
    (∀ held ∈ s.holds, held ≤ count) ∧ (tree.commit send.files).Holds (s.writes.take count)
  /-- The files of an open commit are in flight, or they were put back. -/
  restored : ∀ n send, s.Open n send → ∀ path, send.files.contains path = true →
    s.batcher.pendingFiles.contains path = true ∨ s.flying.contains path = true
  /-- After the commit in flight has landed, no other one can. -/
  landed : ∀ (n : Nat) (send : Send) (sha : Nat), s.batcher.inProgress = some n → s.repo.sends[n]? = some send →
    send.status = .landed sha →
    (∀ path content, send.files.get path = some content → tree.get path = some content) ∧
      ∀ other send, ¬ s.Open other send
  holds : ∀ (i : Nat) (tree : Tree) count, s.repo.branch[i]? = some tree → s.holds[i]? = some count →
    tree.Holds (s.writes.take count)
  sorted : s.holds.Pairwise (· ≤ ·)
  landedAt : ∀ (n : Nat) (send : Send) (sha : Nat), s.repo.sends[n]? = some send → send.status = .landed sha →
    s.counts[n]?.isSome = true ∧ s.holds[sha]? = s.counts[n]?

variable {s s' : BatcherRun} {tree : Tree}

theorem BatcherRun.flying_eq {n : Nat} {send : Send} (inProgress : s.batcher.inProgress = some n)
    (sent : s.repo.sends[n]? = some send) : s.flying = send.files := by
  simp [BatcherRun.flying, GitBatcher.awaited, inProgress, sent]

theorem BatcherRun.flying_idle (idle : s.batcher.inProgress = none) : s.flying = .empty := by
  simp [BatcherRun.flying, GitBatcher.awaited, idle]

theorem commit_empty (tree : Tree) (path : Path) : (tree.commit .empty).get path = tree.get path := by
  rw [get_commit, Dict.get_empty, Option.none_or]

theorem lt_of_held {holds counts : List Nat} {sha n : Nat} (counted : counts[n]?.isSome = true)
    (held : holds[sha]? = counts[n]?) : sha < holds.length := by
  by_contra outside
  rw [List.getElem?_eq_none (by omega)] at held
  rw [← held] at counted
  cases counted

theorem head_of_headTree {repo : Repository} {tree : Tree} (head : repo.headTree = some tree) :
    repo.head < repo.branch.length ∧ repo.branch.length = repo.head + 1 := by
  have inside := (List.getElem?_eq_some_iff.mp head).1
  unfold Repository.head at inside ⊢
  omega

theorem head_push {repo : Repository} {tree : Tree} (files : Tree)
    (head : repo.headTree = some tree) :
    (repo.push files).branch = repo.branch ++ [tree.commit files] ∧
      (repo.push files).sends = repo.sends ∧ (repo.push files).head = repo.head + 1 := by
  have length := (head_of_headTree head).2
  unfold Repository.push
  rw [head]
  refine ⟨rfl, rfl, ?_⟩
  unfold Repository.head at length ⊢
  simp only [List.length_append, List.length_singleton]
  omega

theorem getLastD_holds (lengths : s.holds.length = s.repo.branch.length)
    (head : s.repo.headTree = some tree) : s.holds[s.repo.head]? = some (s.holds.getLastD 0) := by
  have inside := head_of_headTree head
  have position : s.repo.head = s.holds.length - 1 := by omega
  rw [position, ← List.getLast?_eq_getElem?, List.getLastD_eq_getLast?]
  have : s.holds ≠ [] := by
    intro empty
    rw [empty, List.length_nil] at lengths
    omega
  rw [List.getLast?_eq_some_getLast this]
  rfl

theorem holds_concat {branch : List Tree} {holds : List Nat} {writes : List Tree} {count : Nat}
    (lengths : holds.length = branch.length)
    (held : ∀ (i : Nat) (tree : Tree) count, branch[i]? = some tree → holds[i]? = some count →
      tree.Holds (writes.take count))
    (new : tree.Holds (writes.take count)) :
    ∀ (i : Nat) (tree' : Tree) count', (branch ++ [tree])[i]? = some tree' →
      (holds ++ [count])[i]? = some count' → tree'.Holds (writes.take count') := by
  intro i tree' count' atBranch atHolds
  rcases Nat.lt_or_ge i branch.length with inside | outside
  · rw [List.getElem?_append_left inside] at atBranch
    rw [List.getElem?_append_left (lengths ▸ inside)] at atHolds
    exact held i tree' count' atBranch atHolds
  · rw [List.getElem?_append_right outside] at atBranch
    rw [List.getElem?_append_right (lengths ▸ outside), lengths] at atHolds
    rw [List.getElem?_singleton] at atBranch atHolds
    split at atBranch
    · rename_i first
      rw [if_pos first] at atHolds
      obtain rfl := Option.some.inj atBranch
      obtain rfl := Option.some.inj atHolds
      exact new
    · cases atBranch

theorem sorted_concat {holds : List Nat} {count : Nat} (sorted : holds.Pairwise (· ≤ ·))
    (most : ∀ held ∈ holds, held ≤ count) : (holds ++ [count]).Pairwise (· ≤ ·) := by
  rw [List.pairwise_append]
  refine ⟨sorted, List.pairwise_singleton _ _, fun held member other last => ?_⟩
  obtain rfl := List.mem_singleton.mp last
  exact most held member

theorem le_getLastD {holds : List Nat} (sorted : holds.Pairwise (· ≤ ·)) :
    ∀ held ∈ holds, held ≤ holds.getLastD 0 := by
  induction holds using List.reverseRecOn with
  | nil => exact fun _ member => nomatch member
  | append_singleton holds last _ =>
      intro held member
      rw [List.getLastD_concat]
      rcases List.mem_append.mp member with member | member
      · exact (List.pairwise_append.mp sorted).2.2 held member last List.mem_cons_self
      · exact (List.mem_singleton.mp member).le

/-! ## Steps -/

theorem BatcherRun.Kept.external (kept : s.Kept tree) {files : Tree}
    (elsewhere : ∀ path ∈ files.keys, (latestWrites s.writes).contains path = false) :
    (s.external files).Kept (tree.commit files) := by
  obtain ⟨branch, sends, head⟩ := head_push files kept.head
  have apart : ∀ path, (latestWrites s.writes).contains path = true → files.get path = none := by
    intro path written
    cases present : files.get path with
    | none => rfl
    | some content =>
        have member : path ∈ files.keys :=
          Dict.contains_iff.mp (Dict.contains_of_get present)
        rw [elsewhere path member] at written
        cases written
  have unwritten : ∀ path, files.contains path = true → (latestWrites s.writes).get path = none := by
    intro path member
    cases written : (latestWrites s.writes).get path with
    | none => rfl
    | some content =>
        rw [Dict.contains, apart path (Dict.contains_of_get written)] at member
        cases member
  have same : ∀ path, (latestWrites s.writes).contains path = true →
      (tree.commit files).get path = tree.get path := by
    intro path written
    rw [get_commit, apart path written, Option.none_or]
  have flying : (s.external files).flying = s.flying := by
    simp [BatcherRun.external, BatcherRun.flying, GitBatcher.awaited, sends]
  have closed : ∀ n send, ¬ (s.external files).Open n send := by
    rintro n send ⟨found, -, base⟩
    simp only [BatcherRun.external, sends, head] at found base
    have := kept.bases send (List.mem_of_getElem? found)
    omega
  have last := getLastD_holds kept.lengths.2 kept.head
  constructor
  case head => exact headTree_push kept.head
  case lengths =>
    simp only [BatcherRun.external, sends, branch, List.length_append, List.length_singleton]
    exact ⟨kept.lengths.1, congrArg (· + 1) kept.lengths.2⟩
  case base => exact le_trans kept.base (by simp only [BatcherRun.external, head]; omega)
  case answers => exact fun sha member => le_trans (kept.answers sha member) (by simp only [BatcherRun.external, head]; omega)
  case bases =>
    simp only [BatcherRun.external, sends, head]
    exact fun send member => le_trans (kept.bases send member) (Nat.le_succ _)
  case counted => exact kept.counted
  case held =>
    intro held member
    rcases List.mem_append.mp member with member | member
    · exact kept.held held member
    · obtain rfl := List.mem_singleton.mp member
      exact kept.held _ (List.mem_of_getElem? last)
  case inProgress =>
    simp only [BatcherRun.external, sends]
    exact kept.inProgress
  case pending => exact kept.pending
  case sent =>
    simp only [BatcherRun.external, sends]
    exact kept.sent
  case newest =>
    rw [flying]
    intro path content written
    have before := kept.newest path content written
    rw [get_commit, get_commit] at before ⊢
    rw [same path (Dict.contains_of_get written)]
    exact before
  case opened => exact fun n send is => absurd is (closed n send)
  case restored => exact fun n send is => absurd is (closed n send)
  case landed =>
    intro n send sha inProgress found status
    simp only [BatcherRun.external, sends] at found
    refine ⟨?_, fun other send => closed other send⟩
    intro path content present
    rw [same path (kept.sent send (List.mem_of_getElem? found) path
      (Dict.contains_of_get present))]
    exact (kept.landed n send sha inProgress found status).1 path content present
  case holds =>
    simp only [BatcherRun.external, branch]
    refine holds_concat kept.lengths.2 kept.holds ?_
    refine (kept.holds _ tree _ kept.head last).commit fun path member => ?_
    have absent := unwritten path member
    cases written : (latestWrites (s.writes.take (s.holds.getLastD 0))).get path with
    | none => rfl
    | some content =>
        have := @contains_latestWrites_take s.writes _ path (Dict.contains_of_get written)
        rw [Dict.contains, absent] at this
        cases this
  case sorted => exact sorted_concat kept.sorted (le_getLastD kept.sorted)
  case landedAt =>
    intro n send sha found status
    simp only [BatcherRun.external, sends] at found
    obtain ⟨counted, at_⟩ := kept.landedAt n send sha found status
    refine ⟨counted, ?_⟩
    have inside := lt_of_held counted at_
    simp only [BatcherRun.external, List.getElem?_append_left inside]
    exact at_

theorem get_restorePending (pending snapshot : Tree) (path : Path) :
    (restorePending pending snapshot).get path = (pending.get path).or (snapshot.get path) :=
  Dict.get_merge snapshot pending path

theorem BatcherRun.Kept.write (kept : s.Kept tree) (files : Tree) :
    BatcherRun.Kept { s with
      writes := s.writes ++ [files]
      batcher := { s.batcher with pendingFiles := s.batcher.pendingFiles.merge files } } tree := by
  have grows : ∀ path, (latestWrites s.writes).contains path = true →
      (latestWrites (s.writes ++ [files])).contains path = true := by
    intro path written
    rw [Dict.contains] at written ⊢
    rw [latestWrites_concat, get_commit, Option.isSome_or, written, Bool.or_true]
  have before : ∀ count, count ≤ s.writes.length →
      (s.writes ++ [files]).take count = s.writes.take count :=
    fun count within => List.take_append_of_le_length within
  have counted : ∀ (n : Nat) count, s.counts[n]? = some count → count ≤ s.writes.length :=
    fun n count found => kept.counted count (List.mem_of_getElem? found)
  constructor
  case head => exact kept.head
  case lengths => exact kept.lengths
  case base => exact kept.base
  case answers => exact kept.answers
  case bases => exact kept.bases
  case counted =>
    intro count member
    rw [List.length_append]
    exact le_add_right (kept.counted count member)
  case held =>
    intro held member
    rw [List.length_append]
    exact le_add_right (kept.held held member)
  case inProgress => exact kept.inProgress
  case pending =>
    intro path present
    rw [Dict.contains, Dict.get_merge, Option.isSome_or, Bool.or_eq_true] at present
    rcases present with present | present
    · rw [Dict.contains, latestWrites_concat, get_commit, Option.isSome_or, present, Bool.true_or]
    · exact grows path (kept.pending path present)
  case sent => exact fun send member path present => grows path (kept.sent send member path present)
  case newest =>
    intro path content written
    rw [latestWrites_concat, get_commit] at written
    rw [get_commit, Dict.get_merge]
    cases present : files.get path with
    | some new =>
        rw [present] at written
        exact written
    | none =>
        rw [present] at written
        have newest := kept.newest path content written
        rw [get_commit] at newest
        exact newest
  case opened =>
    intro n send is
    obtain ⟨count, found, most, holds⟩ := kept.opened n send is
    refine ⟨count, found, most, ?_⟩
    rw [before count (counted n count found)]
    exact holds
  case restored =>
    intro n send is path present
    rcases kept.restored n send is path present with pending | flying
    · left
      rw [Dict.contains] at pending ⊢
      rw [Dict.get_merge, Option.isSome_or, pending, Bool.or_true]
    · exact Or.inr flying
  case landed => exact kept.landed
  case holds =>
    intro i tree count atBranch atHolds
    rw [before count (kept.held count (List.mem_of_getElem? atHolds))]
    exact kept.holds i tree count atBranch atHolds
  case sorted => exact kept.sorted
  case landedAt => exact kept.landedAt

/-- The state after a commit was sent. -/
def BatcherRun.sending (s : BatcherRun) : BatcherRun :=
  s.become (s.repo.send s.batcher.baseSha s.batcher.pendingFiles)
    { s.batcher with
      pendingFiles := .empty
      inProgress := some s.repo.sends.length }

theorem BatcherRun.sending_counts : s.sending.counts = s.counts ++ [s.writes.length] := by
  simp [BatcherRun.sending, BatcherRun.become, Repository.send]

theorem BatcherRun.sending_sends : s.sending.repo.sends =
    s.repo.sends ++ [{ base := s.batcher.baseSha, files := s.batcher.pendingFiles }] := rfl

theorem BatcherRun.sending_flying : s.sending.flying = s.batcher.pendingFiles :=
  BatcherRun.flying_eq (s := s.sending) rfl (by
    rw [BatcherRun.sending_sends, List.getElem?_concat_length])

theorem sending_cases {n : Nat} {send : Send} (found : s.sending.repo.sends[n]? = some send) :
    s.repo.sends[n]? = some send ∨ n = s.repo.sends.length ∧
      send = { base := s.batcher.baseSha, files := s.batcher.pendingFiles } := by
  rw [BatcherRun.sending_sends] at found
  rcases Nat.lt_or_ge n s.repo.sends.length with inside | outside
  · rw [List.getElem?_append_left inside] at found
    exact Or.inl found
  · rw [List.getElem?_append_right outside, List.getElem?_singleton] at found
    split at found
    · exact Or.inr ⟨by omega, (Option.some.inj found).symm⟩
    · cases found

theorem BatcherRun.Kept.send (kept : s.Kept tree) (idle : s.batcher.inProgress = none) :
    s.sending.Kept tree := by
  have flying := BatcherRun.flying_idle idle
  have countedAt : ∀ (n : Nat) count, s.counts[n]? = some count →
      s.sending.counts[n]? = some count := by
    intro n count found
    rw [BatcherRun.sending_counts,
      List.getElem?_append_left (List.getElem?_eq_some_iff.mp found).1]
    exact found
  constructor
  case head => exact kept.head
  case lengths =>
    rw [BatcherRun.sending_counts, BatcherRun.sending_sends, List.length_append, List.length_append]
    exact ⟨congrArg (· + 1) kept.lengths.1, kept.lengths.2⟩
  case base => exact kept.base
  case answers => exact kept.answers
  case bases =>
    intro send member
    rcases List.mem_append.mp member with member | member
    · exact kept.bases send member
    · obtain rfl := List.mem_singleton.mp member
      exact kept.base
  case counted =>
    rw [BatcherRun.sending_counts]
    intro count member
    rcases List.mem_append.mp member with member | member
    · exact kept.counted count member
    · exact (List.mem_singleton.mp member).le
  case held => exact kept.held
  case inProgress =>
    rintro n ⟨⟩
    rw [BatcherRun.sending_sends, List.length_append]
    exact Nat.lt_add_one _
  case pending => exact fun path present => absurd present Bool.false_ne_true
  case sent =>
    intro send member
    rcases List.mem_append.mp member with member | member
    · exact kept.sent send member
    · obtain rfl := List.mem_singleton.mp member
      exact kept.pending
  case newest =>
    rw [BatcherRun.sending_flying]
    intro path content written
    have newest := kept.newest path content written
    rw [flying, get_commit, commit_empty] at newest
    exact (commit_empty _ path).trans ((get_commit _ _ _).trans newest)
  case opened =>
    rintro n send ⟨found, status, base⟩
    rcases sending_cases found with old | ⟨rfl, rfl⟩
    · obtain ⟨count, at_, rest⟩ := kept.opened n send ⟨old, status, base⟩
      exact ⟨count, countedAt n count at_, rest⟩
    · refine ⟨s.writes.length, ?_, kept.held, ?_⟩
      · rw [BatcherRun.sending_counts, ← kept.lengths.1, List.getElem?_concat_length]
      · intro path content written
        rw [show s.sending.writes = s.writes from rfl, List.take_length] at written
        have newest := kept.newest path content written
        rw [flying, get_commit, commit_empty] at newest
        exact (get_commit _ _ _).trans newest
  case restored =>
    rintro n send ⟨found, status, base⟩ path present
    right
    rw [BatcherRun.sending_flying]
    rcases sending_cases found with old | ⟨rfl, rfl⟩
    · rcases kept.restored n send ⟨old, status, base⟩ path present with pending | inFlight
      · exact pending
      · rw [flying, Dict.contains_empty] at inFlight
        cases inFlight
    · exact present
  case landed =>
    rintro n send sha ⟨⟩ found status
    rcases sending_cases found with old | ⟨-, rfl⟩
    · have inside := (List.getElem?_eq_some_iff.mp old).1
      omega
    · cases status
  case holds => exact kept.holds
  case sorted => exact kept.sorted
  case landedAt =>
    intro n send sha found status
    rcases sending_cases found with old | ⟨-, rfl⟩
    · obtain ⟨counted, at_⟩ := kept.landedAt n send sha old status
      obtain ⟨count, same⟩ := Option.isSome_iff_exists.mp counted
      rw [countedAt n count same]
      exact ⟨rfl, at_.trans same⟩
    · cases status

theorem awaited_eq_some {repo : Repository} {b : GitBatcher} {send : Send}
    (awaited : b.awaited repo = some send) :
    ∃ n, b.inProgress = some n ∧ repo.sends[n]? = some send :=
  Option.bind_eq_some_iff.mp awaited

theorem BatcherRun.Kept.succeed (kept : s.Kept tree) {batcher : GitBatcher} {now : Nat}
    (succeeded : s.batcher.succeed s.repo now = some batcher) :
    BatcherRun.Kept { s with batcher } tree := by
  unfold GitBatcher.succeed at succeeded
  split at succeeded
  · rename_i base files sha awaited
    obtain rfl := Option.some.inj succeeded
    obtain ⟨n, inProgress, found⟩ := awaited_eq_some awaited
    obtain ⟨there, closed⟩ := kept.landed n _ sha inProgress found rfl
    obtain ⟨counted, at_⟩ := kept.landedAt n _ sha found rfl
    have flying := BatcherRun.flying_eq inProgress found
    constructor
    case head => exact kept.head
    case lengths => exact kept.lengths
    case base =>
      have inside := lt_of_held counted at_
      have := (head_of_headTree kept.head).2
      have := kept.lengths.2
      show sha ≤ s.repo.head
      omega
    case answers => exact kept.answers
    case bases => exact kept.bases
    case counted => exact kept.counted
    case held => exact kept.held
    case inProgress => exact fun n member => nomatch member
    case pending => exact kept.pending
    case sent => exact kept.sent
    case newest =>
      rw [BatcherRun.flying_idle rfl]
      intro path content written
      have newest := kept.newest path content written
      rw [flying] at newest
      rw [get_commit, get_commit] at newest
      rw [get_commit, commit_empty]
      cases present : files.get path with
      | none =>
          rw [present] at newest
          exact newest
      | some other =>
          rw [present, Option.some_or, ← there path other present] at newest
          exact newest
    case opened => exact fun other send is => absurd is (closed other send)
    case restored => exact fun other send is => absurd is (closed other send)
    case landed => exact fun n send sha inProgress => nomatch inProgress
    case holds => exact kept.holds
    case sorted => exact kept.sorted
    case landedAt => exact kept.landedAt
  · cases succeeded

theorem BatcherRun.Kept.fail (kept : s.Kept tree) {batcher : GitBatcher} {answer : Option Nat}
    (known : ∀ sha ∈ answer, sha ≤ s.repo.head)
    (failed : s.batcher.failAt s.repo answer = some batcher) :
    BatcherRun.Kept { s with batcher } tree := by
  obtain ⟨send, awaited, rfl⟩ := Option.map_eq_some_iff.mp failed
  obtain ⟨n, inProgress, found⟩ := awaited_eq_some awaited
  have flying := BatcherRun.flying_eq inProgress found
  have back : ∀ path, (restorePending s.batcher.pendingFiles send.files).contains path =
      (s.batcher.pendingFiles.contains path || s.flying.contains path) := by
    intro path
    rw [Dict.contains, get_restorePending, Option.isSome_or, flying]
    rfl
  constructor
  case head => exact kept.head
  case lengths => exact kept.lengths
  case base =>
    cases answer with
    | none => exact kept.base
    | some sha => exact known sha rfl
  case answers => exact kept.answers
  case bases => exact kept.bases
  case counted => exact kept.counted
  case held => exact kept.held
  case inProgress =>
    intro n member
    cases member
  case pending =>
    intro path present
    rw [back, Bool.or_eq_true, flying] at present
    rcases present with present | present
    · exact kept.pending path present
    · exact kept.sent send (List.mem_of_getElem? found) path present
  case sent => exact kept.sent
  case newest =>
    rw [BatcherRun.flying_idle rfl]
    intro path content written
    have newest := kept.newest path content written
    rw [flying, get_commit, get_commit, ← Option.or_assoc] at newest
    rw [get_commit, commit_empty, get_restorePending]
    exact newest
  case opened => exact kept.opened
  case restored =>
    intro other send is path present
    left
    rw [back, Bool.or_eq_true]
    exact kept.restored other send is path present
  case landed =>
    intro n send sha inProgress
    cases inProgress
  case holds => exact kept.holds
  case sorted => exact kept.sorted
  case landedAt => exact kept.landedAt

/-! ## Updates of the branch -/

theorem setStatus_cases {repo : Repository} {n k : Nat} {send other : Send} {status : SendStatus}
    (found : (repo.setStatus n send status).sends[k]? = some other) :
    k = n ∧ other = { send with status } ∨ k ≠ n ∧ repo.sends[k]? = some other := by
  rw [Repository.setStatus, List.getElem?_set] at found
  split at found
  · rename_i same
    split at found
    · exact Or.inl ⟨same.symm, (Option.some.inj found).symm⟩
    · cases found
  · rename_i different
    exact Or.inr ⟨fun same => different same.symm, found⟩

theorem flying_congr (sends : ∀ k : Nat, ((s'.repo.sends[k]?).map Send.files) =
    (s.repo.sends[k]?).map Send.files) (batcher : s'.batcher = s.batcher) :
    s'.flying = s.flying := by
  unfold BatcherRun.flying GitBatcher.awaited
  rw [batcher]
  cases s.batcher.inProgress with
  | none => rfl
  | some n => exact congrArg (·.getD .empty) (sends n)

theorem setStatus_files {repo : Repository} {n : Nat} {send : Send}
    (found : repo.sends[n]? = some send) (status : SendStatus) (k : Nat) :
    ((repo.setStatus n send status).sends[k]?).map Send.files = (repo.sends[k]?).map Send.files := by
  rw [Repository.setStatus, List.getElem?_set]
  split
  · rename_i same
    subst same
    rw [if_pos (List.getElem?_eq_some_iff.mp found).1, found]
    rfl
  · rfl

theorem mem_setStatus {repo : Repository} {n : Nat} {send other : Send} {status : SendStatus}
    (found : repo.sends[n]? = some send) (member : other ∈ (repo.setStatus n send status).sends) :
    ∃ before ∈ repo.sends, other.base = before.base ∧ other.files = before.files := by
  rcases List.mem_or_eq_of_mem_set member with member | rfl
  · exact ⟨other, member, rfl, rfl⟩
  · exact ⟨send, List.mem_of_getElem? found, rfl, rfl⟩

theorem BatcherRun.Kept.reject (kept : s.Kept tree) {n : Nat} {send : Send}
    (found : s.repo.sends[n]? = some send) :
    BatcherRun.Kept { s with repo := s.repo.setStatus n send .rejected } tree := by
  have flying : BatcherRun.flying { s with repo := s.repo.setStatus n send .rejected } = s.flying :=
    flying_congr (setStatus_files found .rejected) rfl
  have opened : ∀ k other,
      BatcherRun.Open { s with repo := s.repo.setStatus n send .rejected } k other →
      s.Open k other := by
    rintro k other ⟨at_, status, base⟩
    rcases setStatus_cases at_ with ⟨-, rfl⟩ | ⟨-, same⟩
    · cases status
    · exact ⟨same, status, base⟩
  constructor
  case head => exact kept.head
  case lengths =>
    rw [show (s.repo.setStatus n send .rejected).sends.length = s.repo.sends.length from
      List.length_set]
    exact kept.lengths
  case base => exact kept.base
  case answers => exact kept.answers
  case bases =>
    intro other member
    obtain ⟨before, member, base, -⟩ := mem_setStatus found member
    rw [base]
    exact kept.bases before member
  case counted => exact kept.counted
  case held => exact kept.held
  case inProgress =>
    rw [show (s.repo.setStatus n send .rejected).sends.length = s.repo.sends.length from
      List.length_set]
    exact kept.inProgress
  case pending => exact kept.pending
  case sent =>
    intro other member
    obtain ⟨before, member, -, files⟩ := mem_setStatus found member
    rw [files]
    exact kept.sent before member
  case newest =>
    rw [flying]
    exact kept.newest
  case opened => exact fun k other is => kept.opened k other (opened k other is)
  case restored =>
    rw [flying]
    exact fun k other is => kept.restored k other (opened k other is)
  case landed =>
    intro k other sha inProgress at_ status
    rcases setStatus_cases at_ with ⟨-, rfl⟩ | ⟨-, same⟩
    · cases status
    · obtain ⟨there, closed⟩ := kept.landed k other sha inProgress same status
      exact ⟨there, fun k other is => closed k other (opened k other is)⟩
  case holds => exact kept.holds
  case sorted => exact kept.sorted
  case landedAt =>
    intro k other sha at_ status
    rcases setStatus_cases at_ with ⟨-, rfl⟩ | ⟨-, same⟩
    · cases status
    · exact kept.landedAt k other sha same status

/-- The state after the branch was updated with a commit. -/
def BatcherRun.landing (s : BatcherRun) (n : Nat) (send : Send) (count : Nat) : BatcherRun :=
  { s with
    repo := (s.repo.push send.files).setStatus n send (.landed s.repo.branch.length)
    holds := s.holds ++ [count] }

theorem BatcherRun.Kept.take (kept : s.Kept tree) {n : Nat} {send : Send} {count : Nat}
    (is : s.Open n send) (counted : s.counts[n]? = some count) :
    (s.landing n send count).Kept (tree.commit send.files) := by
  obtain ⟨branch, sends, head⟩ := head_push send.files kept.head
  have found : (s.repo.push send.files).sends[n]? = some send := by
    rw [sends]
    exact is.1
  have flying : (s.landing n send count).flying = s.flying :=
    flying_congr (fun k => (setStatus_files found _ k).trans (by rw [sends])) rfl
  have length : (s.landing n send count).repo.sends.length = s.repo.sends.length := by
    simp [BatcherRun.landing, Repository.setStatus, sends]
  have head : (s.landing n send count).repo.head = s.repo.head + 1 := head
  have bases : ∀ other ∈ (s.landing n send count).repo.sends, other.base ≤ s.repo.head := by
    intro other member
    obtain ⟨before, member, base, -⟩ := mem_setStatus found member
    rw [base]
    exact kept.bases before (sends ▸ member)
  have closed : ∀ k other, ¬ (s.landing n send count).Open k other := by
    rintro k other ⟨at_, -, base⟩
    have := bases other (List.mem_of_getElem? at_)
    omega
  obtain ⟨count', counted', most, holds⟩ := kept.opened n send is
  obtain rfl := Option.some.inj (counted.symm.trans counted')
  constructor
  case head => exact (headTree_congr rfl).trans (headTree_push kept.head)
  case lengths =>
    rw [length]
    simp only [BatcherRun.landing, Repository.setStatus, branch, List.length_append,
      List.length_singleton]
    exact ⟨kept.lengths.1, congrArg (· + 1) kept.lengths.2⟩
  case base =>
    rw [head]
    exact le_trans kept.base (Nat.le_succ _)
  case answers =>
    rw [head]
    exact fun sha member => le_trans (kept.answers sha member) (Nat.le_succ _)
  case bases =>
    rw [head]
    exact fun other member => le_trans (bases other member) (Nat.le_succ _)
  case counted => exact kept.counted
  case held =>
    intro held member
    rcases List.mem_append.mp member with member | member
    · exact kept.held held member
    · obtain rfl := List.mem_singleton.mp member
      exact kept.counted _ (List.mem_of_getElem? counted)
  case inProgress =>
    rw [length]
    exact kept.inProgress
  case pending => exact kept.pending
  case sent =>
    intro other member
    obtain ⟨before, member, -, files⟩ := mem_setStatus found member
    rw [files]
    exact kept.sent before (sends ▸ member)
  case newest =>
    rw [flying]
    intro path content written
    have newest := kept.newest path content written
    rw [get_commit, get_commit] at newest ⊢
    cases pending : s.batcher.pendingFiles.get path with
    | some _ =>
        rw [pending] at newest
        exact (congrArg (Option.or · _) pending).trans newest
    | none =>
        rw [pending, Option.none_or] at newest
        rw [show (s.landing n send count).batcher.pendingFiles.get path = none from pending,
          Option.none_or]
        cases inFlight : s.flying.get path with
        | some _ =>
            rw [inFlight] at newest
            exact newest
        | none =>
            rw [inFlight, Option.none_or] at newest
            have apart : send.files.get path = none := by
              refine get_of_not_contains ?_
              rw [Bool.eq_false_iff]
              intro present
              rcases kept.restored n send is path present with there | there
              · rw [Dict.contains, pending] at there
                cases there
              · rw [Dict.contains, inFlight] at there
                cases there
            rw [Option.none_or, get_commit, apart, Option.none_or]
            exact newest
  case opened => exact fun k other is => absurd is (closed k other)
  case restored => exact fun k other is => absurd is (closed k other)
  case landed =>
    intro k other sha inProgress at_ status
    refine ⟨?_, closed⟩
    rcases setStatus_cases at_ with ⟨-, rfl⟩ | ⟨different, same⟩
    · intro path content present
      rw [get_commit, show send.files.get path = some content from present, Option.some_or]
    · rw [sends] at same
      exact absurd is ((kept.landed k other sha inProgress same status).2 n send)
  case holds =>
    intro i tree' held atBranch atHolds
    refine holds_concat kept.lengths.2 kept.holds holds i tree' held ?_ atHolds
    rw [← branch]
    exact atBranch
  case sorted => exact sorted_concat kept.sorted most
  case landedAt =>
    intro k other sha at_ status
    rcases setStatus_cases at_ with ⟨rfl, rfl⟩ | ⟨different, same⟩
    · obtain rfl := SendStatus.landed.inj status
      refine ⟨by rw [show (s.landing k send count).counts = s.counts from rfl, counted]; rfl, ?_⟩
      rw [show (s.landing k send count).counts = s.counts from rfl, counted, ← kept.lengths.2]
      exact List.getElem?_concat_length
    · rw [sends] at same
      obtain ⟨counted, held⟩ := kept.landedAt k other sha same status
      refine ⟨counted, ?_⟩
      have inside := lt_of_held counted held
      exact (List.getElem?_append_left inside).trans held

theorem BatcherRun.Kept.land (kept : s.Kept tree) {repo : Repository} {n : Nat}
    (landed : s.repo.land n = some repo) :
    ∃ tree', BatcherRun.Kept { s with
      repo
      holds := s.holds ++
        List.replicate (repo.branch.length - s.repo.branch.length) (s.counts.getD n 0) } tree' := by
  unfold Repository.land at landed
  split at landed
  · rename_i send found
    split at landed
    · cases landed
    · rename_i unsettled
      rw [ne_eq, not_not] at unsettled
      split at landed
      · rename_i current
        obtain rfl := Option.some.inj landed
        have is : s.Open n send := ⟨found, unsettled, current⟩
        obtain ⟨count, counted, -⟩ := kept.opened n send is
        have grown : s.holds ++ List.replicate
            (((s.repo.push send.files).setStatus n send (.landed s.repo.branch.length)).branch.length -
              s.repo.branch.length) (s.counts.getD n 0) = s.holds ++ [count] := by
          rw [show ((s.repo.push send.files).setStatus n send _).branch = _ from
            (head_push send.files kept.head).1, List.length_append, Nat.add_sub_cancel_left,
            List.getD_eq_getElem?_getD, counted]
          rfl
        refine ⟨tree.commit send.files, ?_⟩
        rw [grown]
        exact kept.take is counted
      · obtain rfl := Option.some.inj landed
        refine ⟨tree, ?_⟩
        rw [show (s.repo.setStatus n send .rejected).branch = s.repo.branch from rfl, Nat.sub_self,
          List.replicate_zero, List.append_nil]
        exact kept.reject found
  · cases landed

/-! ## Runs -/

theorem BatcherRun.Kept.commits (kept : s.Kept tree) :
    (s.become (s.batcher.startCommit s.repo).1 (s.batcher.startCommit s.repo).2).Kept tree := by
  unfold GitBatcher.startCommit
  split
  · rw [BatcherRun.become, Nat.sub_self, List.replicate_zero, List.append_nil]
    exact kept
  · rename_i starts
    rw [not_or, Bool.not_eq_true, Option.isSome_eq_false_iff, Option.isNone_iff_eq_none] at starts
    exact kept.send starts.1

theorem BatcherRun.step_write (s : BatcherRun) (files : Tree) (now : Nat) :
    s.step (.write files now) =
      some (BatcherRun.become { s with writes := s.writes ++ [files] }
        (s.batcher.write s.repo files now).1 (s.batcher.write s.repo files now).2) := rfl

theorem BatcherRun.Kept.step (kept : s.Kept tree) {e : BatcherEvent} (stepped : s.step e = some s') :
    ∃ tree', s'.Kept tree' := by
  cases e with
  | external files =>
      simp only [BatcherRun.step] at stepped
      split at stepped
      · obtain rfl := Option.some.inj stepped
        exact ⟨_, kept.external ‹_›⟩
      · cases stepped
  | write files now =>
      rw [BatcherRun.step_write] at stepped
      obtain rfl := Option.some.inj stepped
      have written := kept.write files
      simp only [GitBatcher.write]
      split
      · exact ⟨tree, written.commits⟩
      · refine ⟨tree, ?_⟩
        rw [BatcherRun.become, Nat.sub_self, List.replicate_zero, List.append_nil]
        exact written
  | flush =>
      obtain rfl := Option.some.inj stepped
      exact ⟨tree, kept.commits⟩
  | land n =>
      obtain ⟨repo, landed, rfl⟩ := Option.map_eq_some_iff.mp stepped
      exact kept.land landed
  | succeed now =>
      obtain ⟨batcher, succeeded, rfl⟩ := Option.map_eq_some_iff.mp stepped
      exact ⟨tree, kept.succeed succeeded⟩
  | readHead =>
      obtain rfl := Option.some.inj stepped
      refine ⟨tree, { kept with answers := ?_ }⟩
      intro sha member
      rcases List.mem_append.mp member with member | member
      · exact kept.answers sha member
      · exact (List.mem_singleton.mp member).le
  | fail answer =>
      cases answer with
      | none =>
          obtain ⟨batcher, failed, rfl⟩ := Option.map_eq_some_iff.mp stepped
          exact ⟨tree, kept.fail (by simp) failed⟩
      | some answer =>
          obtain ⟨sha, found, stepped⟩ := Option.bind_eq_some_iff.mp stepped
          obtain ⟨batcher, failed, rfl⟩ := Option.map_eq_some_iff.mp stepped
          refine ⟨tree, kept.fail ?_ failed⟩
          intro given is
          obtain rfl := Option.some.inj is
          exact kept.answers sha (List.mem_of_getElem? found)
  | refreshBaseSha answer =>
      obtain ⟨sha, found, rfl⟩ := Option.map_eq_some_iff.mp stepped
      exact ⟨tree, { kept with base := kept.answers sha (List.mem_of_getElem? found) }⟩

theorem kept_start {branch : List Tree} {baseSha : Nat} (known : baseSha < branch.length) :
    ∃ tree, (BatcherRun.start branch baseSha).Kept tree := by
  have inside : branch.length - 1 < branch.length := by omega
  refine ⟨branch[branch.length - 1], ?_⟩
  constructor
  case head => exact List.getElem?_eq_getElem inside
  case lengths => exact ⟨rfl, List.length_replicate⟩
  case base =>
    show baseSha ≤ branch.length - 1
    omega
  case holds =>
    intro i tree count _ atHolds path content written
    rw [(List.mem_replicate.mp (List.mem_of_getElem? atHolds)).2] at written
    cases written
  case sorted => exact List.pairwise_replicate.mpr (Or.inr le_rfl)
  case held => exact fun held member => (List.mem_replicate.mp member).2.le
  case newest =>
    intro path content written
    rw [show latestWrites (BatcherRun.start branch baseSha).writes = .empty from rfl,
      Dict.get_empty] at written
    cases written
  case opened => exact fun n send is => absurd is.1 (by simp [BatcherRun.start])
  case restored => exact fun n send is => absurd is.1 (by simp [BatcherRun.start])
  case landedAt => exact fun n send sha found => absurd found (by simp [BatcherRun.start])
  all_goals simp [BatcherRun.start]

/-- In every run of one batcher, the latest value of each path is pending, in the one commit in
flight or at the head of the branch. Every commit that the branch took has, for each path, the latest
value from before its snapshot; and along the branch no value is replaced by an older one: each
commit of the branch holds the latest values of the first so many writes, and their number never
falls. -/
theorem batched_writes_kept {branch : List Tree} {baseSha : Nat} (known : baseSha < branch.length)
    {events : List BatcherEvent} {s : BatcherRun}
    (ran : run BatcherRun.step (.start branch baseSha) events = some s) :
    (∀ path content, (latestWrites s.writes).get path = some content →
      s.batcher.pendingFiles.get path = some content ∨
      s.batcher.pendingFiles.get path = none ∧ s.flying.get path = some content ∨
      s.batcher.pendingFiles.get path = none ∧ s.flying.get path = none ∧
        ∃ tree, s.repo.headTree = some tree ∧ tree.get path = some content) ∧
    (∀ (n : Nat) (send : Send) (sha : Nat), s.repo.sends[n]? = some send →
      send.status = .landed sha → ∃ tree count, s.repo.branch[sha]? = some tree ∧
        s.counts[n]? = some count ∧ s.holds[sha]? = some count ∧
        tree.Holds (s.writes.take count)) ∧
    s.holds.length = s.repo.branch.length ∧ s.holds.Pairwise (· ≤ ·) ∧
    ∀ (i : Nat) (tree : Tree) count, s.repo.branch[i]? = some tree → s.holds[i]? = some count →
      tree.Holds (s.writes.take count) := by
  have preserved : ∀ (s : BatcherRun) e s', (∃ tree, s.Kept tree) → s.step e = some s' →
      ∃ tree, s'.Kept tree := fun s e s' ⟨tree, kept⟩ stepped => kept.step stepped
  obtain ⟨tree, kept⟩ := run_invariant ran preserved (kept_start known)
  refine ⟨?_, ?_, kept.lengths.2, kept.sorted, kept.holds⟩
  · intro path content written
    have newest := kept.newest path content written
    rw [get_commit, get_commit] at newest
    cases pending : s.batcher.pendingFiles.get path with
    | some other =>
        rw [pending] at newest
        exact Or.inl newest
    | none =>
        rw [pending, Option.none_or] at newest
        cases inFlight : s.flying.get path with
        | some other =>
            rw [inFlight] at newest
            exact Or.inr (Or.inl ⟨rfl, newest⟩)
        | none =>
            rw [inFlight] at newest
            exact Or.inr (Or.inr ⟨rfl, rfl, tree, kept.head, newest⟩)
  · intro n send sha found status
    obtain ⟨counted, held⟩ := kept.landedAt n send sha found status
    obtain ⟨count, same⟩ := Option.isSome_iff_exists.mp counted
    have inside : sha < s.repo.branch.length := kept.lengths.2 ▸ lt_of_held counted held
    exact ⟨_, count, List.getElem?_eq_getElem inside, same, held.trans same,
      kept.holds sha _ count (List.getElem?_eq_getElem inside) (held.trans same)⟩

def sampleFile (content : String) : Tree := .ofList [(.other "a", .text content)]

/-- A first commit lands and its answer is lost; a newer value comes before it is put back. -/
def lostAnswer : List BatcherEvent :=
  [.write (sampleFile "1") 600, .land 0, .write (sampleFile "2") 601, .readHead, .fail (some 0),
    .flush, .land 1, .succeed 700]

/-- The run after the events. -/
def batchedAfter (events : List BatcherEvent) : BatcherRun :=
  (run BatcherRun.step (.start [.empty] 0) events).getD (.start [.empty] 0)

theorem run_batchedAfter
    (runs : (run BatcherRun.step (.start [.empty] 0) lostAnswer).isSome = true) :
    run BatcherRun.step (.start [.empty] 0) lostAnswer = some (batchedAfter lostAnswer) := by
  obtain ⟨s, ran⟩ := Option.isSome_iff_exists.mp runs
  rw [batchedAfter, ran]
  rfl

theorem batched_writes_kept_sample :
    ∃ tree, (batchedAfter lostAnswer).repo.headTree = some tree ∧
      tree.get (.other "a") = some (.text "2") := by
  have known : 0 < [(.empty : Tree)].length := Nat.zero_lt_one
  have kept := batched_writes_kept known (run_batchedAfter (by decide +kernel))
  rcases kept.1 (.other "a") (.text "2") (by decide +kernel) with pending | flying | head
  · exact absurd pending (by decide +kernel)
  · exact absurd flying.2 (by decide +kernel)
  · exact head.2.2

end GenSubnet.Competition
