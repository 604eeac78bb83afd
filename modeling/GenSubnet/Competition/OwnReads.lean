import GenSubnet.Competition.BatchedWrites

/-!
# Reads of one's own writes

`GitBatcher.read` looks into the pending files and then at the commit that the batcher knows. While a
commit is in flight its files are in neither, so a read finds the latest write exactly when its path
is not in flight, or is pending again, or the known commit has the same content.
-/

namespace GenSubnet.Competition
open Library

/-! ## Runs -/

/-- A batcher whose coroutines write, flush and read. -/
structure ReaderRun where
  repo : Repository
  batcher : GitBatcher
  /-- The commit in flight raised: what `get_ref_sha` has read since, if anything. -/
  refreshing : Option (Option Nat) := none
  /-- The last write of each path, unless someone else has committed the path since. -/
  latest : Path → Option Content := fun _ => none

def ReaderRun.start (branch : List Tree) (baseSha : Nat) : ReaderRun where
  repo := { branch }
  batcher := { baseSha }

/-- `GitBatcher.read`: it depends on the state in which it begins alone. -/
def ReaderRun.read (s : ReaderRun) (path : Path) : Option Content :=
  match s.batcher.pendingFiles.get path with
  | some content => some content
  | none => s.repo.branch[s.batcher.baseSha]?.bind fun tree => tree.get path

inductive ReaderEvent
  /-- Someone else commits. -/
  | external (files : Tree)
  /-- `write` and `write_many` -/
  | write (files : Tree) (now : Nat)
  | flush
  /-- The branch is updated with a commit that was sent, even if the commit raised. -/
  | land (send : Nat)
  | succeed (now : Nat)
  /-- The commit in flight raised. -/
  | raise
  /-- `get_ref_sha` of the failed commit reads the head. -/
  | readHead
  /-- It returns, or it raises too. -/
  | restore (returns : Bool)

def ReaderRun.step (s : ReaderRun) : ReaderEvent → Option ReaderRun
  | .external files => some { s with
      repo := s.repo.push files
      latest := fun path => if files.contains path then none else s.latest path }
  | .write files now =>
      let (repo, batcher) := s.batcher.write s.repo files now
      some { s with repo, batcher, latest := fun path => (files.get path).or (s.latest path) }
  | .flush =>
      let (repo, batcher) := s.batcher.flush s.repo
      some { s with repo, batcher }
  | .land n => (s.repo.land n).map fun repo => { s with repo }
  | .succeed now =>
      if s.refreshing.isSome then none
      else (s.batcher.succeed s.repo now).map fun batcher => { s with batcher }
  | .raise =>
      if s.batcher.inProgress.isSome ∧ s.refreshing = none then some { s with refreshing := some none }
      else none
  | .readHead =>
      if s.refreshing = some none then some { s with refreshing := some (some s.repo.head) } else none
  | .restore returns =>
      match s.refreshing with
      | some answer => (s.batcher.failAt s.repo (if returns then answer else none)).map
          fun batcher => { s with batcher, refreshing := none }
      | none => none

/-- The files of the commit in flight. -/
def ReaderRun.flying (s : ReaderRun) : Tree :=
  ((s.batcher.awaited s.repo).map Send.files).getD .empty

/-! ## Where the latest write is -/

/-- From this commit on, the path has this content. -/
def Stays (branch : List Tree) (sha : Nat) (path : Path) (content : Content) : Prop :=
  ∀ i tree, sha ≤ i → branch[i]? = some tree → tree.get path = some content

/-- What the batcher knows of the branch is true. -/
structure ReaderRun.Ordered (s : ReaderRun) : Prop where
  base : s.batcher.baseSha < s.repo.branch.length
  bases : ∀ send ∈ s.repo.sends, send.base ≤ s.batcher.baseSha
  inFlight : ∀ n, s.batcher.inProgress = some n → ∃ send, s.repo.sends[n]? = some send ∧
    ∀ sha, send.status = .landed sha → s.batcher.baseSha < sha ∧ sha < s.repo.branch.length
  answer : ∀ answer, s.refreshing = some (some answer) →
    s.batcher.baseSha ≤ answer ∧ answer < s.repo.branch.length

/-- The write is pending, in flight, or on the branch from the known commit on. -/
inductive ReaderRun.Place (s : ReaderRun) (path : Path) (content : Content) : Prop
  | pending (found : s.batcher.pendingFiles.get path = some content)
  | flying (absent : s.batcher.pendingFiles.get path = none) (found : s.flying.get path = some content)
      (landed : ∀ (n : Nat) (send : Send) sha, s.batcher.inProgress = some n →
        s.repo.sends[n]? = some send → send.status = .landed sha →
        Stays s.repo.branch sha path content)
  | settled (absent : s.batcher.pendingFiles.get path = none) (apart : s.flying.get path = none)
      (stays : Stays s.repo.branch s.batcher.baseSha path content)

/-- The files of a commit that can still be taken are in flight, or they were put back. -/
def ReaderRun.Restored (s : ReaderRun) (path : Path) : Prop :=
  ∀ send ∈ s.repo.sends, send.status = .sent → send.base = s.repo.head →
    send.files.contains path = true →
    s.batcher.pendingFiles.contains path = true ∨ s.flying.contains path = true

structure ReaderRun.Sound (s : ReaderRun) : Prop where
  ordered : s.Ordered
  restored : ∀ path, s.Restored path
  place : ∀ path content, s.latest path = some content → s.Place path content

variable {s s' : ReaderRun} {path : Path} {content : Content}

/-! ## The branch -/

theorem Stays.later {branch : List Tree} {sha later : Nat} (stays : Stays branch sha path content)
    (le : sha ≤ later) : Stays branch later path content :=
  fun i tree after found => stays i tree (le_trans le after) found

theorem Stays.concat {branch : List Tree} {tree : Tree} {sha : Nat}
    (stays : Stays branch sha path content) (new : tree.get path = some content) :
    Stays (branch ++ [tree]) sha path content := by
  intro i other after found
  rcases Nat.lt_or_ge i branch.length with inside | outside
  · rw [List.getElem?_append_left inside] at found
    exact stays i other after found
  · rw [List.getElem?_append_right outside, List.getElem?_singleton] at found
    split at found
    · obtain rfl := Option.some.inj found
      exact new
    · cases found

theorem stays_last {branch : List Tree} {tree : Tree} (new : tree.get path = some content) :
    Stays (branch ++ [tree]) branch.length path content := by
  apply Stays.concat _ new
  intro i other after found
  rw [List.getElem?_eq_none after] at found
  cases found

theorem ReaderRun.Ordered.headTree (ordered : s.Ordered) :
    ∃ tree, s.repo.headTree = some tree ∧ s.batcher.baseSha ≤ s.repo.head := by
  have inside := ordered.base
  have below : s.repo.head < s.repo.branch.length := by
    unfold Repository.head
    omega
  refine ⟨s.repo.branch[s.repo.head], List.getElem?_eq_getElem below, ?_⟩
  unfold Repository.head
  omega

theorem land_spec {repo repo' : Repository} {n : Nat} {tree : Tree}
    (head : repo.headTree = some tree) (landed : repo.land n = some repo') :
    ∃ send, repo.sends[n]? = some send ∧ send.status = .sent ∧
      ((send.base = repo.head ∧ repo'.branch = repo.branch ++ [tree.commit send.files] ∧
          repo'.sends = repo.sends.set n { send with status := .landed repo.branch.length }) ∨
        (send.base ≠ repo.head ∧ repo'.branch = repo.branch ∧
          repo'.sends = repo.sends.set n { send with status := .rejected })) := by
  unfold Repository.land at landed
  split at landed
  · rename_i send found
    split at landed
    · cases landed
    · rename_i sent
      refine ⟨send, found, not_not.mp sent, ?_⟩
      split at landed
      · rename_i current
        obtain rfl := Option.some.inj landed
        obtain ⟨branch, sends, _⟩ := head_push send.files head
        exact Or.inl ⟨current, branch, congrArg (List.set · n _) sends⟩
      · rename_i outdated
        obtain rfl := Option.some.inj landed
        exact Or.inr ⟨outdated, rfl, rfl⟩
  · cases landed

/-! ## The commit in flight -/

theorem ReaderRun.flying_eq {n : Nat} {send : Send} (inProgress : s.batcher.inProgress = some n)
    (sent : s.repo.sends[n]? = some send) : s.flying = send.files := by
  simp [ReaderRun.flying, GitBatcher.awaited, inProgress, sent]

theorem ReaderRun.flying_idle (idle : s.batcher.inProgress = none) : s.flying = .empty := by
  simp [ReaderRun.flying, GitBatcher.awaited, idle]

theorem mem_set_send {sends : List Send} {n : Nat} {send other : Send} {status : SendStatus}
    (found : sends[n]? = some send) (member : other ∈ sends.set n { send with status }) :
    ∃ before ∈ sends, other.base = before.base ∧ other.files = before.files := by
  rcases List.mem_or_eq_of_mem_set member with old | rfl
  · exact ⟨other, old, rfl, rfl⟩
  · exact ⟨send, List.mem_of_getElem? found, rfl, rfl⟩

theorem getElem?_set_send {sends : List Send} {n m : Nat} {send other : Send} {status : SendStatus}
    (found : sends[n]? = some send) (atM : (sends.set n { send with status })[m]? = some other) :
    (m = n ∧ other = { send with status }) ∨ (m ≠ n ∧ sends[m]? = some other) := by
  rw [List.getElem?_set] at atM
  split at atM
  · rename_i same
    split at atM
    · exact Or.inl ⟨same.symm, (Option.some.inj atM).symm⟩
    · cases atM
  · rename_i different
    exact Or.inr ⟨fun same => different same.symm, atM⟩

theorem ReaderRun.flying_set {repo : Repository} {n : Nat} {send : Send} {status : SendStatus}
    (found : s.repo.sends[n]? = some send) (sends : repo.sends = s.repo.sends.set n { send with status }) :
    ReaderRun.flying { s with repo } = s.flying := by
  unfold ReaderRun.flying GitBatcher.awaited
  cases s.batcher.inProgress with
  | none => rfl
  | some m =>
      simp only [Option.bind_some, sends]
      by_cases same : m = n
      · subst same
        have inside := (List.getElem?_eq_some_iff.mp found).1
        rw [List.getElem?_set_self inside, found]
        rfl
      · rw [List.getElem?_set_ne (fun h => same h.symm)]

theorem ReaderRun.Ordered.closed (ordered : s.Ordered) {send : Send} (member : send ∈ s.repo.sends)
    {length : Nat} (longer : s.repo.branch.length < length) : send.base ≠ length - 1 := by
  have below := ordered.bases send member
  have inside := ordered.base
  omega

/-! ## Steps -/

theorem ReaderRun.Sound.external (sound : s.Sound) (files : Tree) :
    ReaderRun.Sound { s with
      repo := s.repo.push files
      latest := fun path => if files.contains path then none else s.latest path } := by
  obtain ⟨tree, head, below⟩ := sound.ordered.headTree
  obtain ⟨branch, sends, headSha⟩ := head_push files head
  have longer : (s.repo.push files).branch.length = s.repo.branch.length + 1 := by
    rw [branch, List.length_append, List.length_singleton]
  have flying : ∀ latest, ReaderRun.flying { s with repo := s.repo.push files, latest } = s.flying := by
    intro latest
    simp only [ReaderRun.flying, GitBatcher.awaited, sends]
  refine ⟨⟨?_, ?_, ?_, ?_⟩, ?_, ?_⟩
  · have inside := sound.ordered.base
    simp only
    omega
  · rw [sends]
    exact sound.ordered.bases
  · intro n inProgress
    obtain ⟨send, found, landed⟩ := sound.ordered.inFlight n inProgress
    refine ⟨send, ?_, ?_⟩
    · rw [sends]
      exact found
    · intro sha at_sha
      have between := landed sha at_sha
      simp only
      omega
  · intro answer refreshing
    have between := sound.ordered.answer answer refreshing
    simp only
    omega
  · intro path send member status base
    simp only [sends] at member
    have closed : send.base ≠ s.repo.branch.length + 1 - 1 :=
      sound.ordered.closed member (by omega)
    rw [Repository.head, longer] at base
    exact absurd base closed
  · intro path content latest
    simp only at latest
    split at latest
    · cases latest
    · rename_i untouched
      have new : ∀ sha, sha ≤ s.repo.head → Stays s.repo.branch sha path content →
          Stays (s.repo.push files).branch sha path content := by
        intro sha le stays
        rw [branch]
        apply stays.concat
        rw [get_commit, get_of_not_contains (by simpa using untouched), Option.none_or]
        exact stays _ tree le head
      cases sound.place path content latest with
      | pending found => exact .pending found
      | flying absent found landed =>
          refine .flying absent (by rw [flying]; exact found) ?_
          intro n send sha inProgress sent status
          simp only [sends] at sent
          obtain ⟨other, same, between⟩ := sound.ordered.inFlight n inProgress
          obtain rfl := Option.some.inj (same.symm.trans sent)
          have range := between sha status
          apply new sha _ (landed n other sha inProgress sent status)
          unfold Repository.head
          omega
      | settled absent apart stays =>
          exact .settled absent (by rw [flying]; exact apart) (new _ below stays)

theorem ReaderRun.Ordered.first (ordered : s.Ordered) {n m : Nat} {send other : Send} {sha : Nat}
    (found : s.repo.sends[n]? = some send) (current : send.base = s.repo.head)
    (inProgress : s.batcher.inProgress = some m) (sent : s.repo.sends[m]? = some other) :
    other.status ≠ .landed sha := by
  intro status
  obtain ⟨same, found', between⟩ := ordered.inFlight m inProgress
  obtain rfl := Option.some.inj (found'.symm.trans sent)
  have range := between sha status
  have below := ordered.bases send (List.mem_of_getElem? found)
  rw [current] at below
  unfold Repository.head at below
  omega

theorem ReaderRun.Sound.landCurrent (sound : s.Sound) {n : Nat} {repo : Repository} {send : Send}
    {tree : Tree} (head : s.repo.headTree = some tree) (below : s.batcher.baseSha ≤ s.repo.head)
    (found : s.repo.sends[n]? = some send) (sent : send.status = .sent)
    (current : send.base = s.repo.head)
    (branch : repo.branch = s.repo.branch ++ [tree.commit send.files])
    (sends : repo.sends = s.repo.sends.set n { send with status := .landed s.repo.branch.length }) :
    ReaderRun.Sound { s with repo } := by
  have flying := s.flying_set found sends
  have longer : repo.branch.length = s.repo.branch.length + 1 := by
    rw [branch, List.length_append, List.length_singleton]
  have inside := sound.ordered.base
  have bases : ∀ other ∈ repo.sends, other.base ≤ s.batcher.baseSha := by
    intro other member
    rw [sends] at member
    obtain ⟨before, old, base, _⟩ := mem_set_send found member
    rw [base]
    exact sound.ordered.bases before old
  refine ⟨⟨?_, bases, ?_, ?_⟩, ?_, ?_⟩
  · simp only
    omega
  · intro m inProgress
    obtain ⟨other, atM, before⟩ := sound.ordered.inFlight m inProgress
    by_cases same : m = n
    · subst same
      refine ⟨{ send with status := .landed s.repo.branch.length }, ?_, ?_⟩
      · have place := (List.getElem?_eq_some_iff.mp found).1
        rw [sends, List.getElem?_set_self place]
      · rintro sha ⟨⟩
        simp only
        omega
    · refine ⟨other, ?_, ?_⟩
      · rw [sends, List.getElem?_set_ne (fun h => same h.symm)]
        exact atM
      · intro sha status
        have range := before sha status
        simp only
        omega
  · intro answer refreshing
    have between := sound.ordered.answer answer refreshing
    simp only
    omega
  · intro path other member status base
    have old := bases other member
    simp only [Repository.head, longer] at base
    omega
  · intro path content latest
    cases sound.place path content latest with
    | pending pending => exact .pending pending
    | flying absent flown landed =>
        refine .flying absent (by rw [flying]; exact flown) ?_
        intro m other sha inProgress atM status
        simp only [sends] at atM
        rcases getElem?_set_send found atM with ⟨rfl, rfl⟩ | ⟨_, old⟩
        · obtain rfl := SendStatus.landed.inj status
          simp only [branch]
          apply stays_last
          rw [ReaderRun.flying_eq (s := s) inProgress found] at flown
          rw [get_commit, flown, Option.some_or]
        · exact absurd status (sound.ordered.first found current inProgress old)
    | settled absent apart stays =>
        refine .settled absent (by rw [flying]; exact apart) ?_
        simp only [branch]
        apply stays.concat
        have untouched : send.files.get path = none := by
          cases touched : send.files.get path with
          | none => rfl
          | some other =>
              rcases sound.restored path send (List.mem_of_getElem? found) sent current
                (Dict.contains_of_get touched) with put | flown
              · simp [Dict.contains, absent] at put
              · simp [Dict.contains, apart] at flown
        rw [get_commit, untouched, Option.none_or]
        exact stays _ tree below head

theorem ReaderRun.Sound.landOutdated (sound : s.Sound) {n : Nat} {repo : Repository} {send : Send}
    (found : s.repo.sends[n]? = some send) (branch : repo.branch = s.repo.branch)
    (sends : repo.sends = s.repo.sends.set n { send with status := .rejected }) :
    ReaderRun.Sound { s with repo } := by
  have flying := s.flying_set found sends
  have head : repo.head = s.repo.head := by rw [Repository.head, branch, Repository.head]
  refine ⟨⟨?_, ?_, ?_, ?_⟩, ?_, ?_⟩
  · simp only [branch]
    exact sound.ordered.base
  · intro other member
    simp only [sends] at member
    obtain ⟨before, old, base, _⟩ := mem_set_send found member
    rw [base]
    exact sound.ordered.bases before old
  · intro m inProgress
    obtain ⟨other, atM, before⟩ := sound.ordered.inFlight m inProgress
    by_cases same : m = n
    · subst same
      refine ⟨{ send with status := .rejected }, ?_, ?_⟩
      · have place := (List.getElem?_eq_some_iff.mp found).1
        rw [sends, List.getElem?_set_self place]
      · rintro sha ⟨⟩
    · refine ⟨other, ?_, ?_⟩
      · rw [sends, List.getElem?_set_ne (fun h => same h.symm)]
        exact atM
      · simp only [branch]
        exact before
  · simp only [branch]
    exact sound.ordered.answer
  · intro path other member status base contains
    simp only [sends, head] at member base
    rw [flying]
    rcases List.mem_or_eq_of_mem_set member with old | rfl
    · exact sound.restored path other old status base contains
    · cases status
  · intro path content latest
    cases sound.place path content latest with
    | pending pending => exact .pending pending
    | flying absent flown landed =>
        refine .flying absent (by rw [flying]; exact flown) ?_
        intro m other sha inProgress atM status
        simp only [sends, branch] at atM ⊢
        rcases getElem?_set_send found atM with ⟨rfl, rfl⟩ | ⟨_, old⟩
        · cases status
        · exact landed m other sha inProgress old status
    | settled absent apart stays =>
        refine .settled absent (by rw [flying]; exact apart) ?_
        simp only [branch]
        exact stays

theorem ReaderRun.Sound.land (sound : s.Sound) {n : Nat} {repo : Repository}
    (landed : s.repo.land n = some repo) : ReaderRun.Sound { s with repo } := by
  obtain ⟨tree, head, below⟩ := sound.ordered.headTree
  obtain ⟨send, found, sent, outcome⟩ := land_spec head landed
  rcases outcome with ⟨current, branch, sends⟩ | ⟨_, branch, sends⟩
  · exact sound.landCurrent head below found sent current branch sends
  · exact sound.landOutdated found branch sends

theorem ReaderRun.Sound.startCommit (sound : s.Sound) {repo : Repository} {batcher : GitBatcher}
    (started : s.batcher.startCommit s.repo = (repo, batcher)) :
    ReaderRun.Sound { s with repo, batcher } := by
  unfold GitBatcher.startCommit at started
  split at started
  · obtain ⟨rfl, rfl⟩ := Prod.mk.inj started
    exact sound
  · rename_i idle
    obtain ⟨rfl, rfl⟩ := Prod.mk.inj started
    have free : s.batcher.inProgress = none := by
      cases busy : s.batcher.inProgress with
      | none => rfl
      | some n => simp [busy] at idle
    have before := ReaderRun.flying_idle free
    have last : (s.repo.send s.batcher.baseSha s.batcher.pendingFiles).sends[s.repo.sends.length]? =
        some { base := s.batcher.baseSha, files := s.batcher.pendingFiles } := by
      simp [Repository.send]
    have flying : ReaderRun.flying { s with
        repo := s.repo.send s.batcher.baseSha s.batcher.pendingFiles
        batcher := { s.batcher with
          pendingFiles := .empty
          inProgress := some s.repo.sends.length } } = s.batcher.pendingFiles := by
      simp [ReaderRun.flying, GitBatcher.awaited, Repository.send]
    refine ⟨⟨sound.ordered.base, ?_, ?_, sound.ordered.answer⟩, ?_, ?_⟩
    · intro send member
      rcases List.mem_append.mp member with old | new
      · exact sound.ordered.bases send old
      · obtain rfl := List.mem_singleton.mp new
        exact le_rfl
    · rintro n ⟨⟩
      refine ⟨_, last, ?_⟩
      rintro sha ⟨⟩
    · intro path send member status base contains
      right
      rw [flying]
      rcases List.mem_append.mp member with old | new
      · rcases sound.restored path send old status base contains with put | flown
        · exact put
        · rw [before] at flown
          cases flown
      · obtain rfl := List.mem_singleton.mp new
        exact contains
    · intro path content latest
      cases sound.place path content latest with
      | pending found =>
          refine .flying rfl (by rw [flying]; exact found) ?_
          rintro n send sha ⟨⟩ sent status
          obtain rfl := Option.some.inj (last.symm.trans sent)
          cases status
      | flying absent found landed =>
          rw [before] at found
          cases found
      | settled absent apart stays =>
          refine .settled rfl (by rw [flying]; exact absent) stays

theorem ReaderRun.Sound.write (sound : s.Sound) {files : Tree} {now : Nat} {repo : Repository}
    {batcher : GitBatcher} (written : s.batcher.write s.repo files now = (repo, batcher)) :
    ReaderRun.Sound { s with
      repo, batcher, latest := fun path => (files.get path).or (s.latest path) } := by
  have merged : ReaderRun.Sound { s with
      batcher := { s.batcher with pendingFiles := s.batcher.pendingFiles.merge files }
      latest := fun path => (files.get path).or (s.latest path) } := by
    refine ⟨⟨sound.ordered.base, sound.ordered.bases, sound.ordered.inFlight, sound.ordered.answer⟩,
      ?_, ?_⟩
    · intro path send member status base contains
      rcases sound.restored path send member status base contains with put | flown
      · left
        simp only [Dict.contains, Dict.get_merge, Option.isSome_or, Bool.or_eq_true]
        exact Or.inr put
      · exact Or.inr flown
    · intro path content latest
      simp only at latest
      cases touched : files.get path with
      | some new =>
          rw [touched] at latest
          obtain rfl := Option.some.inj latest
          apply Place.pending
          simp only
          rw [Dict.get_merge, touched, Option.some_or]
      | none =>
          rw [touched, Option.none_or] at latest
          have same : (s.batcher.pendingFiles.merge files).get path = s.batcher.pendingFiles.get path := by
            rw [Dict.get_merge, touched, Option.none_or]
          cases sound.place path content latest with
          | pending found => exact .pending (same.trans found)
          | flying absent found landed => exact .flying (same.trans absent) found landed
          | settled absent apart stays => exact .settled (same.trans absent) apart stays
  unfold GitBatcher.write at written
  simp only at written
  split at written
  · exact merged.startCommit written
  · obtain ⟨rfl, rfl⟩ := Prod.mk.inj written
    exact merged

theorem ReaderRun.Sound.succeed (sound : s.Sound) (waiting : s.refreshing = none) {now : Nat}
    {batcher : GitBatcher} (done : s.batcher.succeed s.repo now = some batcher) :
    ReaderRun.Sound { s with batcher } := by
  unfold GitBatcher.succeed at done
  split at done
  · rename_i base files sha awaited
    obtain rfl := Option.some.inj done
    obtain ⟨n, inProgress, sent⟩ := Option.bind_eq_some_iff.mp awaited
    obtain ⟨send, same, between⟩ := sound.ordered.inFlight n inProgress
    obtain rfl := Option.some.inj (same.symm.trans sent)
    have range := between sha rfl
    have below : ∀ send ∈ s.repo.sends, send.base ≤ sha := fun send member =>
      le_trans (sound.ordered.bases send member) range.1.le
    refine ⟨⟨range.2, below, ?_, ?_⟩, ?_, ?_⟩
    · rintro m ⟨⟩
    · intro answer refreshing
      rw [waiting] at refreshing
      cases refreshing
    · intro path send member status base contains
      have old := sound.ordered.bases send member
      simp only [Repository.head] at base
      omega
    · intro path content latest
      cases sound.place path content latest with
      | pending found => exact .pending found
      | flying absent found landed =>
          exact .settled absent (by rw [ReaderRun.flying_idle rfl]; rfl)
            (landed n _ sha inProgress sent rfl)
      | settled absent apart stays =>
          exact .settled absent (by rw [ReaderRun.flying_idle rfl]; rfl) (stays.later range.1.le)
  · cases done

theorem ReaderRun.Sound.restore (sound : s.Sound) {answer : Option Nat}
    (known : ∀ sha, answer = some sha → s.batcher.baseSha ≤ sha ∧ sha < s.repo.branch.length)
    {batcher : GitBatcher} (done : s.batcher.failAt s.repo answer = some batcher) :
    ReaderRun.Sound { s with batcher, refreshing := none } := by
  obtain ⟨send, awaited, rfl⟩ := Option.map_eq_some_iff.mp done
  have flying : s.flying = send.files := by simp [ReaderRun.flying, awaited]
  have range : s.batcher.baseSha ≤ answer.getD s.batcher.baseSha ∧
      answer.getD s.batcher.baseSha < s.repo.branch.length := by
    cases answer with
    | none => exact ⟨le_rfl, sound.ordered.base⟩
    | some sha => exact known sha rfl
  have put : ∀ path, (restorePending s.batcher.pendingFiles send.files).get path =
      (s.batcher.pendingFiles.get path).or (send.files.get path) := fun path => Dict.get_merge _ _ _
  refine ⟨⟨range.2, fun send member => le_trans (sound.ordered.bases send member) range.1, ?_, ?_⟩,
    ?_, ?_⟩
  · rintro m ⟨⟩
  · rintro answer ⟨⟩
  · intro path other member status base contains
    left
    have either := sound.restored path other member status base contains
    rw [flying] at either
    simp only [Dict.contains, put, Option.isSome_or, Bool.or_eq_true] at either ⊢
    exact either
  · intro path content latest
    cases sound.place path content latest with
    | pending found => exact .pending (by simp only [put, found, Option.some_or])
    | flying absent found landed =>
        rw [flying] at found
        exact .pending (by simp only [put, absent, found, Option.none_or])
    | settled absent apart stays =>
        rw [flying] at apart
        exact .settled (by simp only [put, absent, apart, Option.none_or])
          (by rw [ReaderRun.flying_idle rfl]; rfl) (stays.later range.1)

theorem ReaderRun.Sound.step (sound : s.Sound) {event : ReaderEvent}
    (stepped : s.step event = some s') : s'.Sound := by
  cases event with
  | external files =>
      obtain rfl := Option.some.inj stepped
      exact sound.external files
  | write files now =>
      obtain rfl := Option.some.inj stepped
      exact sound.write rfl
  | flush =>
      obtain rfl := Option.some.inj stepped
      exact sound.startCommit rfl
  | land n =>
      obtain ⟨repo, landed, rfl⟩ := Option.map_eq_some_iff.mp stepped
      exact sound.land landed
  | succeed now =>
      simp only [ReaderRun.step] at stepped
      split at stepped
      · cases stepped
      · rename_i waiting
        obtain ⟨batcher, done, rfl⟩ := Option.map_eq_some_iff.mp stepped
        exact sound.succeed (by simpa using waiting) done
  | raise =>
      simp only [ReaderRun.step] at stepped
      split at stepped
      · obtain rfl := Option.some.inj stepped
        refine ⟨⟨sound.ordered.base, sound.ordered.bases, sound.ordered.inFlight, ?_⟩,
          sound.restored, fun path content latest => ?_⟩
        · rintro answer ⟨⟩
        · cases sound.place path content latest with
          | pending found => exact .pending found
          | flying absent found landed => exact .flying absent found landed
          | settled absent apart stays => exact .settled absent apart stays
      · cases stepped
  | readHead =>
      simp only [ReaderRun.step] at stepped
      split at stepped
      · obtain rfl := Option.some.inj stepped
        obtain ⟨tree, head, below⟩ := sound.ordered.headTree
        refine ⟨⟨sound.ordered.base, sound.ordered.bases, sound.ordered.inFlight, ?_⟩,
          sound.restored, fun path content latest => ?_⟩
        · rintro answer ⟨⟩
          exact ⟨below, (head_of_headTree head).1⟩
        · cases sound.place path content latest with
          | pending found => exact .pending found
          | flying absent found landed => exact .flying absent found landed
          | settled absent apart stays => exact .settled absent apart stays
      · cases stepped
  | restore returns =>
      simp only [ReaderRun.step] at stepped
      split at stepped
      · rename_i answer refreshing
        obtain ⟨batcher, done, rfl⟩ := Option.map_eq_some_iff.mp stepped
        apply sound.restore _ done
        intro sha known
        split at known
        · exact sound.ordered.answer sha (by rw [refreshing, known])
        · cases known
      · cases stepped

/-! ## Reads -/

/-- A commit in flight does not hide the write: the path is pending again, or the known commit has the
same content. -/
def ReaderRun.Visible (s : ReaderRun) (path : Path) (content : Content) : Prop :=
  s.flying.contains path = true → s.batcher.pendingFiles.contains path = true ∨
    ∃ tree, s.repo.branch[s.batcher.baseSha]? = some tree ∧ tree.get path = some content

theorem sound_start {branch : List Tree} {baseSha : Nat} (known : baseSha < branch.length) :
    (ReaderRun.start branch baseSha).Sound := by
  refine ⟨⟨known, ?_, ?_, ?_⟩, ?_, ?_⟩
  · rintro send ⟨⟩
  · rintro n ⟨⟩
  · rintro answer ⟨⟩
  · rintro path send ⟨⟩
  · rintro path content ⟨⟩

/-- In every state of a run, a read finds the latest write exactly when it is visible. -/
theorem read_latest_iff {branch : List Tree} {baseSha : Nat} (known : baseSha < branch.length)
    (events : List ReaderEvent) (s : ReaderRun)
    (ran : run ReaderRun.step (.start branch baseSha) events = some s) (path : Path)
    (content : Content) (written : s.latest path = some content) :
    s.read path = some content ↔ s.Visible path content := by
  have sound : s.Sound := run_invariant ran (fun _ _ _ sound stepped => sound.step stepped)
    (sound_start known)
  cases sound.place path content written with
  | pending found =>
      have visible : s.Visible path content := fun _ => Or.inl (Dict.contains_of_get found)
      simp [ReaderRun.read, found, visible]
  | flying absent found _ =>
      have read : s.read path = s.repo.branch[s.batcher.baseSha]?.bind fun tree => tree.get path := by
        rw [ReaderRun.read, absent]
      rw [read, Option.bind_eq_some_iff]
      constructor
      · intro holds _
        exact Or.inr holds
      · intro visible
        rcases visible (Dict.contains_of_get found) with pending | holds
        · simp [Dict.contains, absent] at pending
        · exact holds
  | settled absent apart stays =>
      have apart : s.flying.contains path = false := by simp [Dict.contains, apart]
      have visible : s.Visible path content := by simp [ReaderRun.Visible, apart]
      have found := List.getElem?_eq_getElem sound.ordered.base
      have kept := stays _ _ le_rfl found
      simp only [visible, iff_true]
      rw [ReaderRun.read, absent]
      simp only [found, Option.bind_some, kept]

def draft : Tree := .ofList [(.other "a.json", .text "1")]

/-- After its commit has succeeded, a write is read. -/
theorem read_latest_committed :
    ∃ s, run ReaderRun.step (.start [.empty] 0) [.write draft 0, .flush, .land 0, .succeed 5] =
      some s ∧ s.read (.other "a.json") = some (.text "1") := by
  have reached : (run ReaderRun.step (.start [.empty] 0)
      [.write draft 0, .flush, .land 0, .succeed 5]).any (fun s =>
        s.latest (.other "a.json") = some (.text "1") ∧ s.batcher.inProgress = none) = true := by
    decide +kernel
  obtain ⟨s, ran, found⟩ := (Option.any_eq_true _ _).mp reached
  obtain ⟨written, idle⟩ := of_decide_eq_true found
  refine ⟨s, ran, (read_latest_iff (by decide) _ s ran _ _ written).mpr ?_⟩
  intro flying
  rw [ReaderRun.flying_idle idle] at flying
  cases flying

/-- While its first commit is in flight, a new file is not found. -/
theorem write_in_flight_not_read :
    ∃ s, run ReaderRun.step (.start [.empty] 0) [.write draft 0, .flush] = some s ∧
      s.latest (.other "a.json") = some (.text "1") ∧ s.read (.other "a.json") = none := by
  have reached : (run ReaderRun.step (.start [.empty] 0) [.write draft 0, .flush]).any (fun s =>
      s.latest (.other "a.json") = some (.text "1") ∧ s.read (.other "a.json") = none) = true := by
    decide +kernel
  obtain ⟨s, ran, found⟩ := (Option.any_eq_true _ _).mp reached
  exact ⟨s, ran, of_decide_eq_true found⟩

end GenSubnet.Competition
