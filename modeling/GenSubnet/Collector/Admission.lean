import GenSubnet.Collector.Isolation
import GenSubnet.Library.Rounding
import Mathlib

/-!
# The submissions of a round

`_filter_by_conviction_lock` and `_serialize_submissions` of `collection_iteration.py`: submissions
are grouped by the coldkey of their hotkey, a coldkey without the lock for all of its submissions loses
every one of them, and the rest are written in the order of their blocks and tie breakers. The file
is canonical: it does not depend on the order in which commitments or coldkeys come.
-/

namespace GenSubnet.Collector
open Library

/-- What a collection reads besides the commitments. Locks and the requirement are finite floats, so
rational numbers. -/
structure CollectionInputs where
  window : Window
  owners : Dict String String
  lockedAlpha : String → Rat
  requiredLockAlpha : Rat
  blake2b : String → String
  competition : String
  roundNum : Nat
  seed : Nat

structure SubmissionEntry where
  repo : List Char
  commit : List Char
  revealedAtBlock : Int
  tieBreaker : String
  round : String
deriving DecidableEq

variable (py : Interpreter) (inputs : CollectionInputs)

/-- The submissions by the coldkey of their hotkey; a hotkey without one is dropped. -/
def groupByColdkey (submissions : List (Submission py)) : Dict String (List (Submission py)) :=
  submissions.foldl (fun groups submission =>
    match inputs.owners.get submission.hotkey with
    | none => groups
    | some coldkey => groups.set coldkey ((groups.get coldkey).getD [] ++ [submission])) .empty

/-- `required_lock_alpha * len(…)`, a product of floats. -/
def CollectionInputs.required (count : Nat) : Rat :=
  Rounding.nearest (inputs.requiredLockAlpha * count)

/-- The loop over the coldkeys. -/
def keepLocked (groups : List (String × List (Submission py))) : List (Submission py) :=
  groups.flatMap fun (coldkey, submissions) =>
    if inputs.lockedAlpha coldkey < inputs.required submissions.length then [] else submissions

def sortByBlock (submissions : List (Submission py)) : List (Submission py) :=
  submissions.mergeSort fun a b => decide (a.revealBlock ≤ b.revealBlock)

def filterByConvictionLock (submissions : List (Submission py)) : List (Submission py) :=
  sortByBlock py (keepLocked py inputs (groupByColdkey py inputs submissions).items)

def submissionEntry (submission : Submission py) : SubmissionEntry where
  repo := submission.repo
  commit := submission.commit
  revealedAtBlock := submission.revealBlock
  tieBreaker := inputs.blake2b (toString inputs.seed ++ ":" ++ submission.hotkey)
  round := inputs.competition ++ "-" ++ toString inputs.roundNum

/-- The order of `(revealed_at_block, tie_breaker)`. -/
def Precedes (a b : String × SubmissionEntry) : Prop :=
  a.2.revealedAtBlock < b.2.revealedAtBlock ∨
    a.2.revealedAtBlock = b.2.revealedAtBlock ∧ a.2.tieBreaker ≤ b.2.tieBreaker

instance (a b : String × SubmissionEntry) : Decidable (Precedes a b) :=
  inferInstanceAs (Decidable (_ ∨ _))

def serializeSubmissions (submissions : List (Submission py)) : List (String × SubmissionEntry) :=
  (Dict.ofList (submissions.map fun s => (s.hotkey, submissionEntry py inputs s))).items.mergeSort
    fun a b => decide (Precedes a b)

/-- The `submissions.json` of `_collect_submissions` once the reveal window is over; a round without
submissions has none and goes to its end. -/
def collectSubmissions (commitments : Commitments) :
    Except PyError (Option (List (String × SubmissionEntry))) :=
  match readSubmissions py inputs.window commitments with
  | .error e => .error e
  | .ok submissions =>
      match filterByConvictionLock py inputs submissions with
      | [] => .ok none
      | kept => .ok (some (serializeSubmissions py inputs kept))

/-! ## Groups -/

/-- The submissions whose hotkeys belong to the coldkey. -/
def ownedBy (coldkey : String) (submissions : List (Submission py)) : List (Submission py) :=
  submissions.filter fun submission => inputs.owners.get submission.hotkey = some coldkey

variable {py inputs} {submissions : List (Submission py)}

theorem get_groupByColdkey (coldkey : String) :
    (groupByColdkey py inputs submissions).get coldkey =
      if ownedBy py inputs coldkey submissions = [] then none
      else some (ownedBy py inputs coldkey submissions) := by
  induction submissions using List.reverseRecOn with
  | nil => rfl
  | append_singleton before submission ih =>
      rw [groupByColdkey, List.foldl_append, ← groupByColdkey, List.foldl_cons, List.foldl_nil,
        ownedBy, List.filter_append, ← ownedBy]
      cases owner : inputs.owners.get submission.hotkey with
      | none => simpa [owner] using ih
      | some other =>
          simp only
          rw [Dict.get_set]
          by_cases same : coldkey = other
          · subst same
            simp only [ih, owner, if_pos, List.filter_singleton, decide_true]
            split <;> simp_all
          · simp [owner, same, Ne.symm same, ih]

/-- The submissions that stay: those of a known coldkey that has locked enough for all of its own. -/
def Admitted (py : Interpreter) (inputs : CollectionInputs) (submissions : List (Submission py))
    (submission : Submission py) : Prop :=
  ∃ coldkey, inputs.owners.get submission.hotkey = some coldkey ∧
    inputs.required (ownedBy py inputs coldkey submissions).length ≤ inputs.lockedAlpha coldkey

theorem mem_groups {groups : List (String × List (Submission py))}
    (regrouped : groups.Perm (groupByColdkey py inputs submissions).items) (coldkey : String)
    (group : List (Submission py)) :
    (coldkey, group) ∈ groups ↔
      group = ownedBy py inputs coldkey submissions ∧ group ≠ [] := by
  rw [regrouped.mem_iff, ← Dict.get_eq_some_iff, get_groupByColdkey]
  split
  · rename_i empty
    rw [empty]
    simp
  · rename_i owned
    rw [Option.some.injEq]
    constructor
    · rintro rfl
      exact ⟨rfl, owned⟩
    · rintro ⟨rfl, -⟩
      rfl

theorem mem_keepLocked {groups : List (String × List (Submission py))}
    (regrouped : groups.Perm (groupByColdkey py inputs submissions).items)
    (submission : Submission py) :
    submission ∈ keepLocked py inputs groups ↔
      submission ∈ submissions ∧ Admitted py inputs submissions submission := by
  rw [keepLocked, List.mem_flatMap]
  constructor
  · rintro ⟨⟨coldkey, group⟩, listed, kept⟩
    obtain ⟨rfl, -⟩ := (mem_groups regrouped coldkey group).mp listed
    simp only at kept
    split at kept
    · cases kept
    · rename_i locked
      obtain ⟨member, owner⟩ := List.mem_filter.mp kept
      exact ⟨member, coldkey, of_decide_eq_true owner, not_lt.mp locked⟩
  · rintro ⟨member, coldkey, owner, locked⟩
    have owned : submission ∈ ownedBy py inputs coldkey submissions :=
      List.mem_filter.mpr ⟨member, decide_eq_true owner⟩
    refine ⟨(coldkey, _), (mem_groups regrouped coldkey _).mpr ⟨rfl, List.ne_nil_of_mem owned⟩, ?_⟩
    simp only
    rw [if_neg (not_lt.mpr locked)]
    exact owned

theorem nodup_keepLocked {groups : List (String × List (Submission py))}
    (regrouped : groups.Perm (groupByColdkey py inputs submissions).items)
    (nodup : submissions.Nodup) : (keepLocked py inputs groups).Nodup := by
  rw [keepLocked, List.nodup_flatMap]
  constructor
  · rintro ⟨coldkey, group⟩ listed
    obtain ⟨rfl, -⟩ := (mem_groups regrouped coldkey group).mp listed
    simp only
    split
    · exact List.nodup_nil
    · exact nodup.filter _
  · have keys : (groups.map Prod.fst).Nodup :=
      (regrouped.map Prod.fst).nodup_iff.mpr (groupByColdkey py inputs submissions).nodup
    refine (List.pairwise_map.mp keys).imp_of_mem ?_
    rintro ⟨coldkey, group⟩ ⟨coldkey', group'⟩ listed listed' ne submission kept kept'
    obtain ⟨rfl, -⟩ := (mem_groups regrouped coldkey group).mp listed
    obtain ⟨rfl, -⟩ := (mem_groups regrouped coldkey' group').mp listed'
    simp only at kept kept'
    split at kept
    · cases kept
    · split at kept'
      · cases kept'
      · have owner := of_decide_eq_true (List.mem_filter.mp kept).2
        have owner' := of_decide_eq_true (List.mem_filter.mp kept').2
        exact ne (Option.some.inj (owner.symm.trans owner'))

/-! ## The file -/

theorem precedes_sorted (entries : List (String × SubmissionEntry)) :
    (entries.mergeSort fun a b => decide (Precedes a b)).Pairwise Precedes := by
  refine List.Pairwise.imp of_decide_eq_true (List.pairwise_mergeSort ?_ ?_ entries)
  · intro a b c ab bc
    rw [decide_eq_true_eq] at ab bc ⊢
    rcases ab with ab | ⟨ab, tie⟩ <;> rcases bc with bc | ⟨bc, tie'⟩
    · exact Or.inl (ab.trans bc)
    · exact Or.inl (bc ▸ ab)
    · exact Or.inl (ab.symm ▸ bc)
    · exact Or.inr ⟨ab.trans bc, tie.trans tie'⟩
  · intro a b
    rw [Bool.or_eq_true, decide_eq_true_eq, decide_eq_true_eq]
    rcases lt_trichotomy a.2.revealedAtBlock b.2.revealedAtBlock with less | same | more
    · exact Or.inl (Or.inl less)
    · exact (le_total a.2.tieBreaker b.2.tieBreaker).imp (fun tie => Or.inr ⟨same, tie⟩)
        fun tie => Or.inr ⟨same.symm, tie⟩
    · exact Or.inr (Or.inl more)

theorem eq_of_sorted {entries entries' : List (String × SubmissionEntry)}
    (perm : entries.Perm entries') (sorted : entries.Pairwise Precedes)
    (sorted' : entries'.Pairwise Precedes)
    (distinct : (entries.map fun entry => entry.2.tieBreaker).Nodup) : entries = entries' := by
  refine perm.eq_of_pairwise ?_ sorted sorted'
  intro a b member member' ab ba
  have tie : a.2.tieBreaker = b.2.tieBreaker := by
    rcases ab with ab | ⟨same, tie⟩ <;> rcases ba with ba | ⟨_, tie'⟩
    · exact absurd ab ba.not_gt
    · omega
    · omega
    · exact le_antisymm tie tie'
  exact List.inj_on_of_nodup_map distinct member (perm.mem_iff.mpr member') tie

theorem serializeSubmissions_perm (kept : List (Submission py))
    (nodup : (kept.map Submission.hotkey).Nodup) :
    (serializeSubmissions py inputs kept).Perm
      (kept.map fun s => (s.hotkey, submissionEntry py inputs s)) := by
  have keys : ((kept.map fun s => (s.hotkey, submissionEntry py inputs s)).map Prod.fst).Nodup := by
    rw [List.map_map]
    exact nodup
  rw [serializeSubmissions, Dict.items_ofList keys]
  exact List.mergeSort_perm _ _

/-- The submissions that are kept do not depend on the order in which submissions and coldkeys
come. -/
theorem keepLocked_perm {groups groups' : List (String × List (Submission py))}
    {submissions' : List (Submission py)} (same : submissions'.Perm submissions)
    (nodup : submissions.Nodup)
    (regrouped : groups.Perm (groupByColdkey py inputs submissions).items)
    (regrouped' : groups'.Perm (groupByColdkey py inputs submissions').items) :
    (keepLocked py inputs groups').Perm (keepLocked py inputs groups) := by
  apply (List.perm_ext_iff_of_nodup (nodup_keepLocked regrouped' (same.nodup_iff.mpr nodup))
    (nodup_keepLocked regrouped nodup)).mpr
  intro submission
  rw [mem_keepLocked regrouped', mem_keepLocked regrouped, same.mem_iff]
  have owned (coldkey : String) : (ownedBy py inputs coldkey submissions').length =
      (ownedBy py inputs coldkey submissions).length := (same.filter _).length_eq
  simp only [Admitted, owned]

theorem nodup_hotkeys_keepLocked {groups : List (String × List (Submission py))}
    (nodup : (submissions.map Submission.hotkey).Nodup)
    (regrouped : groups.Perm (groupByColdkey py inputs submissions).items) :
    ((keepLocked py inputs groups).map Submission.hotkey).Nodup := by
  apply (nodup_keepLocked regrouped nodup.of_map).map_on
  intro s member t member' same
  exact List.inj_on_of_nodup_map nodup ((mem_keepLocked regrouped s).mp member).1
    ((mem_keepLocked regrouped t).mp member').1 same

theorem serialize_groups_perm {groups : List (String × List (Submission py))}
    (nodup : (submissions.map Submission.hotkey).Nodup)
    (regrouped : groups.Perm (groupByColdkey py inputs submissions).items) :
    (serializeSubmissions py inputs (sortByBlock py (keepLocked py inputs groups))).Perm
      ((keepLocked py inputs groups).map fun s => (s.hotkey, submissionEntry py inputs s)) := by
  have sorted : (sortByBlock py (keepLocked py inputs groups)).Perm (keepLocked py inputs groups) :=
    List.mergeSort_perm _ _
  refine (serializeSubmissions_perm _ ?_).trans (sorted.map _)
  exact (sorted.map Submission.hotkey).nodup_iff.mpr (nodup_hotkeys_keepLocked nodup regrouped)

theorem serialize_regrouped {groups groups' : List (String × List (Submission py))}
    {submissions' : List (Submission py)} (same : submissions'.Perm submissions)
    (nodup : (submissions.map Submission.hotkey).Nodup)
    (regrouped : groups.Perm (groupByColdkey py inputs submissions).items)
    (regrouped' : groups'.Perm (groupByColdkey py inputs submissions').items)
    (distinct : ((serializeSubmissions py inputs (sortByBlock py (keepLocked py inputs groups))).map
      fun entry => entry.2.tieBreaker).Nodup) :
    serializeSubmissions py inputs (sortByBlock py (keepLocked py inputs groups')) =
      serializeSubmissions py inputs (sortByBlock py (keepLocked py inputs groups)) := by
  have nodup' : (submissions'.map Submission.hotkey).Nodup :=
    (same.map Submission.hotkey).nodup_iff.mpr nodup
  have perm := ((serialize_groups_perm nodup' regrouped').trans
    ((keepLocked_perm same nodup.of_map regrouped regrouped').map _)).trans
    (serialize_groups_perm nodup regrouped).symm
  exact (eq_of_sorted perm.symm (precedes_sorted _) (precedes_sorted _) distinct).symm

/-! ## Valid submissions -/

/-- The submission of a hotkey, if its history gives one. -/
def submissionOf (py : Interpreter) (window : Window) (item : String × List Reveal) :
    Option (Submission py) :=
  (parseCommitment py item.1 item.2 window).toOption.bind id

theorem submissionOf_eq_some {window : Window} {item : String × List Reveal}
    {submission : Submission py} :
    submissionOf py window item = some submission ↔ Submits py window item (some submission) := by
  unfold submissionOf Submits
  cases parseCommitment py item.1 item.2 window with
  | error e => simp [Except.toOption]
  | ok result => simp [Except.toOption]

/-- The number of the coldkey's valid submissions. -/
def submitted (py : Interpreter) (inputs : CollectionInputs) (commitments : Commitments)
    (coldkey : String) : Nat :=
  commitments.items.countP fun item =>
    (submissionOf py inputs.window item).isSome && inputs.owners.get item.1 = some coldkey

theorem parseAll_ok_iff {window : Window} {items : List (String × List Reveal)} :
    parseAll py window items = .ok submissions ↔
      (∀ item ∈ items, ∃ result, Submits py window item result) ∧
        submissions = items.filterMap (submissionOf py window) := by
  induction items generalizing submissions with
  | nil => simp [parseAll, eq_comm]
  | cons item rest ih =>
      obtain ⟨hotkey, commitment⟩ := item
      rw [List.forall_mem_cons, List.filterMap_cons]
      simp only [parseAll, Submits, submissionOf]
      cases parseCommitment py hotkey commitment window with
      | error e => simp
      | ok result =>
          cases all : parseAll py window rest with
          | error e =>
              have bad : ¬ ∀ item ∈ rest, ∃ result, Submits py window item result := fun each => by
                simp [ih.mpr ⟨each, rfl⟩] at all
              simp only [reduceCtorEq, false_iff]
              exact fun h => bad h.1.2
          | ok found =>
              obtain ⟨each, rfl⟩ := ih.mp all
              constructor
              · intro h
                refine ⟨⟨⟨result, rfl⟩, each⟩, ?_⟩
                cases result <;> simpa [Except.toOption] using (Except.ok.inj h).symm
              · rintro ⟨-, rfl⟩
                cases result <;> rfl

theorem hotkeys_sublist (window : Window) (items : List (String × List Reveal)) :
    ((items.filterMap (submissionOf py window)).map Submission.hotkey).Sublist
      (items.map Prod.fst) := by
  induction items with
  | nil => exact .slnil
  | cons item rest ih =>
      rw [List.filterMap_cons]
      cases found : submissionOf py window item with
      | none => exact ih.cons _
      | some submission =>
          have same := parseCommitment_hotkey py (submissionOf_eq_some.mp found)
          rw [List.map_cons, List.map_cons, ← same]
          exact ih.cons_cons _

theorem length_ownedBy (commitments : Commitments) (coldkey : String) :
    (ownedBy py inputs coldkey
      (commitments.items.filterMap (submissionOf py inputs.window))).length =
      submitted py inputs commitments coldkey := by
  rw [ownedBy, submitted, ← List.countP_eq_length_filter, List.countP_filterMap]
  apply List.countP_congr
  intro item _
  cases found : submissionOf py inputs.window item with
  | none => simp
  | some submission =>
      have same := parseCommitment_hotkey py (submissionOf_eq_some.mp found)
      simp [same]

/-! ## The canonical file -/

theorem readSubmissions_perm {window : Window} {commitments : Commitments}
    (read : readSubmissions py window commitments = .ok submissions) :
    (∀ item ∈ commitments.items, ∃ result, Submits py window item result) ∧
      submissions.Perm (commitments.items.filterMap (submissionOf py window)) := by
  unfold readSubmissions at read
  cases all : parseAll py window commitments.items with
  | error e => simp [all] at read
  | ok found =>
      obtain ⟨each, rfl⟩ := parseAll_ok_iff.mp all
      rw [all] at read
      obtain rfl := Except.ok.inj read
      exact ⟨each, List.mergeSort_perm _ _⟩

theorem readSubmissions_of_perm {window : Window} {commitments commitments' : Commitments}
    (read : readSubmissions py window commitments = .ok submissions)
    (reordered : commitments'.items.Perm commitments.items) :
    ∃ submissions', readSubmissions py window commitments' = .ok submissions' ∧
      submissions'.Perm submissions := by
  obtain ⟨each, perm⟩ := readSubmissions_perm read
  have all : parseAll py window commitments'.items =
      .ok (commitments'.items.filterMap (submissionOf py window)) :=
    parseAll_ok_iff.mpr ⟨fun item member => each item (reordered.mem_iff.mp member), rfl⟩
  refine ⟨_, by rw [readSubmissions, all], ?_⟩
  exact (List.mergeSort_perm _ _).trans ((reordered.filterMap _).trans perm.symm)

theorem collectSubmissions_eq {commitments : Commitments} {file : List (String × SubmissionEntry)}
    (collected : collectSubmissions py inputs commitments = .ok (some file)) :
    ∃ submissions, readSubmissions py inputs.window commitments = .ok submissions ∧
      keepLocked py inputs (groupByColdkey py inputs submissions).items ≠ [] ∧
      file = serializeSubmissions py inputs (filterByConvictionLock py inputs submissions) := by
  unfold collectSubmissions at collected
  split at collected
  · cases collected
  · rename_i submissions read
    refine ⟨submissions, read, ?_, ?_⟩
    · intro none
      simp [filterByConvictionLock, sortByBlock, none] at collected
    · split at collected
      · cases collected
      · exact (Option.some.inj (Except.ok.inj collected)).symm

theorem collectSubmissions_of_read {commitments : Commitments}
    (read : readSubmissions py inputs.window commitments = .ok submissions)
    (kept : keepLocked py inputs (groupByColdkey py inputs submissions).items ≠ []) :
    collectSubmissions py inputs commitments =
      .ok (some (serializeSubmissions py inputs (filterByConvictionLock py inputs submissions))) := by
  unfold collectSubmissions
  rw [read]
  simp only
  split
  · rename_i none
    refine absurd (List.Perm.eq_nil ?_) kept
    exact (none ▸ List.mergeSort_perm _ _ : [].Perm _).symm
  · rfl

theorem ownedBy_read {commitments : Commitments}
    (read : readSubmissions py inputs.window commitments = .ok submissions) (coldkey : String) :
    (ownedBy py inputs coldkey submissions).length = submitted py inputs commitments coldkey :=
  ((readSubmissions_perm read).2.filter _).length_eq.trans (length_ownedBy commitments coldkey)

theorem exists_file {commitments : Commitments} {hotkey coldkey : String}
    {commitment : List Reveal} {submission : Submission py}
    (read : readSubmissions py inputs.window commitments = .ok submissions)
    (listed : (hotkey, commitment) ∈ commitments.items)
    (submits : Submits py inputs.window (hotkey, commitment) (some submission))
    (owner : inputs.owners.get hotkey = some coldkey)
    (locked : inputs.required (submitted py inputs commitments coldkey) ≤
      inputs.lockedAlpha coldkey) :
    ∃ file, collectSubmissions py inputs commitments = .ok (some file) := by
  have member := (readSubmissions_perm read).2.mem_iff.mpr
    (List.mem_filterMap.mpr ⟨_, listed, submissionOf_eq_some.mpr submits⟩)
  have own : submission.hotkey = hotkey := parseCommitment_hotkey py submits
  have kept := (mem_keepLocked (.refl _) submission).mpr
    ⟨member, coldkey, own.symm ▸ owner, (ownedBy_read read coldkey).symm ▸ locked⟩
  exact ⟨_, collectSubmissions_of_read read (List.ne_nil_of_mem kept)⟩

/-- The file of a round lists exactly the valid submissions in the window of the hotkeys whose
coldkey is known and has locked enough for all of its valid submissions, by their block and tie
breaker. With distinct tie breakers, neither the order of the commitments nor that of the coldkeys
changes it. -/
theorem submissions_canonical {commitments : Commitments} {file : List (String × SubmissionEntry)}
    (collected : collectSubmissions py inputs commitments = .ok (some file)) :
    (∀ hotkey entry, (hotkey, entry) ∈ file ↔ ∃ commitment submission coldkey,
      (hotkey, commitment) ∈ commitments.items ∧
      Submits py inputs.window (hotkey, commitment) (some submission) ∧
      entry = submissionEntry py inputs submission ∧
      inputs.owners.get hotkey = some coldkey ∧
      inputs.required (submitted py inputs commitments coldkey) ≤ inputs.lockedAlpha coldkey) ∧
    file.Pairwise Precedes ∧ (file.map Prod.fst).Nodup ∧
    ((file.map fun entry => entry.2.tieBreaker).Nodup →
      (∀ commitments' : Commitments, commitments'.items.Perm commitments.items →
        collectSubmissions py inputs commitments' = .ok (some file)) ∧
      ∀ submissions groups, readSubmissions py inputs.window commitments = .ok submissions →
        groups.Perm (groupByColdkey py inputs submissions).items →
        serializeSubmissions py inputs (sortByBlock py (keepLocked py inputs groups)) = file) := by
  obtain ⟨submissions, read, kept, rfl⟩ := collectSubmissions_eq collected
  obtain ⟨-, valid⟩ := readSubmissions_perm read
  have nodup : (submissions.map Submission.hotkey).Nodup :=
    (valid.map _).nodup_iff.mpr (commitments.nodup.sublist (hotkeys_sublist _ _))
  have written := serialize_groups_perm nodup (.refl (groupByColdkey py inputs submissions).items)
  have owned := ownedBy_read read
  refine ⟨?_, precedes_sorted _, ?_, ?_⟩
  · intro hotkey entry
    rw [filterByConvictionLock, written.mem_iff, List.mem_map]
    simp only [mem_keepLocked (.refl _), Admitted, owned]
    constructor
    · rintro ⟨submission, ⟨member, coldkey, owner, locked⟩, same⟩
      obtain ⟨rfl, rfl⟩ := Prod.mk.inj same
      obtain ⟨⟨hotkey, commitment⟩, listed, found⟩ := List.mem_filterMap.mp (valid.mem_iff.mp member)
      have submits := submissionOf_eq_some.mp found
      obtain rfl : submission.hotkey = hotkey := parseCommitment_hotkey py submits
      exact ⟨commitment, submission, coldkey, listed, submits, rfl, owner, locked⟩
    · rintro ⟨commitment, submission, coldkey, listed, submits, rfl, owner, locked⟩
      obtain rfl : submission.hotkey = hotkey := parseCommitment_hotkey py submits
      have member := valid.mem_iff.mpr
        (List.mem_filterMap.mpr ⟨_, listed, submissionOf_eq_some.mpr submits⟩)
      exact ⟨submission, ⟨member, coldkey, owner, locked⟩, rfl⟩
  · rw [filterByConvictionLock, (written.map Prod.fst).nodup_iff, List.map_map]
    exact nodup_hotkeys_keepLocked nodup (.refl _)
  · intro distinct
    constructor
    · intro commitments' reordered
      obtain ⟨submissions', read', same⟩ := readSubmissions_of_perm read reordered
      have regrouped := keepLocked_perm same nodup.of_map (.refl (groupByColdkey py inputs submissions).items)
        (.refl (groupByColdkey py inputs submissions').items)
      have kept' : keepLocked py inputs (groupByColdkey py inputs submissions').items ≠ [] := by
        intro none
        exact kept (List.Perm.eq_nil (none ▸ regrouped).symm)
      rw [collectSubmissions_of_read read' kept']
      exact congrArg (fun file => Except.ok (some file))
        (serialize_regrouped same nodup (.refl _) (.refl _) distinct)
    · intro submissions' groups read' regrouped
      obtain rfl := Except.ok.inj (read.symm.trans read')
      exact serialize_regrouped (.refl _) nodup (.refl _) regrouped distinct

/-! ## Two hotkeys of one coldkey -/

def sampleCommitments : Commitments :=
  .ofList [("5FHneW46xGXgs5mUiveU4sbTyGBzmstUspZC92UhjJM694ty", [(150, honestText)]),
    ("5GrwvaEF5zXb26Fz9rcQpDWS57CtERHpNehXCPcNoHGKutQY", [(150, honestText)])]

def sampleInputs : CollectionInputs where
  window := ⟨100, 200⟩
  owners := .ofList [("5FHneW46xGXgs5mUiveU4sbTyGBzmstUspZC92UhjJM694ty", "5Coldkey"),
    ("5GrwvaEF5zXb26Fz9rcQpDWS57CtERHpNehXCPcNoHGKutQY", "5Coldkey")]
  lockedAlpha _ := 200
  requiredLockAlpha := 100
  blake2b text := text
  competition := "404"
  roundNum := 7
  seed := 0

/-- The coldkey has locked just enough for both. -/
theorem submissions_canonical_sample : ∃ file,
    collectSubmissions sampleInterpreter sampleInputs sampleCommitments = .ok (some file) ∧
    ∃ entry, ("5FHneW46xGXgs5mUiveU4sbTyGBzmstUspZC92UhjJM694ty", entry) ∈ file := by
  have reads : (readSubmissions sampleInterpreter sampleInputs.window
      sampleCommitments).toOption.isSome = true := by decide +kernel
  have valid : (submissionOf sampleInterpreter sampleInputs.window
      ("5FHneW46xGXgs5mUiveU4sbTyGBzmstUspZC92UhjJM694ty", [(150, honestText)])).isSome = true := by
    decide +kernel
  have two : submitted sampleInterpreter sampleInputs sampleCommitments "5Coldkey" = 2 := by
    decide +kernel
  have listed : ("5FHneW46xGXgs5mUiveU4sbTyGBzmstUspZC92UhjJM694ty", [((150 : Int), honestText)]) ∈
      sampleCommitments.items := by decide +kernel
  have owner : sampleInputs.owners.get "5FHneW46xGXgs5mUiveU4sbTyGBzmstUspZC92UhjJM694ty" =
      some "5Coldkey" := by decide +kernel
  have locked : sampleInputs.required (submitted sampleInterpreter sampleInputs sampleCommitments
      "5Coldkey") ≤ sampleInputs.lockedAlpha "5Coldkey" := by
    rw [two]
    decide +kernel
  obtain ⟨submission, some⟩ := Option.isSome_iff_exists.mp valid
  have submits := submissionOf_eq_some.mp some
  cases read : readSubmissions sampleInterpreter sampleInputs.window sampleCommitments with
  | error e => simp [read, Except.toOption] at reads
  | ok submissions =>
      obtain ⟨file, collected⟩ := exists_file read listed submits owner locked
      refine ⟨file, collected, submissionEntry sampleInterpreter sampleInputs submission, ?_⟩
      exact ((submissions_canonical collected).1 _ _).mpr
        ⟨_, submission, "5Coldkey", listed, submits, rfl, owner, locked⟩

end GenSubnet.Collector
