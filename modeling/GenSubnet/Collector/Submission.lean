import GenSubnet.Library.PythonJson

/-!
# Reveals of miners

`parse_commitment` of `submission_collector/submission.py` and `_read_submissions_from_chain` of
`collection_iteration.py`: from the texts that the hotkeys of the subnet revealed on chain to the
submissions of a round.
-/

namespace GenSubnet.Collector
open Library

/-- What the interpreter and its regular expressions decide: how deep a text may nest and a
comparison may go, and which characters `\w` stands for. -/
structure Interpreter where
  parseDepth : Nat
  compareDepth : Nat
  word : Char → Bool

variable (py : Interpreter)

/-- `^[\w-]+/[\w-]+$` -/
def matchesRepo (s : List Char) : Bool :=
  match s.splitOn '/' with
  | [owner, name] => !owner.isEmpty && !name.isEmpty &&
      (owner ++ name).all fun c => py.word c || c == '-'
  | _ => false

def isCommitDigit (c : Char) : Bool := ('a' ≤ c && c ≤ 'f') || ('0' ≤ c && c ≤ '9')

/-- `^[a-f0-9]{40}$` -/
def matchesCommit (s : List Char) : Bool := s.length == 40 && s.all isCommitDigit

/-- A submission, with what its fields were validated for. -/
structure Submission where
  hotkey : String
  revealBlock : Int
  repo : List Char
  commit : List Char
  hotkey_length : 10 ≤ hotkey.length
  revealBlock_nonneg : 0 ≤ revealBlock
  repo_matches : matchesRepo py repo = true
  commit_matches : matchesCommit commit = true
deriving DecidableEq

/-- The characters of a string value; `none` for other values and for lone surrogates. -/
def Json.text : Json → Option (List Char)
  | .str points => points.mapM fun n =>
      if valid : n.isValidChar then some (Char.ofNatAux n valid) else none
  | _ => none

/-- The validation of `Submission(…)`; `none` for a `ValidationError`. -/
def makeSubmission (hotkey : String) (revealBlock : Int) (repo commit : Json) :
    Option (Submission py) :=
  match Json.text repo, Json.text commit with
  | some repo, some commit =>
      if h : 10 ≤ hotkey.length ∧ 0 ≤ revealBlock ∧ matchesRepo py repo = true ∧
          matchesCommit commit = true then
        some ⟨hotkey, revealBlock, repo, commit, h.1, h.2.1, h.2.2.1, h.2.2.2⟩
      else none
  | _, _ => none

/-! ## `parse_commitment` -/

/-- A reveal: the block and the text. -/
abbrev Reveal := Int × String

structure Window where
  earliestBlock : Int
  latestBlock : Int

def Window.reveals (window : Window) (commitment : List Reveal) : List Reveal :=
  commitment.filter fun reveal =>
    decide (window.earliestBlock ≤ reveal.1 ∧ reveal.1 ≤ window.latestBlock)

def readText (text : String) : Except LoadError Json :=
  loads py.parseDepth (text.toList.map fun c => if c = '\'' then '"' else c)

/-- `if field in data and data[field]`, and then the value. -/
def readField (field : String) (data : Json) : Except PyError (Option Json) :=
  match data.contains (codePoints field) with
  | .error e => .error e
  | .ok false => .ok none
  | .ok true =>
      match data.index (codePoints field) with
      | .error e => .error e
      | .ok value => .ok (if value.truthy then some value else none)

/-- What one reveal carries for `repo` and for `commit`; a malformed text carries nothing. -/
def readReveal (text : String) : Except PyError (Option Json × Option Json) :=
  match readText py text with
  | .error .malformed => .ok (none, none)
  | .error .recursion => .error .recursion
  | .ok data =>
      match readField "repo" data with
      | .error e => .error e
      | .ok repo =>
          match readField "commit" data with
          | .error e => .error e
          | .ok commit => .ok (repo, commit)

/-- The loop over the reveals of the window. -/
def collectFields : List Reveal → Except PyError (List (Int × Json) × List (Int × Json))
  | [] => .ok ([], [])
  | (block, text) :: rest =>
      match readReveal py text with
      | .error e => .error e
      | .ok (repo, commit) =>
          match collectFields rest with
          | .error e => .error e
          | .ok (repos, commits) =>
              .ok ((repo.map (block, ·)).toList ++ repos, (commit.map (block, ·)).toList ++ commits)

/-- `max` of the values with their blocks. -/
def latest (best : Int × Json) (rest : List (Int × Json)) : Except PyError (Int × Json) :=
  pyMax (pairGt py.compareDepth) best rest

def parseCommitment (hotkey : String) (commitment : List Reveal) (window : Window) :
    Except PyError (Option (Submission py)) :=
  match collectFields py (window.reveals commitment) with
  | .error e => .error e
  | .ok (repo :: repos, commit :: commits) =>
      match latest py repo repos with
      | .error e => .error e
      | .ok (_, repo) =>
          match latest py commit commits with
          | .error e => .error e
          | .ok (latestCommitBlock, commit) =>
              .ok (makeSubmission py hotkey latestCommitBlock repo commit)
  | .ok _ => .ok none

/-! ## `_read_submissions_from_chain` -/

abbrev Commitments := Dict String (List Reveal)

/-- The comprehension over the hotkeys. -/
def parseAll (window : Window) : List (String × List Reveal) → Except PyError (List (Submission py))
  | [] => .ok []
  | (hotkey, commitment) :: rest =>
      match parseCommitment py hotkey commitment window with
      | .error e => .error e
      | .ok submission =>
          match parseAll window rest with
          | .error e => .error e
          | .ok submissions => .ok (submission.toList ++ submissions)

def readSubmissions (window : Window) (commitments : Commitments) :
    Except PyError (List (Submission py)) :=
  match parseAll py window commitments.items with
  | .error e => .error e
  | .ok submissions =>
      .ok (submissions.mergeSort fun a b => decide (a.revealBlock ≤ b.revealBlock))

end GenSubnet.Collector
