import GenSubnet.Gateway.Consistency

/-!
# The text of the queue journal

The journal as `model_dump_json` writes it, and the changes of `StartQueue` with the check of its
length. Every text in it has been checked to be a canonical identifier, a round, a hotkey or a
deployment, so that none has a character to escape.
-/

namespace GenSubnet.Gateway
open Library

/-! ## Text -/

def quoted (text : String) : String := "\"" ++ text ++ "\""

def commaSeparated : List String → String
  | [] => ""
  | [text] => text
  | text :: next :: rest => text ++ "," ++ commaSeparated (next :: rest)

def objectText (members : List (String × String)) : String :=
  "\x7b" ++ commaSeparated (members.map fun m => quoted m.1 ++ ":" ++ m.2) ++ "\x7d"

def boolText (b : Bool) : String := if b then "true" else "false"

def PendingStart.json (entry : PendingStart) : String :=
  objectText
    [("round", quoted entry.round), ("start_id", quoted entry.startId),
      ("replaces", (entry.replaces.map quoted).getD "null"), ("sequence", toString entry.sequence),
      ("eligible_at", toString entry.eligibleAt), ("submitted", boolText entry.submitted)]

def CreateAttempt.json (a : CreateAttempt) : String :=
  objectText
    [("round", quoted a.round), ("start_id", quoted a.startId), ("at", toString a.atTime),
      ("rejected", boolText a.rejected), ("submitted", boolText a.submitted)]

def QueueState.json (state : QueueState) (deployment revision : String) : String :=
  objectText
    [("version", "1"), ("deployment", quoted deployment), ("revision", quoted revision),
      ("sequence", toString state.sequence),
      ("last_create_at", (state.lastCreateAt.map toString).getD "null"),
      ("pending", objectText (state.pending.items.map fun item => (item.1, item.2.json))),
      ("attempts", objectText (state.attempts.items.map fun item => (item.1, item.2.json))),
      ("history", objectText (state.history.items.map fun item =>
        (item.1, objectText (item.2.items.map fun item => (item.1, item.2.json))))),
      ("retained", objectText (state.retained.items.map fun item =>
        (item.1.1 ++ "/" ++ item.1.2, item.2.json)))]

/-! ## Changes -/

/-- `MAX_JOURNAL_BYTES` -/
def maxJournalBytes : Nat := 1024 * 1024

/-- The journal is saved only when it is short enough. -/
def QueueState.journaled {α : Type} (deployment revision : String) :
    Except QueueError (QueueState × α) → Except QueueError (QueueState × α)
  | .error e => .error e
  | .ok (state, result) =>
      if maxJournalBytes < (state.json deployment revision).utf8ByteSize then .error .capacityReached
      else .ok (state, result)

/-- An operation, and the revision that its change would save. -/
structure JournalEvent extends QueueEvent where
  revision : String

/-- An operation, with `_change` as it checks the length of the journal. -/
def StartQueue.performJournal (settings : QueueSettings) (deployment : String) (q : StartQueue)
    (e : JournalEvent) : StartQueue × Except QueueError Unit :=
  match e.op with
  | .load => (q.load e.now, .ok ())
  | op =>
      if q.Cached op then (q, .ok ())
      else q.change e.now e.saving fun state =>
        QueueState.journaled deployment e.revision (op.change settings e.now state)

/-- A connection that a hotkey asked for. -/
structure Asked where
  round : String
  hotkey : String
  startId : String
deriving DecidableEq

def QueueOp.asks : QueueOp → List Asked
  | .enqueue scope startId _ => [⟨scope.round, scope.hotkey, startId⟩]
  | _ => []

structure JournalRun where
  queue : StartQueue := {}
  /-- Every connection that was asked for so far. -/
  asked : List Asked := []

def JournalRun.step (settings : QueueSettings) (deployment : String) (s : JournalRun)
    (e : JournalEvent) : Option JournalRun :=
  some ⟨(s.queue.performJournal settings deployment e).1, s.asked ++ e.op.asks⟩

/-! ## Records -/

/-- The connections that the hotkey asked for, each once. -/
def askedBy (asked : List Asked) (hotkey : String) : List String :=
  ((asked.filter fun a => a.hotkey = hotkey).map Asked.startId).dedup

/-- The connections that the hotkey asked for in the round, each once. -/
def askedIn (asked : List Asked) (round hotkey : String) : List String :=
  askedBy (asked.filter fun a => a.round = round) hotkey

/-- The records that the journal keeps for the hotkey. -/
def QueueState.footprint (state : QueueState) (hotkey : String) : Nat :=
  (state.pending.get hotkey).toList.length + (state.attempts.get hotkey).toList.length +
    (state.historyOf hotkey).size + (state.retained.items.filter fun item => item.1.1 = hotkey).length

end GenSubnet.Gateway
