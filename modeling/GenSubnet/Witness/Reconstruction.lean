import GenSubnet.Witness.CompletedResponse
import Mathlib

/-!
# The events of a response give the response back

The stream of a final response splits its texts into deltas, in any order; what `completed_response`
returns depends on the response alone. A stream that contradicts itself is refused.
-/

namespace GenSubnet.Witness
open Library

/-! ## What an event brings -/

def ResponseEvent.deltaPart (value : ResponseEvent) : Option (PartKey × Text) :=
  if value.kind = .textDelta then some (value.key, value.delta.getD []) else none

def ResponseEvent.donePart (value : ResponseEvent) : Option (PartKey × Text) :=
  if value.kind = .textDone then some (value.key, value.text.getD []) else none

def ResponseEvent.doneItem (value : ResponseEvent) : Option (Int × OutputItem) :=
  if value.kind = .itemDone then some (value.outputIndex.getD 0, value.item.getD default) else none

def ResponseEvent.finalResponse (value : ResponseEvent) : Option CompletedResponse :=
  match value.kind with
  | .terminal _ => some (value.response.getD default)
  | _ => none

/-- The deltas of a part, in the order of the stream. -/
def deltasAt (events : List ResponseEvent) (key : PartKey) : List Text :=
  ((events.filterMap ResponseEvent.deltaPart).filter fun part => part.1 = key).map Prod.snd

/-- An event that has the fields which the decoder reads of its kind. -/
def ResponseEvent.Sound (value : ResponseEvent) : Prop :=
  value.isError = false ∧
    match value.kind with
    | .textDelta => value.delta.isSome
    | .textDone => value.text.isSome
    | .itemDone => (∃ index, value.outputIndex = some index ∧ 0 ≤ index) ∧ value.item.isSome
    | .terminal status => ∃ response, value.response = some response ∧ response.status = some status
    | .other => True

/-- One turn of the loop that does not raise. -/
inductive Received (s : Streamed) (value : ResponseEvent) : Streamed → Prop
  | delta {delta : Text} (kind : value.kind = .textDelta) (field : value.delta = some delta) :
      Received s value
        { s with deltas := s.deltas.set value.key ((s.deltas.get value.key).getD [] ++ [delta]) }
  | text {text : Text} (kind : value.kind = .textDone) (field : value.text = some text)
      (fresh : value.key ∉ s.texts.keys) :
      Received s value { s with texts := s.texts.set value.key text }
  | item {index : Int} {item : OutputItem} (kind : value.kind = .itemDone)
      (place : value.outputIndex = some index) (field : value.item = some item)
      (nonneg : 0 ≤ index) (fresh : index ∉ s.items.keys) :
      Received s value { s with items := s.items.set index item }
  | terminal {status : String} {response : CompletedResponse} (kind : value.kind = .terminal status)
      (field : value.response = some response) (agrees : response.status = some status)
      (fresh : s.completed = none) : Received s value { s with completed := some response }
  | other (kind : value.kind = .other) : Received s value s

theorem receive_iff {s after : Streamed} {value : ResponseEvent} :
    s.receive value = .ok after ↔ value.isError = false ∧ Received s value after := by
  constructor
  · intro received
    unfold Streamed.receive at received
    split at received
    · cases received
    · rename_i quiet
      refine ⟨Bool.not_eq_true _ ▸ quiet, ?_⟩
      split at received
      · rename_i kind
        split at received
        · cases received
        · rename_i field
          exact Except.ok.inj received ▸ .delta kind field
      · rename_i kind
        split at received
        · cases received
        · rename_i fresh
          split at received
          · cases received
          · rename_i field
            exact Except.ok.inj received ▸ .text kind field (mt Dict.contains_iff.mpr fresh)
      · rename_i kind
        split at received
        · cases received
        · rename_i place
          split at received
          · cases received
          · rename_i guard
            obtain ⟨nonneg, fresh⟩ := not_or.mp guard
            split at received
            · cases received
            · rename_i field
              exact Except.ok.inj received ▸
                .item kind place field (not_lt.mp nonneg) (mt Dict.contains_iff.mpr fresh)
      · rename_i kind
        split at received
        · cases received
        · rename_i fresh
          split at received
          · cases received
          · rename_i field
            split at received
            · cases received
            · rename_i agrees
              exact Except.ok.inj received ▸
                .terminal kind field (not_not.mp agrees) (by simpa using fresh)
      · rename_i kind
        exact Except.ok.inj received ▸ .other kind
  · rintro ⟨quiet, received⟩
    cases received with
    | delta kind field => simp [Streamed.receive, quiet, kind, field]
    | text kind field fresh =>
        simp [Streamed.receive, quiet, kind, field, mt Dict.contains_iff.mp fresh]
    | item kind place field nonneg fresh =>
        simp [Streamed.receive, quiet, kind, place, field, nonneg, mt Dict.contains_iff.mp fresh]
    | terminal kind field agrees fresh =>
        simp [Streamed.receive, quiet, kind, field, agrees, fresh]
    | other kind => simp [Streamed.receive, quiet, kind]

theorem Received.sound {s after : Streamed} {value : ResponseEvent} (quiet : value.isError = false)
    (received : Received s value after) : value.Sound := by
  refine ⟨quiet, ?_⟩
  cases received with
  | delta kind field => simp [kind, field]
  | text kind field => simp [kind, field]
  | item kind place field nonneg => simp [kind, place, field, nonneg]
  | terminal kind field agrees => simp [kind, field, agrees]
  | other kind => simp [kind]

/-! ## What the accumulators hold -/

/-- The accumulators after the events. -/
structure Gathered (events : List ResponseEvent) (s : Streamed) : Prop where
  completed : s.completed.toList = events.filterMap ResponseEvent.finalResponse
  items : s.items.items = events.filterMap ResponseEvent.doneItem
  texts : s.texts.items = events.filterMap ResponseEvent.donePart
  deltas : ∀ key, s.deltas.get key =
    if deltasAt events key = [] then none else some (deltasAt events key)

theorem gathered_start : Gathered [] .start :=
  ⟨rfl, rfl, rfl, fun _ => rfl⟩

theorem deltasAt_append (before after : List ResponseEvent) (key : PartKey) :
    deltasAt (before ++ after) key = deltasAt before key ++ deltasAt after key := by
  simp [deltasAt]

theorem deltasAt_single (value : ResponseEvent) (key : PartKey) :
    deltasAt [value] key =
      if value.kind = .textDelta ∧ value.key = key then [value.delta.getD []] else [] := by
  by_cases kind : value.kind = .textDelta
  · by_cases same : value.key = key <;> simp [deltasAt, ResponseEvent.deltaPart, kind, same]
  · simp [deltasAt, ResponseEvent.deltaPart, kind]

theorem gathered_received {events : List ResponseEvent} {s after : Streamed} {value : ResponseEvent}
    (gathered : Gathered events s) (received : Received s value after) :
    Gathered (events ++ [value]) after := by
  cases received with
  | @delta delta kind field =>
      constructor
      · simp [gathered.completed, ResponseEvent.finalResponse, kind]
      · simp [gathered.items, ResponseEvent.doneItem, kind]
      · simp [gathered.texts, ResponseEvent.donePart, kind]
      · intro key
        rw [Dict.get_set, deltasAt_append, deltasAt_single]
        by_cases same : value.key = key
        · subst same
          have old : (s.deltas.get value.key).getD [] = deltasAt events value.key := by
            rw [gathered.deltas]
            split
            · rename_i none
              rw [none, Option.getD_none]
            · rfl
          simp [kind, field, old]
        · simp [kind, same, Ne.symm same, gathered.deltas]
  | @text text kind field fresh =>
      constructor
      · simp [gathered.completed, ResponseEvent.finalResponse, kind]
      · simp [gathered.items, ResponseEvent.doneItem, kind]
      · rw [Dict.items_set_of_not_mem fresh]
        simp [gathered.texts, ResponseEvent.donePart, kind, field]
      · intro key
        rw [deltasAt_append, deltasAt_single]
        simp [kind, gathered.deltas]
  | @item index item kind place field nonneg fresh =>
      constructor
      · simp [gathered.completed, ResponseEvent.finalResponse, kind]
      · rw [Dict.items_set_of_not_mem fresh]
        simp [gathered.items, ResponseEvent.doneItem, kind, place, field]
      · simp [gathered.texts, ResponseEvent.donePart, kind]
      · intro key
        rw [deltasAt_append, deltasAt_single]
        simp [kind, gathered.deltas]
  | @terminal status response kind field agrees fresh =>
      constructor
      · have none : events.filterMap ResponseEvent.finalResponse = [] := by
          rw [← gathered.completed, fresh]
          rfl
        simp [none, ResponseEvent.finalResponse, kind, field]
      · simp [gathered.items, ResponseEvent.doneItem, kind]
      · simp [gathered.texts, ResponseEvent.donePart, kind]
      · intro key
        rw [deltasAt_append, deltasAt_single]
        simp [kind, gathered.deltas]
  | other kind =>
      constructor
      · simp [gathered.completed, ResponseEvent.finalResponse, kind]
      · simp [gathered.items, ResponseEvent.doneItem, kind]
      · simp [gathered.texts, ResponseEvent.donePart, kind]
      · intro key
        rw [deltasAt_append, deltasAt_single]
        simp [kind, gathered.deltas]

theorem receiveAll_append (s : Streamed) (before after : List ResponseEvent) :
    s.receiveAll (before ++ after) =
      match s.receiveAll before with
      | .error e => .error e
      | .ok s => s.receiveAll after := by
  induction before generalizing s with
  | nil => rfl
  | cons value before ih =>
      simp only [List.cons_append, Streamed.receiveAll]
      cases s.receive value with
      | error e => rfl
      | ok s => exact ih s

theorem receiveAll_gathered {events : List ResponseEvent} {s : Streamed}
    (received : Streamed.start.receiveAll events = .ok s) : Gathered events s := by
  induction events using List.reverseRecOn generalizing s with
  | nil => exact Except.ok.inj received ▸ gathered_start
  | append_singleton before value ih =>
      rw [receiveAll_append] at received
      split at received
      · cases received
      · rename_i middle run
        simp only [Streamed.receiveAll] at received
        split at received
        · cases received
        · rename_i step
          cases received
          exact gathered_received (ih run) (receive_iff.mp step).2

theorem receiveAll_of_sound {events : List ResponseEvent}
    (sound : ∀ value ∈ events, value.Sound)
    (texts : ((events.filterMap ResponseEvent.donePart).map Prod.fst).Nodup)
    (items : ((events.filterMap ResponseEvent.doneItem).map Prod.fst).Nodup)
    (responses : (events.filterMap ResponseEvent.finalResponse).length ≤ 1) :
    ∃ s, Streamed.start.receiveAll events = .ok s := by
  induction events using List.reverseRecOn with
  | nil => exact ⟨_, rfl⟩
  | append_singleton before value ih =>
      rw [List.filterMap_append, List.map_append] at texts items
      rw [List.filterMap_append, List.length_append] at responses
      obtain ⟨s, run⟩ := ih (fun value member => sound value (List.mem_append_left _ member))
        texts.of_append_left items.of_append_left (by omega)
      have gathered : Gathered before s := receiveAll_gathered run
      obtain ⟨quiet, fields⟩ := sound value (List.mem_append_right _ List.mem_cons_self)
      have step : ∃ after, Received s value after := by
        split at fields
        · rename_i kind
          obtain ⟨delta, field⟩ := Option.isSome_iff_exists.mp fields
          exact ⟨_, .delta kind field⟩
        · rename_i kind
          obtain ⟨text, field⟩ := Option.isSome_iff_exists.mp fields
          refine ⟨_, .text kind field ?_⟩
          rw [Dict.keys, gathered.texts]
          intro present
          exact (List.nodup_append.mp texts).2.2 _ present value.key
            (by simp [ResponseEvent.donePart, kind]) rfl
        · rename_i kind
          obtain ⟨⟨index, place, nonneg⟩, some⟩ := fields
          obtain ⟨item, field⟩ := Option.isSome_iff_exists.mp some
          refine ⟨_, .item kind place field nonneg ?_⟩
          rw [Dict.keys, gathered.items]
          intro present
          exact (List.nodup_append.mp items).2.2 _ present index
            (by simp [ResponseEvent.doneItem, kind, place]) rfl
        · rename_i status kind
          obtain ⟨response, field, agrees⟩ := fields
          refine ⟨_, .terminal kind field agrees ?_⟩
          have last : ([value].filterMap ResponseEvent.finalResponse).length = 1 := by
            simp [ResponseEvent.finalResponse, kind]
          have empty : s.completed.toList = [] := by
            rw [gathered.completed]
            exact List.eq_nil_of_length_eq_zero (by omega)
          simpa using empty
        · rename_i kind
          exact ⟨_, .other kind⟩
      obtain ⟨after, received⟩ := step
      refine ⟨after, ?_⟩
      rw [receiveAll_append, run]
      simp only [Streamed.receiveAll, receive_iff.mpr ⟨quiet, received⟩]

/-! ## The texts of items -/

def OutputContent.textAt (i : Int) (content : OutputContent × Nat) : Option (PartKey × Text) :=
  if content.1.type = some "output_text" then
    content.1.text.map fun text => (toLex (i, (content.2 : Int)), text)
  else none

def contentParts (i : Int) (j : Nat) (content : List OutputContent) : List (PartKey × Text) :=
  (content.zipIdx j).filterMap (OutputContent.textAt i)

/-- The texts of the item at output index `i`. -/
def OutputItem.parts (i : Int) (item : OutputItem) : List (PartKey × Text) :=
  if item.type = some "message" then contentParts i 0 (item.content.getD []) else []

def partsOf (items : List (Int × OutputItem)) : List (PartKey × Text) :=
  items.flatMap fun item => item.2.parts item.1

def OutputContent.Readable (content : OutputContent) : Prop :=
  content.type = some "output_text" → content.text.isSome

/-- Every output text of a message has its text. -/
def OutputItem.Readable (item : OutputItem) : Prop :=
  item.type = some "message" → ∀ content ∈ item.content.getD [], content.Readable

theorem update_append {κ α : Type*} [DecidableEq κ] (d : Dict κ α) (before after : List (κ × α)) :
    d.update (before ++ after) = (d.update before).update after :=
  List.foldl_append

theorem contentParts_cons (i : Int) (j : Nat) (content : OutputContent) (rest : List OutputContent) :
    contentParts i j (content :: rest) =
      (OutputContent.textAt i (content, j)).toList ++ contentParts i (j + 1) rest := by
  simp only [contentParts, List.zipIdx_cons, List.filterMap_cons]
  cases OutputContent.textAt i (content, j) with
  | none => rfl
  | some part => rfl

theorem contentTexts_iff {i : Int} {content : List OutputContent} {j : Nat}
    {texts after : Dict PartKey Text} :
    contentTexts i j texts content = .ok after ↔
      (∀ c ∈ content, c.Readable) ∧ after = texts.update (contentParts i j content) := by
  induction content generalizing j texts with
  | nil => simp [contentTexts, contentParts, Dict.update, eq_comm]
  | cons content rest ih =>
      rw [contentTexts, contentParts_cons, update_append, List.forall_mem_cons]
      by_cases kind : content.type = some "output_text"
      · cases field : content.text with
        | none => simp [kind, field, OutputContent.Readable]
        | some text =>
            have readable : content.Readable := fun _ => by rw [field]; rfl
            simp only [kind, if_true, ih, readable, true_and, OutputContent.textAt, field]
            rfl
      · have readable : content.Readable := fun same => absurd same kind
        simp only [kind, if_false, ih, readable, true_and, OutputContent.textAt]
        rfl

theorem finalTexts_iff {items : List (Int × OutputItem)} {texts after : Dict PartKey Text} :
    finalTexts texts items = .ok after ↔
      (∀ item ∈ items, item.2.Readable) ∧ after = texts.update (partsOf items) := by
  induction items generalizing texts with
  | nil => simp [finalTexts, partsOf, Dict.update, eq_comm]
  | cons entry rest ih =>
      obtain ⟨i, item⟩ := entry
      have split : partsOf ((i, item) :: rest) = item.parts i ++ partsOf rest := List.flatMap_cons
      rw [finalTexts, split, update_append, List.forall_mem_cons]
      by_cases kind : item.type = some "message"
      · simp only [kind, if_true, OutputItem.Readable, forall_const, OutputItem.parts]
        cases step : contentTexts i 0 texts (item.content.getD []) with
        | error e =>
            have unreadable : ¬ ∀ c ∈ item.content.getD [], c.Readable := by
              intro readable
              have fine : contentTexts i 0 texts (item.content.getD []) = .ok _ :=
                contentTexts_iff.mpr ⟨readable, rfl⟩
              rw [step] at fine
              cases fine
            simp [unreadable]
        | ok middle =>
            obtain ⟨readable, rfl⟩ := contentTexts_iff.mp step
            simp only [ih]
            exact ⟨fun h => ⟨⟨readable, h.1⟩, h.2⟩, fun h => ⟨h.1.2, h.2⟩⟩
      · have readable : item.Readable := fun same => absurd same kind
        simp only [kind, if_false, ih, readable, true_and, OutputItem.parts]
        rfl

theorem contentParts_ordered (i : Int) (j : Nat) (content : List OutputContent) :
    (contentParts i j content).Pairwise fun a b => a.1 < b.1 := by
  have indexes : ((content.zipIdx j).map Prod.snd).Pairwise (· < ·) := by
    rw [List.zipIdx_map_snd]
    exact List.pairwise_lt_range'
  apply List.pairwise_filterMap.mpr
  refine (List.pairwise_map.mp indexes).imp ?_
  intro a b below part found other present
  obtain ⟨key, rfl⟩ : ∃ text, part = (toLex (i, (a.2 : Int)), text) := by
    unfold OutputContent.textAt at found
    split at found
    · obtain ⟨text, -, rfl⟩ := Option.map_eq_some_iff.mp found
      exact ⟨text, rfl⟩
    · cases found
  obtain ⟨otherKey, rfl⟩ : ∃ text, other = (toLex (i, (b.2 : Int)), text) := by
    unfold OutputContent.textAt at present
    split at present
    · obtain ⟨text, -, rfl⟩ := Option.map_eq_some_iff.mp present
      exact ⟨text, rfl⟩
    · cases present
  exact Prod.Lex.toLex_lt_toLex.mpr (Or.inr ⟨rfl, by simpa using below⟩)

theorem mem_contentParts_index {i : Int} {j : Nat} {content : List OutputContent}
    {part : PartKey × Text} (member : part ∈ contentParts i j content) : (ofLex part.1).1 = i := by
  obtain ⟨entry, -, found⟩ := List.mem_filterMap.mp member
  unfold OutputContent.textAt at found
  split at found
  · obtain ⟨text, -, rfl⟩ := Option.map_eq_some_iff.mp found
    rfl
  · cases found

theorem mem_parts_index {i : Int} {item : OutputItem} {part : PartKey × Text}
    (member : part ∈ item.parts i) : (ofLex part.1).1 = i := by
  unfold OutputItem.parts at member
  split at member
  · exact mem_contentParts_index member
  · cases member

theorem partsOf_ordered {items : List (Int × OutputItem)}
    (ordered : (items.map Prod.fst).Pairwise (· < ·)) :
    ((partsOf items).map Prod.fst).Pairwise (· < ·) := by
  apply List.pairwise_map.mpr
  apply List.pairwise_flatMap.mpr
  constructor
  · intro item member
    unfold OutputItem.parts
    split
    · exact contentParts_ordered _ _ _
    · exact List.Pairwise.nil
  · refine (List.pairwise_map.mp ordered).imp ?_
    intro a b below x left y right
    apply Prod.Lex.toLex_lt_toLex.mpr
    left
    rw [← mem_parts_index left, ← mem_parts_index right] at below
    exact below

theorem enumerated_ordered (items : List OutputItem) :
    ((enumerated items).map Prod.fst).Pairwise (· < ·) := by
  have indexes : (items.zipIdx.map Prod.snd).Pairwise (· < ·) := by
    rw [List.zipIdx_map_snd]
    exact List.pairwise_lt_range'
  simp only [enumerated, List.map_map]
  apply List.pairwise_map.mpr
  exact (List.pairwise_map.mp indexes).imp fun below => by simpa using below

theorem update_empty_items {κ α : Type*} [DecidableEq κ] {pairs : List (κ × α)}
    (nodup : (pairs.map Prod.fst).Nodup) : (Dict.empty.update pairs).items = pairs :=
  Dict.items_ofList nodup

/-! ## Streams of a final response -/

/-- A final response and its items at their output indexes, which can be sparse. -/
structure FinalResponse where
  response : CompletedResponse
  placed : List (Int × OutputItem)
  ordered : (placed.map Prod.fst).Pairwise (· < ·)
  readable : ∀ item ∈ placed, item.2.Readable

/-- The texts of the response, by output index and content index. -/
def FinalResponse.parts (final : FinalResponse) : List (PartKey × Text) := partsOf final.placed

theorem FinalResponse.parts_ordered (final : FinalResponse) :
    (final.parts.map Prod.fst).Pairwise (· < ·) :=
  partsOf_ordered final.ordered

/-- The output that the terminal event has: it lists the items, or item events carry them. -/
inductive Carried (final : FinalResponse) (events : List ResponseEvent) :
    Option (List OutputItem) → Prop
  | listed (nonempty : final.placed ≠ [])
      (dense : final.placed = enumerated (final.placed.map Prod.snd))
      (indexes : ((events.filterMap ResponseEvent.doneItem).map Prod.fst).Nodup) :
      Carried final events (some (final.placed.map Prod.snd))
  | omitted {output : Option (List OutputItem)} (empty : output.getD [] = [])
      (sent : (events.filterMap ResponseEvent.doneItem).Perm final.placed) :
      Carried final events output

/-- The events of a final response: its texts in deltas, in any order. -/
structure StreamOf (final : FinalResponse) (events : List ResponseEvent) : Prop where
  sound : ∀ value ∈ events, value.Sound
  splits : ∀ key, deltasAt events key ≠ [] → (key, (deltasAt events key).flatten) ∈ final.parts
  texts : events.filterMap ResponseEvent.donePart = [] ∨
    (events.filterMap ResponseEvent.donePart).Perm final.parts
  terminal : ∃ output, Carried final events output ∧
    events.filterMap ResponseEvent.finalResponse = [{ final.response with output := output }]

theorem Carried.indexes {final : FinalResponse} {events : List ResponseEvent}
    {output : Option (List OutputItem)} (carried : Carried final events output) :
    ((events.filterMap ResponseEvent.doneItem).map Prod.fst).Nodup := by
  cases carried with
  | listed nonempty dense indexes => exact indexes
  | omitted empty sent =>
      apply (sent.map Prod.fst).nodup_iff.mpr
      exact final.ordered.imp fun below => below.ne

theorem Carried.placed {final : FinalResponse} {events : List ResponseEvent}
    {output : Option (List OutputItem)} {s : Streamed} (carried : Carried final events output)
    (gathered : Gathered events s) :
    indexedOutput s { final.response with output := output } = final.placed ∧
      (restoredOutput s { final.response with output := output }).items =
        final.placed.map Prod.snd := by
  cases carried with
  | listed nonempty dense indexes =>
      have full : ¬ (final.placed.map Prod.snd).isEmpty = true := by simpa using nonempty
      constructor
      · simp only [indexedOutput, CompletedResponse.items, Option.getD_some, full, false_and,
          if_false]
        exact dense.symm
      · simp [restoredOutput, CompletedResponse.items, nonempty]
  | omitted empty sent =>
      have sorted : s.items.sortedItems = final.placed :=
        Dict.sortedItems_eq_of_perm (gathered.items ▸ sent) final.ordered
      by_cases none : s.items.size = 0
      · have absent : final.placed = [] := by
          rw [← sorted, ← List.length_eq_zero_iff, s.items.sortedItems_perm.length_eq]
          exact none
        simp [indexedOutput, restoredOutput, CompletedResponse.items, none, empty, absent, enumerated]
      · simp [indexedOutput, restoredOutput, CompletedResponse.items, none, empty, sorted]

theorem restoredOutput_rest (s : Streamed) (completed : CompletedResponse) :
    { restoredOutput s completed with output := none } = { completed with output := none } := by
  unfold restoredOutput
  split <;> rfl

theorem StreamOf.received {final : FinalResponse} {events : List ResponseEvent}
    (stream : StreamOf final events) : ∃ s, Streamed.start.receiveAll events = .ok s := by
  obtain ⟨output, carried, terminal⟩ := stream.terminal
  apply receiveAll_of_sound stream.sound
  · rcases stream.texts with none | all
    · rw [none]
      exact List.nodup_nil
    · apply (all.map Prod.fst).nodup_iff.mpr
      exact final.parts_ordered.imp fun below => below.ne
  · exact carried.indexes
  · rw [terminal]
    exact Nat.le_refl 1

theorem stream_result {final : FinalResponse} {events : List ResponseEvent}
    (stream : StreamOf final events) (raiseFailed : Bool) :
    ∃ response, response.items = final.placed.map Prod.snd ∧
      { response with output := none } = { final.response with output := none } ∧
      completedResponse raiseFailed events =
        if raiseFailed ∧ response.status ≠ some "completed" then
          .error (.witness (providerFailure response))
        else .ok ((final.parts.map Prod.snd).flatten, response) := by
  obtain ⟨s, run⟩ := stream.received
  have gathered : Gathered events s := receiveAll_gathered run
  obtain ⟨output, carried, terminal⟩ := stream.terminal
  obtain ⟨placed, items⟩ := carried.placed gathered
  have present : s.completed = some { final.response with output := output } := by
    have only := gathered.completed.trans terminal
    cases is : s.completed with
    | none => simp [is] at only
    | some completed => simpa [is] using only
  have nodup : (final.parts.map Prod.fst).Nodup := final.parts_ordered.imp fun below => below.ne
  have texts : (Dict.empty.update final.parts).items = final.parts := update_empty_items nodup
  have found : finalTexts .empty final.placed = .ok (Dict.empty.update final.parts) :=
    finalTexts_iff.mpr ⟨final.readable, rfl⟩
  -- the texts of the done events are those of the items, so either source gives the same
  have agree : ¬ ((Dict.empty.update final.parts).size ≠ 0 ∧ s.texts.size ≠ 0 ∧
      (!(Dict.empty.update final.parts).same s.texts) = true) := by
    rintro ⟨-, sent, differs⟩
    rcases stream.texts with none | all
    · exact sent (by rw [Dict.size, gathered.texts, none]; rfl)
    · rw [Dict.same_iff_perm.mpr (by rw [texts, gathered.texts]; exact all.symm)] at differs
      cases differs
  have chosen : (if (Dict.empty.update final.parts).size ≠ 0 then Dict.empty.update final.parts
      else s.texts) = Dict.empty.update final.parts := by
    split
    · rfl
    · rename_i none
      rw [not_not, Dict.size, texts, List.length_eq_zero_iff] at none
      apply Dict.ext
      rw [texts, gathered.texts, none]
      rcases stream.texts with absent | all
      · exact absent
      · exact (none ▸ all).eq_nil
  have joined : ¬ (s.deltas.items.any fun part =>
      some part.2.flatten ≠ (Dict.empty.update final.parts).get part.1) = true := by
    rw [Bool.not_eq_true, List.any_eq_false]
    intro part member
    have deltas := Dict.get_eq_some_iff.mpr member
    rw [gathered.deltas] at deltas
    split at deltas
    · cases deltas
    · rename_i some
      rw [← Option.some.inj deltas,
        Dict.get_eq_some_iff.mpr (texts.symm ▸ stream.splits part.1 some)]
      simp
  have settled : ¬ ((restoredOutput s { final.response with output := output }).items.isEmpty = true ∧
      (Dict.empty.update final.parts).size ≠ 0) := by
    rintro ⟨empty, some⟩
    rw [items, List.isEmpty_iff, List.map_eq_nil_iff] at empty
    apply some
    rw [Dict.size, texts, FinalResponse.parts, empty]
    rfl
  refine ⟨restoredOutput s { final.response with output := output }, items,
    restoredOutput_rest _ _, ?_⟩
  simp only [completedResponse, run, Streamed.finish, present, placed, found, if_neg agree, chosen,
    if_neg joined, if_neg settled]
  rw [Dict.sortedItems_eq_of_perm (List.Perm.of_eq texts) final.parts_ordered]

/-! ## Streams that are refused -/

/-- A final text of a part: that of a done event, or that of the item in the output. -/
inductive FinalText (events : List ResponseEvent) (key : PartKey) (text : Text) : Prop
  | done (sent : (key, text) ∈ events.filterMap ResponseEvent.donePart)
  | listed {completed : CompletedResponse}
      (terminal : completed ∈ events.filterMap ResponseEvent.finalResponse)
      (nonempty : completed.items ≠ []) (part : (key, text) ∈ partsOf (enumerated completed.items))
  | carried {completed : CompletedResponse}
      (terminal : completed ∈ events.filterMap ResponseEvent.finalResponse)
      (omitted : completed.items = [])
      (part : (key, text) ∈ partsOf (events.filterMap ResponseEvent.doneItem))

/-- A stream that contradicts itself. -/
inductive Contradicts (events : List ResponseEvent) : Prop
  | deltas {key : PartKey} {text : Text} (streamed : deltasAt events key ≠ [])
      (final : FinalText events key text) (differs : (deltasAt events key).flatten ≠ text)
  | text (twice : ¬ ((events.filterMap ResponseEvent.donePart).map Prod.fst).Nodup)
  | item (twice : ¬ ((events.filterMap ResponseEvent.doneItem).map Prod.fst).Nodup)
  | terminal (twice : 2 ≤ (events.filterMap ResponseEvent.finalResponse).length)

theorem finish_ok {raiseFailed : Bool} {s : Streamed} {text : Text} {response : CompletedResponse}
    (done : s.finish raiseFailed = .ok (text, response)) :
    ∃ completed final, s.completed = some completed ∧
      finalTexts .empty (indexedOutput s completed) = .ok final ∧
      (final.size ≠ 0 → s.texts.size ≠ 0 → final.same s.texts = true) ∧
      ∀ part ∈ s.deltas.items,
        (if final.size ≠ 0 then final else s.texts).get part.1 = some part.2.flatten := by
  unfold Streamed.finish at done
  split at done
  · cases done
  · rename_i completed present
    simp only at done
    split at done
    · cases done
    · rename_i final found
      split at done
      · cases done
      · rename_i agree
        refine ⟨completed, final, present, found, ?_, ?_⟩
        · intro some sent
          by_contra differs
          exact agree ⟨some, sent, by simpa using differs⟩
        · intro part member
          by_contra differs
          have stop : (s.deltas.items.any fun part =>
              some part.2.flatten ≠ (if final.size ≠ 0 then final else s.texts).get part.1) = true :=
            List.any_eq_true.mpr ⟨part, member, decide_eq_true (Ne.symm differs)⟩
          rw [if_pos stop] at done
          cases done

theorem size_ne_zero {κ α : Type*} [DecidableEq κ] {d : Dict κ α} {item : κ × α}
    (member : item ∈ d.items) : d.size ≠ 0 :=
  (List.length_pos_of_mem member).ne'

theorem finalText_get {events : List ResponseEvent} {s : Streamed} {completed : CompletedResponse}
    {final : Dict PartKey Text} (gathered : Gathered events s)
    (present : s.completed = some completed)
    (found : finalTexts .empty (indexedOutput s completed) = .ok final)
    (agree : final.size ≠ 0 → s.texts.size ≠ 0 → final.same s.texts = true)
    {key : PartKey} {text : Text} (is : FinalText events key text) :
    (if final.size ≠ 0 then final else s.texts).get key = some text := by
  have terminals : events.filterMap ResponseEvent.finalResponse = [completed] := by
    rw [← gathered.completed, present]
    rfl
  have listed : ∀ items, (items.map Prod.fst).Pairwise (· < ·) →
      indexedOutput s completed = items → (key, text) ∈ partsOf items →
      (if final.size ≠ 0 then final else s.texts).get key = some text := by
    intro items ordered indexed part
    rw [indexed] at found
    obtain ⟨-, rfl⟩ := finalTexts_iff.mp found
    have texts : (Dict.empty.update (partsOf items)).items = partsOf items :=
      update_empty_items ((partsOf_ordered ordered).imp fun below => below.ne)
    rw [← texts] at part
    rw [if_pos (size_ne_zero part)]
    exact Dict.get_eq_some_iff.mpr part
  cases is with
  | done sent =>
      rw [← gathered.texts] at sent
      split
      · rename_i some
        rw [Dict.get_eq_of_perm (Dict.same_iff_perm.mp (agree some (size_ne_zero sent)))]
        exact Dict.get_eq_some_iff.mpr sent
      · exact Dict.get_eq_some_iff.mpr sent
  | listed terminal nonempty part =>
      rw [terminals] at terminal
      obtain rfl := List.mem_singleton.mp terminal
      apply listed _ (enumerated_ordered _) _ part
      simp [indexedOutput, nonempty]
  | carried terminal omitted part =>
      rw [terminals] at terminal
      obtain rfl := List.mem_singleton.mp terminal
      rw [← gathered.items] at part
      have same : (partsOf s.items.sortedItems).Perm (partsOf s.items.items) :=
        s.items.sortedItems_perm.flatMap_right _
      obtain ⟨item, member, -⟩ := List.mem_flatMap.mp part
      apply listed _ s.items.sortedItems_ordered _ (same.mem_iff.mpr part)
      simp [indexedOutput, omitted, size_ne_zero member]

theorem contradiction_refused {events : List ResponseEvent} (contradicts : Contradicts events)
    (raiseFailed : Bool) : ∃ e, completedResponse raiseFailed events = .error e := by
  cases result : completedResponse raiseFailed events with
  | error e => exact ⟨e, rfl⟩
  | ok returned =>
      exfalso
      unfold completedResponse at result
      split at result
      · cases result
      · rename_i s run
        have gathered : Gathered events s := receiveAll_gathered run
        obtain ⟨completed, final, present, found, agree, joined⟩ := finish_ok result
        cases contradicts with
        | @deltas key text streamed is differs =>
            have member : (key, deltasAt events key) ∈ s.deltas.items := by
              apply Dict.get_eq_some_iff.mp
              rw [gathered.deltas, if_neg streamed]
            have same := joined _ member
            rw [finalText_get gathered present found agree is] at same
            exact differs (Option.some.inj same).symm
        | text twice => exact twice (gathered.texts ▸ s.texts.nodup)
        | item twice => exact twice (gathered.items ▸ s.items.nodup)
        | terminal twice =>
            rw [← gathered.completed, present] at twice
            simp at twice

/-- A stream of a final response gives its texts, in the order of the keys, and its items; for a
failed or incomplete response the raised error carries them. A stream that contradicts itself is
refused. -/
theorem response_reconstructed :
    (∀ final events, StreamOf final events → ∀ raiseFailed, ∃ response,
      response.items = final.placed.map Prod.snd ∧
      { response with output := none } = { final.response with output := none } ∧
      completedResponse raiseFailed events =
        if raiseFailed ∧ response.status ≠ some "completed" then
          .error (.witness (providerFailure response))
        else .ok ((final.parts.map Prod.snd).flatten, response)) ∧
    ∀ events, Contradicts events → ∀ raiseFailed,
      ∃ e, completedResponse raiseFailed events = .error e :=
  ⟨fun _ _ stream raiseFailed => stream_result stream raiseFailed,
    fun _ contradicts raiseFailed => contradiction_refused contradicts raiseFailed⟩

/-- A message with one output text. -/
def message (text : Text) : OutputItem :=
  ⟨some "message", some [⟨some "output_text", some text, []⟩], []⟩

/-- Items at indexes 1 and 3, where a gap was left by items that were dropped. -/
def gappedResponse : FinalResponse where
  response := ⟨some "completed", none, none, []⟩
  placed := [(1, message [97, 98]), (3, message [99])]
  ordered := by decide
  readable := by
    intro item member _ content present _
    fin_cases member <;> simp [message] at present <;> simp [present]

def gappedEvents : List ResponseEvent :=
  [{ type := some "response.output_text.delta", outputIndex := some 3, delta := some [99] },
    { type := some "response.output_text.delta", outputIndex := some 1, delta := some [97] },
    { type := some "response.output_item.done", outputIndex := some 3, item := some (message [99]) },
    { type := some "response.output_text.delta", outputIndex := some 1, delta := some [98] },
    { type := some "response.output_item.done", outputIndex := some 1, item := some (message [97, 98]) },
    { type := some "response.completed", response := some ⟨some "completed", none, none, []⟩ }]

theorem gapped_stream : StreamOf gappedResponse gappedEvents where
  sound := by simp [gappedEvents, ResponseEvent.Sound, ResponseEvent.isError, ResponseEvent.kind]
  splits := by
    intro key streamed
    have deltas : gappedEvents.filterMap ResponseEvent.deltaPart =
        [(toLex (3, 0), [99]), (toLex (1, 0), [97]), (toLex (1, 0), [98])] := by decide
    simp only [deltasAt, deltas] at streamed ⊢
    by_cases third : toLex (3, 0) = key
    · subst third
      decide
    · by_cases first : toLex (1, 0) = key
      · subst first
        decide
      · simp [third, first] at streamed
  texts := Or.inl (by decide)
  terminal := ⟨none, .omitted rfl (List.Perm.swap _ _ _), rfl⟩

theorem gapped_response_reconstructed : ∃ response, response.items.length = 2 ∧
    completedResponse true gappedEvents = .ok ([97, 98, 99], response) := by
  obtain ⟨response, items, rest, result⟩ :=
    response_reconstructed.1 gappedResponse gappedEvents gapped_stream true
  have status : response.status = some "completed" := congrArg CompletedResponse.status rest
  refine ⟨response, by rw [items]; rfl, ?_⟩
  rw [result, if_neg (by simp [status])]
  rfl

def terminalEvent (status : String) (items : List OutputItem) : ResponseEvent :=
  { type := some ("response." ++ status), response := some ⟨some status, some items, none, []⟩ }

/-- A text without deltas is not compared with them, and a failed response is raised. -/
theorem unstreamed_text_accepted :
    (¬ ∀ events key text, FinalText events key text → (deltasAt events key).flatten ≠ text →
      ∀ raiseFailed, ∃ e, completedResponse raiseFailed events = .error e) ∧
    ∃ final events, StreamOf final events ∧ ∃ e, completedResponse true events = .error e := by
  constructor
  · intro refused
    have final : FinalText [terminalEvent "completed" [message [97]]] (toLex (0, 0)) [97] :=
      .listed (List.mem_singleton.mpr rfl) (by simp [CompletedResponse.items, terminalEvent]) (by decide)
    obtain ⟨e, error⟩ := refused _ _ _ final (by decide) true
    cases error
  · refine ⟨⟨⟨some "failed", none, none, []⟩, [], .nil, by simp⟩, [terminalEvent "failed" []], ?_, ?_⟩
    · constructor
      · simp [terminalEvent, ResponseEvent.Sound, ResponseEvent.isError, ResponseEvent.kind]
      · intro key streamed
        exact absurd rfl streamed
      · exact Or.inl rfl
      · exact ⟨some [], .omitted rfl .nil, rfl⟩
    · exact ⟨_, rfl⟩

end GenSubnet.Witness
