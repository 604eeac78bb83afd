import GenSubnet.Library.DictOrder
import GenSubnet.Library.PythonJson
import Mathlib

/-!
# The completed response of an event stream

`completed_response`, from the events that `sse_events` decodes. The events, the items and the
response carry the fields of their typed dictionaries; a `none` is a field that is absent. The text
of an output part is found by the index of its item and its own index in the content of that item.
-/

namespace GenSubnet.Witness
open Library

/-- The code points of a string. -/
abbrev Text := List Nat

structure OutputContent where
  type : Option String
  text : Option Text
  rest : List (Text × Json)

structure OutputItem where
  type : Option String
  content : Option (List OutputContent)
  rest : List (Text × Json)
deriving Inhabited

/-- What the raised error reads of the error of a response. -/
structure ResponseFault where
  code : Option Text
  message : Option Text

structure CompletedResponse where
  status : Option String
  output : Option (List OutputItem)
  error : Option ResponseFault
  rest : List (Text × Json)
deriving Inhabited

/-- An event; `message`, `code` and `param` are those of a flat error event. -/
structure ResponseEvent where
  type : Option String
  outputIndex : Option Int := none
  contentIndex : Option Int := none
  delta : Option Text := none
  text : Option Text := none
  item : Option OutputItem := none
  response : Option CompletedResponse := none
  error : Option Json := none
  message : Option Json := none
  code : Option Json := none
  param : Option Json := none

inductive ErrorSource | client | gateway | provider

structure WitnessError where
  message : String
  source : ErrorSource
  statusCode : Option Nat := none
  code : String
  providerCode : Option Text
  param : Option Text := none
  providerMessage : Option Text
  response : Option CompletedResponse := none

/-- What `completed_response` raises. -/
inductive StreamError
  | witness (error : WitnessError)
  | value (message : String)
  | missing (key : String)

/-- `isinstance(value, str)` -/
def textOf : Option Json → Option Text
  | some (.str s) => some s
  | _ => none

/-- `provider_error(200, …)` of the details of an error event. -/
def providerError (value : ResponseEvent) : WitnessError :=
  let details (key : String) (flat : Option Json) : Option Json :=
    match value.error with
    | some (.object members) => lookupIn (codePoints key) members
    | _ => flat
  { message := "OpenAI reported a streaming error; inference was not retried"
    source := .provider
    statusCode := some 200
    code := "provider_error"
    providerCode := textOf (details "code" value.code)
    param := textOf (details "param" value.param)
    providerMessage := textOf (details "message" value.message) }

/-- The event types that the decoder acts on. -/
inductive EventKind
  | textDelta | textDone | itemDone
  | terminal (status : String)
  | other
deriving DecidableEq

def ResponseEvent.kind (value : ResponseEvent) : EventKind :=
  if value.type = some "response.output_text.delta" then .textDelta
  else if value.type = some "response.output_text.done" then .textDone
  else if value.type = some "response.output_item.done" then .itemDone
  else if value.type = some "response.completed" then .terminal "completed"
  else if value.type = some "response.failed" then .terminal "failed"
  else if value.type = some "response.incomplete" then .terminal "incomplete"
  else .other

def ResponseEvent.isError (value : ResponseEvent) : Bool :=
  value.type = some "error" || (value.error.map Json.truthy).getD false

/-- An output index and a content index. -/
abbrev PartKey := Int ×ₗ Int

def ResponseEvent.key (value : ResponseEvent) : PartKey :=
  toLex (value.outputIndex.getD 0, value.contentIndex.getD 0)

/-- The accumulators of the loop. -/
structure Streamed where
  completed : Option CompletedResponse
  items : Dict Int OutputItem
  texts : Dict PartKey Text
  deltas : Dict PartKey (List Text)

def Streamed.start : Streamed := ⟨none, .empty, .empty, .empty⟩

/-- The body of the loop. -/
def Streamed.receive (s : Streamed) (value : ResponseEvent) : Except StreamError Streamed :=
  if value.isError then .error (.witness (providerError value))
  else
    match value.kind with
    | .textDelta =>
        match value.delta with
        | none => .error (.missing "delta")
        | some delta =>
            .ok { s with deltas := s.deltas.set value.key ((s.deltas.get value.key).getD [] ++ [delta]) }
    | .textDone =>
        if s.texts.contains value.key then .error (.value "Duplicate completed output text")
        else
          match value.text with
          | none => .error (.missing "text")
          | some text => .ok { s with texts := s.texts.set value.key text }
    | .itemDone =>
        match value.outputIndex with
        | none => .error (.missing "output_index")
        | some index =>
            if index < 0 ∨ s.items.contains index then
              .error (.value "Invalid or duplicate completed output item index")
            else
              match value.item with
              | none => .error (.missing "item")
              | some item => .ok { s with items := s.items.set index item }
    | .terminal status =>
        if s.completed.isSome then .error (.value "Multiple completed responses")
        else
          match value.response with
          | none => .error (.missing "response")
          | some completed =>
              if completed.status ≠ some status then
                .error (.value "Inconsistent terminal response status")
              else .ok { s with completed := some completed }
    | .other => .ok s

def Streamed.receiveAll (s : Streamed) : List ResponseEvent → Except StreamError Streamed
  | [] => .ok s
  | value :: rest =>
      match s.receive value with
      | .error e => .error e
      | .ok s => s.receiveAll rest

/-- The final texts of the content of item `i`, from content index `j`. -/
def contentTexts (i : Int) (j : Nat) (texts : Dict PartKey Text) :
    List OutputContent → Except StreamError (Dict PartKey Text)
  | [] => .ok texts
  | content :: rest =>
      if content.type = some "output_text" then
        match content.text with
        | none => .error (.missing "text")
        | some text => contentTexts i (j + 1) (texts.set (toLex (i, (j : Int))) text) rest
      else contentTexts i (j + 1) texts rest

/-- `final_texts` -/
def finalTexts (texts : Dict PartKey Text) :
    List (Int × OutputItem) → Except StreamError (Dict PartKey Text)
  | [] => .ok texts
  | (i, item) :: rest =>
      if item.type = some "message" then
        match contentTexts i 0 texts (item.content.getD []) with
        | .error e => .error e
        | .ok texts => finalTexts texts rest
      else finalTexts texts rest

/-- The items that stand for an omitted output when only texts were streamed. -/
def recovered (texts : List (PartKey × Text)) : List OutputItem :=
  let content := texts.foldl (fun (items : Dict Int (List OutputContent)) part =>
    let index := (ofLex part.1).1
    items.set index ((items.get index).getD [] ++ [⟨some "output_text", some part.2, []⟩])) .empty
  content.items.map fun item => ⟨some "message", some item.2, []⟩

def CompletedResponse.items (completed : CompletedResponse) : List OutputItem :=
  completed.output.getD []

/-- `enumerate(items)` -/
def enumerated (items : List OutputItem) : List (Int × OutputItem) :=
  items.zipIdx.map fun item => ((item.2 : Int), item.1)

/-- The items that were sent in item events, where the response omits its output. -/
def indexedOutput (s : Streamed) (completed : CompletedResponse) : List (Int × OutputItem) :=
  if completed.items.isEmpty ∧ s.items.size ≠ 0 then s.items.sortedItems
  else enumerated completed.items

/-- The response with the items of its item events, where it omits its output. -/
def restoredOutput (s : Streamed) (completed : CompletedResponse) : CompletedResponse :=
  if completed.items.isEmpty ∧ s.items.size ≠ 0 then
    { completed with output := some (s.items.sortedItems.map Prod.snd) }
  else completed

def providerFailure (response : CompletedResponse) : WitnessError :=
  let status := response.status.getD ""
  { message := "OpenAI response " ++ status ++ "; inference was not retried"
    source := .provider
    code := "provider_" ++ status
    providerCode := response.error.bind ResponseFault.code
    providerMessage := response.error.bind ResponseFault.message
    response := some response }

/-- What follows the loop. -/
def Streamed.finish (raiseFailed : Bool) (s : Streamed) :
    Except StreamError (Text × CompletedResponse) :=
  match s.completed with
  | none => .error (.value "Missing completed OpenAI response")
  | some completed =>
      let indexed := indexedOutput s completed
      let completed := restoredOutput s completed
      match finalTexts .empty indexed with
      | .error e => .error e
      | .ok final =>
          if final.size ≠ 0 ∧ s.texts.size ≠ 0 ∧ !final.same s.texts then
            .error (.value "Final output differs from streamed text")
          else
            let texts := if final.size ≠ 0 then final else s.texts
            if s.deltas.items.any fun part => some part.2.flatten ≠ texts.get part.1 then
              .error (.value "Missing/inconsistent completed output text")
            else
              let response :=
                if completed.items.isEmpty ∧ texts.size ≠ 0 then
                  { completed with output := some (recovered texts.sortedItems) }
                else completed
              if raiseFailed ∧ response.status ≠ some "completed" then
                .error (.witness (providerFailure response))
              else .ok ((texts.sortedItems.map Prod.snd).flatten, response)

/-- `completed_response`, of decoded events. -/
def completedResponse (raiseFailed : Bool) (events : List ResponseEvent) :
    Except StreamError (Text × CompletedResponse) :=
  match Streamed.start.receiveAll events with
  | .error e => .error e
  | .ok s => s.finish raiseFailed

end GenSubnet.Witness
