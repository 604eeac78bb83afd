import GenSubnet.Library.JsonText
import GenSubnet.Library.TextLines
import GenSubnet.Witness.CompletedResponse
import Mathlib

/-!
# Server-sent events

`sse_events` of the client, with the `response_failure` that rests on it, and `responseUsage` of the
verifier. Both read frames of `data:` lines; the client decodes JSON as Python does, and the
verifier's `JSON.parse` is a parameter.
-/

namespace GenSubnet.Witness.EventStream
open Library

/-! ## `response.py` -/

/-- `line.startswith("data:")` -/
def isData (line : List Char) : Bool := ['d', 'a', 't', 'a', ':'].isPrefixOf line

/-- The data of an event. -/
def eventData (event : List Char) : List Char :=
  ['\n'].intercalate (((splitlines event).filter isData).map fun line =>
    (line.drop 5).dropWhile (· = ' '))

inductive SseError | encoding | json (error : LoadError)

/-- The events of the paragraphs of a body. -/
def paragraphEvents (depth : Nat) : List (List Char) → Except SseError (List Json)
  | [] => .ok []
  | event :: rest =>
      let data := eventData event
      if data.isEmpty ∨ data = ['[', 'D', 'O', 'N', 'E', ']'] then paragraphEvents depth rest
      else
        match loads depth data with
        | .error e => .error (.json e)
        | .ok value =>
            match paragraphEvents depth rest with
            | .error e => .error e
            | .ok values => .ok (value :: values)

def sseEvents (depth : Nat) (body : ByteArray) : Except SseError (List Json) :=
  match body.utf8Decode? with
  | none => .error .encoding
  | some text => paragraphEvents depth (splitParagraphs (replaceCrlf text.toList))

/-! ## The fields of decoded events

A field that does not have its declared type is read as absent. -/

def member (key : String) : Json → Option Json
  | .object members => lookupIn (codePoints key) members
  | _ => none

def asString : Json → Option String
  | .str s => some (String.ofList (s.map Char.ofNat))
  | _ => none

def asText : Json → Option Text
  | .str s => some s
  | _ => none

def asInt : Json → Option Int
  | .int n => some n
  | _ => none

def asList : Json → Option (List Json)
  | .array items => some items
  | _ => none

/-- The members that have no field of their own. -/
def otherMembers (keys : List String) : Json → List (Text × Json)
  | .object members => members.filter fun item => item.1 ∉ keys.map codePoints
  | _ => []

def OutputContent.ofJson (value : Json) : OutputContent :=
  ⟨(member "type" value).bind asString, (member "text" value).bind asText,
    otherMembers ["type", "text"] value⟩

def OutputItem.ofJson (value : Json) : OutputItem :=
  ⟨(member "type" value).bind asString,
    ((member "content" value).bind asList).map (List.map OutputContent.ofJson),
    otherMembers ["type", "content"] value⟩

def ResponseFault.ofJson (value : Json) : ResponseFault :=
  ⟨(member "code" value).bind asText, (member "message" value).bind asText⟩

def CompletedResponse.ofJson (value : Json) : CompletedResponse :=
  ⟨(member "status" value).bind asString,
    ((member "output" value).bind asList).map (List.map OutputItem.ofJson),
    (member "error" value).map ResponseFault.ofJson,
    otherMembers ["status", "output", "error"] value⟩

/-- An event that is not a dictionary has no `get`. -/
def ResponseEvent.ofJson (value : Json) : Option ResponseEvent :=
  match value with
  | .object _ => some
      { type := (member "type" value).bind asString
        outputIndex := (member "output_index" value).bind asInt
        contentIndex := (member "content_index" value).bind asInt
        delta := (member "delta" value).bind asText
        text := (member "text" value).bind asText
        item := (member "item" value).map OutputItem.ofJson
        response := (member "response" value).map CompletedResponse.ofJson
        error := member "error" value
        message := member "message" value
        code := member "code" value
        param := member "param" value }
  | _ => none

/-- Whether `completed_response` accepts the decoded events of a body, with `raise_failed=False`. -/
def eventsAccepted (values : List Json) : Bool :=
  match values.mapM ResponseEvent.ofJson with
  | none => false
  | some events => (completedResponse false events).toOption.isSome

/-! ## `recovery.py` -/

/-- The metadata of a captured response. -/
structure CaptureMetadata where
  providerStatus : Option Int
  usage : Option Json

def responseFailure (depth : Nat) (metadata : CaptureMetadata) (response : ByteArray) : Option String :=
  if metadata.providerStatus ≠ some 200 then some "ProviderHTTPError"
  else if metadata.usage.isNone then some "InvalidProviderResponse"
  else
    match sseEvents depth response with
    | .error _ => some "InvalidProviderResponse"
    | .ok values => if eventsAccepted values then none else some "InvalidProviderResponse"

/-! ## `gate.mjs` -/

/-- What `trimStart` removes. -/
def isSpace (c : Char) : Bool :=
  c.toNat ∈ [9, 10, 11, 12, 13, 32, 0xA0, 0x1680, 0x202F, 0x205F, 0x3000, 0xFEFF, 0x2028, 0x2029] ||
    (0x2000 ≤ c.toNat && c.toNat ≤ 0x200A)

def isTerminal (value : Json) : Bool :=
  (member "type" value).bind asString ∈
    [some "response.completed", some "response.failed", some "response.incomplete"]

/-- The terminal event of a frame, if it is one; `parse` is `JSON.parse`. -/
def frameTerminal (parse : List Char → Option Json) (event : List Char) : Option Json :=
  let data := ['\n'].intercalate (((splitLineEnds event).filter isData).map fun line =>
    (line.drop 5).dropWhile isSpace)
  (parse data).filter isTerminal

/-- The terminal events of a body, decoded by `toString('utf8')`. -/
def terminalEvents (parse : List Char → Option Json) (body : List Char) : List Json :=
  (splitBlankLines body).filterMap (frameTerminal parse)

structure Usage where
  inputTokens : Nat
  outputTokens : Nat
  totalTokens : Nat
deriving DecidableEq

/-- `Number.isSafeInteger(value) && value >= 0` -/
def safeCount : Json → Option Nat
  | .int n => if 0 ≤ n ∧ n < 2 ^ 53 then some n.toNat else none
  | .float (.finite q) => if q.den = 1 ∧ 0 ≤ q.num ∧ q.num < 2 ^ 53 then some q.num.toNat else none
  | _ => none

def responseUsage (parse : List Char → Option Json) (body : List Char) : Option Usage :=
  match terminalEvents parse body with
  | [terminal] => do
      let type ← (member "type" terminal).bind asString
      let response ← member "response" terminal
      let status ← (member "status" response).bind asString
      let usage ← member "usage" response
      let input ← (member "input_tokens" usage).bind safeCount
      let output ← (member "output_tokens" usage).bind safeCount
      let total ← (member "total_tokens" usage).bind safeCount
      if type = "response." ++ status ∧ input + output = total then some ⟨input, output, total⟩ else none
  | _ => none

/-! ## Frames -/

/-- An event as it is sent: its JSON text in a `data:` line, and the ends of that line and of the
empty line after it. -/
structure Frame where
  text : List Char
  event : Json
  lineCrlf : Bool
  blankCrlf : Bool

/-- `data: ` -/
def dataLabel : List Char := ['d', 'a', 't', 'a', ':', ' ']

def Frame.line (frame : Frame) : List Char := dataLabel ++ frame.text

def Frame.serialized (frame : Frame) : List Char :=
  frame.line ++ (lineEnd frame.lineCrlf ++ lineEnd frame.blankCrlf)

def streamText (frames : List Frame) : List Char := frames.flatMap Frame.serialized

/-- The bytes of the frames. -/
def streamBody (frames : List Frame) : ByteArray := (String.ofList (streamText frames)).toUTF8

/-- The text is a JSON text of the event, on one line and with nothing before it. -/
structure Frame.Serializes (depth : Nat) (frame : Frame) : Prop where
  loads : loads depth frame.text = .ok frame.event
  oneLine : '\r' ∉ frame.text ∧ '\n' ∉ frame.text
  begins : ∀ c, frame.text.head? = some c → isBlank c = false

/-- A text without the characters beyond ASCII that `splitlines` takes for a line end. -/
def Frame.Unbroken (frame : Frame) : Prop :=
  ∀ c ∈ frame.text, c.toNat ∉ [0x85, 0x2028, 0x2029]

instance (frame : Frame) : Decidable frame.Unbroken :=
  decidable_of_iff (frame.text.all fun c => c.toNat ∉ [0x85, 0x2028, 0x2029])
    (by simp only [List.all_eq_true, decide_eq_true_eq, Frame.Unbroken])

end GenSubnet.Witness.EventStream
