import GenSubnet.Library.UnicodeText
import Mathlib

/-!
# Validation reports

`validation-report.js`: what the validation worker and the HTTP gate return of a result. Strings are
lists of UTF-16 code units, and a finite number is given by its shortest decimal.
-/

namespace GenSubnet.Render.Reporting
open Library

def maxFailures : Nat := 50
def maxDetailBytes : Nat := 2048
def maxReportBytes : Nat := 64 * 1024

abbrev Units := List UInt16

/-- A finite number, `±0.d₁…dₖ × 10 ^ exponent`, where no shorter decimal has its value. Zero has no
digits. -/
structure Decimal where
  negative : Bool
  digits : List (Fin 10)
  exponent : Int
  short : digits.length ≤ 17
  range : -323 ≤ exponent ∧ exponent ≤ 309
deriving DecidableEq

/-- A value of a metric; `other` is not a number. -/
inductive Value
  | finite (number : Decimal)
  | infinite (negative : Bool)
  | nan
  | null
  | other
deriving DecidableEq

structure Vector3 where
  x : Value
  y : Value
  z : Value
deriving DecidableEq

structure Box where
  min : Vector3
  max : Vector3
deriving DecidableEq

structure Metrics where
  vertices : Value
  drawCalls : Value
  depth : Value
  instances : Value
  textureBytes : Value
  bbox : Option Box
deriving DecidableEq

/-- A detail or a label: a string, or another value. -/
inductive Detail
  | text (units : Units)
  | other
deriving DecidableEq

structure Failure where
  stage : Units
  rule : Units
  detail : Detail
deriving DecidableEq

/-- A result; `metrics` is `none` where it is absent and `some none` where it is `null`, and
`truncated` is `none` where it is not an own property. -/
structure Result where
  passed : Bool
  failures : List Failure
  metrics : Option (Option Metrics)
  truncated : Option Bool
deriving DecidableEq

/-- A report, with the label of an error. -/
structure Report where
  passed : Bool
  failures : List Failure
  metrics : Option Metrics
  truncated : Bool
  error : Option Units
deriving DecidableEq

/-! ## `JSON.stringify` -/

def digitChar (digit : Fin 10) : Char := Char.ofNat (48 + digit.val)

/-- `Number::toString` -/
def numberText (number : Decimal) : List Char :=
  let digits := number.digits.map digitChar
  let count : Int := digits.length
  let exponent := number.exponent
  if digits.isEmpty then ['0']
  else
    (if number.negative then ['-'] else []) ++
      if count ≤ exponent ∧ exponent ≤ 21 then digits ++ List.replicate (exponent - count).toNat '0'
      else if 0 < exponent ∧ exponent ≤ 21 then
        digits.take exponent.toNat ++ '.' :: digits.drop exponent.toNat
      else if -6 < exponent ∧ exponent ≤ 0 then
        '0' :: '.' :: List.replicate (-exponent).toNat '0' ++ digits
      else
        digits.take 1 ++ (if count = 1 then [] else '.' :: digits.drop 1) ++
          'e' :: (if exponent - 1 < 0 then '-' else '+') :: Nat.toDigits 10 (exponent - 1).natAbs

def valueText : Value → List Char
  | .finite number => numberText number
  | .infinite _ | .nan | .null | .other => "null".toList

def hexDigit (n : Nat) : Char := if n < 10 then Char.ofNat (48 + n) else Char.ofNat (87 + n)

/-- `\u` and four digits. -/
def unicodeEscape (n : Nat) : List Char :=
  ['\\', 'u', hexDigit (n / 4096 % 16), hexDigit (n / 256 % 16), hexDigit (n / 16 % 16), hexDigit (n % 16)]

def jsonPiece : Piece → List Char
  | .lone u => unicodeEscape u.toNat
  | .char c =>
      if c = '"' then ['\\', '"']
      else if c = '\\' then ['\\', '\\']
      else if c.toNat = 8 then ['\\', 'b']
      else if c.toNat = 9 then ['\\', 't']
      else if c.toNat = 10 then ['\\', 'n']
      else if c.toNat = 12 then ['\\', 'f']
      else if c.toNat = 13 then ['\\', 'r']
      else if c.toNat < 32 then unicodeEscape c.toNat
      else [c]

def stringText (units : Units) : List Char := '"' :: (pieces units).flatMap jsonPiece ++ ['"']

/-- Text with quotes around its names written as apostrophes. -/
def quoted (text : String) : List Char := text.toList.map fun c => if c = '\'' then '"' else c

def boolText (b : Bool) : List Char := if b then "true".toList else "false".toList

def vectorText (v : Vector3) : List Char :=
  quoted "\x7b'x':" ++ valueText v.x ++ quoted ",'y':" ++ valueText v.y ++ quoted ",'z':" ++
    valueText v.z ++ quoted "\x7d"

def boxText : Option Box → List Char
  | none => "null".toList
  | some box =>
      quoted "\x7b'min':" ++ vectorText box.min ++ quoted ",'max':" ++ vectorText box.max ++ quoted "\x7d"

def metricsText : Option Metrics → List Char
  | none => "null".toList
  | some m =>
      quoted "\x7b'vertices':" ++ valueText m.vertices ++ quoted ",'drawCalls':" ++ valueText m.drawCalls ++
        quoted ",'depth':" ++ valueText m.depth ++ quoted ",'instances':" ++ valueText m.instances ++
        quoted ",'textureBytes':" ++ valueText m.textureBytes ++ quoted ",'bbox':" ++ boxText m.bbox ++
        quoted "\x7d"

def detailText : Detail → List Char
  | .text units => stringText units
  | .other => "null".toList

def failureText (f : Failure) : List Char :=
  quoted "\x7b'stage':" ++ stringText f.stage ++ quoted ",'rule':" ++ stringText f.rule ++
    quoted ",'detail':" ++ detailText f.detail ++ quoted "\x7d"

def commaJoined : List (List Char) → List Char
  | [] => []
  | [text] => text
  | text :: rest => text ++ ',' :: commaJoined rest

def failuresText (failures : List Failure) : List Char :=
  '[' :: commaJoined (failures.map failureText) ++ [']']

def errorText : Option Units → List Char
  | none => []
  | some label => quoted ",'error':" ++ stringText label

/-- `stringify(report)` -/
def Report.stringify (r : Report) : List Char :=
  quoted "\x7b'passed':" ++ boolText r.passed ++ quoted ",'failures':" ++ failuresText r.failures ++
    quoted ",'metrics':" ++ metricsText r.metrics ++ quoted ",'truncated':" ++ boolText r.truncated ++
    errorText r.error ++ quoted "\x7d"

/-! ## Bounded reports -/

/-- `boundedText` -/
def boundedText : Detail → Units × Bool
  | .other => (utf16 "No error detail available".toList, true)
  | .text text =>
      let bytes := utf8 (wellFormed (text.take maxDetailBytes))
      let cut := backUp bytes (min bytes.length maxDetailBytes)
      let bounded := utf16 ((decodeUtf8 (bytes.take cut)).getD [])
      (bounded, bounded ≠ text)

/-- `number(value)`, and whether it sets `truncated`. -/
def number : Value → Value × Bool
  | .finite n => (.finite n, false)
  | .infinite _ | .nan | .null | .other => (.null, true)

def vector (v : Vector3) : Vector3 × Bool :=
  (⟨(number v.x).1, (number v.y).1, (number v.z).1⟩,
    (number v.x).2 || (number v.y).2 || (number v.z).2)

def boundedBox (box : Box) : Box × Bool :=
  (⟨(vector box.min).1, (vector box.max).1⟩, (vector box.min).2 || (vector box.max).2)

def boundedMetrics (m : Metrics) : Metrics × Bool :=
  ({ vertices := (number m.vertices).1
     drawCalls := (number m.drawCalls).1
     depth := (number m.depth).1
     instances := (number m.instances).1
     textureBytes := (number m.textureBytes).1
     bbox := m.bbox.map fun box => (boundedBox box).1 },
    (number m.vertices).2 || (number m.drawCalls).2 || (number m.depth).2 ||
      (number m.instances).2 || (number m.textureBytes).2 ||
      (m.bbox.map fun box => (boundedBox box).2).getD false)

/-- The loop over the failures; `truncated` is what the result and its metrics say. -/
def appendFailures (truncated : Bool) (report : Report) : List Failure → Report
  | [] => report
  | failure :: rest =>
      if report.failures.length = maxFailures then { report with truncated := true }
      else
        let detail := boundedText failure.detail
        let item : Failure := ⟨failure.stage, failure.rule, .text detail.1⟩
        let longer : Report :=
          { report with
            truncated := report.truncated || (detail.2 || truncated)
            failures := report.failures ++ [item] }
        if maxReportBytes < utf8Length longer.stringify then { report with truncated := true }
        else appendFailures truncated longer rest

def boundReport (result : Result) (error : Option Detail) : Report :=
  let metrics := (result.metrics.getD none).map boundedMetrics
  let truncated := result.truncated.getD false || (metrics.map Prod.snd).getD false
  let label := error.map boundedText
  let report : Report :=
    { passed := result.passed
      failures := []
      metrics := metrics.map Prod.fst
      truncated := truncated || (label.map Prod.snd).getD false
      error := label.map Prod.fst }
  appendFailures truncated report result.failures

def boundValidationResult (result : Result) : Report := boundReport result none

/-- What is returned for an error; `metrics` is absent where the result has none. -/
structure ErrorReport where
  error : Option Units
  failures : List Failure
  metrics : Option (Option Metrics)
  truncated : Bool
deriving DecidableEq

def boundValidationError (error : Option Detail) (result : Result) : ErrorReport :=
  let report := boundReport result error
  { error := report.error
    failures := report.failures
    metrics := result.metrics.map fun _ => report.metrics
    truncated := report.truncated }

def leadingLabel : Option Units → List Char
  | none => []
  | some label => quoted "'error':" ++ stringText label ++ [',']

def metricsMember : Option (Option Metrics) → List Char
  | none => []
  | some metrics => quoted ",'metrics':" ++ metricsText metrics

/-- `JSON.stringify` of the report of an error: an absent label is left out. -/
def ErrorReport.stringify (r : ErrorReport) : List Char :=
  quoted "\x7b" ++ leadingLabel r.error ++ quoted "'failures':" ++ failuresText r.failures ++
    metricsMember r.metrics ++ quoted ",'truncated':" ++ boolText r.truncated ++ quoted "\x7d"

/-- A report as a result. -/
def Report.result (r : Report) : Result :=
  ⟨r.passed, r.failures, some r.metrics, some r.truncated⟩

end GenSubnet.Render.Reporting
