import GenSubnet.Render.ValidationReport
import Mathlib

/-!
# Reports are bounded and honest

A report never outgrows its limits, says so where something was left out or changed, and is its own
report.
-/

namespace GenSubnet.Render.Reporting
open Library

/-! ## Texts -/

theorem boundedText_text (text : Units) :
    boundedText (.text text) =
      (utf16 (cutChars maxDetailBytes (wellFormed text)),
        decide (utf16 (cutChars maxDetailBytes (wellFormed text)) ≠ text)) := by
  simp only [boundedText]
  rw [take_backUp, cutChars_take (Nat.le_refl maxDetailBytes), decodeUtf8_utf8, Option.getD_some]

theorem boundedText_chars (detail : Detail) :
    ∃ chars, (boundedText detail).1 = utf16 chars ∧ utf8Length chars ≤ maxDetailBytes := by
  cases detail with
  | text text =>
      rw [boundedText_text]
      exact ⟨_, rfl, cutChars_length _ _⟩
  | other => exact ⟨_, rfl, by decide⟩

theorem boundedText_again (detail : Detail) :
    boundedText (.text (boundedText detail).1) = ((boundedText detail).1, false) := by
  obtain ⟨chars, is, fits⟩ := boundedText_chars detail
  rw [is, boundedText_text, wellFormed_utf16, cutChars_of_fits fits]
  simp

theorem boundedText_kept {detail : Detail} (kept : (boundedText detail).2 = false) :
    detail = .text (boundedText detail).1 := by
  cases detail with
  | text text =>
      rw [boundedText_text] at kept ⊢
      simp only [ne_eq, decide_eq_false_iff_not, not_not] at kept
      rw [kept]
  | other => cases kept

/-! ## Sizes -/

theorem utf8Length_eq_length {text : List Char} (ascii : ∀ c ∈ text, c.utf8Size = 1) :
    utf8Length text = text.length := by
  induction text with
  | nil => rfl
  | cons c text ih =>
      obtain ⟨first, rest⟩ := List.forall_mem_cons.mp ascii
      rw [utf8Length_cons, first, ih rest, List.length_cons, Nat.add_comm]

theorem utf8Length_hexDigit (n : Nat) : (hexDigit (n % 16)).utf8Size = 1 :=
  (by decide : ∀ k < 16, (hexDigit k).utf8Size = 1) _ (Nat.mod_lt n (by decide))

theorem utf8Length_unicodeEscape (n : Nat) : utf8Length (unicodeEscape n) = 6 := by
  have ascii : ∀ c ∈ unicodeEscape n, c.utf8Size = 1 := by
    simp only [unicodeEscape, List.forall_mem_cons, utf8Length_hexDigit, true_and]
    exact ⟨by decide, by decide, List.forall_mem_nil _⟩
  rw [utf8Length_eq_length ascii]
  rfl

theorem utf8Length_jsonPiece (piece : Piece) :
    utf8Length (jsonPiece piece) ≤ 6 * piece.toChar.utf8Size := by
  have positive := Char.utf8Size_pos piece.toChar
  cases piece with
  | lone u =>
      rw [jsonPiece, utf8Length_unicodeEscape]
      omega
  | char c =>
      have two : ∀ d : Char, d.utf8Size = 1 → utf8Length ['\\', d] ≤ 6 * c.utf8Size := by
        intro d ascii
        have size : utf8Length ['\\', d] = 2 := by
          rw [utf8Length_cons, utf8Length_cons, ascii]
          rfl
        have wide : 0 < c.utf8Size := positive
        omega
      simp only [jsonPiece, Piece.toChar]
      split
      · exact two _ rfl
      · split
        · exact two _ rfl
        · split
          · exact two _ rfl
          · split
            · exact two _ rfl
            · split
              · exact two _ rfl
              · split
                · exact two _ rfl
                · split
                  · exact two _ rfl
                  · split
                    · have wide : 0 < c.utf8Size := positive
                      rw [utf8Length_unicodeEscape]
                      omega
                    · simp only [utf8Length_cons, utf8Length_nil]
                      omega

theorem utf8Length_escaped (text : List Piece) :
    utf8Length (text.flatMap jsonPiece) ≤ 6 * utf8Length (text.map Piece.toChar) := by
  induction text with
  | nil => exact Nat.le_refl 0
  | cons piece text ih =>
      have first := utf8Length_jsonPiece piece
      rw [List.flatMap_cons, utf8Length_append, List.map_cons, utf8Length_cons]
      omega

theorem utf8Length_stringText (units : Units) :
    utf8Length (stringText units) ≤ 6 * utf8Length (wellFormed units) + 2 := by
  have inner : utf8Length ((pieces units).flatMap jsonPiece) ≤ 6 * utf8Length (wellFormed units) :=
    utf8Length_escaped (pieces units)
  have quote : ('"' : Char).utf8Size = 1 := rfl
  simp only [stringText, List.cons_append, utf8Length_cons, utf8Length_append, utf8Length_nil, quote]
  omega

theorem utf8Length_boundedText (detail : Detail) :
    utf8Length (stringText (boundedText detail).1) ≤ 6 * 2048 + 2 := by
  obtain ⟨chars, is, fits⟩ := boundedText_chars detail
  have size := utf8Length_stringText (boundedText detail).1
  rw [is, wellFormed_utf16] at size
  rw [is]
  have limit : maxDetailBytes = 2048 := rfl
  omega

theorem utf8Size_digitChar (digit : Fin 10) : (digitChar digit).utf8Size = 1 := by
  revert digit
  decide

theorem exponent_digits : ∀ n < 400, (Nat.toDigits 10 n).length ≤ 3 ∧
    (Nat.toDigits 10 n).all (fun c => c.utf8Size = 1) = true := by
  decide +kernel

theorem utf8Length_zeros (n : Nat) : utf8Length (List.replicate n '0') = n := by
  have ascii : ∀ c ∈ List.replicate n '0', c.utf8Size = 1 := by
    intro c member
    rw [List.eq_of_mem_replicate member]
    rfl
  rw [utf8Length_eq_length ascii, List.length_replicate]

theorem utf8Length_take_drop (n : Nat) (text : List Char) :
    utf8Length (text.take n) + utf8Length (text.drop n) = utf8Length text := by
  rw [← utf8Length_append, List.take_append_drop]

theorem utf8Length_numberText (number : Decimal) : utf8Length (numberText number) ≤ 25 := by
  have short := number.short
  have range := number.range
  have ascii : ∀ c ∈ number.digits.map digitChar, c.utf8Size = 1 := by
    intro c member
    obtain ⟨digit, -, rfl⟩ := List.mem_map.mp member
    exact utf8Size_digitChar digit
  have size : utf8Length (number.digits.map digitChar) = number.digits.length := by
    rw [utf8Length_eq_length ascii, List.length_map]
  have sign : utf8Length (if number.negative then ['-'] else []) ≤ 1 := by
    split
    · exact Nat.le_refl 1
    · exact Nat.zero_le 1
  have zero : ('0' : Char).utf8Size = 1 := rfl
  have point : ('.' : Char).utf8Size = 1 := rfl
  have letter : ('e' : Char).utf8Size = 1 := rfl
  simp only [numberText]
  generalize (if number.negative = true then ['-'] else []) = minus at sign ⊢
  split
  · decide
  · rw [utf8Length_append]
    split
    · rename_i integer
      rw [utf8Length_append, utf8Length_zeros, size]
      rw [List.length_map] at integer ⊢
      omega
    · split
      · have parts := utf8Length_take_drop number.exponent.toNat (number.digits.map digitChar)
        rw [utf8Length_append, utf8Length_cons, point]
        omega
      · split
        · rename_i fraction
          simp only [List.cons_append, utf8Length_cons, utf8Length_append, utf8Length_zeros, zero,
            point, size]
          omega
        · have parts := utf8Length_take_drop 1 (number.digits.map digitChar)
          have mark : utf8Length (if ((number.digits.map digitChar).length : Int) = 1 then []
              else '.' :: (number.digits.map digitChar).drop 1) ≤
                1 + utf8Length ((number.digits.map digitChar).drop 1) := by
            split
            · exact Nat.zero_le _
            · rw [utf8Length_cons, point]
          have signed : (if number.exponent - 1 < 0 then '-' else '+').utf8Size = 1 := by
            split <;> rfl
          have exponent := exponent_digits (number.exponent - 1).natAbs (by omega)
          have last : utf8Length (Nat.toDigits 10 (number.exponent - 1).natAbs) ≤ 3 := by
            rw [utf8Length_eq_length (by simpa using exponent.2)]
            exact exponent.1
          simp only [utf8Length_append, utf8Length_cons, letter, signed]
          omega

theorem utf8Length_valueText (value : Value) : utf8Length (valueText value) ≤ 25 := by
  cases value with
  | finite number => exact utf8Length_numberText number
  | infinite negative => exact (by decide : utf8Length "null".toList ≤ 25)
  | nan => decide
  | null => decide
  | other => decide

theorem utf8Length_vectorText (v : Vector3) : utf8Length (vectorText v) ≤ 100 := by
  have x := utf8Length_valueText v.x
  have y := utf8Length_valueText v.y
  have z := utf8Length_valueText v.z
  have first : utf8Length (quoted "\x7b'x':") = 5 := by decide
  have second : utf8Length (quoted ",'y':") = 5 := by decide
  have third : utf8Length (quoted ",'z':") = 5 := by decide
  have close : utf8Length (quoted "\x7d") = 1 := by decide
  simp only [vectorText, utf8Length_append, first, second, third, close]
  omega

theorem utf8Length_boxText (box : Option Box) : utf8Length (boxText box) ≤ 300 := by
  cases box with
  | none => decide
  | some box =>
      have low := utf8Length_vectorText box.min
      have high := utf8Length_vectorText box.max
      have first : utf8Length (quoted "\x7b'min':") = 7 := by decide
      have second : utf8Length (quoted ",'max':") = 7 := by decide
      have close : utf8Length (quoted "\x7d") = 1 := by decide
      simp only [boxText, utf8Length_append, first, second, close]
      omega

theorem utf8Length_metricsText (metrics : Option Metrics) : utf8Length (metricsText metrics) ≤ 600 := by
  cases metrics with
  | none => decide
  | some m =>
      have vertices := utf8Length_valueText m.vertices
      have drawCalls := utf8Length_valueText m.drawCalls
      have depth := utf8Length_valueText m.depth
      have instances := utf8Length_valueText m.instances
      have textureBytes := utf8Length_valueText m.textureBytes
      have bbox := utf8Length_boxText m.bbox
      have names : utf8Length (quoted "\x7b'vertices':") + utf8Length (quoted ",'drawCalls':") +
          utf8Length (quoted ",'depth':") + utf8Length (quoted ",'instances':") +
          utf8Length (quoted ",'textureBytes':") + utf8Length (quoted ",'bbox':") +
          utf8Length (quoted "\x7d") ≤ 100 := by decide +kernel
      simp only [metricsText, utf8Length_append]
      omega

/-! ## The size of a report -/

theorem utf8Length_commaJoined (before after : List (List Char)) :
    utf8Length (commaJoined before) ≤ utf8Length (commaJoined (before ++ after)) := by
  induction before with
  | nil => exact Nat.zero_le _
  | cons text before ih =>
      cases before with
      | nil =>
          cases after with
          | nil => exact Nat.le_refl _
          | cons next after =>
              simp only [List.singleton_append, commaJoined, utf8Length_append]
              exact Nat.le_add_right _ _
      | cons next before =>
          simp only [List.cons_append, commaJoined, utf8Length_append, utf8Length_cons] at ih ⊢
          omega

theorem utf8Length_failuresText (before after : List Failure) :
    utf8Length (failuresText before) ≤ utf8Length (failuresText (before ++ after)) := by
  have joined := utf8Length_commaJoined (before.map failureText) (after.map failureText)
  simp only [failuresText, List.map_append, List.cons_append, utf8Length_cons, utf8Length_append] at joined ⊢
  omega

theorem utf8Length_boolText (b : Bool) : 4 ≤ utf8Length (boolText b) ∧ utf8Length (boolText b) ≤ 5 := by
  revert b
  decide

theorem utf8Length_true (b : Bool) : utf8Length (boolText true) ≤ utf8Length (boolText b) := by
  revert b
  decide

theorem utf8Length_stringify {r s : Report} (passed : r.passed = s.passed)
    (metrics : r.metrics = s.metrics) (error : r.error = s.error)
    (failures : utf8Length (failuresText r.failures) ≤ utf8Length (failuresText s.failures))
    (flag : utf8Length (boolText r.truncated) ≤ utf8Length (boolText s.truncated)) :
    utf8Length r.stringify ≤ utf8Length s.stringify := by
  simp only [Report.stringify, utf8Length_append, passed, metrics, error]
  omega

theorem utf8Length_empty {r : Report} (failures : r.failures = [])
    (error : r.error = none ∨ ∃ detail, r.error = some (boundedText detail).1) :
    utf8Length r.stringify ≤ maxReportBytes := by
  have passed := utf8Length_boolText r.passed
  have truncated := utf8Length_boolText r.truncated
  have metrics := utf8Length_metricsText r.metrics
  have names : utf8Length (quoted "\x7b'passed':") + utf8Length (quoted ",'failures':") +
      utf8Length (quoted ",'metrics':") + utf8Length (quoted ",'truncated':") +
      utf8Length (quoted "\x7d") ≤ 100 := by decide +kernel
  have none : utf8Length (failuresText []) = 2 := by decide
  have label : utf8Length (errorText r.error) ≤ 13000 := by
    rcases error with absent | ⟨detail, present⟩
    · rw [absent]
      exact Nat.zero_le _
    · have size := utf8Length_boundedText detail
      have name : utf8Length (quoted ",'error':") = 9 := by decide
      rw [present, errorText, utf8Length_append, name]
      omega
  have limit : maxReportBytes = 65536 := rfl
  simp only [Report.stringify, utf8Length_append, failures, none]
  omega

/-! ## The loop -/

/-- What a report keeps of a failure. -/
def boundFailure (f : Failure) : Failure := ⟨f.stage, f.rule, .text (boundedText f.detail).1⟩

/-- The report with one more failure. -/
def longer (truncated : Bool) (report : Report) (failure : Failure) : Report :=
  { report with
    truncated := report.truncated || ((boundedText failure.detail).2 || truncated)
    failures := report.failures ++ [boundFailure failure] }

theorem appendFailures_eq (truncated : Bool) (report : Report) (failure : Failure)
    (rest : List Failure) :
    appendFailures truncated report (failure :: rest) =
      if report.failures.length = maxFailures then { report with truncated := true }
      else if maxReportBytes < utf8Length (longer truncated report failure).stringify then
        { report with truncated := true }
      else appendFailures truncated (longer truncated report failure) rest := rfl

theorem appendFailures_cons (truncated : Bool) (report : Report) (failure : Failure)
    (rest : List Failure) :
    (report.failures.length ≠ maxFailures ∧
      utf8Length (longer truncated report failure).stringify ≤ maxReportBytes ∧
      appendFailures truncated report (failure :: rest) =
        appendFailures truncated (longer truncated report failure) rest) ∨
    appendFailures truncated report (failure :: rest) = { report with truncated := true } := by
  rw [appendFailures_eq]
  split
  · exact Or.inr rfl
  · rename_i room
    split
    · exact Or.inr rfl
    · rename_i fits
      exact Or.inl ⟨room, Nat.not_lt.mp fits, rfl⟩

/-- What holds of the report that the loop returns. -/
structure Appended (truncated : Bool) (report : Report) (failures : List Failure) (out : Report) : Prop where
  passed : out.passed = report.passed
  metrics : out.metrics = report.metrics
  error : out.error = report.error
  size : utf8Length report.stringify ≤ maxReportBytes → utf8Length out.stringify ≤ maxReportBytes
  count : report.failures.length ≤ maxFailures → out.failures.length ≤ maxFailures
  taken : ∃ count, out.failures = report.failures ++ (failures.take count).map boundFailure
  honest : out.truncated = false → report.truncated = false ∧
    out.failures = report.failures ++ failures.map boundFailure ∧
    ∀ failure ∈ failures, (boundedText failure.detail).2 = false

theorem appendFailures_appended (truncated : Bool) (report : Report) (failures : List Failure) :
    Appended truncated report failures (appendFailures truncated report failures) := by
  induction failures generalizing report with
  | nil =>
      constructor
      · rfl
      · rfl
      · rfl
      · exact id
      · exact id
      · exact ⟨0, by simp [appendFailures]⟩
      · intro kept
        exact ⟨kept, by simp [appendFailures], List.forall_mem_nil _⟩
  | cons failure rest ih =>
      rcases appendFailures_cons truncated report failure rest with ⟨room, fits, next⟩ | stop
      · obtain ⟨passed, metrics, error, size, count, ⟨taken, is⟩, honest⟩ := ih (longer truncated report failure)
        rw [next]
        constructor
        · exact passed
        · exact metrics
        · exact error
        · exact fun _ => size fits
        · intro within
          apply count
          rw [longer, List.length_append, List.length_singleton]
          omega
        · refine ⟨taken + 1, ?_⟩
          rw [is, longer, List.take_succ_cons, List.map_cons, List.append_assoc]
          rfl
        · intro kept
          obtain ⟨flag, all, details⟩ := honest kept
          simp only [longer, Bool.or_eq_false_iff] at flag
          refine ⟨flag.1, ?_, List.forall_mem_cons.mpr ⟨flag.2.1, details⟩⟩
          rw [all, longer, List.map_cons, List.append_assoc]
          rfl
      · rw [stop]
        constructor
        · rfl
        · rfl
        · rfl
        · intro size
          apply Nat.le_trans _ size
          exact utf8Length_stringify rfl rfl rfl (Nat.le_refl _) (utf8Length_true _)
        · exact id
        · exact ⟨0, by simp⟩
        · exact nofun

theorem appendFailures_again {report : Report} {done todo : List Failure}
    (all : report.failures = done ++ todo) (count : report.failures.length ≤ maxFailures)
    (size : utf8Length report.stringify ≤ maxReportBytes)
    (bounded : ∀ failure ∈ todo, boundFailure failure = failure ∧ (boundedText failure.detail).2 = false) :
    appendFailures report.truncated { report with failures := done } todo = report := by
  induction todo generalizing done with
  | nil =>
      rw [appendFailures, ← List.append_nil done, ← all]
  | cons failure rest ih =>
      obtain ⟨⟨same, kept⟩, others⟩ := List.forall_mem_cons.mp bounded
      have next : longer report.truncated { report with failures := done } failure =
          { report with failures := done ++ [failure] } := by
        simp [longer, same, kept]
      have room : done.length ≠ maxFailures := by
        have long := congrArg List.length all
        rw [List.length_append, List.length_cons] at long
        omega
      have parts : utf8Length (failuresText (done ++ [failure])) ≤
          utf8Length (failuresText report.failures) := by
        have split : report.failures = (done ++ [failure]) ++ rest := by
          rw [all, List.append_assoc]
          rfl
        rw [split]
        exact utf8Length_failuresText _ _
      have smaller : utf8Length (Report.stringify { report with failures := done ++ [failure] }) ≤
          utf8Length report.stringify :=
        utf8Length_stringify rfl rfl rfl parts (Nat.le_refl _)
      rw [appendFailures_eq, next, if_neg room, if_neg (Nat.not_lt.mpr (smaller.trans size))]
      exact ih (by rw [all, List.append_assoc]; rfl) others

/-! ## Metrics -/

theorem number_kept {value : Value} (kept : (number value).2 = false) : (number value).1 = value := by
  cases value with
  | finite number => rfl
  | infinite negative => cases kept
  | nan => cases kept
  | null => cases kept
  | other => cases kept

theorem number_again (value : Value) : number (number value).1 = number value := by
  cases value <;> rfl

theorem vector_kept {v : Vector3} (kept : (vector v).2 = false) : (vector v).1 = v := by
  simp only [vector, Bool.or_eq_false_iff] at kept ⊢
  rw [number_kept kept.1.1, number_kept kept.1.2, number_kept kept.2]

theorem vector_again (v : Vector3) : vector (vector v).1 = vector v := by
  simp only [vector, number_again]

theorem boundedBox_kept {box : Box} (kept : (boundedBox box).2 = false) : (boundedBox box).1 = box := by
  simp only [boundedBox, Bool.or_eq_false_iff] at kept ⊢
  rw [vector_kept kept.1, vector_kept kept.2]

theorem boundedBox_again (box : Box) : boundedBox (boundedBox box).1 = boundedBox box := by
  simp only [boundedBox, vector_again]

theorem boundedMetrics_kept {m : Metrics} (kept : (boundedMetrics m).2 = false) :
    (boundedMetrics m).1 = m := by
  simp only [boundedMetrics, Bool.or_eq_false_iff] at kept ⊢
  obtain ⟨⟨⟨⟨⟨vertices, drawCalls⟩, depth⟩, instances⟩, textureBytes⟩, bbox⟩ := kept
  have box : (m.bbox.map fun box => (boundedBox box).1) = m.bbox := by
    cases is : m.bbox with
    | none => rfl
    | some box =>
        rw [is] at bbox
        exact congrArg some (boundedBox_kept bbox)
  rw [number_kept vertices, number_kept drawCalls, number_kept depth, number_kept instances,
    number_kept textureBytes, box]

theorem boundedMetrics_again (m : Metrics) : boundedMetrics (boundedMetrics m).1 = boundedMetrics m := by
  cases is : m.bbox with
  | none => simp only [boundedMetrics, number_again, is, Option.map_none]
  | some box => simp only [boundedMetrics, number_again, is, Option.map_some, boundedBox_again]

/-! ## Reports -/

/-- Whether a result was cut before, or one of its metrics is not a finite number. -/
def flagged (result : Result) : Bool :=
  result.truncated.getD false ||
    (((result.metrics.getD none).map boundedMetrics).map Prod.snd).getD false

/-- The report before the loop. -/
def started (result : Result) (error : Option Detail) : Report where
  passed := result.passed
  failures := []
  metrics := ((result.metrics.getD none).map boundedMetrics).map Prod.fst
  truncated := flagged result || ((error.map boundedText).map Prod.snd).getD false
  error := (error.map boundedText).map Prod.fst

theorem boundReport_appended (result : Result) (error : Option Detail) :
    Appended (flagged result) (started result error) result.failures (boundReport result error) :=
  appendFailures_appended (flagged result) (started result error) result.failures

theorem boundReport_size (result : Result) (error : Option Detail) :
    utf8Length (boundReport result error).stringify ≤ maxReportBytes := by
  apply (boundReport_appended result error).size
  apply utf8Length_empty rfl
  cases error with
  | none => exact Or.inl rfl
  | some detail => exact Or.inr ⟨detail, rfl⟩

/-- What a kept failure is of the failure it stands for. -/
structure KeepsFailure (kept failure : Failure) : Prop where
  stage : kept.stage = failure.stage
  rule : kept.rule = failure.rule
  detail : ∃ chars, kept.detail = .text (utf16 chars) ∧ utf8Length chars ≤ maxDetailBytes ∧
    ∀ text, failure.detail = .text text → chars <+: wellFormed text

theorem boundFailure_keeps (failure : Failure) : KeepsFailure (boundFailure failure) failure where
  stage := rfl
  rule := rfl
  detail := by
    simp only [boundFailure]
    cases failure.detail with
    | text text =>
        refine ⟨cutChars maxDetailBytes (wellFormed text), by rw [boundedText_text],
          cutChars_length _ _, ?_⟩
        intro other same
        cases same
        exact cutChars_prefix _ _
    | other =>
        obtain ⟨chars, is, fits⟩ := boundedText_chars .other
        exact ⟨chars, by rw [is], fits, nofun⟩

theorem boundReport_failures (result : Result) (error : Option Detail) :
    (boundReport result error).failures.length ≤ maxFailures ∧
      List.Forall₂ KeepsFailure (boundReport result error).failures
        (result.failures.take (boundReport result error).failures.length) := by
  have appended := boundReport_appended result error
  obtain ⟨count, taken⟩ := appended.taken
  have is : (boundReport result error).failures = (result.failures.take count).map boundFailure := taken
  refine ⟨appended.count (Nat.zero_le _), ?_⟩
  rw [is, List.length_map, List.length_take, ← List.take_eq_take_min, List.forall₂_map_left_iff]
  exact List.forall₂_same.mpr fun failure _ => boundFailure_keeps failure

theorem boundReport_honest {result : Result} {error : Option Detail}
    (kept : (boundReport result error).truncated = false) :
    (boundReport result error).failures = result.failures ∧
      (boundReport result error).metrics = result.metrics.getD none ∧
      (boundReport result error).error.map Detail.text = error ∧ result.truncated ≠ some true := by
  have appended := boundReport_appended result error
  obtain ⟨flag, all, details⟩ := appended.honest kept
  simp only [started, flagged, Bool.or_eq_false_iff] at flag
  refine ⟨?_, ?_, ?_, ?_⟩
  · have same : result.failures.map boundFailure = result.failures.map id := by
      apply List.map_congr_left
      intro failure member
      rw [boundFailure, ← boundedText_kept (details failure member)]
      rfl
    rw [all, same, List.map_id]
    rfl
  · rw [appended.metrics, started]
    cases is : result.metrics.getD none with
    | none => rfl
    | some m =>
        have fine : (boundedMetrics m).2 = false := by
          have same := flag.1.2
          rw [is] at same
          exact same
        exact congrArg some (boundedMetrics_kept fine)
  · rw [appended.error, started]
    cases error with
    | none => rfl
    | some detail => exact congrArg some (boundedText_kept flag.2).symm
  · intro cut
    rw [cut] at flag
    cases flag.1.1

theorem boundValidationResult_again (result : Result) :
    boundValidationResult (boundValidationResult result).result = boundValidationResult result := by
  have appended := boundReport_appended result none
  obtain ⟨count, taken⟩ := appended.taken
  have metrics : (boundValidationResult result).metrics =
      ((result.metrics.getD none).map boundedMetrics).map Prod.fst := appended.metrics
  have again : (boundValidationResult result).metrics.map boundedMetrics =
      (result.metrics.getD none).map boundedMetrics := by
    rw [metrics]
    cases result.metrics.getD none with
    | none => rfl
    | some m => exact congrArg some (boundedMetrics_again m)
  have flag : flagged (boundValidationResult result).result = (boundValidationResult result).truncated := by
    have same : flagged (boundValidationResult result).result =
        ((boundValidationResult result).truncated ||
          (((result.metrics.getD none).map boundedMetrics).map Prod.snd).getD false) := by
      simp only [flagged, Report.result, Option.getD_some, again]
    rw [same]
    cases kept : (boundValidationResult result).truncated with
    | true => rfl
    | false =>
        have started := (appended.honest kept).1
        simp only [Reporting.started, flagged, Bool.or_eq_false_iff] at started
        rw [started.1.2]
        rfl
  have start : started (boundValidationResult result).result none =
      { boundValidationResult result with failures := [] } := by
    have error : (boundValidationResult result).error = none := appended.error
    have fields : started (boundValidationResult result).result none =
        ⟨(boundValidationResult result).passed, [],
          ((boundValidationResult result).metrics.map boundedMetrics).map Prod.fst,
          flagged (boundValidationResult result).result || false, none⟩ := rfl
    rw [fields, again, ← metrics, flag, Bool.or_false, ← error]
  have bounded : ∀ failure ∈ (boundValidationResult result).failures,
      boundFailure failure = failure ∧ (boundedText failure.detail).2 = false := by
    intro failure member
    have all : (boundValidationResult result).failures =
        (result.failures.take count).map boundFailure := taken
    rw [all] at member
    obtain ⟨original, -, rfl⟩ := List.mem_map.mp member
    have fixed := boundedText_again original.detail
    constructor
    · simp only [boundFailure, fixed]
    · simp only [boundFailure, fixed]
  have loop := @appendFailures_again (boundValidationResult result) [] _ rfl
    (appended.count (Nat.zero_le _)) (boundReport_size result none) bounded
  have equation : boundValidationResult (boundValidationResult result).result =
      appendFailures (flagged (boundValidationResult result).result)
        (started (boundValidationResult result).result none) (boundValidationResult result).failures := rfl
  rw [equation, flag, start]
  exact loop

/-! ## The report of an error -/

theorem utf8Length_errorReport (error : Option Detail) (result : Result) :
    utf8Length (boundValidationError error result).stringify ≤
      utf8Length (boundReport result error).stringify := by
  generalize isReport : boundReport result error = report
  have names : utf8Length (quoted "\x7b'passed':") = 10 ∧ utf8Length (quoted ",'failures':") = 12 ∧
      utf8Length (quoted ",'metrics':") = 11 ∧ utf8Length (quoted ",'truncated':") = 13 ∧
      utf8Length (quoted "\x7d") = 1 ∧ utf8Length (quoted ",'error':") = 9 ∧
      utf8Length (quoted "'error':") = 8 ∧ utf8Length (quoted "'failures':") = 11 ∧
      utf8Length (quoted "\x7b") = 1 ∧ utf8Length [','] = 1 := by
    decide +kernel
  obtain ⟨passedName, failuresName, metricsName, truncatedName, close, errorName, error', failures',
    open', comma⟩ := names
  have passed := utf8Length_boolText report.passed
  simp only [boundValidationError, isReport, ErrorReport.stringify, Report.stringify,
    utf8Length_append, passedName, failuresName, metricsName, truncatedName, close, failures', open']
  have label : utf8Length (leadingLabel report.error) ≤ utf8Length (errorText report.error) := by
    cases report.error with
    | none => exact Nat.le_refl _
    | some label =>
        simp only [leadingLabel, errorText, utf8Length_append, errorName, error', comma]
        omega
  have metrics : utf8Length (metricsMember (result.metrics.map fun _ => report.metrics)) ≤
      11 + utf8Length (metricsText report.metrics) := by
    cases result.metrics with
    | none => exact Nat.zero_le _
    | some metrics =>
        rw [Option.map_some, metricsMember, utf8Length_append, metricsName]
  omega

/-- Every report fits its limits, keeps a prefix of the failures and of the text of each detail, and
admits what it leaves out; a report is its own report. -/
theorem reports_bounded (result : Result) (error : Option Detail) :
    (utf8Length (boundValidationResult result).stringify ≤ maxReportBytes ∧
      utf8Length (boundValidationError error result).stringify ≤ maxReportBytes) ∧
    (∀ failures ∈ [(boundValidationResult result).failures, (boundValidationError error result).failures],
      failures.length ≤ maxFailures ∧
        List.Forall₂ KeepsFailure failures (result.failures.take failures.length)) ∧
    ((boundValidationResult result).truncated = false →
      (boundValidationResult result).passed = result.passed ∧
      (boundValidationResult result).failures = result.failures ∧
      (boundValidationResult result).metrics = result.metrics.getD none ∧
      result.truncated ≠ some true) ∧
    ((boundValidationError error result).truncated = false →
      (boundValidationError error result).failures = result.failures ∧
      (boundValidationError error result).metrics = result.metrics ∧
      (boundValidationError error result).error.map Detail.text = error ∧
      result.truncated ≠ some true) ∧
    boundValidationResult (boundValidationResult result).result = boundValidationResult result := by
  refine ⟨⟨boundReport_size result none, ?_⟩, ?_, ?_, ?_, boundValidationResult_again result⟩
  · exact (utf8Length_errorReport error result).trans (boundReport_size result error)
  · exact List.forall_mem_cons.mpr ⟨boundReport_failures result none,
      List.forall_mem_singleton.mpr (boundReport_failures result error)⟩
  · intro kept
    obtain ⟨failures, metrics, -, cut⟩ := @boundReport_honest result none kept
    exact ⟨(boundReport_appended result none).passed, failures, metrics, cut⟩
  · intro kept
    obtain ⟨failures, metrics, label, cut⟩ := @boundReport_honest result error kept
    refine ⟨failures, ?_, label, cut⟩
    have same : (boundValidationError error result).metrics =
        result.metrics.map fun _ => (boundReport result error).metrics := rfl
    rw [same, metrics]
    cases result.metrics <;> rfl

end GenSubnet.Render.Reporting
