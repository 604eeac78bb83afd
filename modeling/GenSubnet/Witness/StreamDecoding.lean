import GenSubnet.Witness.EventStream
import Mathlib

/-!
# Both decoders on a stream of frames

The verifier reads the terminal events of every stream. The client reads the events back unless a
text holds U+0085, U+2028 or U+2029: `splitlines` cuts the frame there, inside a JSON string, and
what is left is not JSON.
-/

namespace GenSubnet.Witness.EventStream
open Library

/-! ## The data of a frame -/

theorem boundary_of_printed {c : Char} (printed : 32 ≤ c.toNat ∨ isBlank c = true)
    (line : c ≠ '\r' ∧ c ≠ '\n') (boundary : isBoundary c = true) :
    c.toNat ∈ [0x85, 0x2028, 0x2029] := by
  simp only [isBoundary, decide_eq_true_eq] at boundary
  have split : c.toNat ∈ [10, 11, 12, 13, 28, 29, 30] ∨ c.toNat ∈ [0x85, 0x2028, 0x2029] := by
    simpa [or_assoc] using boundary
  rcases split with control | unicode
  · exfalso
    rcases printed with above | blank
    · have below : c.toNat ≤ 30 := (by decide : ∀ n ∈ [10, 11, 12, 13, 28, 29, 30], n ≤ 30) _ control
      omega
    · simp only [isBlank, Bool.or_eq_true, decide_eq_true_eq] at blank
      rcases blank with ((rfl | rfl) | rfl) | rfl
      · revert control
        decide
      · revert control
        decide
      · exact line.2 rfl
      · exact line.1 rfl
  · exact unicode

theorem label_plain : ∀ c ∈ dataLabel, isBoundary c = false := by
  simp [dataLabel, isBoundary]

theorem intercalate_cons (line : List Char) (lines : List (List Char)) :
    ['\n'].intercalate (line :: lines) = line ++ (lines.flatMap fun line => '\n' :: line) := by
  induction lines generalizing line with
  | nil => simp
  | cons next lines ih => simp [List.intercalate_cons_cons, ih]

theorem dropWhile_data {p : Char → Bool} {text : List Char} (space : p ' ' = true)
    (begins : ∀ c, text.head? = some c → p c = false) :
    ((dataLabel ++ text).drop 5).dropWhile p = text := by
  have drop : (dataLabel ++ text).drop 5 = ' ' :: text := rfl
  rw [drop, List.dropWhile_cons_of_pos space]
  cases text with
  | nil => rfl
  | cons c text => rw [List.dropWhile_cons_of_neg (by simp [begins c rfl])]

variable {depth : Nat} {frame : Frame}

theorem Frame.Serializes.scanned (serializes : frame.Serializes depth) :
    scanQuotes .outside frame.text = some .outside :=
  loads_balanced serializes.loads

theorem Frame.Serializes.boundary (serializes : frame.Serializes depth) {c : Char}
    (member : c ∈ frame.text) (boundary : isBoundary c = true) : c.toNat ∈ [0x85, 0x2028, 0x2029] := by
  apply boundary_of_printed (scanQuotes_printed serializes.scanned c member) _ boundary
  constructor
  · rintro rfl
    exact serializes.oneLine.1 member
  · rintro rfl
    exact serializes.oneLine.2 member

theorem Frame.Serializes.not_space (serializes : frame.Serializes depth) {c : Char}
    (head : frame.text.head? = some c) : isSpace c = false := by
  have notBlank : isBlank c = false := serializes.begins c head
  have scanned := serializes.scanned
  obtain ⟨rest, is⟩ : ∃ rest, frame.text = c :: rest := List.head?_eq_some_iff.mp head
  rw [is] at scanned
  obtain ⟨after, step, -⟩ := Option.bind_eq_some_iff.mp scanned
  have printed : 32 ≤ c.toNat := (quoteStep_printed step).resolve_right (by simp [notBlank])
  have ascii : c.toNat < 128 := by
    by_contra beyond
    cases quoteStep_beyond step (not_lt.mp beyond)
  have notSpace : c.toNat ≠ 32 := by
    intro same
    have space : c = ' ' := Char.ext (UInt32.toNat_inj.mp same)
    rw [space] at notBlank
    cases notBlank
  rw [Bool.eq_false_iff]
  intro space
  simp [isSpace] at space
  omega

theorem eventData_of_unbroken (serializes : frame.Serializes depth) (unbroken : frame.Unbroken) :
    eventData frame.line = frame.text := by
  have plain : ∀ c ∈ frame.line, isBoundary c = false := by
    intro c member
    rcases List.mem_append.mp member with label | inside
    · exact label_plain c label
    · rw [Bool.eq_false_iff]
      exact fun boundary => unbroken c inside (serializes.boundary inside boundary)
  have only : splitlines frame.line = [frame.line] :=
    splitlines_line plain (List.append_ne_nil_of_left_ne_nil (by decide) _)
  have data : isData frame.line = true := List.isPrefixOf_iff_prefix.mpr (List.prefix_append _ _)
  rw [eventData, only, List.filter_cons_of_pos data, List.filter_nil, List.map_singleton,
    intercalate_cons, List.flatMap_nil, List.append_nil]
  apply dropWhile_data rfl
  intro c head
  have notBlank := serializes.begins c head
  simp only [isBlank, Bool.or_eq_false_iff] at notBlank
  exact notBlank.1.1.1

theorem eventData_of_broken (serializes : frame.Serializes depth) (broken : ¬ frame.Unbroken) :
    ∃ before after, eventData frame.line = before ++ after ∧
      scanQuotes .outside before = some .inside ∧ (after = [] ∨ ∃ rest, after = '\n' :: rest) := by
  simp only [Frame.Unbroken, not_forall, not_not] at broken
  obtain ⟨c, member, is⟩ := broken
  have boundary : isBoundary c = true := by
    simp only [isBoundary, decide_eq_true_eq]
    exact (by decide : ∀ n ∈ [0x85, 0x2028, 0x2029],
      n ∈ [10, 11, 12, 13, 28, 29, 30, 0x85, 0x2028, 0x2029]) _ is
  have present : frame.text.dropWhile (fun c => !isBoundary c) ≠ [] := by
    intro none
    have all := List.dropWhile_eq_nil_iff.mp none c member
    simp [boundary] at all
  obtain ⟨cut, rest, dropped⟩ := List.exists_cons_of_ne_nil present
  have cuts : isBoundary cut = true := by
    have head := List.head_dropWhile_not (fun c => !isBoundary c) present
    simp only [dropped, List.head_cons] at head
    simpa using head
  have parts : frame.text = frame.text.takeWhile (fun c => !isBoundary c) ++ cut :: rest := by
    rw [← dropped, List.takeWhile_append_dropWhile]
  generalize isBefore : frame.text.takeWhile (fun c => !isBoundary c) = before at parts
  have plain : ∀ c ∈ before, isBoundary c = false := by
    intro c inside
    rw [← isBefore] at inside
    simpa using List.mem_takeWhile_imp inside
  have inText : cut ∈ frame.text := parts ▸ List.mem_append_right _ List.mem_cons_self
  have beyond : 128 ≤ cut.toNat :=
    (by decide : ∀ n ∈ [0x85, 0x2028, 0x2029], 128 ≤ n) _ (serializes.boundary inText cuts)
  have inside : scanQuotes .outside before = some .inside := by
    have scanned := serializes.scanned
    rw [parts, scanQuotes_append] at scanned
    obtain ⟨state, is, scanned⟩ := Option.bind_eq_some_iff.mp scanned
    obtain ⟨after, step, -⟩ := Option.bind_eq_some_iff.mp scanned
    rw [is, quoteStep_beyond step beyond]
  have line : frame.line = (dataLabel ++ before) ++ cut :: rest := by
    rw [Frame.line, parts, List.append_assoc]
  have lines : splitlines frame.line = (dataLabel ++ before) :: splitlines rest := by
    apply (congrArg splitlines line).trans
    apply splitlines_append _ cuts
    · rintro rfl
      revert beyond
      decide
    · intro c member
      rcases List.mem_append.mp member with label | inside
      · exact label_plain c label
      · exact plain c inside
  have data : isData (dataLabel ++ before) = true :=
    List.isPrefixOf_iff_prefix.mpr (List.prefix_append _ _)
  have stripped : ((dataLabel ++ before).drop 5).dropWhile (· = ' ') = before := by
    apply dropWhile_data rfl
    intro c head
    have notBlank := serializes.begins c (by rw [parts, List.head?_append, head]; rfl)
    simp only [isBlank, Bool.or_eq_false_iff] at notBlank
    exact notBlank.1.1.1
  let others := ((splitlines rest).filter isData).map fun line => (line.drop 5).dropWhile (· = ' ')
  have all : eventData frame.line = before ++ others.flatMap fun line => '\n' :: line := by
    rw [eventData, lines, List.filter_cons_of_pos data, List.map_cons, intercalate_cons, stripped]
  refine ⟨before, _, all, inside, ?_⟩
  cases others with
  | nil => exact Or.inl rfl
  | cons line lines => exact Or.inr ⟨_, List.flatMap_cons⟩

theorem loads_of_cut {before after : List Char} (inside : scanQuotes .outside before = some .inside)
    (newline : after = [] ∨ ∃ rest, after = '\n' :: rest) (depth : Nat) :
    ∃ e, loads depth (before ++ after) = .error e := by
  cases loaded : loads depth (before ++ after) with
  | error e => exact ⟨e, rfl⟩
  | ok value =>
      have scanned := loads_balanced loaded
      rw [scanQuotes_append, inside, Option.bind_some] at scanned
      rcases newline with rfl | ⟨rest, rfl⟩
      · cases scanned
      · cases scanned

theorem loads_nil (depth : Nat) : loads depth [] = .error .malformed := by
  cases depth <;> rfl

theorem loads_done (depth : Nat) (value : Json) : loads depth ['[', 'D', 'O', 'N', 'E', ']'] ≠ .ok value := by
  rcases depth with _ | _ | depth <;> exact nofun

theorem Frame.Serializes.read (serializes : frame.Serializes depth) :
    ¬ (frame.text.isEmpty = true ∨ frame.text = ['[', 'D', 'O', 'N', 'E', ']']) := by
  have loaded := serializes.loads
  rintro (empty | done)
  · rw [List.isEmpty_iff.mp empty, loads_nil] at loaded
    cases loaded
  · rw [done] at loaded
    exact loads_done depth _ loaded

/-! ## Streams -/

theorem Frame.Serializes.line_plain (serializes : frame.Serializes depth) :
    '\r' ∉ frame.line ∧ '\n' ∉ frame.line := by
  have label : '\r' ∉ dataLabel ∧ '\n' ∉ dataLabel := by decide
  exact ⟨fun member => (List.mem_append.mp member).elim label.1 serializes.oneLine.1,
    fun member => (List.mem_append.mp member).elim label.2 serializes.oneLine.2⟩

variable {frames : List Frame}

theorem streamText_cons (frame : Frame) (frames : List Frame) :
    streamText (frame :: frames) =
      frame.line ++ (lineEnd frame.lineCrlf ++ (lineEnd frame.blankCrlf ++ streamText frames)) := by
  simp [streamText, Frame.serialized]

theorem paragraphs_stream (serializes : ∀ frame ∈ frames, frame.Serializes depth) :
    splitParagraphs (replaceCrlf (streamText frames)) = frames.map Frame.line ++ [[]] := by
  induction frames with
  | nil => rfl
  | cons frame frames ih =>
      obtain ⟨first, rest⟩ := List.forall_mem_cons.mp serializes
      rw [streamText_cons, replaceCrlf_append first.line_plain.1, replaceCrlf_lineEnd,
        replaceCrlf_lineEnd, splitParagraphs_append first.line_plain.2, ih rest]
      rfl

theorem blankLines_stream (serializes : ∀ frame ∈ frames, frame.Serializes depth) :
    splitBlankLines (streamText frames) = frames.map Frame.line ++ [[]] := by
  induction frames with
  | nil => rfl
  | cons frame frames ih =>
      obtain ⟨first, rest⟩ := List.forall_mem_cons.mp serializes
      rw [streamText_cons, splitBlankLines_append first.line_plain, ih rest]
      rfl

theorem paragraphEvents_unbroken (serializes : ∀ frame ∈ frames, frame.Serializes depth)
    (unbroken : ∀ frame ∈ frames, frame.Unbroken) :
    paragraphEvents depth (frames.map Frame.line ++ [[]]) = .ok (frames.map Frame.event) := by
  induction frames with
  | nil => rfl
  | cons frame frames ih =>
      obtain ⟨first, rest⟩ := List.forall_mem_cons.mp serializes
      obtain ⟨clean, others⟩ := List.forall_mem_cons.mp unbroken
      simp only [List.map_cons, List.cons_append, paragraphEvents, eventData_of_unbroken first clean,
        if_neg first.read, first.loads, ih rest others]

theorem paragraphEvents_broken (serializes : ∀ frame ∈ frames, frame.Serializes depth)
    (broken : ¬ ∀ frame ∈ frames, frame.Unbroken) :
    ∃ e, paragraphEvents depth (frames.map Frame.line ++ [[]]) = .error e := by
  induction frames with
  | nil => exact absurd (by simp) broken
  | cons frame frames ih =>
      obtain ⟨first, rest⟩ := List.forall_mem_cons.mp serializes
      by_cases clean : frame.Unbroken
      · have others : ¬ ∀ frame ∈ frames, frame.Unbroken :=
          fun all => broken (List.forall_mem_cons.mpr ⟨clean, all⟩)
        obtain ⟨e, failed⟩ := ih rest others
        refine ⟨e, ?_⟩
        simp only [List.map_cons, List.cons_append, paragraphEvents, eventData_of_unbroken first clean,
          if_neg first.read, first.loads, failed]
      · obtain ⟨before, after, data, inside, newline⟩ := eventData_of_broken first clean
        obtain ⟨e, failed⟩ := loads_of_cut inside newline depth
        have skip : ¬ ((before ++ after).isEmpty = true ∨ before ++ after = ['[', 'D', 'O', 'N', 'E', ']']) := by
          rintro (empty | done)
          · rw [List.isEmpty_iff, List.append_eq_nil_iff] at empty
            rw [empty.1] at inside
            cases inside
          · have scanned : scanQuotes .outside ['[', 'D', 'O', 'N', 'E', ']'] = some .outside := rfl
            rw [← done, scanQuotes_append, inside, Option.bind_some] at scanned
            rcases newline with rfl | ⟨rest, rfl⟩
            · cases scanned
            · cases scanned
        refine ⟨.json e, ?_⟩
        simp only [List.map_cons, List.cons_append, paragraphEvents, data, if_neg skip, failed]

theorem sseEvents_stream (depth : Nat) (frames : List Frame) :
    sseEvents depth (streamBody frames) =
      paragraphEvents depth (splitParagraphs (replaceCrlf (streamText frames))) := by
  have decoded : (streamBody frames).utf8Decode? = some (streamText frames).toArray := by
    simp [streamBody]
  rw [sseEvents, decoded]

theorem sseEvents_iff (serializes : ∀ frame ∈ frames, frame.Serializes depth) :
    sseEvents depth (streamBody frames) = .ok (frames.map Frame.event) ↔
      ∀ frame ∈ frames, frame.Unbroken := by
  rw [sseEvents_stream, paragraphs_stream serializes]
  constructor
  · intro decoded
    by_contra broken
    obtain ⟨e, failed⟩ := paragraphEvents_broken serializes broken
    rw [failed] at decoded
    cases decoded
  · exact paragraphEvents_unbroken serializes

theorem frameTerminal_line (serializes : frame.Serializes depth)
    {parse : List Char → Option Json} (parses : parse frame.text = some frame.event) :
    frameTerminal parse frame.line = (some frame.event).filter isTerminal := by
  have data : isData frame.line = true := List.isPrefixOf_iff_prefix.mpr (List.prefix_append _ _)
  have text : (frame.line.drop 5).dropWhile isSpace = frame.text :=
    dropWhile_data rfl fun c head => serializes.not_space head
  rw [frameTerminal, splitLineEnds_line serializes.line_plain.2, List.filter_cons_of_pos data,
    List.filter_nil, List.map_singleton, intercalate_cons, List.flatMap_nil, List.append_nil, text,
    parses]

theorem terminalEvents_stream (serializes : ∀ frame ∈ frames, frame.Serializes depth)
    {parse : List Char → Option Json} (empty : parse [] = none)
    (parses : ∀ frame ∈ frames, parse frame.text = some frame.event) :
    terminalEvents parse (streamText frames) = (frames.map Frame.event).filter isTerminal := by
  have last : [[]].filterMap (frameTerminal parse) = [] := by
    simp [frameTerminal, splitLineEnds, isData, empty]
  have lines : (frames.map Frame.line).filterMap (frameTerminal parse) =
      (frames.map Frame.event).filterMap fun event => (some event).filter isTerminal := by
    rw [List.filterMap_map, List.filterMap_map]
    apply List.filterMap_congr
    intro frame member
    exact frameTerminal_line (serializes frame member) (parses frame member)
  rw [terminalEvents, blankLines_stream serializes, List.filterMap_append, last, lines,
    List.append_nil, ← List.filterMap_eq_filter]
  rfl

/-- The verifier sees the terminal events of every stream. The client reads the events back, and a
response that it can use is not taken for a failure, where no JSON text holds a character beyond
ASCII that `splitlines` takes for a line end. -/
theorem stream_decoded (parse : List Char → Option Json) (empty : parse [] = none) (depth : Nat)
    (frames : List Frame) (serializes : ∀ frame ∈ frames, frame.Serializes depth)
    (parses : ∀ frame ∈ frames, parse frame.text = some frame.event) :
    terminalEvents parse (streamText frames) = (frames.map Frame.event).filter isTerminal ∧
      ((∃ values, sseEvents depth (streamBody frames) = .ok values ∧
          values = frames.map Frame.event ∧
          values.filter isTerminal = terminalEvents parse (streamText frames)) ↔
        ∀ frame ∈ frames, frame.Unbroken) ∧
      (eventsAccepted (frames.map Frame.event) = true → ∀ metadata : CaptureMetadata,
        metadata.providerStatus = some 200 → metadata.usage.isSome = true →
        (responseFailure depth metadata (streamBody frames) = none ↔
          ∀ frame ∈ frames, frame.Unbroken)) := by
  have terminals := terminalEvents_stream serializes empty parses
  refine ⟨terminals, ⟨?_, ?_⟩, ?_⟩
  · rintro ⟨values, decoded, rfl, -⟩
    exact (sseEvents_iff serializes).mp decoded
  · intro unbroken
    exact ⟨_, (sseEvents_iff serializes).mpr unbroken, rfl, terminals.symm⟩
  · intro accepted metadata status usage
    have recorded : ¬ metadata.usage.isNone = true := by simpa using Option.isSome_iff_ne_none.mp usage
    rw [responseFailure, if_neg (by simp [status]), if_neg recorded]
    by_cases unbroken : ∀ frame ∈ frames, frame.Unbroken
    · rw [(sseEvents_iff serializes).mpr unbroken]
      simp only [accepted, if_true]
      exact iff_of_true trivial unbroken
    · obtain ⟨e, failed⟩ := paragraphEvents_broken serializes unbroken
      rw [sseEvents_stream, paragraphs_stream serializes, failed]
      simp [unbroken]

/-! ## A stream that is cut -/

/-- A completed response of one message, whose text is between `a` and `b`. -/
def completedText (separator : Char) : List Char :=
  "\x7b\"type\":\"response.completed\",\"response\":\x7b\"status\":\"completed\",\"output\":[\x7b\"type\":\"message\",\"content\":[\x7b\"type\":\"output_text\",\"text\":\"a".toList ++
    separator :: "b\"\x7d]\x7d],\"usage\":\x7b\"input_tokens\":1,\"output_tokens\":1,\"total_tokens\":2\x7d\x7d\x7d".toList

def completedFrame (separator : Char) : Frame where
  text := completedText separator
  event := (loads 8 (completedText separator)).toOption.getD .null
  lineCrlf := false
  blankCrlf := true

def parseJson (text : List Char) : Option Json := (loads 8 text).toOption

theorem completedFrame_serializes {separator : Char}
    (loaded : (loads 8 (completedText separator)).toOption.isSome = true)
    (plain : '\r' ∉ completedText separator ∧ '\n' ∉ completedText separator)
    (begins : ((completedText separator).head?.all fun c => !isBlank c) = true) :
    (completedFrame separator).Serializes 8 where
  loads := by
    simp only [completedFrame]
    cases result : Library.loads 8 (completedText separator) with
    | error e =>
        rw [result] at loaded
        cases loaded
    | ok value => rfl
  oneLine := plain
  begins := by
    intro c head
    change (completedText separator).head? = some c at head
    rw [head] at begins
    simpa using begins

theorem completed_blank :
    (loads 8 (completedText ' ')).toOption.isSome = true ∧
      ('\r' ∉ completedText ' ' ∧ '\n' ∉ completedText ' ') ∧
      ((completedText ' ').head?.all fun c => !isBlank c) = true ∧
      eventsAccepted [(completedFrame ' ').event] = true ∧ (completedFrame ' ').Unbroken := by
  decide +kernel

/-- With a blank in the text, everything agrees. -/
theorem completed_stream_decoded :
    sseEvents 8 (streamBody [completedFrame ' ']) = .ok [(completedFrame ' ').event] ∧
      ∀ metadata : CaptureMetadata, metadata.providerStatus = some 200 → metadata.usage.isSome = true →
        responseFailure 8 metadata (streamBody [completedFrame ' ']) = none := by
  obtain ⟨loaded, plain, begins, accepted, unbroken⟩ := completed_blank
  have serializes : (completedFrame ' ').Serializes 8 := completedFrame_serializes loaded plain begins
  have parses : parseJson (completedFrame ' ').text = some (completedFrame ' ').event :=
    congrArg Except.toOption serializes.loads
  have decoded := stream_decoded parseJson (congrArg Except.toOption (loads_nil 8)) 8
    [completedFrame ' '] (List.forall_mem_singleton.mpr serializes)
    (List.forall_mem_singleton.mpr parses)
  have own : ∀ frame ∈ [completedFrame ' '], frame.Unbroken := List.forall_mem_singleton.mpr unbroken
  constructor
  · obtain ⟨values, read, rfl, -⟩ := decoded.2.1.mpr own
    exact read
  · intro metadata status usage
    exact (decoded.2.2 accepted metadata status usage).mpr own

theorem completed_separator :
    (loads 8 (completedText (Char.ofNat 0x2028))).toOption.isSome = true ∧
      ('\r' ∉ completedText (Char.ofNat 0x2028) ∧ '\n' ∉ completedText (Char.ofNat 0x2028)) ∧
      ((completedText (Char.ofNat 0x2028)).head?.all fun c => !isBlank c) = true ∧
      eventsAccepted [(completedFrame (Char.ofNat 0x2028)).event] = true ∧
      responseUsage parseJson (streamText [completedFrame (Char.ofNat 0x2028)]) = some ⟨1, 1, 2⟩ ∧
      ¬ (completedFrame (Char.ofNat 0x2028)).Unbroken := by
  decide +kernel

/-- With a line separator in its text, a response that was recorded with its usage is a failure. -/
theorem separated_stream_fails :
    ¬ (∀ depth frames, (∀ frame ∈ frames, frame.Serializes depth) →
      sseEvents depth (streamBody frames) = .ok (frames.map Frame.event)) ∧
    ∃ frame : Frame, frame.Serializes 8 ∧ eventsAccepted [frame.event] = true ∧
      responseUsage parseJson (streamText [frame]) = some ⟨1, 1, 2⟩ ∧
      responseFailure 8 ⟨some 200, some .null⟩ (streamBody [frame]) = some "InvalidProviderResponse" := by
  obtain ⟨loaded, plain, begins, accepted, usage, cut⟩ := completed_separator
  have serializes : (completedFrame (Char.ofNat 0x2028)).Serializes 8 :=
    completedFrame_serializes loaded plain begins
  have broken : ¬ ∀ frame ∈ [completedFrame (Char.ofNat 0x2028)], frame.Unbroken :=
    fun all => cut (List.forall_mem_singleton.mp all)
  have all := List.forall_mem_singleton.mpr serializes
  constructor
  · intro decodes
    exact broken ((sseEvents_iff all).mp (decodes 8 _ all))
  · refine ⟨_, serializes, accepted, usage, ?_⟩
    obtain ⟨e, failed⟩ := paragraphEvents_broken all broken
    have error : sseEvents 8 (streamBody [completedFrame (Char.ofNat 0x2028)]) = .error e := by
      rw [sseEvents_stream, paragraphs_stream all, failed]
    simp only [responseFailure, error]
    rfl

end GenSubnet.Witness.EventStream
