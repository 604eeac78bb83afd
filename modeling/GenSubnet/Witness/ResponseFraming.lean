import GenSubnet.Library.Decimal
import GenSubnet.Library.Dict

/-!
# Responses of a provider

`parseResponse` of the verifier, `http_body` of the client with `allow_error=True`, and the status
that `_recorded_response` reads. A head is latin1 text: each byte is a character.
-/

namespace GenSubnet.Witness
open Library

/-! ## What both parsers read -/

/-- `[0-9a-fA-F]` -/
def hexValue (b : UInt8) : Option Nat :=
  if 48 ≤ b ∧ b ≤ 57 then some (b.toNat - 48)
  else if 97 ≤ b ∧ b ≤ 102 then some (b.toNat - 87)
  else if 65 ≤ b ∧ b ≤ 70 then some (b.toNat - 55)
  else none

/-- The value of `[0-9a-fA-F]{1,8}`. -/
def chunkSize (size : List UInt8) : Option Nat :=
  if 1 ≤ size.length ∧ size.length ≤ 8 then
    size.foldl (fun value b => value.bind fun v => (hexValue b).map fun d => 16 * v + d) (some 0)
  else none

/-- The digits of `^HTTP/1\.1 ([2-5][0-9]{2})`, and what follows them in the line. -/
def statusDigits (line : List UInt8) : Option (List UInt8 × List UInt8) :=
  if (ascii "HTTP/1.1 ").isPrefixOf line then
    match line.drop 9 with
    | a :: b :: c :: rest =>
        if 50 ≤ a ∧ a ≤ 53 ∧ isDigit b ∧ isDigit c then some ([a, b, c], rest) else none
    | _ => none
  else none

/-- The names of the headers that frame the body, which may occur only once. -/
def framingNames : List (List UInt8) :=
  [ascii "content-length", ascii "transfer-encoding", ascii "content-encoding"]

/-- The headers, by their lower-case names. -/
abbrev Headers := Dict (List UInt8) (List UInt8)

/-! ## `verify.mjs` -/

/-- `[!#$%&'*+.^_|~0-9A-Za-z-]` and the backquote. -/
def tokenByte (b : UInt8) : Bool :=
  isDigit b || (65 ≤ b && b ≤ 90) || (97 ≤ b && b ≤ 122) ||
    b ∈ [33, 35, 36, 37, 38, 39, 42, 43, 45, 46, 94, 95, 96, 124, 126]

/-- `toLowerCase`, of a token. -/
def toLowerCase (b : UInt8) : UInt8 := if 65 ≤ b ∧ b ≤ 90 then b + 32 else b

/-- What `trim` removes of latin1 text. -/
def isTrimmed (b : UInt8) : Bool := (9 ≤ b && b ≤ 13) || b == 32 || b == 160

/-- The name and the text of a header line, `^(…+):[ \t]*([^\r\n]*)$`. -/
def matchHeader (line : List UInt8) : Option (List UInt8 × List UInt8) :=
  match cutAt [58] line with
  | none => none
  | some (name, value) =>
      let text := value.dropWhile fun b => b == 32 || b == 9
      if name ≠ [] ∧ name.all tokenByte ∧ text.all fun b => b != 13 && b != 10 then some (name, text)
      else none

def readHeaders (headers : Headers) : List (List UInt8) → Except String Headers
  | [] => .ok headers
  | line :: lines =>
      match matchHeader line with
      | none => .error "Invalid response header"
      | some (name, text) =>
          let name := name.map toLowerCase
          if headers.contains name ∧ name ∈ framingNames then .error "Ambiguous response framing"
          else readHeaders (headers.set name (stripped isTrimmed text)) lines

/-- `toString('ascii')` clears the high bit of each byte. -/
def clearHigh (b : UInt8) : UInt8 := b &&& 127

/-- The loop over the chunks, of at most as many as the body has bytes. -/
def readChunks (parts : List UInt8) : Nat → List UInt8 → Except String (List UInt8)
  | 0, _ => .error "Missing terminal response chunk"
  | fuel + 1, body =>
      if body = [] then .error "Missing terminal response chunk"
      else
        match cutAt crlf body with
        | none => .error "Invalid chunk length"
        | some (line, rest) =>
            if line = [] ∨ 16 < line.length then .error "Invalid chunk length"
            else
              match chunkSize (line.map clearHigh) with
              | none => .error "Chunk extensions unsupported"
              | some length =>
                  if rest.length < length + 2 ∨ (rest.drop length).take 2 ≠ crlf then
                    .error "Incomplete chunk"
                  else if length = 0 then
                    if rest.length = 2 then .ok parts
                    else .error "Trailers/additional response unsupported"
                  else readChunks (parts ++ rest.take length) fuel (rest.drop (length + 2))

def decodeChunked (body : List UInt8) : Except String (List UInt8) := readChunks [] body.length body

/-- A `Buffer` is too short for `Number` to round the length of another one to its own. -/
def parseBody (headers : Headers) (body : List UInt8) : Except String (List UInt8) :=
  if (headers.get (ascii "content-encoding")).any fun value => value ≠ ascii "identity" then
    .error "Compressed response unsupported"
  else
    match headers.get (ascii "content-length") with
    | some value =>
        if headers.contains (ascii "transfer-encoding") = false ∧ isDecimal value ∧
            decimalValue value = body.length then .ok body
        else .error "Incomplete/additional response body"
    | none =>
        if headers.get (ascii "transfer-encoding") = some (ascii "chunked") then decodeChunked body
        else .error "Response must have explicit framing"

def parseResponse (response : List UInt8) (expectedStatus : Nat) : Except String (List UInt8) :=
  match cutAt (crlf ++ crlf) response with
  | none => .error "Response headers invalid"
  | some (head, body) =>
      if head = [] ∨ 32768 < head.length then .error "Response headers invalid"
      else
        let lines := splitLines head
        match statusDigits (lines.headD []) with
        | none => .error "Unexpected provider HTTP status"
        | some (digits, rest) =>
            if (rest = [] ∨ rest.head? = some 32) ∧ decimalValue digits = expectedStatus then
              match readHeaders .empty lines.tail with
              | .error e => .error e
              | .ok headers => parseBody headers body
            else .error "Unexpected provider HTTP status"

/-! ## `response.py` -/

/-- `lower`, of latin1 text. -/
def pyLower (b : UInt8) : UInt8 :=
  if (65 ≤ b ∧ b ≤ 90) ∨ (192 ≤ b ∧ b ≤ 222 ∧ b ≠ 215) then b + 32 else b

/-- What `strip` removes of latin1 text. -/
def isStripped (b : UInt8) : Bool :=
  (9 ≤ b && b ≤ 13) || (28 ≤ b && b ≤ 32) || b == 133 || b == 160

def httpHeaders (headers : Headers) : List (List UInt8) → Except String Headers
  | [] => .ok headers
  | line :: lines =>
      match cutAt [58] line with
      | none => .error "Ambiguous HTTP response framing"
      | some (name, value) =>
          let name := name.map pyLower
          if headers.contains name ∧ name ∈ framingNames then .error "Ambiguous HTTP response framing"
          else httpHeaders (headers.set name (stripped isStripped value)) lines

/-- The loop over the chunks, of at most as many as the body has bytes. -/
def httpChunks (output : List UInt8) : Nat → List UInt8 → Except String (List UInt8)
  | 0, _ => .error "Missing final HTTP chunk"
  | fuel + 1, body =>
      if body = [] then .error "Missing final HTTP chunk"
      else
        match cutAt crlf body with
        | none => .error "Invalid HTTP chunk"
        | some (size, rest) =>
            match chunkSize size with
            | none => .error "Invalid HTTP chunk"
            | some length =>
                if rest.length < length + 2 ∨ (rest.drop length).take 2 ≠ crlf then
                  .error "Truncated HTTP chunk"
                else if length = 0 then
                  if rest.length = 2 then .ok output else .error "Extra HTTP response bytes"
                else httpChunks (output ++ rest.take length) fuel (rest.drop (length + 2))

def httpDecodeChunked (body : List UInt8) : Except String (List UInt8) :=
  httpChunks [] body.length body

def httpFramedBody (headers : Headers) (body : List UInt8) : Except String (List UInt8) :=
  if (headers.get (ascii "content-encoding")).getD (ascii "identity") ≠ ascii "identity" then
    .error "Compressed responses unsupported"
  else
    match headers.get (ascii "content-length") with
    | some value =>
        if headers.contains (ascii "transfer-encoding") = false ∧ isDecimal value ∧
            decimalValue value = body.length then .ok body
        else .error "Incomplete/additional HTTP body"
    | none =>
        if headers.get (ascii "transfer-encoding") = some (ascii "chunked") then httpDecodeChunked body
        else .error "Explicit HTTP response framing required"

/-- `http_body` with `allow_error=True`. -/
def httpBody (raw : List UInt8) : Except String (List UInt8) :=
  match cutAt (crlf ++ crlf) raw with
  | none => .error "Invalid HTTP response headers"
  | some (head, body) =>
      if 32768 < head.length then .error "Invalid HTTP response headers"
      else
        let lines := splitLines head
        match statusDigits (lines.headD []) with
        | none => .error "Invalid provider HTTP status"
        | some (_, rest) =>
            -- `$` matches in front of a last line feed
            if rest = [] ∨ rest.head? = some 32 ∨ rest = [10] then
              match httpHeaders .empty lines.tail with
              | .error e => .error e
              | .ok headers => httpFramedBody headers body
            else .error "Invalid provider HTTP status"

/-! ## `pods.py` -/

/-- What `int` strips of bytes. -/
def isIntBlank (b : UInt8) : Bool := (9 ≤ b && b ≤ 13) || b == 32

/-- Digits with single underscores between them. -/
def isIntDigits : List UInt8 → Bool
  | [] => false
  | [b] => isDigit b
  | b :: c :: rest => isDigit b && (if c = 95 then isIntDigits rest else isIntDigits (c :: rest))

/-- `int`, of bytes. -/
def pyInt (text : List UInt8) : Option Int :=
  match stripped isIntBlank text with
  | 45 :: digits =>
      if isIntDigits digits then some (-(decimalValue (digits.filter isDigit) : Int)) else none
  | 43 :: digits =>
      if isIntDigits digits then some (decimalValue (digits.filter isDigit) : Int) else none
  | digits => if isIntDigits digits then some (decimalValue (digits.filter isDigit) : Int) else none

/-- `int(raw_response.split(b" ", 2)[1])` -/
def recordedStatus (raw : List UInt8) : Option Int :=
  match cutAt [32] raw with
  | none => none
  | some (_, rest) =>
      match cutAt [32] rest with
      | none => pyInt rest
      | some (field, _) => pyInt field

/-! ## Chunks -/

theorem hexValue_low {b : UInt8} {d : Nat} (is : hexValue b = some d) : b < 128 ∧ b ≠ 13 := by
  grind [hexValue]

theorem clearHigh_of_low (b : UInt8) (low : b < 128) : clearHigh b = b := by
  rw [UInt8.lt_iff_toNat_lt] at low
  apply UInt8.toNat_inj.mp
  rw [clearHigh, UInt8.toNat_and]
  exact (Nat.and_two_pow_sub_one_eq_mod b.toNat 7).trans (Nat.mod_eq_of_lt low)

theorem foldl_none (size : List UInt8) : (size.foldl (fun value b =>
    (value : Option Nat).bind fun v => (hexValue b).map fun d => 16 * v + d) none) = none := by
  induction size with
  | nil => rfl
  | cons b rest ih => exact ih

theorem mem_of_chunkSize {size : List UInt8} {length : Nat} (is : chunkSize size = some length) :
    ∀ b ∈ size, b < 128 ∧ b ≠ 13 := by
  have folds : ∀ (size : List UInt8) (value : Option Nat), (size.foldl (fun value b =>
      (value : Option Nat).bind fun v => (hexValue b).map fun d => 16 * v + d) value) = some length →
      ∀ b ∈ size, b < 128 ∧ b ≠ 13 := by
    intro size
    induction size with
    | nil => nofun
    | cons c rest ih =>
        intro value folded b member
        rw [List.foldl_cons] at folded
        rcases List.mem_cons.mp member with rfl | later
        · cases digit : hexValue b with
          | some d => exact hexValue_low digit
          | none =>
              rw [digit] at folded
              cases value with
              | none =>
                  rw [Option.bind_none, foldl_none] at folded
                  cases folded
              | some v =>
                  rw [Option.bind_some, Option.map_none, foldl_none] at folded
                  cases folded
        · exact ih _ folded b later
  unfold chunkSize at is
  split at is
  · exact folds size _ is
  · cases is

/-- The lines of the sizes of the chunks, as the verifier reads them. -/
def chunkLines : Nat → List UInt8 → List (List UInt8)
  | 0, _ => []
  | fuel + 1, body =>
      match cutAt crlf body with
      | none => []
      | some (line, rest) =>
          match chunkSize (line.map clearHigh) with
          | none => [line]
          | some length =>
              if length = 0 then [line] else line :: chunkLines fuel (rest.drop (length + 2))

theorem httpChunks_of_readChunks {fuel : Nat} {parts body out : List UInt8}
    (reads : readChunks parts fuel body = .ok out) :
    (∀ line ∈ chunkLines fuel body, ∀ b ∈ line, b < 128) ∧ httpChunks parts fuel body = .ok out ∨
      (∃ line ∈ chunkLines fuel body, ∃ b ∈ line, ¬ b < 128) ∧
        ∀ found, httpChunks parts fuel body ≠ .ok found := by
  induction fuel generalizing parts body with
  | zero => cases reads
  | succ fuel ih =>
      unfold readChunks at reads
      unfold httpChunks chunkLines
      split at reads
      · cases reads
      · rename_i some
        rw [if_neg some]
        split at reads
        · cases reads
        · rename_i line rest cuts
          split at reads
          · cases reads
          · split at reads
            · cases reads
            · rename_i length size
              split at reads
              · cases reads
              · rename_i complete
                by_cases low : ∀ b ∈ line, b < 128
                · have same : line.map clearHigh = line := by
                    rw [List.map_congr_left fun b member => clearHigh_of_low b (low b member), List.map_id']
                  rw [same] at size
                  simp only [size, if_neg complete]
                  split at reads
                  · rename_i zero
                    simp only [if_pos zero]
                    split at reads
                    · rename_i ended
                      rw [if_pos ended, ← Except.ok.inj reads]
                      refine Or.inl ⟨fun found member => ?_, rfl⟩
                      obtain rfl := List.mem_singleton.mp member
                      exact low
                    · cases reads
                  · rename_i more
                    simp only [if_neg more]
                    rcases ih reads with ⟨others, later⟩ | ⟨⟨found, member, high⟩, fails⟩
                    · refine Or.inl ⟨fun found member => ?_, later⟩
                      rcases List.mem_cons.mp member with rfl | member
                      · exact low
                      · exact others found member
                    · exact Or.inr ⟨⟨found, List.mem_cons_of_mem _ member, high⟩, fails⟩
                · -- the client reads no size in this line
                  have unread : chunkSize line = none := by
                    cases own : chunkSize line with
                    | none => rfl
                    | some length => exact absurd (fun b member => (mem_of_chunkSize own b member).1) low
                  simp only [unread]
                  obtain ⟨b, notLow⟩ := not_forall.mp low
                  obtain ⟨member, high⟩ := Classical.not_imp.mp notLow
                  refine Or.inr ⟨⟨line, ?_, b, member, high⟩, nofun⟩
                  split
                  · exact List.mem_singleton.mpr rfl
                  · exact List.mem_cons_self

/-! ## Headers -/

/-- What the client takes from the same lines: it strips more of a value. -/
def HeadersAgree (headers other : Headers) : Prop :=
  ∀ name, other.get name = (headers.get name).map (stripped isStripped)

theorem HeadersAgree.contains {headers other : Headers} (agree : HeadersAgree headers other)
    (name : List UInt8) : other.contains name = headers.contains name := by
  rw [Dict.contains, Dict.contains, agree, Option.isSome_map]

theorem HeadersAgree.set {headers other : Headers} (agree : HeadersAgree headers other)
    (name : List UInt8) {value stripped' : List UInt8} (same : stripped' = stripped isStripped value) :
    HeadersAgree (headers.set name value) (other.set name stripped') := by
  intro key
  rw [Dict.get_set, Dict.get_set]
  split
  · rw [same]
    rfl
  · exact agree key

theorem pyLower_of_token : ∀ b : UInt8, tokenByte b = true → pyLower b = toLowerCase b :=
  forall_byte (by decide +kernel)

theorem isStripped_of_isTrimmed (b : UInt8) (trimmed : isTrimmed b = true) : isStripped b = true := by
  grind [isTrimmed, isStripped]

theorem matchHeader_eq {line name text : List UInt8} (found : matchHeader line = some (name, text)) :
    ∃ value, cutAt [58] line = some (name, value) ∧ name.all tokenByte = true ∧ name ≠ [] ∧
      text = value.dropWhile fun b => b == 32 || b == 9 := by
  unfold matchHeader at found
  split at found
  · cases found
  · rename_i own value cuts
    simp only at found
    split at found
    · rename_i fits
      obtain ⟨rfl, rfl⟩ := Prod.mk.inj (Option.some.inj found)
      exact ⟨value, cuts, fits.2.1, fits.1, rfl⟩
    · cases found

theorem httpHeaders_of_readHeaders {lines : List (List UInt8)} {headers other result : Headers}
    (agree : HeadersAgree headers other) (reads : readHeaders headers lines = .ok result) :
    ∃ found, httpHeaders other lines = .ok found ∧ HeadersAgree result found := by
  induction lines generalizing headers other with
  | nil =>
      obtain rfl := Except.ok.inj reads
      exact ⟨other, rfl, agree⟩
  | cons line lines ih =>
      rw [readHeaders] at reads
      split at reads
      · cases reads
      · rename_i name text found
        obtain ⟨value, cuts, tokens, -, rfl⟩ := matchHeader_eq found
        have lower : name.map pyLower = name.map toLowerCase :=
          List.map_congr_left fun b member => pyLower_of_token b (List.all_eq_true.mp tokens b member)
        simp only at reads
        split at reads
        · cases reads
        · rename_i single
          have wider : ∀ b : UInt8, (b == 32 || b == 9) = true → isStripped b = true := by
            intro b blank
            rcases Bool.or_eq_true _ _ ▸ blank with blank | blank
            · rw [beq_iff_eq.mp blank]
              decide
            · rw [beq_iff_eq.mp blank]
              decide
          have values : stripped isStripped value =
              stripped isStripped (stripped isTrimmed (value.dropWhile fun b => b == 32 || b == 9)) := by
            rw [stripped_stripped isStripped_of_isTrimmed, stripped_dropWhile wider]
          obtain ⟨result', later, agrees⟩ := ih (agree.set _ values) reads
          refine ⟨result', ?_, agrees⟩
          rw [httpHeaders, cuts]
          simp only [lower]
          rw [agree.contains, if_neg single]
          exact later

theorem isDigit_not_stripped (b : UInt8) (digit : isDigit b = true) :
    isStripped b = false ∧ isIntBlank b = false ∧ b ≠ 32 ∧ b ≠ 45 ∧ b ≠ 43 := by
  grind [isDigit, isStripped, isIntBlank]

theorem isDecimal_all {text : List UInt8} (decimal : isDecimal text = true) :
    ∀ b ∈ text, isDigit b = true := by
  rw [isDecimal, Bool.or_eq_true, beq_iff_eq, Bool.and_eq_true] at decimal
  rcases decimal with rfl | ⟨-, digits⟩
  · intro b member
    obtain rfl := List.mem_singleton.mp member
    decide
  · exact fun b member => List.all_eq_true.mp digits b member

theorem httpFramedBody_of_parseBody {headers other : Headers} {body out : List UInt8}
    (agree : HeadersAgree headers other) (parses : parseBody headers body = .ok out) :
    headers.contains (ascii "content-length") = true ∧ httpFramedBody other body = .ok out ∨
      headers.contains (ascii "content-length") = false ∧ decodeChunked body = .ok out ∧
        httpFramedBody other body = httpDecodeChunked body := by
  have identity : stripped isStripped (ascii "identity") = ascii "identity" := by decide
  have chunked : stripped isStripped (ascii "chunked") = ascii "chunked" := by decide
  unfold parseBody at parses
  split at parses
  · cases parses
  · rename_i encoding
    have plain : ¬ (other.get (ascii "content-encoding")).getD (ascii "identity") ≠ ascii "identity" := by
      rw [agree, not_not]
      cases given : headers.get (ascii "content-encoding") with
      | none => rfl
      | some value =>
          rw [given, Option.any_some, decide_eq_true_iff, not_not] at encoding
          rw [encoding, Option.map_some, identity]
          rfl
    unfold httpFramedBody
    rw [if_neg plain]
    split at parses
    · rename_i value given
      split at parses
      · rename_i framed
        obtain ⟨single, decimal, length⟩ := framed
        have same : stripped isStripped value = value :=
          stripped_of_none fun b member => (isDigit_not_stripped b (isDecimal_all decimal b member)).1
        refine Or.inl ⟨Dict.contains_of_get given, ?_⟩
        rw [agree, given, Option.map_some, same, agree.contains]
        simp only [single, decimal, length, and_self, if_true]
        exact parses
      · cases parses
    · rename_i absent
      split at parses
      · rename_i transfer
        refine Or.inr ⟨?_, parses, ?_⟩
        · rw [Dict.contains, absent]
          rfl
        · rw [agree, absent, Option.map_none]
          simp only
          rw [agree, transfer, Option.map_some, chunked, if_pos rfl]
      · cases parses

/-! ## The status -/

theorem statusDigits_eq {line digits rest : List UInt8}
    (found : statusDigits line = some (digits, rest)) :
    line = ascii "HTTP/1.1 " ++ (digits ++ rest) ∧ digits.length = 3 ∧
      ∀ b ∈ digits, isDigit b = true := by
  have first : ∀ b : UInt8, 50 ≤ b ∧ b ≤ 53 → isDigit b = true := by grind [isDigit]
  unfold statusDigits at found
  split at found
  · rename_i isPrefix
    obtain ⟨tail, rfl⟩ := List.isPrefixOf_iff_prefix.mp isPrefix
    have dropped : (ascii "HTTP/1.1 " ++ tail).drop 9 = tail := List.drop_left' (by decide)
    rw [dropped] at found
    split at found
    · rename_i a b c rest'
      split at found
      · rename_i digits'
        obtain ⟨rfl, rfl⟩ := Prod.mk.inj (Option.some.inj found)
        refine ⟨rfl, rfl, ?_⟩
        intro d member
        simp only [List.mem_cons, List.not_mem_nil, or_false] at member
        rcases member with rfl | rfl | rfl
        · exact first _ ⟨digits'.1, digits'.2.1⟩
        · exact digits'.2.2.1
        · exact digits'.2.2.2
      · cases found
    · cases found
  · cases found

theorem isIntDigits_mem {digits : List UInt8} (ints : isIntDigits digits = true) :
    ∀ b ∈ digits, isDigit b = true ∨ b = 95 := by
  fun_induction isIntDigits digits with
  | case1 => cases ints
  | case2 b =>
      intro d member
      obtain rfl := List.mem_singleton.mp member
      exact Or.inl ints
  | case3 b c rest skips ih =>
      rw [Bool.and_eq_true] at ints
      obtain ⟨digit, ints⟩ := ints
      intro d member
      rcases List.mem_cons.mp member with rfl | later
      · exact Or.inl digit
      · split at ints
        · rename_i underscore
          rcases List.mem_cons.mp later with rfl | later
          · exact Or.inr underscore
          · exact skips ints d later
        · exact ih ints d later

theorem isIntDigits_of_all {digits : List UInt8} (some : digits ≠ [])
    (all : ∀ b ∈ digits, isDigit b = true) : isIntDigits digits = true := by
  have underscore : isDigit 95 = false := by decide
  fun_induction isIntDigits digits with
  | case1 => exact absurd rfl some
  | case2 b => exact all b List.mem_cons_self
  | case3 b c rest _ ih =>
      have other : c ≠ 95 := by
        rintro rfl
        have digit := all 95 (by simp)
        rw [underscore] at digit
        cases digit
      rw [all b List.mem_cons_self, if_neg other,
        ih (by simp) fun d member => all d (List.mem_cons_of_mem b member)]
      rfl

theorem pyInt_digits {digits : List UInt8} (some : digits ≠ [])
    (all : ∀ b ∈ digits, isDigit b = true) : pyInt digits = Option.some (decimalValue digits : Int) := by
  have same : stripped isIntBlank digits = digits :=
    stripped_of_none fun b member => (isDigit_not_stripped b (all b member)).2.1
  have filtered : digits.filter isDigit = digits := List.filter_eq_self.mpr all
  unfold pyInt
  rw [same]
  split
  · exact absurd rfl (isDigit_not_stripped 45 (all 45 List.mem_cons_self)).2.2.2.1
  · exact absurd rfl (isDigit_not_stripped 43 (all 43 List.mem_cons_self)).2.2.2.2
  · rw [isIntDigits_of_all some all, filtered]
    rfl

theorem pyInt_colon {text : List UInt8} (colon : 58 ∈ text) : pyInt text = none := by
  have inside : 58 ∈ stripped isIntBlank text := mem_stripped colon (by decide)
  have none_ : ∀ digits : List UInt8, 58 ∈ digits → isIntDigits digits = false := by
    intro digits member
    by_contra ints
    rcases isIntDigits_mem (Bool.not_eq_false _ ▸ ints) 58 member with digit | other
    · exact absurd digit (by decide)
    · exact absurd other (by decide)
  unfold pyInt
  split
  · rename_i digits same
    rw [same] at inside
    rcases List.mem_cons.mp inside with other | inside
    · exact absurd other (by decide)
    · rw [none_ digits inside]
      rfl
  · rename_i digits same
    rw [same] at inside
    rcases List.mem_cons.mp inside with other | inside
    · exact absurd other (by decide)
    · rw [none_ digits inside]
      rfl
  · rw [none_ _ inside]
    rfl

theorem recordedStatus_spaced {digits rest : List UInt8} (three : digits.length = 3)
    (all : ∀ b ∈ digits, isDigit b = true) :
    recordedStatus (ascii "HTTP/1.1 " ++ (digits ++ 32 :: rest)) = some (decimalValue digits : Int) := by
  have start : ascii "HTTP/1.1 " = ascii "HTTP/1.1" ++ [32] := by decide
  have first : cutAt [32] (ascii "HTTP/1.1 " ++ (digits ++ 32 :: rest)) =
      some (ascii "HTTP/1.1", digits ++ 32 :: rest) := by
    rw [start, List.append_assoc]
    exact cutAt_append (by decide)
  have noSpace : 32 ∉ digits := fun member => (isDigit_not_stripped 32 (all 32 member)).2.2.1 rfl
  have second : cutAt [32] (digits ++ 32 :: rest) = some (digits, rest) := cutAt_append noSpace
  have full : digits ≠ [] := by
    rintro rfl
    cases three
  rw [recordedStatus, first]
  simp only [second]
  exact pyInt_digits full all

theorem recordedStatus_unspaced {digits name rest : List UInt8}
    (all : ∀ b ∈ digits, isDigit b = true) (tokens : name.all tokenByte = true) :
    recordedStatus (ascii "HTTP/1.1 " ++ (digits ++ (crlf ++ (name ++ 58 :: rest)))) = none := by
  have start : ascii "HTTP/1.1 " = ascii "HTTP/1.1" ++ [32] := by decide
  have first : cutAt [32] (ascii "HTTP/1.1 " ++ (digits ++ (crlf ++ (name ++ 58 :: rest)))) =
      some (ascii "HTTP/1.1", digits ++ (crlf ++ (name ++ 58 :: rest))) := by
    rw [start, List.append_assoc]
    exact cutAt_append (by decide)
  have whole : digits ++ (crlf ++ (name ++ 58 :: rest)) = (digits ++ crlf ++ name ++ [58]) ++ rest := by
    simp
  have noSpace : 32 ∉ digits ++ crlf ++ name ++ [58] := by
    rw [List.mem_append, List.mem_append, List.mem_append]
    rintro (((member | member) | member) | member)
    · exact (isDigit_not_stripped 32 (all 32 member)).2.2.1 rfl
    · exact absurd member (by decide)
    · exact absurd (List.all_eq_true.mp tokens 32 member) (by decide)
    · exact absurd member (by decide)
  have colon : 58 ∈ digits ++ crlf ++ name ++ [58] := by simp
  rw [recordedStatus, first]
  simp only
  rw [whole, cutAt_skip noSpace]
  cases cutAt [32] rest with
  | none =>
      exact pyInt_colon (List.mem_append_left _ colon)
  | some found =>
      exact pyInt_colon (List.mem_append_left _ colon)

/-! ## Agreement -/

/-- The size lines of a response, as the verifier reads them; there is none where the body has its
length in the head. -/
def responseSizes (response : List UInt8) : List (List UInt8) :=
  match cutAt (crlf ++ crlf) response with
  | none => []
  | some (head, body) =>
      match readHeaders .empty (splitLines head).tail with
      | .error _ => []
      | .ok headers =>
          if headers.contains (ascii "content-length") then [] else chunkLines body.length body

/-- The chunks of a body with the text of their sizes, and the text of the last size. -/
def encodeChunked (chunks : List (List UInt8 × List UInt8)) (last : List UInt8) : List UInt8 :=
  (chunks.flatMap fun chunk => chunk.1 ++ crlf ++ chunk.2 ++ crlf) ++ last ++ crlf ++ crlf

theorem parseResponse_eq {response out : List UInt8} {status : Nat}
    (parses : parseResponse response status = .ok out) :
    ∃ head body digits rest headers, cutAt (crlf ++ crlf) response = some (head, body) ∧
      head.length ≤ 32768 ∧ statusDigits ((splitLines head).headD []) = some (digits, rest) ∧
      (rest = [] ∨ rest.head? = some 32) ∧ decimalValue digits = status ∧
      readHeaders .empty (splitLines head).tail = .ok headers ∧ parseBody headers body = .ok out := by
  unfold parseResponse at parses
  split at parses
  · cases parses
  · rename_i head body cuts
    split at parses
    · cases parses
    · rename_i short
      simp only at parses
      split at parses
      · cases parses
      · rename_i digits rest found
        split at parses
        · rename_i fits
          split at parses
          · cases parses
          · rename_i headers reads
            exact ⟨head, body, digits, rest, headers, cuts, by omega, found, fits.1, fits.2, reads, parses⟩
        · cases parses

theorem second_line {lines : List (List UInt8)} {headers : Headers} {body out : List UInt8}
    (reads : readHeaders .empty lines = .ok headers) (parses : parseBody headers body = .ok out) :
    ∃ name value others, lines = (name ++ 58 :: value) :: others ∧ name.all tokenByte = true := by
  cases lines with
  | nil =>
      obtain rfl := Except.ok.inj reads
      cases parses
  | cons line others =>
      rw [readHeaders] at reads
      split at reads
      · cases reads
      · rename_i name text found
        obtain ⟨value, cuts, tokens, -⟩ := matchHeader_eq found
        refine ⟨name, value, others, ?_, tokens⟩
        rw [cutAt_eq cuts, List.append_assoc]
        rfl

theorem response_eq {response head body digits rest name value : List UInt8}
    {others : List (List UInt8)} (cuts : cutAt (crlf ++ crlf) response = some (head, body))
    (found : statusDigits ((splitLines head).headD []) = some (digits, rest))
    (second : (splitLines head).tail = (name ++ 58 :: value) :: others) :
    ∃ more, response = ascii "HTTP/1.1 " ++ (digits ++ (rest ++ (crlf ++ (name ++ 58 :: more)))) := by
  cases lines : splitLines head with
  | nil => exact absurd lines (splitLines_ne_nil head)
  | cons line tail =>
      rw [lines] at found second
      obtain ⟨own, -, -⟩ := statusDigits_eq found
      have headIs : head = line ++ crlf ++ joinLines ((name ++ 58 :: value) :: others) := by
        rw [← joinLines_splitLines head, lines]
        rw [List.tail_cons] at second
        rw [second]
        rfl
      obtain ⟨more, rest'⟩ : ∃ more, joinLines ((name ++ 58 :: value) :: others) = name ++ 58 :: more := by
        cases others with
        | nil => exact ⟨value, rfl⟩
        | cons next others =>
            exact ⟨value ++ crlf ++ joinLines (next :: others), by simp [joinLines]⟩
      refine ⟨more ++ (crlf ++ crlf) ++ body, ?_⟩
      rw [List.headD_cons] at own
      rw [cutAt_eq cuts, headIs, rest', own]
      simp

theorem chunks_encoded {size data tail : List UInt8} (sized : chunkSize size = some data.length) :
    cutAt crlf (size ++ crlf ++ data ++ crlf ++ tail) = some (size, data ++ crlf ++ tail) ∧
      ¬ ((data ++ crlf ++ tail).length < data.length + 2 ∨
        ((data ++ crlf ++ tail).drop data.length).take 2 ≠ crlf) := by
  have noReturn : 13 ∉ size := fun member => (mem_of_chunkSize sized 13 member).2 rfl
  constructor
  · have whole : size ++ crlf ++ data ++ crlf ++ tail = size ++ (crlf ++ (data ++ crlf ++ tail)) := by
      simp
    rw [whole]
    exact cutAt_append noReturn
  · rw [not_or, not_lt, not_not]
    constructor
    · simp [crlf]
    · rw [List.append_assoc, List.drop_left]
      rfl

theorem sized_line {size : List UInt8} {length : Nat} (sized : chunkSize size = some length) :
    ¬ (size = [] ∨ 16 < size.length) ∧ size.map clearHigh = size := by
  have same : size.map clearHigh = size := by
    rw [List.map_congr_left fun b member => clearHigh_of_low b (mem_of_chunkSize sized b member).1,
      List.map_id']
  refine ⟨?_, same⟩
  unfold chunkSize at sized
  split at sized
  · rename_i bounds
    rintro (rfl | long)
    · exact absurd bounds.1 (by decide)
    · omega
  · cases sized

theorem chunks_decode {chunks : List (List UInt8 × List UInt8)} {last : List UInt8}
    (sized : ∀ chunk ∈ chunks, chunkSize chunk.1 = some chunk.2.length ∧ chunk.2 ≠ [])
    (ends : chunkSize last = some 0) {parts : List UInt8} {fuel : Nat}
    (enough : (encodeChunked chunks last).length ≤ fuel) :
    readChunks parts fuel (encodeChunked chunks last) = .ok (parts ++ chunks.flatMap Prod.snd) ∧
      httpChunks parts fuel (encodeChunked chunks last) = .ok (parts ++ chunks.flatMap Prod.snd) := by
  induction chunks generalizing parts fuel with
  | nil =>
      have whole : encodeChunked [] last = last ++ crlf ++ [] ++ crlf ++ [] := by simp [encodeChunked]
      obtain ⟨cuts, complete⟩ := @chunks_encoded last [] [] ends
      obtain ⟨line, same⟩ := sized_line ends
      rw [whole] at enough ⊢
      cases fuel with
      | zero => simp [crlf] at enough
      | succ fuel =>
          have some : last ++ crlf ++ [] ++ crlf ++ [] ≠ [] := by simp [crlf]
          constructor
          · rw [readChunks, if_neg some, cuts]
            simp only [if_neg line, same, ends]
            rw [List.length_nil] at complete
            simp [crlf]
          · rw [httpChunks, if_neg some, cuts]
            simp only [ends]
            simp [crlf]
  | cons chunk chunks ih =>
      obtain ⟨size, data⟩ := chunk
      obtain ⟨own, full⟩ := sized (size, data) List.mem_cons_self
      have whole : encodeChunked ((size, data) :: chunks) last =
          size ++ crlf ++ data ++ crlf ++ encodeChunked chunks last := by
        simp [encodeChunked]
      obtain ⟨cuts, complete⟩ := @chunks_encoded size data (encodeChunked chunks last) own
      obtain ⟨line, same⟩ := sized_line own
      have notZero : data.length ≠ 0 := fun zero => full (List.length_eq_zero_iff.mp zero)
      have takes : (data ++ crlf ++ encodeChunked chunks last).take data.length = data := by
        rw [List.append_assoc, List.take_left]
      have drops : (data ++ crlf ++ encodeChunked chunks last).drop (data.length + 2) =
          encodeChunked chunks last := by
        rw [show data.length + 2 = (data ++ crlf).length by simp [crlf], List.drop_left]
      rw [whole] at enough ⊢
      cases fuel with
      | zero => simp [crlf] at enough
      | succ fuel =>
          have some : size ++ crlf ++ data ++ crlf ++ encodeChunked chunks last ≠ [] := by simp [crlf]
          have shorter : (encodeChunked chunks last).length ≤ fuel := by
            simp only [List.length_append, crlf, List.length_cons, List.length_nil] at enough
            omega
          have later := @ih (fun chunk member => sized chunk (List.mem_cons_of_mem _ member))
            (parts ++ data) fuel shorter
          rw [List.append_assoc] at later
          constructor
          · rw [readChunks, if_neg some, cuts]
            simp only [if_neg line, same, own, if_neg complete, if_neg notZero, takes, drops]
            exact later.1
          · rw [httpChunks, if_neg some, cuts]
            simp only [own, if_neg complete, if_neg notZero, takes, drops]
            exact later.2

/-- A response that the verifier accepts is one that the client accepts, with the same body and with
the status recorded, exactly where a space follows the status and no line of a chunk size has a byte
above 127. Both decode every encoding in chunks to its body. -/
theorem responses_agree {response body : List UInt8} {status : Nat}
    (parses : parseResponse response status = .ok body) :
    ((httpBody response = .ok body ∧ recordedStatus response = some (status : Int)) ↔
      ((response.drop 12).head? = some 32 ∧
        ∀ line ∈ responseSizes response, ∀ b ∈ line, b < 128)) ∧
    ∀ (chunks : List (List UInt8 × List UInt8)) (last : List UInt8),
      (∀ chunk ∈ chunks, chunkSize chunk.1 = some chunk.2.length ∧ chunk.2 ≠ []) →
      chunkSize last = some 0 →
      decodeChunked (encodeChunked chunks last) = .ok (chunks.flatMap Prod.snd) ∧
        httpDecodeChunked (encodeChunked chunks last) = .ok (chunks.flatMap Prod.snd) := by
  refine ⟨?_, fun chunks last sized ends => chunks_decode sized ends (Nat.le_refl _)⟩
  obtain ⟨head, framed, digits, rest, headers, cuts, short, found, fits, value, reads, parsed⟩ :=
    parseResponse_eq parses
  obtain ⟨-, three, digitsOnly⟩ := statusDigits_eq found
  obtain ⟨name, text, others, second, tokens⟩ := second_line reads parsed
  obtain ⟨more, whole⟩ := response_eq cuts found second
  -- the client reads the same lines
  obtain ⟨other, readsToo, agree⟩ := @httpHeaders_of_readHeaders _ .empty .empty headers
    (fun name => rfl) reads
  have starts : rest = [] ∨ rest.head? = some 32 ∨ rest = [10] := by
    rcases fits with empty | space
    · exact Or.inl empty
    · exact Or.inr (Or.inl space)
  have client : httpBody response = httpFramedBody other framed := by
    unfold httpBody
    rw [cuts]
    simp only [if_neg (show ¬ 32768 < head.length by omega), found, if_pos starts, readsToo]
  have sizes : responseSizes response =
      if headers.contains (ascii "content-length") then [] else chunkLines framed.length framed := by
    unfold responseSizes
    rw [cuts]
    simp only [reads]
  have bodies : (httpBody response = .ok body) ↔ ∀ line ∈ responseSizes response, ∀ b ∈ line, b < 128 := by
    rw [client, sizes]
    rcases httpFramedBody_of_parseBody agree parsed with ⟨length, same⟩ | ⟨length, decodes, same⟩
    · rw [same, if_pos length]
      simp
    · rw [same, length]
      rcases httpChunks_of_readChunks decodes with ⟨low, ok⟩ | ⟨⟨line, member, b, inLine, high⟩, fails⟩
      · exact ⟨fun _ => low, fun _ => ok⟩
      · exact ⟨fun ok => absurd ok (fails body), fun low => absurd (low line member b inLine) high⟩
  have statuses : recordedStatus response = some (status : Int) ↔ (response.drop 12).head? = some 32 := by
    have dropped : ∀ tail, (ascii "HTTP/1.1 " ++ (digits ++ tail)).drop 12 = tail := by
      intro tail
      rw [← List.append_assoc]
      exact List.drop_left' (by rw [List.length_append, three]; rfl)
    rw [whole, dropped]
    rcases fits with rfl | space
    · rw [List.nil_append, recordedStatus_unspaced digitsOnly tokens]
      simp [crlf]
    · obtain ⟨tail, rfl⟩ : ∃ tail, rest = 32 :: tail := by
        cases rest with
        | nil => cases space
        | cons b tail => exact ⟨tail, by rw [Option.some.inj space]⟩
      rw [List.cons_append, recordedStatus_spaced three digitsOnly, value]
      simp
  rw [bodies, statuses]
  exact and_comm

/-! ## Samples -/

def spacedResponse : List UInt8 := ascii "HTTP/1.1 200 OK\r\nContent-Length: 2\r\n\r\nok"

theorem responses_agree_spaced :
    httpBody spacedResponse = .ok (ascii "ok") ∧ recordedStatus spacedResponse = some (200 : Nat) :=
  (@responses_agree spacedResponse (ascii "ok") 200 (by decide +kernel)).1.mpr (by decide +kernel)

/-- No reason follows the status. -/
def bareResponse : List UInt8 := ascii "HTTP/1.1 200\r\nContent-Length: 2\r\n\r\nok"

/-- The size of the chunk is the byte 0xB2, a `2` with its high bit set. -/
def highResponse : List UInt8 :=
  ascii "HTTP/1.1 200 OK\r\nTransfer-Encoding: chunked\r\n\r\n" ++ 178 :: ascii "\r\nok\r\n0\r\n\r\n"

theorem responses_disagree :
    (parseResponse bareResponse 200 = .ok (ascii "ok") ∧ recordedStatus bareResponse = none) ∧
      parseResponse highResponse 200 = .ok (ascii "ok") ∧
        httpBody highResponse = .error "Invalid HTTP chunk" := by
  refine ⟨⟨?_, ?_⟩, ?_, ?_⟩ <;> decide +kernel

end GenSubnet.Witness
