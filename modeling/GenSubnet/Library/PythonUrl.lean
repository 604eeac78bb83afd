import Mathlib.Data.List.Basic
import Mathlib.Data.List.TakeWhile

/-!
# URLs and paths as Python reads them

`urlsplit` and `unquote` of `urllib.parse`, and the names of POSIX paths in `pathlib`, on lists of
characters. An escape is `%` with two hexadecimal digits; the bytes of escapes are read as UTF-8, in
which an incomplete sequence becomes one replacement character.
-/

namespace GenSubnet.Library.Url

/-! ## Percent escapes -/

def hexDigit (c : Char) : Option Nat :=
  if '0' ≤ c ∧ c ≤ '9' then some (c.toNat - 48)
  else if 'a' ≤ c ∧ c ≤ 'f' then some (c.toNat - 87)
  else if 'A' ≤ c ∧ c ≤ 'F' then some (c.toNat - 55)
  else none

/-- The byte of an escape or of an ASCII character, or another character as it is. -/
inductive Piece
  | byte (value : Nat)
  | char (c : Char)
deriving DecidableEq

def Piece.of (c : Char) : Piece := if c.toNat < 128 then .byte c.toNat else .char c

/-- What the two characters after `%` say. -/
def escape (a b : Char) : Option Nat :=
  match hexDigit a, hexDigit b with
  | some high, some low => some (16 * high + low)
  | _, _ => none

/-- The byte of an escape, of whose text this is what follows `%`. -/
def escaped : List Char → Option Nat
  | a :: b :: _ => escape a b
  | _ => none

def escapeAt (c : Char) (rest : List Char) : Option Nat := if c = '%' then escaped rest else none

/-- The pieces of a text whose first characters belong to an escape that was read. -/
def piecesFrom : Nat → List Char → List Piece
  | _, [] => []
  | skip + 1, _ :: rest => piecesFrom skip rest
  | 0, c :: rest =>
      match escapeAt c rest with
      | some value => .byte value :: piecesFrom 2 rest
      | none => .of c :: piecesFrom 0 rest

def pieces (text : List Char) : List Piece := piecesFrom 0 text

/-- There is an escape in the text. -/
def hasEscape : List Char → Bool
  | [] => false
  | c :: rest => (escapeAt c rest).isSome || hasEscape rest

/-! ## UTF-8 -/

/-- A sequence under way: the range of its next byte, how many are missing, and the code so far. -/
structure Partial where
  lower : Nat
  upper : Nat
  missing : Nat
  code : Nat

def replacement : Char := Char.ofNat 0xFFFD

/-- What a byte that is not ASCII begins. -/
def lead (b : Nat) : Option Partial :=
  if 0xC2 ≤ b ∧ b ≤ 0xDF then some ⟨0x80, 0xBF, 1, b - 0xC0⟩
  else if b = 0xE0 then some ⟨0xA0, 0xBF, 2, 0⟩
  else if b = 0xED then some ⟨0x80, 0x9F, 2, 0xD⟩
  else if 0xE1 ≤ b ∧ b ≤ 0xEF then some ⟨0x80, 0xBF, 2, b - 0xE0⟩
  else if b = 0xF0 then some ⟨0x90, 0xBF, 3, 0⟩
  else if 0xF1 ≤ b ∧ b ≤ 0xF3 then some ⟨0x80, 0xBF, 3, b - 0xF0⟩
  else if b = 0xF4 then some ⟨0x80, 0x8F, 3, 4⟩
  else none

/-- A piece with no sequence under way. -/
def begin : Piece → List Char × Option Partial
  | .char c => ([c], none)
  | .byte b =>
      if b < 128 then ([Char.ofNat b], none)
      else match lead b with
        | some sequence => ([], some sequence)
        | none => ([replacement], none)

def feed : Option Partial → Piece → List Char × Option Partial
  | none, piece => begin piece
  | some sequence, .char c => (replacement :: (begin (.char c)).1, (begin (.char c)).2)
  | some sequence, .byte b =>
      if sequence.lower ≤ b ∧ b ≤ sequence.upper then
        let code := sequence.code * 64 + (b - 0x80)
        if sequence.missing ≤ 1 then ([Char.ofNat code], none)
        else ([], some ⟨0x80, 0xBF, sequence.missing - 1, code⟩)
      else (replacement :: (begin (.byte b)).1, (begin (.byte b)).2)

def decode : Option Partial → List Piece → List Char
  | none, [] => []
  | some _, [] => [replacement]
  | sequence, piece :: rest => (feed sequence piece).1 ++ decode (feed sequence piece).2 rest

def unquote (text : List Char) : List Char := decode none (pieces text)

/-! ## Splitting -/

/-- A text before and after the first occurrence of a character. -/
def cut (c : Char) (text : List Char) : List Char × List Char :=
  (text.takeWhile (· ≠ c), (text.dropWhile (· ≠ c)).drop 1)

structure SplitResult where
  scheme : List Char
  netloc : List Char
  path : List Char
  query : List Char
  fragment : List Char
deriving DecidableEq

def schemeChar (c : Char) : Bool := c.isAlphanum || c = '+' || c = '-' || c = '.'

/-- What `urlsplit` removes before it begins. -/
def clean (url : List Char) : List Char :=
  (url.dropWhile fun c => c.toNat ≤ 32).filter fun c => c ≠ '\t' ∧ c ≠ '\r' ∧ c ≠ '\n'

def splitScheme (url : List Char) : List Char × List Char :=
  match url.dropWhile (· ≠ ':'), url.takeWhile (· ≠ ':') with
  | _ :: after, first :: more =>
      if first.isAlpha ∧ (first :: more).all schemeChar then
        ((first :: more).map Char.toLower, after)
      else ([], url)
  | _, _ => ([], url)

def endsNetloc (c : Char) : Bool := c = '/' || c = '?' || c = '#'

def splitNetloc (url : List Char) : List Char × List Char :=
  match url with
  | '/' :: '/' :: after => (after.takeWhile (!endsNetloc ·), after.dropWhile (!endsNetloc ·))
  | _ => ([], url)

/-- Without the errors of malformed hosts. -/
def urlsplit (url : List Char) : SplitResult :=
  let scheme := splitScheme (clean url)
  let netloc := splitNetloc scheme.2
  let fragment := cut '#' netloc.2
  let query := cut '?' fragment.1
  ⟨scheme.1, netloc.1, query.1, query.2, fragment.2⟩

/-- What follows the host. -/
def afterHost (url : List Char) : List Char := (splitNetloc (splitScheme (clean url)).2).2

def endsPath (c : Char) : Bool := c = '?' || c = '#'

/-- The query and the fragment, with the characters that begin them. -/
def trailer (url : List Char) : List Char := (afterHost url).dropWhile (!endsPath ·)

/-! ## Paths -/

/-- The parts of a path between its slashes. -/
def segments : List Char → List (List Char)
  | [] => [[]]
  | c :: rest =>
      if c = '/' then [] :: segments rest
      else match segments rest with
        | [] => [[c]]
        | first :: more => (c :: first) :: more

/-- `Path(text).name` -/
def pathName (text : List Char) : List Char :=
  (((segments text).filter fun s => s ≠ [] ∧ s ≠ ['.']).getLast?).getD []

/-- A name before and after its last dot. -/
def splitDot (name : List Char) : Option (List Char × List Char) :=
  if '.' ∈ name then
    some (((name.reverse.dropWhile (· ≠ '.')).drop 1).reverse,
      (name.reverse.takeWhile (· ≠ '.')).reverse)
  else none

/-- `stem` of a name: without its last suffix, unless the last dot is its first or last character. -/
def stem (name : List Char) : List Char :=
  match splitDot name with
  | some (before, after) => if before = [] ∨ after = [] then name else before
  | none => name

/-- `stem` since Python 3.14: unless there are only dots before the last one. -/
def stemSince314 (name : List Char) : List Char :=
  match splitDot name with
  | some (before, _) => if before.all (· = '.') then name else before
  | none => name

/-! ## Escapes -/

/-- A character that ends an escape: neither a hexadecimal digit nor `%`, and ASCII. -/
structure Separator (c : Char) : Prop where
  ascii : c.toNat < 128
  digit : hexDigit c = none
  percent : c ≠ '%'

theorem separator_dot : Separator '.' := ⟨by decide, by decide, by decide⟩

theorem separator_slash : Separator '/' := ⟨by decide, by decide, by decide⟩

theorem Separator.of {c : Char} (separator : Separator c) : Piece.of c = .byte c.toNat := by
  rw [Piece.of, if_pos separator.ascii]

theorem Separator.escapeAt {c : Char} (separator : Separator c) (rest : List Char) :
    escapeAt c rest = none := by
  rw [Url.escapeAt, if_neg separator.percent]

theorem escaped_append {c : Char} (separator : Separator c) (x y : List Char) :
    escaped (x ++ c :: y) = escaped x := by
  have noEscape : ∀ a, escape a c = none ∧ escape c a = none := by
    intro a
    unfold escape
    rw [separator.digit]
    cases hexDigit a <;> simp
  match x with
  | [] =>
      cases y with
      | nil => rfl
      | cons d y => exact (noEscape d).2
  | [a] => exact (noEscape a).1
  | a :: b :: x => rfl

theorem two_le_of_escaped {rest : List Char} {value : Nat} (is : escaped rest = some value) :
    2 ≤ rest.length := by
  match rest with
  | [] | [a] => cases is
  | a :: b :: rest => simp

theorem two_le_of_escapeAt {c : Char} {rest : List Char} {value : Nat}
    (is : escapeAt c rest = some value) : 2 ≤ rest.length := by
  unfold escapeAt at is
  split at is
  · exact two_le_of_escaped is
  · cases is

theorem piecesFrom_append {c : Char} (separator : Separator c) {skip : Nat} {x : List Char}
    (within : skip ≤ x.length) (y : List Char) :
    piecesFrom skip (x ++ c :: y) = piecesFrom skip x ++ .byte c.toNat :: piecesFrom 0 y := by
  induction x generalizing skip with
  | nil =>
      obtain rfl : skip = 0 := Nat.le_zero.mp within
      rw [List.nil_append, show piecesFrom 0 [] = [] from rfl, List.nil_append, piecesFrom,
        separator.escapeAt, separator.of]
  | cons d x ih =>
      cases skip with
      | succ skip => exact ih (Nat.le_of_succ_le_succ within)
      | zero =>
          have same : Url.escapeAt d (x ++ c :: y) = Url.escapeAt d x := by
            rw [Url.escapeAt, Url.escapeAt, escaped_append separator]
          rw [List.cons_append, piecesFrom, piecesFrom, same]
          split
          · rename_i value is
            rw [ih (two_le_of_escapeAt is), List.cons_append]
          · rw [ih (Nat.zero_le _), List.cons_append]

theorem length_piecesFrom (skip : Nat) (text : List Char) :
    (piecesFrom skip text).length ≤ text.length - skip := by
  induction text generalizing skip with
  | nil => simp [piecesFrom]
  | cons c rest ih =>
      cases skip with
      | succ skip =>
          rw [piecesFrom, List.length_cons, Nat.add_sub_add_right]
          exact ih skip
      | zero =>
          rw [piecesFrom]
          split
          · rename_i value is
            have := ih 2
            have := two_le_of_escapeAt is
            simp only [List.length_cons]
            omega
          · have := ih 0
            simp only [List.length_cons]
            omega

theorem length_pieces (text : List Char) : (pieces text).length ≤ text.length :=
  length_piecesFrom 0 text

theorem length_pieces_of_hasEscape {text : List Char} (has : hasEscape text = true) :
    (pieces text).length < text.length := by
  induction text with
  | nil => cases has
  | cons c rest ih =>
      rw [pieces, piecesFrom]
      split
      · rename_i value is
        have := length_piecesFrom 2 rest
        have := two_le_of_escapeAt is
        simp only [List.length_cons]
        omega
      · rename_i none
        rw [hasEscape, none, Option.isSome_none, Bool.false_or] at has
        have := ih has
        rw [pieces] at this
        simp only [List.length_cons]
        omega

theorem pieces_of_not_hasEscape {text : List Char} (none : hasEscape text = false) :
    pieces text = text.map Piece.of := by
  induction text with
  | nil => rfl
  | cons c rest ih =>
      rw [hasEscape, Bool.or_eq_false_iff, Option.isSome_eq_false_iff, Option.isNone_iff_eq_none]
        at none
      rw [pieces, piecesFrom, none.1, List.map_cons, ← ih none.2]
      rfl

/-! ## Decoding -/

theorem begin_byte (b : Nat) : begin (.byte b) =
    if b < 128 then ([Char.ofNat b], none)
    else match lead b with
      | some sequence => ([], some sequence)
      | none => ([replacement], none) := rfl

theorem feed_byte (p : Partial) (b : Nat) : feed (some p) (.byte b) =
    if p.lower ≤ b ∧ b ≤ p.upper then
      if p.missing ≤ 1 then ([Char.ofNat (p.code * 64 + (b - 0x80))], none)
      else ([], some ⟨0x80, 0xBF, p.missing - 1, p.code * 64 + (b - 0x80)⟩)
    else (replacement :: (begin (.byte b)).1, (begin (.byte b)).2) := rfl

theorem begin_of (c : Char) : begin (.of c) = ([c], none) := by
  unfold Piece.of
  split
  · rename_i ascii
    rw [begin, if_pos ascii, Char.ofNat_toNat]
  · rfl

theorem decode_cons (sequence : Option Partial) (piece : Piece) (rest : List Piece) :
    decode sequence (piece :: rest) =
      (feed sequence piece).1 ++ decode (feed sequence piece).2 rest := by
  cases sequence <;> rfl

theorem decode_of (text : List Char) : decode none (text.map Piece.of) = text := by
  induction text with
  | nil => rfl
  | cons c rest ih =>
      rw [List.map_cons, decode_cons, feed, begin_of, ih]
      rfl

theorem unquote_of_not_hasEscape {text : List Char} (none : hasEscape text = false) :
    unquote text = text := by
  rw [unquote, pieces_of_not_hasEscape none, decode_of]

theorem feed_ascii {c : Char} (ascii : c.toNat < 128) (sequence : Option Partial)
    (high : ∀ p ∈ sequence, 128 ≤ p.lower) :
    feed sequence (.byte c.toNat) = (decode sequence [] ++ [c], none) := by
  have begins : begin (.byte c.toNat) = ([c], none) := by
    rw [begin, if_pos ascii, Char.ofNat_toNat]
  cases sequence with
  | none => exact begins
  | some p =>
      have := high p rfl
      rw [feed, if_neg (by omega), begins]
      rfl

theorem lead_high {b : Nat} {p : Partial} (is : lead b = some p) : 128 ≤ p.lower := by
  unfold lead at is
  split_ifs at is <;> cases is <;> simp

theorem begin_high (piece : Piece) : ∀ p ∈ (begin piece).2, 128 ≤ p.lower := by
  intro p is
  cases piece with
  | char c => cases is
  | byte b =>
      rw [begin_byte] at is
      split at is
      · cases is
      · split at is
        · rename_i sequence found
          obtain rfl := Option.some.inj is
          exact lead_high found
        · cases is

theorem feed_high (sequence : Option Partial) (piece : Piece) :
    ∀ p ∈ (feed sequence piece).2, 128 ≤ p.lower := by
  intro p is
  cases sequence with
  | none => exact begin_high piece p is
  | some before =>
      cases piece with
      | char c => cases is
      | byte b =>
          rw [feed_byte] at is
          split at is
          · split at is
            · cases is
            · obtain rfl := Option.some.inj is
              exact le_rfl
          · exact begin_high _ p is

theorem decode_append {c : Char} (ascii : c.toNat < 128) (x y : List Piece)
    (sequence : Option Partial) (high : ∀ p ∈ sequence, 128 ≤ p.lower) :
    decode sequence (x ++ .byte c.toNat :: y) = decode sequence x ++ c :: decode none y := by
  induction x generalizing sequence with
  | nil =>
      rw [List.nil_append, decode_cons, feed_ascii ascii sequence high, List.append_assoc]
      rfl
  | cons piece x ih =>
      rw [List.cons_append, decode_cons, decode_cons, ih _ (feed_high sequence piece),
        List.append_assoc]

theorem unquote_append {c : Char} (separator : Separator c) (x y : List Char) :
    unquote (x ++ c :: y) = unquote x ++ c :: unquote y := by
  rw [unquote, pieces, piecesFrom_append separator (Nat.zero_le _),
    decode_append separator.ascii _ _ none (fun _ is => nomatch is)]
  rfl

theorem length_begin (piece : Piece) :
    (begin piece).1.length + (begin piece).2.toList.length ≤ 1 := by
  cases piece with
  | char c => simp [begin]
  | byte b =>
      rw [begin_byte]
      split
      · simp
      · split <;> simp

theorem length_feed (sequence : Option Partial) (piece : Piece) :
    (feed sequence piece).1.length + (feed sequence piece).2.toList.length ≤
      1 + sequence.toList.length := by
  have begins := length_begin piece
  cases sequence with
  | none => simpa [feed] using begins
  | some p =>
      cases piece with
      | char c => simp [feed, begin]
      | byte b =>
          rw [feed_byte]
          split
          · split <;> simp
          · simp only [List.length_cons, Option.toList_some, List.length_nil]
            omega

theorem length_decode (sequence : Option Partial) (text : List Piece) :
    (decode sequence text).length ≤ text.length + sequence.toList.length := by
  induction text generalizing sequence with
  | nil => cases sequence <;> simp [decode]
  | cons piece rest ih =>
      have := ih (feed sequence piece).2
      have := length_feed sequence piece
      rw [decode_cons, List.length_append, List.length_cons]
      omega

theorem length_unquote (text : List Char) : (unquote text).length ≤ text.length :=
  (length_decode none (pieces text)).trans (length_pieces text)

theorem length_unquote_of_hasEscape {text : List Char} (has : hasEscape text = true) :
    (unquote text).length < text.length :=
  (length_decode none (pieces text)).trans_lt (length_pieces_of_hasEscape has)

theorem unquote_eq_self_iff {text : List Char} : unquote text = text ↔ hasEscape text = false := by
  constructor
  · intro same
    rw [Bool.eq_false_iff]
    intro has
    exact absurd (congrArg List.length same) (length_unquote_of_hasEscape has).ne
  · exact unquote_of_not_hasEscape

theorem decode_some_ne_nil (p : Partial) (text : List Piece) : decode (some p) text ≠ [] := by
  induction text generalizing p with
  | nil => exact List.cons_ne_nil _ _
  | cons piece rest ih =>
      rw [decode_cons]
      cases fed : (feed (some p) piece).2 with
      | some next => exact List.append_ne_nil_of_right_ne_nil _ (ih next)
      | none =>
          refine List.append_ne_nil_of_left_ne_nil ?_ _
          cases piece with
          | char c => exact List.cons_ne_nil _ _
          | byte b =>
              rw [feed_byte] at fed ⊢
              by_cases within : p.lower ≤ b ∧ b ≤ p.upper
              · rw [if_pos within] at fed ⊢
                by_cases last : p.missing ≤ 1
                · rw [if_pos last]
                  exact List.cons_ne_nil _ _
                · rw [if_neg last] at fed
                  cases fed
              · rw [if_neg within]
                exact List.cons_ne_nil _ _

theorem unquote_ne_nil {text : List Char} (nonempty : text ≠ []) : unquote text ≠ [] := by
  obtain ⟨c, rest, rfl⟩ := List.exists_cons_of_ne_nil nonempty
  have first : ∃ piece more, pieces (c :: rest) = piece :: more := by
    rw [pieces, piecesFrom]
    split <;> exact ⟨_, _, rfl⟩
  obtain ⟨piece, more, is⟩ := first
  rw [unquote, is, decode_cons]
  cases fed : (feed none piece).2 with
  | some next => exact List.append_ne_nil_of_right_ne_nil _ (decode_some_ne_nil next more)
  | none =>
      refine List.append_ne_nil_of_left_ne_nil ?_ _
      cases piece with
      | char c => exact List.cons_ne_nil _ _
      | byte b =>
          rw [feed, begin_byte] at fed ⊢
          by_cases ascii : b < 128
          · rw [if_pos ascii]
            exact List.cons_ne_nil _ _
          · rw [if_neg ascii] at fed ⊢
            cases found : lead b with
            | some sequence =>
                rw [found] at fed
                cases fed
            | none => exact List.cons_ne_nil _ _

/-! ## The parts of a URL -/

theorem path_append_trailer (url : List Char) :
    (urlsplit url).path ++ trailer url = afterHost url := by
  have path : (urlsplit url).path = (afterHost url).takeWhile (!endsPath ·) := by
    simp only [urlsplit, cut, List.takeWhile_takeWhile, afterHost, endsPath]
    congr 1
    funext c
    by_cases hash : c = '#' <;> by_cases question : c = '?' <;> simp [hash, question]
  rw [path]
  exact List.takeWhile_append_dropWhile

theorem trailer_cases (url : List Char) :
    trailer url = [] ∨ ∃ c rest, trailer url = c :: rest ∧ (c = '?' ∨ c = '#') := by
  unfold trailer
  generalize afterHost url = text
  induction text with
  | nil => exact Or.inl rfl
  | cons c text ih =>
      by_cases ends : endsPath c = true
      · right
        refine ⟨c, text, ?_, by simpa [endsPath] using ends⟩
        rw [List.dropWhile_cons, if_neg (by simp [ends])]
      · rw [List.dropWhile_cons, if_pos (by simpa using ends)]
        exact ih

theorem splitScheme_suffix (url : List Char) : ∃ before, url = before ++ (splitScheme url).2 := by
  unfold splitScheme
  split
  · rename_i colon after first more dropped taken
    split
    · refine ⟨first :: more ++ [colon], ?_⟩
      have := @List.takeWhile_append_dropWhile _ (· ≠ ':') url
      rw [dropped, taken] at this
      rw [List.append_assoc]
      exact this.symm
    · exact ⟨[], rfl⟩
  · exact ⟨[], rfl⟩

theorem splitScheme_nil {url : List Char} (none : (splitScheme url).1 = []) :
    (splitScheme url).2 = url := by
  unfold splitScheme at none ⊢
  split at none
  · split at none
    · simp at none
    · rename_i no
      simp only [if_neg no]
  · rfl

theorem splitNetloc_suffix (url : List Char) : ∃ before, url = before ++ (splitNetloc url).2 := by
  unfold splitNetloc
  split
  · rename_i after
    refine ⟨'/' :: '/' :: after.takeWhile (!endsNetloc ·), ?_⟩
    rw [List.cons_append, List.cons_append, List.takeWhile_append_dropWhile]
  · exact ⟨[], rfl⟩

theorem splitNetloc_after {url : List Char} (host : (splitNetloc url).1 ≠ []) :
    (splitNetloc url).2 = [] ∨ ∃ c rest, (splitNetloc url).2 = c :: rest ∧ endsNetloc c = true := by
  unfold splitNetloc at host ⊢
  split at host
  · rename_i after
    clear host
    induction after with
    | nil => exact Or.inl rfl
    | cons c text ih =>
        by_cases ends : endsNetloc c = true
        · right
          refine ⟨c, text, ?_, ends⟩
          simp only
          rw [List.dropWhile_cons, if_neg (by simp [ends])]
        · simp only
          rw [List.dropWhile_cons, if_pos (by simpa using ends)]
          exact ih
  · exact absurd rfl host

theorem splitNetloc_relative {url : List Char} (relative : url.head? ≠ some '/') :
    (splitNetloc url).2 = url := by
  unfold splitNetloc
  split
  · exact absurd rfl relative
  · rfl

theorem eq_append_path {url : List Char} (asWritten : clean url = url) :
    ∃ before, url = before ++ ((urlsplit url).path ++ trailer url) := by
  obtain ⟨scheme, hasScheme⟩ := splitScheme_suffix url
  obtain ⟨host, hasHost⟩ := splitNetloc_suffix (splitScheme url).2
  refine ⟨scheme ++ host, ?_⟩
  rw [path_append_trailer, afterHost, asWritten, List.append_assoc, ← hasHost]
  exact hasScheme

theorem path_of_host {url : List Char} (host : (urlsplit url).netloc ≠ []) :
    (urlsplit url).path = [] ∨ (urlsplit url).path.head? = some '/' := by
  have whole := path_append_trailer url
  have host : (splitNetloc (splitScheme (clean url)).2).1 ≠ [] := host
  rcases splitNetloc_after host with none | ⟨c, rest, is, ends⟩
  · rw [show afterHost url = [] from none] at whole
    exact Or.inl (List.append_eq_nil_iff.mp whole).1
  · rw [show afterHost url = c :: rest from is] at whole
    cases path : (urlsplit url).path with
    | nil => exact Or.inl rfl
    | cons d more =>
        right
        rw [path, List.cons_append, List.cons.injEq] at whole
        have inPath : ∀ x ∈ (urlsplit url).path, endsPath x = false := by
          intro x member
          simp only [urlsplit, cut] at member
          have question := List.mem_takeWhile_imp member
          have hash := List.mem_takeWhile_imp (List.takeWhile_subset _ member)
          simp only [ne_eq, decide_not, Bool.not_eq_eq_eq_not, Bool.not_true,
            decide_eq_false_iff_not] at question hash
          simp [endsPath, question, hash]
        have notEnd := inPath d (by rw [path]; exact List.mem_cons_self)
        rw [whole.1] at notEnd ⊢
        unfold endsNetloc at ends
        unfold endsPath at notEnd
        simp only [Bool.or_eq_true, decide_eq_true_eq, Bool.or_eq_false_iff,
          decide_eq_false_iff_not] at ends notEnd
        rcases ends with (slash | question) | hash
        · rw [slash]
          rfl
        · exact absurd question notEnd.1
        · exact absurd hash notEnd.2

theorem eq_path_of_relative {url : List Char} (asWritten : clean url = url)
    (scheme : (urlsplit url).scheme = []) (relative : url.head? ≠ some '/') :
    url = (urlsplit url).path ++ trailer url := by
  have scheme' : (splitScheme url).1 = [] := by
    have := scheme
    rw [urlsplit, asWritten] at this
    exact this
  rw [path_append_trailer, afterHost, asWritten, splitScheme_nil scheme',
    splitNetloc_relative relative]

/-! ## Names -/

theorem exists_last {c : Char} {text : List Char} (member : c ∈ text) :
    ∃ before after, text = before ++ c :: after ∧ c ∉ after := by
  induction text with
  | nil => cases member
  | cons d rest ih =>
      by_cases later : c ∈ rest
      · obtain ⟨before, after, rfl, none⟩ := ih later
        exact ⟨d :: before, after, rfl, none⟩
      · rcases List.mem_cons.mp member with rfl | member
        · exact ⟨[], rest, rfl, later⟩
        · exact absurd member later

theorem segments_ne_nil (text : List Char) : segments text ≠ [] := by
  cases text with
  | nil => exact List.cons_ne_nil _ _
  | cons c rest =>
      unfold segments
      split
      · exact List.cons_ne_nil _ _
      · split <;> exact List.cons_ne_nil _ _

theorem segments_of_not_mem {text : List Char} (none : '/' ∉ text) : segments text = [text] := by
  induction text with
  | nil => rfl
  | cons c rest ih =>
      rw [List.mem_cons, not_or] at none
      rw [segments, if_neg fun same => none.1 same.symm, ih none.2]

theorem segments_append (x y : List Char) :
    segments (x ++ '/' :: y) = segments x ++ segments y := by
  induction x with
  | nil => rfl
  | cons c x ih =>
      rw [List.cons_append, segments, segments, ih]
      split
      · rfl
      · cases split : segments x with
        | nil => exact absurd split (segments_ne_nil x)
        | cons first more => rfl

theorem exists_last_segment (text : List Char) : '/' ∉ (segments text).getLastD [] ∧
    (text = (segments text).getLastD [] ∨ ∃ x, text = x ++ '/' :: (segments text).getLastD []) := by
  by_cases slash : '/' ∈ text
  · obtain ⟨x, y, rfl, none⟩ := exists_last slash
    have last : (segments (x ++ '/' :: y)).getLastD [] = y := by
      rw [segments_append, segments_of_not_mem none, List.getLastD_concat]
    rw [last]
    exact ⟨none, Or.inr ⟨x, rfl⟩⟩
  · rw [segments_of_not_mem slash]
    exact ⟨slash, Or.inl rfl⟩

theorem pathName_append {file : List Char} (none : '/' ∉ file) (nonempty : file ≠ [])
    (notDot : file ≠ ['.']) (x : List Char) : pathName (x ++ '/' :: file) = file := by
  rw [pathName, segments_append, segments_of_not_mem none, List.filter_append]
  simp [nonempty, notDot]

theorem pathName_of_not_mem {file : List Char} (none : '/' ∉ file) (nonempty : file ≠ [])
    (notDot : file ≠ ['.']) : pathName file = file := by
  rw [pathName, segments_of_not_mem none]
  simp [nonempty, notDot]

theorem splitDot_append {after : List Char} (none : '.' ∉ after) (before : List Char) :
    splitDot (before ++ '.' :: after) = some (before, after) := by
  have reversed : (before ++ '.' :: after).reverse = after.reverse ++ '.' :: before.reverse := by
    simp
  have kept : ∀ c ∈ after.reverse, decide (c ≠ '.') = true := by
    intro c member
    rw [decide_eq_true_iff]
    rintro rfl
    exact none (List.mem_reverse.mp member)
  rw [splitDot, if_pos (List.mem_append_right _ List.mem_cons_self), reversed,
    List.dropWhile_append_of_pos kept, List.takeWhile_append_of_pos kept]
  simp

theorem splitDot_eq_none {name : List Char} : splitDot name = none ↔ '.' ∉ name := by
  unfold splitDot
  split <;> simp_all

theorem stem_append {before after : List Char} (none : '.' ∉ after) (hasBefore : before ≠ [])
    (hasAfter : after ≠ []) : stem (before ++ '.' :: after) = before := by
  rw [stem, splitDot_append none]
  simp [hasBefore, hasAfter]

theorem stem_of_not_mem {name : List Char} (none : '.' ∉ name) : stem name = name := by
  rw [stem, splitDot_eq_none.mpr none]

theorem stemSince314_append {before after : List Char} (none : '.' ∉ after)
    (name : ∃ c ∈ before.head?, c ≠ '.') : stemSince314 (before ++ '.' :: after) = before := by
  obtain ⟨c, first, ne⟩ := name
  have notAll : ¬ (before.all (· = '.')) = true := by
    intro all
    exact ne (of_decide_eq_true (List.all_eq_true.mp all c (List.mem_of_mem_head? first)))
  rw [stemSince314, splitDot_append none]
  simp only
  rw [if_neg notAll]

theorem stemSince314_of_not_mem {name : List Char} (none : '.' ∉ name) : stemSince314 name = name := by
  rw [stemSince314, splitDot_eq_none.mpr none]

theorem length_le_stem {before after : List Char} (none : '.' ∉ after) :
    before.length ≤ (stem (before ++ '.' :: after)).length := by
  rw [stem, splitDot_append none]
  simp only
  split
  · simp
  · exact le_rfl

end GenSubnet.Library.Url
