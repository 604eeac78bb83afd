import Mathlib

/-!
# Texts in UTF-16 and UTF-8

A JavaScript string is any list of code units, so a surrogate can stand alone. Its well-formed text
has U+FFFD for each of these. A byte cut of the UTF-8 encoding that backs up over continuation
bytes keeps the longest prefix of whole characters that fits.
-/

namespace GenSubnet.Library

/-! ## Code units -/

def isHigh (u : UInt16) : Bool := 0xD800 ≤ u.toNat && u.toNat ≤ 0xDBFF

def isLow (u : UInt16) : Bool := 0xDC00 ≤ u.toNat && u.toNat ≤ 0xDFFF

/-- A character, or a surrogate that is not part of a pair. -/
inductive Piece
  | char (c : Char)
  | lone (u : UInt16)
deriving DecidableEq

def pairChar (high low : UInt16) : Char :=
  Char.ofNat (0x10000 + (high.toNat - 0xD800) * 0x400 + (low.toNat - 0xDC00))

def single (u : UInt16) : Piece :=
  if isHigh u || isLow u then .lone u else .char (Char.ofNat u.toNat)

def pieces : List UInt16 → List Piece
  | [] => []
  | [u] => [single u]
  | u :: v :: rest =>
      if isHigh u && isLow v then .char (pairChar u v) :: pieces rest
      else single u :: pieces (v :: rest)

/-- What a UTF-8 encoder puts for a piece. -/
def Piece.toChar : Piece → Char
  | .char c => c
  | .lone _ => Char.ofNat 0xFFFD

/-- `text.toWellFormed()`, as characters. -/
def wellFormed (text : List UInt16) : List Char := (pieces text).map Piece.toChar

def charUnits (c : Char) : List UInt16 :=
  if c.toNat < 0x10000 then [UInt16.ofNat c.toNat]
  else [UInt16.ofNat (0xD800 + (c.toNat - 0x10000) / 0x400),
    UInt16.ofNat (0xDC00 + (c.toNat - 0x10000) % 0x400)]

/-- The code units of well-formed text. -/
def utf16 (text : List Char) : List UInt16 := text.flatMap charUnits

theorem pieces_cons {u : UInt16} {rest : List UInt16}
    (apart : ∀ v, rest.head? = some v → (isHigh u && isLow v) = false) :
    pieces (u :: rest) = single u :: pieces rest := by
  cases rest with
  | nil => rfl
  | cons v rest =>
      rw [pieces, if_neg]
      simp [apart v rfl]

theorem isHigh_iff (u : UInt16) : isHigh u = true ↔ 0xD800 ≤ u.toNat ∧ u.toNat ≤ 0xDBFF := by
  rw [isHigh, Bool.and_eq_true, decide_eq_true_eq, decide_eq_true_eq]

theorem isLow_iff (u : UInt16) : isLow u = true ↔ 0xDC00 ≤ u.toNat ∧ u.toNat ≤ 0xDFFF := by
  rw [isLow, Bool.and_eq_true, decide_eq_true_eq, decide_eq_true_eq]

theorem char_scalar (c : Char) : c.toNat < 0xD800 ∨ (0xDFFF < c.toNat ∧ c.toNat < 0x110000) :=
  c.valid

theorem pieces_charUnits (c : Char) (rest : List UInt16) :
    pieces (charUnits c ++ rest) = .char c :: pieces rest := by
  have scalar := char_scalar c
  unfold charUnits
  split
  · rename_i basic
    have value : (UInt16.ofNat c.toNat).toNat = c.toNat := by
      simp only [UInt16.toNat_ofNat']
      omega
    have notHigh : isHigh (UInt16.ofNat c.toNat) = false := by
      rw [Bool.eq_false_iff, Ne, isHigh_iff, value]
      omega
    have notLow : isLow (UInt16.ofNat c.toNat) = false := by
      rw [Bool.eq_false_iff, Ne, isLow_iff, value]
      omega
    have one : single (UInt16.ofNat c.toNat) = .char c := by
      simp [single, notHigh, notLow, value]
    rw [List.singleton_append, pieces_cons (by simp [notHigh]), one]
  · rename_i astral
    have high : (UInt16.ofNat (0xD800 + (c.toNat - 0x10000) / 0x400)).toNat =
        0xD800 + (c.toNat - 0x10000) / 0x400 := by
      simp only [UInt16.toNat_ofNat']
      omega
    have low : (UInt16.ofNat (0xDC00 + (c.toNat - 0x10000) % 0x400)).toNat =
        0xDC00 + (c.toNat - 0x10000) % 0x400 := by
      simp only [UInt16.toNat_ofNat']
      omega
    have pair : (isHigh (UInt16.ofNat (0xD800 + (c.toNat - 0x10000) / 0x400)) &&
        isLow (UInt16.ofNat (0xDC00 + (c.toNat - 0x10000) % 0x400))) = true := by
      apply Bool.and_eq_true_iff.mpr
      simp only [isHigh_iff, isLow_iff, high, low]
      omega
    have joined : pairChar (UInt16.ofNat (0xD800 + (c.toNat - 0x10000) / 0x400))
        (UInt16.ofNat (0xDC00 + (c.toNat - 0x10000) % 0x400)) = c := by
      have value : 0x10000 + (c.toNat - 0x10000) / 0x400 * 0x400 + (c.toNat - 0x10000) % 0x400 =
          c.toNat := by
        have divided := Nat.div_add_mod (c.toNat - 0x10000) 0x400
        omega
      rw [pairChar, high, low, Nat.add_sub_cancel_left, Nat.add_sub_cancel_left]
      exact (congrArg Char.ofNat value).trans (Char.ofNat_toNat c)
    rw [List.cons_append, List.singleton_append, pieces, if_pos pair, joined]

theorem pieces_utf16 (text : List Char) : pieces (utf16 text) = text.map Piece.char := by
  induction text with
  | nil => rfl
  | cons c text ih =>
      have split : utf16 (c :: text) = charUnits c ++ utf16 text := List.flatMap_cons
      rw [split, pieces_charUnits, ih, List.map_cons]

theorem wellFormed_utf16 (text : List Char) : wellFormed (utf16 text) = text := by
  rw [wellFormed, pieces_utf16, List.map_map]
  exact List.map_id text

/-! ## Bytes -/

/-- The UTF-8 encoding. -/
def utf8 (text : List Char) : List UInt8 := text.flatMap String.utf8EncodeChar

def utf8Length (text : List Char) : Nat := (text.map Char.utf8Size).sum

theorem length_utf8 (text : List Char) : (utf8 text).length = utf8Length text := by
  simp [utf8, utf8Length, List.length_flatMap]

@[simp] theorem utf8Length_nil : utf8Length [] = 0 := rfl

@[simp] theorem utf8Length_cons (c : Char) (text : List Char) :
    utf8Length (c :: text) = c.utf8Size + utf8Length text := by
  simp [utf8Length]

@[simp] theorem utf8Length_append (before after : List Char) :
    utf8Length (before ++ after) = utf8Length before + utf8Length after := by
  simp [utf8Length]

theorem utf8Length_replicate (n : Nat) (c : Char) : utf8Length (List.replicate n c) = n * c.utf8Size := by
  simp [utf8Length]

theorem utf8ByteSize_ofList (text : List Char) : (String.ofList text).utf8ByteSize = utf8Length text := by
  rw [← String.size_toByteArray, String.toByteArray_ofList, ← length_utf8, List.utf8Encode,
    List.size_toByteArray]
  rfl

/-- The characters of whole encodings. -/
def decodeUtf8 (bytes : List UInt8) : Option (List Char) :=
  bytes.toByteArray.utf8Decode?.map Array.toList

theorem decodeUtf8_utf8 (text : List Char) : decodeUtf8 (utf8 text) = some text := by
  have encoded : (utf8 text).toByteArray = text.utf8Encode := rfl
  rw [decodeUtf8, encoded, List.utf8Decode?_utf8Encode]
  rfl

/-- `(b & 0xc0) === 0x80` -/
def isContinuation (b : UInt8) : Bool := b &&& 0xc0 = 0x80

/-- `while (end < bytes.length && isContinuation(bytes[end])) end--` -/
def backUp (bytes : List UInt8) : Nat → Nat
  | 0 => 0
  | cut + 1 => if (bytes[cut + 1]?).any isContinuation then backUp bytes cut else cut + 1

/-- The longest prefix whose encoding has at most `limit` bytes. -/
def cutChars : Nat → List Char → List Char
  | _, [] => []
  | limit, c :: text => if c.utf8Size ≤ limit then c :: cutChars (limit - c.utf8Size) text else []

theorem cutChars_prefix (limit : Nat) (text : List Char) : cutChars limit text <+: text := by
  induction text generalizing limit with
  | nil => exact List.nil_prefix
  | cons c text ih =>
      rw [cutChars]
      split
      · exact List.prefix_cons_inj c |>.mpr (ih _)
      · exact List.nil_prefix

theorem cutChars_length (limit : Nat) (text : List Char) : utf8Length (cutChars limit text) ≤ limit := by
  induction text generalizing limit with
  | nil => exact Nat.zero_le _
  | cons c text ih =>
      rw [cutChars]
      split
      · rename_i fits
        have rest := ih (limit - c.utf8Size)
        rw [utf8Length_cons]
        omega
      · exact Nat.zero_le _

theorem cutChars_of_fits {limit : Nat} {text : List Char} (fits : utf8Length text ≤ limit) :
    cutChars limit text = text := by
  induction text generalizing limit with
  | nil => rfl
  | cons c text ih =>
      rw [utf8Length_cons] at fits
      rw [cutChars, if_pos (by omega), ih (by omega)]

/-! ## Byte cuts -/

theorem utf8EncodeChar_bytes (c : Char) :
    ∃ lead rest, String.utf8EncodeChar c = lead :: rest ∧ isContinuation lead = false ∧
      ∀ b ∈ rest, isContinuation b = true := by
  have tail : ∀ n, isContinuation (UInt8.ofNat (n % 64 + 128)) = true := by
    intro n
    have small : n % 64 < 64 := Nat.mod_lt _ (by decide)
    exact (by decide : ∀ k < 64, isContinuation (UInt8.ofNat (k + 128)) = true) _ small
  have ascii : ∀ n ≤ 127, isContinuation (UInt8.ofNat n) = false := by decide
  have two : ∀ k < 32, isContinuation (UInt8.ofNat (k + 192)) = false := by decide
  have three : ∀ k < 16, isContinuation (UInt8.ofNat (k + 224)) = false := by decide
  have four : ∀ k < 8, isContinuation (UInt8.ofNat (k + 240)) = false := by decide
  simp only [String.utf8EncodeChar]
  split
  · rename_i small
    exact ⟨_, _, rfl, ascii _ small, by simp⟩
  · split
    · refine ⟨_, _, rfl, two _ (Nat.mod_lt _ (by decide)), ?_⟩
      exact List.forall_mem_singleton.mpr (tail _)
    · split
      · refine ⟨_, _, rfl, three _ (Nat.mod_lt _ (by decide)), ?_⟩
        exact List.forall_mem_cons.mpr ⟨tail _, List.forall_mem_singleton.mpr (tail _)⟩
      · refine ⟨_, _, rfl, four _ (Nat.mod_lt _ (by decide)), ?_⟩
        exact List.forall_mem_cons.mpr
          ⟨tail _, List.forall_mem_cons.mpr ⟨tail _, List.forall_mem_singleton.mpr (tail _)⟩⟩

theorem backUp_append {before after : List UInt8}
    (starts : (after.head?.any isContinuation) = false) (k : Nat) :
    backUp (before ++ after) (before.length + k) = before.length + backUp after k := by
  induction k with
  | zero =>
      rw [Nat.add_zero, backUp, Nat.add_zero]
      cases size : before.length with
      | zero => rfl
      | succ n =>
          rw [backUp, if_neg]
          rw [← size, List.getElem?_append_right (Nat.le_refl _), Nat.sub_self, ← List.head?_eq_getElem?,
            starts]
          exact Bool.false_ne_true
  | succ k ih =>
      have same : (before ++ after)[before.length + k + 1]? = after[k + 1]? := by
        rw [List.getElem?_append_right (by omega)]
        congr 1
        omega
      rw [← Nat.add_assoc, backUp, same, backUp]
      split
      · exact ih
      · rfl

theorem backUp_within {before after : List UInt8} (rest : ∀ b ∈ before.tail, isContinuation b = true)
    {k : Nat} (inside : k < before.length) : backUp (before ++ after) k = 0 := by
  induction k with
  | zero => rfl
  | succ k ih =>
      have byte : (before ++ after)[k + 1]? = some before[k + 1] := by
        rw [List.getElem?_append_left inside, List.getElem?_eq_getElem inside]
      have member : before[k + 1] ∈ before.tail := by
        rw [List.mem_iff_getElem]
        exact ⟨k, by rw [List.length_tail]; omega, List.getElem_tail _⟩
      rw [backUp, byte, if_pos (by simpa using rest _ member)]
      exact ih (by omega)

theorem take_backUp (text : List Char) (limit : Nat) :
    (utf8 text).take (backUp (utf8 text) (min (utf8 text).length limit)) = utf8 (cutChars limit text) := by
  induction text generalizing limit with
  | nil => rfl
  | cons c text ih =>
      obtain ⟨lead, rest, bytes, first, tail⟩ := utf8EncodeChar_bytes c
      have split : utf8 (c :: text) = String.utf8EncodeChar c ++ utf8 text := List.flatMap_cons
      have size : (String.utf8EncodeChar c).length = c.utf8Size := String.length_utf8EncodeChar c
      have starts : ((utf8 text).head?.any isContinuation) = false := by
        cases text with
        | nil => rfl
        | cons d text =>
            obtain ⟨lead, rest, bytes, first, -⟩ := utf8EncodeChar_bytes d
            have split : utf8 (d :: text) = String.utf8EncodeChar d ++ utf8 text := List.flatMap_cons
            rw [split, bytes]
            simpa using first
      rw [cutChars]
      by_cases fits : c.utf8Size ≤ limit
      · have cut : min (utf8 (c :: text)).length limit =
            (String.utf8EncodeChar c).length + min (utf8 text).length (limit - c.utf8Size) := by
          rw [split, List.length_append, size]
          omega
        rw [if_pos fits, cut, split, backUp_append starts, List.take_length_add_append, ih]
        rfl
      · have cut : min (utf8 (c :: text)).length limit = limit := by
          rw [split, List.length_append, size]
          omega
        rw [if_neg fits, cut, split, backUp_within (by rw [bytes]; exact tail) (by omega)]
        rfl

/-! ## Cuts of code units -/

theorem utf8Size_pairChar {high low : UInt16} (pair : (isHigh high && isLow low) = true) :
    2 ≤ (pairChar high low).utf8Size := by
  obtain ⟨first, second⟩ := Bool.and_eq_true_iff.mp pair
  rw [isHigh_iff] at first
  rw [isLow_iff] at second
  have valid : Nat.isValidChar
      (0x10000 + (high.toNat - 0xD800) * 0x400 + (low.toNat - 0xDC00)) := by
    right
    constructor <;> omega
  have value : (pairChar high low).toNat =
      0x10000 + (high.toNat - 0xD800) * 0x400 + (low.toNat - 0xDC00) := by
    rw [pairChar, Char.ofNat, dif_pos valid]
    rfl
  simp only [Char.utf8Size]
  split
  · rename_i small
    have bound : (pairChar high low).toNat ≤ 127 := UInt32.le_iff_toNat_le.mp small
    omega
  · split
    · exact Nat.le_refl 2
    · split <;> decide

theorem wellFormed_cons {u : UInt16} {rest : List UInt16}
    (apart : ∀ v, rest.head? = some v → (isHigh u && isLow v) = false) :
    wellFormed (u :: rest) = (single u).toChar :: wellFormed rest := by
  rw [wellFormed, pieces_cons apart, List.map_cons]
  rfl

theorem wellFormed_pair {u v : UInt16} (pair : (isHigh u && isLow v) = true) (rest : List UInt16) :
    wellFormed (u :: v :: rest) = pairChar u v :: wellFormed rest := by
  rw [wellFormed, pieces, if_pos pair, List.map_cons]
  rfl

theorem cutChars_zero (text : List Char) : cutChars 0 text = [] := by
  cases text with
  | nil => rfl
  | cons c text =>
      have positive := Char.utf8Size_pos c
      rw [cutChars, if_neg (by omega)]

theorem cutChars_cons_congr {limit : Nat} {c : Char} {left right : List Char}
    (rest : c.utf8Size ≤ limit →
      cutChars (limit - c.utf8Size) left = cutChars (limit - c.utf8Size) right) :
    cutChars limit (c :: left) = cutChars limit (c :: right) := by
  rw [cutChars, cutChars]
  split
  · rename_i fits
    rw [rest fits]
  · rfl

/-- A slice of the code units does not change what fits, even where it cuts a pair: the surrogate
that is left takes three bytes. -/
theorem cutChars_take {limit count : Nat} (wide : limit ≤ count) (text : List UInt16) :
    cutChars limit (wellFormed (text.take count)) = cutChars limit (wellFormed text) := by
  induction text using pieces.induct generalizing limit count with
  | case1 => rw [List.take_nil]
  | case2 u =>
      cases count with
      | zero =>
          rw [Nat.le_zero.mp wide, cutChars_zero, cutChars_zero]
      | succ count => rw [List.take_succ_cons, List.take_nil]
  | case3 u v rest pair ih =>
      have size := utf8Size_pairChar pair
      rcases count with _ | _ | count
      · rw [Nat.le_zero.mp wide, cutChars_zero, cutChars_zero]
      · have lone : wellFormed [u] = [Char.ofNat 0xFFFD] := by
          have high : isHigh u = true := (Bool.and_eq_true_iff.mp pair).1
          simp [wellFormed, pieces, single, high, Piece.toChar]
        have replaced : (Char.ofNat 0xFFFD).utf8Size = 3 := by decide
        rw [wellFormed_pair pair, List.take_succ_cons, List.take_zero, lone, cutChars,
          if_neg (by omega), cutChars, if_neg (by omega)]
      · rw [wellFormed_pair pair, List.take_succ_cons, List.take_succ_cons, wellFormed_pair pair]
        exact cutChars_cons_congr fun fits => ih (by omega)
  | case4 u v rest apart ih =>
      cases count with
      | zero => rw [Nat.le_zero.mp wide, cutChars_zero, cutChars_zero]
      | succ count =>
          have split : (isHigh u && isLow v) = false := Bool.eq_false_iff.mpr apart
          have positive := Char.utf8Size_pos (single u).toChar
          have short : ∀ w, ((v :: rest).take count).head? = some w → (isHigh u && isLow w) = false := by
            intro w head
            cases count with
            | zero => cases head
            | succ count =>
                cases head
                exact split
          have whole : ∀ w, (v :: rest).head? = some w → (isHigh u && isLow w) = false := by
            intro w head
            cases head
            exact split
          rw [List.take_succ_cons, wellFormed_cons short, wellFormed_cons whole]
          exact cutChars_cons_congr fun fits => ih (by omega)

end GenSubnet.Library
