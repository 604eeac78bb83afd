import Mathlib.Data.List.TakeWhile

/-!
# Text in bytes

Bytes as text with one character a byte: searching for a separator, and splitting at line ends.
-/

namespace GenSubnet.Library

def ascii (text : String) : List UInt8 := text.toList.map fun c => UInt8.ofNat c.toNat

def crlf : List UInt8 := [13, 10]

/-- What stands before the first occurrence of a separator, and what stands after it. -/
def cutAt (sep : List UInt8) : List UInt8 → Option (List UInt8 × List UInt8)
  | [] => none
  | b :: rest =>
      if sep.isPrefixOf (b :: rest) then some ([], (b :: rest).drop sep.length)
      else (cutAt sep rest).map fun found => (b :: found.1, found.2)

/-- Put a byte in front of the first line. -/
def consLine (b : UInt8) : List (List UInt8) → List (List UInt8)
  | [] => [[b]]
  | line :: lines => (b :: line) :: lines

/-- `split('\r\n')` -/
def splitLines : List UInt8 → List (List UInt8)
  | [] => [[]]
  | [b] => [[b]]
  | b :: c :: rest =>
      if b = 13 ∧ c = 10 then [] :: splitLines rest else consLine b (splitLines (c :: rest))

/-- Strip from both ends. -/
def stripped (blank : UInt8 → Bool) (text : List UInt8) : List UInt8 :=
  ((text.dropWhile blank).reverse.dropWhile blank).reverse

def joinLines : List (List UInt8) → List UInt8
  | [] => []
  | [line] => line
  | line :: next :: lines => line ++ crlf ++ joinLines (next :: lines)

theorem forall_byte {holds : UInt8 → Prop} (all : ∀ n < 256, holds (UInt8.ofNat n)) (b : UInt8) :
    holds b := by
  have own := all b.toNat b.toNat_lt
  rw [UInt8.ofNat_toNat] at own
  exact own

/-! ## Searching -/

theorem cutAt_eq {sep text before after : List UInt8} (found : cutAt sep text = some (before, after)) :
    text = before ++ sep ++ after := by
  induction text generalizing before with
  | nil => cases found
  | cons b rest ih =>
      rw [cutAt] at found
      split at found
      · rename_i isPrefix
        obtain ⟨rfl, rfl⟩ := Prod.mk.inj (Option.some.inj found)
        obtain ⟨tail, whole⟩ := List.isPrefixOf_iff_prefix.mp isPrefix
        rw [← whole, List.drop_left, List.nil_append]
      · obtain ⟨⟨inner, tail⟩, later, same⟩ := Option.map_eq_some_iff.mp found
        obtain ⟨rfl, rfl⟩ := Prod.mk.inj same
        rw [ih later]
        rfl

theorem cutAt_skip {first : UInt8} {sep text rest : List UInt8} (absent : first ∉ text) :
    cutAt (first :: sep) (text ++ rest) =
      (cutAt (first :: sep) rest).map fun found => (text ++ found.1, found.2) := by
  induction text with
  | nil => simp
  | cons b text ih =>
      have differs : first ≠ b := fun same => absent (same ▸ List.mem_cons_self)
      rw [List.cons_append, cutAt, ih fun member => absent (List.mem_cons_of_mem b member)]
      have noPrefix : (first :: sep).isPrefixOf (b :: (text ++ rest)) = false := by
        simp [List.isPrefixOf, differs]
      rw [noPrefix]
      simp [Function.comp_def]

theorem cutAt_here (first : UInt8) (sep rest : List UInt8) :
    cutAt (first :: sep) (first :: sep ++ rest) = some ([], rest) := by
  rw [List.cons_append, cutAt]
  have isPrefix : (first :: sep).isPrefixOf (first :: (sep ++ rest)) = true :=
    List.isPrefixOf_iff_prefix.mpr ⟨rest, rfl⟩
  rw [if_pos isPrefix]
  simp

theorem cutAt_append {first : UInt8} {sep text rest : List UInt8} (absent : first ∉ text) :
    cutAt (first :: sep) (text ++ (first :: sep ++ rest)) = some (text, rest) := by
  rw [cutAt_skip absent, cutAt_here]
  simp

theorem cutAt_step {b : UInt8} {sep rest : List UInt8} (fails : sep.isPrefixOf (b :: rest) = false) :
    cutAt sep (b :: rest) = (cutAt sep rest).map fun found => (b :: found.1, found.2) := by
  rw [cutAt, fails]
  rfl

/-! ## Lines -/

theorem splitLines_ne_nil (text : List UInt8) : splitLines text ≠ [] := by
  fun_induction splitLines text with
  | case1 => simp
  | case2 => simp
  | case3 => simp
  | case4 b c rest differs ih =>
      cases lines : splitLines (c :: rest) with
      | nil => exact absurd lines ih
      | cons line lines => simp [consLine]

theorem joinLines_consLine (b : UInt8) {lines : List (List UInt8)} (present : lines ≠ []) :
    joinLines (consLine b lines) = b :: joinLines lines := by
  match lines with
  | [] => exact absurd rfl present
  | [line] => rfl
  | line :: next :: lines => rfl

theorem joinLines_splitLines (text : List UInt8) : joinLines (splitLines text) = text := by
  fun_induction splitLines text with
  | case1 => rfl
  | case2 => rfl
  | case3 b c rest lineEnd ih =>
      obtain ⟨rfl, rfl⟩ := lineEnd
      cases lines : splitLines rest with
      | nil => exact absurd lines (splitLines_ne_nil rest)
      | cons line lines =>
          rw [lines] at ih
          rw [joinLines, ih]
          rfl
  | case4 b c rest differs ih => rw [joinLines_consLine b (splitLines_ne_nil _), ih]

theorem splitLines_line {line : List UInt8} (absent : 13 ∉ line) : splitLines line = [line] := by
  induction line with
  | nil => rfl
  | cons b line ih =>
      have differs : b ≠ 13 := fun same => absent (same ▸ List.mem_cons_self)
      have rest := ih fun member => absent (List.mem_cons_of_mem b member)
      cases line with
      | nil => rfl
      | cons c line =>
          rw [splitLines, if_neg fun lineEnd => differs lineEnd.1, rest]
          rfl

theorem splitLines_append {line rest : List UInt8} (absent : 13 ∉ line) :
    splitLines (line ++ (crlf ++ rest)) = line :: splitLines rest := by
  induction line with
  | nil => simp [crlf, splitLines]
  | cons b line ih =>
      have differs : b ≠ 13 := fun same => absent (same ▸ List.mem_cons_self)
      have later := ih fun member => absent (List.mem_cons_of_mem b member)
      cases line with
      | nil =>
          rw [List.nil_append] at later
          rw [List.singleton_append]
          show splitLines (b :: 13 :: (10 :: rest)) = _
          rw [splitLines, if_neg fun lineEnd => differs lineEnd.1]
          show consLine b (splitLines (crlf ++ rest)) = _
          rw [later]
          rfl
      | cons c line =>
          rw [List.cons_append, List.cons_append, splitLines, if_neg fun lineEnd => differs lineEnd.1,
            ← List.cons_append, later]
          rfl

theorem splitLines_joinLines {lines : List (List UInt8)} (present : lines ≠ [])
    (absent : ∀ line ∈ lines, 13 ∉ line) : splitLines (joinLines lines) = lines := by
  induction lines with
  | nil => exact absurd rfl present
  | cons line rest ih =>
      have own := absent line List.mem_cons_self
      cases rest with
      | nil => exact splitLines_line own
      | cons next rest =>
          rw [joinLines, List.append_assoc, splitLines_append own,
            ih (by simp) fun line member => absent line (List.mem_cons_of_mem _ member)]

theorem cutAt_joinLines {lines : List (List UInt8)} (absent : ∀ line ∈ lines, 13 ∉ line)
    (full : ∀ line ∈ lines, line ≠ []) (present : lines ≠ []) (rest : List UInt8) :
    cutAt (crlf ++ crlf) (joinLines lines ++ (crlf ++ crlf ++ rest)) = some (joinLines lines, rest) := by
  induction lines with
  | nil => exact absurd rfl present
  | cons line others ih =>
      have own := absent line List.mem_cons_self
      cases others with
      | nil => exact cutAt_append own
      | cons next others =>
          have later := ih (fun line member => absent line (List.mem_cons_of_mem _ member))
            (fun line member => full line (List.mem_cons_of_mem _ member)) (by simp)
          -- the line end is no empty line, for the next line has a byte of its own
          obtain ⟨b, tail, start⟩ : ∃ b tail, joinLines (next :: others) = b :: tail ∧ b ≠ 13 := by
            have nextFull := full next (by simp)
            have nextOwn := absent next (by simp)
            cases next with
            | nil => exact absurd rfl nextFull
            | cons b next =>
                have differs : b ≠ 13 := fun same => nextOwn (same ▸ List.mem_cons_self)
                cases others with
                | nil => exact ⟨b, next, rfl, differs⟩
                | cons more others => exact ⟨b, _, rfl, differs⟩
          rw [joinLines, List.append_assoc, List.append_assoc]
          show cutAt (13 :: [10, 13, 10]) (line ++ _) = _
          rw [cutAt_skip own]
          have ends : cutAt (crlf ++ crlf) (crlf ++ (joinLines (next :: others) ++ (crlf ++ crlf ++ rest))) =
              Option.some (crlf ++ joinLines (next :: others), rest) := by
            have first : (crlf ++ crlf).isPrefixOf
                (13 :: 10 :: (joinLines (next :: others) ++ (crlf ++ crlf ++ rest))) = false := by
              rw [start.1]
              simp [crlf, List.isPrefixOf, start.2.symm]
            have second : (crlf ++ crlf).isPrefixOf
                (10 :: (joinLines (next :: others) ++ (crlf ++ crlf ++ rest))) = false := by
              simp [crlf, List.isPrefixOf]
            show cutAt (crlf ++ crlf)
              (13 :: 10 :: (joinLines (next :: others) ++ (crlf ++ crlf ++ rest))) = _
            rw [cutAt_step first, cutAt_step second, later]
            rfl
          show ((cutAt (crlf ++ crlf) _).map fun found => (line ++ found.1, found.2)) = _
          rw [ends]
          simp

/-! ## Stripping -/

variable {blank small big : UInt8 → Bool}

theorem dropWhile_dropWhile (wider : ∀ b, small b = true → big b = true) (text : List UInt8) :
    (text.dropWhile small).dropWhile big = text.dropWhile big := by
  induction text with
  | nil => rfl
  | cons b rest ih =>
      cases own : small b with
      | true => rw [List.dropWhile_cons_of_pos own, ih, List.dropWhile_cons_of_pos (wider b own)]
      | false => rw [List.dropWhile_cons_of_neg (by simp [own])]

theorem dropWhile_append_exists (blank : UInt8 → Bool) (text : List UInt8) :
    ∃ dropped, dropped ++ text.dropWhile blank = text ∧ ∀ b ∈ dropped, blank b = true :=
  ⟨text.takeWhile blank, List.takeWhile_append_dropWhile, fun _ member => List.mem_takeWhile_imp member⟩

theorem stripped_append (wider : ∀ b, small b = true → big b = true) {text dropped : List UInt8}
    (blanks : ∀ b ∈ dropped, small b = true) : stripped big (text ++ dropped) = stripped big text := by
  have gone : dropped.dropWhile big = [] := by
    rw [List.dropWhile_eq_nil_iff]
    exact fun b member => wider b (blanks b member)
  have goneBack : dropped.reverse.dropWhile big = [] := by
    rw [List.dropWhile_eq_nil_iff]
    exact fun b member => wider b (blanks b (List.mem_reverse.mp member))
  rw [stripped, stripped, List.dropWhile_append]
  split
  · rename_i empty
    rw [List.isEmpty_iff] at empty
    rw [gone, empty]
  · rw [List.reverse_append, List.dropWhile_append, goneBack]
    rfl

theorem stripped_dropWhile (wider : ∀ b, small b = true → big b = true) (text : List UInt8) :
    stripped big (text.dropWhile small) = stripped big text := by
  rw [stripped, stripped, dropWhile_dropWhile wider]

theorem stripped_stripped (wider : ∀ b, small b = true → big b = true) (text : List UInt8) :
    stripped big (stripped small text) = stripped big text := by
  obtain ⟨dropped, whole, blanks⟩ := dropWhile_append_exists small (text.dropWhile small).reverse
  have front : stripped small text ++ dropped.reverse = text.dropWhile small := by
    rw [stripped, ← List.reverse_append, whole, List.reverse_reverse]
  rw [← stripped_dropWhile wider text, ← front]
  exact (stripped_append wider fun b member => blanks b (List.mem_reverse.mp member)).symm

theorem stripped_of_none {text : List UInt8} (none : ∀ b ∈ text, blank b = false) :
    stripped blank text = text := by
  have kept : ∀ t : List UInt8, (∀ b ∈ t, blank b = false) → t.dropWhile blank = t := by
    intro t all
    cases t with
    | nil => rfl
    | cons b rest => rw [List.dropWhile_cons_of_neg (by simp [all b List.mem_cons_self])]
  rw [stripped, kept text none, kept _ fun b member => none b (List.mem_reverse.mp member),
    List.reverse_reverse]

theorem mem_dropWhile {b : UInt8} {text : List UInt8} (member : b ∈ text) (keeps : blank b = false) :
    b ∈ text.dropWhile blank := by
  induction text with
  | nil => cases member
  | cons c rest ih =>
      cases own : blank c with
      | false =>
          rw [List.dropWhile_cons_of_neg (by simp [own])]
          exact member
      | true =>
          rw [List.dropWhile_cons_of_pos own]
          rcases List.mem_cons.mp member with rfl | later
          · rw [own] at keeps
            cases keeps
          · exact ih later

theorem mem_stripped {b : UInt8} {text : List UInt8} (member : b ∈ text) (keeps : blank b = false) :
    b ∈ stripped blank text :=
  List.mem_reverse.mpr (mem_dropWhile (List.mem_reverse.mpr (mem_dropWhile member keeps)) keeps)

end GenSubnet.Library
