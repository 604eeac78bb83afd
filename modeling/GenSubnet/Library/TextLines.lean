import Mathlib.Data.List.Basic

/-!
# Lines of a text

Two notions of a line: Python's `splitlines`, which also ends a line at the control characters that
separate records and at U+0085, U+2028 and U+2029, and the line ends `\r?\n` of a regular
expression. Each function is given by its value on a text that starts with a whole line.
-/

namespace GenSubnet.Library

/-- Add a character to the first of some lines. -/
def consChar (c : Char) : List (List Char) → List (List Char)
  | [] => [[c]]
  | line :: lines => (c :: line) :: lines

/-- `text.replace("\r\n", "\n")` -/
def replaceCrlf : List Char → List Char
  | [] => []
  | '\r' :: '\n' :: rest => '\n' :: replaceCrlf rest
  | c :: rest => c :: replaceCrlf rest

/-- `text.split("\n\n")` -/
def splitParagraphs : List Char → List (List Char)
  | [] => [[]]
  | '\n' :: '\n' :: rest => [] :: splitParagraphs rest
  | c :: rest => consChar c (splitParagraphs rest)

/-- The characters that end a line for `splitlines`. -/
def isBoundary (c : Char) : Bool :=
  c.toNat ∈ [10, 11, 12, 13, 28, 29, 30, 0x85, 0x2028, 0x2029]

/-- `text.splitlines()` -/
def splitlines : List Char → List (List Char)
  | [] => []
  | '\r' :: '\n' :: rest => [] :: splitlines rest
  | c :: rest => if isBoundary c then [] :: splitlines rest else consChar c (splitlines rest)

/-- `text.split(/\r?\n\r?\n/)` -/
def splitBlankLines : List Char → List (List Char)
  | [] => [[]]
  | '\r' :: '\n' :: '\r' :: '\n' :: rest => [] :: splitBlankLines rest
  | '\r' :: '\n' :: '\n' :: rest => [] :: splitBlankLines rest
  | '\n' :: '\r' :: '\n' :: rest => [] :: splitBlankLines rest
  | '\n' :: '\n' :: rest => [] :: splitBlankLines rest
  | c :: rest => consChar c (splitBlankLines rest)

/-- `text.split(/\r?\n/)` -/
def splitLineEnds : List Char → List (List Char)
  | [] => [[]]
  | '\r' :: '\n' :: rest => [] :: splitLineEnds rest
  | '\n' :: rest => [] :: splitLineEnds rest
  | c :: rest => consChar c (splitLineEnds rest)

/-- A line end, `\r\n` or `\n`. -/
def lineEnd (crlf : Bool) : List Char := if crlf then ['\r', '\n'] else ['\n']

variable {line rest : List Char}

theorem replaceCrlf_append (plain : '\r' ∉ line) :
    replaceCrlf (line ++ rest) = line ++ replaceCrlf rest := by
  induction line with
  | nil => rfl
  | cons c line ih =>
      obtain ⟨first, plain⟩ := not_or.mp (mt List.mem_cons.mpr plain)
      rw [List.cons_append, replaceCrlf.eq_3 c _ fun _ same _ => first same.symm, ih plain]
      rfl

theorem replaceCrlf_lineEnd (crlf : Bool) : replaceCrlf (lineEnd crlf ++ rest) = '\n' :: replaceCrlf rest := by
  cases crlf <;> simp [lineEnd, replaceCrlf]

theorem splitParagraphs_append (plain : '\n' ∉ line) :
    splitParagraphs (line ++ '\n' :: '\n' :: rest) = line :: splitParagraphs rest := by
  induction line with
  | nil => rw [List.nil_append, splitParagraphs]
  | cons c line ih =>
      obtain ⟨first, plain⟩ := not_or.mp (mt List.mem_cons.mpr plain)
      rw [List.cons_append, splitParagraphs.eq_3 c _ fun _ same _ => first same.symm, ih plain]
      rfl

theorem splitlines_append {c : Char} (plain : ∀ c ∈ line, isBoundary c = false)
    (boundary : isBoundary c = true) (single : c ≠ '\r') :
    splitlines (line ++ c :: rest) = line :: splitlines rest := by
  induction line with
  | nil => rw [List.nil_append, splitlines.eq_3 c rest fun _ same _ => single same, if_pos boundary]
  | cons b line ih =>
      have first : isBoundary b = false := plain b List.mem_cons_self
      have other : b ≠ '\r' := by
        rintro rfl
        cases first
      rw [List.cons_append, splitlines.eq_3 b _ fun _ same _ => other same, if_neg (by simp [first]),
        ih fun c member => plain c (List.mem_cons_of_mem _ member)]
      rfl

theorem splitlines_line (plain : ∀ c ∈ line, isBoundary c = false) (some : line ≠ []) :
    splitlines line = [line] := by
  induction line with
  | nil => exact absurd rfl some
  | cons b line ih =>
      have first : isBoundary b = false := plain b List.mem_cons_self
      have other : b ≠ '\r' := by
        rintro rfl
        cases first
      rw [splitlines.eq_3 b _ fun _ same _ => other same, if_neg (by simp [first])]
      cases line with
      | nil => rfl
      | cons c line =>
          rw [ih (fun c member => plain c (List.mem_cons_of_mem _ member)) (List.cons_ne_nil _ _)]
          rfl

theorem splitBlankLines_append (plain : '\r' ∉ line ∧ '\n' ∉ line) (first second : Bool) :
    splitBlankLines (line ++ (lineEnd first ++ (lineEnd second ++ rest))) =
      line :: splitBlankLines rest := by
  induction line with
  | nil => cases first <;> cases second <;> simp [lineEnd, splitBlankLines]
  | cons c line ih =>
      obtain ⟨feed, plainFeed⟩ := not_or.mp (mt List.mem_cons.mpr plain.1)
      obtain ⟨newline, plainNewline⟩ := not_or.mp (mt List.mem_cons.mpr plain.2)
      rw [List.cons_append, splitBlankLines.eq_6 c _ _ _ _ _, ih ⟨plainFeed, plainNewline⟩]
      · rfl
      all_goals
        intro after same _
        first
          | exact feed same.symm
          | exact newline same.symm

theorem splitLineEnds_line (plain : '\n' ∉ line) : splitLineEnds line = [line] := by
  induction line with
  | nil => rfl
  | cons c line ih =>
      obtain ⟨first, plainRest⟩ := not_or.mp (mt List.mem_cons.mpr plain)
      rw [splitLineEnds.eq_4 c _ _ _, ih plainRest]
      · rfl
      · intro after _ same
        rw [same] at plain
        simp at plain
      · intro same
        exact first same.symm

end GenSubnet.Library
