import GenSubnet.Library.PythonJson
import Mathlib

/-!
# Where the strings of a JSON text are

A scanner that knows only quotes and escapes. In every text that `loads` reads, it accepts each
character and ends outside a string: control characters stand outside strings, and characters that
are not ASCII stand inside.
-/

namespace GenSubnet.Library

inductive Quoted | outside | inside | escape
deriving DecidableEq

def quoteStep : Quoted → Char → Option Quoted
  | .outside, c =>
      if c = '"' then some .inside
      else if isBlank c ∨ (32 ≤ c.toNat ∧ c.toNat < 128) then some .outside
      else none
  | .inside, c =>
      if c = '"' then some .outside
      else if c = '\\' then some .escape
      else if c.toNat < 32 then none
      else some .inside
  | .escape, c => if 32 ≤ c.toNat ∧ c.toNat < 128 then some .inside else none

def scanQuotes : Quoted → List Char → Option Quoted
  | state, [] => some state
  | state, c :: rest => (quoteStep state c).bind fun state => scanQuotes state rest

theorem scanQuotes_append (state : Quoted) (before after : List Char) :
    scanQuotes state (before ++ after) =
      (scanQuotes state before).bind fun state => scanQuotes state after := by
  induction before generalizing state with
  | nil => rfl
  | cons c before ih =>
      simp only [List.cons_append, scanQuotes, Option.bind_assoc]
      cases quoteStep state c with
      | none => rfl
      | some state => exact ih state

/-- A parser leaves the scanner where it was. -/
def Balanced (cs rest : List Char) : Prop := scanQuotes .outside cs = scanQuotes .outside rest

theorem Balanced.refl (cs : List Char) : Balanced cs cs := rfl

theorem Balanced.trans {a b c : List Char} (left : Balanced a b) (right : Balanced b c) :
    Balanced a c :=
  Eq.trans left right

theorem balanced_cons {c : Char} (cs : List Char) (plain : quoteStep .outside c = some .outside) :
    Balanced (c :: cs) cs := by
  simp [Balanced, scanQuotes, plain]

theorem balanced_dropWhile {p : Char → Bool}
    (plain : ∀ c, p c = true → quoteStep .outside c = some .outside) (cs : List Char) :
    Balanced cs (cs.dropWhile p) := by
  induction cs with
  | nil => rfl
  | cons c cs ih =>
      rw [List.dropWhile_cons]
      split
      · rename_i holds
        exact (balanced_cons cs (plain c holds)).trans ih
      · rfl

theorem quoteStep_blank {c : Char} (blank : isBlank c = true) :
    quoteStep .outside c = some .outside := by
  have plain : c ≠ '"' := by
    rintro rfl
    cases blank
  simp [quoteStep, plain, blank]

theorem balanced_skipBlank (cs : List Char) : Balanced cs (skipBlank cs) :=
  balanced_dropWhile (fun _ => quoteStep_blank) cs

/-! ## Strings -/

theorem hexDigitValue_ascii {c : Char} {value : Nat} (digit : hexDigitValue c = some value) :
    quoteStep .inside c = some .inside := by
  have range : ('0' ≤ c ∧ c ≤ '9') ∨ ('a' ≤ c ∧ c ≤ 'f') ∨ ('A' ≤ c ∧ c ≤ 'F') := by
    unfold hexDigitValue at digit
    split at digit
    · exact Or.inl ‹_›
    · split at digit
      · exact Or.inr (Or.inl ‹_›)
      · split at digit
        · exact Or.inr (Or.inr ‹_›)
        · cases digit
  have bounds : (48 ≤ c.toNat ∧ c.toNat ≤ 57) ∨ (97 ≤ c.toNat ∧ c.toNat ≤ 102) ∨
      (65 ≤ c.toNat ∧ c.toNat ≤ 70) := range
  have quote : c ≠ '"' := by
    rintro rfl
    revert bounds
    decide
  have backslash : c ≠ '\\' := by
    rintro rfl
    revert bounds
    decide
  have printed : ¬ c.toNat < 32 := by omega
  simp [quoteStep, quote, backslash, printed]

theorem escaped_ascii {c : Char} {point : Nat} (is : escaped c = some point) :
    quoteStep .escape c = some .inside := by
  unfold escaped at is
  split at is
  all_goals first | rfl | cases is

/-- Where the scanner is while a string is read. -/
def StringState.quoted : StringState → Quoted
  | .plain => .inside
  | .escape => .escape
  | .hex _ _ => .inside

theorem scanString_balanced {read : List Nat} {high : Option Nat} {state : StringState}
    {cs : List Char} {s : List Nat} {rest : List Char}
    (scanned : scanString read high state cs = some (s, rest)) :
    scanQuotes state.quoted cs = scanQuotes .outside rest := by
  fun_induction scanString read high state cs with
  | case1 => cases scanned
  | case2 read high rest' =>
      cases scanned
      rfl
  | case3 read high rest' ih => exact ih scanned
  | case4 => cases scanned
  | case5 read high c rest' quote backslash printed ih =>
      have step : quoteStep .inside c = some .inside := by
        have notQuote : c ≠ '"' := fun same => quote same
        have notBackslash : c ≠ '\\' := fun same => backslash same
        simp [quoteStep, notQuote, notBackslash, printed]
      rw [← ih scanned]
      simp [scanQuotes, StringState.quoted, step]
  | case6 read high rest' ih => exact ih scanned
  | case7 => cases scanned
  | case8 read high c rest' unicode point is ih =>
      rw [← ih scanned]
      simp [scanQuotes, StringState.quoted, escaped_ascii is]
  | case9 => cases scanned
  | case10 read high digits value c rest' digit is few ih =>
      rw [← ih scanned]
      simp [scanQuotes, StringState.quoted, hexDigitValue_ascii is]
  | case11 read high digits value c rest' digit is full ih =>
      rw [← ih scanned]
      simp [scanQuotes, StringState.quoted, hexDigitValue_ascii is]

theorem balanced_string {cs : List Char} {s : List Nat} {rest : List Char}
    (scanned : scanString [] none .plain cs = some (s, rest)) : Balanced ('"' :: cs) rest := by
  have inside : scanQuotes .inside cs = scanQuotes .outside rest := scanString_balanced scanned
  simpa [Balanced, scanQuotes, quoteStep] using inside

/-! ## Numbers -/

theorem quoteStep_digit {c : Char} (digit : c.isDigit = true) :
    quoteStep .outside c = some .outside := by
  have bounds : 48 ≤ c.toNat ∧ c.toNat ≤ 57 := by
    simp only [Char.isDigit, Bool.and_eq_true, decide_eq_true_eq] at digit
    exact digit
  have quote : c ≠ '"' := by
    rintro rfl
    revert bounds
    decide
  have printed : 32 ≤ c.toNat ∧ c.toNat < 128 := by omega
  simp [quoteStep, quote, printed]

theorem balanced_digits (cs : List Char) : Balanced cs (cs.dropWhile Char.isDigit) :=
  balanced_dropWhile (fun _ => quoteStep_digit) cs

theorem balanced_takeFraction (cs : List Char) : Balanced cs (takeFraction cs).2 := by
  unfold takeFraction
  split
  · split
    · rfl
    · exact (balanced_cons _ rfl).trans (balanced_digits _)
  · rfl

theorem balanced_exponent {e : Char} {cs digits : List Char} (read : Balanced cs digits)
    (value : Option Int) (kept : Option Int × List Char) (other : Balanced (e :: cs) kept.2)
    (condition : Prop) [Decidable condition] (letter : condition → e = 'e' ∨ e = 'E') :
    Balanced (e :: cs) (if condition then (value, digits.dropWhile Char.isDigit) else kept).2 := by
  split
  · rename_i holds
    have plain : quoteStep .outside e = some .outside := by
      rcases letter holds with rfl | rfl <;> rfl
    exact (balanced_cons cs plain).trans (read.trans (balanced_digits digits))
  · exact other

theorem balanced_takeExponent (cs : List Char) : Balanced cs (takeExponent cs).2 := by
  cases cs with
  | nil => rfl
  | cons e rest =>
      simp only [takeExponent]
      split
      · exact balanced_exponent (balanced_cons _ rfl) _ _ (.refl _) _ And.left
      · exact balanced_exponent (balanced_cons _ rfl) _ _ (.refl _) _ And.left
      · exact balanced_exponent (.refl _) _ _ (.refl _) _ And.left

theorem balanced_number {negative : Bool} {cs rest : List Char} {value : Json}
    (parsed : parseNumber negative cs = .ok (value, rest)) : Balanced cs rest := by
  unfold parseNumber at parsed
  split at parsed
  rename_i digits after is
  have whole : Balanced cs after := by
    split at is
    · cases is
      exact balanced_cons _ rfl
    · cases is
      exact balanced_digits cs
  split at parsed
  · cases parsed
  · split at parsed
    rename_i fraction afterFraction isFraction
    split at parsed
    rename_i exponent afterExponent isExponent
    have pointed : Balanced after afterFraction := by
      simpa only [isFraction] using balanced_takeFraction after
    have chain : Balanced cs afterExponent := by
      apply whole.trans (pointed.trans _)
      simpa only [isExponent] using balanced_takeExponent afterFraction
    split at parsed
    · split at parsed
      · cases parsed
      · cases parsed
        exact chain
    · cases parsed
      exact chain

/-! ## Values -/

/-- A parser that leaves the scanner where it was. -/
def Balances (value : Parser Json) : Prop :=
  ∀ cs item rest, value cs = .ok (item, rest) → Balanced cs rest

theorem balanced_of_skip {cs : List Char} {c : Char} {rest : List Char}
    (skipped : skipBlank cs = c :: rest) (plain : quoteStep .outside c = some .outside) :
    Balanced cs (skipBlank rest) := by
  have first : Balanced cs (c :: rest) := skipped ▸ balanced_skipBlank cs
  exact first.trans ((balanced_cons rest plain).trans (balanced_skipBlank rest))

theorem balanced_close {cs : List Char} {c : Char} {rest : List Char}
    (skipped : skipBlank cs = c :: rest) (plain : quoteStep .outside c = some .outside) :
    Balanced cs rest := by
  have first : Balanced cs (c :: rest) := skipped ▸ balanced_skipBlank cs
  exact first.trans (balanced_cons rest plain)

theorem balances_items {value : Parser Json} (balances : Balances value) (fuel : Nat)
    (items : List Json) : Balances (parseItems value fuel items) := by
  induction fuel generalizing items with
  | zero =>
      intro cs item rest parsed
      cases parsed
  | succ fuel ih =>
      intro cs item rest parsed
      simp only [parseItems] at parsed
      split at parsed
      · cases parsed
      · rename_i first after step
        apply (balances _ _ _ step).trans
        split at parsed
        · rename_i more skipped
          exact (balanced_of_skip skipped rfl).trans (ih _ _ _ _ parsed)
        · rename_i more skipped
          cases parsed
          exact balanced_close skipped rfl
        · cases parsed

theorem balances_members {value : Parser Json} (balances : Balances value) (fuel : Nat)
    (members : List (List Nat × Json)) : Balances (parseMembers value fuel members) := by
  intro cs
  fun_induction parseMembers value fuel members cs with
  | case1 => intro item rest parsed; cases parsed
  | case2 => intro item rest parsed; cases parsed
  | case3 fuel members cs key after scanned colon skipped member next step more found ih =>
      intro item rest parsed
      apply (balanced_string scanned).trans
      apply (balanced_of_skip skipped rfl).trans
      apply (balances _ _ _ step).trans
      exact (balanced_of_skip found rfl).trans (ih _ _ parsed)
  | case4 fuel members cs key after scanned colon skipped member next step more found =>
      intro item rest parsed
      cases parsed
      apply (balanced_string scanned).trans
      apply (balanced_of_skip skipped rfl).trans
      apply (balances _ _ _ step).trans
      exact balanced_close found rfl
  | case5 => intro item rest parsed; cases parsed
  | case6 => intro item rest parsed; cases parsed
  | case7 => intro item rest parsed; cases parsed

theorem balances_step {nested : Option (Parser Json)}
    (balances : ∀ value, nested = some value → Balances value) : Balances (parseStep nested) := by
  intro cs item rest parsed
  unfold parseStep at parsed
  split at parsed
  · split at parsed
    · cases parsed
    · rename_i s after scanned
      cases parsed
      exact balanced_string scanned
  · split at parsed
    · cases parsed
    · rename_i value
      split at parsed
      · rename_i after skipped
        cases parsed
        exact (balanced_cons _ rfl).trans (balanced_close skipped rfl)
      · apply (balanced_cons _ rfl).trans
        exact (balanced_skipBlank _).trans (balances_items (balances value rfl) _ _ _ _ _ parsed)
  · split at parsed
    · cases parsed
    · rename_i value
      split at parsed
      · rename_i after skipped
        cases parsed
        exact (balanced_cons _ rfl).trans (balanced_close skipped rfl)
      · apply (balanced_cons _ rfl).trans
        exact (balanced_skipBlank _).trans (balances_members (balances value rfl) _ _ _ _ _ parsed)
  all_goals first
    | (cases parsed; rfl)
    | exact (balanced_cons _ rfl).trans (balanced_number parsed)
    | exact balanced_number parsed

theorem balances_value (depth : Nat) : Balances (parseValue depth) := by
  induction depth with
  | zero => exact balances_step (by simp)
  | succ depth ih => exact balances_step (by simpa using ih)

theorem loads_balanced {depth : Nat} {text : List Char} {value : Json}
    (loaded : loads depth text = .ok value) : scanQuotes .outside text = some .outside := by
  unfold loads at loaded
  split at loaded
  · cases loaded
  · split at loaded
    · cases loaded
    · rename_i value rest parsed
      split at loaded
      · rename_i blank
        have read : Balanced text rest :=
          (balanced_skipBlank text).trans (balances_value depth _ _ _ parsed)
        have all : Balanced text (skipBlank rest) := read.trans (balanced_skipBlank rest)
        rw [List.isEmpty_iff.mp blank] at all
        exact all
      · cases loaded

/-! ## What balanced texts hold -/

theorem quoteStep_printed {state after : Quoted} {c : Char} (step : quoteStep state c = some after) :
    32 ≤ c.toNat ∨ isBlank c = true := by
  cases state with
  | outside =>
      simp only [quoteStep] at step
      split at step
      · rename_i quote
        subst quote
        exact Or.inl (by decide)
      · split at step
        · rename_i plain
          exact plain.elim Or.inr fun range => Or.inl range.1
        · cases step
  | inside =>
      simp only [quoteStep] at step
      split at step
      · rename_i quote
        subst quote
        exact Or.inl (by decide)
      · split at step
        · rename_i backslash
          subst backslash
          exact Or.inl (by decide)
        · split at step
          · cases step
          · rename_i printed
            exact Or.inl (not_lt.mp printed)
  | escape =>
      simp only [quoteStep] at step
      split at step
      · rename_i range
        exact Or.inl range.1
      · cases step

theorem quoteStep_beyond {state after : Quoted} {c : Char} (step : quoteStep state c = some after)
    (beyond : 128 ≤ c.toNat) : state = .inside := by
  have notBlank : isBlank c = false := by
    rw [Bool.eq_false_iff]
    intro blank
    simp only [isBlank, Bool.or_eq_true, decide_eq_true_eq] at blank
    rcases blank with ((rfl | rfl) | rfl) | rfl <;> revert beyond <;> decide
  have notQuote : c ≠ '"' := by
    rintro rfl
    revert beyond
    decide
  cases state with
  | inside => rfl
  | outside => simp [quoteStep, notQuote, notBlank, Nat.not_lt.mpr beyond] at step
  | escape => simp [quoteStep, Nat.not_lt.mpr beyond] at step

theorem scanQuotes_printed {state after : Quoted} {text : List Char}
    (scanned : scanQuotes state text = some after) : ∀ c ∈ text, 32 ≤ c.toNat ∨ isBlank c = true := by
  induction text generalizing state with
  | nil => simp
  | cons c text ih =>
      obtain ⟨next, step, rest⟩ := Option.bind_eq_some_iff.mp scanned
      exact List.forall_mem_cons.mpr ⟨quoteStep_printed step, ih rest⟩

end GenSubnet.Library
