import GenSubnet.Library.Dict
import Mathlib

/-!
# JSON texts as Python reads them

The values, the decoder and the comparisons of Python's `json.loads`: the decoder also accepts `NaN`
and the infinities, keeps lone surrogates, and gives up on nesting that is deeper than the
interpreter's recursion limit; comparing two values can raise.
-/

namespace GenSubnet.Library

/-- A binary64 number. The decoder makes one `NaN` object, which is identical to itself. -/
inductive Double
  | finite (value : Rat)
  | infinite (negative : Bool)
  | nan
deriving DecidableEq

/-- A decoded value; strings are lists of code points, members are in insertion order. -/
inductive Json
  | null
  | bool (value : Bool)
  | int (value : Int)
  | float (value : Double)
  | str (codePoints : List Nat)
  | array (items : List Json)
  | object (members : List (List Nat × Json))

/-- What `json.loads` raises: a `ValueError` for a malformed text, or a `RecursionError`. -/
inductive LoadError | malformed | recursion
deriving DecidableEq

/-- What operations on decoded values raise. -/
inductive PyError
  | notIterable | badIndex | notOrdered | recursion
deriving DecidableEq

def codePoints (s : String) : List Nat := s.toList.map Char.toNat

/-! ## Numbers -/

def floorLog2 (q : Rat) : Int :=
  let k : Int := (q.num.natAbs.log2 : Int) - (q.den.log2 : Int)
  if (2 : Rat) ^ k ≤ q then k else k - 1

def roundHalfEven (q : Rat) : Int :=
  let rest := q - q.floor
  if rest < 1 / 2 then q.floor
  else if 1 / 2 < rest then q.floor + 1
  else if q.floor % 2 = 0 then q.floor else q.floor + 1

/-- The nearest binary64 number, ties to even. -/
def roundDouble (q : Rat) (negative : Bool) : Double :=
  if q = 0 then .finite 0
  else
    let ulp : Rat := 2 ^ max (floorLog2 q - 52) (-1074)
    let rounded := roundHalfEven (q / ulp) * ulp
    if (2 : Rat) ^ (1024 : Int) ≤ rounded then .infinite negative
    else .finite (if negative then -rounded else rounded)

def digitsValue (digits : List Char) : Nat :=
  digits.foldl (fun value digit => 10 * value + (digit.toNat - 48)) 0

/-- The longest text of an integer that `int` converts. -/
def maxIntDigits : Nat := 4300

/-- The fraction of a number, when a digit follows the point. -/
def takeFraction : List Char → Option (List Char) × List Char
  | '.' :: rest =>
      if (rest.takeWhile Char.isDigit).isEmpty then (none, '.' :: rest)
      else (some (rest.takeWhile Char.isDigit), rest.dropWhile Char.isDigit)
  | rest => (none, rest)

/-- The exponent of a number, when it has a digit. -/
def takeExponent : List Char → Option Int × List Char
  | e :: rest =>
      let (negative, digits) := match rest with
        | '-' :: rest => (true, rest)
        | '+' :: rest => (false, rest)
        | rest => (false, rest)
      if (e = 'e' ∨ e = 'E') ∧ ¬ (digits.takeWhile Char.isDigit).isEmpty then
        let value : Int := digitsValue (digits.takeWhile Char.isDigit)
        (some (if negative then -value else value), digits.dropWhile Char.isDigit)
      else (none, e :: rest)
  | [] => (none, [])

/-- A number without its sign. -/
def parseNumber (negative : Bool) (cs : List Char) : Except LoadError (Json × List Char) :=
  let (whole, rest) := match cs with
    | '0' :: rest => (['0'], rest)
    | cs => (cs.takeWhile Char.isDigit, cs.dropWhile Char.isDigit)
  if whole.isEmpty then .error .malformed
  else
    match takeFraction rest with
    | (fraction, rest) =>
        match takeExponent rest with
        | (exponent, rest) =>
            if fraction.isNone ∧ exponent.isNone then
              if maxIntDigits < whole.length then .error .malformed
              else
                let value : Int := digitsValue whole
                .ok (.int (if negative then -value else value), rest)
            else
              let digits := fraction.getD []
              let value : Rat := digitsValue (whole ++ digits) *
                10 ^ (exponent.getD 0 - digits.length)
              .ok (.float (roundDouble value negative), rest)

/-! ## Strings -/

inductive StringState
  | plain
  | escape
  | hex (digits value : Nat)

def hexDigitValue (c : Char) : Option Nat :=
  if '0' ≤ c ∧ c ≤ '9' then some (c.toNat - 48)
  else if 'a' ≤ c ∧ c ≤ 'f' then some (c.toNat - 87)
  else if 'A' ≤ c ∧ c ≤ 'F' then some (c.toNat - 55)
  else none

def escaped : Char → Option Nat
  | '"' => some 34
  | '\\' => some 92
  | '/' => some 47
  | 'b' => some 8
  | 'f' => some 12
  | 'n' => some 10
  | 'r' => some 13
  | 't' => some 9
  | _ => none

/-- Add the code unit of a `\u` escape: a low surrogate joins the high one that it follows. -/
def pushUnit (read : List Nat) (high : Option Nat) (unit : Nat) : List Nat × Option Nat :=
  match high with
  | some h =>
      if 0xDC00 ≤ unit ∧ unit ≤ 0xDFFF then
        (read ++ [0x10000 + (h - 0xD800) * 0x400 + (unit - 0xDC00)], none)
      else if 0xD800 ≤ unit ∧ unit ≤ 0xDBFF then (read ++ [h], some unit)
      else (read ++ [h, unit], none)
  | none =>
      if 0xD800 ≤ unit ∧ unit ≤ 0xDBFF then (read, some unit) else (read ++ [unit], none)

/-- The rest of a string; `high` is a high surrogate that was just read as an escape. -/
def scanString (read : List Nat) (high : Option Nat) :
    StringState → List Char → Option (List Nat × List Char)
  | _, [] => none
  | .plain, '"' :: rest => some (read ++ high.toList, rest)
  | .plain, '\\' :: rest => scanString read high .escape rest
  | .plain, c :: rest =>
      if c.toNat < 32 then none else scanString (read ++ high.toList ++ [c.toNat]) none .plain rest
  | .escape, 'u' :: rest => scanString read high (.hex 0 0) rest
  | .escape, c :: rest =>
      match escaped c with
      | none => none
      | some point => scanString (read ++ high.toList ++ [point]) none .plain rest
  | .hex digits value, c :: rest =>
      match hexDigitValue c with
      | none => none
      | some digit =>
          if digits < 3 then scanString read high (.hex (digits + 1) (16 * value + digit)) rest
          else
            scanString (pushUnit read high (16 * value + digit)).1
              (pushUnit read high (16 * value + digit)).2 .plain rest

/-! ## Texts -/

def isBlank (c : Char) : Bool := c = ' ' || c = '\t' || c = '\n' || c = '\r'

def skipBlank (cs : List Char) : List Char := cs.dropWhile isBlank

abbrev Parser (α : Type) := List Char → Except LoadError (α × List Char)

/-- The items of a nonempty array; every item consumes a character, so the length is enough fuel. -/
def parseItems (value : Parser Json) : Nat → List Json → Parser Json
  | 0, _, _ => .error .malformed
  | fuel + 1, items, cs =>
      match value cs with
      | .error e => .error e
      | .ok (item, rest) =>
          match skipBlank rest with
          | ',' :: rest => parseItems value fuel (items ++ [item]) (skipBlank rest)
          | ']' :: rest => .ok (.array (items ++ [item]), rest)
          | _ => .error .malformed

/-- The members of a nonempty object; a repeated key keeps its place and takes the last value. -/
def parseMembers (value : Parser Json) : Nat → List (List Nat × Json) → Parser Json
  | fuel + 1, members, '"' :: cs =>
      match scanString [] none .plain cs with
      | none => .error .malformed
      | some (key, rest) =>
          match skipBlank rest with
          | ':' :: rest =>
              match value (skipBlank rest) with
              | .error e => .error e
              | .ok (member, rest) =>
                  match skipBlank rest with
                  | ',' :: rest =>
                      parseMembers value fuel (upsert key member members) (skipBlank rest)
                  | '}' :: rest => .ok (.object (upsert key member members), rest)
                  | _ => .error .malformed
          | _ => .error .malformed
  | _, _, _ => .error .malformed

/-- One value; `nested` reads what is inside an array or an object, unless the recursion limit is
reached. -/
def parseStep (nested : Option (Parser Json)) : Parser Json
  | '"' :: rest =>
      match scanString [] none .plain rest with
      | none => .error .malformed
      | some (s, rest) => .ok (.str s, rest)
  | '[' :: rest =>
      match nested with
      | none => .error .recursion
      | some value =>
          match skipBlank rest with
          | ']' :: rest => .ok (.array [], rest)
          | rest => parseItems value rest.length [] rest
  | '{' :: rest =>
      match nested with
      | none => .error .recursion
      | some value =>
          match skipBlank rest with
          | '}' :: rest => .ok (.object [], rest)
          | rest => parseMembers value rest.length [] rest
  | 'n' :: 'u' :: 'l' :: 'l' :: rest => .ok (.null, rest)
  | 't' :: 'r' :: 'u' :: 'e' :: rest => .ok (.bool true, rest)
  | 'f' :: 'a' :: 'l' :: 's' :: 'e' :: rest => .ok (.bool false, rest)
  | 'N' :: 'a' :: 'N' :: rest => .ok (.float .nan, rest)
  | 'I' :: 'n' :: 'f' :: 'i' :: 'n' :: 'i' :: 't' :: 'y' :: rest => .ok (.float (.infinite false), rest)
  | '-' :: 'I' :: 'n' :: 'f' :: 'i' :: 'n' :: 'i' :: 't' :: 'y' :: rest =>
      .ok (.float (.infinite true), rest)
  | '-' :: rest => parseNumber true rest
  | cs => parseNumber false cs

def parseValue : Nat → Parser Json
  | 0 => parseStep none
  | depth + 1 => parseStep (some (parseValue depth))

/-- `json.loads` where arrays and objects may nest `depth` deep. -/
def loads (depth : Nat) (text : List Char) : Except LoadError Json :=
  if text.head? = some (Char.ofNat 0xFEFF) then .error .malformed
  else
    match parseValue depth (skipBlank text) with
    | .error e => .error e
    | .ok (value, rest) => if (skipBlank rest).isEmpty then .ok value else .error .malformed

/-! ## Operations on values -/

def Json.truthy : Json → Bool
  | .null => false
  | .bool b => b
  | .int n => n ≠ 0
  | .float x => x ≠ .finite 0
  | .str s => !s.isEmpty
  | .array items => !items.isEmpty
  | .object members => !members.isEmpty

def Json.isStr (s : List Nat) : Json → Bool
  | .str t => t = s
  | _ => false

def scalar (codePoint : Nat) : Bool := codePoint < 0xD800 || 0xDFFF < codePoint

mutual
/-- Whether the text of a value has an encoding; lone surrogates have none. -/
def Json.encodable : Json → Bool
  | .str s => s.all scalar
  | .array items => itemsEncodable items
  | .object members => membersEncodable members
  | .null | .bool _ | .int _ | .float _ => true

def itemsEncodable : List Json → Bool
  | [] => true
  | item :: items => item.encodable && itemsEncodable items

def membersEncodable : List (List Nat × Json) → Bool
  | [] => true
  | (key, value) :: members => key.all scalar && value.encodable && membersEncodable members
end

/-- `key in value`. -/
def Json.contains (value : Json) (key : List Nat) : Except PyError Bool :=
  match value with
  | .object members => .ok (lookupIn key members).isSome
  | .array items => .ok (items.any (Json.isStr key))
  | .str s => .ok (decide (key <:+: s))
  | .null | .bool _ | .int _ | .float _ => .error .notIterable

/-- `value[key]`, where `key in value` holds. -/
def Json.index (value : Json) (key : List Nat) : Except PyError Json :=
  match value with
  | .object members =>
      match lookupIn key members with
      | some member => .ok member
      | none => .error .badIndex
  | _ => .error .badIndex

/-- Booleans are the numbers 0 and 1. -/
def Json.number : Json → Option Double
  | .bool b => some (.finite (if b then 1 else 0))
  | .int n => some (.finite n)
  | .float x => some x
  | _ => none

def Double.gt : Double → Double → Bool
  | .nan, _ | _, .nan => false
  | .finite a, .finite b => b < a
  | .infinite a, .infinite b => !a && b
  | .infinite a, .finite _ => !a
  | .finite _, .infinite b => b

/-- Whether two lists are equal item by item, where comparing items may raise. -/
def allEqual (eq : Json → Json → Except PyError Bool) : List Json → List Json → Except PyError Bool
  | a :: as, b :: bs =>
      match eq a b with
      | .error e => .error e
      | .ok false => .ok false
      | .ok true => allEqual eq as bs
  | [], [] => .ok true
  | _, _ => .ok false

/-- Whether the members of an object are those of another, in any order. -/
def allMembers (eq : Json → Json → Except PyError Bool) (other : List (List Nat × Json)) :
    List (List Nat × Json) → Except PyError Bool
  | [] => .ok true
  | (key, a) :: rest =>
      match lookupIn key other with
      | none => .ok false
      | some b =>
          match eq a b with
          | .error e => .error e
          | .ok false => .ok false
          | .ok true => allMembers eq other rest

/-- `a == b` of values in a container, where comparisons may nest `depth` deep. -/
def Json.eq : Nat → Json → Json → Except PyError Bool
  | 0, _, _ => .error .recursion
  | depth + 1, a, b =>
      match a, b with
      | .null, .null => .ok true
      | .str s, .str t => .ok (decide (s = t))
      | .array as, .array bs =>
          if as.length ≠ bs.length then .ok false else allEqual (Json.eq depth) as bs
      | .object as, .object bs =>
          if as.length ≠ bs.length then .ok false else allMembers (Json.eq depth) bs as
      | a, b =>
          match a.number, b.number with
          | some x, some y => .ok (decide (x = y))
          | _, _ => .ok false

/-- The order of lists is that of the first items that differ. -/
def firstDifference (eq gt : Json → Json → Except PyError Bool) :
    List Json → List Json → Except PyError Bool
  | a :: as, b :: bs =>
      match eq a b with
      | .error e => .error e
      | .ok true => firstDifference eq gt as bs
      | .ok false => gt a b
  | _ :: _, [] => .ok true
  | [], _ => .ok false

/-- `a > b`. -/
def Json.gt : Nat → Json → Json → Except PyError Bool
  | 0, _, _ => .error .recursion
  | depth + 1, a, b =>
      match a, b with
      | .str s, .str t => .ok (decide (t < s))
      | .array as, .array bs => firstDifference (Json.eq depth) (Json.gt depth) as bs
      | a, b =>
          match a.number, b.number with
          | some x, some y => .ok (x.gt y)
          | _, _ => .error .notOrdered

/-- `a > b` of pairs of an integer and a value. -/
def pairGt (depth : Nat) (a b : Int × Json) : Except PyError Bool :=
  if a.1 ≠ b.1 then .ok (decide (b.1 < a.1))
  else
    match Json.eq depth a.2 b.2 with
    | .error e => .error e
    | .ok true => .ok false
    | .ok false => Json.gt depth a.2 b.2

/-- `max` of a nonempty list: the first of the greatest. -/
def pyMax {α : Type} (gt : α → α → Except PyError Bool) (best : α) : List α → Except PyError α
  | [] => .ok best
  | a :: rest =>
      match gt a best with
      | .error e => .error e
      | .ok true => pyMax gt a rest
      | .ok false => pyMax gt best rest

theorem pyMax_append {α : Type} (gt : α → α → Except PyError Bool) (best : α) (before after : List α) :
    pyMax gt best (before ++ after) =
      match pyMax gt best before with
      | .error e => .error e
      | .ok best => pyMax gt best after := by
  induction before generalizing best with
  | nil => rfl
  | cons a before ih =>
      simp only [List.cons_append, pyMax]
      cases gt a best with
      | error e => rfl
      | ok greater => cases greater <;> exact ih _

theorem pyMax_mem {α : Type} {gt : α → α → Except PyError Bool} {first best : α} {rest : List α}
    (found : pyMax gt first rest = .ok best) : best ∈ first :: rest := by
  induction rest generalizing first with
  | nil => exact Except.ok.inj found ▸ List.mem_cons_self
  | cons a rest ih =>
      simp only [pyMax] at found
      split at found
      · cases found
      · exact List.mem_cons_of_mem _ (ih found)
      · rcases List.mem_cons.mp (ih found) with rfl | member
        · exact List.mem_cons_self
        · exact List.mem_cons_of_mem _ (List.mem_cons_of_mem _ member)

end GenSubnet.Library
