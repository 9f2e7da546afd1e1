import Mathlib

namespace PredictX.DecimalText

/-! Decimal arithmetic on decimal strings, for money.

A string is the list of its characters.  What a string stands for when it is no number is zero.
-/

abbrev Text := List Char

/-- What `trim` takes off: white space and line terminators. -/
def isSpace (char : Char) : Bool :=
  char.toNat ∈ [9, 10, 11, 12, 13, 32, 160, 5760, 8232, 8233, 8239, 8287, 12288, 65279] ||
    (8192 ≤ char.toNat && char.toNat ≤ 8202)

def trim (text : Text) : Text :=
  ((text.dropWhile isSpace).reverse.dropWhile isSpace).reverse

structure Scaled where
  units : ℤ
  scale : ℕ
deriving DecidableEq, Repr

/-- The text up to the first dot. -/
def wholeOf (unsigned : Text) : Text := unsigned.takeWhile (· ≠ '.')

/-- The text between the first two dots; what follows is not looked at. -/
def fractionOf (unsigned : Text) : Text :=
  (unsigned.dropWhile (· ≠ '.')).tail.takeWhile (· ≠ '.')

def parse (value : Text) : Scaled :=
  let trimmed := trim value
  if trimmed = [] ∨ trimmed = ['.'] then ⟨0, 0⟩
  else
    let negative := trimmed.head? = some '-'
    let unsigned := if negative then trimmed.tail else trimmed
    let fraction := fractionOf unsigned
    let digits := (if wholeOf unsigned = [] then ['0'] else wholeOf unsigned) ++ fraction
    if digits.all Char.isDigit then
      ⟨Nat.ofDigitChars 10 digits 0 * (if negative then -1 else 1), fraction.length⟩
    else ⟨0, 0⟩

/-- The callers only ever rescale to more digits. -/
def rescale (value : Scaled) (scale : ℕ) : Scaled :=
  if value.scale = scale then value
  else ⟨value.units * 10 ^ (scale - value.scale), scale⟩

def padStart (digits : Text) (length : ℕ) : Text :=
  List.replicate (length - digits.length) '0' ++ digits

def format (value : Scaled) : Text :=
  let sign := if value.units < 0 then ['-'] else []
  let digits := padStart (Nat.toDigits 10 value.units.natAbs) (value.scale + 1)
  if value.scale = 0 then sign ++ digits
  else
    sign ++ (digits.take (digits.length - value.scale) ++
      '.' :: digits.drop (digits.length - value.scale))

def subtract (a b : Text) : Text :=
  let left := parse a
  let right := parse b
  let scale := max left.scale right.scale
  format ⟨(rescale left scale).units - (rescale right scale).units, scale⟩

def add (a b : Text) : Text :=
  let left := parse a
  let right := parse b
  let scale := max left.scale right.scale
  format ⟨(rescale left scale).units + (rescale right scale).units, scale⟩

/-- What `/^(-?)(\d+)(?:\.(\d+))?$/` captures. -/
structure Numeral where
  sign : Text
  whole : Text
  fraction : Option Text
deriving DecidableEq, Repr

def numeral? (text : Text) : Option Numeral :=
  let sign := if text.head? = some '-' then ['-'] else []
  let unsigned := if text.head? = some '-' then text.tail else text
  let whole := unsigned.takeWhile Char.isDigit
  if whole = [] then none
  else
    match unsigned.dropWhile Char.isDigit with
    | [] => some ⟨sign, whole, none⟩
    | separator :: fraction =>
        if separator = '.' ∧ fraction ≠ [] ∧ fraction.all Char.isDigit then
          some ⟨sign, whole, some fraction⟩
        else none

/-- `replace(/\B(?=(\d{3})+(?!\d))/g, ",")` on digits: a comma wherever a positive multiple of
three digits is still to come. -/
def commas : Text → Text
  | [] => []
  | digit :: rest =>
      if rest ≠ [] ∧ 3 ∣ rest.length then digit :: ',' :: commas rest else digit :: commas rest

/-- The fractional part with its dot, and nothing without one. -/
def Numeral.suffix (found : Numeral) : Text :=
  match found.fraction with
  | none => []
  | some fraction => '.' :: fraction

def group (value : Text) : Text :=
  let trimmed := trim value
  match numeral? trimmed with
  | none => trimmed
  | some found => found.sign ++ commas found.whole ++ found.suffix

end PredictX.DecimalText
