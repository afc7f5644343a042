import MakeLint.Text.Blank
/-!
# TOML numbers and dates

The words that stand for an integer, a float, a date or a time. Digits may be grouped by single
underscores between them. Only the value of an integer is of use here; a float must still be finite
unless it is written as infinity, and a date must exist.
-/

namespace MakeLint.Toml

def isHexDigit (c : Char) : Bool :=
  c.isDigit || ('a' ≤ c && c ≤ 'f') || ('A' ≤ c && c ≤ 'F')

/-- The digits without their underscores. -/
def grouped? (isDigit : Char → Bool) (cs : List Char) : Option (List Char) :=
  let groups := Text.splitAll '_' cs
  if groups.all fun g => !g.isEmpty && g.all isDigit then some groups.flatten else none

def digitValue (c : Char) : Nat :=
  if c.isDigit then c.toNat - '0'.toNat
  else if 'a' ≤ c then c.toNat - 'a'.toNat + 10
  else c.toNat - 'A'.toNat + 10

def natOf (base : Nat) (digits : List Char) : Nat :=
  digits.foldl (fun n c => n * base + digitValue c) 0

/-- Decimal digits with no needless zero in front. -/
def decimal? (cs : List Char) : Option Nat := do
  let digits ← grouped? Char.isDigit cs
  if cs.head? = some '0' && cs.length > 1 then none else some (natOf 10 digits)

/-- The sign of a number is negative, and its other characters. -/
def sign : List Char → Bool × List Char
  | '-' :: rest => (true, rest)
  | '+' :: rest => (false, rest)
  | cs => (false, cs)

def integerValue? : List Char → Option Int
  | '0' :: 'x' :: rest => (grouped? isHexDigit rest).map fun ds => natOf 16 ds
  | '0' :: 'o' :: rest => (grouped? (fun c => '0' ≤ c && c ≤ '7') rest).map fun ds => natOf 8 ds
  | '0' :: 'b' :: rest => (grouped? (fun c => c = '0' || c = '1') rest).map fun ds => natOf 2 ds
  | cs =>
    let (negative, digits) := sign cs
    (decimal? digits).map fun n => if negative then -(n : Int) else n

/-- Integers have 64 bits. -/
def integer? (cs : List Char) : Option Int := do
  let n ← integerValue? cs
  if -0x8000000000000000 ≤ n ∧ n < 0x8000000000000000 then some n else none

/-! ### Floats -/

/-- The number of an exponent; its digits do not count any more once it is above all use. -/
def exponentOf (digits : List Char) : Nat :=
  digits.foldl (fun n c => if n < 65536 then n * 10 + digitValue c else n) 0

/-- The digits after a decimal point and the power of ten. -/
def fractionAndExponent? (cs : List Char) : Option (List Char × Int) := do
  let lower := cs.map Char.toLower
  let (mantissa, exponent) ← match Text.splitFirst? 'e' lower with
    | none => some (lower, (0 : Int))
    | some (mantissa, written) => do
      let (negative, digits) := sign written
      let n := exponentOf (← grouped? Char.isDigit digits)
      some (mantissa, if negative then -(n : Int) else n)
  match mantissa with
  | [] => some ([], exponent)
  | '.' :: digits => do some (← grouped? Char.isDigit digits, exponent)
  | _ => none

/-- The least magnitude that no 64-bit float comes near: half a step above the greatest one. -/
def infiniteFrom : Nat :=
  Nat.pow 2 1024 - Nat.pow 2 970

/-- Whether the number with these digits, times a power of ten, is too great for a float. Only where
the number of its digits leaves this open is the number itself worked out. -/
def isInfinite (digits : List Char) (exponent : Int) : Bool :=
  let digits := digits.dropWhile (· = '0')
  let size := digits.length + exponent
  if digits.isEmpty || size < 309 then false
  else if 309 < size then true
  else if 0 ≤ exponent then natOf 10 digits * Nat.pow 10 exponent.toNat ≥ infiniteFrom
  else natOf 10 digits ≥ infiniteFrom * Nat.pow 10 (-exponent).toNat

def isFloat (cs : List Char) : Bool :=
  let (negative, rest) := sign cs
  if rest = ['i', 'n', 'f'] || rest = ['n', 'a', 'n'] then true
  else
    let whole := rest.takeWhile fun c => c.isDigit || c = '_'
    let tail := rest.drop whole.length
    match decimal? whole, fractionAndExponent? tail with
    | some _, some (fraction, exponent) =>
      let digits := whole.filter Char.isDigit ++ fraction
      !tail.isEmpty && (negative || !isInfinite digits (exponent - fraction.length))
    | _, _ => false

/-! ### Dates and times -/

/-- The number of a field of so many digits. -/
def field? (digits : Nat) (cs : List Char) : Option Nat :=
  if cs.length = digits && cs.all Char.isDigit then some (natOf 10 cs) else none

def daysIn (year month : Nat) : Nat :=
  if month = 2 then
    if year % 4 = 0 && (year % 100 ≠ 0 || year % 400 = 0) then 29 else 28
  else if month = 4 || month = 6 || month = 9 || month = 11 then 30
  else 31

def isDate (cs : List Char) : Bool :=
  match Text.splitAll '-' cs with
  | [y, m, d] =>
    match field? 4 y, field? 2 m, field? 2 d with
    | some year, some month, some day =>
      1 ≤ month && month ≤ 12 && 1 ≤ day && day ≤ daysIn year month
    | _, _, _ => false
  | _ => false

def isClock (cs : List Char) : Bool :=
  match Text.splitAll ':' cs with
  | [h, m] =>
    match field? 2 h, field? 2 m with
    | some hour, some minute => hour ≤ 23 && minute ≤ 59
    | _, _ => false
  | _ => false

def isSeconds (cs : List Char) : Bool :=
  let whole := cs.take 2
  let fraction := match cs.drop 2 with
    | [] => true
    | '.' :: digits => !digits.isEmpty && digits.all Char.isDigit
    | _ => false
  (field? 2 whole).any (· ≤ 60) && fraction

/-- Hours, minutes and seconds. -/
def isTime (cs : List Char) : Bool :=
  isClock (cs.take 5) && cs[5]? = some ':' && isSeconds (cs.drop 6)

def isOffsetTime (cs : List Char) : Bool :=
  isTime cs ||
    (cs.getLast?.any (fun c => c = 'Z' || c = 'z') && isTime cs.dropLast) ||
    (let time := cs.take (cs.length - 6)
     match cs.drop (cs.length - 6) with
     | c :: clock => (c = '+' || c = '-') && isClock clock && isTime time
     | [] => false)

def isDateTime (cs : List Char) : Bool :=
  isDate cs || isTime cs ||
    (isDate (cs.take 10) && (cs[10]? = some 'T' || cs[10]? = some 't') && isOffsetTime (cs.drop 11))

end MakeLint.Toml
