/-
  RouteAtlas: decimal numerals.

  A whole number is written with decimal digits of any script (Unicode 14), a sign before them if
  wanted, single underscores between digits, and blanks around the whole; the information separators
  are no such blanks.

  * `readInt` reads such a numeral; `NumeralFault.message` says why a text is none.
-/
import RouteAtlas.Text.Blank
import RouteAtlas.Text.Quoted

namespace RouteAtlas.Text

/-- The code points of the digit zero, one for each run of ten decimal digits. -/
def zeroDigits : List Nat :=
  [
    48, 1632, 1776, 1984, 2406, 2534, 2662, 2790, 2918, 3046, 3174, 3302, 3430, 3558, 3664,
    3792, 3872, 4160, 4240, 6112, 6160, 6470, 6608, 6784, 6800, 6992, 7088, 7232, 7248, 42528,
    43216, 43264, 43472, 43504, 43600, 44016, 65296, 66720, 68912, 69734, 69872, 69942, 70096,
    70384, 70736, 70864, 71248, 71360, 71472, 71904, 72016, 72784, 73040, 73120, 92768, 92864,
    93008, 120782, 120792, 120802, 120812, 120822, 123200, 123632, 125264, 130032
  ]

/-- The value of a decimal digit of any script. -/
def digitValue? (c : Char) : Option Nat :=
  (zeroDigits.find? fun base => decide (base ≤ c.toNat) && decide (c.toNat < base + 10)).map
    fun base => c.toNat - base

/-- The digits of a numeral without sign: digits, with at most one underscore between any two. -/
def digitGroup : List Char → Option (List Nat)
  | [] => none
  | [c] => (digitValue? c).map fun d => [d]
  | c :: '_' :: rest => (digitValue? c).bind fun d => (digitGroup rest).map (d :: ·)
  | c :: rest => (digitValue? c).bind fun d => (digitGroup rest).map (d :: ·)

/-- The number with the given decimal digits, the highest first. -/
def ofDigits (digits : List Nat) : Nat :=
  digits.foldl (fun value digit => 10 * value + digit) 0

/-- Why a text is no whole number. -/
inductive NumeralFault where
  /-- The text is not a numeral. -/
  | malformed (text : String)
  /-- The numeral has more digits than are read. -/
  | tooLong (digits : Nat)
  deriving DecidableEq, Repr

/-- The most digits that a numeral may have. -/
def digitLimit : Nat := 4300

/-- The most characters of a malformed text that are shown, its quotes included. -/
def shownLimit : Nat := 200

/-- What is reported for a text that is no whole number. -/
def NumeralFault.message : NumeralFault → String
  | .malformed text =>
    "invalid literal for int() with base 10: " ++ .ofList ((quoted text).toList.take shownLimit)
  | .tooLong digits =>
    "Exceeds the limit (" ++ toString digitLimit ++ " digits) for integer string conversion: value has "
      ++ toString digits ++ " digits; use sys.set_int_max_str_digits() to increase the limit"

/-- The numeral without its sign, and whether the sign is a minus. -/
def splitSign : List Char → Bool × List Char
  | '-' :: rest => (true, rest)
  | '+' :: rest => (false, rest)
  | cs => (false, cs)

/-- The blanks that may stand around a numeral. -/
def isPadding (c : Char) : Bool :=
  isBlank c && !(decide (28 ≤ c.toNat) && decide (c.toNat ≤ 31))

/-- The characters between the padding at both ends. -/
def unpadded (cs : List Char) : List Char :=
  ((cs.dropWhile isPadding).reverse.dropWhile isPadding).reverse

/-- The whole number that a text denotes. -/
def readInt (s : String) : Except NumeralFault Int :=
  let (negative, body) := splitSign (unpadded s.toList)
  match digitGroup body with
  | none => .error (.malformed s)
  | some digits =>
    if digits.length > digitLimit then .error (.tooLong digits.length)
    else .ok (if negative then -(ofDigits digits : Int) else (ofDigits digits : Int))

end RouteAtlas.Text
