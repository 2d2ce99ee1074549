import FlowCache.Library.BinaryFloat
import FlowCache.Library.PercentEncoding

/-!
# Numbers

The numbers of the language, which are those of the 64-bit binary format with two
infinities and `NaN`, and `Number(text)`.
-/

namespace FlowCache

open BinaryFloat

/-- A number: `NaN`, an infinity or a finite one. -/
inductive JsNumber where
  | nan
  | infinity (negative : Bool)
  | finite (value : Rat)
  deriving DecidableEq, Repr

namespace JsNumber

/-- The number a value rounds to; zero has one sign. -/
def ofRat (value : Rat) : JsNumber :=
  if binary64.Overflows value then
    .infinity (value < 0)
  else
    .finite (binary64.nearest value)

/-- `first + second`. -/
def add : JsNumber → JsNumber → JsNumber
  | .nan, _ => .nan
  | _, .nan => .nan
  | .infinity negative, .infinity other =>
      if negative = other then .infinity negative else .nan
  | .infinity negative, .finite _ => .infinity negative
  | .finite _, .infinity negative => .infinity negative
  | .finite value, .finite other => ofRat (value + other)

/-- `first * second`. -/
def mul : JsNumber → JsNumber → JsNumber
  | .nan, _ => .nan
  | _, .nan => .nan
  | .infinity negative, .infinity other => .infinity (negative != other)
  | .infinity negative, .finite value =>
      if value = 0 then .nan else .infinity (negative != (value < 0))
  | .finite value, .infinity negative =>
      if value = 0 then .nan else .infinity (negative != (value < 0))
  | .finite value, .finite other => ofRat (value * other)

/-- `first / second`. -/
def div : JsNumber → JsNumber → JsNumber
  | .nan, _ => .nan
  | _, .nan => .nan
  | .infinity _, .infinity _ => .nan
  | .infinity negative, .finite value => .infinity (negative != (value < 0))
  | .finite _, .infinity _ => .finite 0
  | .finite value, .finite other =>
      if other = 0 then
        if value = 0 then .nan else .infinity (value < 0)
      else
        ofRat (value / other)

/-- `Math.max(first, second)`. -/
def max : JsNumber → JsNumber → JsNumber
  | .nan, _ => .nan
  | _, .nan => .nan
  | .infinity true, other => other
  | .infinity false, _ => .infinity false
  | other, .infinity true => other
  | _, .infinity false => .infinity false
  | .finite value, .finite other => .finite (Max.max value other)

/-- `first < second`. -/
def lt : JsNumber → JsNumber → Bool
  | .nan, _ => false
  | _, .nan => false
  | .infinity true, other => other ≠ .infinity true
  | .infinity false, _ => false
  | .finite _, .infinity negative => !negative
  | .finite value, .finite other => value < other

end JsNumber

/-! ## Texts -/

/-- White space and line terminators. -/
def isJsWhitespace (char : Char) : Bool :=
  let code := char.toNat
  code ∈ [0x09, 0x0A, 0x0B, 0x0C, 0x0D, 0x20, 0xA0, 0x1680, 0x2028, 0x2029, 0x202F, 0x205F,
    0x3000, 0xFEFF] || (0x2000 ≤ code && code ≤ 0x200A)

/-- `text.trim()`. -/
def jsTrim (text : List Char) : List Char :=
  ((text.dropWhile isJsWhitespace).reverse.dropWhile isJsWhitespace).reverse

/-- A non-empty run of digits. -/
def digitsValue (radix : Nat) : List Char → Option Nat
  | [] => none
  | digits =>
      digits.foldlM (fun value digit =>
        ((PercentEncoding.hexValue digit).filter (· < radix)).map (radix * value + ·)) 0

/-- Digits with an optional fraction, at least one digit in all. -/
def decimalMantissa (text : List Char) : Option Rat :=
  let whole := text.takeWhile Char.isDigit
  match text.dropWhile Char.isDigit with
  | [] => (digitsValue 10 whole).map fun value => (value : Rat)
  | '.' :: fraction =>
      (digitsValue 10 (whole ++ fraction)).map fun value =>
        (value : Rat) / 10 ^ fraction.length
  | _ => none

/-- The digits after `e`, with an optional sign. -/
def decimalExponent : List Char → Option Int
  | '-' :: digits => (digitsValue 10 digits).map fun value => -(value : Int)
  | '+' :: digits => (digitsValue 10 digits).map fun value => (value : Int)
  | digits => (digitsValue 10 digits).map fun value => (value : Int)

/-- A decimal number without a sign. -/
def unsignedDecimal (text : List Char) : Option Rat :=
  let isExponentMark := fun char => char = 'e' || char = 'E'
  match text.dropWhile fun char => !isExponentMark char with
  | [] => decimalMantissa text
  | _ :: exponent =>
      (decimalMantissa (text.takeWhile fun char => !isExponentMark char)).bind fun mantissa =>
        (decimalExponent exponent).map fun power => mantissa * (10 : Rat) ^ power

/-- A decimal number or `Infinity`, after its sign. -/
def signedDecimal (negative : Bool) (text : List Char) : JsNumber :=
  if text = "Infinity".toList then
    .infinity negative
  else
    match unsignedDecimal text with
    | none => .nan
    | some value => .ofRat (if negative then -value else value)

/-- Digits after one of the prefixes `0x`, `0o` and `0b`. -/
def radixInteger (radix : Nat) (digits : List Char) : JsNumber :=
  match digitsValue radix digits with
  | none => .nan
  | some value => .ofRat value

/-- `Number(text)`. -/
def jsNumber (text : String) : JsNumber :=
  match jsTrim text.toList with
  | [] => .finite 0
  | '0' :: 'x' :: digits => radixInteger 16 digits
  | '0' :: 'X' :: digits => radixInteger 16 digits
  | '0' :: 'o' :: digits => radixInteger 8 digits
  | '0' :: 'O' :: digits => radixInteger 8 digits
  | '0' :: 'b' :: digits => radixInteger 2 digits
  | '0' :: 'B' :: digits => radixInteger 2 digits
  | '-' :: digits => signedDecimal true digits
  | '+' :: digits => signedDecimal false digits
  | digits => signedDecimal false digits

end FlowCache
