import Mathlib.Algebra.Order.Field.Rat
import Mathlib.Data.Nat.Digits.Defs
import Mathlib.Data.Rat.Floor

/-!
# Shared helpers

`Ema`, `RingBuffer` and `generateId` of `packages/shared`, the number formatting the
policy reasons use, and the UTF-16 code units the string hashes run over.  Numbers are
exact rationals where the source has floating point.
-/

namespace FlowCache

/-- `Ema`: an exponential moving average. -/
structure Ema where
  alpha : Rat
  value : Option Rat
  alpha_pos : 0 < alpha
  alpha_le_one : alpha ≤ 1

namespace Ema

/-- `update(sample)`, which also returns the new average. -/
def update (ema : Ema) (sample : Rat) : Rat × Ema :=
  let average :=
    match ema.value with
    | none => sample
    | some value => ema.alpha * sample + (1 - ema.alpha) * value
  (average, { ema with value := some average })

/-- `get()`. -/
def get (ema : Ema) : Rat := ema.value.getD 0

/-- `reset()`. -/
def reset (ema : Ema) : Ema := { ema with value := none }

end Ema

/-- `RingBuffer`: the newest `capacity` items, in the order of their slots. -/
structure RingBuffer (Item : Type) where
  buf : List Item
  cursor : Nat
  capacity : Nat
  cursor_lt : cursor < capacity
  length_le : buf.length ≤ capacity

namespace RingBuffer

variable {Item : Type}

/-- `new RingBuffer(capacity)`. -/
def create (capacity : Nat) (positive : 0 < capacity) : RingBuffer Item :=
  ⟨[], 0, capacity, positive, Nat.zero_le _⟩

/-- `push(item)`. -/
def push (buffer : RingBuffer Item) (item : Item) : RingBuffer Item where
  buf :=
    if buffer.buf.length < buffer.capacity then buffer.buf ++ [item]
    else buffer.buf.set buffer.cursor item
  cursor := (buffer.cursor + 1) % buffer.capacity
  capacity := buffer.capacity
  cursor_lt := Nat.mod_lt _ (Nat.zero_lt_of_lt buffer.cursor_lt)
  length_le := by
    split
    · next room =>
        rw [List.length_append, List.length_singleton]
        exact room
    · simpa using buffer.length_le

/-- `toArray()`. -/
def toArray (buffer : RingBuffer Item) : List Item := buffer.buf

/-- `length`. -/
def length (buffer : RingBuffer Item) : Nat := buffer.buf.length

/-- `clear()`. -/
def clear (buffer : RingBuffer Item) : RingBuffer Item where
  buf := []
  cursor := 0
  capacity := buffer.capacity
  cursor_lt := Nat.zero_lt_of_lt buffer.cursor_lt
  length_le := Nat.zero_le _

end RingBuffer

/-- A loop that counts the items with a property. -/
theorem foldl_count {Item : Type} (test : Item → Bool) (items : List Item) (start : Nat) :
    items.foldl (fun count item => if test item then count + 1 else count) start =
      start + items.countP test := by
  induction items generalizing start with
  | nil => simp
  | cons item rest ih =>
      rw [List.foldl_cons, ih, List.countP_cons]
      split <;> omega

/-- The decimal digits of a number, at least `width` of them. -/
def padDigits (width number : Nat) : List Char :=
  let digits := Nat.toDigits 10 number
  List.replicate (width - digits.length) '0' ++ digits

/-- `value.toFixed(digits)`: the nearest decimal, the larger one of two. -/
def toFixed (value : Rat) (digits : Nat) : String :=
  let scaled : Nat := (⌊|value| * 10 ^ digits + 1 / 2⌋).toNat
  let text := padDigits (digits + 1) scaled
  let whole := String.ofList (text.take (text.length - digits))
  let fraction := String.ofList (text.drop (text.length - digits))
  (if value < 0 then "-" else "") ++
    (if digits = 0 then whole else whole ++ "." ++ fraction)

/-! ## Ids -/

/-- A digit in radix 36. -/
def radix36Digit (digit : Nat) : Char :=
  if digit < 10 then Char.ofNat (48 + digit) else Char.ofNat (87 + digit)

/-- `value.toString(36)` of an integer. -/
def toRadix36 (value : Int) : List Char :=
  let digits :=
    if value = 0 then ['0'] else ((Nat.digits 36 value.natAbs).map radix36Digit).reverse
  if value < 0 then '-' :: digits else digits

/-- `Math.random().toString(36)` of the number with the given digits after the point. -/
def randomText (fraction : List (Fin 36)) : List Char :=
  if fraction = [] then ['0']
  else '0' :: '.' :: fraction.map fun digit => radix36Digit digit.val

/-- `generateId(label)`, which also counts.  `now` is `Date.now()`, `fraction` has the
digits of `Math.random()`. -/
def generateId (label : String) (now : Int) (counter : Nat) (fraction : List (Fin 36)) :
    String × Nat :=
  let counter := (counter + 1) % 9007199254740991
  let rand := ((randomText fraction).take 8).drop 2
  (String.ofList (label.toList ++ '_' :: toRadix36 now ++ '_' :: toRadix36 counter ++
    '_' :: rand), counter)

/-- The UTF-16 code units of a character. -/
def utf16Units (character : Char) : List UInt32 :=
  if character.val < 0x10000 then
    [character.val]
  else
    let offset := character.val - 0x10000
    [(0xD800 : UInt32) + (offset >>> 10), (0xDC00 : UInt32) + (offset &&& 0x3FF)]

end FlowCache
