/-
SQL values and their order (`crates/common/src/value.rs`, `interval.rs`, `float.rs`,
`array.rs`; `rust_decimal::Decimal` as documented).

`Value` derives its equality, order and hash, so they are those of the payloads. For four
payloads two different representations compare equal: an interval of one month and one of
thirty days, decimals of different scale, the two zeros and the NaNs of a float, and arrays
that hold such elements. The representation is what is displayed; `cmp` is what keys, hash
tables and sorts go by.
-/

import Mathlib.Tactic.Ring

namespace Saguaro

/-- `common::Interval`. -/
structure Interval where
  months : Int
  days : Int
  micros : Int
  deriving DecidableEq, Repr

namespace Interval

def microsPerDay : Int := 86400000000

def daysPerMonthEstimate : Int := 30

/-- The comparison value in microseconds. -/
def estimate (iv : Interval) : Int :=
  iv.months * daysPerMonthEstimate * microsPerDay + iv.days * microsPerDay + iv.micros

def cmp (a b : Interval) : Ordering := compare a.estimate b.estimate

/-- `plural`: singular only for exactly one. -/
def plural (n : Int) : String := if n = 1 then "" else "s"

/-- Decimal digits, padded with zeros to at least `width`. -/
def padded (width n : Nat) : String :=
  let digits := (Nat.toDigits 10 n)
  String.ofList (List.replicate (width - digits.length) '0' ++ digits)

def formatIntervalTime (micros : Int) : String :=
  let total := micros.natAbs / 1000000
  let fraction := micros.natAbs % 1000000
  let sign := if micros < 0 then "-" else ""
  let clock := sign ++ padded 2 (total / 3600) ++ ":" ++ padded 2 (total % 3600 / 60) ++ ":" ++
    padded 2 (total % 60)
  if fraction = 0 then clock
  else clock ++ "." ++
    String.ofList ((padded 6 fraction).toList.reverse.dropWhile (· == '0')).reverse

/-- `format_interval`. Division and remainder are those of Rust, towards zero. -/
def formatInterval (iv : Interval) : String :=
  let years := iv.months.tdiv 12
  let mons := iv.months.tmod 12
  let parts := (if years = 0 then [] else [toString years ++ " year" ++ plural years]) ++
    (if mons = 0 then [] else [toString mons ++ " mon" ++ plural mons]) ++
    (if iv.days = 0 then [] else [toString iv.days ++ " day" ++ plural iv.days])
  let parts := parts ++ (if iv.micros = 0 ∧ parts ≠ [] then [] else [formatIntervalTime iv.micros])
  " ".intercalate parts

end Interval

/-- `rust_decimal::Decimal`: the number `mantissa / 10 ^ scale`, displayed with `scale`
digits after the point. -/
structure Decimal where
  mantissa : Int
  scale : Nat
  deriving DecidableEq, Repr

/-- Decimals compare by the numbers that they stand for. -/
def Decimal.cmp (a b : Decimal) : Ordering :=
  compare (a.mantissa * 10 ^ b.scale) (b.mantissa * 10 ^ a.scale)

/-- `OrderedF64` and `OrderedF32`: the bits of an IEEE 754 number. -/
structure OrderedFloat (exponent fraction : Nat) where
  bits : BitVec (1 + exponent + fraction)
  deriving DecidableEq, Repr

abbrev OrderedF64 := OrderedFloat 11 52

abbrev OrderedF32 := OrderedFloat 8 23

namespace OrderedFloat

variable {exponent fraction : Nat}

def magnitude (x : OrderedFloat exponent fraction) : Nat := x.bits.toNat % 2 ^ (exponent + fraction)

def isNan (x : OrderedFloat exponent fraction) : Bool :=
  decide ((2 ^ exponent - 1) * 2 ^ fraction < x.magnitude)

/-- A number that orders as the float does when it is not NaN; both zeros have zero. -/
def rank (x : OrderedFloat exponent fraction) : Int :=
  if 2 ^ (exponent + fraction) ≤ x.bits.toNat then -(x.magnitude : Int) else x.magnitude

/-- NaN equals itself and sorts after every number. -/
def cmp (a b : OrderedFloat exponent fraction) : Ordering :=
  match a.isNan, b.isNan with
  | true, true => .eq
  | true, false => .gt
  | false, true => .lt
  | false, false => compare a.rank b.rank

end OrderedFloat

/-- `common::DataType` without arrays, the element types of an array. -/
inductive DataType where
  | integer
  | text
  | boolean
  | date
  | timestamp
  | time
  | timestampTz
  | interval
  | bytea
  | uuid
  | double
  | real
  | numeric (precision : Option Nat) (scale : Nat)
  deriving DecidableEq, Repr

/-- The position of the variant, then its fields; the derived order is that of these lists. -/
def DataType.sortKey : DataType → List Nat
  | integer => [0]
  | text => [1]
  | boolean => [2]
  | date => [3]
  | timestamp => [4]
  | time => [5]
  | timestampTz => [6]
  | interval => [7]
  | bytea => [8]
  | uuid => [9]
  | double => [10]
  | real => [11]
  | numeric none scale => [12, 0, scale]
  | numeric (some precision) scale => [12, 1, precision, scale]

def DataType.cmp (a b : DataType) : Ordering := List.compareLex compare a.sortKey b.sortKey

/-- The variants of `common::Value` that are not arrays. -/
inductive Scalar where
  | null
  | boolean (value : Bool)
  | integer (value : Int)
  | float (value : OrderedF64)
  | real (value : OrderedF32)
  | numeric (value : Decimal)
  | text (value : String)
  | date (days : Int)
  | timestamp (micros : Int)
  | time (micros : Int)
  | timestampTz (micros : Int)
  | interval (value : Interval)
  | bytes (value : List UInt8)
  | uuid (value : List UInt8)
  deriving DecidableEq, Repr

namespace Scalar

/-- The position of the variant in the declaration. -/
def discriminant : Scalar → Nat
  | null => 0
  | boolean _ => 1
  | integer _ => 2
  | float _ => 3
  | real _ => 4
  | numeric _ => 5
  | text _ => 6
  | date _ => 7
  | timestamp _ => 8
  | time _ => 9
  | timestampTz _ => 10
  | interval _ => 11
  | bytes _ => 12
  | uuid _ => 13

/-- The derived order: the variant first, then the payload. -/
def cmp : Scalar → Scalar → Ordering
  | null, null => .eq
  | boolean a, boolean b => compare a b
  | integer a, integer b => compare a b
  | float a, float b => a.cmp b
  | real a, real b => a.cmp b
  | numeric a, numeric b => a.cmp b
  | text a, text b => compare a b
  | date a, date b => compare a b
  | timestamp a, timestamp b => compare a b
  | time a, time b => compare a b
  | timestampTz a, timestampTz b => compare a b
  | interval a, interval b => a.cmp b
  | bytes a, bytes b => List.compareLex compare a b
  | uuid a, uuid b => List.compareLex compare a b
  | a, b => compare a.discriminant b.discriminant

end Scalar

structure ArrayDimension where
  len : Nat
  lowerBound : Int
  deriving DecidableEq, Repr

/-- `common::SqlArray`. The elements are scalars: `SqlArray::new` checks each of them against
the element type, which is never an array type. -/
structure SqlArray where
  elementType : DataType
  dimensions : List ArrayDimension
  elements : List Scalar
  deriving DecidableEq, Repr

def SqlArray.cmp (a b : SqlArray) : Ordering := (a.elementType.cmp b.elementType).then <|
  (List.compareLex Scalar.cmp a.elements b.elements).then <|
  (compare a.elements.length b.elements.length).then <|
  (compare a.dimensions.length b.dimensions.length).then <|
  (List.compareLex compare (a.dimensions.map (·.len)) (b.dimensions.map (·.len))).then <|
  List.compareLex compare (a.dimensions.map (·.lowerBound)) (b.dimensions.map (·.lowerBound))

/-- `common::Value`. -/
inductive Value where
  | scalar (value : Scalar)
  | array (value : SqlArray)
  deriving DecidableEq, Repr

namespace Value

abbrev null : Value := .scalar .null

abbrev boolean (value : Bool) : Value := .scalar (.boolean value)

abbrev integer (value : Int) : Value := .scalar (.integer value)

abbrev numeric (value : Decimal) : Value := .scalar (.numeric value)

abbrev interval (value : Interval) : Value := .scalar (.interval value)

/-- The derived order; arrays are the last variant. -/
def cmp : Value → Value → Ordering
  | scalar a, scalar b => a.cmp b
  | scalar _, array _ => .lt
  | array _, scalar _ => .gt
  | array a, array b => a.cmp b

end Value

/-- The order of `Vec<Value>`. -/
def keyCmp : List Value → List Value → Ordering := List.compareLex Value.cmp

/-- The equality of `Vec<Value>`, which is what a hash map with such keys goes by: each
payload's equality is its order's. -/
def keyEq (a b : List Value) : Bool := keyCmp a b == .eq

structure Row where
  values : List Value
  deriving DecidableEq, Repr

/-- `common::RowIdentity`: the place, the creator and the key of a stored row version. -/
structure RowIdentity where
  page : Nat
  slot : Nat
  xmin : Nat
  key : List Value
  deriving DecidableEq, Repr

structure ExecRow where
  row : Row
  identity : Option RowIdentity
  deriving DecidableEq, Repr

end Saguaro
