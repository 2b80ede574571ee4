import Mathlib.Algebra.Group.Nat.Defs
import Mathlib.Data.List.Basic

/-!
# Oxicast.Json

`serde_json::Value`, as far as the client reads and builds it: the value tree,
field access (`get`), the typed views (`as_str`, `as_u64`, …) and the numbers
behind them.

Floating-point numbers are kept as their IEEE 754 bit patterns (`F64`, `F32`);
the conversions the client applies to them (`as f64`, `as f32`, `> 0.0`) are
computed on the bits, so a status parsed from JSON is the one the device sent.

Reading and printing JSON text is `serde_json`'s own business and is a
parameter (`SerdeJson`).
-/

namespace Oxicast

/-! ## IEEE 754 numbers -/

/-- An `f64`, by its bits. -/
structure F64 where
  bits : UInt64
  deriving DecidableEq, Repr

/-- An `f32`, by its bits. -/
structure F32 where
  bits : UInt32
  deriving DecidableEq, Repr

/-- Drop the low `shift` bits of `n`, rounding to nearest, ties to even. -/
def roundShift (n shift : Nat) : Nat :=
  let q := n >>> shift
  let r := n % 2 ^ shift
  let half := 2 ^ shift / 2
  if shift = 0 then n
  else if half < r ∨ (r = half ∧ q % 2 = 1) then q + 1
  else q

namespace F64

/-- The biased exponent field. -/
def expField (x : F64) : Nat := (x.bits.toNat >>> 52) % 2 ^ 11

/-- The fraction field. -/
def fraction (x : F64) : Nat := x.bits.toNat % 2 ^ 52

/-- The sign bit. -/
def sign (x : F64) : Bool := 2 ^ 63 ≤ x.bits.toNat

/-- `is_finite`. -/
def isFinite (x : F64) : Bool := x.expField ≠ 2 ^ 11 - 1

/-- `is_nan`. -/
def isNan (x : F64) : Bool := x.expField = 2 ^ 11 - 1 ∧ x.fraction ≠ 0

/-- `x > 0.0`. -/
def gtZero (x : F64) : Bool := !x.isNan && !x.sign && x.bits ≠ 0

/-- `n as f64` for an unsigned magnitude of at most 64 bits, rounded to nearest. -/
def ofMagnitude (n : Nat) : F64 :=
  if n = 0 then ⟨0⟩
  else
    let e := Nat.log2 n
    let significand := if e ≤ 52 then n <<< (52 - e) else roundShift n (e - 52)
    -- a significand rounded up to `2 ^ 53` carries into the exponent field
    ⟨UInt64.ofNat ((e + 1023) * 2 ^ 52 + (significand - 2 ^ 52))⟩

/-- `n as f64` for a `u64`. -/
def ofU64 (n : UInt64) : F64 := ofMagnitude n.toNat

/-- `n as f64` for an `i64`. -/
def ofI64 (n : Int64) : F64 :=
  if n.toInt < 0 then ⟨(ofMagnitude n.toInt.natAbs).bits + 0x8000000000000000⟩
  else ofMagnitude n.toInt.natAbs

/-- The constant `0.0`. -/
def zero : F64 := ⟨0⟩

/-- The constant `1.0`. -/
def one : F64 := ⟨0x3ff0000000000000⟩

/-- `x as f32`, rounded to nearest. -/
def toF32 (x : F64) : F32 :=
  let sign := if x.sign then 2 ^ 31 else 0
  let magnitude :=
    if x.isNan then 0x7fc00000
    else if x.expField = 2 ^ 11 - 1 ∨ 1023 + 127 < x.expField then 0x7f800000
    else if 1023 - 126 ≤ x.expField then
      (x.expField - 896) * 2 ^ 23 + (roundShift (2 ^ 52 + x.fraction) 29 - 2 ^ 23)
    else if x.expField = 0 then 0
    else roundShift (2 ^ 52 + x.fraction) (29 + (897 - x.expField))
  ⟨UInt32.ofNat (sign + magnitude)⟩

end F64

namespace F32

/-- The biased exponent field. -/
def expField (x : F32) : Nat := (x.bits.toNat >>> 23) % 2 ^ 8

/-- The fraction field. -/
def fraction (x : F32) : Nat := x.bits.toNat % 2 ^ 23

/-- The sign bit. -/
def sign (x : F32) : Bool := 2 ^ 31 ≤ x.bits.toNat

/-- `is_nan`. -/
def isNan (x : F32) : Bool := x.expField = 2 ^ 8 - 1 ∧ x.fraction ≠ 0

/-- `x.clamp(0.0, 1.0)`; NaN and `-0.0` are neither below nor above the range. -/
def clampUnit (x : F32) : F32 :=
  if x.isNan then x
  else if x.sign ∧ x.bits ≠ 0x80000000 then ⟨0⟩
  else if !x.sign ∧ 0x3f800000 < x.bits then ⟨0x3f800000⟩
  else x

/-- `x as f64`, which is exact. -/
def toF64 (x : F32) : F64 :=
  let sign := if x.sign then 2 ^ 63 else 0
  let magnitude :=
    if x.expField = 2 ^ 8 - 1 then (2 ^ 11 - 1) * 2 ^ 52 + x.fraction * 2 ^ 29
    else if x.expField ≠ 0 then (x.expField + 896) * 2 ^ 52 + x.fraction * 2 ^ 29
    else if x.fraction = 0 then 0
    else
      -- a subnormal `fraction * 2 ^ (-149)` is normal as an `f64`
      let e := Nat.log2 x.fraction
      (e + 874) * 2 ^ 52 + ((x.fraction <<< (52 - e)) - 2 ^ 52)
  ⟨UInt64.ofNat (sign + magnitude)⟩

end F32

/-! ## the value tree -/

/-- `serde_json::Number`: an unsigned, a negative or a floating-point number. -/
inductive Number where
  | posInt (n : UInt64)
  | negInt (n : Int64)
  | float (x : F64)
  deriving DecidableEq, Repr

/-- `serde_json::Value`.  An object is the list of its members. -/
inductive Json where
  | null
  | bool (b : Bool)
  | number (n : Number)
  | string (s : String)
  | array (items : List Json)
  | object (members : List (String × Json))

namespace Json

/-- `Value::get` with a key: the member of an object, `None` of anything else. -/
def get (key : String) : Json → Option Json
  | .object members => members.lookup key
  | _ => none

/-- `Value::as_str`. -/
def asStr : Json → Option String
  | .string s => some s
  | _ => none

/-- `Value::as_bool`. -/
def asBool : Json → Option Bool
  | .bool b => some b
  | _ => none

/-- `Value::as_array`. -/
def asArray : Json → Option (List Json)
  | .array items => some items
  | _ => none

/-- `Value::as_u64`: only unsigned integers are. -/
def asU64 : Json → Option UInt64
  | .number (.posInt n) => some n
  | _ => none

/-- `Value::as_i64`: integers in the range of `i64`. -/
def asI64 : Json → Option Int64
  | .number (.posInt n) => if n.toNat < 2 ^ 63 then some (Int64.ofNat n.toNat) else none
  | .number (.negInt n) => some n
  | _ => none

/-- `Value::as_f64`: every number, integers converted. -/
def asF64 : Json → Option F64
  | .number (.posInt n) => some (.ofU64 n)
  | .number (.negInt n) => some (.ofI64 n)
  | .number (.float x) => some x
  | _ => none

/-- `json!(id)` for a `u32`. -/
def ofU32 (n : UInt32) : Json := .number (.posInt n.toUInt64)

/-- `json!(id)` for an `i32`. -/
def ofI32 (n : Int32) : Json :=
  if 0 ≤ n.toInt then .number (.posInt (UInt64.ofNat n.toInt.toNat))
  else .number (.negInt n.toInt64)

/-- `json!(x)` for an `f64`: a number, or `null` when it is not finite. -/
def ofF64 (x : F64) : Json := if x.isFinite then .number (.float x) else .null

/-- `json!(x)` for an `f32`: converted to `f64` first. -/
def ofF32 (x : F32) : Json := ofF64 x.toF64

end Json

/-- Reading and printing JSON text: `serde_json::from_str::<Value>` and
`Value::to_string`. -/
structure SerdeJson where
  fromStr : String → Option Json
  toString : Json → String

namespace Json

/-- A member before the first one with a larger key. -/
def insertMember (m : String × String) : List (String × String) → List (String × String)
  | [] => [m]
  | x :: xs => if m.1 ≤ x.1 then m :: x :: xs else x :: insertMember m xs

mutual

/-- The compact text, members by key, of a document without fractions and
without characters that need an escape. -/
def compact : Json → String
  | .null => "null"
  | .bool b => if b then "true" else "false"
  | .number (.posInt n) => n.toNat.repr
  | .number (.negInt n) => "-" ++ n.toInt.natAbs.repr
  | .number (.float _) => "null"
  | .string s => "\"" ++ s ++ "\""
  | .array items => "[" ++ ",".intercalate (compactItems items) ++ "]"
  | .object members =>
      let sorted := (compactMembers members).foldr insertMember []
      "\x7b" ++ ",".intercalate (sorted.map fun m => "\"" ++ m.1 ++ "\":" ++ m.2) ++ "\x7d"

def compactItems : List Json → List String
  | [] => []
  | item :: items => item.compact :: compactItems items

def compactMembers : List (String × Json) → List (String × String)
  | [] => []
  | (key, value) :: members => (key, value.compact) :: compactMembers members

end

end Json

/-- JSON text in a world with one document to read. -/
def SerdeJson.ofText (text : String) (json : Json) : SerdeJson where
  fromStr t := if t = text then some json else none
  toString := Json.compact

/-- JSON text in a world with a few documents to read. -/
def SerdeJson.ofTexts (docs : List (String × Json)) : SerdeJson where
  fromStr t := docs.lookup t
  toString := Json.compact

@[simp] theorem SerdeJson.fromStr_ofText (text : String) (json : Json) :
    (ofText text json).fromStr text = some json := if_pos rfl

end Oxicast
