import Mathlib.Tactic

/-!
# Java values the model shares

References that may be null, 32-bit `int`, strings as UTF-16 code units, and
the hash codes of `String` and of argument arrays that the library builds its
keys from.
-/

namespace JSEngine.Java

/-- A reference of type `α`, `none` for `null`. -/
abbrev JRef (α : Type*) := Option α

/-- The bits of an `int`. -/
abbrev JInt := BitVec 32

/-- The value an `int` computation leaves, reduced to `[−2³¹, 2³¹)`. -/
def toInt (x : ℤ) : ℤ := Int.bmod x (2 ^ 32)

/-- A `java.lang.String`: any sequence of UTF-16 code units. -/
abbrev JString := List (BitVec 16)

/-- The UTF-16 code units of one character. -/
def utf16 (c : Char) : JString :=
  if c.toNat < 0x10000 then [BitVec.ofNat 16 c.toNat]
  else
    [BitVec.ofNat 16 (0xD800 + (c.toNat - 0x10000) / 0x400),
      BitVec.ofNat 16 (0xDC00 + (c.toNat - 0x10000) % 0x400)]

/-- A string literal of the source. -/
def jstr (s : String) : JString := s.toList.flatMap utf16

/-- `String.hashCode()`: `s[0]·31^(n−1) + … + s[n−1]` in `int` arithmetic. -/
def stringHash (s : JString) : JInt := s.foldl (fun h c => 31#32 * h + c.setWidth 32) 0

/-- `Integer.rotateLeft(x, distance)`; only the low five bits of `distance`
    count. -/
def rotateLeft (x : JInt) (distance : ℕ) : JInt := x.rotateLeft (distance % 32)

/-- A thrown Java exception: its class and message. -/
structure Throwable where
  className : String
  message : String
  deriving DecidableEq, Repr

/-- A class with hash codes: `o.hashCode()`. -/
class HashCode (α : Type*) where
  hashCode : α → JInt

export HashCode (hashCode)

instance : HashCode JString := ⟨stringHash⟩

/-- `o == null ? 0 : o.hashCode()`. -/
def nullableHash {α : Type*} [HashCode α] (o : JRef α) : JInt :=
  match o with
  | none => 0
  | some o => hashCode o

/-- Two strings of one hash code. -/
example : stringHash (jstr "Aa") = stringHash (jstr "BB") := by decide

end JSEngine.Java
