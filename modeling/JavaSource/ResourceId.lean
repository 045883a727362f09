import JavaSource.Text.Numeral

/-!
# Resource identifiers

An identifier packs a package, a type and an entry into 32 bits, in that order from the top, and
is written `0x` with eight digits. Identifiers are ordered as their bits are.
-/
namespace JavaSource

structure ResourceId where
  bits : UInt32
  deriving DecidableEq, Ord, Repr

namespace ResourceId

def ofParts (package type : UInt8) (entry : UInt16) : ResourceId :=
  ⟨package.toUInt32 <<< 24 ||| type.toUInt32 <<< 16 ||| entry.toUInt32⟩

def package (id : ResourceId) : UInt8 := (id.bits >>> 24).toUInt8

def type (id : ResourceId) : UInt8 := (id.bits >>> 16).toUInt8

def entry (id : ResourceId) : UInt16 := id.bits.toUInt16

def text (id : ResourceId) : String :=
  String.ofList ('0' :: 'x' :: Text.fixedDigits 16 8 id.bits.toNat)

end ResourceId

end JavaSource
