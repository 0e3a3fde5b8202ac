/-!
# Checksums

The 64-bit Fowler–Noll–Vo checksum: every byte is first put into the low bits and then spread by a
multiplication.
-/

namespace Candela.Text

/-- The checksum of some bytes. -/
def checksum (bytes : ByteArray) : UInt64 :=
  bytes.foldl (fun h b => (h ^^^ b.toUInt64) * 0x100000001b3) 0xcbf29ce484222325

/-- Digits of a number to the base sixteen, at least as many as given. -/
def hex (width n : Nat) : String :=
  let digits := Nat.toDigits 16 n
  String.ofList (List.replicate (width - digits.length) '0' ++ digits)

/-- Bytes as pairs of digits to the base sixteen. -/
def hexBytes (bytes : List UInt8) : String := String.join (bytes.map fun b => hex 2 b.toNat)

end Candela.Text
