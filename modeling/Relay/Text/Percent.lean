import Relay.Text.Hex
import Relay.Text.Utf8

/-!
# Percent encoding

`%` with two hexadecimal digits stands for a byte. A `%` without them stands for itself.
-/

namespace Relay.Text.Percent

/-- The bytes that stand for a text, those before in reverse in `acc`. -/
def decodeFrom (acc : Bytes) : Bytes → Bytes
  | [] => acc.reverse
  | [a] => (a :: acc).reverse
  | [a, b] => (b :: a :: acc).reverse
  | p :: a :: b :: rest =>
    match if p = 0x25 then some (Hex.value? a.toNat, Hex.value? b.toNat) else none with
    | some (some hi, some lo) => decodeFrom (UInt8.ofNat (16 * hi + lo) :: acc) rest
    | _ => decodeFrom (p :: acc) (a :: b :: rest)

/-- The text that is encoded, if it is one. -/
def decode? (s : String) : Option String :=
  (Utf8.toText (decodeFrom [] (Utf8.ofText s))).toOption

end Relay.Text.Percent
