import NewProxy.Packet
import Mathlib.Data.List.DropRight

/-!
# Texts

The parts of the standard library's string functions that configuration and
kernel files are read with. A text is the list of its characters.
-/
namespace NewProxy

abbrev Text := List Char

namespace Text

/-- Unicode `White_Space`. -/
def isWhitespace (c : Char) : Bool :=
  let code := c.toNat
  9 ≤ code && code ≤ 13 || code = 0x20 || code = 0x85 || code = 0xa0 || code = 0x1680 ||
    0x2000 ≤ code && code ≤ 0x200a || code = 0x2028 || code = 0x2029 || code = 0x202f ||
    code = 0x205f || code = 0x3000

def trim (text : Text) : Text := (text.dropWhile isWhitespace).rdropWhile isWhitespace

/-- `str::split_once`, at the first separator. -/
def splitOnce (separator : Char) (text : Text) : Option (Text × Text) :=
  if separator ∈ text then
    some (text.takeWhile (· ≠ separator), (text.dropWhile (· ≠ separator)).tail)
  else none

/-- The digits of `u16::from_str`, from the left; each step must stay in range. -/
def parseDigits : Text → ℕ → Option UInt16
  | [], value => some (.ofNat value)
  | c :: rest, value =>
    if '0' ≤ c ∧ c ≤ '9' then
      let value := value * 10 + (c.toNat - 48)
      if value < 65536 then parseDigits rest value else none
    else none

/-- `u16::from_str`: one plus sign may precede the digits. -/
def parseU16 : Text → Option UInt16
  | [] => none
  | ['+'] => none
  | '+' :: digits => parseDigits digits 0
  | digits => parseDigits digits 0

def decimal (n : UInt16) : Text := Nat.toDigits 10 n.toNat

end Text

end NewProxy
