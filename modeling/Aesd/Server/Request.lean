import Aesd.Driver.Device

/-!
# Receiving a request

The receive buffer of a handler is cleared once.  Each `recv` overwrites its
start and leaves the rest as it was, and the test for the seek command and its
parsing look at the whole buffer.
-/

namespace Aesd.Server

open Aesd.Driver

abbrev bufLen : Nat := 1024

/-- What one `recv` delivers before the client has closed its side. -/
abbrev Chunk := { bytes : List Byte // bytes ≠ [] ∧ bytes.length ≤ bufLen }

/-- The cleared receive buffer. -/
def clearedBuffer : List Byte :=
  List.replicate bufLen 0

/-- A received chunk overwrites the start of the buffer. -/
def receiveInto (receiveBuffer chunk : List Byte) : List Byte :=
  chunk ++ receiveBuffer.drop chunk.length

/-- The text `"AESDCHAR_IOCSEEKTO:"`. -/
def ioctlStr : List Byte :=
  [ 'A', 'E', 'S', 'D', 'C', 'H', 'A', 'R', '_', 'I', 'O', 'C', 'S', 'E', 'E', 'K', 'T', 'O',
    ':' ].map fun letter => .ofNat letter.toNat

/-- Whether `strncmp(receive_buffer, ioctl_str, strlen(ioctl_str))` is zero. -/
def startsWithIoctlStr (receiveBuffer : List Byte) : Bool :=
  receiveBuffer.take ioctlStr.length == ioctlStr

/-! ## Parsing the seek command -/

/-- `isspace` in the C locale. -/
def isSpace (byte : Byte) : Bool :=
  byte == 32 || (9 ≤ byte && byte ≤ 13)

def isDigit (byte : Byte) : Bool :=
  48 ≤ byte && byte ≤ 57

/-- The conversion `%d`: white space, an optional sign, digits.  The result is
the number and the rest of the input. -/
def scanDecimal (input : List Byte) : Option (Int × List Byte) :=
  let input := input.dropWhile isSpace
  let negative := input.head? == some 45
  let input := if negative || input.head? == some 43 then input.tail else input
  let digits := input.takeWhile isDigit
  if digits = [] then
    none
  else
    let magnitude : Nat := digits.foldl (fun value digit => 10 * value + (digit.toNat - 48)) 0
    some (if negative then -(magnitude : Int) else magnitude, input.dropWhile isDigit)

/-- The 32 bits that `%d` stores: numbers outside the range of `long` are
clamped to it, and the upper bits are cut off. -/
def storeDecimal (number : Int) : UInt32 :=
  .ofInt (max (-2 ^ 63) (min (2 ^ 63 - 1) number))

/-- `sscanf(..., "AESDCHAR_IOCSEEKTO:%d,%d", ...)` on a string that starts with
the text.  Fields that are not assigned keep what they contained. -/
def sscanfSeekto (string : List Byte) (aesdSeektoData : AesdSeekto) : AesdSeekto :=
  match scanDecimal (string.drop ioctlStr.length) with
  | none => aesdSeektoData
  | some (writeCmd, rest) =>
      let aesdSeektoData := { aesdSeektoData with writeCmd := storeDecimal writeCmd }
      if rest.head? = some 44 then
        match scanDecimal rest.tail with
        | none => aesdSeektoData
        | some (writeCmdOffset, _) =>
            { aesdSeektoData with writeCmdOffset := storeDecimal writeCmdOffset }
      else
        aesdSeektoData

example :
    sscanfSeekto (ioctlStr ++ [49, 50, 44, 51, 10]) ⟨0, 0⟩ = ⟨12, 3⟩ := by decide

end Aesd.Server
