import Aesd.Memory.Heap
import Mathlib.Algebra.Order.Ring.Int

/-!
# Kernel services used by the driver

Integer types, error numbers and the contracts of the kernel functions that the
driver calls.  `size_t` and `loff_t` are the 64-bit types; the allocator and
the user copies are steered by the outcomes an environment chooses for each
call.
-/

namespace Aesd.Driver

open Aesd.Memory

abbrev Byte := UInt8

/-- The line delimiter `'\n'`. -/
def newline : Byte := 10

/-! ## Integer types -/

/-- Addition of `size_t` values. -/
def addSize (a b : Nat) : Nat :=
  (a + b) % 2 ^ 64

/-- Subtraction of `size_t` values. -/
def subSize (a b : Nat) : Nat :=
  (a + (2 ^ 64 - b)) % 2 ^ 64

/-- Conversion of a `loff_t` to `size_t`. -/
def toSize (position : Int) : Nat :=
  (position % 2 ^ 64).toNat

/-- Two's-complement wrap-around of a `loff_t`. -/
def toLoff (position : Int) : Int :=
  position.bmod (2 ^ 64)

theorem addSize_eq {a b : Nat} (fits : a + b < 2 ^ 64) : addSize a b = a + b :=
  Nat.mod_eq_of_lt fits

theorem subSize_eq {a b : Nat} (fits : a < 2 ^ 64) (ordered : b ≤ a) :
    subSize a b = a - b := by
  rw [subSize, show a + (2 ^ 64 - b) = a - b + 2 ^ 64 by omega, Nat.add_mod_right]
  exact Nat.mod_eq_of_lt (by omega)

theorem toSize_natCast {n : Nat} (fits : n < 2 ^ 64) : toSize n = n := by
  unfold toSize
  omega

theorem toSize_lt (position : Int) : toSize position < 2 ^ 64 := by
  unfold toSize
  omega

theorem toSize_add {position : Int} {n : Nat} (fits : toSize position + n < 2 ^ 64) :
    toSize (position + n) = toSize position + n := by
  unfold toSize at fits ⊢
  omega

theorem toLoff_natCast {n : Nat} (fits : n < 2 ^ 63) : toLoff n = n := by
  unfold toLoff
  rw [Int.bmod_eq_of_le] <;> omega

/-! ## Error numbers -/

def enomem : Int := 12
def efault : Int := 14
def einval : Int := 22
def enotty : Int := 25
def erestartsys : Int := 512

/-! ## Memory -/

/-- The largest request that `kmalloc` can meet, far below the range of
`size_t`. -/
abbrev KmallocMaxSize := { size : Nat // size < 2 ^ 32 }

abbrev kmalloc (grant : Grant Byte) (heap : Heap Byte) (size : Nat) : Pointer × Heap Byte :=
  heap.malloc grant size

abbrev krealloc (grant : Grant Byte) (heap : Heap Byte) (pointer : Pointer) (size : Nat) :
    Option (Pointer × Heap Byte) :=
  heap.realloc grant pointer size

abbrev kfree (heap : Heap Byte) (pointer : Pointer) : Option (Heap Byte) :=
  heap.free pointer

/-- Copy `size` bytes from the start of one block into another. -/
def memcpy (heap : Heap Byte) (target : Pointer) (offset : Nat) (source : Pointer)
    (size : Nat) : Option (Heap Byte) :=
  (heap.load source 0 size).bind fun bytes => heap.store target offset bytes

/-- Whether a user copy of `size` bytes leaves some of them uncopied. -/
def copyFails (succeeds : Bool) (size : Nat) : Bool :=
  !succeeds && size != 0

/-! ## Seeking -/

/-- The `whence` argument of a seek. -/
inductive Whence where
  | seekSet
  | seekCur
  | seekEnd
  | other
  deriving DecidableEq, Repr

/-- Accept a target position between zero and `maxsize`; the result is the
return value and the new file position. -/
def vfsSetpos (fPos offset maxsize : Int) : Int × Int :=
  if offset < 0 ∨ maxsize < offset then (-einval, fPos) else (offset, offset)

/-- Seek in a file of fixed size. -/
def fixedSizeLlseek (fPos offset : Int) (whence : Whence) (size : Int) : Int × Int :=
  match whence with
  | .seekSet => vfsSetpos fPos offset size
  | .seekCur =>
      if offset = 0 then (fPos, fPos) else vfsSetpos fPos (toLoff (fPos + offset)) size
  | .seekEnd => vfsSetpos fPos (toLoff (offset + size)) size
  | .other => (-einval, fPos)

end Aesd.Driver
