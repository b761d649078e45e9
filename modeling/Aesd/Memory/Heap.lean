import Mathlib.Data.List.Infix
import Mathlib.Logic.Function.Basic

/-!
# Block heaps with a fallible allocator

A heap maps block identifiers to the cells of live blocks.  Identifiers are
never reused, and no block exceeds the allocator's size limit; both facts are
fields of the heap.  Accesses through a dead block, or outside a live one, have
no result.
-/

namespace Aesd.Memory

universe u

/-- A pointer as an allocator hands it out.  `empty` is the non-null pointer of
a request for zero cells; it owns nothing. -/
inductive Pointer where
  | null
  | empty
  | block (id : Nat)
  deriving DecidableEq, Repr

/-- How the environment meets one allocation request: whether it is granted,
whether a reallocation moves the block, and what new cells contain. -/
structure Grant (α : Type u) where
  granted : Bool
  moved : Bool
  junk : Nat → α

/-- Live blocks under a size limit. -/
structure Heap (α : Type u) where
  limit : Nat
  next : Nat
  block : Nat → Option (List α)
  fresh : ∀ id, next ≤ id → block id = none
  bounded : ∀ id cells, block id = some cells → cells.length ≤ limit

namespace Heap

variable {α : Type u}

/-- The heap without live blocks. -/
def initial (limit : Nat) : Heap α where
  limit := limit
  next := 0
  block _ := none
  fresh _ _ := rfl
  bounded _ _ absent := by contradiction

/-- Enter a new block under the next identifier. -/
def insert (heap : Heap α) (cells : List α) (fits : cells.length ≤ heap.limit) : Heap α where
  limit := heap.limit
  next := heap.next + 1
  block := Function.update heap.block heap.next (some cells)
  fresh id above := by
    rw [Function.update_of_ne (by omega)]
    exact heap.fresh id (by omega)
  bounded id found live := by
    by_cases same : id = heap.next
    · subst same
      rw [Function.update_self, Option.some.injEq] at live
      exact live ▸ fits
    · rw [Function.update_of_ne same] at live
      exact heap.bounded id found live

/-- Change the cells of a block that is live. -/
def replace (heap : Heap α) (id : Nat) (cells : List α) (live : (heap.block id).isSome)
    (fits : cells.length ≤ heap.limit) : Heap α where
  limit := heap.limit
  next := heap.next
  block := Function.update heap.block id (some cells)
  fresh other above := by
    have different : other ≠ id := by
      rintro rfl
      simp [heap.fresh other above] at live
    rw [Function.update_of_ne different]
    exact heap.fresh other above
  bounded other found present := by
    by_cases same : other = id
    · subst same
      rw [Function.update_self, Option.some.injEq] at present
      exact present ▸ fits
    · rw [Function.update_of_ne same] at present
      exact heap.bounded other found present

/-- Retire a block. -/
def remove (heap : Heap α) (id : Nat) : Heap α where
  limit := heap.limit
  next := heap.next
  block := Function.update heap.block id none
  fresh other above := by
    by_cases same : other = id
    · rw [same, Function.update_self]
    · rw [Function.update_of_ne same]
      exact heap.fresh other above
  bounded other found present := by
    by_cases same : other = id
    · rw [same, Function.update_self] at present
      contradiction
    · rw [Function.update_of_ne same] at present
      exact heap.bounded other found present

/-- Cells of a block resized to `size`: a common prefix, then junk. -/
def resized (grant : Grant α) (cells : List α) (size : Nat) : List α :=
  cells.take size ++ (List.range (size - cells.length)).map grant.junk

@[simp]
theorem length_resized (grant : Grant α) (cells : List α) (size : Nat) :
    (resized grant cells size).length = size := by
  simp [resized]
  omega

theorem length_resized_le (grant : Grant α) (cells : List α) {size limit : Nat}
    (fits : size ≤ limit) : (resized grant cells size).length ≤ limit := by
  rwa [length_resized]

theorem isPrefix_resized (grant : Grant α) {cells known : List α} {size : Nat}
    (isPrefix : known <+: cells) (large : known.length ≤ size) :
    known <+: resized grant cells size := by
  obtain ⟨rest, rfl⟩ := isPrefix
  rw [resized, List.take_append, List.take_of_length_le large, List.append_assoc]
  exact List.prefix_append ..

/-! ## The allocator interface -/

/-- Request `size` cells.  A request for no cells always succeeds; any other is
refused when it exceeds the limit or the environment does not grant it. -/
def malloc (grant : Grant α) (heap : Heap α) (size : Nat) : Pointer × Heap α :=
  if size = 0 then
    (.empty, heap)
  else if fits : grant.granted = true ∧ size ≤ heap.limit then
    (.block heap.next,
      heap.insert (resized grant [] size) (length_resized_le _ _ fits.2))
  else
    (.null, heap)

/-- Release a block.  Releasing a pointer that owns nothing has no effect;
releasing a dead block has no result. -/
def free (heap : Heap α) : Pointer → Option (Heap α)
  | .block id => if (heap.block id).isSome then some (heap.remove id) else none
  | _ => some heap

/-- Resize a block, keeping the common prefix of its cells.  A refused request
leaves the block alone. -/
def realloc (grant : Grant α) (heap : Heap α) (pointer : Pointer) (size : Nat) :
    Option (Pointer × Heap α) :=
  match pointer with
  | .block id =>
      match found : heap.block id with
      | none => none
      | some cells =>
          if size = 0 then
            some (.empty, heap.remove id)
          else if fits : grant.granted = true ∧ size ≤ heap.limit then
            if grant.moved then
              some (.block heap.next, (heap.remove id).insert (resized grant cells size)
                (length_resized_le _ _ fits.2))
            else
              some (.block id, heap.replace id (resized grant cells size)
                (by rw [found]; rfl) (length_resized_le _ _ fits.2))
          else
            some (.null, heap)
  | _ => some (malloc grant heap size)

/-- Read `size` cells.  Reading no cells succeeds through any pointer. -/
def load (heap : Heap α) (pointer : Pointer) (offset size : Nat) : Option (List α) :=
  if size = 0 then
    some []
  else
    match pointer with
    | .block id =>
        (heap.block id).bind fun cells =>
          if offset + size ≤ cells.length then some ((cells.drop offset).take size) else none
    | _ => none

/-- Overwrite cells.  Writing no cells succeeds through any pointer. -/
def store (heap : Heap α) (pointer : Pointer) (offset : Nat) (data : List α) :
    Option (Heap α) :=
  if data = [] then
    some heap
  else
    match pointer with
    | .block id =>
        match found : heap.block id with
        | none => none
        | some cells =>
            if inside : offset + data.length ≤ cells.length then
              some (heap.replace id
                (cells.take offset ++ (data ++ cells.drop (offset + data.length)))
                (by rw [found]; rfl)
                (by
                  have bound := heap.bounded id cells found
                  simp only [List.length_append, List.length_take, List.length_drop]
                  omega))
            else
              none
    | _ => none

end Heap

end Aesd.Memory
