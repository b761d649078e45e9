import Aesd.Memory.Heap
import Mathlib.Data.List.Perm.Basic

/-!
# Ownership assertions over block heaps

`Holds` lists distinct live blocks together with known prefixes of their cells.
Each operation of the heap has one rule that says how the assertion changes;
everything else that is owned stays as it was.
-/

namespace Aesd.Memory

universe u

variable {α : Type u}

/-- A block identifier with a known prefix of its cells. -/
abbrev Region (α : Type u) := Nat × List α

/-- What owning a pointer with known cells amounts to. -/
def Pointer.region : Pointer → List α → List (Region α)
  | .block id, cells => [(id, cells)]
  | _, _ => []

/-- A pointer through which the known cells can be reached. -/
def Pointer.Backs : Pointer → List α → Prop
  | .block _, _ => True
  | .empty, cells => cells = []
  | .null, _ => False

theorem Pointer.Backs.ne_null {pointer : Pointer} {cells : List α}
    (backs : pointer.Backs cells) : pointer ≠ .null := by
  rintro rfl
  exact backs

/-- A pointer backs anything no longer than what it is known to back. -/
theorem Pointer.Backs.of_length_le {pointer : Pointer} {cells other : List α}
    (backs : pointer.Backs cells) (shorter : other.length ≤ cells.length) :
    pointer.Backs other := by
  cases pointer with
  | null => exact backs.elim
  | empty =>
      rw [show cells = [] from backs] at shorter
      exact List.eq_nil_of_length_eq_zero (Nat.le_zero.mp shorter)
  | block id => trivial

/-- A pointer to a nonempty known region is a block. -/
theorem Pointer.Backs.exists_block {pointer : Pointer} {cells : List α}
    (backs : pointer.Backs cells) (nonempty : cells ≠ []) : ∃ id, pointer = .block id := by
  cases pointer with
  | null => exact backs.elim
  | empty => exact absurd backs nonempty
  | block id => exact ⟨id, rfl⟩

namespace Heap

/-- The listed blocks are live and distinct, and start with the listed cells. -/
def Holds (heap : Heap α) (owned : List (Region α)) : Prop :=
  (owned.map Prod.fst).Nodup ∧
    ∀ region ∈ owned, ∃ cells, heap.block region.1 = some cells ∧ region.2 <+: cells

variable {heap : Heap α} {owned : List (Region α)}

theorem holds_nil (heap : Heap α) : heap.Holds [] :=
  ⟨List.nodup_nil, fun _ member => absurd member List.not_mem_nil⟩

theorem Holds.perm {other : List (Region α)} (holds : heap.Holds owned)
    (same : owned.Perm other) : heap.Holds other :=
  ⟨(same.map Prod.fst).nodup_iff.mp holds.1,
    fun region member => holds.2 region (same.mem_iff.mpr member)⟩

theorem Holds.sublist {other : List (Region α)} (holds : heap.Holds owned)
    (fewer : other.Sublist owned) : heap.Holds other :=
  ⟨holds.1.sublist (fewer.map Prod.fst), fun region member => holds.2 region (fewer.subset member)⟩

theorem Holds.tail {front : List (Region α)} (holds : heap.Holds (front ++ owned)) :
    heap.Holds owned :=
  holds.sublist (List.sublist_append_right ..)

/-- Knowing fewer cells of a block is still owning it. -/
theorem Holds.weaken {pointer : Pointer} {known fewer : List α}
    (holds : heap.Holds (pointer.region known ++ owned)) (shorter : fewer <+: known) :
    heap.Holds (pointer.region fewer ++ owned) := by
  cases pointer with
  | block id =>
      constructor
      · exact holds.1
      · intro region member
        rcases List.mem_cons.mp member with rfl | inside
        · rcases holds.2 (id, known) List.mem_cons_self with ⟨cells, live, isPrefix⟩
          exact ⟨cells, live, shorter.trans isPrefix⟩
        · exact holds.2 region (List.mem_cons_of_mem _ inside)
  | null => exact holds
  | empty => exact holds

theorem Holds.length_le (holds : heap.Holds owned) {region : Region α}
    (member : region ∈ owned) : region.2.length ≤ heap.limit := by
  rcases holds.2 region member with ⟨cells, live, isPrefix⟩
  exact Nat.le_trans isPrefix.length_le (heap.bounded _ _ live)

theorem Holds.length_le_of_backs {pointer : Pointer} {known : List α}
    (holds : heap.Holds (pointer.region known ++ owned)) (backs : pointer.Backs known) :
    known.length ≤ heap.limit := by
  cases pointer with
  | null => exact backs.elim
  | empty =>
      rw [show known = [] from backs]
      exact Nat.zero_le _
  | block id => exact Holds.length_le holds List.mem_cons_self

/-- Owned blocks were handed out before. -/
theorem Holds.lt_next (holds : heap.Holds owned) {region : Region α}
    (member : region ∈ owned) : region.1 < heap.next := by
  rcases holds.2 region member with ⟨cells, live, _⟩
  by_contra above
  rw [heap.fresh _ (Nat.le_of_not_lt above)] at live
  contradiction

private theorem Holds.ne_of_cons {id : Nat} {known : List α}
    (holds : heap.Holds ((id, known) :: owned)) {region : Region α} (member : region ∈ owned) :
    region.1 ≠ id := by
  rintro rfl
  exact (List.nodup_cons.mp holds.1).1 (List.mem_map.mpr ⟨region, member, rfl⟩)

/-! ## Rules of the block operations -/

theorem Holds.insert (holds : heap.Holds owned) (cells : List α)
    (fits : cells.length ≤ heap.limit) :
    (heap.insert cells fits).Holds ((heap.next, cells) :: owned) := by
  constructor
  · rw [List.map_cons, List.nodup_cons]
    refine ⟨fun member => ?_, holds.1⟩
    rcases List.mem_map.mp member with ⟨region, inside, same⟩
    exact Nat.ne_of_lt (holds.lt_next inside) same
  · intro region member
    rcases List.mem_cons.mp member with rfl | inside
    · exact ⟨cells, Function.update_self .., List.prefix_rfl⟩
    · rcases holds.2 region inside with ⟨found, live, isPrefix⟩
      refine ⟨found, ?_, isPrefix⟩
      rw [← live]
      exact Function.update_of_ne (Nat.ne_of_lt (holds.lt_next inside)) ..

theorem Holds.remove {id : Nat} {known : List α}
    (holds : heap.Holds ((id, known) :: owned)) : (heap.remove id).Holds owned := by
  constructor
  · exact (List.nodup_cons.mp holds.1).2
  · intro region member
    rcases holds.2 region (List.mem_cons_of_mem _ member) with ⟨cells, live, isPrefix⟩
    refine ⟨cells, ?_, isPrefix⟩
    rw [← live]
    exact Function.update_of_ne (holds.ne_of_cons member) ..

theorem Holds.replace {id : Nat} {known cells : List α}
    (holds : heap.Holds ((id, known) :: owned)) (live : (heap.block id).isSome)
    (fits : cells.length ≤ heap.limit) {known' : List α} (isPrefix : known' <+: cells) :
    (heap.replace id cells live fits).Holds ((id, known') :: owned) := by
  constructor
  · exact holds.1
  · intro region member
    rcases List.mem_cons.mp member with rfl | inside
    · exact ⟨cells, Function.update_self .., isPrefix⟩
    · rcases holds.2 region (List.mem_cons_of_mem _ inside) with ⟨found, present, isPrefix⟩
      refine ⟨found, ?_, isPrefix⟩
      rw [← present]
      exact Function.update_of_ne (holds.ne_of_cons inside) ..

/-! ## Rules of the allocator interface -/

/-- A request is met with a pointer that owns junk, or refused without effect. -/
theorem Holds.malloc (holds : heap.Holds owned) (grant : Grant α) (size : Nat) :
    (∃ pointer heap' cells, heap.malloc grant size = (pointer, heap') ∧
        (size ≠ 0 → grant.granted = true ∧ size ≤ heap.limit) ∧
        cells.length = size ∧ pointer.Backs cells ∧ heap'.limit = heap.limit ∧
        heap'.Holds (pointer.region cells ++ owned)) ∨
      heap.malloc grant size = (.null, heap) ∧ size ≠ 0 ∧
        ¬(grant.granted = true ∧ size ≤ heap.limit) := by
  unfold Heap.malloc
  by_cases none : size = 0
  · left
    exact ⟨.empty, heap, [], by simp [none], by simp [none], by simp [none], rfl, rfl, holds⟩
  · by_cases fits : grant.granted = true ∧ size ≤ heap.limit
    · left
      refine ⟨.block heap.next, heap.insert (resized grant [] size) _, resized grant [] size,
        ?_, fun _ => fits, length_resized .., trivial, rfl,
        holds.insert _ (length_resized_le _ _ fits.2)⟩
      rw [if_neg none, dif_pos fits]
    · right
      rw [if_neg none, dif_neg fits]
      exact ⟨rfl, none, fits⟩

/-- What is owned can be released. -/
theorem Holds.free {pointer : Pointer} {known : List α}
    (holds : heap.Holds (pointer.region known ++ owned)) :
    ∃ heap', heap.free pointer = some heap' ∧ heap'.limit = heap.limit ∧ heap'.Holds owned := by
  cases pointer with
  | block id =>
      rcases holds.2 (id, known) List.mem_cons_self with ⟨cells, live, _⟩
      refine ⟨heap.remove id, ?_, rfl, Holds.remove holds⟩
      simp [Heap.free, live]
  | null => exact ⟨heap, rfl, rfl, holds⟩
  | empty => exact ⟨heap, rfl, rfl, holds⟩

/-- Known cells can be read. -/
theorem Holds.load {pointer : Pointer} {known : List α}
    (holds : heap.Holds (pointer.region known ++ owned)) (backs : pointer.Backs known)
    {offset size : Nat} (inside : offset + size ≤ known.length) :
    heap.load pointer offset size = some ((known.drop offset).take size) := by
  by_cases none : size = 0
  · simp [Heap.load, none]
  · cases pointer with
    | block id =>
        rcases holds.2 (id, known) List.mem_cons_self with ⟨cells, live, rest, rfl⟩
        have bound : offset + size ≤ (known ++ rest).length := by
          rw [List.length_append]
          omega
        simp only [Heap.load, if_neg none, live, Option.bind_some, if_pos bound]
        rw [List.drop_append_of_le_length (by omega),
          List.take_append_of_le_length (by rw [List.length_drop]; omega)]
    | empty =>
        rw [show known = [] from backs, List.length_nil] at inside
        omega
    | null => exact backs.elim

/-- Known cells can be overwritten. -/
theorem Holds.store {pointer : Pointer} {known : List α}
    (holds : heap.Holds (pointer.region known ++ owned)) (backs : pointer.Backs known)
    {offset : Nat} {data : List α} (inside : offset + data.length ≤ known.length) :
    ∃ heap', heap.store pointer offset data = some heap' ∧ heap'.limit = heap.limit ∧
      heap'.Holds (pointer.region
        (known.take offset ++ (data ++ known.drop (offset + data.length))) ++ owned) := by
  by_cases none : data = []
  · refine ⟨heap, by simp [Heap.store, none], rfl, ?_⟩
    simpa [none] using holds
  · cases pointer with
    | block id =>
        rcases holds.2 (id, known) List.mem_cons_self with ⟨cells, live, rest, rfl⟩
        have bound : offset + data.length ≤ (known ++ rest).length := by
          rw [List.length_append]
          omega
        simp only [Heap.store, if_neg none]
        split
        · rename_i dead
          rw [live] at dead
          contradiction
        · rename_i found present
          rw [live, Option.some.injEq] at present
          subst present
          refine ⟨_, dif_pos bound, rfl, Holds.replace holds _ _ ⟨rest, ?_⟩⟩
          have start : offset ≤ known.length := by omega
          rw [List.take_append_of_le_length start, List.drop_append_of_le_length inside,
            List.append_assoc, List.append_assoc]
    | empty =>
        have positive := List.length_pos_of_ne_nil none
        rw [show known = [] from backs, List.length_nil] at inside
        omega
    | null => exact backs.elim

/-- A block is enlarged with its known cells kept, or left alone. -/
theorem Holds.realloc {id : Nat} {known : List α}
    (holds : heap.Holds ((id, known) :: owned)) (grant : Grant α) {size : Nat}
    (positive : size ≠ 0) (larger : known.length ≤ size) :
    (∃ pointer heap' cells, heap.realloc grant (.block id) size = some (pointer, heap') ∧
        (grant.granted = true ∧ size ≤ heap.limit) ∧
        known <+: cells ∧ cells.length = size ∧ pointer.Backs cells ∧
        heap'.limit = heap.limit ∧ heap'.Holds (pointer.region cells ++ owned)) ∨
      heap.realloc grant (.block id) size = some (.null, heap) ∧
        ¬(grant.granted = true ∧ size ≤ heap.limit) := by
  rcases holds.2 (id, known) List.mem_cons_self with ⟨cells, live, isPrefix⟩
  have kept : known <+: resized grant cells size := isPrefix_resized grant isPrefix larger
  simp only [Heap.realloc]
  split
  · rename_i dead
    rw [live] at dead
    contradiction
  · rename_i found present
    rw [live, Option.some.injEq] at present
    subst present
    rw [if_neg positive]
    by_cases fits : grant.granted = true ∧ size ≤ heap.limit
    · left
      rw [dif_pos fits]
      cases grant.moved with
      | true =>
          exact ⟨_, _, _, if_pos rfl, fits, kept, length_resized .., trivial, rfl,
            (Holds.remove holds).insert _ (length_resized_le _ _ fits.2)⟩
      | false =>
          exact ⟨_, _, _, if_neg Bool.false_ne_true, fits, kept, length_resized .., trivial, rfl,
            Holds.replace holds _ _ List.prefix_rfl⟩
    · right
      rw [dif_neg fits]
      exact ⟨rfl, fits⟩

end Heap

end Aesd.Memory
