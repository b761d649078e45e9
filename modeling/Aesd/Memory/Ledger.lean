import Aesd.Memory.Ownership
import Mathlib.Data.Finset.Card

/-!
# Counting live blocks

The live blocks of a heap form a finite set, and each operation of the allocator
changes its size by the blocks of the pointers it hands out and takes back.
Owned blocks are all that is live exactly when there are as many of the one as of
the other.
-/

namespace Aesd.Memory

universe u

variable {α : Type u}

/-- The block that a pointer refers to, if it refers to one. -/
def Pointer.ids : Pointer → List Nat
  | .block id => [id]
  | _ => []

theorem Pointer.mem_ids_iff {pointer : Pointer} {id : Nat} :
    id ∈ pointer.ids ↔ pointer = .block id := by
  cases pointer with
  | block other => simp [Pointer.ids, eq_comm]
  | null => simp [Pointer.ids]
  | empty => simp [Pointer.ids]

theorem Pointer.region_map_fst (pointer : Pointer) (cells : List α) :
    (pointer.region cells).map Prod.fst = pointer.ids := by
  cases pointer <;> rfl

namespace Heap

/-- The identifiers of live blocks. -/
def live (heap : Heap α) : Finset Nat :=
  (Finset.range heap.next).filter fun id => (heap.block id).isSome

theorem mem_live_iff {heap : Heap α} {id : Nat} : id ∈ heap.live ↔ (heap.block id).isSome := by
  rw [live, Finset.mem_filter, Finset.mem_range]
  constructor
  · exact And.right
  · intro present
    constructor
    · by_contra above
      rw [heap.fresh id (Nat.le_of_not_lt above)] at present
      contradiction
    · exact present

@[simp]
theorem live_initial (limit : Nat) : (initial limit : Heap α).live = ∅ :=
  rfl

/-- Heaps with the same live blocks, whatever is in them. -/
theorem live_congr {heap heap' : Heap α}
    (same : ∀ id, (heap'.block id).isSome = (heap.block id).isSome) : heap'.live = heap.live := by
  ext id
  rw [mem_live_iff, mem_live_iff, same]

/-! ## The block operations -/

theorem card_insert (heap : Heap α) (cells : List α) (fits : cells.length ≤ heap.limit) :
    (heap.insert cells fits).live.card = heap.live.card + 1 := by
  have new : heap.next ∉ heap.live := by
    rw [mem_live_iff, heap.fresh _ (Nat.le_refl _)]
    exact Bool.false_ne_true
  rw [← Finset.card_insert_of_notMem new]
  congr 1
  ext id
  rw [Finset.mem_insert, mem_live_iff, mem_live_iff]
  by_cases same : id = heap.next
  · simp [insert, same]
  · simp [insert, same]

theorem card_remove {heap : Heap α} {id : Nat} (present : (heap.block id).isSome) :
    (heap.remove id).live.card + 1 = heap.live.card := by
  have member := mem_live_iff.mpr present
  rw [← Finset.card_erase_add_one member]
  congr 2
  ext other
  rw [Finset.mem_erase, mem_live_iff, mem_live_iff]
  by_cases same : other = id
  · simp [remove, same]
  · simp [remove, same]

theorem live_replace (heap : Heap α) (id : Nat) (cells : List α)
    (present : (heap.block id).isSome) (fits : cells.length ≤ heap.limit) :
    (heap.replace id cells present fits).live = heap.live := by
  apply live_congr
  intro other
  by_cases same : other = id
  · rw [same, present]
    simp [replace]
  · simp [replace, same]

/-! ## The allocator interface -/

theorem card_malloc (grant : Grant α) (heap : Heap α) (size : Nat) :
    (heap.malloc grant size).2.live.card =
      heap.live.card + (heap.malloc grant size).1.ids.length := by
  unfold malloc
  split
  · rfl
  · split
    · rename_i fits
      exact card_insert heap _ (length_resized_le _ _ fits.2)
    · rfl

theorem card_free {heap heap' : Heap α} {pointer : Pointer}
    (freed : heap.free pointer = some heap') :
    heap'.live.card + pointer.ids.length = heap.live.card := by
  cases pointer with
  | block id =>
      simp only [free] at freed
      split at freed
      · rename_i present
        cases freed
        exact card_remove present
      · contradiction
  | null =>
      cases freed
      rfl
  | empty =>
      cases freed
      rfl

theorem live_store {heap heap' : Heap α} {pointer : Pointer} {offset : Nat} {data : List α}
    (stored : heap.store pointer offset data = some heap') : heap'.live = heap.live := by
  unfold store at stored
  split at stored
  · cases stored
    rfl
  · split at stored
    · split at stored
      · contradiction
      · split at stored
        · cases stored
          exact live_replace ..
        · contradiction
    · contradiction

/-- A block that is resized stays one block; a refused request changes nothing. -/
theorem card_realloc {heap heap' : Heap α} {grant : Grant α} {pointer pointer' : Pointer}
    {size : Nat} (resized : heap.realloc grant pointer size = some (pointer', heap')) :
    heap'.live.card + (if pointer' = .null then [] else pointer.ids).length =
      heap.live.card + pointer'.ids.length := by
  unfold realloc at resized
  split at resized
  · rename_i id
    split at resized
    · contradiction
    · rename_i cells found
      have present : (heap.block id).isSome := by
        rw [found]
        rfl
      have removed := card_remove present
      split at resized
      · cases resized
        exact removed
      · split at resized
        · split at resized
          · cases resized
            have inserted := card_insert (heap.remove id) (Heap.resized grant cells size)
              (length_resized_le _ _ (And.right ‹_›))
            show _ + 1 = _ + 1
            rw [inserted, removed]
          · cases resized
            rw [live_replace]
            rfl
        · cases resized
          rfl
  · rename_i noBlock
    have made := card_malloc grant heap size
    rw [Option.some.inj resized] at made
    have nothing : pointer.ids = [] := by
      cases pointer with
      | block id => exact absurd rfl (noBlock id)
      | null => rfl
      | empty => rfl
    rw [nothing, ite_self]
    exact made

/-- A request that is met with a pointer is met with a block, unless it is one for no
cells. -/
theorem ids_malloc {grant : Grant α} {heap heap' : Heap α} {size : Nat} {pointer : Pointer}
    (made : heap.malloc grant size = (pointer, heap')) (met : pointer ≠ .null) :
    pointer.ids.length = if size = 0 then 0 else 1 := by
  unfold malloc at made
  split at made
  · cases made
    rw [if_pos ‹_›]
    rfl
  · split at made
    · cases made
      rw [if_neg ‹_›]
      rfl
    · cases made
      exact absurd rfl met

theorem ids_realloc {grant : Grant α} {heap heap' : Heap α} {size : Nat}
    {pointer pointer' : Pointer}
    (resized : heap.realloc grant pointer size = some (pointer', heap'))
    (met : pointer' ≠ .null) (positive : size ≠ 0) : pointer'.ids.length = 1 := by
  unfold realloc at resized
  split at resized
  · split at resized
    · contradiction
    · rw [if_neg positive] at resized
      split at resized
      · split at resized
        · cases resized
          rfl
        · cases resized
          rfl
      · cases resized
        exact absurd rfl met
  · have block := ids_malloc (Option.some.inj resized) met
    rwa [if_neg positive] at block

/-! ## Releasing many pointers -/

theorem card_free_all {heap heap' : Heap α} {pointers : List Pointer}
    (freed : pointers.foldlM Heap.free heap = some heap') :
    heap'.live.card + (pointers.flatMap Pointer.ids).length = heap.live.card := by
  induction pointers generalizing heap with
  | nil =>
      cases freed
      rfl
  | cons pointer pointers ih =>
      rw [List.foldlM_cons, Option.bind_eq_bind, Option.bind_eq_some_iff] at freed
      rcases freed with ⟨middle, first, later⟩
      rw [List.flatMap_cons, List.length_append, ← card_free first, ← ih later]
      omega

theorem limit_free {heap heap' : Heap α} {pointer : Pointer}
    (freed : heap.free pointer = some heap') : heap'.limit = heap.limit := by
  cases pointer with
  | block id =>
      simp only [free] at freed
      split at freed
      · cases freed
        rfl
      · contradiction
  | null | empty =>
      cases freed
      rfl

theorem limit_malloc (grant : Grant α) (heap : Heap α) (size : Nat) :
    (heap.malloc grant size).2.limit = heap.limit := by
  unfold malloc
  split
  · rfl
  · split
    · rfl
    · rfl

theorem limit_store {heap heap' : Heap α} {pointer : Pointer} {offset : Nat} {data : List α}
    (stored : heap.store pointer offset data = some heap') : heap'.limit = heap.limit := by
  unfold store at stored
  split at stored
  · cases stored
    rfl
  · split at stored
    · split at stored
      · contradiction
      · split at stored
        · cases stored
          rfl
        · contradiction
    · contradiction

theorem limit_realloc {heap heap' : Heap α} {grant : Grant α} {pointer pointer' : Pointer}
    {size : Nat} (resized : heap.realloc grant pointer size = some (pointer', heap')) :
    heap'.limit = heap.limit := by
  unfold realloc at resized
  split at resized
  · split at resized
    · contradiction
    · split at resized
      · cases resized
        rfl
      · split at resized
        · split at resized
          · cases resized
            rfl
          · cases resized
            rfl
        · cases resized
          rfl
  · have same := congrArg Prod.snd (Option.some.inj resized)
    rw [← show _ = heap' from same]
    exact limit_malloc grant heap size

theorem limit_free_all {heap heap' : Heap α} {pointers : List Pointer}
    (freed : pointers.foldlM Heap.free heap = some heap') : heap'.limit = heap.limit := by
  induction pointers generalizing heap with
  | nil =>
      cases freed
      rfl
  | cons pointer pointers ih =>
      rw [List.foldlM_cons, Option.bind_eq_bind, Option.bind_eq_some_iff] at freed
      rcases freed with ⟨middle, first, later⟩
      exact (ih later).trans (limit_free first)

/-- Pointers to distinct live blocks can all be released. -/
theorem Holds.free_all {heap : Heap α} {pointers : List Pointer} {owned : List (Region α)}
    (holds : heap.Holds ((pointers.flatMap fun pointer => pointer.region []) ++ owned)) :
    ∃ heap', pointers.foldlM Heap.free heap = some heap' ∧ heap'.Holds owned := by
  induction pointers generalizing heap with
  | nil => exact ⟨heap, rfl, holds⟩
  | cons pointer pointers ih =>
      rw [List.flatMap_cons, List.append_assoc] at holds
      rcases holds.free with ⟨middle, first, _, kept⟩
      rcases ih kept with ⟨heap', later, kept'⟩
      refine ⟨heap', ?_, kept'⟩
      rw [List.foldlM_cons, Option.bind_eq_bind, first]
      exact later

/-! ## Owned blocks -/

/-- Ownership of blocks, whatever is in them. -/
def HoldsIds (heap : Heap α) (ids : List Nat) : Prop :=
  heap.Holds (ids.map fun id => (id, []))

theorem Holds.ids {heap : Heap α} {owned : List (Region α)} (holds : heap.Holds owned) :
    heap.HoldsIds (owned.map Prod.fst) := by
  constructor
  · simpa [List.map_map, Function.comp_def] using holds.1
  · intro region member
    simp only [List.map_map, List.mem_map] at member
    rcases member with ⟨original, inside, rfl⟩
    rcases holds.2 original inside with ⟨cells, present, _⟩
    exact ⟨cells, present, List.nil_prefix⟩

theorem HoldsIds.perm {heap : Heap α} {ids ids' : List Nat} (holds : heap.HoldsIds ids)
    (same : ids.Perm ids') : heap.HoldsIds ids' :=
  Holds.perm holds (same.map _)

theorem HoldsIds.nodup {heap : Heap α} {ids : List Nat} (holds : heap.HoldsIds ids) :
    ids.Nodup := by
  simpa [List.map_map, Function.comp_def] using holds.1

theorem HoldsIds.mem_live {heap : Heap α} {ids : List Nat} (holds : heap.HoldsIds ids) :
    ∀ id ∈ ids, id ∈ heap.live := by
  intro id member
  rcases holds.2 (id, []) (List.mem_map.mpr ⟨id, member, rfl⟩) with ⟨cells, present, _⟩
  rw [mem_live_iff, present]
  rfl

theorem HoldsIds.free_all {heap : Heap α} {pointers : List Pointer} {ids : List Nat}
    (holds : heap.HoldsIds (pointers.flatMap Pointer.ids ++ ids)) :
    ∃ heap', pointers.foldlM Heap.free heap = some heap' ∧ heap'.HoldsIds ids := by
  apply Holds.free_all
  have regions : (pointers.flatMap fun pointer => pointer.region ([] : List α)) =
      (pointers.flatMap Pointer.ids).map fun id => (id, []) := by
    rw [List.map_flatMap]
    congr 1
    funext pointer
    cases pointer <;> rfl
  rw [regions, ← List.map_append]
  exact holds

/-- Owned blocks are all there are when they are as many. -/
theorem HoldsIds.live_iff {heap : Heap α} {ids : List Nat} (holds : heap.HoldsIds ids) :
    (∀ id, (heap.block id).isSome ↔ id ∈ ids) ↔ heap.live.card = ids.length := by
  have inside : ids.toFinset ⊆ heap.live := by
    intro id member
    exact holds.mem_live id (List.mem_toFinset.mp member)
  rw [← List.toFinset_card_of_nodup holds.nodup]
  constructor
  · intro exact'
    congr 1
    ext id
    rw [mem_live_iff, exact', List.mem_toFinset]
  · intro same id
    rw [← mem_live_iff, ← List.mem_toFinset,
      Finset.eq_of_subset_of_card_le inside (Nat.le_of_eq same)]

end Heap

end Aesd.Memory
