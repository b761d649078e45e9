import Aesd.Memory.Ledger
import Mathlib.Combinatorics.Enumerative.DoubleCounting
import Mathlib.Logic.Relator

/-!
# Heaps that agree up to the names of blocks

The same requests, made to two heaps among other ones, are met with different
identifiers.  A pairing relates the blocks that answer the same request; paired blocks
have the same cells, or are both dead, so a pair is never given up.  The first heap may
have blocks that stand apart, at most one for each owner.  The operations of the allocator
keep this for paired pointers, and for the block of an owner.
-/

namespace Aesd.Memory

universe u v w

/-- Pointers to paired blocks, or the same pointer to none. -/
inductive Pointer.Paired (pairs : Nat → Nat → Prop) : Pointer → Pointer → Prop
  | null : Paired pairs .null .null
  | empty : Paired pairs .empty .empty
  | block {id id' : Nat} (paired : pairs id id') : Paired pairs (.block id) (.block id')

theorem Pointer.Paired.mono {pairs pairs' : Nat → Nat → Prop} {pointer pointer' : Pointer}
    (paired : pointer.Paired pairs pointer') (more : pairs ≤ pairs') :
    pointer.Paired pairs' pointer' := by
  cases paired with
  | null => exact .null
  | empty => exact .empty
  | block paired => exact .block (more _ _ paired)

theorem Pointer.Paired.null_iff {pairs : Nat → Nat → Prop} {pointer pointer' : Pointer}
    (paired : pointer.Paired pairs pointer') : pointer = .null ↔ pointer' = .null := by
  cases paired <;> simp

namespace Heap

variable {α : Type u} {ι : Type v} {κ : Type w} {pairs : Nat → Nat → Prop}
  {apart : ι → Option (Nat × List α)} {heap heap' heap₁ heap₁' : Heap α}

/-- Paired blocks are alike, and every live block has a partner but those of the first heap
that stand apart. -/
structure Renames (pairs : Nat → Nat → Prop) (apart : ι → Option (Nat × List α))
    (heap heap' : Heap α) : Prop where
  limit : heap'.limit = heap.limit
  unique : Relator.BiUnique pairs
  known : ∀ id id', pairs id id' → id < heap.next ∧ id' < heap'.next
  same : ∀ id id', pairs id id' → heap'.block id' = heap.block id
  kept : ∀ owner id cells, apart owner = some (id, cells) → heap.block id = some cells
  unpaired : ∀ owner id cells, apart owner = some (id, cells) → ∀ id', ¬pairs id id'
  distinct : ∀ owner other id cells cells', apart owner = some (id, cells) →
    apart other = some (id, cells') → owner = other
  covers : ∀ id, (heap.block id).isSome →
    (∃ id', pairs id id') ∨ ∃ owner cells, apart owner = some (id, cells)
  covers' : ∀ id', (heap'.block id').isSome → ∃ id, pairs id id'

theorem renames_initial (limit : Nat) :
    (initial limit : Heap α).Renames (fun _ _ => False) (fun _ : ι => none) (initial limit) where
  limit := rfl
  unique := ⟨fun _ _ _ absurd => absurd.elim, fun _ _ _ absurd => absurd.elim⟩
  known _ _ absurd := absurd.elim
  same _ _ absurd := absurd.elim
  kept _ _ _ absurd := by contradiction
  unpaired _ _ _ absurd := by contradiction
  distinct _ _ _ _ _ absurd := by contradiction
  covers _ absurd := by contradiction
  covers' _ absurd := by contradiction

/-- A live identifier has been handed out. -/
theorem lt_next_of_block {id : Nat} {cells : List α} (live : heap.block id = some cells) :
    id < heap.next := by
  by_contra above
  rw [heap.fresh id (Nat.le_of_not_lt above)] at live
  contradiction

theorem store_of_dead {id : Nat} (dead : heap.block id = none) (offset : Nat) {data : List α}
    (some' : data ≠ []) : heap.store (.block id) offset data = none := by
  simp only [Heap.store, if_neg some']
  split
  · rfl
  · rename_i present
    rw [dead] at present
    contradiction

theorem store_of_live {id : Nat} {cells : List α} (live : heap.block id = some cells)
    (offset : Nat) {data : List α} (some' : data ≠ []) :
    (offset + data.length ≤ cells.length ∧ ∃ heap₁, heap.store (.block id) offset data =
        some heap₁ ∧ heap₁.limit = heap.limit ∧ heap₁.next = heap.next ∧
        heap₁.block = Function.update heap.block id
          (some (cells.take offset ++ (data ++ cells.drop (offset + data.length))))) ∨
      ¬offset + data.length ≤ cells.length ∧ heap.store (.block id) offset data = none := by
  simp only [Heap.store, if_neg some']
  split
  · rename_i dead
    rw [live] at dead
    contradiction
  · rename_i found present
    rw [live, Option.some.injEq] at present
    subst present
    by_cases inside : offset + data.length ≤ cells.length
    · exact Or.inl ⟨inside, _, dif_pos inside, rfl, rfl, rfl⟩
    · exact Or.inr ⟨inside, dif_neg inside⟩

theorem realloc_of_dead {id : Nat} (dead : heap.block id = none) (grant : Grant α)
    (size : Nat) : heap.realloc grant (.block id) size = none := by
  simp only [Heap.realloc]
  split
  · rfl
  · rename_i present
    rw [dead] at present
    contradiction

theorem realloc_of_live {id : Nat} {cells : List α} (live : heap.block id = some cells)
    (grant : Grant α) (size : Nat) :
    heap.realloc grant (.block id) size =
      if size = 0 then
        some (.empty, heap.remove id)
      else if fits : grant.granted = true ∧ size ≤ heap.limit then
        if grant.moved then
          some (.block heap.next, (heap.remove id).insert (resized grant cells size)
            (length_resized_le _ _ fits.2))
        else
          some (.block id, heap.replace id (resized grant cells size)
            (by rw [live]; rfl) (length_resized_le _ _ fits.2))
      else
        some (.null, heap) := by
  simp only [Heap.realloc]
  split
  · rename_i dead
    rw [live] at dead
    contradiction
  · rename_i found present
    rw [live, Option.some.injEq] at present
    subst present
    rfl

namespace Renames

theorem next_unpaired (renames : heap.Renames pairs apart heap') (id' : Nat) :
    ¬pairs heap.next id' :=
  fun paired => Nat.lt_irrefl _ (renames.known _ _ paired).1

theorem next_unpaired' (renames : heap.Renames pairs apart heap') (id : Nat) :
    ¬pairs id heap'.next :=
  fun paired => Nat.lt_irrefl _ (renames.known _ _ paired).2

/-! ## Changes of one block -/

/-- Partners change alike. -/
theorem update (renames : heap.Renames pairs apart heap') {id id' : Nat} (paired : pairs id id')
    (cells : Option (List α)) (limit₁ : heap₁.limit = heap.limit)
    (limit₁' : heap₁'.limit = heap'.limit) (next₁ : heap₁.next = heap.next)
    (next₁' : heap₁'.next = heap'.next)
    (block₁ : heap₁.block = Function.update heap.block id cells)
    (block₁' : heap₁'.block = Function.update heap'.block id' cells) :
    heap₁.Renames pairs apart heap₁' where
  limit := by rw [limit₁, limit₁', renames.limit]
  unique := renames.unique
  known other other' both := by
    rw [next₁, next₁']
    exact renames.known other other' both
  same other other' both := by
    rw [block₁, block₁']
    by_cases here : other = id
    · subst here
      cases renames.unique.2 both paired
      rw [Function.update_self, Function.update_self]
    · have there : other' ≠ id' := by
        rintro rfl
        exact here (renames.unique.1 both paired)
      rw [Function.update_of_ne here, Function.update_of_ne there]
      exact renames.same other other' both
  kept owner other found here := by
    rw [block₁]
    have different : other ≠ id := by
      rintro rfl
      exact renames.unpaired owner other found here id' paired
    rw [Function.update_of_ne different]
    exact renames.kept owner other found here
  unpaired := renames.unpaired
  distinct := renames.distinct
  covers other live := by
    by_cases here : other = id
    · exact Or.inl ⟨id', here ▸ paired⟩
    · rw [block₁, Function.update_of_ne here] at live
      exact renames.covers other live
  covers' other live := by
    by_cases here : other = id'
    · exact ⟨id, here ▸ paired⟩
    · rw [block₁', Function.update_of_ne here] at live
      exact renames.covers' other live

/-- A new block, or one that has stood apart, gets a partner. -/
theorem extend (renames : heap.Renames pairs apart heap') {id id' : Nat} {cells : List α}
    {apart₁ : ι → Option (Nat × List α)} (limit₁ : heap₁.limit = heap.limit)
    (limit₁' : heap₁'.limit = heap'.limit) (next₁ : heap.next ≤ heap₁.next)
    (next₁' : heap'.next ≤ heap₁'.next) (below : id < heap₁.next) (below' : id' < heap₁'.next)
    (block₁ : heap₁.block = Function.update heap.block id (some cells))
    (block₁' : heap₁'.block = Function.update heap'.block id' (some cells))
    (new : ∀ other', ¬pairs id other') (new' : ∀ other, ¬pairs other id')
    (rest : ∀ owner entry, apart₁ owner = some entry ↔ apart owner = some entry ∧ entry.1 ≠ id) :
    heap₁.Renames (fun other other' => pairs other other' ∨ other = id ∧ other' = id') apart₁
      heap₁' where
  limit := by rw [limit₁, limit₁', renames.limit]
  unique := by
    constructor
    · rintro first second third (one | ⟨rfl, rfl⟩) (two | ⟨rfl, same⟩)
      · exact renames.unique.1 one two
      · exact absurd (same ▸ one) (new' first)
      · exact absurd two (new' second)
      · rfl
    · rintro first second third (one | ⟨rfl, rfl⟩) (two | ⟨same, rfl⟩)
      · exact renames.unique.2 one two
      · exact absurd (same ▸ one) (new second)
      · exact absurd two (new third)
      · rfl
  known other other' both := by
    rcases both with both | ⟨rfl, rfl⟩
    · rcases renames.known other other' both with ⟨left, right⟩
      exact ⟨Nat.lt_of_lt_of_le left next₁, Nat.lt_of_lt_of_le right next₁'⟩
    · exact ⟨below, below'⟩
  same other other' both := by
    rw [block₁, block₁']
    rcases both with both | ⟨rfl, rfl⟩
    · have here : other ≠ id := by
        rintro rfl
        exact new other' both
      have there : other' ≠ id' := by
        rintro rfl
        exact new' other both
      rw [Function.update_of_ne here, Function.update_of_ne there]
      exact renames.same other other' both
    · rw [Function.update_self, Function.update_self]
  kept owner other found here := by
    rcases (rest owner (other, found)).mp here with ⟨before, different⟩
    rw [block₁, Function.update_of_ne different]
    exact renames.kept owner other found before
  unpaired owner other found here other' both := by
    rcases (rest owner (other, found)).mp here with ⟨before, different⟩
    rcases both with both | ⟨same, _⟩
    · exact renames.unpaired owner other found before other' both
    · exact different same
  distinct owner owner' other found found' first second :=
    renames.distinct owner owner' other found found' ((rest _ _).mp first).1
      ((rest _ _).mp second).1
  covers other live := by
    by_cases here : other = id
    · exact Or.inl ⟨id', Or.inr ⟨here, rfl⟩⟩
    · rw [block₁, Function.update_of_ne here] at live
      rcases renames.covers other live with ⟨other', both⟩ | ⟨owner, found, before⟩
      · exact Or.inl ⟨other', Or.inl both⟩
      · exact Or.inr ⟨owner, found, (rest _ _).mpr ⟨before, here⟩⟩
  covers' other live := by
    by_cases here : other = id'
    · exact ⟨id, Or.inr ⟨rfl, here⟩⟩
    · rw [block₁', Function.update_of_ne here] at live
      rcases renames.covers' other live with ⟨before, both⟩
      exact ⟨before, Or.inl both⟩

/-- New blocks are partners. -/
theorem insert (renames : heap.Renames pairs apart heap') (cells : List α)
    (limit₁ : heap₁.limit = heap.limit) (limit₁' : heap₁'.limit = heap'.limit)
    (next₁ : heap₁.next = heap.next + 1) (next₁' : heap₁'.next = heap'.next + 1)
    (block₁ : heap₁.block = Function.update heap.block heap.next (some cells))
    (block₁' : heap₁'.block = Function.update heap'.block heap'.next (some cells)) :
    heap₁.Renames (fun id id' => pairs id id' ∨ id = heap.next ∧ id' = heap'.next) apart
      heap₁' := by
  apply renames.extend limit₁ limit₁' (by omega) (by omega) (by omega) (by omega) block₁ block₁'
    renames.next_unpaired renames.next_unpaired'
  intro owner entry
  constructor
  · intro here
    exact ⟨here, (lt_next_of_block (renames.kept _ _ _ here)).ne⟩
  · exact And.left

/-- A block that an owner gets or has is not paired. -/
theorem unpaired_of_own (renames : heap.Renames pairs apart heap') {owner : ι} {id : Nat}
    (own : apart owner = none ∧ id = heap.next ∨ ∃ before, apart owner = some (id, before))
    (id' : Nat) : ¬pairs id id' := by
  rcases own with ⟨_, rfl⟩ | ⟨before, own⟩
  · exact renames.next_unpaired id'
  · exact renames.unpaired owner id before own id'

/-- No other owner has it. -/
theorem ne_of_own (renames : heap.Renames pairs apart heap') {owner other : ι} {id : Nat}
    (own : apart owner = none ∧ id = heap.next ∨ ∃ before, apart owner = some (id, before))
    (different : other ≠ owner) {found : Nat} {cells : List α}
    (entry : apart other = some (found, cells)) : found ≠ id := by
  rintro rfl
  rcases own with ⟨_, rfl⟩ | ⟨before, own⟩
  · exact Nat.lt_irrefl _ (lt_next_of_block (renames.kept _ _ _ entry))
  · exact different (renames.distinct _ _ _ _ _ entry own)

/-- What the owners have when one has got, changed or given up its block. -/
theorem update_apart_eq_some_iff [DecidableEq ι] (renames : heap.Renames pairs apart heap')
    {owner other : ι} {id found : Nat} (cells : Option (List α)) {cells' : List α}
    (own : apart owner = none ∧ id = heap.next ∨ ∃ before, apart owner = some (id, before)) :
    Function.update apart owner (cells.map fun cells => (id, cells)) other =
        some (found, cells') ↔
      other = owner ∧ found = id ∧ cells = some cells' ∨
        other ≠ owner ∧ found ≠ id ∧ apart other = some (found, cells') := by
  by_cases here : other = owner
  · subst here
    cases cells with
    | none => simp
    | some cells =>
        simp only [Function.update_self, Option.map_some, Option.some.injEq, Prod.mk.injEq]
        constructor
        · rintro ⟨rfl, rfl⟩
          exact Or.inl ⟨trivial, rfl, rfl⟩
        · rintro (⟨_, rfl, rfl⟩ | ⟨absurd', _⟩)
          · exact ⟨rfl, rfl⟩
          · exact absurd rfl absurd'
  · rw [Function.update_of_ne here]
    constructor
    · exact fun entry => Or.inr ⟨here, renames.ne_of_own own here entry, entry⟩
    · rintro (⟨same, _⟩ | ⟨_, _, entry⟩)
      · exact absurd same here
      · exact entry

/-- An owner gets a block, changes it or gives it up. -/
theorem update_apart [DecidableEq ι] (renames : heap.Renames pairs apart heap') {owner : ι}
    {id : Nat} (cells : Option (List α)) (limit₁ : heap₁.limit = heap.limit)
    (next₁ : heap.next ≤ heap₁.next)
    (block₁ : heap₁.block = Function.update heap.block id cells)
    (own : apart owner = none ∧ id = heap.next ∨ ∃ before, apart owner = some (id, before)) :
    heap₁.Renames pairs (Function.update apart owner (cells.map fun cells => (id, cells)))
      heap' where
  limit := by rw [limit₁, renames.limit]
  unique := renames.unique
  known other other' both := by
    rcases renames.known other other' both with ⟨left, right⟩
    exact ⟨Nat.lt_of_lt_of_le left next₁, right⟩
  same other other' both := by
    have here : other ≠ id := by
      rintro rfl
      exact renames.unpaired_of_own own other' both
    rw [block₁, Function.update_of_ne here]
    exact renames.same other other' both
  kept other found cells' entry := by
    rw [block₁]
    rcases (renames.update_apart_eq_some_iff cells own).mp entry with
      ⟨_, rfl, same⟩ | ⟨_, different, before⟩
    · rw [Function.update_self, same]
    · rw [Function.update_of_ne different]
      exact renames.kept other found cells' before
  unpaired other found cells' entry := by
    rcases (renames.update_apart_eq_some_iff cells own).mp entry with
      ⟨_, rfl, _⟩ | ⟨_, _, before⟩
    · exact renames.unpaired_of_own own
    · exact renames.unpaired other found cells' before
  distinct first second found cells₁ cells₂ entry₁ entry₂ := by
    rcases (renames.update_apart_eq_some_iff cells own).mp entry₁ with
      ⟨rfl, rfl, _⟩ | ⟨_, different, before₁⟩
    · rcases (renames.update_apart_eq_some_iff cells own).mp entry₂ with
        ⟨rfl, _, _⟩ | ⟨_, different, _⟩
      · rfl
      · exact absurd rfl different
    · rcases (renames.update_apart_eq_some_iff cells own).mp entry₂ with
        ⟨_, same, _⟩ | ⟨_, _, before₂⟩
      · exact absurd same different
      · exact renames.distinct _ _ _ _ _ before₁ before₂
  covers other live := by
    by_cases here : other = id
    · right
      rw [block₁, here, Function.update_self] at live
      rcases Option.isSome_iff_exists.mp live with ⟨cells', present⟩
      exact ⟨owner, cells',
        (renames.update_apart_eq_some_iff cells own).mpr (Or.inl ⟨rfl, here, present⟩)⟩
    · rw [block₁, Function.update_of_ne here] at live
      rcases renames.covers other live with both | ⟨owner', cells', before⟩
      · exact Or.inl both
      · by_cases mine : owner' = owner
        · subst mine
          rcases own with ⟨none', _⟩ | ⟨cells₀, own⟩
          · rw [none'] at before
            contradiction
          · rw [own, Option.some.injEq, Prod.mk.injEq] at before
            exact absurd before.1.symm here
        · exact Or.inr ⟨owner', cells',
            (renames.update_apart_eq_some_iff cells own).mpr (Or.inr ⟨mine, here, before⟩)⟩
  covers' := renames.covers'

/-- Blocks can change their owners. -/
theorem reown (renames : heap.Renames pairs apart heap') {apart₁ : κ → Option (Nat × List α)}
    (forth : ∀ owner entry, apart owner = some entry → ∃ owner', apart₁ owner' = some entry)
    (back : ∀ owner' entry, apart₁ owner' = some entry → ∃ owner, apart owner = some entry)
    (distinct : ∀ owner other id cells cells', apart₁ owner = some (id, cells) →
      apart₁ other = some (id, cells') → owner = other) :
    heap.Renames pairs apart₁ heap' where
  limit := renames.limit
  unique := renames.unique
  known := renames.known
  same := renames.same
  kept owner' id cells entry := by
    rcases back owner' (id, cells) entry with ⟨owner, before⟩
    exact renames.kept owner id cells before
  unpaired owner' id cells entry := by
    rcases back owner' (id, cells) entry with ⟨owner, before⟩
    exact renames.unpaired owner id cells before
  distinct := distinct
  covers id live := by
    rcases renames.covers id live with both | ⟨owner, cells, before⟩
    · exact Or.inl both
    · rcases forth owner (id, cells) before with ⟨owner', entry⟩
      exact Or.inr ⟨owner', cells, entry⟩
  covers' := renames.covers'

/-! ## The allocator through paired pointers -/

theorem malloc (renames : heap.Renames pairs apart heap') (grant : Grant α) (size : Nat) :
    ∃ pairs', pairs ≤ pairs' ∧
      (heap.malloc grant size).1.Paired pairs' (heap'.malloc grant size).1 ∧
      (heap.malloc grant size).2.Renames pairs' apart (heap'.malloc grant size).2 := by
  unfold Heap.malloc
  by_cases none : size = 0
  · rw [if_pos none, if_pos none]
    exact ⟨pairs, le_rfl, .empty, renames⟩
  · rw [if_neg none, if_neg none]
    by_cases fits : grant.granted = true ∧ size ≤ heap.limit
    · rw [dif_pos fits, dif_pos (by rwa [renames.limit])]
      exact ⟨_, fun _ _ both => Or.inl both, .block (Or.inr ⟨rfl, rfl⟩),
        renames.insert _ rfl rfl rfl rfl rfl rfl⟩
    · rw [dif_neg fits, dif_neg (by rwa [renames.limit])]
      exact ⟨pairs, le_rfl, .null, renames⟩

theorem free (renames : heap.Renames pairs apart heap') {pointer pointer' : Pointer}
    (paired : pointer.Paired pairs pointer') :
    Option.Rel (Renames pairs apart) (heap.free pointer) (heap'.free pointer') := by
  cases paired with
  | null => exact .some renames
  | empty => exact .some renames
  | @block id id' paired =>
      simp only [Heap.free, renames.same id id' paired]
      split
      · exact .some (renames.update paired none rfl rfl rfl rfl rfl rfl)
      · exact .none

theorem load (renames : heap.Renames pairs apart heap') {pointer pointer' : Pointer}
    (paired : pointer.Paired pairs pointer') (offset size : Nat) :
    heap'.load pointer' offset size = heap.load pointer offset size := by
  cases paired with
  | null => rfl
  | empty => rfl
  | block paired => simp only [Heap.load, renames.same _ _ paired]

theorem store (renames : heap.Renames pairs apart heap') {pointer pointer' : Pointer}
    (paired : pointer.Paired pairs pointer') (offset : Nat) (data : List α) :
    Option.Rel (Renames pairs apart) (heap.store pointer offset data)
      (heap'.store pointer' offset data) := by
  by_cases none : data = []
  · simp only [Heap.store, if_pos none]
    exact .some renames
  · cases paired with
    | null =>
        simp only [Heap.store, if_neg none]
        exact .none
    | empty =>
        simp only [Heap.store, if_neg none]
        exact .none
    | @block id id' paired =>
        have same := renames.same id id' paired
        cases live : heap.block id with
        | none =>
            rw [store_of_dead live offset none, store_of_dead (same.trans live) offset none]
            exact .none
        | some cells =>
            rcases store_of_live live offset none with
              ⟨inside, heap₁, stored, limit₁, next₁, block₁⟩ | ⟨outside, stored⟩
            · rcases store_of_live (same.trans live) offset none with
                ⟨_, heap₁', stored', limit₁', next₁', block₁'⟩ | ⟨outside, _⟩
              · rw [stored, stored']
                exact .some (renames.update paired _ limit₁ limit₁' next₁ next₁' block₁ block₁')
              · exact absurd inside outside
            · rcases store_of_live (same.trans live) offset none with
                ⟨inside, _⟩ | ⟨_, stored'⟩
              · exact absurd inside outside
              · rw [stored, stored']
                exact .none

theorem realloc (renames : heap.Renames pairs apart heap') {pointer pointer' : Pointer}
    (paired : pointer.Paired pairs pointer') (grant : Grant α) (size : Nat) :
    Option.Rel (fun result result' => ∃ pairs', pairs ≤ pairs' ∧
        result.1.Paired pairs' result'.1 ∧ result.2.Renames pairs' apart result'.2)
      (heap.realloc grant pointer size) (heap'.realloc grant pointer' size) := by
  cases paired with
  | null => exact .some (renames.malloc grant size)
  | empty => exact .some (renames.malloc grant size)
  | @block id id' paired =>
      have same := renames.same id id' paired
      cases live : heap.block id with
      | none =>
          rw [realloc_of_dead live, realloc_of_dead (same.trans live)]
          exact .none
      | some cells =>
          rw [realloc_of_live live, realloc_of_live (same.trans live)]
          have removed : (heap.remove id).Renames pairs apart (heap'.remove id') :=
            renames.update paired none rfl rfl rfl rfl rfl rfl
          by_cases none : size = 0
          · rw [if_pos none, if_pos none]
            exact .some ⟨pairs, le_rfl, .empty, removed⟩
          · rw [if_neg none, if_neg none]
            by_cases fits : grant.granted = true ∧ size ≤ heap.limit
            · rw [dif_pos fits, dif_pos (by rwa [renames.limit])]
              cases grant.moved with
              | true =>
                  exact .some ⟨_, fun _ _ both => Or.inl both, .block (Or.inr ⟨rfl, rfl⟩),
                    removed.insert _ rfl rfl rfl rfl rfl rfl⟩
              | false =>
                  exact .some ⟨pairs, le_rfl, .block paired,
                    renames.update paired _ rfl rfl rfl rfl rfl rfl⟩
            · rw [dif_neg fits, dif_neg (by rwa [renames.limit])]
              exact .some ⟨pairs, le_rfl, .null, renames⟩

/-! ## The block of an owner -/

section

variable [DecidableEq ι] {owner : ι}

/-- An owner without a block requests one. -/
theorem malloc_apart (renames : heap.Renames pairs apart heap') (nothing : apart owner = none)
    (grant : Grant α) (size : Nat) :
    (heap.malloc grant size).2.Renames pairs
      (Function.update apart owner
        ((heap.malloc grant size).1.ids.head?.map fun id => (id, resized grant [] size)))
      heap' := by
  have still : Function.update apart owner none = apart := by
    rw [← nothing, Function.update_eq_self]
  unfold Heap.malloc
  split
  · simpa [Pointer.ids, still] using renames
  · split
    · exact renames.update_apart (some _) rfl (Nat.le_succ _) rfl (Or.inl ⟨nothing, rfl⟩)
    · simpa [Pointer.ids, still] using renames

/-- The owner of a block fills it. -/
theorem store_apart (renames : heap.Renames pairs apart heap') {id : Nat}
    {before data : List α} (own : apart owner = some (id, before))
    (length : before.length = data.length) :
    ∃ heap₁, heap.store (.block id) 0 data = some heap₁ ∧ heap₁.limit = heap.limit ∧
      heap₁.Renames pairs (Function.update apart owner (some (id, data))) heap' := by
  by_cases none : data = []
  · rw [none, List.length_nil] at length
    rw [none, ← List.eq_nil_of_length_eq_zero length, ← own, Function.update_eq_self]
    exact ⟨heap, by simp [Heap.store, List.eq_nil_of_length_eq_zero length], rfl, renames⟩
  · rcases store_of_live (renames.kept owner id before own) 0 none with
      ⟨_, heap₁, stored, limit₁, next₁, block₁⟩ | ⟨outside, _⟩
    · refine ⟨heap₁, stored, limit₁, ?_⟩
      rw [List.take_zero, List.nil_append, Nat.zero_add, ← length, List.drop_length,
        List.append_nil] at block₁
      exact renames.update_apart (some data) limit₁ next₁.ge block₁ (Or.inr ⟨before, own⟩)
    · omega

/-- The owner of a block releases it. -/
theorem free_apart (renames : heap.Renames pairs apart heap') {id : Nat} {before : List α}
    (own : apart owner = some (id, before)) :
    ∃ heap₁, heap.free (.block id) = some heap₁ ∧ heap₁.limit = heap.limit ∧
      heap₁.Renames pairs (Function.update apart owner none) heap' := by
  have live := renames.kept owner id before own
  refine ⟨heap.remove id, by simp [Heap.free, live], rfl, ?_⟩
  exact renames.update_apart none rfl le_rfl rfl (Or.inr ⟨before, own⟩)

/-- The block of an owner gets a partner with the same cells. -/
theorem adopt (renames : heap.Renames pairs apart heap') {id : Nat} {cells : List α}
    (own : apart owner = some (id, cells)) (limit₁' : heap₁'.limit = heap'.limit)
    (next₁' : heap₁'.next = heap'.next + 1)
    (block₁' : heap₁'.block = Function.update heap'.block heap'.next (some cells)) :
    heap.Renames (fun other other' => pairs other other' ∨ other = id ∧ other' = heap'.next)
      (Function.update apart owner none) heap₁' := by
  have live := renames.kept owner id cells own
  apply renames.extend rfl limit₁' le_rfl (by omega) (lt_next_of_block live) (by omega) _ block₁'
    (renames.unpaired owner id cells own) renames.next_unpaired'
  · intro other entry
    by_cases here : other = owner
    · subst here
      rw [Function.update_self, own]
      constructor
      · intro absurd'
        contradiction
      · rintro ⟨same, different⟩
        cases same
        exact absurd rfl different
    · rw [Function.update_of_ne here]
      constructor
      · intro same
        constructor
        · exact same
        · rintro rfl
          exact here (renames.distinct _ _ _ _ _ same own)
      · exact And.left
  · rw [← live, Function.update_eq_self]

end

end Renames

/-! ## Blocks that come later -/

/-- The heap has got further blocks, each of which answers one of the first heap. -/
structure Grows (late : Nat → Option (Nat × List α)) (heap heap' : Heap α) : Prop where
  limit : heap'.limit = heap.limit
  next : heap.next ≤ heap'.next
  old : ∀ id, late id = none → heap'.block id = heap.block id
  new : ∀ id entry, late id = some entry →
    heap.next ≤ id ∧ id < heap'.next ∧ heap'.block id = some entry.2

theorem Grows.refl (heap : Heap α) : heap.Grows (fun _ => none) heap where
  limit := rfl
  next := le_rfl
  old _ _ := rfl
  new _ _ absurd := by contradiction

/-- Identifiers can be used up without a block. -/
theorem Grows.skip {late : Nat → Option (Nat × List α)} (grows : heap.Grows late heap')
    (limit : heap₁.limit = heap'.limit) (next : heap'.next ≤ heap₁.next)
    (block : heap₁.block = heap'.block) : heap.Grows late heap₁ where
  limit := limit.trans grows.limit
  next := grows.next.trans next
  old id none := by
    rw [block]
    exact grows.old id none
  new id entry found := by
    rcases grows.new id entry found with ⟨above, below, live⟩
    rw [block]
    exact ⟨above, Nat.lt_of_lt_of_le below next, live⟩

/-- One more block comes. -/
theorem Grows.insert {late : Nat → Option (Nat × List α)} (grows : heap.Grows late heap')
    (entry : Nat × List α) (limit : heap₁.limit = heap'.limit) (next : heap₁.next = heap'.next + 1)
    (block : heap₁.block = Function.update heap'.block heap'.next (some entry.2)) :
    heap.Grows (Function.update late heap'.next (some entry)) heap₁ where
  limit := limit.trans grows.limit
  next := grows.next.trans (by omega)
  old id none := by
    by_cases here : id = heap'.next
    · rw [here, Function.update_self] at none
      contradiction
    · rw [Function.update_of_ne here] at none
      rw [block, Function.update_of_ne here]
      exact grows.old id none
  new id found there := by
    rw [block]
    by_cases here : id = heap'.next
    · subst here
      rw [Function.update_self, Option.some.injEq] at there
      subst there
      rw [Function.update_self]
      exact ⟨grows.next, by omega, rfl⟩
    · rw [Function.update_of_ne here] at there ⊢
      rcases grows.new id found there with ⟨above, below, live⟩
      exact ⟨above, by omega, live⟩

/-- Nothing is late beyond what has been handed out. -/
theorem Grows.late_next {late : Nat → Option (Nat × List α)} (grows : heap.Grows late heap') :
    late heap'.next = none := by
  cases found : late heap'.next with
  | none => rfl
  | some entry => exact absurd (grows.new _ entry found).2.1 (Nat.lt_irrefl _)

/-- There may be nothing that comes later. -/
theorem Renames.withNone (renames : heap.Renames pairs apart heap') :
    heap.Renames pairs (Sum.elim apart fun _ : Nat => none) heap' := by
  apply renames.reown
  · exact fun owner entry here => ⟨.inl owner, here⟩
  · rintro (owner | id') entry here
    · exact ⟨owner, here⟩
    · contradiction
  · rintro (owner | id') (other | other') id cells cells' first second
    · exact congrArg Sum.inl (renames.distinct owner other id cells cells' first second)
    · contradiction
    · contradiction
    · contradiction

/-- The block of an owner can be one that comes later. -/
theorem Renames.handOver [DecidableEq ι] {late : Nat → Option (Nat × List α)}
    (renames : heap.Renames pairs (Sum.elim apart late) heap') {owner : ι} {entry : Nat × List α}
    (own : apart owner = some entry) {id' : Nat} (early : late id' = none) :
    heap.Renames pairs
      (Sum.elim (Function.update apart owner none) (Function.update late id' (some entry)))
      heap' := by
  have here : Sum.elim apart late (.inl owner) = some entry := own
  have moved : Sum.elim (Function.update apart owner none)
      (Function.update late id' (some entry)) =
        Function.update (Function.update (Sum.elim apart late) (.inl owner) none) (.inr id')
          (some entry) := by
    rw [Sum.update_elim_inl, Sum.update_elim_inr]
  have cases : ∀ place found, Function.update (Function.update (Sum.elim apart late)
      (.inl owner) none) (.inr id') (some entry) place = some found ↔
        place = .inr id' ∧ found = entry ∨
          place ≠ .inr id' ∧ place ≠ .inl owner ∧ Sum.elim apart late place = some found := by
    intro place found
    by_cases there : place = .inr id'
    · subst there
      rw [Function.update_self, Option.some.injEq]
      constructor
      · exact fun same => Or.inl ⟨rfl, same.symm⟩
      · rintro (⟨_, rfl⟩ | ⟨elsewhere, _⟩)
        · rfl
        · exact absurd rfl elsewhere
    · rw [Function.update_of_ne there]
      by_cases mine : place = .inl owner
      · subst mine
        simp
      · rw [Function.update_of_ne mine]
        simp [there, mine]
  rw [moved]
  apply renames.reown
  · intro place found before
    by_cases mine : place = .inl owner
    · subst mine
      refine ⟨.inr id', (cases ..).mpr (Or.inl ⟨rfl, ?_⟩)⟩
      exact (Option.some.inj (here.symm.trans before)).symm
    · refine ⟨place, (cases ..).mpr (Or.inr ⟨?_, mine, before⟩)⟩
      rintro rfl
      rw [show Sum.elim apart late (.inr id') = none from early] at before
      contradiction
  · intro place found after
    rcases (cases ..).mp after with ⟨_, rfl⟩ | ⟨_, _, before⟩
    · exact ⟨.inl owner, here⟩
    · exact ⟨place, before⟩
  · intro place other id cells cells' first second
    rcases (cases ..).mp first with ⟨rfl, same⟩ | ⟨_, notMine, first⟩
    · rcases (cases ..).mp second with ⟨rfl, _⟩ | ⟨_, notMine, second⟩
      · rfl
      · rw [← same] at here
        exact absurd (renames.distinct _ _ _ _ _ second here) notMine
    · rcases (cases ..).mp second with ⟨rfl, same⟩ | ⟨_, _, second⟩
      · rw [← same] at here
        exact absurd (renames.distinct _ _ _ _ _ first here) notMine
      · exact renames.distinct _ _ _ _ _ first second

/-- The blocks that have come later are partners of those that stood apart for them. -/
theorem Renames.absorb {late : Nat → Option (Nat × List α)} {base : Heap α}
    (renames : heap.Renames pairs (Sum.elim apart late) base) (grows : base.Grows late heap') :
    heap.Renames (fun id id' => pairs id id' ∨ ∃ cells, late id' = some (id, cells)) apart
      heap' where
  limit := grows.limit.trans renames.limit
  unique := by
    constructor
    · rintro first second third (one | ⟨cells, one⟩) (two | ⟨cells', two⟩)
      · exact renames.unique.1 one two
      · exact absurd (renames.known _ _ one).2 (Nat.not_lt.mpr (grows.new _ _ two).1)
      · exact absurd (renames.known _ _ two).2 (Nat.not_lt.mpr (grows.new _ _ one).1)
      · rw [one, Option.some.injEq, Prod.mk.injEq] at two
        exact two.1
    · rintro first second third (one | ⟨cells, one⟩) (two | ⟨cells', two⟩)
      · exact renames.unique.2 one two
      · exact absurd one (renames.unpaired (.inr third) first cells' two second)
      · exact absurd two (renames.unpaired (.inr second) first cells one third)
      · exact Sum.inr.inj
          (renames.distinct (.inr second) (.inr third) first cells cells' one two)
  known id id' both := by
    rcases both with both | ⟨cells, found⟩
    · rcases renames.known id id' both with ⟨left, right⟩
      exact ⟨left, Nat.lt_of_lt_of_le right grows.next⟩
    · exact ⟨lt_next_of_block (renames.kept (.inr id') id cells found),
        (grows.new _ _ found).2.1⟩
  same id id' both := by
    rcases both with both | ⟨cells, found⟩
    · have early : late id' = none := by
        cases found : late id' with
        | none => rfl
        | some entry =>
            exact absurd (renames.known _ _ both).2 (Nat.not_lt.mpr (grows.new _ _ found).1)
      rw [grows.old id' early]
      exact renames.same id id' both
    · rw [renames.kept (.inr id') id cells found]
      exact (grows.new _ _ found).2.2
  kept owner id cells entry := renames.kept (.inl owner) id cells entry
  unpaired owner id cells entry id' both := by
    rcases both with both | ⟨cells', found⟩
    · exact renames.unpaired (.inl owner) id cells entry id' both
    · have clash := renames.distinct (.inl owner) (.inr id') id cells cells' entry found
      contradiction
  distinct owner other id cells cells' first second :=
    Sum.inl.inj (renames.distinct (.inl owner) (.inl other) id cells cells' first second)
  covers id live := by
    rcases renames.covers id live with ⟨id', both⟩ | ⟨owner | id', cells, entry⟩
    · exact Or.inl ⟨id', Or.inl both⟩
    · exact Or.inr ⟨owner, cells, entry⟩
    · exact Or.inl ⟨id', Or.inr ⟨cells, entry⟩⟩
  covers' id' live := by
    cases found : late id' with
    | none =>
        rw [grows.old id' found] at live
        rcases renames.covers' id' live with ⟨id, both⟩
        exact ⟨id, Or.inl both⟩
    | some entry => exact ⟨entry.1, Or.inr ⟨entry.2, rfl⟩⟩

/-- When nothing stands apart, there are as many blocks in the one heap as in the other. -/
theorem Renames.card_live (renames : heap.Renames pairs apart heap')
    (nothing : ∀ owner, apart owner = none) : heap'.live.card = heap.live.card := by
  have alive : ∀ id id', pairs id id' → (id ∈ heap.live ↔ id' ∈ heap'.live) := by
    intro id id' both
    rw [mem_live_iff, mem_live_iff, renames.same id id' both]
  apply Nat.le_antisymm
  · apply Finset.card_le_card_of_forall_subsingleton' pairs
    · intro id' live
      rcases renames.covers' id' (mem_live_iff.mp live) with ⟨id, both⟩
      exact ⟨id, (alive id id' both).mpr live, both⟩
    · intro id _ first one second two
      exact renames.unique.2 one.2 two.2
  · apply Finset.card_le_card_of_forall_subsingleton pairs
    · intro id live
      rcases renames.covers id (mem_live_iff.mp live) with ⟨id', both⟩ | ⟨owner, cells, entry⟩
      · exact ⟨id', (alive id id' both).mp live, both⟩
      · rw [nothing owner] at entry
        contradiction
    · intro id' _ first one second two
      exact renames.unique.1 one.2 two.2

end Heap

end Aesd.Memory
