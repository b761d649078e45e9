import Mathlib.Data.List.Nodup
import Mathlib.Data.List.Perm.Basic

/-!
# Ledgers of what is opened and closed

A ledger lists openings and closings in their order.  What has been opened may be
opened again once it is closed, so a closing belongs to the latest opening before
it.
-/

namespace Aesd.Transition

universe u

variable {α : Type u}

inductive Entry (α : Type u) where
  | opens (item : α)
  | closes (item : α)
  deriving DecidableEq, Repr

variable [DecidableEq α]

/-- What is open after one more entry. -/
def record (items : List α) : Entry α → List α
  | .opens item => item :: items
  | .closes item => items.erase item

/-- What is open after a ledger. -/
def outstanding (items : List α) (ledger : List (Entry α)) : List α :=
  ledger.foldl record items

@[simp]
theorem outstanding_nil (items : List α) : outstanding items [] = items :=
  rfl

@[simp]
theorem outstanding_cons (items : List α) (entry : Entry α) (ledger : List (Entry α)) :
    outstanding items (entry :: ledger) = outstanding (record items entry) ledger :=
  rfl

theorem outstanding_append (items : List α) (first second : List (Entry α)) :
    outstanding items (first ++ second) = outstanding (outstanding items first) second :=
  List.foldl_append

/-- Only what is not open is opened, and only what is open is closed. -/
def Proper (items : List α) : List (Entry α) → Prop
  | [] => True
  | .opens item :: ledger => item ∉ items ∧ Proper (item :: items) ledger
  | .closes item :: ledger => item ∈ items ∧ Proper (items.erase item) ledger

theorem proper_append {items : List α} {first second : List (Entry α)} :
    Proper items (first ++ second) ↔
      Proper items first ∧ Proper (outstanding items first) second := by
  induction first generalizing items with
  | nil => exact (iff_of_eq (true_and _)).symm
  | cons entry ledger ih =>
      cases entry with
      | opens item => exact (and_congr_right fun _ => ih).trans and_assoc.symm
      | closes item => exact (and_congr_right fun _ => ih).trans and_assoc.symm

/-- Nothing is closed that is not open. -/
def ClosesOpen (items : List α) : List (Entry α) → Prop
  | [] => True
  | .opens item :: ledger => ClosesOpen (item :: items) ledger
  | .closes item :: ledger => item ∈ items ∧ ClosesOpen (items.erase item) ledger

instance decidableClosesOpen :
    ∀ (items : List α) (ledger : List (Entry α)), Decidable (ClosesOpen items ledger)
  | _, [] => isTrue trivial
  | items, .opens item :: ledger => decidableClosesOpen (item :: items) ledger
  | items, .closes item :: ledger =>
      have := decidableClosesOpen (items.erase item) ledger
      inferInstanceAs (Decidable (_ ∧ _))

/-- How often an item is closed before it is opened again. -/
def closings (item : α) : List (Entry α) → Nat
  | [] => 0
  | .opens other :: ledger => if other = item then 0 else closings item ledger
  | .closes other :: ledger => closings item ledger + if other = item then 1 else 0

/-- Everything that is opened is closed exactly once. -/
def ClosedOnce : List (Entry α) → Prop
  | [] => True
  | .opens item :: ledger => closings item ledger = 1 ∧ ClosedOnce ledger
  | .closes _ :: ledger => ClosedOnce ledger

instance decidableClosedOnce : ∀ ledger : List (Entry α), Decidable (ClosedOnce ledger)
  | [] => isTrue trivial
  | .opens item :: ledger =>
      have := decidableClosedOnce ledger
      inferInstanceAs (Decidable (closings item ledger = 1 ∧ ClosedOnce ledger))
  | .closes _ :: ledger => decidableClosedOnce ledger

theorem closings_eq_zero {item : α} {ledger : List (Entry α)}
    (unclosed : .closes item ∉ ledger) : closings item ledger = 0 := by
  induction ledger with
  | nil => rfl
  | cons entry ledger ih =>
      rw [List.mem_cons, not_or] at unclosed
      cases entry with
      | opens other => simp [closings, ih unclosed.2]
      | closes other =>
          have different : other ≠ item := by
            rintro rfl
            exact unclosed.1 rfl
          simp [closings, ih unclosed.2, different]

/-- What is not open is not closed before it is opened. -/
theorem Proper.closings_eq_zero {item : α} {items : List α} {ledger : List (Entry α)}
    (proper : Proper items ledger) (absent : item ∉ items) : closings item ledger = 0 := by
  induction ledger generalizing items with
  | nil => rfl
  | cons entry ledger ih =>
      cases entry with
      | opens other =>
          by_cases same : other = item
          · exact if_pos same
          · rw [closings, if_neg same]
            exact ih proper.2 (by simp [absent, Ne.symm same])
      | closes other =>
          have different : other ≠ item := by
            rintro rfl
            exact absent proper.1
          rw [closings, if_neg different]
          exact ih proper.2 fun member => absent (List.mem_of_mem_erase member)

/-- In a proper ledger everything is closed exactly once when nothing stays open. -/
theorem Proper.closedOnce_iff {items : List α} {ledger : List (Entry α)}
    (proper : Proper items ledger) (nodup : items.Nodup) :
    (∀ item ∈ items, closings item ledger = 1) ∧ ClosedOnce ledger ↔
      outstanding items ledger = [] := by
  induction ledger generalizing items with
  | nil =>
      rw [outstanding_nil, List.eq_nil_iff_forall_not_mem]
      simp [closings, ClosedOnce]
  | cons entry ledger ih =>
      cases entry with
      | opens item =>
          rw [outstanding_cons, record,
            ← ih proper.2 (List.nodup_cons.mpr ⟨proper.1, nodup⟩), List.forall_mem_cons,
            ClosedOnce, and_left_comm, and_assoc]
          apply and_congr_right
          intro _
          apply and_congr_left
          intro _
          apply forall₂_congr
          intro other member
          have different : item ≠ other := by
            rintro rfl
            exact proper.1 member
          rw [closings, if_neg different]
      | closes item =>
          rw [outstanding_cons, record, ← ih proper.2 (nodup.erase item), ClosedOnce]
          apply and_congr_left
          intro _
          have gone : closings item ledger = 0 :=
            proper.2.closings_eq_zero fun member => (nodup.mem_erase_iff.mp member).1 rfl
          constructor
          · intro closed other member
            rw [nodup.mem_erase_iff] at member
            have once := closed other member.2
            rwa [closings, if_neg (Ne.symm member.1)] at once
          · intro closed other member
            by_cases same : item = other
            · subst same
              simp [closings, gone]
            · rw [closings, if_neg same]
              exact closed other (nodup.mem_erase_iff.mpr ⟨Ne.symm same, member⟩)

/-- What else is open stays open. -/
theorem Proper.outstanding_append {items : List α} {ledger : List (Entry α)}
    (proper : Proper items ledger) (others : List α) :
    outstanding (items ++ others) ledger = outstanding items ledger ++ others := by
  induction ledger generalizing items with
  | nil => rfl
  | cons entry ledger ih =>
      cases entry with
      | opens item => exact ih proper.2
      | closes item =>
          rw [outstanding_cons, outstanding_cons, record, record,
            List.erase_append_left others proper.1]
          exact ih proper.2

/-- What else is open does not matter to a proper ledger. -/
theorem Proper.closesOpen {items : List α} {ledger : List (Entry α)}
    (proper : Proper items ledger) (others : List α) : ClosesOpen (items ++ others) ledger := by
  induction ledger generalizing items with
  | nil => exact trivial
  | cons entry ledger ih =>
      cases entry with
      | opens item => exact ih proper.2
      | closes item =>
          constructor
          · exact List.mem_append_left others proper.1
          · rw [List.erase_append_left others proper.1]
            exact ih proper.2

end Aesd.Transition
