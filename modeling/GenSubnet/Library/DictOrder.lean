import GenSubnet.Library.Dict
import Mathlib

/-!
# The items of a dictionary by their keys

`sorted(d.items())`, and the equality of dictionaries, which does not depend on the order of
insertion.
-/

namespace GenSubnet.Library.Dict

variable {κ α : Type*} [DecidableEq κ]

/-- `d == e`. -/
def same [DecidableEq α] (d e : Dict κ α) : Bool :=
  d.size = e.size && d.items.all fun item => e.get item.1 = some item.2

theorem same_iff_perm [DecidableEq α] {d e : Dict κ α} : d.same e = true ↔ d.items.Perm e.items := by
  constructor
  · intro equal
    simp only [same, Bool.and_eq_true, decide_eq_true_eq, List.all_eq_true] at equal
    obtain ⟨sizes, found⟩ := equal
    have subset : d.items ⊆ e.items := fun item member => get_eq_some_iff.mp (found item member)
    exact (List.subperm_of_subset (List.Nodup.of_map _ d.nodup) subset).perm_of_length_le (Nat.le_of_eq sizes.symm)
  · intro perm
    simp only [same, Bool.and_eq_true, decide_eq_true_eq, List.all_eq_true]
    exact ⟨perm.length_eq, fun item member => get_eq_some_iff.mpr (perm.mem_iff.mp member)⟩

theorem get_eq_of_perm {d e : Dict κ α} (perm : d.items.Perm e.items) (key : κ) :
    d.get key = e.get key := by
  apply Option.ext
  intro value
  rw [get_eq_some_iff, get_eq_some_iff, perm.mem_iff]

section Sorted

variable {κ : Type*} [LinearOrder κ]

/-- `sorted(d.items())`; the keys are distinct, so no two values are compared. -/
def sortedItems (d : Dict κ α) : List (κ × α) := d.items.insertionSort fun a b => a.1 ≤ b.1

theorem sortedItems_perm (d : Dict κ α) : d.sortedItems.Perm d.items := List.perm_insertionSort _ _

theorem sortedItems_pairwise (d : Dict κ α) : d.sortedItems.Pairwise fun a b => a.1 ≤ b.1 := by
  have total : Std.Total fun a b : κ × α => a.1 ≤ b.1 := ⟨fun a b => le_total a.1 b.1⟩
  have trans : IsTrans (κ × α) fun a b => a.1 ≤ b.1 := ⟨fun _ _ _ => le_trans⟩
  exact List.pairwise_insertionSort _ _

theorem sortedItems_ordered (d : Dict κ α) : (d.sortedItems.map Prod.fst).Pairwise (· < ·) := by
  have nodup : (d.sortedItems.map Prod.fst).Nodup :=
    (d.sortedItems_perm.map Prod.fst).nodup_iff.mpr d.nodup
  exact (List.pairwise_map.mpr d.sortedItems_pairwise).imp₂ (fun _ _ => lt_of_le_of_ne) nodup

theorem sortedItems_eq_of_perm {d : Dict κ α} {items : List (κ × α)} (perm : d.items.Perm items)
    (ordered : (items.map Prod.fst).Pairwise (· < ·)) : d.sortedItems = items := by
  have strict : items.Pairwise fun a b => a.1 < b.1 := List.pairwise_map.mp ordered
  apply (d.sortedItems_perm.trans perm).eq_of_pairwise _ d.sortedItems_pairwise
    (strict.imp fun h => h.le)
  intro a b left right below above
  have keys : a.1 = b.1 := le_antisymm below above
  have found : d.get a.1 = some a.2 := get_eq_some_iff.mpr (d.sortedItems_perm.mem_iff.mp left)
  have other : d.get b.1 = some b.2 := get_eq_some_iff.mpr (perm.mem_iff.mpr right)
  rw [keys, other] at found
  exact Prod.ext keys (Option.some.inj found).symm

end Sorted

end GenSubnet.Library.Dict
