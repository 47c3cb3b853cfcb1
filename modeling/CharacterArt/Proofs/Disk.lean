import CharacterArt.Disk
import Std.Data.TreeMap.Lemmas

/-!
# Nodes of a disk

## Main Results

* `Disk.node?_put` — what stands where after something was put on a disk
* `Disk.node?_eq_some_iff` — what stands where, from the list of nodes
-/

namespace CharacterArt.Disk

variable {α : Type}

/-- A node that is put on a disk stands at its place, and all others where they were. -/
theorem node?_put (d : Disk α) {l : Location} (hl : l ≠ []) (n : Node α) (m : Location) :
    (d.put l n).node? m = if l = m then some n else d.node? m := by
  cases m with
  | nil => simp [node?, hl]
  | cons first rest =>
      show (d.nodes.insert l n)[first :: rest]? = _
      rw [Std.TreeMap.getElem?_insert]
      simp only [Std.compare_eq_iff_eq]
      rfl

/-- What stands anywhere below the root is in the list of nodes. -/
theorem node?_eq_some_iff {d : Disk α} {l : Location} (hl : l ≠ []) {n : Node α} :
    d.node? l = some n ↔ (l, n) ∈ d.nodes.toList := by
  rw [Std.TreeMap.mem_toList_iff_getElem?_eq_some]
  cases l with
  | nil => exact absurd rfl hl
  | cons first rest => rfl

end CharacterArt.Disk
