/-
**Packing blocks into bounded groups.**

Blocks come one after the other, and each joins the group before it if it still fits, or begins the
next one. The groups are the blocks in order, none of them split; each group fits if each block
does; and a group is begun only by a block that is not empty. Nothing here depends on the program.

`pack_flatten` says that nothing is lost and nothing moves, and `pack_fits` that no group is longer
than the bound and none is empty.
-/
import Mathlib.Data.List.Basic

set_option autoImplicit false

namespace Packing

variable {α : Type*}

/-- The groups of `blocks`, where `group` has been begun: a block that does not fit begins a new
one. -/
def pack (size : ℕ) : List (List α) → List (List α) → List (List (List α))
  | group, [] => [group]
  | group, block :: blocks =>
    if group.flatten.length + block.length ≤ size then pack size (group ++ [block]) blocks
    else group :: pack size [block] blocks

variable {size : ℕ} {group blocks : List (List α)} {block : List α}

theorem pack_of_fits (h : group.flatten.length + block.length ≤ size) :
    pack size group (block :: blocks) = pack size (group ++ [block]) blocks := by
  rw [pack, if_pos h]

theorem pack_of_full (h : ¬ group.flatten.length + block.length ≤ size) :
    pack size group (block :: blocks) = group :: pack size [block] blocks := by
  rw [pack, if_neg h]

/-- The groups are the blocks, in order, each in one group. -/
theorem pack_flatten (size : ℕ) (group blocks : List (List α)) :
    (pack size group blocks).flatten = group ++ blocks := by
  induction blocks generalizing group with
  | nil => rw [pack, List.flatten_singleton, List.append_nil]
  | cons block blocks ih =>
      by_cases h : group.flatten.length + block.length ≤ size
      · rw [pack_of_fits h, ih, List.append_assoc, List.singleton_append]
      · rw [pack_of_full h, List.flatten_cons, ih, List.singleton_append]

/-- **Every group fits**, and none is empty, if the first one is so and each block fits alone. -/
theorem pack_fits (hgroup : group.flatten ≠ [] ∧ group.flatten.length ≤ size)
    (hblocks : ∀ b ∈ blocks, b.length ≤ size) :
    ∀ g ∈ pack size group blocks, g.flatten ≠ [] ∧ g.flatten.length ≤ size := by
  induction blocks generalizing group with
  | nil =>
      intro g hg
      rw [pack] at hg
      rw [List.mem_singleton.mp hg]
      exact hgroup
  | cons block blocks ih =>
      have hrest : ∀ b ∈ blocks, b.length ≤ size :=
        fun b hb => hblocks b (List.mem_cons_of_mem _ hb)
      by_cases h : group.flatten.length + block.length ≤ size
      · rw [pack_of_fits h]
        refine ih ⟨?_, ?_⟩ hrest
        · rw [List.flatten_append]
          exact List.append_ne_nil_of_left_ne_nil hgroup.1 _
        · rw [List.flatten_append, List.flatten_singleton, List.length_append]
          exact h
      · -- a block that does not fit is not empty
        have hpos : block ≠ [] := by
          intro hnil
          rw [hnil, List.length_nil, Nat.add_zero] at h
          exact h hgroup.2
        rw [pack_of_full h]
        intro g hg
        rcases List.mem_cons.mp hg with rfl | hg
        · exact hgroup
        · refine ih ⟨?_, ?_⟩ hrest g hg
          · rw [List.flatten_singleton]
            exact hpos
          · rw [List.flatten_singleton]
            exact hblocks block List.mem_cons_self

end Packing
