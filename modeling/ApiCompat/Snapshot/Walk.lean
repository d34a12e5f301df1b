/-! Walks over numbered nodes. Both walks carry the nodes not yet met; each step removes some
of them, so a walk ends on every graph, cyclic or not. -/
namespace ApiCompat.Walk

/-- The nodes met by following single links from a node, up to the first that is not unseen. -/
def trail (next : Nat → Option Nat) (unseen : List Nat) (node : Nat) : List Nat :=
  match next node with
  | none => []
  | some target =>
    if _fresh : target ∈ unseen then target :: trail next (unseen.erase target) target else []
termination_by unseen.length
decreasing_by
  have := List.length_erase_of_mem _fresh
  have := List.length_pos_of_mem _fresh
  omega

def nextLayer (links : Nat → List Nat) (unseen layer : List Nat) : List Nat :=
  ((layer.flatMap links).filter fun node => unseen.contains node).eraseDups

def remaining (unseen reached : List Nat) : List Nat :=
  unseen.filter fun node => !reached.contains node

theorem length_remaining_lt {unseen reached : List Nat} {node : Nat} (h : node ∈ unseen)
    (hreached : node ∈ reached) : (remaining unseen reached).length < unseen.length :=
  List.length_filter_lt_length_iff_exists.2 ⟨node, h, by simp [hreached]⟩

theorem mem_unseen_of_mem_nextLayer {links : Nat → List Nat} {unseen layer : List Nat}
    {node : Nat} (h : node ∈ nextLayer links unseen layer) : node ∈ unseen := by
  simp only [nextLayer, List.mem_eraseDups, List.mem_filter, List.contains_iff_mem] at h
  exact h.2

/-- The nodes reached from a layer, layer by layer, the layer itself left out. -/
def layers (links : Nat → List Nat) (unseen layer : List Nat) : List Nat :=
  match _reached : nextLayer links unseen layer with
  | [] => []
  | node :: rest => node :: rest ++ layers links (remaining unseen (node :: rest)) (node :: rest)
termination_by unseen.length
decreasing_by
  have hnode : node ∈ nextLayer links unseen layer := by
    rw [_reached]
    exact List.mem_cons_self
  exact length_remaining_lt (mem_unseen_of_mem_nextLayer hnode) List.mem_cons_self

end ApiCompat.Walk
