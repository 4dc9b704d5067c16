import Mathlib.Logic.Relation
import Mathlib.Order.Basic
import Mathlib.Data.List.Infix

/-!
# Rooted forests given by a parent function

A partial parent function with a distinguished root determines, for every node
whose parent chain reaches the root, a level and a path.  This file develops
the ancestor order of such a forest: levels are unique, ancestors of one node
are totally ordered, and the path of an ancestor is a prefix of the path of
its descendants.
-/

namespace Hotstuff

/-- Nodes with a partial parent function and a root without parent. -/
structure ParentForest (Node : Type*) where
  root : Node
  parent : Node → Option Node
  parent_root : parent root = none

namespace ParentForest

open Relation

variable {Node : Type*} (forest : ParentForest Node)

/-- The parent chain of a node reaches the root in exactly this many steps. -/
inductive Level : Node → Nat → Prop
  | root : Level forest.root 0
  | child {above node : Node} {level : Nat}
      (edge : forest.parent node = some above) (chain : Level above level) :
      Level node (level + 1)

/-- The parent chain of the node reaches the root. -/
def Rooted (node : Node) : Prop :=
  ∃ level, forest.Level node level

/-- The first node is reached from the last one by following parents. -/
def Ancestor (first last : Node) : Prop :=
  ReflTransGen (fun above node => forest.parent node = some above) first last

variable {forest}

theorem Level.unique {node : Node} {first second : Nat}
    (firstLevel : forest.Level node first)
    (secondLevel : forest.Level node second) :
    first = second := by
  induction firstLevel generalizing second with
  | root =>
      cases secondLevel with
      | root => rfl
      | child edge _ => simp [forest.parent_root] at edge
  | child edge chain ih =>
      cases secondLevel with
      | root => simp [forest.parent_root] at edge
      | child edge' chain' =>
          obtain rfl : _ = _ := Option.some.inj (edge.symm.trans edge')
          rw [ih chain']

theorem Level.eq_root {node : Node} (level : forest.Level node 0) :
    node = forest.root := by
  cases level with
  | root => rfl

theorem Level.parent {node above : Node} {level : Nat}
    (chain : forest.Level node level)
    (edge : forest.parent node = some above) :
    ∃ before, level = before + 1 ∧ forest.Level above before := by
  cases chain with
  | root => simp [forest.parent_root] at edge
  | child edge' chain' =>
      obtain rfl : _ = _ := Option.some.inj (edge.symm.trans edge')
      exact ⟨_, rfl, chain'⟩

theorem Rooted.root : forest.Rooted forest.root :=
  ⟨0, .root⟩

theorem Rooted.child {node above : Node}
    (edge : forest.parent node = some above) (rooted : forest.Rooted above) :
    forest.Rooted node := by
  obtain ⟨level, chain⟩ := rooted
  exact ⟨level + 1, .child edge chain⟩

theorem Ancestor.refl (node : Node) : forest.Ancestor node node :=
  ReflTransGen.refl

theorem Ancestor.trans {first middle last : Node}
    (upper : forest.Ancestor first middle)
    (lower : forest.Ancestor middle last) :
    forest.Ancestor first last :=
  ReflTransGen.trans upper lower

theorem Ancestor.tail {first above node : Node}
    (upper : forest.Ancestor first above)
    (edge : forest.parent node = some above) :
    forest.Ancestor first node :=
  ReflTransGen.tail upper edge

theorem Ancestor.of_parent {above node : Node}
    (edge : forest.parent node = some above) :
    forest.Ancestor above node :=
  ReflTransGen.single edge

/-- A proper descendant has its parent below the ancestor too. -/
theorem Ancestor.eq_or_parent {first last : Node}
    (chain : forest.Ancestor first last) :
    first = last ∨
      ∃ above, forest.parent last = some above ∧
        forest.Ancestor first above := by
  cases chain with
  | refl => exact .inl rfl
  | tail upper edge => exact .inr ⟨_, edge, upper⟩

theorem Level.ancestor_root {node : Node} {level : Nat}
    (chain : forest.Level node level) :
    forest.Ancestor forest.root node := by
  induction chain with
  | root => exact .refl _
  | child edge _ ih => exact ih.tail edge

theorem Ancestor.eq_root {node : Node}
    (chain : forest.Ancestor node forest.root) : node = forest.root := by
  rcases chain.eq_or_parent with same | ⟨above, edge, -⟩
  · exact same
  · simp [forest.parent_root] at edge

theorem Ancestor.level_le {first last : Node}
    (chain : forest.Ancestor first last) {level : Nat}
    (lastLevel : forest.Level last level) :
    ∃ before ≤ level, forest.Level first before := by
  induction chain generalizing level with
  | refl => exact ⟨level, Nat.le_refl level, lastLevel⟩
  | tail _ edge ih =>
      obtain ⟨before, rfl, aboveLevel⟩ := lastLevel.parent edge
      obtain ⟨level, levelLe, firstLevel⟩ := ih aboveLevel
      exact ⟨level, Nat.le_succ_of_le levelLe, firstLevel⟩

theorem Ancestor.rooted {first last : Node}
    (chain : forest.Ancestor first last) (rooted : forest.Rooted last) :
    forest.Rooted first := by
  obtain ⟨level, lastLevel⟩ := rooted
  obtain ⟨before, -, firstLevel⟩ := chain.level_le lastLevel
  exact ⟨before, firstLevel⟩

theorem Ancestor.eq_of_level {first last : Node} {level : Nat}
    (chain : forest.Ancestor first last)
    (firstLevel : forest.Level first level)
    (lastLevel : forest.Level last level) :
    first = last := by
  rcases chain.eq_or_parent with equal | ⟨above, edge, upper⟩
  · exact equal
  · obtain ⟨before, rfl, aboveLevel⟩ := lastLevel.parent edge
    obtain ⟨lower, lowerLe, firstLower⟩ := upper.level_le aboveLevel
    have := firstLevel.unique firstLower
    omega

/-- Two ancestors of one node are comparable. -/
theorem Ancestor.total {first second last : Node}
    (firstChain : forest.Ancestor first last)
    (secondChain : forest.Ancestor second last) :
    forest.Ancestor first second ∨ forest.Ancestor second first := by
  induction firstChain with
  | refl => exact .inr secondChain
  | tail upper edge ih =>
      rcases secondChain.eq_or_parent with rfl | ⟨above, edge', upper'⟩
      · exact .inl (upper.tail edge)
      · obtain rfl : _ = _ := Option.some.inj (edge.symm.trans edge')
        exact ih upper'

/-- Of two ancestors of one node, the one at the lower level is an ancestor
of the other. -/
theorem Ancestor.of_level_le {first second last : Node}
    {firstHeight secondHeight : Nat}
    (firstChain : forest.Ancestor first last)
    (secondChain : forest.Ancestor second last)
    (firstLevel : forest.Level first firstHeight)
    (secondLevel : forest.Level second secondHeight)
    (lower : firstHeight ≤ secondHeight) :
    forest.Ancestor first second := by
  rcases firstChain.total secondChain with done | reversed
  · exact done
  · obtain ⟨before, beforeLe, secondBefore⟩ := reversed.level_le firstLevel
    have secondEq := secondLevel.unique secondBefore
    have equal : firstHeight = secondHeight := by omega
    subst equal
    rw [reversed.eq_of_level secondLevel firstLevel]
    exact .refl _

variable (forest)

/-- The nodes from just below the root down to the given node. -/
inductive Path : Node → List Node → Prop
  | root : Path forest.root []
  | child {above node : Node} {nodes : List Node}
      (edge : forest.parent node = some above) (upper : Path above nodes) :
      Path node (nodes ++ [node])

variable {forest}

theorem Path.unique {node : Node} {first second : List Node}
    (firstPath : forest.Path node first)
    (secondPath : forest.Path node second) :
    first = second := by
  induction firstPath generalizing second with
  | root =>
      cases secondPath with
      | root => rfl
      | child edge _ => simp [forest.parent_root] at edge
  | child edge upper ih =>
      cases secondPath with
      | root => simp [forest.parent_root] at edge
      | child edge' upper' =>
          obtain rfl : _ = _ := Option.some.inj (edge.symm.trans edge')
          rw [ih upper']

/-- The path to a child is the path to its parent and the child. -/
theorem Path.parent {node above : Node} {nodes : List Node}
    (path : forest.Path node nodes) (edge : forest.parent node = some above) :
    ∃ upper, forest.Path above upper ∧ nodes = upper ++ [node] := by
  cases path with
  | root => simp [forest.parent_root] at edge
  | child edge' upper =>
      obtain rfl := Option.some.inj (edge.symm.trans edge')
      exact ⟨_, upper, rfl⟩

/-- The path of an ancestor is an initial segment of the path of its
descendant. -/
theorem Path.isPrefix {first last : Node} {firstNodes lastNodes : List Node}
    (chain : forest.Ancestor first last)
    (firstPath : forest.Path first firstNodes)
    (lastPath : forest.Path last lastNodes) :
    firstNodes <+: lastNodes := by
  induction chain generalizing lastNodes with
  | refl => exact firstPath.unique lastPath ▸ List.prefix_refl _
  | tail _ edge ih =>
      cases lastPath with
      | root => simp [forest.parent_root] at edge
      | child edge' upper =>
          obtain rfl : _ = _ := Option.some.inj (edge.symm.trans edge')
          exact (ih upper).trans (List.prefix_append _ _)

/-! ### Heights -/

open Classical in
/-- The level of a rooted node, and zero elsewhere. -/
noncomputable def height (forest : ParentForest Node) (node : Node) : Nat :=
  if rooted : forest.Rooted node then rooted.choose else 0

theorem Level.height_eq {node : Node} {level : Nat}
    (chain : forest.Level node level) :
    forest.height node = level := by
  have rooted : forest.Rooted node := ⟨level, chain⟩
  rw [height, dif_pos rooted]
  exact rooted.choose_spec.unique chain

theorem Rooted.level {node : Node} (rooted : forest.Rooted node) :
    forest.Level node (forest.height node) := by
  obtain ⟨level, chain⟩ := rooted
  rwa [chain.height_eq]

@[simp]
theorem height_root : forest.height forest.root = 0 :=
  Level.root.height_eq

theorem Rooted.eq_root {node : Node} (rooted : forest.Rooted node)
    (zero : forest.height node = 0) : node = forest.root :=
  Level.eq_root (zero ▸ rooted.level)

theorem height_child {node above : Node}
    (edge : forest.parent node = some above) (rooted : forest.Rooted above) :
    forest.height node = forest.height above + 1 :=
  (Level.child edge rooted.level).height_eq

theorem Ancestor.height_le {first last : Node}
    (chain : forest.Ancestor first last) (rooted : forest.Rooted last) :
    forest.height first ≤ forest.height last := by
  obtain ⟨before, beforeLe, firstLevel⟩ := chain.level_le rooted.level
  rwa [firstLevel.height_eq]

theorem Ancestor.eq_of_height_le {first last : Node}
    (chain : forest.Ancestor first last) (rooted : forest.Rooted last)
    (reversed : forest.height last ≤ forest.height first) :
    first = last := by
  have equal := Nat.le_antisymm (chain.height_le rooted) reversed
  exact chain.eq_of_level (equal ▸ (chain.rooted rooted).level) rooted.level

/-- A proper ancestor is strictly higher up. -/
theorem Ancestor.height_lt {first last : Node}
    (chain : forest.Ancestor first last) (rooted : forest.Rooted last)
    (proper : first ≠ last) :
    forest.height first < forest.height last := by
  by_contra notLess
  exact proper (chain.eq_of_height_le rooted (Nat.le_of_not_lt notLess))

/-! ### Levels along a path -/

theorem Path.level {node : Node} {nodes : List Node}
    (path : forest.Path node nodes) : forest.Level node nodes.length := by
  induction path with
  | root => exact .root
  | child edge _ ih =>
      rw [List.length_append]
      exact .child edge ih

/-- The nodes of a path are on the levels from one on. -/
theorem Path.heights {node : Node} {nodes : List Node}
    (path : forest.Path node nodes) :
    nodes.map forest.height = List.range' 1 nodes.length := by
  induction path with
  | root => rfl
  | child edge upper ih =>
      have level := (upper.child edge).level.height_eq
      rw [List.length_append] at level
      rw [List.map_append, ih, List.length_append, List.length_singleton,
        List.range'_concat]
      simp [level, Nat.add_comm]

/-- The ancestors of the end of a path are the root and the nodes of the
path. -/
theorem Path.mem_of_ancestor {node other : Node} {nodes : List Node}
    (path : forest.Path node nodes) (above : forest.Ancestor other node) :
    other = forest.root ∨ other ∈ nodes := by
  induction path with
  | root => exact .inl above.eq_root
  | child edge _ ih =>
      rcases above.eq_or_parent with rfl | ⟨_, edge', above⟩
      · exact .inr (by simp)
      · obtain rfl : _ = _ := Option.some.inj (edge.symm.trans edge')
        exact (ih above).imp_right (List.mem_append_left _)

/-- The path up to one of its nodes. -/
theorem Path.of_mem {node other : Node} {nodes : List Node}
    (path : forest.Path node nodes) (member : other ∈ nodes) :
    ∃ initial, forest.Path other initial ∧ initial <+: nodes := by
  induction path with
  | root => cases member
  | child edge upper ih =>
      rcases List.mem_append.mp member with earlier | last
      · obtain ⟨initial, path, isPrefix⟩ := ih earlier
        exact ⟨initial, path, isPrefix.trans (List.prefix_append _ _)⟩
      · rw [List.mem_singleton.mp last]
        exact ⟨_, upper.child edge, List.prefix_refl _⟩

theorem Path.ancestor_of_mem {node other : Node} {nodes : List Node}
    (path : forest.Path node nodes) (member : other ∈ nodes) :
    forest.Ancestor other node := by
  induction path with
  | root => cases member
  | child edge _ ih =>
      rcases List.mem_append.mp member with upper | last
      · exact (ih upper).tail edge
      · rw [List.mem_singleton.mp last]
        exact .refl _

/-- A path passes all heights from one of its nodes to its end. -/
theorem Path.exists_at_height {node other : Node} {nodes : List Node}
    (path : forest.Path node nodes) (member : other ∈ nodes) {height : Nat}
    (low : forest.height other ≤ height) (high : height ≤ nodes.length) :
    ∃ passed ∈ nodes, forest.height passed = height ∧
      forest.Ancestor other passed := by
  induction path with
  | root => cases member
  | @child above node nodes edge upper ih =>
      have whole := upper.child edge
      have nodeHeight := whole.level.height_eq
      rw [List.length_append, List.length_singleton] at high nodeHeight
      by_cases atEnd : height = nodes.length + 1
      · exact ⟨node, by simp, nodeHeight.trans atEnd.symm,
          whole.ancestor_of_mem member⟩
      · have earlier : other ∈ nodes := by
          rcases List.mem_append.mp member with earlier | last
          · exact earlier
          · rw [List.mem_singleton.mp last] at low
            omega
        obtain ⟨passed, passedMem, found⟩ := ih earlier (by omega)
        exact ⟨passed, List.mem_append_left _ passedMem, found⟩

end ParentForest

end Hotstuff
