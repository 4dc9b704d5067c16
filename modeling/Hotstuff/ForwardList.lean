import Mathlib.Data.List.Nodup
import Mathlib.Logic.Function.Basic

/-!
# Singly linked lists in memory

A forward list is a pointer to its first node, and every node holds a value and
a pointer to the next one.  Elements are inserted and erased after a position,
which is a node or the place before the first.  The predicate `Represents` says
which values a list holds, and at which addresses; what the operations do to a
list is stated in its terms.
-/

namespace Hotstuff

structure ForwardNode (Address Value : Type*) where
  value : Value
  next : Option Address

/-- The first node, and the memory with the nodes of the list. -/
structure ForwardList (Address Value : Type*) where
  first : Option Address
  nodes : Address → Option (ForwardNode Address Value)

namespace ForwardList

variable {Address Value : Type*}

/-- Where something can be inserted or erased after. -/
inductive Position (Address : Type*)
  | beforeBegin
  | node (address : Address)

def empty : ForwardList Address Value where
  first := none
  nodes := fun _ => none

/-- The first value. -/
def front (list : ForwardList Address Value) : Option Value :=
  (list.first.bind list.nodes).map ForwardNode.value

/-- The node after a position. -/
def follow (list : ForwardList Address Value) :
    Position Address → Option Address
  | .beforeBegin => list.first
  | .node address => (list.nodes address).bind ForwardNode.next

section Operations

variable [DecidableEq Address]

/-- Let the node after a position be the given one. -/
def relink (list : ForwardList Address Value) (position : Position Address)
    (target : Option Address) : ForwardList Address Value :=
  match position with
  | .beforeBegin => { list with first := target }
  | .node address =>
      { list with
        nodes := Function.update list.nodes address
          ((list.nodes address).map fun node => { node with next := target }) }

/-- Insert a node, at an address that the allocator has returned. -/
def insertAfter (list : ForwardList Address Value)
    (position : Position Address) (address : Address) (value : Value) :
    ForwardList Address Value :=
  { list with
    nodes := Function.update list.nodes address
      (some ⟨value, list.follow position⟩) }.relink position (some address)

/-- Erase the node after a position and free its memory. -/
def eraseAfter (list : ForwardList Address Value)
    (position : Position Address) : ForwardList Address Value :=
  match list.follow position with
  | none => list
  | some address =>
      { list with nodes := Function.update list.nodes address none }.relink
        position (list.follow (.node address))

end Operations

/-! ### What a list holds -/

/-- Following the pointers from an address passes the entries and ends at the
null pointer. -/
inductive LinkedFrom (nodes : Address → Option (ForwardNode Address Value)) :
    Option Address → List (Address × Value) → Prop
  | nil : LinkedFrom nodes none []
  | cons {address : Address} {value : Value} {next : Option Address}
      {entries : List (Address × Value)}
      (allocated : nodes address = some ⟨value, next⟩)
      (tail : LinkedFrom nodes next entries) :
      LinkedFrom nodes (some address) ((address, value) :: entries)

/-- The list holds the entries, each at its own address. -/
structure Represents (list : ForwardList Address Value)
    (entries : List (Address × Value)) : Prop where
  linked : LinkedFrom list.nodes list.first entries
  distinct : (entries.map Prod.fst).Nodup

theorem represents_empty :
    (empty : ForwardList Address Value).Represents [] :=
  ⟨.nil, List.nodup_nil⟩

/-- Only the memory of the entries matters. -/
theorem LinkedFrom.congr
    {nodes changed : Address → Option (ForwardNode Address Value)}
    {start : Option Address} {entries : List (Address × Value)}
    (linked : LinkedFrom nodes start entries)
    (same : ∀ address ∈ entries.map Prod.fst,
      changed address = nodes address) :
    LinkedFrom changed start entries := by
  induction linked with
  | nil => exact .nil
  | @cons address value next entries allocated tail ih =>
      rw [List.map_cons, List.forall_mem_cons] at same
      exact .cons (same.1.trans allocated) (ih same.2)

theorem LinkedFrom.allocated_of_mem
    {nodes : Address → Option (ForwardNode Address Value)}
    {start : Option Address} {entries : List (Address × Value)}
    (linked : LinkedFrom nodes start entries) {address : Address}
    (member : address ∈ entries.map Prod.fst) :
    nodes address ≠ none := by
  induction linked with
  | nil => cases member
  | @cons first value next entries allocated tail ih =>
      rw [List.map_cons, List.mem_cons] at member
      rcases member with rfl | later
      · rw [allocated]
        exact Option.some_ne_none _
      · exact ih later

variable {list : ForwardList Address Value}
  {entries : List (Address × Value)}

theorem Represents.front (represents : list.Represents entries) :
    list.front = entries.head?.map Prod.snd := by
  obtain ⟨linked, -⟩ := represents
  unfold ForwardList.front
  generalize list.first = start at linked ⊢
  cases linked with
  | nil => rfl
  | cons allocated tail => simp [allocated]

theorem Represents.first (represents : list.Represents entries) :
    list.first = entries.head?.map Prod.fst := by
  obtain ⟨linked, -⟩ := represents
  generalize list.first = start at linked ⊢
  cases linked <;> rfl

/-- Free memory is not part of the list. -/
theorem Represents.notMem_of_free (represents : list.Represents entries)
    {address : Address} (free : list.nodes address = none) :
    address ∉ entries.map Prod.fst := by
  intro member
  exact represents.linked.allocated_of_mem member free

section Steps

variable [DecidableEq Address]

/-- Linking a new node after the last one appends its value. -/
theorem LinkedFrom.concat
    {nodes : Address → Option (ForwardNode Address Value)}
    {start : Option Address} {entries : List (Address × Value)}
    {last address : Address} {lastValue : Value}
    (linked : LinkedFrom nodes start (entries ++ [(last, lastValue)]))
    (distinct : ((entries ++ [(last, lastValue)]).map Prod.fst).Nodup)
    (new : address ∉ (entries ++ [(last, lastValue)]).map Prod.fst)
    (value : Value) :
    nodes last = some ⟨lastValue, none⟩ ∧
      LinkedFrom
        (Function.update
          (Function.update nodes address (some ⟨value, none⟩)) last
          (some ⟨lastValue, some address⟩))
        start (entries ++ [(last, lastValue), (address, value)]) := by
  induction entries generalizing start with
  | nil =>
      rw [List.nil_append, List.map_cons, List.map_nil,
        List.mem_singleton] at new
      cases linked with
      | cons allocated tail =>
          cases tail
          refine ⟨allocated, .cons (Function.update_self _ _ _) (.cons ?_ .nil)⟩
          rw [Function.update_of_ne new, Function.update_self]
  | cons entry entries ih =>
      obtain ⟨head, headValue⟩ := entry
      rw [List.cons_append, List.map_cons, List.nodup_cons] at distinct
      rw [List.cons_append, List.map_cons, List.mem_cons, not_or] at new
      cases linked with
      | cons allocated tail =>
          obtain ⟨lastNode, extended⟩ := ih tail distinct.2 new.2
          have notLast : head ≠ last := by
            rintro rfl
            exact distinct.1 (by simp)
          refine ⟨lastNode, .cons ?_ extended⟩
          rw [Function.update_of_ne notLast,
            Function.update_of_ne (Ne.symm new.1), allocated]

theorem Represents.insertAfter_last
    {last address : Address} {lastValue : Value}
    (represents : list.Represents (entries ++ [(last, lastValue)]))
    (free : list.nodes address = none) (value : Value) :
    (list.insertAfter (.node last) address value).Represents
      (entries ++ [(last, lastValue)] ++ [(address, value)]) := by
  have new := represents.notMem_of_free free
  obtain ⟨lastNode, extended⟩ :=
    represents.linked.concat represents.distinct new value
  have notNew : last ≠ address := by
    rintro rfl
    rw [free] at lastNode
    cases lastNode
  constructor
  · rw [List.append_assoc]
    simpa [insertAfter, relink, follow, Function.update_of_ne notNew,
      lastNode] using extended
  · rw [List.map_append, List.map_cons, List.map_nil]
    have appended := List.Nodup.concat new represents.distinct
    rwa [List.concat_eq_append] at appended

theorem Represents.insertAfter_beforeBegin (represents : list.Represents [])
    (address : Address) (value : Value) :
    (list.insertAfter .beforeBegin address value).Represents
      [(address, value)] := by
  have start : list.first = none := represents.first
  refine ⟨.cons (Function.update_self _ _ _) ?_, List.nodup_singleton _⟩
  rw [follow, start]
  exact .nil

/-- Erasing after the position before the first removes the first entry. -/
theorem Represents.eraseAfter_beforeBegin {address : Address} {value : Value}
    (represents : list.Represents ((address, value) :: entries)) :
    (list.eraseAfter .beforeBegin).Represents entries := by
  have start : list.first = some address := represents.first
  obtain ⟨linked, distinct⟩ := represents
  rw [List.map_cons, List.nodup_cons] at distinct
  rw [start] at linked
  cases linked with
  | cons allocated tail =>
      refine ⟨?_, distinct.2⟩
      have untouched : ∀ other ∈ entries.map Prod.fst,
          Function.update list.nodes address none other =
            list.nodes other := by
        intro other member
        apply Function.update_of_ne
        rintro rfl
        exact distinct.1 member
      simpa [eraseAfter, relink, follow, start, allocated] using
        tail.congr untouched

end Steps

end ForwardList

end Hotstuff
