import Hotstuff.ParentForest
import Hotstuff.TransitionSystem
import Mathlib.Data.Finset.Card
import Mathlib.Logic.Function.Basic

/-!
# Chained voting with locks

An abstract voting protocol on a forest of nodes, each of which names an older
node that it justifies.  A correct replica votes at strictly increasing
heights, holds a certified lock, and votes only for nodes that extend the lock
or whose justified node is higher than it.  When every voted node justifies
one of its proper ancestors, the middle of a chain of three directly justified
nodes can no longer be bypassed: every certified node at least as high as its
first node descends from it.
-/

namespace Hotstuff

open Function

/-- Finitely many replicas, the faulty ones among them, and a threshold for
which any two quorums share a correct replica. -/
structure ByzantineQuorums (Replica : Type*) [DecidableEq Replica] where
  replicas : Finset Replica
  faulty : Finset Replica
  threshold : Nat
  overlap : ∀ first ⊆ replicas, ∀ second ⊆ replicas,
    threshold ≤ first.card → threshold ≤ second.card →
      ∃ replica ∈ first ∩ second, replica ∉ faulty

/-- Counting form of quorum intersection: two subsets of a finite set overlap
in at least what their sizes exceed it by. -/
theorem card_add_card_le_inter {Replica : Type*} [DecidableEq Replica]
    {replicas first second : Finset Replica}
    (firstSub : first ⊆ replicas) (secondSub : second ⊆ replicas) :
    first.card + second.card ≤ replicas.card + (first ∩ second).card := by
  have unionLe := Finset.card_le_card (Finset.union_subset firstSub secondSub)
  have counted := Finset.card_union_add_card_inter first second
  omega

/-- Of two members of a list one comes first. -/
theorem pairwise_of_mem {Item : Type*} {relation : Item → Item → Prop}
    {items : List Item} (ordered : items.Pairwise relation)
    {first second : Item} (firstMem : first ∈ items)
    (secondMem : second ∈ items) :
    relation first second ∨ first = second ∨ relation second first := by
  induction ordered with
  | nil => simp at firstMem
  | cons headRelated _ ih =>
      rcases List.mem_cons.mp firstMem with rfl | firstTail <;>
        rcases List.mem_cons.mp secondMem with rfl | secondTail
      · exact .inr (.inl rfl)
      · exact .inl (headRelated _ secondTail)
      · exact .inr (.inr (headRelated _ firstTail))
      · exact ih firstTail secondTail

/-- Quorums, the forest of nodes, and the node that each node justifies. -/
structure VotingRules (Replica Node : Type*) [DecidableEq Replica] where
  quorums : ByzantineQuorums Replica
  forest : ParentForest Node
  justify : Node → Option Node

/-- What every replica has voted for, newest vote first and each vote paired
with the lock held when it was cast, and the lock it holds now. -/
structure VoteState (Replica Node : Type*) where
  votes : Replica → List (Node × Node)
  lock : Replica → Node

namespace VotingRules

variable {Replica Node : Type*} [DecidableEq Replica]
  (rules : VotingRules Replica Node)

/-- The root, and every node for which all correct members of some quorum have
voted. -/
def Certified (state : VoteState Replica Node) (node : Node) : Prop :=
  node = rules.forest.root ∨
    ∃ quorum ⊆ rules.quorums.replicas,
      rules.quorums.threshold ≤ quorum.card ∧
        ∀ replica ∈ quorum, replica ∉ rules.quorums.faulty →
          ∃ lock, (node, lock) ∈ state.votes replica

/-- The vote rule: the node justifies a certified proper ancestor, and either
that ancestor is higher than the lock or the node extends the lock. -/
structure Votable (state : VoteState Replica Node) (node lock : Node) :
    Prop where
  rooted : rules.forest.Rooted node
  justified : ∃ support, rules.justify node = some support ∧
    rules.Certified state support ∧
    rules.forest.Ancestor support node ∧ support ≠ node ∧
    (rules.forest.height lock < rules.forest.height support ∨
      rules.forest.Ancestor lock node)

/-- The node justified by the node that a vote's block justifies is no higher
than the given lock. -/
def Covers (lock node : Node) : Prop :=
  ∀ middle bottom, rules.justify node = some middle →
    rules.justify middle = some bottom →
      rules.forest.height bottom ≤ rules.forest.height lock

/-- A lock may move to any certified node that is not lower. -/
structure Lockable (state : VoteState Replica Node) (replica : Replica)
    (lock : Node) : Prop where
  certified : rules.Certified state lock
  rooted : rules.forest.Rooted lock
  higher : rules.forest.height (state.lock replica) ≤
    rules.forest.height lock

/-- Steps of the voting protocol. -/
inductive Step (Replica Node : Type*)
  /-- vote for `node`, then hold `lock` -/
  | vote (replica : Replica) (node lock : Node)
  /-- move the lock without voting -/
  | relock (replica : Replica) (lock : Node)

/-- The replica that takes the step. -/
def Step.replica : Step Replica Node → Replica
  | .vote replica _ _ => replica
  | .relock replica _ => replica

/-- The voting protocol as a transition system. -/
def system : TransitionSystem (VoteState Replica Node) (Step Replica Node) where
  initial := fun state =>
    (∀ replica, state.votes replica = []) ∧
      ∀ replica, state.lock replica = rules.forest.root
  enabled := fun state step =>
    match step with
    | .vote replica node lock =>
        (∀ earlier ∈ state.votes replica,
          rules.forest.height earlier.1 < rules.forest.height node) ∧
        rules.Votable state node (state.lock replica) ∧
        rules.Lockable state replica lock ∧ rules.Covers lock node
    | .relock replica lock => rules.Lockable state replica lock
  next := fun state step =>
    match step with
    | .vote replica node lock =>
        { votes := update state.votes replica
            ((node, state.lock replica) :: state.votes replica)
          lock := update state.lock replica lock }
    | .relock replica lock =>
        { votes := state.votes
          lock := update state.lock replica lock }

/-! ### Votes are only added -/

variable {rules}

theorem mem_votes_next {state : VoteState Replica Node} {replica : Replica}
    {vote : Node × Node} (step : Step Replica Node)
    (member : vote ∈ state.votes replica) :
    vote ∈ (rules.system.next state step).votes replica := by
  cases step with
  | relock => exact member
  | vote voter node lock =>
      by_cases same : replica = voter
      · subst same
        simp [system, member]
      · simpa [system, update_of_ne same] using member

/-- A step only concerns the votes and the lock of one replica. -/
theorem next_other {state : VoteState Replica Node} {replica : Replica}
    {step : Step Replica Node} (other : step.replica ≠ replica) :
    (rules.system.next state step).votes replica = state.votes replica ∧
      (rules.system.next state step).lock replica = state.lock replica := by
  cases step with
  | vote voter node lock =>
      exact ⟨update_of_ne (Ne.symm other) _ _, update_of_ne (Ne.symm other) _ _⟩
  | relock mover lock => exact ⟨rfl, update_of_ne (Ne.symm other) _ _⟩

theorem Certified.next {state : VoteState Replica Node} {node : Node}
    (certified : rules.Certified state node) (step : Step Replica Node) :
    rules.Certified (rules.system.next state step) node := by
  rcases certified with root | ⟨quorum, within, size, voted⟩
  · exact .inl root
  · refine .inr ⟨quorum, within, size, ?_⟩
    intro replica member correct
    obtain ⟨lock, vote⟩ := voted replica member correct
    exact ⟨lock, mem_votes_next step vote⟩

theorem Votable.next {state : VoteState Replica Node} {node lock : Node}
    (votable : rules.Votable state node lock) (step : Step Replica Node) :
    rules.Votable (rules.system.next state step) node lock := by
  obtain ⟨support, names, certified, rest⟩ := votable.justified
  exact ⟨votable.rooted, support, names, certified.next step, rest⟩

/-! ### The invariant -/

variable (rules)

/-- A quorum whose correct members voted for the node while their lock was
still below it. -/
def FreshlyCertified (state : VoteState Replica Node) (node : Node) : Prop :=
  ∃ quorum ⊆ rules.quorums.replicas,
    rules.quorums.threshold ≤ quorum.card ∧
      ∀ replica ∈ quorum, replica ∉ rules.quorums.faulty →
        ∃ lock, (node, lock) ∈ state.votes replica ∧
          rules.forest.height lock < rules.forest.height node

/-- What every reachable voting state satisfies.  The last field separates the
votes that created a certificate from votes cast by replicas already locked on
the node: as long as only the former exist they are all fresh, and the latter
can only be cast once a fresh quorum exists. -/
structure Invariant (state : VoteState Replica Node) : Prop where
  lockCertified : ∀ replica, rules.Certified state (state.lock replica)
  lockRooted : ∀ replica, rules.forest.Rooted (state.lock replica)
  ordered : ∀ replica, (state.votes replica).Pairwise fun newer older =>
    rules.forest.height older.1 < rules.forest.height newer.1 ∧
      rules.Covers newer.2 older.1
  votable : ∀ replica, ∀ vote ∈ state.votes replica,
    rules.Votable state vote.1 vote.2
  voteLock : ∀ replica, ∀ vote ∈ state.votes replica,
    rules.Certified state vote.2 ∧ rules.forest.Rooted vote.2
  covered : ∀ replica, ∀ vote ∈ state.votes replica,
    rules.Covers (state.lock replica) vote.1
  fresh : ∀ node, rules.FreshlyCertified state node ∨
    ∀ replica lock, (node, lock) ∈ state.votes replica →
      rules.forest.height lock < rules.forest.height node

variable {rules}

theorem Covers.mono {low high node : Node} (covers : rules.Covers low node)
    (higher : rules.forest.height low ≤ rules.forest.height high) :
    rules.Covers high node :=
  fun middle bottom first second =>
    (covers middle bottom first second).trans higher

theorem FreshlyCertified.next {state : VoteState Replica Node} {node : Node}
    (certified : rules.FreshlyCertified state node)
    (step : Step Replica Node) :
    rules.FreshlyCertified (rules.system.next state step) node := by
  obtain ⟨quorum, within, size, voted⟩ := certified
  refine ⟨quorum, within, size, ?_⟩
  intro replica member correct
  obtain ⟨lock, vote, below⟩ := voted replica member correct
  exact ⟨lock, mem_votes_next step vote, below⟩

/-- A certificate on a node other than the root contains a fresh one. -/
theorem Invariant.freshlyCertified {state : VoteState Replica Node}
    (invariant : rules.Invariant state) {node : Node}
    (certified : rules.Certified state node)
    (notRoot : node ≠ rules.forest.root) :
    rules.FreshlyCertified state node := by
  rcases invariant.fresh node with done | allFresh
  · exact done
  · rcases certified with root | ⟨quorum, within, size, voted⟩
    · exact (notRoot root).elim
    · refine ⟨quorum, within, size, ?_⟩
      intro replica member correct
      obtain ⟨lock, vote⟩ := voted replica member correct
      exact ⟨lock, vote, allFresh replica lock vote⟩

/-- A vote whose lock is not below the node it votes for repeats a node that
is certified already. -/
theorem Invariant.locked_of_not_fresh {state : VoteState Replica Node}
    (invariant : rules.Invariant state) {replica : Replica} {node : Node}
    (votable : rules.Votable state node (state.lock replica))
    (notFresh : ¬ rules.forest.height (state.lock replica) <
      rules.forest.height node) :
    rules.FreshlyCertified state node := by
  obtain ⟨support, -, -, below, proper, safe⟩ := votable.justified
  have supportLt := below.height_lt votable.rooted proper
  have extends' : rules.forest.Ancestor (state.lock replica) node := by
    rcases safe with higher | extension
    · omega
    · exact extension
  have same : state.lock replica = node :=
    extends'.eq_of_height_le votable.rooted (by omega)
  apply invariant.freshlyCertified (same ▸ invariant.lockCertified replica)
  rintro rfl
  simp at supportLt

theorem Invariant.initial {state : VoteState Replica Node}
    (start : rules.system.initial state) : rules.Invariant state := by
  obtain ⟨noVotes, rootLock⟩ := start
  constructor
  · intro replica
    exact .inl (rootLock replica)
  · intro replica
    rw [rootLock replica]
    exact .root
  · intro replica
    rw [noVotes replica]
    exact .nil
  all_goals simp [noVotes]

/-- Moving a lock up keeps the invariant. -/
theorem Invariant.relock {state : VoteState Replica Node}
    (invariant : rules.Invariant state) {mover : Replica} {lock : Node}
    (allowed : rules.Lockable state mover lock) :
    rules.Invariant (rules.system.next state (.relock mover lock)) := by
  have lockCases (replica : Replica) :
      (rules.system.next state (.relock mover lock)).lock replica =
        if replica = mover then lock else state.lock replica := by
    simp [system, update_apply]
  constructor
  · intro replica
    rw [lockCases]
    split
    · exact allowed.certified.next _
    · exact (invariant.lockCertified replica).next _
  · intro replica
    rw [lockCases]
    split
    · exact allowed.rooted
    · exact invariant.lockRooted replica
  · exact invariant.ordered
  · intro replica vote member
    exact (invariant.votable replica vote member).next _
  · intro replica vote member
    obtain ⟨certified, rooted⟩ := invariant.voteLock replica vote member
    exact ⟨certified.next _, rooted⟩
  · intro replica vote member
    have covered := invariant.covered replica vote member
    rw [lockCases]
    split
    · rename_i same
      subst same
      exact covered.mono allowed.higher
    · exact covered
  · intro node
    rcases invariant.fresh node with certified | allFresh
    · exact .inl (certified.next _)
    · exact .inr allFresh

/-! ### Casting a vote -/

section Vote

variable {state : VoteState Replica Node} {voter : Replica} {node lock : Node}

theorem lock_next_vote (replica : Replica) :
    (rules.system.next state (.vote voter node lock)).lock replica =
      if replica = voter then lock else state.lock replica := by
  simp [system, update_apply]

/-- A vote after the step is the new one or was there before. -/
theorem mem_votes_next_vote {replica : Replica} {vote : Node × Node}
    (member : vote ∈
      (rules.system.next state (.vote voter node lock)).votes replica) :
    (replica = voter ∧ vote = (node, state.lock voter)) ∨
      vote ∈ state.votes replica := by
  by_cases same : replica = voter
  · subst same
    simpa [system] using member
  · right
    simpa [system, same] using member

theorem Invariant.ordered_vote (invariant : rules.Invariant state)
    (newest : ∀ earlier ∈ state.votes voter,
      rules.forest.height earlier.1 < rules.forest.height node)
    (replica : Replica) :
    ((rules.system.next state (.vote voter node lock)).votes
      replica).Pairwise fun newer older =>
        rules.forest.height older.1 < rules.forest.height newer.1 ∧
          rules.Covers newer.2 older.1 := by
  by_cases same : replica = voter
  · subst same
    have votes : (rules.system.next state (.vote replica node lock)).votes
        replica = (node, state.lock replica) :: state.votes replica := by
      simp [system]
    rw [votes]
    refine List.pairwise_cons.mpr ⟨?_, invariant.ordered replica⟩
    intro older member
    exact ⟨newest older member, invariant.covered replica older member⟩
  · have votes : (rules.system.next state (.vote voter node lock)).votes
        replica = state.votes replica := by
      simp [system, same]
    rw [votes]
    exact invariant.ordered replica

/-- The new vote is fresh itself unless its node was certified before. -/
theorem Invariant.fresh_vote (invariant : rules.Invariant state)
    (votable : rules.Votable state node (state.lock voter)) (other : Node) :
    rules.FreshlyCertified
        (rules.system.next state (.vote voter node lock)) other ∨
      ∀ replica held, (other, held) ∈
          (rules.system.next state (.vote voter node lock)).votes replica →
        rules.forest.height held < rules.forest.height other := by
  rcases invariant.fresh other with certified | allFresh
  · exact .inl (certified.next _)
  by_cases already : rules.FreshlyCertified state other
  · exact .inl (already.next _)
  right
  intro replica held member
  rcases mem_votes_next_vote member with ⟨-, isNew⟩ | older
  · obtain ⟨rfl, rfl⟩ := Prod.mk.inj isNew
    by_contra notBelow
    exact already (invariant.locked_of_not_fresh votable notBelow)
  · exact allFresh replica held older

/-- Casting a vote, with the lock raised far enough to cover it, keeps the
invariant. -/
theorem Invariant.vote (invariant : rules.Invariant state)
    (newest : ∀ earlier ∈ state.votes voter,
      rules.forest.height earlier.1 < rules.forest.height node)
    (votable : rules.Votable state node (state.lock voter))
    (allowed : rules.Lockable state voter lock)
    (covers : rules.Covers lock node) :
    rules.Invariant (rules.system.next state (.vote voter node lock)) := by
  constructor
  · intro replica
    rw [lock_next_vote]
    split
    · exact allowed.certified.next _
    · exact (invariant.lockCertified replica).next _
  · intro replica
    rw [lock_next_vote]
    split
    · exact allowed.rooted
    · exact invariant.lockRooted replica
  · exact invariant.ordered_vote newest
  · intro replica vote member
    rcases mem_votes_next_vote member with ⟨-, rfl⟩ | older
    · exact votable.next _
    · exact (invariant.votable replica vote older).next _
  · intro replica vote member
    rcases mem_votes_next_vote member with ⟨-, rfl⟩ | older
    · exact ⟨(invariant.lockCertified voter).next _,
        invariant.lockRooted voter⟩
    · obtain ⟨certified, rooted⟩ := invariant.voteLock replica vote older
      exact ⟨certified.next _, rooted⟩
  · intro replica vote member
    rw [lock_next_vote]
    rcases mem_votes_next_vote member with ⟨rfl, rfl⟩ | older
    · rw [if_pos rfl]
      exact covers
    · have covered := invariant.covered replica vote older
      split
      · rename_i same
        subst same
        exact covered.mono allowed.higher
      · exact covered
  · exact invariant.fresh_vote votable

end Vote

theorem invariant_of_reachable {state : VoteState Replica Node}
    (reached : rules.system.Reachable state) : rules.Invariant state := by
  refine reached.invariant rules.Invariant
    (fun _ start => Invariant.initial start) ?_
  intro state step _ invariant allowed
  cases step with
  | vote voter node lock =>
      obtain ⟨newest, votable, lockable, covers⟩ := allowed
      exact invariant.vote newest votable lockable covers
  | relock mover lock => exact invariant.relock allowed

/-! ### Safety -/

/-- Two certificates share a correct voter. -/
theorem Certified.common_voter {state : VoteState Replica Node}
    {first second : Node} (firstCertified : rules.Certified state first)
    (secondCertified : rules.Certified state second)
    (firstNotRoot : first ≠ rules.forest.root)
    (secondNotRoot : second ≠ rules.forest.root) :
    ∃ replica firstLock secondLock,
      (first, firstLock) ∈ state.votes replica ∧
        (second, secondLock) ∈ state.votes replica := by
  rcases firstCertified with root | ⟨quorum, within, size, voted⟩
  · exact (firstNotRoot root).elim
  rcases secondCertified with root | ⟨quorum', within', size', voted'⟩
  · exact (secondNotRoot root).elim
  obtain ⟨replica, shared, correct⟩ :=
    rules.quorums.overlap quorum within quorum' within' size size'
  obtain ⟨member, member'⟩ := Finset.mem_inter.mp shared
  obtain ⟨firstLock, firstVote⟩ := voted replica member correct
  obtain ⟨secondLock, secondVote⟩ := voted' replica member' correct
  exact ⟨replica, firstLock, secondLock, firstVote, secondVote⟩

/-- Of two votes of one replica for nodes at different heights, the one for
the higher node is newer. -/
theorem Invariant.newer {state : VoteState Replica Node}
    (invariant : rules.Invariant state) {replica : Replica}
    {low high : Node × Node}
    (lowVote : low ∈ state.votes replica)
    (highVote : high ∈ state.votes replica)
    (less : rules.forest.height low.1 < rules.forest.height high.1) :
    rules.Covers high.2 low.1 := by
  rcases pairwise_of_mem (invariant.ordered replica) lowVote highVote with
    lowNewer | equal | highNewer
  · have := lowNewer.1
    omega
  · subst equal
    omega
  · exact highNewer.2

/-- Votes of one replica at equal heights are for the same node. -/
theorem Invariant.one_vote_per_height {state : VoteState Replica Node}
    (invariant : rules.Invariant state) {replica : Replica}
    {first second : Node × Node}
    (firstVote : first ∈ state.votes replica)
    (secondVote : second ∈ state.votes replica)
    (equal : rules.forest.height first.1 = rules.forest.height second.1) :
    first = second := by
  rcases pairwise_of_mem (invariant.ordered replica) firstVote secondVote with
    newer | same | older
  · have := newer.1
    omega
  · exact same
  · have := older.1
    omega

theorem Certified.rooted {state : VoteState Replica Node} {node : Node}
    (certified : rules.Certified state node)
    (invariant : rules.Invariant state) :
    rules.forest.Rooted node := by
  by_cases root : node = rules.forest.root
  · subst root
    exact .root
  · obtain ⟨replica, lock, -, vote, -⟩ :=
      certified.common_voter certified root root
    exact (invariant.votable replica _ vote).rooted

/-- At most one node per height is certified. -/
theorem Certified.unique {state : VoteState Replica Node}
    (invariant : rules.Invariant state) {first second : Node}
    (firstCertified : rules.Certified state first)
    (secondCertified : rules.Certified state second)
    (equal : rules.forest.height first = rules.forest.height second) :
    first = second := by
  have firstRooted := firstCertified.rooted invariant
  have secondRooted := secondCertified.rooted invariant
  by_cases firstRoot : first = rules.forest.root
  · subst firstRoot
    exact (secondRooted.eq_root (by simpa using equal.symm)).symm
  by_cases secondRoot : second = rules.forest.root
  · subst secondRoot
    exact firstRooted.eq_root (by simpa using equal)
  obtain ⟨replica, firstLock, secondLock, firstVote, secondVote⟩ :=
    firstCertified.common_voter secondCertified firstRoot secondRoot
  exact congrArg Prod.fst
    (invariant.one_vote_per_height firstVote secondVote equal)

/-- The node justified by a certified node is certified. -/
theorem Certified.justified {state : VoteState Replica Node}
    (invariant : rules.Invariant state) {node support : Node}
    (certified : rules.Certified state node)
    (names : rules.justify node = some support)
    (notRoot : node ≠ rules.forest.root) :
    rules.Certified state support := by
  obtain ⟨replica, lock, -, vote, -⟩ :=
    certified.common_voter certified notRoot notRoot
  obtain ⟨support', names', supported, -⟩ :=
    (invariant.votable replica _ vote).justified
  obtain rfl : _ = _ := Option.some.inj (names.symm.trans names')
  exact supported

variable (rules)

/-- Three nodes, each the parent of the next one and justified by it. -/
structure ThreeChain (bottom middle top : Node) : Prop where
  topParent : rules.forest.parent top = some middle
  topJustify : rules.justify top = some middle
  middleParent : rules.forest.parent middle = some bottom
  middleJustify : rules.justify middle = some bottom

variable {rules}

theorem ThreeChain.height {bottom middle top : Node}
    (chain : rules.ThreeChain bottom middle top)
    (rooted : rules.forest.Rooted bottom) :
    rules.forest.height middle = rules.forest.height bottom + 1 ∧
      rules.forest.height top = rules.forest.height bottom + 2 := by
  have middleRooted := ParentForest.Rooted.child chain.middleParent rooted
  have middleHeight :=
    ParentForest.height_child chain.middleParent rooted
  have topHeight := ParentForest.height_child chain.topParent middleRooted
  omega

/-- Once the top of a chain of three is certified, every certified node at
least as high as its bottom descends from the bottom. -/
theorem ThreeChain.safe {state : VoteState Replica Node}
    (invariant : rules.Invariant state) {bottom middle top : Node}
    (chain : rules.ThreeChain bottom middle top)
    (topCertified : rules.Certified state top) {node : Node}
    (certified : rules.Certified state node)
    (high : rules.forest.height bottom ≤ rules.forest.height node) :
    rules.forest.Ancestor bottom node := by
  have topRooted := topCertified.rooted invariant
  have middleAbove := ParentForest.Ancestor.of_parent chain.topParent
  have bottomAbove := ParentForest.Ancestor.of_parent chain.middleParent
  have bottomRooted := bottomAbove.rooted (middleAbove.rooted topRooted)
  obtain ⟨middleHeight, topHeight⟩ := chain.height bottomRooted
  have topNotRoot : top ≠ rules.forest.root := by
    rintro rfl
    simp at topHeight
  have middleNotRoot : middle ≠ rules.forest.root := by
    rintro rfl
    simp at middleHeight
  have middleCertified :=
    topCertified.justified invariant chain.topJustify topNotRoot
  have bottomCertified :=
    middleCertified.justified invariant chain.middleJustify middleNotRoot
  -- Strong induction on the height of the certified node.
  induction size : rules.forest.height node using Nat.strong_induction_on
    generalizing node with
  | _ size ih =>
  subst size
  have rooted := certified.rooted invariant
  by_cases atBottom : rules.forest.height node = rules.forest.height bottom
  · rw [certified.unique invariant bottomCertified atBottom]
    exact .refl _
  by_cases atMiddle : rules.forest.height node = rules.forest.height middle
  · rw [certified.unique invariant middleCertified atMiddle]
    exact bottomAbove
  by_cases atTop : rules.forest.height node = rules.forest.height top
  · rw [certified.unique invariant topCertified atTop]
    exact bottomAbove.trans middleAbove
  have aboveTop : rules.forest.height top < rules.forest.height node := by
    omega
  have notRoot : node ≠ rules.forest.root := by
    rintro rfl
    simp at aboveTop
  -- A correct replica voted for the top first and for the node, while its
  -- lock was still below the node, later.
  obtain ⟨quorum, within, quorumSize, voted⟩ :=
    invariant.freshlyCertified certified notRoot
  obtain ⟨quorum', within', quorumSize', voted'⟩ :=
    invariant.freshlyCertified topCertified topNotRoot
  obtain ⟨replica, shared, correct⟩ :=
    rules.quorums.overlap quorum within quorum' within' quorumSize quorumSize'
  obtain ⟨member, member'⟩ := Finset.mem_inter.mp shared
  obtain ⟨lock, vote, lockBelow⟩ := voted replica member correct
  obtain ⟨topLock, topVote, -⟩ := voted' replica member' correct
  have lockHigh : rules.forest.height bottom ≤ rules.forest.height lock :=
    invariant.newer topVote vote aboveTop middle bottom
      chain.topJustify chain.middleJustify
  have lockAbove : rules.forest.Ancestor bottom lock :=
    ih _ lockBelow (invariant.voteLock replica _ vote).1 lockHigh rfl
  obtain ⟨support, names, supported, below, proper, safe⟩ :=
    (invariant.votable replica _ vote).justified
  rcases safe with higher | extension
  · have supportBelow := below.height_lt rooted proper
    have supportHigh :
        rules.forest.height bottom ≤ rules.forest.height support :=
      lockHigh.trans higher.le
    exact (ih _ supportBelow supported supportHigh rfl).trans below
  · exact lockAbove.trans extension

end VotingRules

end Hotstuff
