import Hotstuff.Leadership

/-!
# Progress

In every reachable state the correct replicas can commit new blocks with given
bodies.  They propose, and wait until they have nothing left to do for each
other.  In which order they do that, and which calls fail and are repeated, does
not matter.  Nor does what the faulty replicas did before, and what is still on
its way.

An old message that is processed in between can spoil a round.  Then the replicas
start again, and there is one old message less.
-/

namespace Hotstuff

section Progress

variable [WireTypes] [Externals]

/-! ### Blocks on top of each other -/

/-- Each block has the one before it as parent and as justify block. -/
def Stacked : Hash → List HotstuffBlockWire → Prop
  | _, [] => True
  | below, wireBlock :: wireBlocks =>
      wireBlock.header.parentHash = below ∧
        wireBlock.header.qc.justify = below ∧
        Stacked (hashHeader wireBlock.header) wireBlocks

theorem Stacked.of_append {below : Hash}
    {wireBlocks rest : List HotstuffBlockWire}
    (stacked : Stacked below (wireBlocks ++ rest)) :
    Stacked below wireBlocks := by
  induction wireBlocks generalizing below with
  | nil => trivial
  | cons wireBlock wireBlocks ih =>
      exact ⟨stacked.1, stacked.2.1, ih stacked.2.2⟩

/-- The last block, or the one below them all. -/
def topOf : Hash → List HotstuffBlockWire → Hash
  | below, [] => below
  | _, wireBlock :: wireBlocks =>
      topOf (hashHeader wireBlock.header) wireBlocks

theorem topOf_mem {below : Hash} {wireBlocks : List HotstuffBlockWire}
    (some : wireBlocks ≠ []) :
    topOf below wireBlocks ∈
      wireBlocks.map fun wireBlock => hashHeader wireBlock.header := by
  induction wireBlocks generalizing below with
  | nil => exact (some rfl).elim
  | cons wireBlock wireBlocks ih =>
      rcases eq_or_ne wireBlocks [] with rfl | more
      · exact List.mem_cons_self
      · exact List.mem_cons_of_mem _ (ih more)

/-- The path to the last block ends with the stacked blocks. -/
theorem Stacked.path {collisionFree : CollisionFree} {below : Hash}
    {wireBlocks : List HotstuffBlockWire} (stacked : Stacked below wireBlocks)
    {nodes : List Hash}
    (path : (headerForest collisionFree).Path (topOf below wireBlocks) nodes) :
    ∃ earlier, (headerForest collisionFree).Path below earlier ∧
      nodes = earlier ++
        wireBlocks.map fun wireBlock => hashHeader wireBlock.header := by
  induction wireBlocks generalizing below with
  | nil => exact ⟨nodes, path, (List.append_nil nodes).symm⟩
  | cons wireBlock wireBlocks ih =>
      obtain ⟨parentEq, -, stacked⟩ := stacked
      obtain ⟨lower, lowerPath, rfl⟩ := ih stacked path
      have edge := headerForest_parent collisionFree wireBlock.header
      rw [parentEq] at edge
      obtain ⟨earlier, upper, rfl⟩ := lowerPath.parent edge
      exact ⟨earlier, upper, by simp⟩

/-- Four stacked blocks are a chain of three with a block that justifies it. -/
theorem Stacked.threeChain {deployment : Deployment}
    (configured : deployment.WellConfigured) (collisionFree : CollisionFree)
    {below : Hash} {bottom middle top last : HotstuffBlockWire}
    {rest : List HotstuffBlockWire}
    (stacked : Stacked below (bottom :: middle :: top :: last :: rest)) :
    (configured.rules collisionFree).ThreeChain (hashHeader bottom.header)
        (hashHeader middle.header) (hashHeader top.header) ∧
      headerJustify (hashHeader last.header) =
        some (hashHeader top.header) := by
  obtain ⟨-, -, parent1, justify1, parent2, justify2, -, justify3, -⟩ := stacked
  constructor
  · exact
      { topParent := parent2 ▸ headerForest_parent collisionFree top.header
        topJustify := justify2 ▸
          headerJustify_hashHeader collisionFree top.header
        middleParent := parent1 ▸
          headerForest_parent collisionFree middle.header
        middleJustify := justify1 ▸
          headerJustify_hashHeader collisionFree middle.header }
  · rw [headerJustify_hashHeader collisionFree last.header, justify3]

/-- All but the last three stacked blocks are committed once all are
settled. -/
theorem Stacked.committed {deployment : Deployment}
    {configured : deployment.WellConfigured} {collisionFree : CollisionFree}
    {core : HotstuffCore} {below : Hash}
    {wireBlocks rest : List HotstuffBlockWire}
    (stacked : Stacked below (wireBlocks ++ rest)) (long : 3 ≤ rest.length)
    (settled : ∀ wireBlock ∈ wireBlocks ++ rest,
      core.Settled configured collisionFree (hashHeader wireBlock.header))
    {wireBlock : HotstuffBlockWire} (member : wireBlock ∈ wireBlocks) :
    hashHeader wireBlock.header ∈ core.committed := by
  induction wireBlocks generalizing below with
  | nil => cases member
  | cons bottom wireBlocks ih =>
      rcases List.mem_cons.mp member with rfl | later
      swap
      · exact ih stacked.2.2 (fun other above =>
          settled other (List.mem_cons_of_mem _ above)) later
      have more : 3 ≤ (wireBlocks ++ rest).length := by
        rw [List.length_append]
        omega
      change Stacked below (wireBlock :: (wireBlocks ++ rest)) at stacked
      rw [List.cons_append] at settled
      generalize wireBlocks ++ rest = above at more stacked settled
      match above, more with
      | middle :: top :: last :: _, _ =>
          obtain ⟨chain, justifies⟩ :=
            stacked.threeChain configured collisionFree
          exact (settled last (by simp) _ _ _ justifies chain).resolve_left
            (collisionFree.ne_zero _)

/-! ### Proposing and coming to rest -/

/-- By proposing, the correct replicas bring about the goal: one of them proposes,
or they wait until they have nothing left to do for each other, and however they
come to rest, they can go on to the goal. -/
inductive Attains (deployment : Deployment) (goal : Cluster → Prop) :
    Cluster → Prop
  | done {cluster : Cluster} (reached : goal cluster) :
      Attains deployment goal cluster
  | propose {cluster : Cluster} {leader : ReplicaID} {body : Body}
      (member : leader ∈ deployment.correct)
      (asked : (cluster.cores leader).BodyAsked (.doPropose body))
      (enabled : deployment.cluster.enabled cluster (proposal leader body))
      (after : Attains deployment goal
        (cluster.next (proposal leader body))) :
      Attains deployment goal cluster
  | settle {cluster : Cluster}
      (possible : ∃ last,
        deployment.Settlement deployment.correct cluster last)
      (every : ∀ last, deployment.Settlement deployment.correct cluster last →
        Attains deployment goal last) :
      Attains deployment goal cluster

/-- There is a run to the goal. -/
theorem Attains.leads {deployment : Deployment} {goal : Cluster → Prop}
    {cluster : Cluster} (attains : Attains deployment goal cluster) :
    ∃ last, (deployment.cluster.restrict Cluster.Keeping).Leads cluster last ∧
      goal last := by
  induction attains with
  | done reached => exact ⟨_, .refl _, reached⟩
  | propose member asked enabled after ih =>
      obtain ⟨last, leads, reached⟩ := ih
      exact ⟨last, .trans (.step ⟨enabled, trivial⟩) leads, reached⟩
  | settle possible every ih =>
      obtain ⟨middle, settlement⟩ := possible
      obtain ⟨last, leads, reached⟩ := ih middle settlement
      exact ⟨last, .trans (settlement.1.restrict
        Deployment.keeping_of_settling).of_restrict leads, reached⟩

/-- What follows a round that an old message has spoiled. -/
def Retries (deployment : Deployment) (collisionFree : CollisionFree)
    (goal : Cluster → Prop) (limit : Nat) (cluster : Cluster) : Prop :=
  ∀ last, (deployment.cluster.restrict Cluster.Keeping).Reachable last →
    deployment.ProposedBelow collisionFree last.cores limit →
    (∀ rid, HotstuffCore.Later (cluster.cores rid) (last.cores rid)) →
    last.backlog deployment.correct < cluster.backlog deployment.correct →
      Attains deployment goal last

omit [Externals] in
theorem Deployment.Proposed.later {deployment : Deployment}
    {cluster last : Cluster} {wireBlock : HotstuffBlockWire}
    (proposed : deployment.Proposed cluster.cores wireBlock)
    (later : ∀ rid, HotstuffCore.Later (cluster.cores rid) (last.cores rid)) :
    deployment.Proposed last.cores wireBlock := by
  obtain ⟨rid, member, sent⟩ := proposed
  exact ⟨rid, member, ((later rid).trace.filterMap _).subset sent⟩

section Rounds

variable {deployment : Deployment} {collisionFree : CollisionFree}
  {goal : Cluster → Prop} {limit : Nat} {cluster last : Cluster}

theorem Retries.later (retries : Retries deployment collisionFree goal limit
      cluster)
    (later : ∀ rid, HotstuffCore.Later (cluster.cores rid) (last.cores rid))
    (notMore : last.backlog deployment.correct ≤
      cluster.backlog deployment.correct) :
    Retries deployment collisionFree goal limit last :=
  fun final reachable below after fewer => retries final reachable below
    (fun rid => (later rid).trans (after rid)) (fewer.trans_le notMore)

variable {leader : ReplicaID} {bound : Nat}
  (configured : deployment.WellConfigured) (small : limit < 2 ^ 32)

include configured small

/-- One round. -/
theorem Leading.attains
    (leading : Leading deployment collisionFree cluster leader bound 0)
    (room : bound + 1 ≤ limit) (body : Body)
    (asked : body = [] ∨ (cluster.cores leader).asksNonempty = true)
    (retries : Retries deployment collisionFree goal limit cluster)
    (onward : ∀ last,
      (∀ rid, HotstuffCore.Later (cluster.cores rid) (last.cores rid)) →
      Retries deployment collisionFree goal limit last →
      Adds configured collisionFree cluster last leader bound
        ((cluster.cores leader).minted body).wireBlock →
      Attains deployment goal last) :
    Attains deployment goal cluster := by
  have fits : bound < 2 ^ 32 := by omega
  have opened := leading.opened configured fits body
  refine .propose leading.member asked (leading.enabled configured fits body).1
    (.settle (deployment.exists_settlement collisionFree configured
      opened.reachable (opened.below configured (.refl _)) (by omega)) ?_)
  intro last settlement
  have later := leading.later_of_round configured fits settlement
  have backlog := deployment.backlog_of_settlement collisionFree configured
    opened.reachable deployment.correct_subset
    (fun _ => deployment.not_faulty) settlement
  rw [proposal, Cluster.backlog_own, ← proposal] at backlog
  rcases backlog with fewer | ⟨notMore, takesNew⟩
  · refine retries last (leading.reachable_of_round configured fits settlement)
      ?_ later fewer
    intro wireBlock proposed
    exact (opened.below configured settlement.1 wireBlock proposed).trans room
  · exact onward last later (retries.later later notMore)
      (leading.adds configured fits settlement takesNew)

/-- Empty blocks, until the leaf is as high as any block. -/
theorem Leading.attains_climbing {missing : Nat}
    (leading : Leading deployment collisionFree cluster leader bound missing)
    (room : bound ≤ limit)
    (retries : Retries deployment collisionFree goal limit cluster)
    (onward : ∀ last,
      (∀ rid, HotstuffCore.Later (cluster.cores rid) (last.cores rid)) →
      Retries deployment collisionFree goal limit last →
      Leading deployment collisionFree last leader bound 0 →
      Attains deployment goal last) :
    Attains deployment goal cluster := by
  induction missing generalizing cluster with
  | zero => exact onward cluster (fun _ => .refl _) retries leading
  | succ missing ih =>
      have fits : bound < 2 ^ 32 := by omega
      have later := leading.later configured []
      refine .propose leading.member (.inl rfl)
        (leading.enabled configured fits []).1
        (ih (leading.climb configured fits) (retries.later later ?_) ?_)
      · exact (Cluster.backlog_own cluster leader _ _).le
      · exact fun last after => onward last
          fun rid => (later rid).trans (after rid)

/-- Empty rounds, until the leaf stands on enough own blocks. -/
theorem Leading.attains_presiding
    (leading : Leading deployment collisionFree cluster leader bound 0)
    (depth : Nat) (room : bound + depth + 1 ≤ limit)
    (retries : Retries deployment collisionFree goal limit cluster)
    (onward : ∀ last,
      (∀ rid, HotstuffCore.Later (cluster.cores rid) (last.cores rid)) →
      Retries deployment collisionFree goal limit last →
      Presiding deployment collisionFree last leader (bound + depth + 1) depth →
      Attains deployment goal last) :
    Attains deployment goal cluster := by
  induction depth generalizing goal with
  | zero =>
      exact leading.attains configured small room [] (.inl rfl) retries
        fun last later retries adds => onward last later retries adds.presiding
  | succ depth ih =>
      refine ih (by omega) retries fun middle later retries presiding => ?_
      exact presiding.toLeading.attains configured small (by omega) [] (.inl rfl)
        retries fun last after retries adds => onward last
          (fun rid => (later rid).trans (after rid)) retries
          (adds.deeper depth presiding)

/-- Rounds with given bodies. -/
theorem Presiding.attains_stacked
    (presiding : Presiding deployment collisionFree cluster leader bound 3)
    (bodies : List Body) (room : bound + bodies.length ≤ limit)
    (retries : Retries deployment collisionFree goal limit cluster)
    (onward : ∀ last (wireBlocks : List HotstuffBlockWire),
      (deployment.cluster.restrict Cluster.Keeping).Reachable last →
      (∀ rid, HotstuffCore.Later (cluster.cores rid) (last.cores rid)) →
      wireBlocks.map HotstuffBlockWire.body = bodies →
      Stacked ((cluster.cores leader).store.hash (cluster.cores leader).bLeaf)
        wireBlocks →
      (∀ wireBlock ∈ wireBlocks, deployment.Proposed last.cores wireBlock ∧
        bound < (headerForest collisionFree).height
          (hashHeader wireBlock.header) ∧
        ∀ rid ∈ deployment.correct, (last.cores rid).Settled configured
          collisionFree (hashHeader wireBlock.header)) →
      Attains deployment goal last) :
    Attains deployment goal cluster := by
  induction bodies generalizing cluster bound with
  | nil =>
      exact onward cluster [] presiding.reachable (fun _ => .refl _) rfl trivial
        (fun wireBlock member => by cases member)
  | cons body bodies ih =>
      rw [List.length_cons] at room
      have valid := presiding.valid configured
      refine presiding.toLeading.attains configured small (by omega)
        body (.inr presiding.supports) retries fun middle later retries adds => ?_
      have deeper := adds.deeper 3 presiding
      have valid' := deeper.valid configured
      have again : Presiding deployment collisionFree middle leader (bound + 1)
          3 :=
        { deeper with
          supports := HotstuffCore.supports_weaken valid'.tree
            deeper.supports }
      refine ih again (by omega) retries
        fun last wireBlocks reachable after sameBodies stacked settled => ?_
      refine onward last (((cluster.cores leader).minted body).wireBlock ::
        wireBlocks) reachable (fun rid => (later rid).trans (after rid)) ?_
        ⟨rfl, ?_, ?_⟩ ?_
      · rw [List.map_cons, sameBodies]
        rfl
      · rw [← presiding.certified]
        exact valid.hqcHash
      · rw [← adds.leaf]
        exact stacked
      · intro wireBlock member
        rcases List.mem_cons.mp member with rfl | above
        · refine ⟨adds.proposed.later after, ?_, fun rid correct =>
            (adds.settled rid correct).later (after rid).committed⟩
          rw [← adds.leaf, valid'.tree.height_eq collisionFree
            valid'.leafPlaced]
          exact deeper.leaf.ge
        · obtain ⟨proposed, high, rest⟩ := settled wireBlock above
          exact ⟨proposed, Nat.lt_of_succ_lt high, rest⟩

end Rounds

/-! ### Commits -/

/-- The correct replicas have committed new blocks with the bodies, one directly
after the other and above all that they had committed at the start. -/
def Commits (deployment : Deployment) (bodies : List Body)
    (start last : Cluster) : Prop :=
  ∃ wireBlocks : List HotstuffBlockWire,
    wireBlocks.map HotstuffBlockWire.body = bodies ∧
    (∀ wireBlock ∈ wireBlocks, deployment.Proposed last.cores wireBlock ∧
      ¬ deployment.Proposed start.cores wireBlock) ∧
    ∀ rid ∈ deployment.correct, ∃ earlier,
      (start.cores rid).committed <+: earlier ∧
      earlier ++ wireBlocks.map (fun wireBlock =>
        hashHeader wireBlock.header) <+: (last.cores rid).committed

section Commits

variable {deployment : Deployment} {collisionFree : CollisionFree}
  {start cluster last : Cluster} {leader : ReplicaID} {bound : Nat}
  (configured : deployment.WellConfigured)

include configured

/-- Stacked blocks that are settled are committed, but for the last three. -/
theorem Presiding.commits {depth : Nat}
    (presiding : Presiding deployment collisionFree cluster leader bound depth)
    (before : (deployment.cluster.restrict Cluster.Keeping).Reachable start)
    (low : deployment.ProposedBelow collisionFree start.cores bound)
    (reachable : (deployment.cluster.restrict Cluster.Keeping).Reachable last)
    (later : ∀ rid, HotstuffCore.Later (start.cores rid) (last.cores rid))
    {bodies : List Body} {wireBlocks : List HotstuffBlockWire}
    (sameBodies : wireBlocks.map HotstuffBlockWire.body =
      bodies ++ [[], [], []])
    (stacked : Stacked ((cluster.cores leader).store.hash
      (cluster.cores leader).bLeaf) wireBlocks)
    (settled : ∀ wireBlock ∈ wireBlocks,
      deployment.Proposed last.cores wireBlock ∧
        bound < (headerForest collisionFree).height
          (hashHeader wireBlock.header) ∧
        ∀ rid ∈ deployment.correct, (last.cores rid).Settled configured
          collisionFree (hashHeader wireBlock.header)) :
    Commits deployment bodies start last := by
  obtain ⟨wanted, rest, rfl, wantedBodies, restBodies⟩ :=
    List.map_eq_append_iff.mp sameBodies
  have restLength : rest.length = 3 := by
    rw [← List.length_map, restBodies]
    rfl
  refine ⟨wanted, wantedBodies, fun wireBlock member => ?_,
    fun rid correct => ?_⟩
  · obtain ⟨proposed, high, -⟩ := settled wireBlock
      (List.mem_append_left _ member)
    exact ⟨proposed, fun old => Nat.not_le.mpr high (low wireBlock old)⟩
  rcases eq_or_ne wanted [] with rfl | some
  · refine ⟨(start.cores rid).committed, List.prefix_rfl, ?_⟩
    rw [List.map_nil, List.append_nil]
    exact (later rid).committed
  -- the last of the wanted blocks is committed, with the path that leads to it
  have startSound := Cluster.sound_of_reachable collisionFree configured
    before.of_restrict
  obtain ⟨abstract, tracks⟩ :=
    tracks_of_reachable collisionFree configured startSound.cores rid
  obtain ⟨abstract', tracks'⟩ := tracks_of_reachable collisionFree configured
    (Cluster.sound_of_reachable collisionFree configured
      reachable.of_restrict).cores rid
  obtain ⟨top, topMem, topEq⟩ := List.mem_map.mp (topOf_mem some)
  have committed := stacked.committed restLength.ge
    (fun wireBlock member => (settled wireBlock member).2.2 rid correct) topMem
  rw [topEq] at committed
  obtain ⟨nodes, path, isPrefix⟩ :=
    tracks'.valid.committedPath.of_mem committed
  obtain ⟨earlier, upper, rfl⟩ := stacked.of_append.path path
  refine ⟨earlier, ?_, isPrefix⟩
  -- what was committed before is shorter
  have execHeight := tracks.valid.committedPath.level.height_eq
  rw [tracks.valid.tree.height_eq collisionFree tracks.valid.execPlaced]
    at execHeight
  have leafHeight := upper.level.height_eq
  have leaf := presiding.leaf
  have valid := presiding.valid configured
  rw [valid.tree.height_eq collisionFree valid.leafPlaced] at leafHeight
  have execLow := deployment.below_of_proposed collisionFree configured
    startSound.cores low rid (start.cores rid).bExec
  exact List.prefix_of_prefix_length_le (later rid).committed
    ((List.prefix_append _ _).trans isPrefix) (by omega)

theorem exists_leading
    (reachable : (deployment.cluster.restrict Cluster.Keeping).Reachable cluster)
    (low : deployment.ProposedBelow collisionFree cluster.cores bound) :
    ∃ leader missing,
      Leading deployment collisionFree cluster leader bound missing := by
  obtain ⟨leader, member, highest⟩ := Finset.exists_max_image
    deployment.correct
    (fun rid => (cluster.cores rid).store.height (cluster.cores rid).hqc.1)
    (Finset.card_pos.mp
      (configured.nmajority_pos.trans_le configured.nmajority_le))
  obtain ⟨missing, leaf⟩ := Nat.exists_eq_add_of_le
    (deployment.below_of_proposed collisionFree configured
      (Cluster.sound_of_reachable collisionFree configured
        reachable.of_restrict).cores low leader (cluster.cores leader).bLeaf)
  exact ⟨leader, missing, reachable, member, low, leaf.symm, highest⟩

/-- There are no more attempts than old messages. -/
theorem attains_commits (bodies : List Body)
    (before : (deployment.cluster.restrict Cluster.Keeping).Reachable start)
    (later : ∀ rid, HotstuffCore.Later (start.cores rid) (cluster.cores rid))
    (reachable : (deployment.cluster.restrict Cluster.Keeping).Reachable cluster)
    (low : deployment.ProposedBelow collisionFree cluster.cores bound)
    (fits : bound + (cluster.backlog deployment.correct + 1) *
      (bodies.length + 7) < 2 ^ 32) :
    Attains deployment (Commits deployment bodies start) cluster := by
  induction backlog : cluster.backlog deployment.correct using Nat.strongRecOn
      generalizing cluster bound with
  | ind old ih =>
      have attempt : bound + (bodies.length + 7) +
          old * (bodies.length + 7) < 2 ^ 32 := by
        rw [backlog, Nat.add_mul] at fits
        omega
      have retries : Retries deployment collisionFree
          (Commits deployment bodies start) (bound + (bodies.length + 7))
          cluster := by
        intro last reached below after fewer
        refine ih _ (backlog ▸ fewer)
          (fun rid => (later rid).trans (after rid)) reached below ?_ rfl
        have most : (last.backlog deployment.correct + 1) *
            (bodies.length + 7) ≤ old * (bodies.length + 7) :=
          Nat.mul_le_mul_right _ (backlog ▸ fewer)
        omega
      have small : bound + (bodies.length + 7) < 2 ^ 32 := by omega
      obtain ⟨leader, missing, leading⟩ :=
        exists_leading configured reachable low
      refine leading.attains_climbing configured small (by omega) retries
        fun first climbed retries leading => ?_
      refine leading.attains_presiding configured small 3 (by omega) retries
        fun second presided retries presiding => ?_
      refine presiding.attains_stacked configured small
        (bodies ++ [[], [], []]) (by
          rw [List.length_append]
          change _ + (_ + 3) ≤ _
          omega) retries ?_
      intro last wireBlocks reached added sameBodies stacked settled
      refine .done (presiding.commits configured before ?_ reached
        (fun rid => (later rid).trans ((climbed rid).trans
          ((presided rid).trans (added rid)))) sameBodies stacked settled)
      intro wireBlock proposed
      have := low wireBlock (proposed.later later)
      omega

end Commits

/-- From every reachable state on, as long as heights have room, the correct
replicas can commit new blocks with any bodies, by proposing and by waiting until
they have nothing left to do for each other. -/
theorem correct_replicas_progress (collisionFree : CollisionFree)
    {deployment : Deployment} (configured : deployment.WellConfigured)
    {cluster : Cluster}
    (reachable : (deployment.cluster.restrict Cluster.Keeping).Reachable cluster)
    {bound : Nat} (below : ∀ rid ∈ deployment.config.ids,
      (cluster.cores rid).store.Below bound) (bodies : List Body)
    (fits : bound + (cluster.backlog deployment.correct + 1) *
      (bodies.length + 7) < 2 ^ 32) :
    Attains deployment (Commits deployment bodies cluster) cluster := by
  have sound := Cluster.sound_of_reachable collisionFree configured
    reachable.of_restrict
  exact attains_commits configured bodies reachable (fun _ => .refl _) reachable
    (deployment.proposedBelow_of_below collisionFree configured sound.cores
      below) fits

end Progress

/-! ### Four replicas with an old message -/

namespace Symbolic

open scoped Symbolic

/-- Replica `1` has a block of replica `0` in its work list. -/
def beforeHandling : Cluster :=
  fourDeployment.cluster.run fourBooted (proposeAndVote [1] true ++
    [.thread 0 (.own (.doPropose [2])), .client 0 1 .wake, .client 0 1 .start,
      .client 0 1 .enter, .client 0 1 (.call .answered), .thread 1 .takeEvents])

end Symbolic

open scoped Symbolic in
open Symbolic in
theorem correct_replicas_progress_beforeHandling :
    ∃ start last : Cluster, start.backlog fourDeployment.correct = 1 ∧
      fourDeployment.cluster.Leads start last ∧
      Commits fourDeployment [[7], [8]] start last := by
  have reachable : (fourDeployment.cluster.restrict Cluster.Keeping).Reachable
      beforeHandling := by
    refine .run (.initial rfl) ?_
    decide +kernel
  have below : ∀ rid ∈ fourDeployment.config.ids,
      (beforeHandling.cores rid).store.Below 2 := by
    decide +kernel
  have backlog : beforeHandling.backlog fourDeployment.correct = 1 := by
    decide +kernel
  obtain ⟨last, leads, commits⟩ := (correct_replicas_progress collisionFree
    four_wellConfigured reachable below [[7], [8]] (by
      rw [backlog]
      decide)).leads
  exact ⟨beforeHandling, last, backlog, leads.of_restrict, commits⟩

end Hotstuff
