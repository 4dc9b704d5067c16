import Hotstuff.BlockInsertions
import Hotstuff.FetchRequests

/-!
# Which replicas are asked for a block

Many votes and proposals can wait for one block, and each of them names the
replica that it came from as a target for the request.  The request remembers
in `requested_from` which replicas were asked, but nothing ever sets a bit
there.  So every call with a configured target is another request, and a target
is asked once exactly when it is named once.
-/

namespace Hotstuff

section Targets

variable [WireTypes]

namespace BlockFetchManager

/-- The calls of the network thread. -/
inductive Call
  | addFetchRequest (requestedBlock : Hash) (requestTarget : ReplicaID)
      (dependentEvents : List NetEvent)
  | deliverBlock (hash : Hash)

def perform (config : ReplicaConfig) (manager : BlockFetchManager) :
    Call → BlockFetchManager
  | .addFetchRequest requestedBlock requestTarget dependentEvents =>
      manager.addFetchRequest config requestedBlock requestTarget
        dependentEvents
  | .deliverBlock hash => (manager.deliverBlock hash).2

def performAll (config : ReplicaConfig) (manager : BlockFetchManager)
    (calls : List Call) : BlockFetchManager :=
  calls.foldl (perform config) manager

/-- The calls of `ReplicaFetchQueue::add_request` that the calls lead to. -/
def asked (config : ReplicaConfig) (manager : BlockFetchManager)
    (calls : List Call) : List (ReplicaID × Hash) :=
  (manager.performAll config calls).fetches.drop manager.fetches.length

/-- The configured target and the hash that a call names. -/
def Call.named (config : ReplicaConfig) : Call → Option (ReplicaID × Hash)
  | .addFetchRequest requestedBlock requestTarget _ =>
      if config.isValidReplica requestTarget then
        some (requestTarget, requestedBlock)
      else none
  | .deliverBlock _ => none

/-- The number of calls that name the target for the hash. -/
def timesNamed (config : ReplicaConfig) (calls : List Call)
    (target : ReplicaID) (hash : Hash) : Nat :=
  (calls.filterMap (Call.named config)).count (target, hash)

/-- Every configured target that the calls name for the hash is asked, and no
target is asked twice. -/
structure AsksOnce (config : ReplicaConfig) (manager : BlockFetchManager)
    (calls : List Call) (hash : Hash) : Prop where
  atMostOnce : ∀ target,
    (manager.asked config calls).count (target, hash) ≤ 1
  atLeastOnce : ∀ target, 1 ≤ timesNamed config calls target hash →
    1 ≤ (manager.asked config calls).count (target, hash)

/-- The calls `during` a request for the hash: there is none before them, and
they do not deliver the block. -/
structure Lifetime (config : ReplicaConfig) (calls before during : List Call)
    (hash : Hash) : Prop where
  consecutive : before ++ during <+: calls
  fresh : hash ∉ (empty.performAll config before).outstandingReqs
  undelivered : .deliverBlock hash ∉ during

/-! ### No target is ever marked -/

/-- Every request is kept under its own hash, and marks no target. -/
def Unmarked (manager : BlockFetchManager) : Prop :=
  ∀ hash context, manager.outstandingReqs.lookup hash = some context →
    context.request = hash ∧ context.requestedFrom = 0

theorem unmarked_empty : empty.Unmarked := by
  intro hash context found
  rw [empty, AList.lookup_empty] at found
  cases found

variable {config : ReplicaConfig} {manager : BlockFetchManager}

theorem timesNamed_of_invalid {target : ReplicaID}
    (invalid : config.isValidReplica target = false) (calls : List Call)
    (hash : Hash) : timesNamed config calls target hash = 0 := by
  apply List.count_eq_zero_of_not_mem
  intro named
  obtain ⟨call, -, names⟩ := List.mem_filterMap.mp named
  cases call with
  | addFetchRequest requestedBlock requestTarget dependentEvents =>
      rw [Call.named] at names
      split at names
      · rename_i valid
        cases names
        rw [invalid] at valid
        cases valid
      · cases names
  | deliverBlock delivered => cases names

theorem Unmarked.context (unmarked : manager.Unmarked) (hash : Hash) :
    (manager.context hash).request = hash ∧
      (manager.context hash).requestedFrom = 0 := by
  unfold BlockFetchManager.context
  cases found : manager.outstandingReqs.lookup hash with
  | none => exact ⟨rfl, rfl⟩
  | some context => exact unmarked hash context found

theorem Unmarked.perform (unmarked : manager.Unmarked) (call : Call) :
    (manager.perform config call).Unmarked := by
  intro hash context found
  cases call with
  | addFetchRequest requestedBlock requestTarget dependentEvents =>
      simp only [BlockFetchManager.perform, addFetchRequest] at found
      split at found
      · by_cases same : hash = requestedBlock
        · subst same
          rw [AList.lookup_insert, Option.some.injEq] at found
          subst found
          exact unmarked.context hash
        · rw [AList.lookup_insert_ne same] at found
          exact unmarked hash context found
      · exact unmarked hash context found
  | deliverBlock delivered =>
      simp only [BlockFetchManager.perform,
        outstandingReqs_deliverBlock] at found
      by_cases same : hash = delivered
      · subst same
        rw [AList.lookup_erase] at found
        cases found
      · rw [AList.lookup_erase_ne same] at found
        exact unmarked hash context found

theorem Unmarked.performAll (unmarked : manager.Unmarked)
    (config : ReplicaConfig) (calls : List Call) :
    (manager.performAll config calls).Unmarked := by
  induction calls generalizing manager with
  | nil => exact unmarked
  | cons call calls ih => exact ih (unmarked.perform call)

/-- A call asks whom it names, whoever was asked before. -/
theorem Unmarked.fetches_perform (unmarked : manager.Unmarked)
    (call : Call) :
    (manager.perform config call).fetches =
      manager.fetches ++ (call.named config).toList := by
  cases call with
  | addFetchRequest requestedBlock requestTarget dependentEvents =>
      obtain ⟨request, unset⟩ := unmarked.context requestedBlock
      have notAsked : (manager.context requestedBlock).wasRequestedFrom
          requestTarget = false := by
        simp [RequestContext.wasRequestedFrom, unset]
      simp only [BlockFetchManager.perform, addFetchRequest, Call.named]
      split
      · simp [notAsked, request]
      · simp
  | deliverBlock delivered =>
      simp only [BlockFetchManager.perform, deliverBlock, Call.named]
      split <;> simp

theorem Unmarked.fetches_performAll (unmarked : manager.Unmarked)
    (calls : List Call) :
    (manager.performAll config calls).fetches =
      manager.fetches ++ calls.filterMap (Call.named config) := by
  induction calls generalizing manager with
  | nil => simp [BlockFetchManager.performAll]
  | cons call calls ih =>
      rw [BlockFetchManager.performAll, List.foldl_cons]
      refine (ih (unmarked.perform call)).trans ?_
      rw [unmarked.fetches_perform call, List.append_assoc,
        List.filterMap_cons]
      cases call.named config <;> rfl

theorem Unmarked.count_asked (unmarked : manager.Unmarked)
    (calls : List Call) (target : ReplicaID) (hash : Hash) :
    (manager.asked config calls).count (target, hash) =
      timesNamed config calls target hash := by
  rw [asked, unmarked.fetches_performAll calls, List.drop_left, timesNamed]

/-- A target is asked as often as it is named. -/
theorem Unmarked.asksOnce_iff (unmarked : manager.Unmarked)
    (calls : List Call) (hash : Hash) :
    manager.AsksOnce config calls hash ↔
      ∀ target, config.isValidReplica target = true →
        timesNamed config calls target hash ≤ 1 := by
  constructor
  · intro once target _
    rw [← unmarked.count_asked calls target hash]
    exact once.atMostOnce target
  · intro once
    constructor
    · intro target
      rw [unmarked.count_asked calls target hash]
      cases valid : config.isValidReplica target with
      | false =>
          rw [timesNamed_of_invalid valid calls hash]
          omega
      | true => exact once target valid
    · intro target named
      rw [unmarked.count_asked calls target hash]
      exact named

end BlockFetchManager

/-- In every sequence of calls, every request asks each target once exactly when
no configured target is named twice during one request. -/
theorem requests_ask_once_iff (config : ReplicaConfig)
    (calls : List BlockFetchManager.Call) :
    (∀ before during hash,
        BlockFetchManager.Lifetime config calls before during hash →
          (BlockFetchManager.empty.performAll config before).AsksOnce config
            during hash) ↔
      ∀ before during hash,
        BlockFetchManager.Lifetime config calls before during hash →
          ∀ target, config.isValidReplica target = true →
            BlockFetchManager.timesNamed config during target hash ≤ 1 := by
  have asksOnce_iff : ∀ before during hash,
      (BlockFetchManager.empty.performAll config before).AsksOnce config during
          hash ↔
        ∀ target, config.isValidReplica target = true →
          BlockFetchManager.timesNamed config during target hash ≤ 1 := by
    intro before during hash
    have unmarked := BlockFetchManager.unmarked_empty.performAll config before
    exact unmarked.asksOnce_iff during hash
  simp only [asksOnce_iff]

end Targets

/-! ### Two votes of one replica -/

namespace Symbolic

open BlockFetchManager

/-- Two votes on one unknown block arrive from the same replica. -/
def votesOfOne : List Call :=
  [.addFetchRequest firstHash 2 [⟨.vote (voteOf 2 firstHash) 2, 0⟩],
    .addFetchRequest firstHash 2 [⟨.vote (voteOf 2 firstHash) 2, 1⟩]]

end Symbolic

open scoped Symbolic in
open Symbolic in
/-- The replica is asked for the block twice. -/
theorem asked_twice_votesOfOne :
    BlockFetchManager.Lifetime fourReplicas votesOfOne [] votesOfOne
        firstHash ∧
      ¬ (BlockFetchManager.empty.performAll fourReplicas []).AsksOnce
        fourReplicas votesOfOne firstHash := by
  refine ⟨⟨List.prefix_rfl, ?_, ?_⟩, ?_⟩
  · exact AList.notMem_empty _
  · simp [votesOfOne]
  · intro once
    have twice := once.atMostOnce 2
    revert twice
    decide +kernel

end Hotstuff
