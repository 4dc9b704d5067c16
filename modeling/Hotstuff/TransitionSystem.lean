import Mathlib.Data.List.Basic

/-!
# Labelled transition systems

A system is given by its initial states, a guard saying which labels may fire
in a state, and a total successor function.  This file packages the two
inductions that every safety argument repeats: an invariant that is
established initially and kept by every enabled step holds in every reachable
state, and a forward simulation transports reachability to a more abstract
system.
-/

namespace Hotstuff

/-- A guarded deterministic transition system.  The successor function is
total; the guard decides which labels are runs of the system. -/
structure TransitionSystem (State Label : Type*) where
  initial : State → Prop
  enabled : State → Label → Prop
  next : State → Label → State

namespace TransitionSystem

variable {State Label Abstract AbstractLabel : Type*}

/-- States reached from an initial state by enabled steps. -/
inductive Reachable (system : TransitionSystem State Label) : State → Prop
  | initial {state : State} (start : system.initial state) :
      Reachable system state
  | step {state : State} {label : Label}
      (reached : Reachable system state)
      (allowed : system.enabled state label) :
      Reachable system (system.next state label)

/-- A predicate that holds initially and is kept by every enabled step of a
reachable state holds in every reachable state. -/
theorem Reachable.invariant {system : TransitionSystem State Label}
    (holds : State → Prop)
    (base : ∀ state, system.initial state → holds state)
    (kept : ∀ state label, system.Reachable state → holds state →
      system.enabled state label → holds (system.next state label))
    {state : State} (reached : system.Reachable state) :
    holds state := by
  induction reached with
  | initial start => exact base _ start
  | step reached allowed ih => exact kept _ _ reached ih allowed

/-- The same system with a stronger guard. -/
def restrict (system : TransitionSystem State Label)
    (guard : State → Label → Prop) : TransitionSystem State Label where
  initial := system.initial
  enabled := fun state label => system.enabled state label ∧ guard state label
  next := system.next

instance decidableRestrict (system : TransitionSystem State Label)
    (guard : State → Label → Prop)
    [∀ state label, Decidable (system.enabled state label)]
    [∀ state label, Decidable (guard state label)] (state : State)
    (label : Label) : Decidable ((system.restrict guard).enabled state label) :=
  inferInstanceAs (Decidable (_ ∧ _))

theorem Reachable.of_restrict {system : TransitionSystem State Label}
    {guard : State → Label → Prop} {state : State}
    (reached : (system.restrict guard).Reachable state) :
    system.Reachable state := by
  induction reached with
  | initial start => exact .initial start
  | step _ allowed ih => exact .step ih allowed.1

/-- A weaker guard reaches more states. -/
theorem Reachable.weaken {system : TransitionSystem State Label}
    {guard weaker : State → Label → Prop}
    (implied : ∀ state label, guard state label → weaker state label)
    {state : State} (reached : (system.restrict guard).Reachable state) :
    (system.restrict weaker).Reachable state := by
  induction reached with
  | initial start => exact .initial start
  | step _ allowed ih => exact .step ih ⟨allowed.1, implied _ _ allowed.2⟩

/-- Fire a list of labels, first label first. -/
def run (system : TransitionSystem State Label) (state : State)
    (labels : List Label) : State :=
  labels.foldl system.next state

/-- Every label of the list is enabled when its turn comes. -/
def EnabledAlong (system : TransitionSystem State Label) :
    State → List Label → Prop
  | _, [] => True
  | state, label :: labels =>
      system.enabled state label ∧
        EnabledAlong system (system.next state label) labels

instance decidableEnabledAlong (system : TransitionSystem State Label)
    [∀ state label, Decidable (system.enabled state label)] :
    (state : State) → (labels : List Label) →
      Decidable (system.EnabledAlong state labels)
  | _, [] => inferInstanceAs (Decidable True)
  | state, label :: labels =>
      let _ := decidableEnabledAlong system (system.next state label) labels
      inferInstanceAs (Decidable (_ ∧ _))

theorem Reachable.run {system : TransitionSystem State Label}
    {state : State} (reached : system.Reachable state)
    {labels : List Label} (allowed : system.EnabledAlong state labels) :
    system.Reachable (system.run state labels) := by
  induction labels generalizing state with
  | nil => exact reached
  | cons label labels ih => exact ih (.step reached allowed.1) allowed.2

/-- A relation that every step establishes between a reachable state and its
successor, and that can be chained, holds between the ends of every run. -/
theorem Reachable.along {system : TransitionSystem State Label}
    (relation : State → State → Prop)
    (refl : ∀ state, relation state state)
    (trans : ∀ first middle last, system.Reachable middle →
      relation first middle → relation middle last → relation first last)
    (kept : ∀ state label, system.Reachable state →
      system.enabled state label → relation state (system.next state label))
    {state : State} (reached : system.Reachable state) {labels : List Label}
    (allowed : system.EnabledAlong state labels) :
    relation state (system.run state labels) := by
  induction labels generalizing state with
  | nil => exact refl state
  | cons label labels ih =>
      have next := reached.step allowed.1
      exact trans _ _ _ next (kept state label reached allowed.1)
        (ih next allowed.2)

/-- A list of labels leads from the first state to the second. -/
def Leads (system : TransitionSystem State Label) (state after : State) :
    Prop :=
  ∃ labels, system.EnabledAlong state labels ∧ system.run state labels = after

section Leads

variable {system : TransitionSystem State Label} {state middle after : State}

theorem Leads.refl (state : State) : system.Leads state state :=
  ⟨[], trivial, rfl⟩

theorem Leads.step {label : Label} (allowed : system.enabled state label) :
    system.Leads state (system.next state label) :=
  ⟨[label], ⟨allowed, trivial⟩, rfl⟩

theorem Leads.trans (first : system.Leads state middle)
    (second : system.Leads middle after) : system.Leads state after := by
  obtain ⟨labels, allowed, rfl⟩ := first
  obtain ⟨labels', allowed', rfl⟩ := second
  refine ⟨labels ++ labels', ?_, List.foldl_append⟩
  induction labels generalizing state with
  | nil => exact allowed'
  | cons label labels ih => exact ⟨allowed.1, ih allowed.2 allowed'⟩

theorem Leads.of_restrict {guard : State → Label → Prop}
    (leads : (system.restrict guard).Leads state after) :
    system.Leads state after := by
  obtain ⟨labels, allowed, rfl⟩ := leads
  refine ⟨labels, ?_, rfl⟩
  induction labels generalizing state with
  | nil => trivial
  | cons label labels ih => exact ⟨allowed.1.1, ih allowed.2⟩

/-- A guard may be used once more. -/
theorem Leads.restrict {guard weaker : State → Label → Prop}
    (implied : ∀ state label, guard state label → weaker state label)
    (leads : (system.restrict guard).Leads state after) :
    ((system.restrict weaker).restrict guard).Leads state after := by
  obtain ⟨labels, allowed, rfl⟩ := leads
  refine ⟨labels, ?_, rfl⟩
  induction labels generalizing state with
  | nil => trivial
  | cons label labels ih =>
      obtain ⟨⟨enabled, guarded⟩, rest⟩ := allowed
      exact ⟨⟨⟨enabled, implied _ _ guarded⟩, guarded⟩, ih rest⟩

theorem Reachable.leads (reached : system.Reachable state)
    (leads : system.Leads state after) : system.Reachable after := by
  obtain ⟨labels, allowed, rfl⟩ := leads
  exact reached.run allowed

/-- What holds at the start of a run and is kept by its steps holds at its
end. -/
theorem Leads.invariant (leads : system.Leads state after)
    (holds : State → Prop) (base : holds state)
    (kept : ∀ middle label, system.Leads state middle → holds middle →
      system.enabled middle label → holds (system.next middle label)) :
    holds after := by
  suffices every : ∀ labels middle, system.Leads state middle →
      holds middle → system.EnabledAlong middle labels →
        holds (system.run middle labels) by
    obtain ⟨labels, allowed, rfl⟩ := leads
    exact every labels state (.refl state) base allowed
  intro labels
  induction labels with
  | nil => exact fun _ _ held _ => held
  | cons label labels ih =>
      intro middle reached held allowed
      exact ih _ (reached.trans (.step allowed.1))
        (kept middle label reached held allowed.1) allowed.2

/-- When every state of a run that is not final has a step down in a well-founded
order, the run can be continued to a final state. -/
theorem exists_leads_final {Rank : Type*} {lower : Rank → Rank → Prop}
    (wellFounded : WellFounded lower) (rank : State → Rank)
    (final : State → Prop)
    (progress : ∀ last, system.Leads state last → ¬ final last →
      ∃ label, system.enabled last label ∧
        lower (rank (system.next last label)) (rank last)) :
    ∃ last, system.Leads state last ∧ final last := by
  suffices every : ∀ value last, rank last = value → system.Leads state last →
      ∃ last, system.Leads state last ∧ final last from
    every _ state rfl (.refl state)
  intro value
  induction value using wellFounded.induction with
  | _ value ih =>
      rintro last rfl leads
      by_cases done : final last
      · exact ⟨last, leads, done⟩
      · obtain ⟨label, allowed, less⟩ := progress last leads done
        exact ih _ less _ rfl (leads.trans (.step allowed))

end Leads

/-- When every reachable state that is not final has a step that decreases a
measure, a final state can be reached. -/
theorem Reachable.finishes {system : TransitionSystem State Label}
    (final : State → Prop) (measure : State → Nat)
    (progress : ∀ state, system.Reachable state → ¬ final state →
      ∃ label, system.enabled state label ∧
        measure (system.next state label) < measure state)
    {state : State} (reached : system.Reachable state) :
    ∃ last, system.Reachable last ∧ final last := by
  induction size : measure state using Nat.strongRecOn generalizing state with
  | ind size induction =>
      by_cases done : final state
      · exact ⟨state, reached, done⟩
      · obtain ⟨label, allowed, less⟩ := progress state reached done
        exact induction _ (size ▸ less) (reached.step allowed) rfl

/-- A forward simulation: every reachable concrete state is matched by a
reachable abstract state, each concrete step being matched by at most one
abstract step. -/
theorem Reachable.simulated {system : TransitionSystem State Label}
    (target : TransitionSystem Abstract AbstractLabel)
    (related : State → Abstract → Prop)
    (base : ∀ state, system.initial state →
      ∃ abstract, target.initial abstract ∧ related state abstract)
    (matched : ∀ state label abstract, system.Reachable state →
      target.Reachable abstract → related state abstract →
      system.enabled state label →
        related (system.next state label) abstract ∨
          ∃ abstractLabel, target.enabled abstract abstractLabel ∧
            related (system.next state label)
              (target.next abstract abstractLabel))
    {state : State} (reached : system.Reachable state) :
    ∃ abstract, target.Reachable abstract ∧ related state abstract := by
  induction reached with
  | initial start =>
      obtain ⟨abstract, abstractStart, relation⟩ := base _ start
      exact ⟨abstract, .initial abstractStart, relation⟩
  | step reached allowed ih =>
      obtain ⟨abstract, abstractReached, relation⟩ := ih
      rcases matched _ _ abstract reached abstractReached relation allowed with
        stutter | ⟨abstractLabel, abstractAllowed, relation'⟩
      · exact ⟨abstract, abstractReached, stutter⟩
      · exact ⟨_, .step abstractReached abstractAllowed, relation'⟩

end TransitionSystem

/-- An entry of a history that was extended by one is the new entry or one of
the earlier ones. -/
theorem split_of_concat {Entry : Type*} {history before after : List Entry}
    {last entry : Entry} (split : history ++ [last] = before ++ entry :: after) :
    (before = history ∧ entry = last) ∨
      ∃ middle, history = before ++ entry :: middle := by
  rcases List.eq_nil_or_concat after with rfl | ⟨middle, newest, rfl⟩
  · obtain ⟨rfl, same⟩ := List.append_inj' split rfl
    exact .inl ⟨rfl, (List.singleton_inj.mp same).symm⟩
  · rw [List.concat_eq_append, ← List.cons_append, ← List.append_assoc]
      at split
    exact .inr ⟨middle, (List.append_inj' split rfl).1⟩

end Hotstuff
