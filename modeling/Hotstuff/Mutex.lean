import Mathlib.Data.List.Basic

/-!
# Mutexes

A mutex is given by the threads that have locked it and not yet unlocked it,
one entry for each lock.  A recursive mutex may be locked again by the thread
that holds it; a nonrecursive one may only be locked when it is free, so that a
thread that locks it twice waits for itself.
-/

namespace Hotstuff

inductive MutexKind
  | recursive
  | nonrecursive
  deriving DecidableEq

structure Mutex (Thread : Type*) where
  holders : List Thread

namespace Mutex

variable {Thread : Type*}

def free : Mutex Thread := ⟨[]⟩

def lock (mutex : Mutex Thread) (thread : Thread) : Mutex Thread :=
  ⟨thread :: mutex.holders⟩

def unlock (mutex : Mutex Thread) : Mutex Thread :=
  ⟨mutex.holders.tail⟩

/-- The thread can lock the mutex without waiting. -/
def CanLock (kind : MutexKind) (mutex : Mutex Thread) (thread : Thread) : Prop :=
  mutex.holders = [] ∨
    kind = .recursive ∧ ∀ holder ∈ mutex.holders, holder = thread

instance decidableCanLock [DecidableEq Thread] (kind : MutexKind)
    (mutex : Mutex Thread) (thread : Thread) :
    Decidable (mutex.CanLock kind thread) :=
  inferInstanceAs (Decidable (_ ∨ _ ∧ _))

def Holds (mutex : Mutex Thread) (thread : Thread) : Prop :=
  thread ∈ mutex.holders

/-- Two threads never hold a mutex together: a thread that can lock it finds
no other holder. -/
theorem CanLock.not_holds_other {kind : MutexKind} {mutex : Mutex Thread}
    {thread other : Thread} (allowed : mutex.CanLock kind thread)
    (different : other ≠ thread) : ¬ mutex.Holds other := by
  intro holds
  rcases allowed with empty | ⟨-, own⟩
  · rw [Holds, empty] at holds
    exact List.not_mem_nil holds
  · exact different (own other holds)

end Mutex

end Hotstuff
