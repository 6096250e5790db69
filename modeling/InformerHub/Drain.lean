/-!
# Waiting for factories to stop

A factory keeps the tasks that it has spawned until somebody waits for them.  A wait for some
factories takes over the tasks of one factory after the other, and waits for each of them before it
goes on; nobody else waits for a task that was taken over.
-/

namespace InformerHub

/-- A wait for all tasks of some factories. -/
structure Drain where
  /-- The factory whose tasks are awaited. -/
  factory : Nat
  tasks : List Nat
  /-- The factories after it. -/
  later : List Nat
  deriving Repr, Inhabited

namespace Drain

/-- What a wait does next. -/
inductive Turn where
  /-- Takes over the tasks of a factory. -/
  | take (factory : Nat)
  /-- Goes on once a task has ended. -/
  | join (task : Nat)
  deriving DecidableEq, Repr

def of (factories : List Nat) : Drain := ⟨0, [], factories⟩

def next? (d : Drain) : Option Turn :=
  match d.tasks, d.later with
  | t :: _, _ => some (.join t)
  | [], f :: _ => some (.take f)
  | [], [] => none

/-- Nothing is left to wait for. -/
def isOver (d : Drain) : Bool := d.next?.isNone

/-- The wait with the tasks of the next factory. -/
def take (d : Drain) (tasks : List Nat) : Drain :=
  match d.later with
  | f :: later => ⟨f, tasks, later⟩
  | [] => d

/-- The wait after the end of the task that it has waited for. -/
def join (d : Drain) : Drain := { d with tasks := d.tasks.tail }

end Drain

end InformerHub
