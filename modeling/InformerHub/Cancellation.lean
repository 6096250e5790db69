/-!
# Cancellation

Tokens that ask tasks to stop.  A token may have children; cancelling it cancels everything below
it.  A cancelled token stays so, and a child of a cancelled token is cancelled from the start.  A
token that nobody holds any more is released: its children go to its parent.

`cancel` also says in which order the tokens were reached, since that is the order in which the
tasks that wait for them go on: level by level, and the token itself at last.
-/

namespace InformerHub

structure CancelNode where
  cancelled : Bool
  parent : Option Nat
  /-- Those that have not been released. -/
  children : List Nat
  deriving DecidableEq, Repr, Inhabited

/-- All tokens of a run, each known by its number. -/
structure Cancellation where
  nodes : Array CancelNode
  deriving Inhabited

namespace Cancellation

instance : EmptyCollection Cancellation := ⟨⟨#[]⟩⟩

def node (c : Cancellation) (t : Nat) : CancelNode := c.nodes.getD t default

def isCancelled (c : Cancellation) (t : Nat) : Bool := (c.node t).cancelled

def update (c : Cancellation) (t : Nat) (f : CancelNode → CancelNode) : Cancellation :=
  ⟨c.nodes.modify t f⟩

/-! ## Making and releasing tokens -/

/-- A new token without a parent. -/
def fresh (c : Cancellation) : Cancellation × Nat :=
  (⟨c.nodes.push ⟨false, none, []⟩⟩, c.nodes.size)

/-- A new token below another one. -/
def child (c : Cancellation) (parent : Nat) : Cancellation × Nat :=
  let t := c.nodes.size
  if c.isCancelled parent then (⟨c.nodes.push ⟨true, none, []⟩⟩, t)
  else
    let c : Cancellation := ⟨c.nodes.push ⟨false, some parent, []⟩⟩
    (c.update parent fun n => { n with children := n.children ++ [t] }, t)

/-- A list without `t`, whose place the last element takes. -/
def swapRemove (t : Nat) (ts : List Nat) : List Nat :=
  if ts.contains t then
    match ts.getLast? with
    | some last =>
      if last = t then ts.dropLast else ts.dropLast.map fun u => if u = t then last else u
    | none => []
  else ts

/-- Whether a token has a parent or children. -/
def isLinked (c : Cancellation) (t : Nat) : Bool :=
  (c.node t).parent.isSome || !(c.node t).children.isEmpty

/-- Gives some tokens another parent, or none. -/
def adopt (c : Cancellation) (parent : Option Nat) (ts : List Nat) : Cancellation :=
  ts.foldl (fun c t => c.update t fun n => { n with parent }) c

/-- Gives up a token that nobody holds any more.  Its children go to its parent, or have none if
it has none. -/
def release (c : Cancellation) (t : Nat) : Cancellation :=
  let n := c.node t
  let c := c.adopt n.parent n.children
  let c := match n.parent with
    | some p => c.update p fun m => { m with children := swapRemove t (m.children ++ n.children) }
    | none => c
  c.update t fun m => { m with parent := none, children := [] }

/-! ## Cancelling -/

/-- The children of a token that are not cancelled yet: the last one, and then the others from the
first on. -/
def heirs (c : Cancellation) (t : Nat) : List Nat :=
  let ts := (c.node t).children.filter fun u => !c.isCancelled u
  match ts.getLast? with
  | some last => last :: ts.dropLast
  | none => []

/-- What is below some tokens, level by level, down to `n` levels. -/
def below (c : Cancellation) : Nat → List Nat → List Nat
  | 0, _ => []
  | n + 1, ts =>
    match ts.flatMap c.heirs with
    | [] => []
    | level => level ++ below c n level

/-- Marks a token as cancelled; its children have no parent any more. -/
def mark (c : Cancellation) (t : Nat) : Cancellation :=
  (c.adopt none (c.node t).children).update t fun n => { n with cancelled := true, children := [] }

/-- Cancels a token and everything below it.  The second part lists the tokens that this reached,
in order.  There are no more levels than tokens. -/
def cancel (c : Cancellation) (t : Nat) : Cancellation × List Nat :=
  if c.isCancelled t then (c, [])
  else
    let reached := c.below c.nodes.size [t] ++ [t]
    (reached.foldl mark c, reached)

theorem cancel_of_isCancelled {c : Cancellation} {t : Nat} (h : c.isCancelled t = true) :
    c.cancel t = (c, []) := by simp [cancel, h]

end Cancellation

end InformerHub
