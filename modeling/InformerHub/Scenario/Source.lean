import InformerHub.Error
import InformerHub.Scenario.Step

/-!
# Scripted sources

A source holds some items.  A list answers with what it holds at the end of a delay, or fails if
lists are set to fail; a watch opens a feed of changes, which the scenario fills and ends.  Only
the latest feed is fed.
-/

namespace InformerHub.Scenario

/-- What a watch delivers: changes and at most one failure, in order. -/
structure Feed where
  queue : List (Except Error (Change Obj))
  /-- Nothing more will be put in. -/
  closed : Bool
  /-- Nobody will take anything out. -/
  unread : Bool
  deriving Inhabited

structure Source where
  id : String
  items : List Obj
  /-- In milliseconds. -/
  listDelay : Nat
  /-- In milliseconds. -/
  watchDelay : Nat
  /-- How many lists are still to fail. -/
  failingLists : Nat
  /-- How many watches are still to be refused. -/
  failingWatches : Nat
  /-- The version of every list; without it a list has its number. -/
  version : Option String
  /-- What a failing list says. -/
  listFault : String
  /-- The number of lists so far. -/
  lists : Nat
  /-- The number of feeds so far. -/
  watches : Nat
  /-- The latest feed. -/
  feed : Option Nat
  deriving Inhabited

namespace Feed

def new : Feed := ⟨[], false, false⟩

/-- Whether something that is put in would be accepted. -/
def isOpen (f : Feed) : Bool := !f.closed && !f.unread

def put (f : Feed) (x : Except Error (Change Obj)) : Feed :=
  if f.isOpen then { f with queue := f.queue ++ [x] } else f

end Feed

namespace Source

/-- A source that holds nothing. -/
def new (id : String) : Source where
  id
  items := []
  listDelay := 0
  watchDelay := 0
  failingLists := 0
  failingWatches := 0
  version := none
  listFault := "unavailable"
  lists := 0
  watches := 0
  feed := none

def change (s : Source) (c : SourceChange) : Source :=
  { s with
    items := c.items.getD s.items
    listDelay := c.listDelay.getD s.listDelay
    watchDelay := c.watchDelay.getD s.watchDelay
    failingLists := c.failingLists.getD s.failingLists
    failingWatches := c.failingWatches.getD s.failingWatches
    version := c.version.or s.version
    listFault := c.listFault.getD s.listFault }

/-- The answer to list number `n`: the items and their version. -/
def listed (s : Source) (n : Nat) : Source × Except Error (List Obj × String) :=
  if s.failingLists = 0 then (s, .ok (s.items, s.version.getD (toString n)))
  else
    ({ s with failingLists := s.failingLists - 1 },
      .error (.list s.id (.external s.listFault)))

/-- Whether a watch opens. -/
def watched (s : Source) : Source × Except Error Unit :=
  if s.failingWatches = 0 then (s, .ok ())
  else
    ({ s with failingWatches := s.failingWatches - 1 },
      .error (.watch s.id (.external "refused")))

end Source

end InformerHub.Scenario
