import InformerHub.FanOut
import InformerHub.Outcome
import InformerHub.Scenario.Step

/-!
# Replies and records

What a scenario shows: the reply to each step, how a task ended, and the records that sources,
handlers, hooks, clients, controllers and the log leave in their channels.
-/

namespace InformerHub.Scenario

/-- The reply to a step. -/
inductive Reply where
  | done
  | spawned
  | reported
  | nothing
  | truth (value : Bool)
  | truths (values : List Bool)
  | failed (error : Error)
  | panicked (text : String)
  | registered (registration : Nat)
  | notRegistered
  | stored (answer : StoreAnswer)
  | informerState (resource : String) (synced : Bool) (items : List Obj)
  /-- Whether an informer was made, and whether it is the one it was compared with. -/
  | informerFound (created : Bool) (same : Option Bool)
  /-- Whether an informer without a source was made. -/
  | unsourcedFound (created : Bool)
  | names (names : List String)
  | sourceCalls (lists watches : Nat)
  | heard (events : List (Event Obj))
  | joined (key : HandlerKey)
  | handlers (keys : List HandlerKey)
  | barrierState (state : BarrierState) (syncTimeout : Nat)
  | changed (since : Bool) (state : BarrierState)
  | text (text : String)
  deriving Repr, Inhabited

/-- How a task ended. -/
inductive Ending where
  | outcome (outcome : Outcome)
  | status (name : String) (status : List (String × Bool))
  | stopped
  | truth (value : Bool)
  deriving Repr, Inhabited

/-- The panic text of a task that ended by one. -/
def Ending.panic? : Ending → Option String
  | .outcome (.panicked t) => some t
  | _ => none

/-- Where a record goes. -/
inductive Channel where
  | handlers (name : String)
  | task (name : String)
  | source (id : String)
  | hook (id : String)
  | client (id : String)
  | controller (id : String)
  | log (source : LogSource)
  deriving DecidableEq, Repr, Inhabited

inductive Content where
  | event (handler : String) (event : Event Obj)
  | reaction (handler : String) (reply : Reply)
  | text (text : String)
  | ended (ending : Ending)
  | listCalled (count : Nat)
  | watchCalled (version : String)
  | hookCalled (readiness : Readiness)
  | hookReturned
  | writeBegun (key : String) (conditions : List (Condition Moment))
  | writeFailed (key : String)
  | written (key : String)
  | controllerStarted (workers : Nat)
  | controllerStopped
  | log (record : LogRecord)
  deriving Repr, Inhabited

/-- One record.  Its time is in milliseconds; what is said outside the runtime has none. -/
structure Entry where
  time : Option Nat
  channel : Channel
  content : Content
  deriving Repr, Inhabited

end InformerHub.Scenario
