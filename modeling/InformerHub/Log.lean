/-!
# Log records

What the components say about their work.  A record has a level, a message and named fields, all
of them texts.
-/

namespace InformerHub

inductive LogLevel where
  | error
  | warn
  | info
  | debug
  | trace
  deriving DecidableEq, Repr, Inhabited

/-- The component that speaks. -/
inductive LogSource where
  | informer
  | factory
  | fanOut
  | barrier
  | connection
  | status
  | task
  deriving DecidableEq, Repr, Inhabited

structure LogRecord where
  source : LogSource
  level : LogLevel
  message : String
  fields : List (String × String)
  deriving DecidableEq, Repr, Inhabited

namespace LogRecord

/-- What an informer says. -/
def ofInformer (resource : String) (level : LogLevel) (message : String)
    (fields : List (String × String)) : LogRecord :=
  ⟨.informer, level, message, ("resource", resource) :: fields⟩

/-- What a fan-out says about one of its handlers. -/
def ofFanOut (resource handler : String) (level : LogLevel) (message : String)
    (fields : List (String × String)) : LogRecord :=
  ⟨.fanOut, level, message, ("resource", resource) :: ("handler", handler) :: fields⟩

end LogRecord

namespace LogLevel

/-- Lower is more severe. -/
def rank : LogLevel → Nat
  | .error => 0
  | .warn => 1
  | .info => 2
  | .debug => 3
  | .trace => 4

def text : LogLevel → String
  | .error => "ERROR"
  | .warn => "WARN"
  | .info => "INFO"
  | .debug => "DEBUG"
  | .trace => "TRACE"

/-- Whether a record of this level is kept when those down to `limit` are. -/
def within (level limit : LogLevel) : Bool := decide (level.rank ≤ limit.rank)

end LogLevel

end InformerHub
