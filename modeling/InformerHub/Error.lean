import InformerHub.Duration
import InformerHub.Text.Quoted
import InformerHub.Text.Shape

/-!
# Errors

What can go wrong, as causes.  `Error.message` is the sentence shown to a user, `Error.describe`
the full form with every part, and `Error.sources` the chain of underlying errors, outermost first.
-/

namespace InformerHub

open Text

/-- Failures while loading or checking the configuration. -/
inductive ConfigError where
  /-- A rule that the configuration breaks. -/
  | message (text : String)
  | fileNotFound (name : String)
  | unknownFormat (name : String)
  | malformedFile
  /-- A value that cannot be read as the number its field holds. -/
  | wrongType
  /-- A position counted from the end of a list lies before its start. -/
  | indexBeforeStart
  /-- A position lies beyond what a list can grow to. -/
  | listTooLong
  deriving DecidableEq, Repr, Inhabited

namespace ConfigError

def text : ConfigError → String
  | .message t => t
  | .fileNotFound name => "configuration file \"" ++ name ++ "\" not found"
  | .unknownFormat name =>
    "configuration file \"" ++ name ++ "\" is not of a registered file format"
  | .malformedFile => "malformed configuration file"
  | .wrongType => "a configuration value has the wrong type"
  | .indexBeforeStart => "attempt to subtract with overflow"
  | .listTooLong => "capacity overflow"

end ConfigError

/-- Every failure of the library and of the collaborators it calls. -/
inductive Error where
  /-- A failure that a collaborator reports in its own words. -/
  | external (text : String)
  /-- Listing the current items failed. -/
  | list (resource : String) (source : Error)
  /-- Opening or reading the watch stream failed. -/
  | watch (resource : String) (source : Error)
  /-- A multiplexer takes dynamic handlers only. -/
  | staticHandlerRejected
  | alreadyStarted (resource : String)
  | invalidKey (key : String)
  | indexNotFound (name : String)
  /-- The resource is registered in a factory under another item type. -/
  | typeMismatch (resource existing : String)
  | indexerConflict (text : String)
  /-- Writing the status of a binding failed. -/
  | statusUpdate (key : String) (source : Error)
  /-- A background task ended by a panic. -/
  | taskPanicked (text : String)
  | timeout (limit : Nat)
  | retryExhausted (text : String)
  | config (error : ConfigError)
  | fatal (text : String)
  deriving DecidableEq, Repr, Inhabited

namespace Error

/-- The words for a panic of a background task. -/
def panicText (text : String) : String := "task panicked with message " ++ quoted text

def message : Error → String
  | .external t => t
  | .list r s => "List of " ++ r ++ " failed: " ++ s.message
  | .watch r s => "Watch of " ++ r ++ " failed: " ++ s.message
  | .staticHandlerRejected =>
    "add_event_handler is not supported on a dynamic informer, use add_dynamic_event_handler"
  | .alreadyStarted r => "Informer for " ++ r ++ " has already been started"
  | .invalidKey k => "Unexpected key format: " ++ quoted k
  | .indexNotFound n => "Index with name " ++ n ++ " does not exist"
  | .typeMismatch r e => "Resource " ++ r ++ " is already registered with item type " ++ e
  | .indexerConflict t => "Indexer conflict: " ++ t
  | .statusUpdate k s => "Failed to update status of " ++ k ++ ": " ++ s.message
  | .taskPanicked t => "Background task failed: " ++ panicText t
  | .timeout d => "Task timed out after " ++ Duration.text d
  | .retryExhausted t => t
  | .config e => e.text
  | .fatal t => "Fatal error: " ++ t

/-- An error of the layer `layer`, one of those that need no operator. -/
def inLayer (layer inner : String) : String := wrapped "System" (wrapped layer inner)

def describe : Error → String
  | .external t => quoted t
  | .list r s => inLayer "Informer" (record "List" [("resource", quoted r), ("source", s.describe)])
  | .watch r s =>
    inLayer "Informer" (record "Watch" [("resource", quoted r), ("source", s.describe)])
  | .staticHandlerRejected => inLayer "Informer" "StaticHandlerRejected"
  | .alreadyStarted r => inLayer "Informer" (wrapped "AlreadyStarted" (quoted r))
  | .invalidKey k => inLayer "Informer" (wrapped "InvalidKey" (quoted k))
  | .indexNotFound n => inLayer "Informer" (wrapped "IndexNotFound" (quoted n))
  | .typeMismatch r e =>
    inLayer "Informer"
      (record "ResourceTypeMismatch" [("resource", quoted r), ("existing", quoted e)])
  | .indexerConflict t => inLayer "Informer" (wrapped "IndexerConflict" (quoted t))
  | .statusUpdate k s =>
    inLayer "Status" (record "Update" [("key", quoted k), ("source", s.describe)])
  | .taskPanicked t => inLayer "Task" (wrapped "Join" (panicText t))
  | .timeout d => inLayer "Task" (wrapped "Timeout" (Duration.text d))
  | .retryExhausted t => inLayer "Task" (wrapped "RetryExhausted" (quoted t))
  | .config e => wrapped "Config" e.text
  | .fatal t => wrapped "Fatal" (quoted t)

/-- The errors under this one, outermost first. -/
def sources : Error → List Error
  | .list _ s => s :: s.sources
  | .watch _ s => s :: s.sources
  | .statusUpdate _ s => s :: s.sources
  | _ => []

/-- A second indexer under a name that is taken. -/
def indexerExists (name : String) : Error :=
  .indexerConflict ("indexer " ++ name ++ " already exists")

/-- An informer whose list and watch rounds failed more often in a row than its policy allows. -/
def informerGaveUp (resource : String) (failures : Nat) : Error :=
  .retryExhausted ("informer for " ++ resource ++ " gave up after " ++ toString failures ++
    " failed list/watch attempts")

/-- An operation whose last allowed attempt timed out. -/
def attemptsTimedOut (attempts : Nat) : Error :=
  .retryExhausted ("task timed out after " ++ toString attempts ++ " attempts")

end Error

end InformerHub
