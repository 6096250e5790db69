import InformerHub.Config.Settings
import InformerHub.Document
import InformerHub.Text.Numeral
import InformerHub.Text.Shortest

/-!
# Settings as documents

Every section and every field may be left out of a document; `Settings.ofDocument` puts the
defaults in their place, and `Settings.toDocument` leaves nothing out.  What counts as a number
depends on where the document comes from, so the reader takes a `Reading`: `Reading.strict` wants
integers, `Reading.lenient` also takes the spellings of layered configuration.
-/

namespace InformerHub

/-- How the parts of a document are read, with failures in `ε`. -/
structure Reading (ε : Type) where
  /-- A number in 64 bits. -/
  word : Document → Except ε UInt64
  /-- The failure for a section that is neither a table nor a list.  The text names what was
  expected. -/
  notASection : String → Document → ε
  /-- The failure for a section with more items than it has fields, if that is one. -/
  surplus : Option ε

namespace Reading

variable {ε : Type}

/-- The fields of a section: the entries of a table by name, or the items of a list by position. -/
def fields (r : Reading ε) (expected : String) (names : List String) :
    Document → Except ε (List (String × Document))
  | .table es => .ok es
  | .list items =>
    match r.surplus with
    | some e => if names.length < items.length then .error e else .ok (names.zip items)
    | none => .ok (names.zip items)
  | d => .error (r.notASection expected d)

/-- A number that may be left out. -/
def wordOr (r : Reading ε) (default : UInt64) (name : String)
    (es : List (String × Document)) : Except ε UInt64 :=
  match Document.lookup? name es with
  | some d => r.word d
  | none => .ok default

/-- A section that may be left out. -/
def sectionOr {α : Type} (default : α) (read : Document → Except ε α) (name : String)
    (es : List (String × Document)) : Except ε α :=
  match Document.lookup? name es with
  | some d => read d
  | none => .ok default

/-- An integer that fits in 64 bits. -/
def integerWord? (n : Int) : Option UInt64 :=
  if 0 ≤ n ∧ n < UInt64.size then some (UInt64.ofNat n.toNat) else none

/-- Numbers are integers, and nothing else is. -/
def strict : Reading Unit where
  word
    | .integer n => match integerWord? n with
      | some w => .ok w
      | none => .error ()
    | _ => .error ()
  notASection _ _ := ()
  surplus := some ()

/-- What stands where a section should, in words. -/
def found : Document → String
  | .null => "unit value"
  | .bool b => "boolean \x60" ++ Text.truth b ++ "\x60"
  | .integer n => "integer \x60" ++ toString n ++ "\x60"
  | .float x => "floating point \x60" ++ Text.shortest x ++ "\x60"
  | .text s => "string " ++ Text.quoted s
  | .list _ => "sequence"
  | .table _ => "map"

/-- The number a text stands for: a word for yes or no, or a numeral. -/
def textWord? (s : String) : Option UInt64 :=
  if Text.lowercase s ∈ ["true", "on", "yes"] then some 1
  else if Text.lowercase s ∈ ["false", "off", "no"] then some 0
  else Text.word? s

/-- Floats are rounded, halves away from zero, and cut off at the ends of the range; truth values
count as one and zero; a text is read as the number it spells. -/
def lenient : Reading ConfigError where
  word
    | .integer n => match integerWord? n with
      | some w => .ok w
      | none => .error .wrongType
    | .float x => .ok x.round.toUInt64
    | .bool b => .ok (if b then 1 else 0)
    | .text s => match textWord? s with
      | some w => .ok w
      | none => .error .wrongType
    | _ => .error .wrongType
  notASection expected d :=
    .message ("invalid type: " ++ found d ++ ", expected struct " ++ expected)
  surplus := none

end Reading

variable {ε : Type}

def BackoffPolicy.ofDocument (r : Reading ε) (d : Document) : Except ε BackoffPolicy := do
  let es ← r.fields "BackoffPolicy"
    ["max_retries", "timeout_ms", "base_delay_ms", "max_delay_ms"] d
  return {
    maxRetries := ← r.wordOr BackoffPolicy.standard.maxRetries "max_retries" es
    timeoutMs := ← r.wordOr BackoffPolicy.standard.timeoutMs "timeout_ms" es
    baseDelayMs := ← r.wordOr BackoffPolicy.standard.baseDelayMs "base_delay_ms" es
    maxDelayMs := ← r.wordOr BackoffPolicy.standard.maxDelayMs "max_delay_ms" es }

def HeartbeatSettings.ofDocument (r : Reading ε) (d : Document) : Except ε HeartbeatSettings := do
  let es ← r.fields "HeartbeatConfig" ["interval_in_secs", "cache_sync_poll_interval_in_ms"] d
  return {
    intervalSecs := ← r.wordOr HeartbeatSettings.standard.intervalSecs "interval_in_secs" es
    pollMs := ← r.wordOr HeartbeatSettings.standard.pollMs "cache_sync_poll_interval_in_ms" es }

def InformerSettings.ofDocument (r : Reading ε) (d : Document) : Except ε InformerSettings := do
  let es ← r.fields "InformerConfig" ["resync_period_in_secs"] d
  return {
    resyncSecs := ← r.wordOr InformerSettings.standard.resyncSecs "resync_period_in_secs" es }

def ControllerSettings.ofDocument (r : Reading ε) (d : Document) :
    Except ε ControllerSettings := do
  let es ← r.fields "ControllersConfig" ["workers"] d
  return { workers := ← r.wordOr ControllerSettings.standard.workers "workers" es }

/-- A policy that is left out is the one of its purpose; of one that is given, what is left out is
standard. -/
def RetrySettings.ofDocument (r : Reading ε) (d : Document) : Except ε RetrySettings := do
  let es ← r.fields "RetryPolicies" ["relist", "status_update"] d
  return {
    relist := ← Reading.sectionOr .standardRelist (BackoffPolicy.ofDocument r) "relist" es
    statusUpdate :=
      ← Reading.sectionOr .standardStatusUpdate (BackoffPolicy.ofDocument r) "status_update" es }

def Settings.ofDocument (r : Reading ε) (d : Document) : Except ε Settings := do
  let es ← r.fields "Settings" ["heartbeat", "informer", "controllers", "retry"] d
  return {
    heartbeat := ← Reading.sectionOr .standard (HeartbeatSettings.ofDocument r) "heartbeat" es
    informer := ← Reading.sectionOr .standard (InformerSettings.ofDocument r) "informer" es
    controllers :=
      ← Reading.sectionOr .standard (ControllerSettings.ofDocument r) "controllers" es
    retry := ← Reading.sectionOr .standard (RetrySettings.ofDocument r) "retry" es }

def BackoffPolicy.entries (p : BackoffPolicy) : List (String × UInt64) :=
  [("max_retries", p.maxRetries), ("timeout_ms", p.timeoutMs),
    ("base_delay_ms", p.baseDelayMs), ("max_delay_ms", p.maxDelayMs)]

/-- Every setting with the path that leads to it, in the order of the sections. -/
def Settings.leaves (s : Settings) : List (List String × UInt64) :=
  [(["heartbeat", "interval_in_secs"], s.heartbeat.intervalSecs),
    (["heartbeat", "cache_sync_poll_interval_in_ms"], s.heartbeat.pollMs),
    (["informer", "resync_period_in_secs"], s.informer.resyncSecs),
    (["controllers", "workers"], s.controllers.workers)] ++
  s.retry.relist.entries.map (fun e => (["retry", "relist", e.1], e.2)) ++
  s.retry.statusUpdate.entries.map (fun e => (["retry", "status_update", e.1], e.2))

/-- The document of some settings' numbers under their names. -/
def wordTable (es : List (String × UInt64)) : Document :=
  .table (es.map fun e => (e.1, .integer e.2.toNat))

def Settings.toDocument (s : Settings) : Document :=
  .table [
    ("heartbeat", wordTable [("interval_in_secs", s.heartbeat.intervalSecs),
      ("cache_sync_poll_interval_in_ms", s.heartbeat.pollMs)]),
    ("informer", wordTable [("resync_period_in_secs", s.informer.resyncSecs)]),
    ("controllers", wordTable [("workers", s.controllers.workers)]),
    ("retry", .table [("relist", wordTable s.retry.relist.entries),
      ("status_update", wordTable s.retry.statusUpdate.entries)])]

end InformerHub
