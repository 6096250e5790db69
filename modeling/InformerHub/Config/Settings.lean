import InformerHub.Backoff
import InformerHub.Error

/-!
# Settings

The numbers that govern a connection, in four sections, with their defaults.  `Settings.validate`
checks each section in turn and names the first rule that is broken.
-/

namespace InformerHub

/-- How often the barrier looks at the informers. -/
structure HeartbeatSettings where
  /-- Time between two heartbeats; each waits at most half of it. -/
  intervalSecs : UInt64
  /-- Time between two looks at the informers while waiting for them. -/
  pollMs : UInt64
  deriving DecidableEq, Repr, Inhabited

structure InformerSettings where
  /-- Time between two redeliveries of everything stored; zero for none. -/
  resyncSecs : UInt64
  deriving DecidableEq, Repr, Inhabited

structure ControllerSettings where
  workers : UInt64
  deriving DecidableEq, Repr, Inhabited

structure RetrySettings where
  /-- For lists and watches of an informer. -/
  relist : BackoffPolicy
  /-- For status writes. -/
  statusUpdate : BackoffPolicy
  deriving DecidableEq, Repr, Inhabited

structure Settings where
  heartbeat : HeartbeatSettings
  informer : InformerSettings
  controllers : ControllerSettings
  retry : RetrySettings
  deriving DecidableEq, Repr, Inhabited

namespace BackoffPolicy

/-- A policy of which nothing is said. -/
def standard : BackoffPolicy := ⟨3, 100, 50, 1000⟩

def standardRelist : BackoffPolicy := ⟨0, 30000, 800, 30000⟩

def standardStatusUpdate : BackoffPolicy := ⟨3, 5000, 100, 2000⟩

/-- Attempts need time, and the first pause must be allowed by the cap. -/
def validate (p : BackoffPolicy) (name : String) : Except ConfigError Unit :=
  if p.timeoutMs = 0 then .error (.message (name ++ " timeout_ms must be > 0"))
  else if p.maxDelayMs < p.baseDelayMs then
    .error (.message (name ++ " base_delay_ms " ++ toString p.baseDelayMs.toNat ++
      "ms must not exceed max_delay_ms " ++ toString p.maxDelayMs.toNat ++ "ms"))
  else .ok ()

end BackoffPolicy

namespace HeartbeatSettings

def standard : HeartbeatSettings := ⟨300, 100⟩

/-- In nanoseconds. -/
def interval (h : HeartbeatSettings) : Nat := Duration.ofSeconds h.intervalSecs.toNat

/-- In nanoseconds. -/
def pollInterval (h : HeartbeatSettings) : Nat := Duration.ofMillis h.pollMs.toNat

/-- A heartbeat must leave time for at least one look at the informers. -/
def validate (h : HeartbeatSettings) : Except ConfigError Unit :=
  if h.intervalSecs < 2 then
    .error (.message ("heartbeat interval " ++ toString h.intervalSecs.toNat ++
      "s too small, minimum 2s"))
  else if h.pollMs = 0 then .error (.message "cache_sync_poll_interval_in_ms must be > 0")
  else if Duration.half h.interval ≤ h.pollInterval then
    .error (.message ("cache sync poll interval " ++ toString h.pollMs.toNat ++
      "ms must be shorter than half the heartbeat interval (" ++
      toString h.intervalSecs.toNat ++ "s)"))
  else .ok ()

end HeartbeatSettings

namespace InformerSettings

def standard : InformerSettings := ⟨1800⟩

/-- In nanoseconds. -/
def resyncPeriod (i : InformerSettings) : Option Nat :=
  if i.resyncSecs = 0 then none else some (Duration.ofSeconds i.resyncSecs.toNat)

end InformerSettings

namespace ControllerSettings

def standard : ControllerSettings := ⟨2⟩

def validate (c : ControllerSettings) : Except ConfigError Unit :=
  if c.workers = 0 then .error (.message "controllers.workers must be at least 1") else .ok ()

end ControllerSettings

namespace RetrySettings

def standard : RetrySettings := ⟨.standardRelist, .standardStatusUpdate⟩

def validate (r : RetrySettings) : Except ConfigError Unit := do
  r.relist.validate "retry.relist"
  r.statusUpdate.validate "retry.status_update"

end RetrySettings

namespace Settings

def standard : Settings := ⟨.standard, .standard, .standard, .standard⟩

/-- The first broken rule, section by section. -/
def validate (s : Settings) : Except ConfigError Unit := do
  s.heartbeat.validate
  s.controllers.validate
  s.retry.validate

end Settings

end InformerHub
