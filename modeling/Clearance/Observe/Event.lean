import Clearance.Cache.Counters
import Clearance.Error

/-! The events that are logged. -/
namespace Clearance

inductive LogLevel where
  | trace
  | debug
  | info
  | warn
  | error
  deriving DecidableEq

def LogLevel.all : List LogLevel := [.trace, .debug, .info, .warn, .error]

def LogLevel.name : LogLevel → String
  | .trace => "trace"
  | .debug => "debug"
  | .info => "info"
  | .warn => "warn"
  | .error => "error"

/-- How a policy, or the role of a super-admin, cuts a check short. -/
inductive Shortcut where
  | allowedByPolicy
  | deniedByPolicy
  | superAdmin
  deriving DecidableEq

inductive Event where
  | serviceBuilt (parentKinds policyKinds : Nat) (shared : Bool)
  | engineReady (environment backend : String) (shared : Bool) (persistentTtl : Nat)
  | snapshotLoaded (user : UserId) (rows contexts : Nat)
  | servedFromShared (user : UserId)
  | servedFromPersistent (user : UserId)
  | undecodableDropped (user : UserId)
  | contextCreated (context : ContextId) (level : String) (instanceId : InstanceId)
      (path : String)
  | decided (shortcut : Shortcut) (user : UserId) (ability : String)
  | hierarchyWalked (user : UserId) (ability : String) (context : ContextId)
      (grantedAt : Option ContextId)
  | warmFailed (user : UserId) (e : Error)
  | warmFinished (total warmed failed : Nat)
  | batchFinished (user : UserId) (total unique : Nat)
  | metricsPersisted (totals : Counters)
  | metricsUnreadable
  | invalidated (user : UserId)
  | invalidationFailed (user : UserId) (e : Error)
  | batchInvalidated (requested cleared : Nat)
  | flushFailed (e : Error)
  | superAdminSeeded (user : UserId) (environment : String)
  deriving DecidableEq

inductive Field where
  | int (n : Int)
  | flag (b : Bool)
  | real (x : Float)
  | text (s : String)

namespace Event

def level : Event → LogLevel
  | decided .. | hierarchyWalked .. => .trace
  | serviceBuilt .. | snapshotLoaded .. | servedFromShared _ | servedFromPersistent _
  | contextCreated .. | batchFinished .. | metricsPersisted _ => .debug
  | engineReady .. | warmFinished .. | invalidated _ | batchInvalidated .. => .info
  | undecodableDropped _ | warmFailed .. | metricsUnreadable | invalidationFailed ..
  | flushFailed _ | superAdminSeeded .. => .warn

def message : Event → String
  | serviceBuilt .. => "building access control service"
  | engineReady .. => "scopeacl runtime ready"
  | snapshotLoaded .. => "loaded permission snapshot"
  | servedFromShared _ => "permission snapshot served from shared memory"
  | servedFromPersistent _ => "permission snapshot served from persistent cache"
  | undecodableDropped _ => "dropping undecodable permission snapshot"
  | contextCreated .. => "created context"
  | decided .allowedByPolicy .. => "allowed by policy"
  | decided .deniedByPolicy .. => "denied by policy"
  | decided .superAdmin .. => "allowed as super-admin"
  | hierarchyWalked .. => "hierarchy walk"
  | warmFailed .. => "failed to warm permission snapshot"
  | warmFinished .. => "cache warm finished"
  | batchFinished .. => "batch check finished"
  | metricsPersisted _ => "persisted cache metrics"
  | metricsUnreadable => "discarding unreadable cache metrics record"
  | invalidated _ => "invalidated permission snapshot"
  | invalidationFailed .. => "failed to invalidate permission snapshot"
  | batchInvalidated .. => "batch invalidation finished"
  | flushFailed _ => "failed to persist cache metrics"
  | superAdminSeeded .. => "seeding synthetic super-admin snapshot"

def fields : Event → List (String × Field)
  | serviceBuilt parents policies shared =>
    [("parent_types", .int parents), ("policy_types", .int policies),
      ("shared_memory", .flag shared)]
  | engineReady environment backend shared ttl =>
    [("environment", .text environment), ("backend", .text backend),
      ("shared_memory", .flag shared), ("persistent_ttl_secs", .int ttl)]
  | snapshotLoaded user rows contexts =>
    [("user_id", .int user.toInt), ("assignment_count", .int rows),
      ("context_count", .int contexts)]
  | servedFromShared user | servedFromPersistent user | undecodableDropped user
  | invalidated user => [("user_id", .int user.toInt)]
  | contextCreated c level i path =>
    [("context_id", .int c.toInt), ("level", .text level), ("instance_id", .int i.toInt),
      ("path", .text path)]
  | decided _ user ability => [("user", .int user.toInt), ("ability", .text ability)]
  | hierarchyWalked user ability c grantedAt =>
    [("user", .int user.toInt), ("ability", .text ability), ("context_id", .int c.toInt),
      ("granted_at", .text (optionText grantedAt))]
  | warmFailed user e | invalidationFailed user e =>
    [("user_id", .int user.toInt), ("error", .text e.message)]
  | warmFinished total warmed failed =>
    [("total", .int total), ("warmed", .int warmed), ("failed", .int failed)]
  | batchFinished user total unique =>
    [("user_id", .int user.toInt), ("total", .int total), ("unique", .int unique)]
  | metricsPersisted totals => [("hit_rate", .real totals.hitRatio)]
  | metricsUnreadable => []
  | batchInvalidated requested cleared =>
    [("requested", .int requested), ("invalidated", .int cleared)]
  | flushFailed e => [("error", .text e.message)]
  | superAdminSeeded user environment =>
    [("user_id", .int user.toInt), ("environment", .text environment)]

end Event

end Clearance
