import Clearance.Json.Reader
import Clearance.Json.Writer

/-! Counts of what a cache did. -/
namespace Clearance

structure Counters where
  requestHits : Nat := 0
  /-- Hits in the memory that a process shares among its sessions. -/
  sharedHits : Nat := 0
  /-- Hits in the key-value store. -/
  persistentHits : Nat := 0
  misses : Nat := 0
  batchChecks : Nat := 0
  invalidations : Nat := 0
  deriving DecidableEq

namespace Counters

def add (a b : Counters) : Counters where
  requestHits := a.requestHits + b.requestHits
  sharedHits := a.sharedHits + b.sharedHits
  persistentHits := a.persistentHits + b.persistentHits
  misses := a.misses + b.misses
  batchChecks := a.batchChecks + b.batchChecks
  invalidations := a.invalidations + b.invalidations

instance : Add Counters := ⟨add⟩

/-- Lookups that one of the lower tiers served. -/
def hits (c : Counters) : Nat := c.sharedHits + c.persistentHits

def lookups (c : Counters) : Nat := c.hits + c.misses

def hitRatio (c : Counters) : Float :=
  if c.lookups = 0 then 0 else c.hits.toFloat / c.lookups.toFloat

/-- The names under which the counts are recorded, in the order of the fields. -/
def names : List String :=
  ["request_hits", "l1_hits", "l2_hits", "misses", "batch_checks", "invalidations"]

def toList (c : Counters) : List Nat :=
  [c.requestHits, c.sharedHits, c.persistentHits, c.misses, c.batchChecks, c.invalidations]

def ofList? : List Nat → Option Counters
  | [a, b, c, d, e, f] => some ⟨a, b, c, d, e, f⟩
  | _ => none

def toJson (c : Counters) : Json.Value := .obj (names.zip (c.toList.map .nat))

/-- A count that is left out is zero. -/
def ofJson? (v : Json.Value) : Option Counters := do
  let counts ← (← v.fields? names).mapM fun
    | none => some 0
    | some v => v.natural64?
  ofList? counts

def toBytes (c : Counters) : ByteArray := c.toJson.render.toUTF8

def ofBytes? (b : ByteArray) : Option Counters := (Json.read? b).bind ofJson?

end Counters

end Clearance
