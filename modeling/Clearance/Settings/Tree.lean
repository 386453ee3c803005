import Clearance.Settings.Basic
import Clearance.Text.Lowercase

/-! What sources of settings give, and how one source is laid over another. -/
namespace Clearance.Settings

inductive Tree where
  | null
  | bool (b : Bool)
  | integer (n : Int)
  | float (x : Float)
  | text (s : String)
  | list (items : List Tree)
  | table (entries : List (String × Tree))

namespace Tree

def empty : Tree := .table []

def items : Tree → List Tree
  | .list ts => ts
  | _ => []

def entries : Tree → List (String × Tree)
  | .table es => es
  | _ => []

def get? (t : Tree) (key : String) : Option Tree := t.entries.lookup key

def put (key : String) (v : Tree) : List (String × Tree) → List (String × Tree)
  | [] => [(key, v)]
  | (k, w) :: es => if k = key then (key, v) :: es else (k, w) :: put key v es

mutual

/-- One value laid over another: a table keeps what it does not mention, and makes a table of what is
none once it has an entry. Keys are told apart by their small letters. -/
def overlay : Tree → Tree → Tree
  | .table es, below => overlayAll es below
  | t, _ => t

def overlayAll : List (String × Tree) → Tree → Tree
  | [], below => below
  | (key, v) :: es, below =>
    let key := Text.lower key
    overlayAll es (.table (put key (overlay v ((below.get? key).getD empty)) below.entries))

end

inductive Step where
  | key (name : String)
  | index (n : Int)

/-- Where an index points in a list of so many items; from the end, if it is negative. -/
def slot (n : Int) (size : Nat) : Nat := if 0 ≤ n then n.toNat else size - n.natAbs

/-- Changes one item. A list that ends before it is filled up with nulls. -/
def changeItem (n : Int) (f : Tree → Tree) (ts : List Tree) : List Tree :=
  let i := slot n ts.length
  (ts ++ List.replicate (i + 1 - ts.length) Tree.null).modify i f

/-- Changes the value at the end of a path; a value on the way is made a table or a list, if it is
none. -/
def change (f : Tree → Tree) : List Step → Tree → Tree
  | [], t => f t
  | .key k :: path, t => .table (put k (change f path ((t.get? k).getD .null)) t.entries)
  | .index n :: path, t => .list (changeItem n (change f path) t.items)

def set (v : Tree) (path : List Step) : Tree → Tree :=
  match path.getLast? with
  | some (.key k) => change (overlayAll [(k, v)]) path.dropLast
  | _ => change (fun _ => v) path

def ofSettings (s : Settings) : Tree :=
  .table
    [("environment", .text s.environment.name),
      ("cache", .table
        [("persistent_ttl_secs", .integer s.cache.persistentTtl),
          ("shared_memory_enabled", .bool s.cache.sharedEnabled),
          ("shared_memory_ttl_secs", .integer s.cache.sharedTtl),
          ("shared_memory_max_capacity", .integer s.cache.sharedCapacity)]),
      ("metrics", .table
        [("enabled", .bool s.metrics.enabled), ("ttl_secs", .integer s.metrics.ttl),
          ("hit_rate_threshold", .float s.metrics.hitRateThreshold)]),
      ("storage", .table [("backend", .text s.storage.backend)]),
      ("logging", .table
        [("level", .text s.logging.level), ("json", .bool s.logging.json),
          ("spans", .bool s.logging.spans)])]

end Tree

end Clearance.Settings
