import Clearance.Decimal.Reading
import Clearance.Settings.Tree

/-! Settings out of a tree. A field takes a value of another kind where that says the same. -/
namespace Clearance.Settings.Tree

def wordFlag? (s : String) : Option Bool :=
  let s := Text.lower s
  if s ∈ ["true", "on", "yes"] then some true
  else if s ∈ ["false", "off", "no"] then some false
  else none

def natural64? (n : Int) : Option Nat := if 0 ≤ n ∧ n < UInt64.size then some n.toNat else none

/-- The nearest natural number of 64 bits; a half goes up. -/
def nearestNatural (x : Float) : Nat :=
  match Decimal.Binary.ofFloat x with
  | .finite false m e => min ((Decimal.Ratio.scaled m e).round .up) (UInt64.size - 1)
  | .infinite false => UInt64.size - 1
  | _ => 0

def digits? (s : String) : Option Nat :=
  let n := match s.toList with
    | '+' :: cs => Text.natural? cs
    | cs => Text.natural? cs
  n.bind fun n => natural64? n

def natural? : Tree → Option Nat
  | .integer n => natural64? n
  | .float x => some (nearestNatural x)
  | .bool b => some b.toNat
  | .text s =>
    match wordFlag? s with
    | some b => some b.toNat
    | none => digits? s
  | _ => none

def flag? : Tree → Option Bool
  | .bool b => some b
  | .integer n => some (n ≠ 0)
  | .float x => some (x != 0)
  | .text s => if s = "1" then some true else if s = "0" then some false else wordFlag? s
  | _ => none

def float? : Tree → Option Float
  | .float x => some x
  | .integer n => some (Decimal.toFloat (n < 0) n.natAbs 0)
  | .bool b => some (if b then 1 else 0)
  | .text s =>
    match wordFlag? s with
    | some b => some (if b then 1 else 0)
    | none => Decimal.read? s
  | _ => none

def text? : Tree → Option String
  | .text s => some s
  | .bool b => some (if b then "true" else "false")
  | .integer n => some (String.ofList (Text.writeInteger n))
  | .float x => some (Decimal.natural x)
  | _ => none

/-- A name in any case, or a table whose only key is the name. -/
def environment? : Tree → Option Environment
  | .text s => Environment.ofName? (Text.lower s)
  | .table [(key, _)] => Environment.ofName? (Text.lower key)
  | _ => none

/-- The fields of a part of the settings, in their order: a table has some of them by their names,
and a list the first of them. -/
def fields? (names : List String) : Tree → Option (List (Option Tree))
  | .table es => some (names.map fun name => es.lookup name)
  | .list ts => some ((List.range names.length).map fun i => ts[i]?)
  | _ => none

def field {α : Type} (read? : Tree → Option α) (default : α) : Option Tree → Option α
  | none => some default
  | some t => read? t

def cache? (t : Tree) : Option Cache := do
  let default : Cache := {}
  match ← t.fields? ["persistent_ttl_secs", "shared_memory_enabled", "shared_memory_ttl_secs",
      "shared_memory_max_capacity"] with
  | [a, b, c, d] =>
    return ⟨← field natural? default.persistentTtl a, ← field flag? default.sharedEnabled b,
      ← field natural? default.sharedTtl c, ← field natural? default.sharedCapacity d⟩
  | _ => none

def metrics? (t : Tree) : Option Metrics := do
  let default : Metrics := {}
  match ← t.fields? ["enabled", "ttl_secs", "hit_rate_threshold"] with
  | [a, b, c] =>
    return ⟨← field flag? default.enabled a, ← field natural? default.ttl b,
      ← field float? default.hitRateThreshold c⟩
  | _ => none

def storage? (t : Tree) : Option Storage := do
  match ← t.fields? ["backend"] with
  | [a] => return ⟨← field text? ({} : Storage).backend a⟩
  | _ => none

def logging? (t : Tree) : Option Logging := do
  let default : Logging := {}
  match ← t.fields? ["level", "json", "spans"] with
  | [a, b, c] =>
    return ⟨← field text? default.level a, ← field flag? default.json b,
      ← field flag? default.spans c⟩
  | _ => none

/-- Settings from a tree. Keys that settings do not know are left aside. -/
def settings? (t : Tree) : Option Settings := do
  return ⟨← field environment? .production (t.get? "environment"), ← field cache? {} (t.get? "cache"),
    ← field metrics? {} (t.get? "metrics"), ← field storage? {} (t.get? "storage"),
    ← field logging? {} (t.get? "logging")⟩

end Clearance.Settings.Tree
