import Clearance.Decimal.Reading
import Clearance.Json.Basic
import Clearance.Settings.Basic

/-! Settings from a JSON value. Each section and each field may be left out. -/
namespace Clearance

open Json (Value)

namespace Settings

def field {α : Type} (read? : Value → Option α) (default : α) : Option Value → Option α
  | none => some default
  | some v => read? v

/-- A number, or the name of one that has no digits. -/
def readFloat? : Value → Option Float
  | .number n => some (Decimal.toFloat n.negative n.mantissa n.exponent)
  | .string s => do
    let text ← s.text
    if text ∈ ["NaN", "inf", "-inf"] then Decimal.read? text else none
  | _ => none

/-- A name, alone or as the only member of an object whose value is null. -/
def readEnvironment? : Value → Option Environment
  | .string s => s.text >>= Environment.ofName?
  | .object [(name, .null)] => name.text >>= Environment.ofName?
  | _ => none

def readCache? (v : Value) : Option Cache := do
  match ← v.fields? ["persistent_ttl_secs", "shared_memory_enabled", "shared_memory_ttl_secs",
    "shared_memory_max_capacity"] with
  | [a, b, c, d] =>
    let default : Cache := {}
    return ⟨← field Value.natural64? default.persistentTtl a,
      ← field Value.bool? default.sharedEnabled b,
      ← field Value.natural64? default.sharedTtl c,
      ← field Value.natural64? default.sharedCapacity d⟩
  | _ => none

def readMetrics? (v : Value) : Option Metrics := do
  match ← v.fields? ["enabled", "ttl_secs", "hit_rate_threshold"] with
  | [a, b, c] =>
    let default : Metrics := {}
    return ⟨← field Value.bool? default.enabled a,
      ← field Value.natural64? default.ttl b,
      ← field readFloat? default.hitRateThreshold c⟩
  | _ => none

def readStorage? (v : Value) : Option Storage := do
  match ← v.fields? ["backend"] with
  | [a] => return ⟨← field Value.text? ({} : Storage).backend a⟩
  | _ => none

def readLogging? (v : Value) : Option Logging := do
  match ← v.fields? ["level", "json", "spans"] with
  | [a, b, c] =>
    let default : Logging := {}
    return ⟨← field Value.text? default.level a,
      ← field Value.bool? default.json b,
      ← field Value.bool? default.spans c⟩
  | _ => none

def ofJson? (v : Value) : Option Settings := do
  match ← v.fields? ["environment", "cache", "metrics", "storage", "logging"] with
  | [a, b, c, d, e] =>
    return ⟨← field readEnvironment? .production a, ← field readCache? {} b,
      ← field readMetrics? {} c, ← field readStorage? {} d, ← field readLogging? {} e⟩
  | _ => none

end Settings

end Clearance
