import Clearance.Id

/-! What can go wrong, and the sentence that reports it. -/
namespace Clearance

inductive StorageError where
  | contextConflict (level : String) (instanceId : Option InstanceId)
  | parentNotFound (parent : ContextId)
  | roleNotFound (role : RoleId)
  | connection (message : String)
  | invalidInput (message : String)
  deriving DecidableEq

/-- A failure of the engine, or of a store it relies on. -/
inductive Error where
  | configuration (message : String)
  | contextNotFound (level : String) (instanceId : InstanceId)
  | denied (ability : String) (reason : Option String)
  | corruptPath (context : ContextId) (path : String)
  | depthExceeded (limit : Nat)
  | invalidPolicy (kind message : String)
  | serialization
  | storage (e : StorageError)
  deriving DecidableEq

/-- Depths have 32 bits. -/
def greatestDepth : Nat := UInt32.size - 1

/-- What becomes of an object whose depth is the next one behind the limit. Depths are compared with
the limit, but behind the greatest one the addition overflows and aborts the process. The failure in
its place stands for that abort, which no caller gets as a failure of the engine. -/
def Error.beyond (limit : Nat) : Error :=
  if limit < greatestDepth then .depthExceeded limit
  else .configuration "attempt to add with overflow"

theorem Error.beyond_cases (limit : Nat) : beyond limit = .depthExceeded limit ∨
    beyond limit = .configuration "attempt to add with overflow" := by
  unfold beyond
  split
  · exact .inl rfl
  · exact .inr rfl

theorem Error.beyond_eq_depthExceeded {limit : Nat} :
    beyond limit = .depthExceeded limit ↔ limit < greatestDepth := by
  unfold beyond
  split <;> simp [*]

inductive BatchError where
  | empty
  | tooLarge (size limit : Nat)
  | invalidAbility (index : Nat)
  | check (e : Error)
  deriving DecidableEq

def optionText : Option Int64 → String
  | none => "None"
  | some n => s!"Some({Id.text n})"

def StorageError.message : StorageError → String
  | .contextConflict level i => s!"context already exists: {level}#{optionText i}"
  | .parentNotFound p => s!"parent context not found: {Id.text p}"
  | .roleNotFound r => s!"role not found: {Id.text r}"
  | .connection m => s!"database connection error: {m}"
  | .invalidInput m => s!"invalid input: {m}"

def Error.message : Error → String
  | .configuration m => s!"configuration error: {m}"
  | .contextNotFound level i => s!"context not found: {level}#{Id.text i}"
  | .denied ability none => s!"authorization denied for '{ability}'"
  | .denied ability (some reason) => s!"authorization denied for '{ability}': {reason}"
  | .corruptPath c path => s!"corrupt path '{path}' on context {Id.text c}"
  | .depthExceeded limit => s!"context depth limit exceeded (max: {limit})"
  | .invalidPolicy kind m => s!"invalid policy for {kind}: {m}"
  | .serialization => "serialization error: malformed document"
  | .storage e => e.message

/-- Trying again cannot help. -/
def Error.isFatal : Error → Bool
  | .configuration _ | .corruptPath .. | .depthExceeded _ => true
  | _ => false

def Error.reason : Error → Option String
  | .denied _ reason => reason
  | _ => none

def BatchError.message : BatchError → String
  | .empty => "batch request cannot be empty"
  | .tooLarge size limit => s!"batch size {size} exceeds maximum allowed {limit}"
  | .invalidAbility i => s!"invalid ability at index {i}: ability cannot be empty"
  | .check e => s!"check error: {e.message}"

end Clearance
