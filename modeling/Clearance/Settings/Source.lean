import Clearance.Settings.Coercion
import Clearance.Yaml.Document

/-! Where settings come from: a YAML file is laid over the defaults, and the environment
over the file. -/
namespace Clearance.Settings

namespace Tree

def isKeyChar (c : Char) : Bool := c.isAlphanum || c = '_' || c = '-' || c = ' '

/-- An index in brackets, where blanks may stand around it. -/
def index? (cs : List Char) : Option Int :=
  let cs := (cs.dropWhile (· = ' ')).reverse.dropWhile (· = ' ') |>.reverse
  let n := match cs with
    | '-' :: ds => (Text.natural? ds).map fun n => -(n : Int)
    | ds => (Text.natural? ds).map fun n => (n : Int)
  n >>= Text.integer64?

def steps? : List Char → Option (List Step)
  | [] => some []
  | '.' :: cs =>
    let name := cs.takeWhile isKeyChar
    if name.isEmpty then none
    else (steps? (cs.dropWhile isKeyChar)).map (.key (String.ofList name) :: ·)
  | '[' :: cs =>
    if cs.contains ']' then do
      let n ← index? (cs.takeWhile (· ≠ ']'))
      return .index n :: (← steps? (cs.dropWhile (· ≠ ']')).tail)
    else none
  | _ => none
termination_by cs => cs.length
decreasing_by
  · exact Nat.lt_succ_of_le (List.dropWhile_suffix _).length_le
  · exact Nat.lt_succ_of_le ((List.tail_suffix _).trans (List.dropWhile_suffix _)).length_le

/-- The path that a key spells; any text that spells none is one key. -/
def path (key : String) : List Step :=
  let name := key.toList.takeWhile isKeyChar
  match steps? (key.toList.dropWhile isKeyChar) with
  | some steps => if name.isEmpty then [.key key] else .key (String.ofList name) :: steps
  | none => [.key key]

def overlayPaths (below : Tree) (es : List (String × Tree)) : Tree :=
  es.foldl (fun t e => set e.2 (path e.1) t) below

/-- The names of infinity and of what is no number are not taken for settings. -/
def ofScalar? : Yaml.Scalar → Option Tree
  | .null => some .null
  | .bool b => some (.bool b)
  | .integer n => some (.integer n)
  | .real s => (Decimal.read? s).map .float
  | .text s => some (.text s)

def key? : Yaml.Scalar → Option String
  | .text s => some s
  | .integer n => some (String.ofList (Text.writeInteger n))
  | _ => none

/-- The last of several entries with one key counts. -/
def ofEntries (es : List (String × Tree)) : Tree :=
  .table (es.foldl (fun t e => put e.1 e.2 t) [])

mutual

def ofYaml? : Yaml.Value → Option Tree
  | .undefined => some .null
  | .scalar s => ofScalar? s
  | .list vs => (itemsOfYaml? vs).map .list
  | .mapping es => (entriesOfYaml? es).map ofEntries

def itemsOfYaml? : List Yaml.Value → Option (List Tree)
  | [] => some []
  | v :: vs => do return (← ofYaml? v) :: (← itemsOfYaml? vs)

def entriesOfYaml? : List (Yaml.Scalar × Yaml.Value) → Option (List (String × Tree))
  | [] => some []
  | (k, v) :: es => do return (← key? k, ← ofYaml? v) :: (← entriesOfYaml? es)

end

/-- The entries of a document, which has to be a mapping. A byte order mark may stand before it. -/
def ofDocument? (text : String) : Option (List (String × Tree)) := do
  let cs := text.toList
  let text := if cs.head? = some '\uFEFF' then String.ofList (cs.drop 1) else text
  match ← ofYaml? (← Yaml.Value.ofText? text) with
  | .table es => return es
  | _ => none

def ofVariable (s : String) : Tree :=
  if Text.lower s = "true" then .bool true
  else if Text.lower s = "false" then .bool false
  else match Text.integer? s.toList >>= Text.integer64? with
    | some n => .integer n
    | none => match Decimal.read? s with
      | some x => .float x
      | none => .text s

def variablePrefix : String := "scopeacl_"

/-- The path that a variable of this name sets; two underscores separate its keys. -/
def variablePath? (name : String) : Option String :=
  let name := Text.lower name
  if name.startsWith variablePrefix then
    some ((String.ofList (name.toList.drop variablePrefix.length)).replace "__" ".")
  else none

def ofVariables (vars : List (String × String)) : List (String × Tree) :=
  vars.filterMap fun v => (variablePath? v.1).map (·, ofVariable v.2)

end Tree

inductive File where
  | missing (path : String)
  | found (text : String)

def File.entries : Option File → Except LoadError (List (String × Tree))
  | none => .ok []
  | some (.missing path) => .error (.fileNotFound path)
  | some (.found text) =>
    match Tree.ofDocument? text with
    | some es => .ok es
    | none => .error .unreadable

/-- Valid settings out of a file and the variables of the environment. -/
def load (file : Option File) (vars : List (String × String)) : Except LoadError Settings := do
  let tree := (Tree.ofSettings {}).overlayPaths (← File.entries file)
  let tree := tree.overlayPaths (Tree.ofVariables vars)
  match tree.settings? with
  | some s =>
    s.validate
    return s
  | none => .error .unreadable

/-- Settings are valid once they are loaded. -/
theorem problem?_of_load {file : Option File} {vars : List (String × String)} {s : Settings}
    (h : load file vars = .ok s) : s.problem? = none := by
  unfold load at h
  cases hf : File.entries file with
  | error e => simp [hf, bind, Except.bind] at h
  | ok t =>
    simp only [hf, bind, Except.bind] at h
    split at h
    · next s' _ =>
      cases hp : s'.problem? with
      | none =>
        simp only [validate, hp, pure, Except.pure, Except.ok.injEq] at h
        exact h ▸ hp
      | some p => simp [validate, hp] at h
    · cases h

end Clearance.Settings
