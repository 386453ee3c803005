import Clearance.Settings.Basic
import Clearance.Text.Integer

/-! How events are to be logged. -/
namespace Clearance

/-- A level by its rank, from one for errors to five for traces, or by its name in any case. A rank
may carry a plus and leading zeros. -/
def LogLevel.read? (s : String) : Option LogLevel :=
  let digits := match s.toList with
    | '+' :: cs => cs
    | cs => cs
  match Text.natural? digits with
  | some 1 => some .error
  | some 2 => some .warn
  | some 3 => some .info
  | some 4 => some .debug
  | some 5 => some .trace
  | _ => LogLevel.all.find? fun l => l.name = Text.lowerAscii s

structure LogConfig where
  json : Bool
  level : LogLevel
  spans : Bool
  deriving DecidableEq

def LogConfig.ofSettings (s : Settings.Logging) : Except LoadError LogConfig :=
  match LogLevel.read? s.level with
  | some level => .ok ⟨s.json, level, s.spans⟩
  | none => .error (.invalid (.logLevel s.level))

end Clearance
