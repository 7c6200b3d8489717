/-
The configuration of the generator in a settings file.

A setting that the configuration does not have is refused.  The limits may also be
given as an array of the depth and the number of nodes; what follows in it is not read.
-/
import Screenwright.Config.Basic
import Screenwright.Toml.Document

namespace Screenwright

/-- Why a settings file gives no configuration. -/
inductive ConfigError where
  /-- It is no settings file, or it does not fit the configuration. -/
  | unreadable
  | refused (fault : ConfigFault)
deriving DecidableEq, Repr

namespace Toml

/-- A count. -/
def count? : Toml → Option Nat
  | .int n => if 0 ≤ n then some n.toNat else none
  | _ => none

/-- A truth value. -/
def bool? : Toml → Option Bool
  | .bool b => some b
  | _ => none

end Toml

/-- Sets one limit. -/
def Limits.set (limits : Limits) (name : String) (value : Toml) : Option Limits :=
  match name with
  | "max_depth" => value.count?.map fun n => { limits with maxDepth := n }
  | "max_nodes" => value.count?.map fun n => { limits with maxNodes := n }
  | _ => none

/-- Limits from a value of a settings file. -/
def Limits.ofToml : Toml → Option Limits
  | .table _ entries =>
    entries.foldlM (fun limits (name, value) => limits.set name value) .standard
  | .array items =>
    (["max_depth", "max_nodes"].zip items).foldlM
      (fun limits (name, value) => limits.set name value) .standard
  | _ => none

namespace GeneratorConfig

/-- Changes one setting. -/
def set (config : GeneratorConfig) (name : String) (value : Toml) : Option GeneratorConfig :=
  match name with
  | "limits" => (Limits.ofToml value).map fun limits => { config with limits }
  | "nesting_warning_depth" =>
    value.count?.map fun n => { config with nestingWarningDepth := n }
  | "emit_previews" => value.bool?.map fun b => { config with emitPreviews := b }
  | "indent_width" => value.count?.map fun n => { config with indentWidth := n }
  | _ => none

/-- The configuration that the entries of a settings file describe. -/
def ofEntries (entries : Entries Toml) : Option GeneratorConfig :=
  entries.foldlM (fun config (name, value) => config.set name value) standard

/-- Reads a settings file. -/
def ofSettings (s : String) : Except ConfigError GeneratorConfig :=
  match (Toml.read s).bind ofEntries with
  | none => .error .unreadable
  | some config => (config.check.mapError ConfigError.refused).map fun _ => config

end GeneratorConfig

end Screenwright
