/-
The configuration of the generator.
-/
import Screenwright.Json.Decoding

namespace Screenwright

/-- How large a component tree may be. -/
structure Limits where
  maxDepth : Nat
  maxNodes : Nat
deriving DecidableEq, Repr

/-- The settings of a generator run. -/
structure GeneratorConfig where
  limits : Limits
  /-- The depth of nested containers beyond which there is a warning. -/
  nestingWarningDepth : Nat
  /-- Whether screen files end in a preview. -/
  emitPreviews : Bool
  /-- The number of blanks of one level of indentation. -/
  indentWidth : Nat
deriving DecidableEq, Repr

/-- Why a configuration cannot be used. -/
inductive ConfigFault where
  | noNodes
  | badIndent (width : Nat)
deriving DecidableEq, Repr

/-- The message of a fault. -/
def ConfigFault.message : ConfigFault → String
  | noNodes => "limits must allow at least one node"
  | badIndent width => "indent_width must be between 1 and 8, got " ++ toString width

namespace Limits

/-- The limits that hold where none are given. -/
def standard : Limits := ⟨64, 5000⟩

/-- The record form of limits. -/
def form : RecordForm Limits where
  name := "Limits"
  strict := true
  fields :=
    [.may "max_depth" JsonText.readCount fun v r => { r with maxDepth := v },
      .may "max_nodes" JsonText.readCount fun v r => { r with maxNodes := v }]

/-- Decodes limits. -/
def read (t : JsonText) : Decoded Limits :=
  form.read standard t

end Limits

namespace GeneratorConfig

/-- The configuration that holds where none is given. -/
def standard : GeneratorConfig := ⟨.standard, 10, true, 4⟩

/-- The record form of a configuration. -/
def form : RecordForm GeneratorConfig where
  name := "GeneratorConfig"
  strict := true
  fields :=
    [.may "limits" Limits.read fun v r => { r with limits := v },
      .may "nesting_warning_depth" JsonText.readCount
        fun v r => { r with nestingWarningDepth := v },
      .may "emit_previews" JsonText.readBool fun v r => { r with emitPreviews := v },
      .may "indent_width" JsonText.readCount fun v r => { r with indentWidth := v }]

/-- Decodes a configuration. -/
def read (t : JsonText) : Decoded GeneratorConfig :=
  form.read standard t

/-- Refuses a configuration that the generator cannot work with. -/
def check (config : GeneratorConfig) : Except ConfigFault Unit :=
  if config.limits.maxDepth = 0 || config.limits.maxNodes = 0 then .error .noNodes
  else if 1 ≤ config.indentWidth && config.indentWidth ≤ 8 then .ok ()
  else .error (.badIndent config.indentWidth)

end GeneratorConfig

end Screenwright
