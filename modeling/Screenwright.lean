import Screenwright.App.Action
import Screenwright.App.Component
import Screenwright.App.DataModel
import Screenwright.App.Definition
import Screenwright.App.PropValue
import Screenwright.App.Screen
import Screenwright.App.ValueType
import Screenwright.Catalog.Fault
import Screenwright.Catalog.Kind
import Screenwright.Catalog.PropKind
import Screenwright.Catalog.Schema
import Screenwright.Catalog.Standard
import Screenwright.Check.Frame
import Screenwright.Check.Handler
import Screenwright.Check.Normalize
import Screenwright.Check.References
import Screenwright.Check.Scope
import Screenwright.Check.Signature
import Screenwright.Command.Arguments
import Screenwright.Command.Disk
import Screenwright.Command.Help
import Screenwright.Command.Run
import Screenwright.Config.Basic
import Screenwright.Config.Settings
import Screenwright.Design.Color
import Screenwright.Design.Elevation
import Screenwright.Design.Motion
import Screenwright.Design.Palette
import Screenwright.Design.Slot
import Screenwright.Design.Spacing
import Screenwright.Design.Tokens
import Screenwright.Design.TypeScale
import Screenwright.Entries
import Screenwright.Generate
import Screenwright.Json.Basic
import Screenwright.Json.Decoding
import Screenwright.Json.Text
import Screenwright.Json.Written
import Screenwright.Lowering.Components
import Screenwright.Lowering.Entry
import Screenwright.Lowering.Ledger
import Screenwright.Lowering.Modifiers
import Screenwright.Lowering.Screen
import Screenwright.Main
import Screenwright.Names.Identifier
import Screenwright.Names.ScreenNames
import Screenwright.Names.Words
import Screenwright.Number.Angle
import Screenwright.Number.Binary
import Screenwright.Number.CubeRoot
import Screenwright.Number.Measure
import Screenwright.Number.Notation
import Screenwright.Number.Power
import Screenwright.Number.Reading
import Screenwright.Number.RootPower
import Screenwright.Number.Shortest
import Screenwright.Proofs.Acceptance
import Screenwright.Proofs.Accounts
import Screenwright.Proofs.Bindings
import Screenwright.Proofs.Branches
import Screenwright.Proofs.Calls
import Screenwright.Proofs.Captures
import Screenwright.Proofs.Census
import Screenwright.Proofs.Coercion
import Screenwright.Proofs.ColorTexts
import Screenwright.Proofs.Colors
import Screenwright.Proofs.Composition
import Screenwright.Proofs.Configurations
import Screenwright.Proofs.Conformity
import Screenwright.Proofs.Contrast
import Screenwright.Proofs.Dangling
import Screenwright.Proofs.Declarations
import Screenwright.Proofs.Defaults
import Screenwright.Proofs.EntryFile
import Screenwright.Proofs.First
import Screenwright.Proofs.FirstFault
import Screenwright.Proofs.Flags
import Screenwright.Proofs.Floats.Angles
import Screenwright.Proofs.Floats.Differences
import Screenwright.Proofs.Floats.Fractions
import Screenwright.Proofs.Floats.Nearest
import Screenwright.Proofs.Floats.Order
import Screenwright.Proofs.Floats.Packing
import Screenwright.Proofs.Floats.Parts
import Screenwright.Proofs.Floats.Printed
import Screenwright.Proofs.Floats.Quotients
import Screenwright.Proofs.Floats.Remainders
import Screenwright.Proofs.Floats.Rereads
import Screenwright.Proofs.Floats.Roots
import Screenwright.Proofs.Floats.Sizes
import Screenwright.Proofs.Floats.Whole
import Screenwright.Proofs.Forms
import Screenwright.Proofs.Generation
import Screenwright.Proofs.Holding
import Screenwright.Proofs.Hues
import Screenwright.Proofs.Initialization
import Screenwright.Proofs.Ladder
import Screenwright.Proofs.Lexical.Brackets
import Screenwright.Proofs.Lexical.Components
import Screenwright.Proofs.Lexical.Files
import Screenwright.Proofs.Lexical.Generated
import Screenwright.Proofs.Lexical.Layout
import Screenwright.Proofs.Lexical.Literals
import Screenwright.Proofs.Lexical.Modifiers
import Screenwright.Proofs.Lexical.Names
import Screenwright.Proofs.Lexical.Values
import Screenwright.Proofs.Lexical.Views
import Screenwright.Proofs.Limits
import Screenwright.Proofs.Literals.Apps
import Screenwright.Proofs.Literals.Lowering
import Screenwright.Proofs.Literals.Normal
import Screenwright.Proofs.Literals.Trim
import Screenwright.Proofs.Lowering.Agreement
import Screenwright.Proofs.Lowering.Chains
import Screenwright.Proofs.Lowering.Components
import Screenwright.Proofs.Lowering.Composition
import Screenwright.Proofs.Lowering.Effects
import Screenwright.Proofs.Lowering.Emission
import Screenwright.Proofs.Lowering.Keeps
import Screenwright.Proofs.Lowering.Modifiers
import Screenwright.Proofs.Lowering.Parts
import Screenwright.Proofs.Lowering.Results
import Screenwright.Proofs.Lowering.Tally
import Screenwright.Proofs.Lowering.Trees
import Screenwright.Proofs.Lowering.Uses
import Screenwright.Proofs.Members
import Screenwright.Proofs.Mirror
import Screenwright.Proofs.Naming
import Screenwright.Proofs.Navigation
import Screenwright.Proofs.Normal
import Screenwright.Proofs.Opening
import Screenwright.Proofs.Orders
import Screenwright.Proofs.Paths
import Screenwright.Proofs.Printing
import Screenwright.Proofs.Reach
import Screenwright.Proofs.Reachability
import Screenwright.Proofs.Readability
import Screenwright.Proofs.References
import Screenwright.Proofs.Resolution
import Screenwright.Proofs.RoundTrips.Apps
import Screenwright.Proofs.RoundTrips.Parts
import Screenwright.Proofs.RoundTrips.Trees
import Screenwright.Proofs.Routing
import Screenwright.Proofs.Scopes
import Screenwright.Proofs.Shadowing
import Screenwright.Proofs.Sheets
import Screenwright.Proofs.Slots
import Screenwright.Proofs.Sources
import Screenwright.Proofs.Steps
import Screenwright.Proofs.Tables
import Screenwright.Proofs.Tokens
import Screenwright.Proofs.TypeNames
import Screenwright.Proofs.Typing
import Screenwright.Proofs.Validation
import Screenwright.Proofs.Validity
import Screenwright.Proofs.Values
import Screenwright.Proofs.Warnings
import Screenwright.Proofs.Ways
import Screenwright.Proofs.Writing
import Screenwright.Reach
import Screenwright.Swift.Code
import Screenwright.Swift.Default
import Screenwright.Swift.Files
import Screenwright.Swift.Literal
import Screenwright.Swift.Printer
import Screenwright.Text.Blank
import Screenwright.Text.DecimalDigit
import Screenwright.Text.Hidden
import Screenwright.Text.Quoted
import Screenwright.Text.Split
import Screenwright.Toml.Basic
import Screenwright.Toml.Document
import Screenwright.Toml.Moment
import Screenwright.Toml.Scalar
import Screenwright.Toml.Token
import Screenwright.Tree
