import KeyLayers.Text.Character
import KeyLayers.Text.Fold
import KeyLayers.Text.Quoted
import KeyLayers.Text.Letter
import KeyLayers.Key
import KeyLayers.Modifier
import KeyLayers.Chord
import KeyLayers.Decimal.Binary
import KeyLayers.Decimal.Shortest
import KeyLayers.Decimal.Layout
import KeyLayers.Members
import KeyLayers.Json.Value
import KeyLayers.Json.Numeral
import KeyLayers.Json.Source
import KeyLayers.Json.Shape
import KeyLayers.Json.Record
import KeyLayers.Json.Text
import KeyLayers.Event
import KeyLayers.Event.Json
import KeyLayers.Condition
import KeyLayers.Manipulator
import KeyLayers.Document
import KeyLayers.Action
import KeyLayers.Layer
import KeyLayers.Notation.Error
import KeyLayers.Notation.Scan
import KeyLayers.Notation.Chord
import KeyLayers.Notation.InputSource
import KeyLayers.Notation.Leaf
import KeyLayers.Pattern.Property
import KeyLayers.Pattern.Atom
import KeyLayers.Pattern.Set
import KeyLayers.Pattern.Syntax
import KeyLayers.Validation
import KeyLayers.Layer.Path
import KeyLayers.Layer.Error
import KeyLayers.Layer.Allocator
import KeyLayers.Layer.Compilation
import KeyLayers.Layer.Tree
import KeyLayers.Hyper
import KeyLayers.Conflict
import KeyLayers.Conflict.Detector
import KeyLayers.Document.Report
import KeyLayers.Toml.Value
import KeyLayers.Toml.Scalar
import KeyLayers.Toml.Quoted
import KeyLayers.Toml.Draft
import KeyLayers.Toml.Text
import KeyLayers.Environment
import KeyLayers.Spec.Error
import KeyLayers.Spec.Layers
import KeyLayers.Spec.Section
import KeyLayers.Spec.Build
import KeyLayers.Timestamp
import KeyLayers.FileSystem.Path
import KeyLayers.FileSystem
import KeyLayers.FileSystem.Edit
import KeyLayers.Output.Error
import KeyLayers.Output.Task
import KeyLayers.Output
import KeyLayers.Output.Build
import KeyLayers.Cli
import KeyLayers.Main
import KeyLayers.Proofs.Outcome
import KeyLayers.Proofs.Repetition
import KeyLayers.Proofs.Condition
import KeyLayers.Proofs.Environment
import KeyLayers.Proofs.Timestamp
import KeyLayers.Proofs.Validation
import KeyLayers.Proofs.Layer.Path
import KeyLayers.Proofs.Layer.Place
import KeyLayers.Proofs.Layer.Address
import KeyLayers.Proofs.Layer.Gates
import KeyLayers.Proofs.Layer.Expansion
import KeyLayers.Proofs.Layer.Emission
import KeyLayers.Proofs.Layer.Correspondence
import KeyLayers.Proofs.Layer.Defect
import KeyLayers.Proofs.Layer.Acceptance
import KeyLayers.Proofs.Layer.Allocation
import KeyLayers.Proofs.Layer.SharedClaims
import KeyLayers.Proofs.Layer.Cycle
import KeyLayers.Proofs.Layer.Transparency
import KeyLayers.Proofs.Conflict
import KeyLayers.Proofs.Conflict.Detector
import KeyLayers.Proofs.Conflict.Spelling
import KeyLayers.Proofs.Engine
import KeyLayers.Proofs.Engine.Gate
import KeyLayers.Proofs.Engine.Priority
import KeyLayers.Proofs.Engine.Runs
import KeyLayers.Proofs.Layer.Recovery
import KeyLayers.Proofs.Layer.Precedence
import KeyLayers.Proofs.Spec.Shadowing
import KeyLayers.Proofs.Layer.Listing
import KeyLayers.Proofs.Spec.Variables
import KeyLayers.Proofs.Notation.Words
import KeyLayers.Proofs.Notation.Tokens
import KeyLayers.Proofs.Notation.Grammar
import KeyLayers.Proofs.Notation.Chord
import KeyLayers.Proofs.FileSystem.Walk
import KeyLayers.Proofs.FileSystem.Slot
import KeyLayers.Proofs.FileSystem.Change
import KeyLayers.Proofs.FileSystem.Names
import KeyLayers.Proofs.FileSystem.Removal
import KeyLayers.Proofs.Output.Task
import KeyLayers.Proofs.Output.Backup
import KeyLayers.Proofs.Output.Listing
import KeyLayers.Proofs.Output.Publication
import KeyLayers.Proofs.Output.Build
import KeyLayers.Proofs.Output.Steps
import KeyLayers.Proofs.Output.Rollback
import KeyLayers.Proofs.Output.Pruning
import KeyLayers.Proofs.Output.Restoration
import KeyLayers.Proofs.Output.Refusal
import KeyLayers.Proofs.Output.Retention
import KeyLayers.Proofs.Output.Survival
import KeyLayers.Proofs.Output.Commit
import KeyLayers.Proofs.Cli.Output
import KeyLayers.Proofs.Json.Scan
import KeyLayers.Proofs.Json.Reading
import KeyLayers.Proofs.Json.Record
import KeyLayers.Proofs.Json.Settle
import KeyLayers.Proofs.Json.Form
import KeyLayers.Proofs.Document.Events
import KeyLayers.Proofs.Document.Displaced
import KeyLayers.Proofs.Event
import KeyLayers.Proofs.Event.Keys
import KeyLayers.Proofs.Document.Rules
import KeyLayers.Proofs.Document.Unmodelled
import KeyLayers.Proofs.Document.Verdict
import KeyLayers.Proofs.Document.Release
import KeyLayers.Proofs.Toml.Distinct
import KeyLayers.Proofs.Spec.Sections
import KeyLayers.Proofs.Spec.Document
import KeyLayers.Proofs.Document.Depth
import KeyLayers.Proofs.Document.Reread
import KeyLayers.Proofs.Shell.Words
import KeyLayers.Proofs.Shell.Expansion
import KeyLayers.Proofs.Action
import KeyLayers.Proofs.Spec.Leading
import KeyLayers.Proofs.Spec.Layers
import KeyLayers.Proofs.Spec.Overlay
