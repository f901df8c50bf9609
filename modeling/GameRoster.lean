import GameRoster.Action.Animation
import GameRoster.Action.Base
import GameRoster.Action.Derive
import GameRoster.Action.General
import GameRoster.Action.Idle
import GameRoster.Action.InputMovement
import GameRoster.Action.Key
import GameRoster.Action.Move
import GameRoster.Action.Phase
import GameRoster.Attribute
import GameRoster.Attribute.Table
import GameRoster.Checked
import GameRoster.CommandLine
import GameRoster.Disk
import GameRoster.Document.Json
import GameRoster.Document.Node
import GameRoster.Document.Reading
import GameRoster.Document.Ron
import GameRoster.Document.Shape
import GameRoster.Export
import GameRoster.Fault
import GameRoster.Fault.Location
import GameRoster.Fault.Rule
import GameRoster.Field.Choice
import GameRoster.Field.Number
import GameRoster.Field.Path
import GameRoster.Field.Sequence
import GameRoster.Field.Text
import GameRoster.Id
import GameRoster.Id.Family
import GameRoster.Kind
import GameRoster.Main
import GameRoster.Numeric.Binary
import GameRoster.Numeric.Layout
import GameRoster.Numeric.Literal
import GameRoster.Numeric.Shortest
import GameRoster.Plane
import GameRoster.Proofs.Acceptance
import GameRoster.Proofs.Anywhere
import GameRoster.Proofs.AppendOnly
import GameRoster.Proofs.Arithmetic
import GameRoster.Proofs.Belonging
import GameRoster.Proofs.BindingForm
import GameRoster.Proofs.Bindings
import GameRoster.Proofs.Bounds
import GameRoster.Proofs.Building
import GameRoster.Proofs.CanonicalPaths
import GameRoster.Proofs.Checks
import GameRoster.Proofs.Coarsest
import GameRoster.Proofs.Collisions
import GameRoster.Proofs.Declarations
import GameRoster.Proofs.Declared
import GameRoster.Proofs.Directions
import GameRoster.Proofs.Directories
import GameRoster.Proofs.DistinctKeys
import GameRoster.Proofs.Doubles
import GameRoster.Proofs.DraftFaults
import GameRoster.Proofs.EntryFaults
import GameRoster.Proofs.Families
import GameRoster.Proofs.Faults
import GameRoster.Proofs.FieldFaults
import GameRoster.Proofs.Finite
import GameRoster.Proofs.FittingRanges
import GameRoster.Proofs.FloatFields
import GameRoster.Proofs.FollowedPaths
import GameRoster.Proofs.Grammar
import GameRoster.Proofs.Grants
import GameRoster.Proofs.Growth
import GameRoster.Proofs.IdLists
import GameRoster.Proofs.Ids
import GameRoster.Proofs.IntFields
import GameRoster.Proofs.Larger
import GameRoster.Proofs.Layering
import GameRoster.Proofs.Links
import GameRoster.Proofs.LocalIds
import GameRoster.Proofs.Locations
import GameRoster.Proofs.Lookups
import GameRoster.Proofs.Lossless
import GameRoster.Proofs.Magnitudes
import GameRoster.Proofs.Notations
import GameRoster.Proofs.NumberFields
import GameRoster.Proofs.NumberTexts
import GameRoster.Proofs.Numerals
import GameRoster.Proofs.Ordering
import GameRoster.Proofs.Orderly
import GameRoster.Proofs.Painting
import GameRoster.Proofs.Partition
import GameRoster.Proofs.PerLevel
import GameRoster.Proofs.Places
import GameRoster.Proofs.Plain
import GameRoster.Proofs.PlainDrafts
import GameRoster.Proofs.PlusTables
import GameRoster.Proofs.PointOrder
import GameRoster.Proofs.PointPositions
import GameRoster.Proofs.PoolPatterns
import GameRoster.Proofs.Printing
import GameRoster.Proofs.RangeNotations
import GameRoster.Proofs.Reach
import GameRoster.Proofs.Readable
import GameRoster.Proofs.Rearranged
import GameRoster.Proofs.Records
import GameRoster.Proofs.References
import GameRoster.Proofs.Registration
import GameRoster.Proofs.RelativePaths
import GameRoster.Proofs.Rounding
import GameRoster.Proofs.ShortestDecimals
import GameRoster.Proofs.SlotNotation
import GameRoster.Proofs.StoredFiles
import GameRoster.Proofs.Symbols
import GameRoster.Proofs.Tables
import GameRoster.Proofs.TimeChecks
import GameRoster.Proofs.Timelines
import GameRoster.Proofs.Tools
import GameRoster.Proofs.Transport
import GameRoster.Proofs.Verified
import GameRoster.Proofs.WellTimed
import GameRoster.Proofs.WholeDoubles
import GameRoster.Proofs.Widening
import GameRoster.Proofs.WrittenTimes
import GameRoster.Ref
import GameRoster.Registry
import GameRoster.Registry.Access
import GameRoster.Registry.History
import GameRoster.Registry.Verification
import GameRoster.Resource
import GameRoster.Resource.Accessory
import GameRoster.Resource.Character
import GameRoster.Resource.Entry
import GameRoster.Resource.EntryTable
import GameRoster.Resource.Equipment
import GameRoster.Resource.Jewel
import GameRoster.Resource.Levels
import GameRoster.Resource.Perk
import GameRoster.Resource.Slots
import GameRoster.Resource.Style
import GameRoster.Resource.Zone
import GameRoster.Roster
import GameRoster.Text.Blank
import GameRoster.Text.DecimalDigit
import GameRoster.Text.Numeral
import GameRoster.Text.Piece
import GameRoster.Time
import GameRoster.Timeline.Fragment
import GameRoster.Timeline.Layer
import GameRoster.Timeline.Points
import GameRoster.Timeline.Ranges
import GameRoster.Tool
import GameRoster.Value
import GameRoster.Value.Printer
import GameRoster.Variable.Definition
import GameRoster.Variable.IndexTable
import GameRoster.Variable.Setting
