import Breadboard.Main
import Breadboard.Proofs.Circuit.Designators
import Breadboard.Proofs.Circuit.Loading
import Breadboard.Proofs.Circuit.RoundTrip
import Breadboard.Proofs.Circuit.Validity
import Breadboard.Proofs.Command.Batch
import Breadboard.Proofs.Command.Decoding
import Breadboard.Proofs.Command.Endings
import Breadboard.Proofs.Command.OneCircuit
import Breadboard.Proofs.Command.ResultFiles
import Breadboard.Proofs.Csv.Exports
import Breadboard.Proofs.Decimal.Nearest
import Breadboard.Proofs.Decimal.Numeral
import Breadboard.Proofs.Decimal.Order
import Breadboard.Proofs.Decimal.Printed
import Breadboard.Proofs.Decimal.Range
import Breadboard.Proofs.Decimal.Rounding
import Breadboard.Proofs.Decimal.Significant
import Breadboard.Proofs.Engine.Causes
import Breadboard.Proofs.Engine.Runs
import Breadboard.Proofs.Engine.TimeLimit
import Breadboard.Proofs.Files.Listing
import Breadboard.Proofs.Files.Saved
import Breadboard.Proofs.Json.DistinctFields
import Breadboard.Proofs.Json.RoundTrip
import Breadboard.Proofs.Json.Strings
import Breadboard.Proofs.Lists
import Breadboard.Proofs.Netlist.Assembly
import Breadboard.Proofs.Netlist.Conflicts
import Breadboard.Proofs.Netlist.Connectivity
import Breadboard.Proofs.Netlist.DeckLayout
import Breadboard.Proofs.Netlist.DeckText
import Breadboard.Proofs.Netlist.DeviceLines
import Breadboard.Proofs.Netlist.ElementLines
import Breadboard.Proofs.Netlist.EndLines
import Breadboard.Proofs.Netlist.Growth
import Breadboard.Proofs.Netlist.JunctionNodes
import Breadboard.Proofs.Netlist.LoadedMap
import Breadboard.Proofs.Netlist.Lockstep
import Breadboard.Proofs.Netlist.Operations
import Breadboard.Proofs.Netlist.Reordering
import Breadboard.Proofs.Netlist.Respelling
import Breadboard.Proofs.Netlist.SavedMap
import Breadboard.Proofs.Netlist.Session
import Breadboard.Proofs.Netlist.Spelling
import Breadboard.Proofs.Netlist.Thinning
import Breadboard.Proofs.Netlist.TwoPass
import Breadboard.Proofs.Netlist.UndefinedModels
import Breadboard.Proofs.Output.Interleaving
import Breadboard.Proofs.Output.Labelling
import Breadboard.Proofs.Output.OperatingLines
import Breadboard.Proofs.Output.Overlong
import Breadboard.Proofs.Output.Placeholders
import Breadboard.Proofs.Output.PrintedHeader
import Breadboard.Proofs.Output.PrintedPoints
import Breadboard.Proofs.Output.PrintedRow
import Breadboard.Proofs.Output.PrintedSection
import Breadboard.Proofs.Output.PrintedTable
import Breadboard.Proofs.Output.PrintedVariables
import Breadboard.Proofs.Output.Probing
import Breadboard.Proofs.Output.RawFileRows
import Breadboard.Proofs.Output.Scientific
import Breadboard.Proofs.Output.SectionScan
import Breadboard.Proofs.Output.TableGroups
import Breadboard.Proofs.Output.TableRows
import Breadboard.Proofs.Output.Totality
import Breadboard.Proofs.Output.WellFormed
import Breadboard.Proofs.Output.Written
import Breadboard.Proofs.Quantity.DeckNumbers
import Breadboard.Proofs.Quantity.Spelled
import Breadboard.Proofs.Quantity.Totality
import Breadboard.Proofs.Settings.Loading
import Breadboard.Proofs.Simulation.Attribution
import Breadboard.Proofs.Simulation.Isolation
import Breadboard.Proofs.Simulation.LoneLoop
import Breadboard.Proofs.Simulation.LoopRange
import Breadboard.Proofs.Simulation.Replay
import Breadboard.Proofs.Simulation.Shape
import Breadboard.Proofs.Simulation.Totality
import Breadboard.Proofs.Text.Letters
import Breadboard.Proofs.Text.Lines
import Breadboard.Proofs.Text.Phrases
import Breadboard.Proofs.Text.Trimming
import Breadboard.Proofs.Text.Utf8
import Breadboard.Proofs.Text.Words
