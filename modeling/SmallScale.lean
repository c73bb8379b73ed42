import SmallScale.CommandLine.Arguments
import SmallScale.CommandLine.Commands
import SmallScale.CommandLine.Files
import SmallScale.CommandLine.Help
import SmallScale.CommandLine.Settings
import SmallScale.Controls
import SmallScale.Exchange
import SmallScale.Glyph
import SmallScale.Instruction
import SmallScale.Json
import SmallScale.Json.Library
import SmallScale.Json.Reader
import SmallScale.Json.Shape
import SmallScale.Json.Token
import SmallScale.Machine
import SmallScale.Machine.ControlLoop
import SmallScale.Machine.Run
import SmallScale.Main
import SmallScale.Mnemonic
import SmallScale.Model
import SmallScale.Model.Check
import SmallScale.Model.Description
import SmallScale.Panel
import SmallScale.Panel.Frame
import SmallScale.Panel.Screen
import SmallScale.Program
import SmallScale.Program.Assembly
import SmallScale.Program.Dump
import SmallScale.Program.Fault
import SmallScale.Program.Format
import SmallScale.Program.Line
import SmallScale.Program.Listing
import SmallScale.Proofs.CommandLine.TraceSetting
import SmallScale.Proofs.CommandLine.Tracing
import SmallScale.Proofs.Exchange
import SmallScale.Proofs.Instruction.Canonical
import SmallScale.Proofs.Instruction.Coding
import SmallScale.Proofs.Json.Reader
import SmallScale.Proofs.Json.Shape
import SmallScale.Proofs.Json.Token
import SmallScale.Proofs.Machine.BoundedRun
import SmallScale.Proofs.Machine.ControlAddress
import SmallScale.Proofs.Machine.ControlLoop.Access
import SmallScale.Proofs.Machine.ControlLoop.Batch
import SmallScale.Proofs.Machine.ControlLoop.Ending
import SmallScale.Proofs.Machine.ControlLoop.Interleaving
import SmallScale.Proofs.Machine.ControlLoop.Requests
import SmallScale.Proofs.Machine.ControlLoop.Serving
import SmallScale.Proofs.Machine.ControlLoop.Settling
import SmallScale.Proofs.Machine.Cycles
import SmallScale.Proofs.Machine.Effect
import SmallScale.Proofs.Machine.Fault
import SmallScale.Proofs.Machine.History
import SmallScale.Proofs.Machine.InPlace
import SmallScale.Proofs.Machine.Integers
import SmallScale.Proofs.Machine.Mishap
import SmallScale.Proofs.Machine.Reachable
import SmallScale.Proofs.Machine.RelativeJump
import SmallScale.Proofs.Machine.Shape
import SmallScale.Proofs.Machine.TracedRun
import SmallScale.Proofs.Model.Description
import SmallScale.Proofs.Model.Table
import SmallScale.Proofs.Model.Validation
import SmallScale.Proofs.Panel.Channel
import SmallScale.Proofs.Panel.Keys
import SmallScale.Proofs.Panel.Screen
import SmallScale.Proofs.Panel.Scrolling
import SmallScale.Proofs.Panel.Session
import SmallScale.Proofs.Panel.Speed
import SmallScale.Proofs.Panel.StoreView
import SmallScale.Proofs.Panel.View
import SmallScale.Proofs.Program.Assembly
import SmallScale.Proofs.Program.AssemblyText
import SmallScale.Proofs.Program.Detection
import SmallScale.Proofs.Program.Dump
import SmallScale.Proofs.Program.Edits
import SmallScale.Proofs.Program.Format
import SmallScale.Proofs.Program.Grammar
import SmallScale.Proofs.Program.Image
import SmallScale.Proofs.Program.Listing
import SmallScale.Proofs.Program.Loading
import SmallScale.Proofs.Program.Meaning
import SmallScale.Proofs.Program.Numbers
import SmallScale.Proofs.Program.Relisting
import SmallScale.Proofs.Program.Reload
import SmallScale.Proofs.Program.Written
import SmallScale.Proofs.Store.Shape
import SmallScale.Proofs.Store.Widths
import SmallScale.Proofs.Text.Numeral
import SmallScale.Proofs.Text.Pieces
import SmallScale.Proofs.Word.Codec
import SmallScale.Proofs.Word.Digits
import SmallScale.Proofs.Word.Engraving
import SmallScale.Proofs.Word.Field
import SmallScale.Proofs.Word.Value
import SmallScale.Registers
import SmallScale.Store
import SmallScale.Text.Blank
import SmallScale.Text.Capital
import SmallScale.Text.Decimal
import SmallScale.Text.Letter
import SmallScale.Word
import SmallScale.Word.Reading
import SmallScale.Word.Text
