import Shipboard.Main
import Shipboard.Journal.Task
import Shipboard.Proofs.Computer.Failing
import Shipboard.Proofs.Computer.Amid
import Shipboard.Proofs.Computer.Session
import Shipboard.Proofs.Computer.Ideal
import Shipboard.Proofs.Computer.Streams
import Shipboard.Proofs.Amplifier.Laps
import Shipboard.Proofs.Amplifier.Network
import Shipboard.Proofs.Grid
import Shipboard.Proofs.Outcome
import Shipboard.Proofs.Wire.Path
import Shipboard.Proofs.Wire.Optimum
import Shipboard.Proofs.Orbit.Lineage
import Shipboard.Proofs.Orbit.Listing
import Shipboard.Proofs.Orbit.Cycle
import Shipboard.Proofs.Orbit.Forest
import Shipboard.Proofs.Orbit.Transfer
import Shipboard.Proofs.Image.Shape
import Shipboard.Proofs.Image.Flatten
import Shipboard.Proofs.Image.Overlay
import Shipboard.Proofs.Computer.Limits
import Shipboard.Proofs.Computer.Padding
import Shipboard.Proofs.Image.Stream
import Shipboard.Proofs.Text.Lines
import Shipboard.Proofs.Orbit.Names
import Shipboard.Proofs.Orbit.Order
import Shipboard.Proofs.Text.Numeral
import Shipboard.Proofs.Wire.Grammar
import Shipboard.Proofs.Wire.Meetings
import Shipboard.Proofs.Orbit.Endless
import Shipboard.Proofs.Image.Stacking
import Shipboard.Proofs.Image.Views
import Shipboard.Proofs.FileTree.Writing
import Shipboard.Proofs.Task.Answers
import Shipboard.Proofs.Fuel.Sums
import Shipboard.Proofs.Amplifier.Best
import Shipboard.Proofs.Wire.Steps
import Shipboard.Proofs.Amplifier.Once
import Shipboard.Proofs.Computer.Budget
import Shipboard.Proofs.Computer.Stretch
import Shipboard.Proofs.GravityAssist.Search
import Shipboard.Proofs.Fuel.Amounts
import Shipboard.Proofs.Passcode.Runs
import Shipboard.Proofs.Passcode.Counting
import Shipboard.Proofs.Image.Fewest
import Shipboard.Proofs.Task.Spacing
import Shipboard.Proofs.Computer.Written
import Shipboard.Proofs.Orbit.Total
import Shipboard.Proofs.Grid.Cover
import Shipboard.Proofs.Amplifier.Rounds
import Shipboard.Proofs.Wire.Words
import Shipboard.Proofs.Computer.Parameter
import Shipboard.Proofs.Computer.Change
import Shipboard.Proofs.Computer.Frame
import Shipboard.Proofs.Journal.Results
