import HullRobot.LineLog
import HullRobot.Main
import HullRobot.Proofs.Memory.Search
import HullRobot.Proofs.Memory.Pages
import HullRobot.Proofs.Memory.Spread
import HullRobot.Proofs.Memory.Contents
import HullRobot.Proofs.Memory.Map
import HullRobot.Proofs.Machine.Flat
import HullRobot.Proofs.Machine.Refinement
import HullRobot.Proofs.Memory.Frame
import HullRobot.Proofs.Robot.Camera
import HullRobot.Proofs.Robot.Walk
import HullRobot.Proofs.Robot.Panels
import HullRobot.Proofs.Robot.Frame
import HullRobot.Proofs.Machine.Course
import HullRobot.Proofs.Stream.Buffer
import HullRobot.Proofs.Stream.Channel
import HullRobot.Proofs.Bench.Sinks
import HullRobot.Proofs.Machine.Turns
import HullRobot.Proofs.Machine.Unseen
import HullRobot.Proofs.Machine.Runs
import HullRobot.Proofs.Text.Ascii
import HullRobot.Proofs.Image.Reading
import HullRobot.Proofs.Image.Errors
import HullRobot.Proofs.Machine.Together
import HullRobot.Proofs.Robot.Picture
import HullRobot.Proofs.Machine.Printing
import HullRobot.Proofs.Command.Replay
import HullRobot.Proofs.Command.Tracing
import HullRobot.Proofs.Machine.Record
import HullRobot.Proofs.Command.Printed
import HullRobot.Proofs.Command.Crashes
import HullRobot.Proofs.Memory.Ranges
import HullRobot.Proofs.Memory.Layout
import HullRobot.Proofs.Memory.Placement
import HullRobot.Proofs.Snapshot.RoundTrip
import HullRobot.Proofs.Machine.Faults
import HullRobot.Proofs.Machine.Sturdy
import HullRobot.Proofs.Machine.Stopped
import HullRobot.Proofs.Machine.Exact
import HullRobot.Proofs.Logger.ExitCode
import HullRobot.Proofs.Memory.Unmade
import HullRobot.Proofs.Command.Refusal
import HullRobot.Proofs.Machine.Listing
import HullRobot.Proofs.Instruction.Digits
import HullRobot.Proofs.LineLog.Pieces
import HullRobot.Proofs.Bench.Joins
import HullRobot.Proofs.Flags.Grammar
import HullRobot.Proofs.Text.Literals
import HullRobot.Proofs.Settings.Sources
import HullRobot.Proofs.Files.Edits
import HullRobot.Proofs.Command.Precedence
