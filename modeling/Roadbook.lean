import Roadbook.Area
import Roadbook.CommandLine.Message
import Roadbook.CommandLine.Options
import Roadbook.CommandLine.Run
import Roadbook.Config
import Roadbook.Coverage.IdSet
import Roadbook.Coverage.Tracker
import Roadbook.Fix
import Roadbook.Format.AreaFile
import Roadbook.Format.Calendar
import Roadbook.Format.ConfigFile
import Roadbook.Format.DateTime
import Roadbook.Format.FixLog
import Roadbook.Format.Gpx
import Roadbook.Ground.Point
import Roadbook.Ground.Projection
import Roadbook.Ground.Sphere
import Roadbook.Guidance.Announcement
import Roadbook.Guidance.Effect
import Roadbook.Guidance.Message
import Roadbook.Guidance.Navigator
import Roadbook.Guidance.Phase
import Roadbook.Guidance.Reckoning
import Roadbook.Guidance.Session
import Roadbook.Guidance.Timers
import Roadbook.Main
import Roadbook.Number.Binary
import Roadbook.Number.Decimal
import Roadbook.Number.Literal
import Roadbook.Number.Power
import Roadbook.Number.Scalar
import Roadbook.Progress.Smoother
import Roadbook.Proofs.CommandLine.Failure
import Roadbook.Proofs.CommandLine.Run
import Roadbook.Proofs.Coverage.Archive
import Roadbook.Proofs.Coverage.Balance
import Roadbook.Proofs.Coverage.Bounds
import Roadbook.Proofs.Coverage.Calls
import Roadbook.Proofs.Coverage.Custody
import Roadbook.Proofs.Coverage.Debounce
import Roadbook.Proofs.Coverage.Keeping
import Roadbook.Proofs.Coverage.Lengths
import Roadbook.Proofs.Coverage.Partition
import Roadbook.Proofs.Coverage.Percentage
import Roadbook.Proofs.Coverage.Rejection
import Roadbook.Proofs.Coverage.Share
import Roadbook.Proofs.Coverage.Sketch
import Roadbook.Proofs.Coverage.Survey
import Roadbook.Proofs.Coverage.Tracker
import Roadbook.Proofs.Format.FixLog
import Roadbook.Proofs.Ground.Foot
import Roadbook.Proofs.Ground.Meridian
import Roadbook.Proofs.Ground.Projection
import Roadbook.Proofs.Ground.Rotation
import Roadbook.Proofs.Ground.Sphere
import Roadbook.Proofs.Ground.Wave
import Roadbook.Proofs.Guidance.Acts
import Roadbook.Proofs.Guidance.Alarm
import Roadbook.Proofs.Guidance.Banner
import Roadbook.Proofs.Guidance.Deadlines
import Roadbook.Proofs.Guidance.Directions
import Roadbook.Proofs.Guidance.Dismissal
import Roadbook.Proofs.Guidance.NewArea
import Roadbook.Proofs.Guidance.Offer
import Roadbook.Proofs.Guidance.Offering
import Roadbook.Proofs.Guidance.OnRoute
import Roadbook.Proofs.Guidance.Operations
import Roadbook.Proofs.Guidance.Progress
import Roadbook.Proofs.Guidance.Punctual
import Roadbook.Proofs.Guidance.Reckoning
import Roadbook.Proofs.Guidance.RejectedArea
import Roadbook.Proofs.Guidance.Relisting
import Roadbook.Proofs.Guidance.Requests
import Roadbook.Proofs.Guidance.Resumption
import Roadbook.Proofs.Guidance.Run
import Roadbook.Proofs.Guidance.Sessions
import Roadbook.Proofs.Guidance.Signal
import Roadbook.Proofs.Guidance.Telling
import Roadbook.Proofs.Guidance.Timers
import Roadbook.Proofs.Guidance.Timetable
import Roadbook.Proofs.Guidance.Transition
import Roadbook.Proofs.Guidance.Upcoming
import Roadbook.Proofs.Guidance.Walk
import Roadbook.Proofs.Number.Exact
import Roadbook.Proofs.Number.Order
import Roadbook.Proofs.Progress.Growth
import Roadbook.Proofs.Progress.Outliers
import Roadbook.Proofs.Progress.Regression
import Roadbook.Proofs.Progress.Samples
import Roadbook.Proofs.Progress.Smoother
import Roadbook.Proofs.Progress.Speed
import Roadbook.Proofs.Replay.Burden
import Roadbook.Proofs.Replay.Clock
import Roadbook.Proofs.Replay.Course
import Roadbook.Proofs.Replay.EnRoute
import Roadbook.Proofs.Replay.Halting
import Roadbook.Proofs.Replay.Log
import Roadbook.Proofs.Replay.Replies
import Roadbook.Proofs.Replay.Resuming
import Roadbook.Proofs.Replay.Returning
import Roadbook.Proofs.Replay.Stored
import Roadbook.Proofs.Route.Ahead
import Roadbook.Proofs.Route.Interpolation
import Roadbook.Proofs.Route.Lookup
import Roadbook.Proofs.Route.Nearest
import Roadbook.Proofs.Route.Places
import Roadbook.Proofs.Route.Reflection
import Roadbook.Proofs.Route.Rotation
import Roadbook.Proofs.Route.Tables
import Roadbook.Proofs.Route.Turns
import Roadbook.Proofs.Storage.Disk
import Roadbook.Proofs.Storage.FailedWrites
import Roadbook.Proofs.Storage.Files
import Roadbook.Proofs.Storage.KeyStore
import Roadbook.Proofs.Storage.Ledger
import Roadbook.Proofs.Storage.Records
import Roadbook.Proofs.Text.Decoder
import Roadbook.Proofs.Text.Json
import Roadbook.Replay.Basic
import Roadbook.Replay.Schedule
import Roadbook.Replay.Stats
import Roadbook.Route.Basic
import Roadbook.Route.Maneuver
import Roadbook.Route.Matching
import Roadbook.Route.Turn
import Roadbook.Storage.Disk
import Roadbook.Storage.Files
import Roadbook.Storage.KeyStore
import Roadbook.Storage.Records
import Roadbook.Text.Blank
import Roadbook.Text.Json.Basic
import Roadbook.Text.Json.Decoder
import Roadbook.Text.Json.Reader
import Roadbook.Text.Json.Writer
import Roadbook.Text.Xml.Basic
import Roadbook.Text.Xml.Character
import Roadbook.Text.Xml.Declaration
import Roadbook.Text.Xml.Doctype
import Roadbook.Text.Xml.Name
import Roadbook.Text.Xml.Reader
import Roadbook.Text.Xml.Source
import Roadbook.Text.Xml.Tag
import Roadbook.Text.Xml.Token
import Roadbook.Text.Xml.Value
