import Stairway.Command.Home
import Stairway.Command.Invocation
import Stairway.Command.Layer
import Stairway.Command.Parameter
import Stairway.Command.Report
import Stairway.Command.Run
import Stairway.Command.SettingsFile
import Stairway.Context
import Stairway.Controller.Connect
import Stairway.Controller.Envelope
import Stairway.Controller.Failure
import Stairway.Controller.Schedule
import Stairway.Controller.Settings
import Stairway.Controller.Transition
import Stairway.Digest.Blake3
import Stairway.Engine
import Stairway.Files.Clean
import Stairway.Files.Manifest
import Stairway.Files.Tree
import Stairway.IoError
import Stairway.Main
import Stairway.Memory.Connector
import Stairway.Memory.Engine
import Stairway.Migrations.FileName
import Stairway.Migrations.Open
import Stairway.Migrations.Source
import Stairway.Pattern.Basic
import Stairway.Pattern.Parser
import Stairway.Postgres.Engine
import Stairway.Postgres.Error
import Stairway.Postgres.Lock
import Stairway.Postgres.LockKey
import Stairway.Postgres.Options
import Stairway.Postgres.Server
import Stairway.Postgres.Session
import Stairway.Postgres.Statement
import Stairway.Postgres.Target
import Stairway.Postgres.Trial
import Stairway.Program
import Stairway.Retry
import Stairway.Stop
import Stairway.Text.CharClass
import Stairway.Text.Glyphs
import Stairway.Text.Number
import Stairway.Text.Quoted
import Stairway.Text.Utf8
import Stairway.Time
import Stairway.Toml.Parser
import Stairway.Toml.Text
import Stairway.Toml.Value
import Stairway.Url.Basic
import Stairway.Url.Error
import Stairway.Url.Form
import Stairway.Url.Host
import Stairway.Url.Ipv6
import Stairway.Url.Parser
import Stairway.Url.Path
import Stairway.Url.Percent
import Stairway.Proofs.Program.Protocol
import Stairway.Proofs.Program.Bounds
import Stairway.Proofs.Controller.Order
import Stairway.Proofs.Controller.Gate
import Stairway.Proofs.Controller.CloseLast
import Stairway.Proofs.Memory.Evaluation
import Stairway.Proofs.Memory.Serial
import Stairway.Proofs.Postgres.Interference
import Stairway.Proofs.Postgres.Conduct
import Stairway.Proofs.Postgres.Compliance
import Stairway.Proofs.Postgres.Traffic
import Stairway.Proofs.Postgres.Sections
import Stairway.Proofs.Migrations.Neighbours
import Stairway.Proofs.Postgres.Resumption
import Stairway.Proofs.Postgres.Chain
import Stairway.Proofs.Controller.Attendance
import Stairway.Proofs.Controller.LockTimeouts
import Stairway.Proofs.Controller.Maps
import Stairway.Proofs.Controller.Prompts
import Stairway.Proofs.Postgres.Undisturbed
import Stairway.Proofs.Postgres.RoundTrip
import Stairway.Proofs.Controller.Background
import Stairway.Proofs.Postgres.Faithful
import Stairway.Proofs.Postgres.Glimpse
import Stairway.Proofs.Controller.Attainment
import Stairway.Proofs.Postgres.ReadBack
import Stairway.Proofs.Controller.Marks
import Stairway.Proofs.Controller.StopOnce
import Stairway.Proofs.Memory.Course
import Stairway.Proofs.Memory.Stopping
import Stairway.Proofs.Memory.Verdicts
import Stairway.Proofs.Postgres.Stopping
import Stairway.Proofs.Context.Forest
import Stairway.Proofs.Url.Percent
import Stairway.Proofs.Url.Paths
import Stairway.Proofs.Controller.Credentials
import Stairway.Proofs.Controller.Connecting
import Stairway.Proofs.Controller.Deadline
import Stairway.Proofs.Controller.Vigil
import Stairway.Proofs.Text.Utf8
import Stairway.Proofs.Url.Form
import Stairway.Proofs.Url.Reading
import Stairway.Proofs.Url.Spelling
import Stairway.Proofs.Controller.Assembly
import Stairway.Proofs.Url.Ports
import Stairway.Proofs.Controller.Containment
import Stairway.Proofs.Program.Matching
import Stairway.Proofs.Controller.Secrecy
import Stairway.Proofs.Migrations.Routes
import Stairway.Proofs.Postgres.Balance
import Stairway.Proofs.Postgres.Polling
import Stairway.Proofs.Postgres.Patience
import Stairway.Proofs.Migrations.Names
import Stairway.Proofs.Files.Tree
import Stairway.Proofs.Migrations.Listing
import Stairway.Proofs.Url.Query
import Stairway.Proofs.Postgres.Address
import Stairway.Proofs.Postgres.LockKeys
import Stairway.Proofs.Files.Clean
import Stairway.Proofs.Controller.Doubling
import Stairway.Proofs.Postgres.Announcement
