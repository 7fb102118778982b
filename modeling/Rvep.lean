import Rvep.Lib.Serializable
import Rvep.Edge.Agent
import Rvep.Edge.Laws
import Rvep.Edge.DeadMan
import Rvep.Cockpit.ControlChannel
import Rvep.Cockpit.Joystick
import Rvep.Cockpit.ControlPage
import Rvep.ControlLink
import Rvep.Replay
import Rvep.SafetyLink
import Rvep.H264.AnnexB
import Rvep.R2Bridge.Main
import Rvep.R2Bridge.Stops
import Rvep.Backend.Database
import Rvep.Backend.Api
import Rvep.Backend.HandlerContracts
import Rvep.Backend.ControlLease
import Rvep.Backend.LeaseExclusion
import Rvep.Backend.TakeoverAlone
import Rvep.Backend.LeaseEffects
import Rvep.Backend.LeaseOrigin
import Rvep.Backend.LeaseFinality
import Rvep.Backend.HeldLease
import Rvep.Backend.ClaimRace
import Rvep.Backend.RaceProgress
import Rvep.Backend.RaceOutcome
import Rvep.Backend.Auth
import Rvep.Backend.TokenRotation
import Rvep.Backend.Lockout
import Rvep.Backend.LivekitToken
import Rvep.Backend.VehicleStatus
import Rvep.Backend.Holder
import Rvep.Backend.TokenExclusion
import Rvep.Backend.LockLifting
import Rvep.Backend.TokenVersions
import Rvep.Backend.Revocation
import Rvep.Backend.Middleware
import Rvep.Backend.Listings
import Rvep.Backend.Confidentiality
import Rvep.Backend.ControlEvent
import Rvep.Backend.Permissions
import Rvep.Backend.AuditTrail
import Rvep.Backend.AuditReading
import Rvep.Web.ApiClient
import Rvep.Publisher.IpcTypes
import Rvep.Publisher.Manager
import Rvep.Publisher.Laws
import Rvep.Publisher.RestartPolicy
import Rvep.Publisher.Shutdown
import Rvep.Publisher.Supervised
import Rvep.Publisher.Ownership
import Rvep.R2Bridge.Limits
import Rvep.Cockpit.Gamepad
import Rvep.Web.SignIn
import Rvep.Backend.LoginSequence
import Rvep.Publisher.GoProtocol
import Rvep.Publisher.StartUp
import Rvep.BridgeLink
import Rvep.Lib.JsonText
import Rvep.Shared.JsonText
import Rvep.Shared.Zod
import Rvep.Shared.Messages
import Rvep.Lib.Lines
import Rvep.Publisher.GoJson
import Rvep.Publisher.LineProtocol
import Rvep.R2Bridge.Telemetry
import Rvep.TelemetryLink
import Rvep.H264.Conversion
import Rvep.Publisher.Livekit
import Rvep.Publisher.PublishLoop
import Rvep.Publisher.SeqOrder
import Rvep.Publisher.Connection
import Rvep.Cockpit.PushToTalk
import Rvep.R2Bridge.Capabilities
import Rvep.Backend.TelemetryFrame
import Rvep.Backend.Freshness
import Rvep.Lib.Binary64
import Rvep.Lib.Csv
import Rvep.Web.DeviceProfile
import Rvep.Edge.TelemetryPublisher
import Rvep.Web.FleetCsv
import Rvep.Backend.DatasetAsset
import Rvep.Backend.Registration
import Rvep.Backend.DatasetReading
import Rvep.Lib.Components
import Rvep.Cockpit.PageLife
import Rvep.Cockpit.PageScreen
import Rvep.Cockpit.PageRuns
import Rvep.DeadManLink
import Rvep.Recovery
import Rvep.Lib.Mediation
import Rvep.Backend.Mediation
import Rvep.Backend.Footprint
import Rvep.Backend.Provenance
import Rvep.Backend.LeaseLifetime
import Rvep.Lib.Chan
import Rvep.Publisher.Sidecar
import Rvep.Publisher.Teardown
import Rvep.Publisher.SampleQueue
import Rvep.Edge.MetadataWriter
import Rvep.Backend.Accounts
import Rvep.AuditLink
