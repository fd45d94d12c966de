import MiddleWhere.Core.MutateValid
import MiddleWhere.Core.PolicySound
import MiddleWhere.Core.SetSound
import MiddleWhere.Core.Keystore
import MiddleWhere.Daemon.AdminAudit
import MiddleWhere.Net.Mediation
import MiddleWhere.Net.MysqlFidelity
import MiddleWhere.Net.MysqlReading
import MiddleWhere.Net.PgAudit
import MiddleWhere.Net.PgFrames
import MiddleWhere.Net.PgOptions
import MiddleWhere.Net.PgPortals
import MiddleWhere.Net.PgRecovery
import MiddleWhere.Net.TokenLife
import MiddleWhere.Daemon.Snapshots
import MiddleWhere.Net.PgNumeric
import MiddleWhere.Core.PolicyOrder
import MiddleWhere.Net.PgBind
import MiddleWhere.Net.HandshakeCodec
import MiddleWhere.Net.RowCodec
import MiddleWhere.Net.PacketStream
import MiddleWhere.Daemon.FrameCodec
import MiddleWhere.Net.MysqlCaps
import MiddleWhere.Net.Verbatim
import MiddleWhere.Net.StatementBytes
import MiddleWhere.Net.PgShape
import MiddleWhere.Sql.PgValue
import MiddleWhere.Net.PgArray
import MiddleWhere.Net.PgFaithful
import MiddleWhere.Net.PgNul
import MiddleWhere.Core.SealIntegrity
import MiddleWhere.Ctl.UninstallOrder
import MiddleWhere.Ctl.ImportSound
import MiddleWhere.Net.PgTag
import MiddleWhere.Net.PgTagRuns
import MiddleWhere.Daemon.ReaperRuns
import MiddleWhere.Core.TokenCode
import MiddleWhere.Net.PgInline
import MiddleWhere.Lang.PowerShell
import MiddleWhere.Ctl.Relaunch
import MiddleWhere.Ctl.UrlRoundTrip
import MiddleWhere.Ctl.BastionRow
import MiddleWhere.Ctl.ProbeJson
import MiddleWhere.Ctl.ProbePipe
import MiddleWhere.Data.IpAddr
import MiddleWhere.Daemon.ListenHost
import MiddleWhere.Lang.Reading
import MiddleWhere.Lang.Shell
import MiddleWhere.Lang.Xml
import MiddleWhere.Lang.Systemd
import MiddleWhere.Ctl.Installer
import MiddleWhere.Ctl.InstallerPaths
import MiddleWhere.Effects.Paired
import MiddleWhere.Core.Redact
import MiddleWhere.Core.StorePairs
import MiddleWhere.Daemon.SecretFlow
import MiddleWhere.Core.MutateExact
import MiddleWhere.Daemon.Serving
import MiddleWhere.Daemon.ServingRuns
import MiddleWhere.Daemon.Handovers
import MiddleWhere.Daemon.Exposure
import MiddleWhere.Effects.Duplex
import MiddleWhere.Ctl.ControlClient
import MiddleWhere.Daemon.Exchange
import MiddleWhere.Daemon.Delivery
