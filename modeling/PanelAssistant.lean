import PanelAssistant.Library.Dict
import PanelAssistant.Library.Except
import PanelAssistant.Library.Json
import PanelAssistant.Library.Text
import PanelAssistant.Platform
import PanelAssistant.Release
import PanelAssistant.InstallNetwork
import PanelAssistant.InstallReceipt.Basic
import PanelAssistant.InstallReceipt.Codec
import PanelAssistant.InstallJobs.Store
import PanelAssistant.InstallJobs.Manager
import PanelAssistant.InstallReceipt.Rules
import PanelAssistant.InstallJobs.Table
import PanelAssistant.Library.Runs
import PanelAssistant.Library.Coop
import PanelAssistant.Library.JsonText
import PanelAssistant.Library.JsonSpelling
import PanelAssistant.Library.JsonTree
import PanelAssistant.Library.Binary64
import PanelAssistant.InstallJobs.Holds
import PanelAssistant.InstallJobs.Rewrite
import PanelAssistant.InstallJobs.Details
import PanelAssistant.InstallJobs.Runs
import PanelAssistant.InstallJobs.Lives
import PanelAssistant.InstallJobs.Invariant
import PanelAssistant.InstallJobs.Save
import PanelAssistant.InstallJobs.Generations
import PanelAssistant.InstallJobs.Candidate
import PanelAssistant.InstallJobs.Cancellation
import PanelAssistant.InstallJobs.Crash
import PanelAssistant.InstallExecutor.Basic
import PanelAssistant.Library.Tasks
import PanelAssistant.InstallExecutor.Finalizer
import PanelAssistant.InstallExecutor.Leases
import PanelAssistant.InstallExecutor.LeaseRuns
import PanelAssistant.Library.Wire
import PanelAssistant.Transport.Protocol
import PanelAssistant.Transport.Values
import PanelAssistant.Transport.Reports
import PanelAssistant.Transport.Batches
import PanelAssistant.Transport.Sessions
import PanelAssistant.Transport.Delivery
import PanelAssistant.Transport.Relays
import PanelAssistant.Transport.Program
import PanelAssistant.Transport.Frames
import PanelAssistant.Transport.Commands
import PanelAssistant.Transport.Answers
import PanelAssistant.Transport.Endings
import PanelAssistant.Transport.Table
import PanelAssistant.Transport.Lifecycle
import PanelAssistant.Transport.Sends
import PanelAssistant.Transport.Carriers
import PanelAssistant.Transport.Groups
import PanelAssistant.Transport.Closings
import PanelAssistant.Transport.Invariant
import PanelAssistant.Transport.Growth
import PanelAssistant.Transport.TableRuns
import PanelAssistant.Transport.CommandRuns
import PanelAssistant.Transport.ReportRuns
import PanelAssistant.Blobs.Registry
import PanelAssistant.Blobs.Invariant
import PanelAssistant.Library.Slots
import PanelAssistant.Blobs.Runs
import PanelAssistant.InstallReceipt.RoundTrip
import PanelAssistant.InstallJobs.RoundTrip
import PanelAssistant.InstallJobs.Storing
import PanelAssistant.Library.Ranking
import PanelAssistant.Updates.Versions
import PanelAssistant.Updates.Sources
import PanelAssistant.Updates.Offer
import PanelAssistant.Updates.Precedence
import PanelAssistant.Updates.Circles
import PanelAssistant.Updates.Choices
import PanelAssistant.Signed.Documents
import PanelAssistant.Signed.Fields
import PanelAssistant.Signed.Descriptor
import PanelAssistant.Signed.Agreement
import PanelAssistant.Signed.Plain
import PanelAssistant.Signed.Feed
import PanelAssistant.Signed.FeedAgreement
import PanelAssistant.Signed.FeedChoice
import PanelAssistant.Usb.Jobs
import PanelAssistant.Usb.Calls
import PanelAssistant.Usb.Programs
import PanelAssistant.Usb.Tabs
import PanelAssistant.Usb.Logs
import PanelAssistant.Usb.Discipline
import PanelAssistant.Usb.Transactions
import PanelAssistant.Usb.Previewing
import PanelAssistant.Usb.Installing
import PanelAssistant.Usb.Serving
import PanelAssistant.Usb.Runs
import PanelAssistant.Usb.Replays
import PanelAssistant.Usb.Ownership
import PanelAssistant.Library.JsonSize
import PanelAssistant.InstallReceipt.Sizes
import PanelAssistant.InstallJobs.Sizes
import PanelAssistant.InstallJobs.Reachable
import PanelAssistant.InstallJobs.Saved
import PanelAssistant.InstallJobs.Codec
import PanelAssistant.Library.Lines
import PanelAssistant.Adb.Frames
import PanelAssistant.Adb.FrameRoundTrip
import PanelAssistant.Adb.Preflight
import PanelAssistant.Adb.PackageProbe
import PanelAssistant.Adb.ProbeFrames
import PanelAssistant.Adb.ProbeSegments
import PanelAssistant.Adb.InstallTarget
import PanelAssistant.Adb.Admission
import PanelAssistant.InstallJobs.Retention
import PanelAssistant.HealthLine
import PanelAssistant.VoiceStream
import PanelAssistant.Accessibility.Basic
import PanelAssistant.Accessibility.Agreement
import PanelAssistant.Accessibility.Convergence
import PanelAssistant.Usb.ShellSession
import PanelAssistant.Usb.Preflight
import PanelAssistant.Library.CodeUnits
import PanelAssistant.Usb.Records
import PanelAssistant.Usb.RecordTexts
import PanelAssistant.Usb.RecordStore
import PanelAssistant.Usb.Upload
import PanelAssistant.Usb.UploadRuns
import PanelAssistant.Updates.Coordinator
import PanelAssistant.Updates.Entity
import PanelAssistant.Library.Shell
import PanelAssistant.Usb.PanelPrograms
import PanelAssistant.Library.Handlers
import PanelAssistant.Usb.Ports
import PanelAssistant.Usb.PreviewReads
import PanelAssistant.Usb.Preparations
import PanelAssistant.Usb.PreviewEffects
import PanelAssistant.Library.Base64
import PanelAssistant.Library.LittleEndian
import PanelAssistant.Adb.PublicKey
import PanelAssistant.PanelLogs
import PanelAssistant.Lifecycle.Basic
import PanelAssistant.Lifecycle.Measurements
import PanelAssistant.Lifecycle.Runs
import PanelAssistant.Library.Files
import PanelAssistant.PanelBackup.Basic
import PanelAssistant.PanelBackup.Names
import PanelAssistant.PanelBackup.Retention
import PanelAssistant.PanelBackup.Runs
import PanelAssistant.Library.Utf8
import PanelAssistant.Library.Cut
import PanelAssistant.Usb.Http
import PanelAssistant.Usb.HttpFramings
import PanelAssistant.Usb.HttpResponses
import PanelAssistant.Usb.HttpReader
import PanelAssistant.PanelName.Runs
import PanelAssistant.Library.BoundedLog
import PanelAssistant.FailureRepairs.Basic
import PanelAssistant.FailureRepairs.Runs
import PanelAssistant.Library.Tally
import PanelAssistant.VendorRecovery.Log
import PanelAssistant.VendorRecovery.Attribution
import PanelAssistant.VendorRecovery.Recovery
import PanelAssistant.VendorRecovery.RecoveryRuns
import PanelAssistant.BrowserRelease.Cache
import PanelAssistant.BrowserRelease.Custody
import PanelAssistant.BrowserRelease.Holder
import PanelAssistant.BrowserRelease.Runs
import PanelAssistant.Identity.Basic
import PanelAssistant.Identity.Runs
import PanelAssistant.Identity.Admission
import PanelAssistant.Identity.Recovery
