import UniversalRemote.Link.Mock
import UniversalRemote.Link.Script
import UniversalRemote.Main
import UniversalRemote.Proofs.Flash.Memory
import UniversalRemote.Proofs.Link.Ending
import UniversalRemote.Proofs.Classic.Simulation
import UniversalRemote.Proofs.Classic.Framing
import UniversalRemote.Proofs.Classic.Transfer
import UniversalRemote.Proofs.Classic.RoundTrip
import UniversalRemote.Proofs.Classic.Identification
import UniversalRemote.Proofs.Session.StoredConfig
import UniversalRemote.Proofs.Link.Ensures
import UniversalRemote.Proofs.Classic.Discipline
import UniversalRemote.Proofs.Session.Discipline
import UniversalRemote.Proofs.Session.StaleIdentity
import UniversalRemote.Proofs.Classic.Reception
import UniversalRemote.Proofs.Classic.Comparison
import UniversalRemote.Proofs.Z.Marker
import UniversalRemote.Proofs.Z.Simulation
import UniversalRemote.Proofs.Z.RegionRead
import UniversalRemote.Proofs.Link.Outcome
import UniversalRemote.Proofs.Z.Conformance
import UniversalRemote.Proofs.Link.Dialogue
import UniversalRemote.Proofs.Link.Scripted
import UniversalRemote.Proofs.Parameter.ReadBack
import UniversalRemote.Proofs.Z.Commitment
import UniversalRemote.Proofs.FileTransfer.Dialogue
import UniversalRemote.Proofs.FileTransfer.Reception
import UniversalRemote.Proofs.FileTransfer.Reading
import UniversalRemote.Proofs.FileTransfer.Simulation
import UniversalRemote.Proofs.FileTransfer.RoundTrip
import UniversalRemote.Proofs.FileTransfer.Ordering
import UniversalRemote.Proofs.FileTransfer.Release
import UniversalRemote.Proofs.FileTransfer.Learning
import UniversalRemote.Proofs.FileTransfer.Sending
import UniversalRemote.Proofs.Remote.Failures
import UniversalRemote.Proofs.Remote.Bounds
import UniversalRemote.Proofs.Parameter.RoundTrip
import UniversalRemote.Proofs.Link.Terms
import UniversalRemote.Proofs.Classic.Terms
import UniversalRemote.Proofs.Z.Terms
import UniversalRemote.Proofs.FileTransfer.Terms
import UniversalRemote.Proofs.Remote.Terms
import UniversalRemote.Proofs.Remote.WordLimits
import UniversalRemote.Proofs.Parameter.Walk
import UniversalRemote.Proofs.Remote.Observed
import UniversalRemote.Proofs.Z.NetRegion
import UniversalRemote.Proofs.Z.NetInstall
import UniversalRemote.Proofs.FileTransfer.Contents
import UniversalRemote.Proofs.Flash.Area
import UniversalRemote.Proofs.Session.InsideFlash
import UniversalRemote.Proofs.Z.Restart
import UniversalRemote.Proofs.Classic.Erasure
import UniversalRemote.Proofs.Infrared.Listening
import UniversalRemote.Proofs.Infrared.Numbering
import UniversalRemote.Proofs.Infrared.Timeline
import UniversalRemote.Proofs.Infrared.Polarity
import UniversalRemote.Proofs.Infrared.Bounds
import UniversalRemote.Proofs.Flash.Selection
import UniversalRemote.Proofs.Classic.Clock
import UniversalRemote.Proofs.Z.Closing
import UniversalRemote.Proofs.Z.Teardown
import UniversalRemote.Proofs.Text.Digits
import UniversalRemote.Proofs.Infrared.LearnText
import UniversalRemote.Proofs.Z.ClockReading
import UniversalRemote.Proofs.FileTransfer.Survey
import UniversalRemote.Proofs.FileTransfer.Description
import UniversalRemote.Proofs.FileTransfer.Version
import UniversalRemote.Proofs.FileTransfer.SerialText
import UniversalRemote.Proofs.Checksum.Detection
import UniversalRemote.Proofs.Z.Bookkeeping
import UniversalRemote.Proofs.Session.SettingsFile
import UniversalRemote.Proofs.Link.RollingNumbers
import UniversalRemote.Proofs.Text.SerialGroups
