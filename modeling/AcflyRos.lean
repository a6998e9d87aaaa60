import AcflyRos.Foundation.Transition
import AcflyRos.Foundation.Table
import AcflyRos.Foundation.History
import AcflyRos.Foundation.Sequences
import AcflyRos.Foundation.Paths
import AcflyRos.Foundation.Inodes
import AcflyRos.Foundation.Resolution
import AcflyRos.Foundation.Chains
import AcflyRos.Foundation.Ranks
import AcflyRos.Foundation.Rotation
import AcflyRos.Foundation.Decay
import AcflyRos.Foundation.Decimals
import AcflyRos.Foundation.Gaps
import AcflyRos.Foundation.Backoff
import AcflyRos.Foundation.Polling
import AcflyRos.Foundation.Buckets
import AcflyRos.Foundation.Objects
import AcflyRos.Foundation.Timelines
import AcflyRos.Foundation.Queues
import AcflyRos.Foundation.Pairing
import AcflyRos.Foundation.Monitors
import AcflyRos.Foundation.Framing
import AcflyRos.Daemon.World
import AcflyRos.Daemon.Supervisor
import AcflyRos.Daemon.Action
import AcflyRos.Daemon.Callbacks
import AcflyRos.Daemon.Invariant
import AcflyRos.Daemon.Services
import AcflyRos.Daemon.Steps
import AcflyRos.Daemon.Tracking
import AcflyRos.Daemon.Escalation
import AcflyRos.Daemon.StopAll
import AcflyRos.Daemon.NamedStop
import AcflyRos.Daemon.Gating
import AcflyRos.Daemon.CalmTick
import AcflyRos.Daemon.Waves
import AcflyRos.Daemon.Health
import AcflyRos.Daemon.Vitals
import AcflyRos.Daemon.HealthCheck
import AcflyRos.Daemon.GivingUp
import AcflyRos.Daemon.Forgiveness
import AcflyRos.Daemon.Offset
import AcflyRos.Daemon.ClockSteps
import AcflyRos.Daemon.AutoRestart
import AcflyRos.Daemon.Zombies
import AcflyRos.Daemon.Lives
import AcflyRos.Daemon.ExitReason
import AcflyRos.Daemon.Pacing
import AcflyRos.Daemon.StopTimes
import AcflyRos.Daemon.RestartWait
import AcflyRos.Daemon.ShutDown
import AcflyRos.Daemon.Clocked
import AcflyRos.Daemon.Exceptions
import AcflyRos.BagLogd.Storage
import AcflyRos.BagLogd.Node
import AcflyRos.BagLogd.Recording
import AcflyRos.BagLogd.Retry
import AcflyRos.BagLogd.SliceNames
import AcflyRos.BagLogd.Removal
import AcflyRos.BagLogd.StoragePath
import AcflyRos.BagLogd.Containment
import AcflyRos.BagLogd.Leftovers
import AcflyRos.BagLogd.MakeDirs
import AcflyRos.BagLogd.Sweep
import AcflyRos.BagLogd.ActiveSlice
import AcflyRos.BagLogd.Provenance
import AcflyRos.BagLogd.DiskCheck
import AcflyRos.BagLogd.Arming
import AcflyRos.BagLogd.Playback
import AcflyRos.BagLogd.SliceOrder
import AcflyRos.TimeSync.Window
import AcflyRos.TimeSync.Node
import AcflyRos.TimeSync.Hold
import AcflyRos.TimeSync.Jumps
import AcflyRos.TimeSync.Cooldown
import AcflyRos.TimeSync.InStep
import AcflyRos.TimeSync.Estimators
import AcflyRos.TimeSync.Accumulator
import AcflyRos.TimeSync.SlewLoop
import AcflyRos.TimeSync.Steered
import AcflyRos.TimeSync.Epochs
import AcflyRos.Odometry.Node
import AcflyRos.Odometry.ClockSteps
import AcflyRos.Odometry.Received
import AcflyRos.Odometry.LeakyBucket
import AcflyRos.Odometry.Attitude
import AcflyRos.CommandFile.Mailbox
import AcflyRos.CommandFile.Once
import AcflyRos.CommandFile.Underway
import AcflyRos.CommandFile.Delivery
import AcflyRos.CommandFile.SetParam
import AcflyRos.MaskEditor.Model
import AcflyRos.MaskEditor.UndoHistory
import AcflyRos.MaskEditor.Tools
import AcflyRos.MaskEditor.Gestures
import AcflyRos.MaskEditor.BrushStrokes
import AcflyRos.OdinDriver.RenderQueue
import AcflyRos.OdinDriver.RenderedPairs
import AcflyRos.OdinDriver.DataLogger
import AcflyRos.OdinDriver.ImuQueue
import AcflyRos.OdinDriver.RecordFormat
import AcflyRos.OdinDriver.Device
import AcflyRos.OdinDriver.DeviceCallback
import AcflyRos.OdinDriver.DeviceHandles
import AcflyRos.OdinDriver.DeviceSessions
import AcflyRos.OdinDriver.DeviceCalls
import AcflyRos.OdinDriver.DepthImage
import AcflyRos.Daemon.Attendance
