import TsfSync.Lib.Threads
import TsfSync.Lib.Bytes
import TsfSync.Kernel.Clock
import TsfSync.Kernel.ClockLaws
import TsfSync.Kernel.Registry
import TsfSync.Kernel.SyncWork
import TsfSync.Kernel.Drift
import TsfSync.Kernel.Lookup
import TsfSync.Kernel.LockOrder
import TsfSync.Kernel.Adjustments
import TsfSync.Kernel.Coverage
import TsfSync.Kernel.Hotplug
import TsfSync.Kernel.CycleFrame
import TsfSync.Kernel.Decision
import TsfSync.Kernel.Filter
import TsfSync.Kernel.Module
import TsfSync.ModeC.Latency
import TsfSync.ModeC.Placeholder
import TsfSync.ModeC.Agree
import TsfSync.ModeC.Converge
import TsfSync.ModeC.Identity
import TsfSync.ModeC.Names
import TsfSync.ModeC.Completions
import TsfSync.Debugfs.Shutdown
import TsfSync.Debugfs.Cycles
import TsfSync.Debugfs.Convergence
import TsfSync.Debugfs.Hex
import TsfSync.Debugfs.Text
import TsfSync.Debugfs.Sleep
import TsfSync.Daemon.Clocks
import TsfSync.Daemon.ModeB
import TsfSync.Daemon.FailedStart
import TsfSync.Daemon.Signals
import TsfSync.Daemon.StopModeC
import TsfSync.Drivers.FreshTsf
import TsfSync.Drivers.Realtek
import TsfSync.Drivers.Ath10kVdev
import TsfSync.Drivers.Ath11kCreate
import TsfSync.Kernel.Applied
import TsfSync.Kernel.NoVif
import TsfSync.Daemon.ConfigText
import TsfSync.Daemon.ReadOrder
import TsfSync.User.Interval
import TsfSync.Lib.Pairing
import TsfSync.User.Health
import TsfSync.Debugfs.Rms
import TsfSync.Debugfs.Kalman
import TsfSync.Lib.Batches
import TsfSync.Debugfs.Deadline
import TsfSync.Debugfs.Pacing
import TsfSync.Debugfs.Monitoring
import TsfSync.Debugfs.Options
import TsfSync.Debugfs.TsfFile
import TsfSync.Lib.Outline
import TsfSync.Lib.Isolation
import TsfSync.Kernel.Interleavings
import TsfSync.Kernel.Refines
import TsfSync.Kernel.SafeCalls
import TsfSync.Kernel.Isolated
import TsfSync.Kernel.Atomic
import TsfSync.Debugfs.Drift
import TsfSync.Debugfs.Progress
import TsfSync.Daemon.Status
import TsfSync.Drivers.RegisterClocks
import TsfSync.Daemon.Synchronised
