import Startup.Job.Incarnations
import Startup.Job.Assertions
import Startup.Job.Running
import Startup.World.Machine
import Startup.World.Accounts
import Startup.Job.Spent
import Startup.World.Links
import Startup.World.Sound
import Startup.Event.Semantics
import Startup.World.Overrides
import Startup.World.Files
import Startup.World.Finishing
import Startup.World.Runs
import Startup.State.JobRuns
import Startup.State.ClassRuns
import Startup.State.Restore
import Startup.State.Graph
import Startup.World.Replacing
import Startup.World.WaitingRuns
import Startup.World.Present
import Startup.Job.Restarting
import Startup.Environ.Global
import Startup.Event.Match
import Startup.World.Environment
import Startup.Environ.ExpandMap
import Startup.Event.ParseOn
import Startup.World.SessionEnd
import Startup.World.RequestRuns
import Startup.FileBridge.Runs
import Startup.State.Conditions
import Startup.World.Collectors
import Startup.Job.Exits
import Startup.Job.RespawnLimit
import Startup.Job.KillTimer
import Startup.World.PollLoop
import Startup.Job.Following
import Startup.ParseJob.Numbers
import Startup.ParseJob.Composition
import Startup.Event.RoundTrip
import Startup.Lib.Hex
import Startup.State.Hex
import Startup.ParseJob.Accumulation
import Startup.State.Bounds
import Startup.World.CGroupSetup
import Startup.State.Transfer
import Startup.State.Reexec
import Startup.Job.EventEnvironment
import Startup.World.FindFile
import Startup.Log.State
import Startup.Log.Runs
import Startup.World.ReloadRuns
import Startup.Util.Shutdown
import Startup.Log.Path
import Startup.SocketBridge.Conditions
import Startup.FileBridge.Arguments
import Startup.Util.CheckConfig
import Startup.Util.ShowConfig
import Startup.World.NoTrace
import Startup.World.Offers
import Startup.World.RegistryRuns
import Startup.Job.Lifecycle
import Startup.Util.Runlevel
import Startup.Spawn.Messages
import Startup.Spawn.Refork
import Startup.Log.Reexec
