import KekMonitors.Files
import KekMonitors.Manager.AddFlags
import KekMonitors.Manager.ByteReads
import KekMonitors.Manager.Closures
import KekMonitors.Manager.Draining
import KekMonitors.Manager.EventLoop
import KekMonitors.Manager.Independence
import KekMonitors.Manager.Launch
import KekMonitors.Manager.StopFlags
import KekMonitors.Manager.SubDirScan
import KekMonitors.Manager.Tools
import KekMonitors.Registry
import KekMonitors.Termination
import KekMonitors.Undisturbed
