import DesktopEngine.Wayland.ShmProof
import DesktopEngine.Wayland.SurfaceProof
import DesktopEngine.Dbus.DispatchProof
import DesktopEngine.Dbus.DispatchReads
import DesktopEngine.Logger.Program
import DesktopEngine.System.PixelFidelity
import DesktopEngine.Logger.Queue
import DesktopEngine.Dbus.IntrospectProof
import DesktopEngine.Dbus.HandleProof
import DesktopEngine.Dbus.Cleanup
import DesktopEngine.XdgShell.RolesProof
import DesktopEngine.Wayland.PoolBuffers
import DesktopEngine.Dbus.ModuleList
import DesktopEngine.Dbus.IntrospectWalk
import DesktopEngine.Renderer.Frames
import DesktopEngine.Renderer.DirtyFlag
import DesktopEngine.Renderer.Descriptors
import DesktopEngine.Renderer.DrawFrame
import DesktopEngine.Wayland.Implementations
import DesktopEngine.Dbus.StopLoop
import DesktopEngine.System.MainFailure
import DesktopEngine.Wayland.SurfaceLookup
import DesktopEngine.Wayland.ShmAtomic
import DesktopEngine.Config.RoundTrip
import DesktopEngine.Config.Spaces
import DesktopEngine.Config.LongLines
import DesktopEngine.Config.LogPath
import DesktopEngine.Config.Outputs
import DesktopEngine.Dbus.ModuleBuildProof
import DesktopEngine.Dbus.IntrospectParse
import DesktopEngine.Dbus.IntrospectAgree
import DesktopEngine.Dbus.IntrospectAlloc
import DesktopEngine.Dbus.ModuleAtomic
import DesktopEngine.Dbus.ModuleRecord
import DesktopEngine.Renderer.PickGpu
import DesktopEngine.Dbus.SeenNodes
import DesktopEngine.Renderer.StructFormat
import DesktopEngine.Renderer.Mappings
import DesktopEngine.Renderer.VulkanObjects
import DesktopEngine.Renderer.VulkanInit
import DesktopEngine.Renderer.VulkanRuns
import DesktopEngine.Renderer.VulkanViewport
import DesktopEngine.Renderer.Threads
import DesktopEngine.Dbus.Service
import DesktopEngine.System.LiveWorld
import DesktopEngine.System.Shown
import DesktopEngine.Logger.Text
import DesktopEngine.Logger.Console
import DesktopEngine.Wayland.ShmAccount
import DesktopEngine.Wayland.ShmDefined
import DesktopEngine.Wayland.TestClient
import DesktopEngine.System.LogOutput
