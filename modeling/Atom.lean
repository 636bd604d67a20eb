import Atom.Lib.Reach
import Atom.Lib.Circular
import Atom.Lib.KeyedList
import Atom.Lib.Graph
import Atom.Kernel.Thread.Types
import Atom.Kernel.Cap.Types
import Atom.Kernel.Thread.List
import Atom.Kernel.Cap.Manager
import Atom.Kernel.Cap.Revoke
import Atom.Kernel.Cap.Invariant
import Atom.Kernel.Cap.System
import Atom.Kernel.Cap.Failure
import Atom.Kernel.Syscall.Cap
import Atom.Kernel.Sched.Scheduler
import Atom.Kernel.Sched.System
import Atom.Kernel.Ipc.Port
import Atom.Kernel.Syscall.Kernel
import Atom.Kernel.Syscall.Ipc
import Atom.Kernel.Syscall.User
import Atom.Kernel.Syscall.Dispatch
import Atom.Kernel.Mm.Vm
import Atom.Kernel.Syscall.Invariant
import Atom.Kernel.Mm.Tables
import Atom.Kernel.Mm.Isolation
import Atom.Kernel.Ipc.System
import Atom.Lib.Chain
import Atom.Kernel.Ipc.Deadlock
import Atom.Kernel.Syscall.Delivery
import Atom.Kernel.Syscall.Priority
import Atom.Kernel.Mm.Pmm
import Atom.Kernel.Mm.Accounting
import Atom.Kernel.Mm.Keeps
import Atom.Lib.Align
import Atom.Kernel.Mm.SharedMem
import Atom.Kernel.Mm.Heap
import Atom.Kernel.Input.Buffer
import Atom.Kernel.Ipc.Trace
import Atom.Kernel.Input.Events
import Atom.Lib.Transducer
import Atom.Lib.ArrayLoop
import Atom.Kernel.Input.Ps2
import Atom.Lib.LittleEndian
import Atom.Kernel.Exec.Image
import Atom.Lib.Loop
import Atom.Lib.Topo
import Atom.Kernel.Service.Manifest
import Atom.Lib.Str
import Atom.Kernel.Service.Parse
import Atom.Kernel.Service.Lifecycle
import Atom.Lib.Glob
import Atom.Userspace.Terminal.GlobMatch
import Atom.Userspace.Terminal.Parser
import Atom.Userspace.Terminal.Buffer
import Atom.Userspace.Terminal.Input
import Atom.Userspace.Libipc.Messages
import Atom.Kernel.Syscall.Timeout
import Atom.Kernel.Ipc.Metrics
import Atom.Kernel.Graphics.Framebuffer
import Atom.Userspace.Terminal.Display
import Atom.Userspace.Terminal.Main
import Atom.Userspace.Libgui.Surface
import Atom.Userspace.UiShell.WindowManager
import Atom.Userspace.Drivers.Mouse
