import MakOS.Bytes.Crc32
import MakOS.Device.Basic
import MakOS.Device.Prog
import MakOS.PackageStore.Manifest
import MakOS.PackageStore.Codec
import MakOS.Graph.Cycle
import MakOS.PackageStore.Dependency
import MakOS.Device.Eval
import MakOS.PackageStore.Store
import MakOS.PackageStore.Layout
import MakOS.PackageStore.Recovery
import MakOS.PackageStore.Commit
import MakOS.Device.Interrupt
import MakOS.PackageStore.Edit
import MakOS.PackageStore.Reach
import MakOS.PackageStore.Crash
import MakOS.PackageStore.Query
import MakOS.PackageStore.Refine
import MakOS.PackageStore.Reject
import MakOS.PackageStore.Durability
import MakOS.MakFS4.Operations
import MakOS.Ipc.Delivery
import MakOS.Ipc.Exit
import MakOS.Tcp.InOrder
import MakOS.Tcp.Exchange
import MakOS.Tcp.Send
import MakOS.Installer.Resume
import MakOS.Futex.Refine
import MakOS.Vm.Fault
import MakOS.Process.IoWait
import MakOS.Process.InputWait
import MakOS.Process.EventWait
import MakOS.Process.GroupExit
import MakOS.Process.FutexWait
import MakOS.Process.RoundRobin
import MakOS.Process.TicketLock
import MakOS.Vfs.References
import MakOS.Tty.Interleaving
import MakOS.Tty.WaitMask
import MakOS.Net.Ports
import MakOS.Frames.Allocator
import MakOS.MakFS3.Migration
import MakOS.VirtioBlk.HandedOff
import MakOS.PackageStore.Pins
import MakOS.Toolchain.Build
import MakOS.Readiness.Collect
