import TsfSync.Kernel.Registry

/-!
# What the kernel does to its net_devices

The steps that reach the module, each under `rtnl_lock` and therefore one after the other: the three of the module's
initialisation (`register_netdevice_notifier`, which replays `NETDEV_REGISTER` and `NETDEV_UP` for the devices of every
namespace, `tsf_ptp_discover_from_netdevs` and `tsf_ptp_scan_existing_vifs`), and the changes of a device with the
event that comes with them. A device is registered down, goes down before it is unregistered, and is off the list when
its `NETDEV_UNREGISTER` is delivered.
-/

namespace TsfSync

open LockProg

/-- Probes that are never made. -/
def ProbeEnv.unused : ProbeEnv := ⟨fun _ => none, .error .ENOMEM⟩

/-- Probes that find memory at an address and a PTP core that accepts the clock. -/
def ProbeEnv.accepts (addr : Nat) : ProbeEnv where
  kzalloc := fun l => if h : CardPtr.card addr ∉ l.ptrs then some ⟨.card addr, h, by simp⟩ else none
  ptpClockRegister := .ok ()

/-- A wireless device of a wiphy, in a namespace. -/
def NetDev.wlan (id : DevId) (net : Nat) (w : WiphyId) (up : Bool) : NetDev := ⟨id, net, some ⟨some w⟩, up⟩

/-- A wiphy whose driver has both TSF ops. -/
def Local.both (w : WiphyId) : Local w := ⟨⟨w, ⟨true, true⟩, 0⟩, [], rfl⟩

namespace Kernel

/-- The listed device of an id. -/
def findNetdev (s : Kernel) (id : DevId) : Option NetDev := s.netdevs.find? (·.id == id)

/-- Set or clear `IFF_UP`. -/
def setUp (s : Kernel) (id : DevId) (up : Bool) : Kernel :=
  { s with netdevs := s.netdevs.map fun dev => if dev.id = id then { dev with up := up } else dev }

/-- `list_netdevice`. -/
def listNetdevice (s : Kernel) (dev : NetDev) : Kernel := { s with netdevs := s.netdevs ++ [dev] }

/-- `unlist_netdevice`. -/
def unlistNetdevice (s : Kernel) (id : DevId) : Kernel := { s with netdevs := s.netdevs.filter (·.id != id) }

end Kernel

/-- An event for the listed device of an id. -/
def callNotifier (event : NetdevEvent) (id : DevId) : KProg Unit := do
  match ← Prog.read (·.findNetdev id) with
  | none => return
  | some dev => tsfPtpNetdevEvent .unused event dev

/-- A device goes up. -/
def devOpen (id : DevId) : KProg Unit := do
  Prog.modify (·.setUp id true)
  callNotifier .up id

/-- A device goes down. -/
def devClose (id : DevId) : KProg Unit := do
  Prog.modify (·.setUp id false)
  callNotifier .down id

/-- A new device. -/
def registerNetdevice (env : ProbeEnv) (dev : NetDev) : KProg Unit := do
  Prog.modify (·.listNetdevice dev)
  tsfPtpNetdevEvent env .register dev

/-- A device goes away. -/
def unregisterNetdevice (dev : NetDev) : KProg Unit := do
  Prog.modify (·.unlistNetdevice dev.id)
  tsfPtpNetdevEvent .unused .unregister dev

/-- The events replayed for one device to a new notifier. -/
def replayNetdev (env : DevId → ProbeEnv) (dev : NetDev) : KProg Unit := do
  tsfPtpNetdevEvent (env dev.id) .register dev
  if dev.up then
    tsfPtpNetdevEvent .unused .up dev

/-- `register_netdevice_notifier`. -/
def registerNetdeviceNotifier (env : DevId → ProbeEnv) : KProg Unit := do
  let devs ← Prog.read (·.netdevs)
  forM devs (replayNetdev env)

/-- A step under `rtnl_lock`. -/
inductive RtnlStep
  | registerNotifier (env : DevId → ProbeEnv)
  | discover (env : DevId → ProbeEnv)
  | scan
  | register (env : ProbeEnv) (dev : NetDev)
  | up (id : DevId)
  | down (id : DevId)
  | unregister (id : DevId)

/-- One step; none where the kernel does not take it. -/
def rtnlStep (s : Kernel) : RtnlStep → Option Kernel
  | .registerNotifier env => some ((registerNetdeviceNotifier env).run s).2
  | .discover env => some ((tsfPtpDiscoverFromNetdevs env).run s).2
  | .scan => some (tsfPtpScanExistingVifs.run s).2
  | .register env dev =>
    if s.findNetdev dev.id = none ∧ dev.up = false then some ((registerNetdevice env dev).run s).2 else none
  | .up id =>
    match s.findNetdev id with
    | some dev => if dev.up then none else some ((devOpen id).run s).2
    | none => none
  | .down id =>
    match s.findNetdev id with
    | some dev => if dev.up then some ((devClose id).run s).2 else none
    | none => none
  | .unregister id =>
    match s.findNetdev id with
    | some dev => if dev.up then none else some ((unregisterNetdevice dev).run s).2
    | none => none

/-- A sequence of steps. -/
def rtnlSteps : List RtnlStep → Kernel → Option Kernel
  | [], s => some s
  | a :: as, s => (rtnlStep s a).bind (rtnlSteps as)

end TsfSync
