import TsfSync.Kernel.Chardev
import TsfSync.Kernel.Clock
import TsfSync.Kernel.Netdev
import TsfSync.Kernel.SyncWork

/-!
# The memory of the cards and their PTP clocks

The functions that allocate a card, register its clock and take both back, with what they leave out elsewhere: the memory
of `kzalloc` and `kfree` and the clocks of the PTP core (`Heap`). A card's address may be handed out again as soon as the
card is freed.

The PTP core calls an operation of a clock between the two halves of a read-write semaphore of the clock and only while
the clock is registered; `ptp_clock_unregister` takes the semaphore for writing, and so waits for the operations that
run. The semaphore is one lock for each thread (`SysLock.ptp`): a reader takes its own, the writer takes all.

Everything else is as it was: a function that touches neither is lifted (`lift`), and the functions of this file do to
the module what those of `Registry.lean` do (`Refines.lean`).
-/

namespace TsfSync.Lifetime

open LockProg

/-- Which addresses hold an allocated card and which cards have a registered clock, and the word in `card->ptp_clock`.
`misuse` is set by a `kfree` of memory that is not allocated and by a clock that is registered twice or unregistered when
it is not registered. -/
structure Heap where
  allocated : CardPtr → Bool
  clock : CardPtr → Bool
  ptpClock : CardPtr → Int64
  misuse : Bool

/-- The module and its memory. -/
abbrev Sys := Kernel × Heap

/-- A lock of the module or of cfg80211, or the half of a clock's semaphore that one thread takes. -/
inductive SysLock (ι : Type)
  | ptp (c : CardPtr) (reader : ι)
  | kernel (l : LockId)
  deriving DecidableEq

variable {ι α : Type}

/-- A function over the module and its memory. -/
abbrev SysProg (ι : Type) := Prog Sys (SysLock ι)

/-- A function of the module that neither allocates nor frees. -/
def lift (p : KProg α) : SysProg ι α := (Prog.besides p).mapLock .kernel

/-- The error number as the `int` that is returned. -/
def errnoCode : Errno → Int32
  | .ENODEV => 19
  | .EOPNOTSUPP => 95
  | .EEXIST => 17
  | .ENOMEM => 12
  | .EINVAL => 22
  | .EFAULT => 14
  | .other n => Int32.ofNat n

namespace Heap

/-- Nothing is allocated. -/
def empty : Heap := ⟨fun _ => false, fun _ => false, fun _ => 0, false⟩

/-- The address is handed out, zeroed. -/
def alloc (h : Heap) (c : CardPtr) : Heap :=
  { h with
    allocated := Function.update h.allocated c true
    ptpClock := Function.update h.ptpClock c 0 }

/-- The address is given back; the word that was `card->ptp_clock` then reads `freed`. -/
def free (h : Heap) (c : CardPtr) (freed : Int64) : Heap :=
  { h with
    allocated := Function.update h.allocated c false
    ptpClock := Function.update h.ptpClock c freed
    misuse := h.misuse || !h.allocated c }

/-- The clock of a card is registered, and its pointer stored. -/
def register (h : Heap) (c : CardPtr) : Heap :=
  { h with
    clock := Function.update h.clock c true
    ptpClock := Function.update h.ptpClock c 1
    misuse := h.misuse || h.clock c }

/-- A failed registration stores an error pointer. -/
def registerFailed (h : Heap) (c : CardPtr) (e : Errno) : Heap :=
  { h with ptpClock := Function.update h.ptpClock c (-errnoCode e).toInt64 }

/-- The clock of a card is unregistered. -/
def unregister (h : Heap) (c : CardPtr) : Heap :=
  { h with
    clock := Function.update h.clock c false
    misuse := h.misuse || !h.clock c }

end Heap

/-- The answers a probe gets: memory of `kzalloc` that is not allocated, the result of `ptp_clock_register`, and the word
that the memory of `card->ptp_clock` holds once it is freed. -/
structure AllocEnv where
  kzalloc : (h : Heap) → Option { c : CardPtr // h.allocated c = false ∧ c ≠ .head }
  ptpClockRegister : Except Errno Unit
  freed : Int64

/-- Probes that find memory at an address and a PTP core that accepts the clock. -/
def AllocEnv.accepts (addr : Nat) : AllocEnv where
  kzalloc := fun h => if hc : h.allocated (.card addr) = false then some ⟨.card addr, hc, by simp⟩ else none
  ptpClockRegister := .ok ()
  freed := 0

/-! ## Memory and clocks -/

/-- The memory of `kzalloc` is taken. -/
def AllocEnv.taken (env : AllocEnv) (s : Sys) : Sys :=
  match env.kzalloc s.2 with
  | none => s
  | some c => (s.1.setCard c fun _ => .zeroed, s.2.alloc c)

/-- `kzalloc`. -/
def kzalloc (env : AllocEnv) : SysProg ι (Option CardPtr) :=
  .act env.taken fun s => .ret ((env.kzalloc s.2).map (·.val))

/-- `kfree`. -/
def kfree (c : CardPtr) (freed : Int64) : SysProg ι Unit := Prog.modify fun s => (s.1, s.2.free c freed)

/-- `card->ptp_clock = ptp_clock_register(..)`. -/
def ptpClockRegister (env : AllocEnv) (c : CardPtr) : SysProg ι (Except Errno Unit) := do
  Prog.modify fun s =>
    match env.ptpClockRegister with
    | .ok () => (s.1, s.2.register c)
    | .error e => (s.1, s.2.registerFailed c e)
  return env.ptpClockRegister

/-- The semaphore of a clock, taken for writing. -/
def downWrite (c : CardPtr) (body : SysProg ι Unit) : List ι → SysProg ι Unit
  | [] => body
  | i :: readers => do
    Prog.acquire (.ptp c i)
    downWrite c body readers
    Prog.release (.ptp c i)

/-- `ptp_clock_unregister`. -/
def ptpClockUnregister (readers : List ι) (c : CardPtr) : SysProg ι Unit :=
  downWrite c (Prog.modify fun s => (s.1, s.2.unregister c)) readers

/-- An operation of a clock, called through the PTP core by thread `i`. -/
def posixClockOp (i : ι) (c : CardPtr) (op : KProg (Except Errno α)) : SysProg ι (Except Errno α) := do
  Prog.acquire (.ptp c i)
  let registered ← Prog.read (fun s : Sys => s.2.clock c)
  if !registered then
    Prog.release (.ptp c i)
    return .error .ENODEV
  let result ← lift op
  Prog.release (.ptp c i)
  return result

/-! ## Cards -/

/-- `tsf_ptp_probe`. Where `ptp_clock_register` fails, the card is freed and then `card->ptp_clock` is read for the
return value, an `int`, so the upper half of the word is cut off. -/
def tsfPtpProbe (env : AllocEnv) {w : WiphyId} (loc : Local w) : SysProg ι Int32 := do
  if !loc.hw.ops.getTsf then
    return -errnoCode .EOPNOTSUPP
  Prog.acquire (.kernel .cards)
  let existing ← lift (findCardByWiphyLocked loc.hw.wiphy)
  if existing.isSome then
    Prog.release (.kernel .cards)
    return -errnoCode .EEXIST
  Prog.release (.kernel .cards)
  match ← kzalloc env with
  | none => return -errnoCode .ENOMEM
  | some card =>
    lift (writeCard card fun _ => Card.new loc)
    match ← ptpClockRegister env card with
    | .error _ =>
      kfree card env.freed
      Prog.read (fun s : Sys => (s.2.ptpClock card).toInt32)
    | .ok () =>
      Prog.acquire (.kernel .cards)
      lift (listAddTail card)
      Prog.release (.kernel .cards)
      return 0

/-- `tsf_ptp_remove`, which prints `card->name` first. -/
def tsfPtpRemove (readers : List ι) (c : CardPtr) : SysProg ι Unit := do
  let _ ← lift (readCard c)
  ptpClockUnregister readers c
  kfree c 0

/-- `tsf_ptp_try_hotplug_probe`. -/
def tsfPtpTryHotplugProbe (env : AllocEnv) (w : WiphyId) : SysProg ι Unit := do
  Prog.acquire (.kernel .cards)
  let tracked ← lift (findCardByWiphyLocked w)
  if tracked.isSome then
    Prog.release (.kernel .cards)
    return
  Prog.release (.kernel .cards)
  match ← lift (Prog.read (·.wiphyPriv w)) with
  | none => return
  | some loc =>
    let _ ← tsfPtpProbe env loc
    return

/-- `tsf_ptp_try_hotplug_remove`. -/
def tsfPtpTryHotplugRemove (readers : List ι) (w : WiphyId) : SysProg ι Unit := do
  let wiphyStillHasNetdev ← lift (Prog.read fun s => (initNetdevs s).any fun dev => dev.wiphy == some w)
  if wiphyStillHasNetdev then
    return
  Prog.acquire (.kernel .cards)
  let card ← lift (findCardByWiphyLocked w)
  match card with
  | none => Prog.release (.kernel .cards)
  | some card =>
    lift (listDel card)
    Prog.release (.kernel .cards)
    tsfPtpRemove readers card

/-- `tsf_ptp_netdev_event`. -/
def tsfPtpNetdevEvent (readers : List ι) (env : AllocEnv) (event : NetdevEvent) (dev : NetDev) : SysProg ι Unit :=
  match dev.wiphy with
  | none => return
  | some w =>
    match event with
    | .register => tsfPtpTryHotplugProbe env w
    | .up => lift (captureVif w dev)
    | .down => lift (releaseVif w dev)
    | .unregister => do
      lift (releaseVif w dev)
      tsfPtpTryHotplugRemove readers w
    | .other => return

/-- The walk of `tsf_ptp_discover_from_netdevs`, with its count. -/
def discoverLoop (env : DevId → AllocEnv) : List NetDev → Nat → SysProg ι Nat
  | [], count => return count
  | dev :: devs, count =>
    match dev.wiphy with
    | none => discoverLoop env devs count
    | some w => do
      match ← lift (Prog.read (·.wiphyPriv w)) with
      | none => discoverLoop env devs count
      | some loc =>
        let ret ← tsfPtpProbe (env dev.id) loc
        discoverLoop env devs (if ret = 0 then count + 1 else count)

/-- The removal of one card by `tsf_ptp_exit`. -/
def removeCard (readers : List ι) (c : CardPtr) : SysProg ι Unit := do
  lift (listDel c)
  Prog.release (.kernel .cards)
  tsfPtpRemove readers c
  Prog.acquire (.kernel .cards)

/-- The removal of all cards by `tsf_ptp_exit`. -/
def removeCards (readers : List ι) : SysProg ι Unit := do
  Prog.acquire (.kernel .cards)
  let cards ← lift listEntries
  forM cards (removeCard readers)
  Prog.release (.kernel .cards)

/-! ## Who calls them -/

/-- What is done under `rtnl_lock`, one call after the other: the initialisation, the changes of a net_device with the
event that comes with them, and the part of `tsf_ptp_exit` that follows the last of them. The wiphy's lock that cfg80211
holds around some events is left out, which only adds schedules. -/
inductive RegistryCall
  | registerNotifier (env : DevId → AllocEnv)
  | discover (env : DevId → AllocEnv)
  | scan
  | register (env : AllocEnv) (dev : NetDev)
  | up (dev : NetDev)
  | down (dev : NetDev)
  | unregister (dev : NetDev)
  | exit

/-- What a thread of userspace or a worker calls. -/
inductive UserCall
  | gettime (c : CardPtr)
  | settime (c : CardPtr) (ts : Timespec64)
  | adjtime (c : CardPtr) (deltaNs : Int64)
  | getcrosststamp (c : CardPtr)
  | syncWork
  | chardevRead (mem : UserMem) (count : Nat)
  | chardevWrite (mem : UserMem) (buf : List UInt8)

/-- Answers that are never asked for. -/
def AllocEnv.unused : AllocEnv := ⟨fun _ => none, .error .ENOMEM, 0⟩

/-- The code of a call under `rtnl_lock`. -/
def RegistryCall.prog (readers : List ι) : RegistryCall → SysProg ι Unit
  | .registerNotifier env => do
    let devs ← lift (Prog.read (·.netdevs))
    forM devs fun dev => do
      tsfPtpNetdevEvent readers (env dev.id) .register dev
      if dev.up then
        tsfPtpNetdevEvent readers .unused .up dev
  | .discover env => do
    let devs ← lift (Prog.read initNetdevs)
    let _ ← discoverLoop env devs 0
  | .scan => lift tsfPtpScanExistingVifs
  | .register env dev => do
    lift (Prog.modify (·.listNetdevice dev))
    tsfPtpNetdevEvent readers env .register dev
  | .up dev => do
    lift (Prog.modify (·.setUp dev.id true))
    tsfPtpNetdevEvent readers .unused .up dev
  | .down dev => do
    lift (Prog.modify (·.setUp dev.id false))
    tsfPtpNetdevEvent readers .unused .down dev
  | .unregister dev => do
    lift (Prog.modify (·.unlistNetdevice dev.id))
    tsfPtpNetdevEvent readers .unused .unregister dev
  | .exit => do
    let devs ← lift (Prog.read (·.netdevs))
    forM devs fun dev => do
      if dev.up then
        tsfPtpNetdevEvent readers .unused .down dev
      tsfPtpNetdevEvent readers .unused .unregister dev
    removeCards readers

/-- The code of a call by thread `i`. -/
def UserCall.prog (i : ι) : UserCall → SysProg ι Unit
  | .gettime c => do let _ ← posixClockOp i c (tsfPtpGettime c)
  | .settime c ts => do let _ ← posixClockOp i c (tsfPtpSettime c ts)
  | .adjtime c deltaNs => do let _ ← posixClockOp i c (tsfPtpAdjtime c deltaNs)
  | .getcrosststamp c => do let _ ← posixClockOp i c (tsfPtpGetcrosststamp c)
  | .syncWork => lift tsfSyncWorkFn
  | .chardevRead mem count => lift do let _ ← tsfSyncChardevRead mem count
  | .chardevWrite mem buf => lift do let _ ← tsfSyncChardevWrite mem buf

/-- The threads from module load on: one makes the calls under `rtnl_lock`, the others call operations and the char
device and run the work. -/
def threads [DecidableEq ι] (readers : List ι) (r : ι) (registry : List RegistryCall) (user : ι → List UserCall)
    (i : ι) : SysProg ι Unit :=
  if i = r then forM registry (RegistryCall.prog readers) else forM (user i) (UserCall.prog i)

end TsfSync.Lifetime
