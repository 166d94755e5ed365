import Mathlib.Data.List.Nodup
import Mathlib.Data.List.TakeWhile
import TsfSync.Kernel.State

/-!
# Cards: registration, removal and VIF tracking

`tsf_ptp_probe` registers a card for a wiphy, `tsf_ptp_try_hotplug_remove` removes it, and the notifier
`tsf_ptp_netdev_event` calls both and keeps `card->vif`; `tsf_ptp_discover_from_netdevs` and
`tsf_ptp_scan_existing_vifs` do the same for the devices present at module load. What the kernel's allocator and PTP
core answer is an argument (`ProbeEnv`).
-/

namespace TsfSync

open LockProg

/-- The answers a probe gets: the memory of `kzalloc`, which is not a card in use, and the result of
`ptp_clock_register`. -/
structure ProbeEnv where
  kzalloc : (l : CardsList) → Option { c : CardPtr // c ∉ l.ptrs ∧ c ≠ .head }
  ptpClockRegister : Except Errno Unit

namespace CardsList

/-- `list_add_tail`; a card that is on the list already is not added again. -/
def addTail (l : CardsList) (c : CardPtr) : CardsList :=
  if h : c ∉ l.ptrs ∧ c ≠ .head then
    { ptrs := l.ptrs ++ [c]
      nodup := by
        refine List.nodup_append.mpr ⟨l.nodup, List.nodup_singleton c, fun a ha b hb => ?_⟩
        rw [List.mem_singleton] at hb
        exact fun e => h.1 (hb ▸ e ▸ ha)
      noHead := by simp [l.noHead, Ne.symm h.2] }
  else l

/-- `list_del`. -/
def del (l : CardsList) (c : CardPtr) : CardsList where
  ptrs := l.ptrs.erase c
  nodup := l.nodup.erase c
  noHead := fun h => l.noHead (List.mem_of_mem_erase h)

theorem addTail_ptrs (l : CardsList) {c : CardPtr} (h : c ∉ l.ptrs ∧ c ≠ .head) : (l.addTail c).ptrs = l.ptrs ++ [c] := by
  simp [addTail, h]

@[simp] theorem del_ptrs (l : CardsList) (c : CardPtr) : (l.del c).ptrs = l.ptrs.erase c := rfl

end CardsList

/-- `snprintf` into a `char[32]`. -/
def CStr.snprintf (bytes : List UInt8) : CStr 32 where
  bytes := (bytes.takeWhile (· != 0)).take 31
  fits := by rw [List.length_take]; omega
  noNul := fun h => by simpa using List.mem_takeWhile_imp (List.mem_of_mem_take h)

/-- The bytes of `"tsf-ptp-"`. -/
def tsfPtpPrefix : List UInt8 := [116, 115, 102, 45, 112, 116, 112, 45]

/-- The card that `tsf_ptp_probe` fills in. -/
def Card.new {w : WiphyId} (loc : Local w) : Card where
  hw := loc.hw
  vif := none
  name := .snprintf (tsfPtpPrefix ++ loc.wiphyName)
  phyName := .snprintf loc.wiphyName
  settime64 := loc.hw.ops.setTsf
  adjtime := loc.hw.ops.setTsf
  lastOffsetNs := 0
  syncCount := 0
  syncErrorCount := 0

/-- `find_card_by_wiphy_locked`. -/
def findCardByWiphyLocked (w : WiphyId) : KProg (Option CardPtr) :=
  Prog.read fun s => s.cardsList.ptrs.find? fun c => (s.card c).hw.wiphy == w

/-- `list_add_tail(&card->list, &cards_list)`. -/
def listAddTail (c : CardPtr) : KProg Unit := Prog.modify fun s => { s with cardsList := s.cardsList.addTail c }

/-- `list_del(&card->list)`. -/
def listDel (c : CardPtr) : KProg Unit := Prog.modify fun s => { s with cardsList := s.cardsList.del c }

/-- `tsf_ptp_probe`. -/
def tsfPtpProbe (env : ProbeEnv) {w : WiphyId} (loc : Local w) : KProg (Except Errno Unit) := do
  if !loc.hw.ops.getTsf then
    return .error .EOPNOTSUPP
  mutexLock .cards
  let existing ← findCardByWiphyLocked loc.hw.wiphy
  if existing.isSome then
    mutexUnlock .cards
    return .error .EEXIST
  mutexUnlock .cards
  match ← Prog.read fun s => env.kzalloc s.cardsList with
  | none => return .error .ENOMEM
  | some card =>
    writeCard card fun _ => Card.new loc
    match env.ptpClockRegister with
    | .error e => return .error e
    | .ok () =>
      mutexLock .cards
      listAddTail card
      mutexUnlock .cards
      return .ok ()

/-- `tsf_ptp_try_hotplug_probe`. -/
def tsfPtpTryHotplugProbe (env : ProbeEnv) (w : WiphyId) : KProg Unit := do
  mutexLock .cards
  let tracked ← findCardByWiphyLocked w
  if tracked.isSome then
    mutexUnlock .cards
    return
  mutexUnlock .cards
  match ← Prog.read (·.wiphyPriv w) with
  | none => return
  | some loc =>
    let _ ← tsfPtpProbe env loc
    return

/-- `for_each_netdev(&init_net, dev)`. -/
def initNetdevs (s : Kernel) : List NetDev := s.netdevs.filter (·.net == 0)

/-- `tsf_ptp_try_hotplug_remove`. The removed card is unregistered and freed by `tsf_ptp_remove`. -/
def tsfPtpTryHotplugRemove (w : WiphyId) : KProg Unit := do
  let wiphyStillHasNetdev ← Prog.read fun s => (initNetdevs s).any fun dev => dev.wiphy == some w
  if wiphyStillHasNetdev then
    return
  mutexLock .cards
  let card ← findCardByWiphyLocked w
  match card with
  | none => mutexUnlock .cards
  | some card =>
    listDel card
    mutexUnlock .cards

/-- `NETDEV_UP`, and the body of `tsf_ptp_scan_existing_vifs`: take the VIF of `dev` if the card has none.
`IEEE80211_DEV_TO_SUB_IF` is never NULL. -/
def captureVif (w : WiphyId) (dev : NetDev) : KProg Unit := do
  mutexLock .cards
  let card ← findCardByWiphyLocked w
  match card with
  | none => mutexUnlock .cards
  | some card =>
    mutexLock (.card card)
    let k ← readCard card
    if k.vif.isNone then
      writeCard card fun k => { k with vif := some dev.id }
    mutexUnlock (.card card)
    mutexUnlock .cards

/-- `NETDEV_DOWN`, and the first half of `NETDEV_UNREGISTER`: drop the VIF if it is that of `dev`. -/
def releaseVif (w : WiphyId) (dev : NetDev) : KProg Unit := do
  mutexLock .cards
  let card ← findCardByWiphyLocked w
  match card with
  | none => mutexUnlock .cards
  | some card =>
    mutexLock (.card card)
    let k ← readCard card
    if k.vif == some dev.id then
      writeCard card fun k => { k with vif := none }
    mutexUnlock (.card card)
    mutexUnlock .cards

/-- The netdevice events the notifier looks at. -/
inductive NetdevEvent
  | register
  | up
  | down
  | unregister
  | other
  deriving DecidableEq, Repr

/-- `tsf_ptp_netdev_event`. -/
def tsfPtpNetdevEvent (env : ProbeEnv) (event : NetdevEvent) (dev : NetDev) : KProg Unit :=
  match dev.ieee80211Ptr with
  | none => return
  | some wdev =>
    match wdev.wiphy with
    | none => return
    | some w =>
      match event with
      | .register => tsfPtpTryHotplugProbe env w
      | .up => captureVif w dev
      | .down => releaseVif w dev
      | .unregister => do
        releaseVif w dev
        tsfPtpTryHotplugRemove w
      | .other => return

/-- The walk of `tsf_ptp_discover_from_netdevs`, with its count. -/
def discoverLoop (env : DevId → ProbeEnv) : List NetDev → Nat → KProg Nat
  | [], count => return count
  | dev :: devs, count =>
    match dev.wiphy with
    | none => discoverLoop env devs count
    | some w => do
      match ← Prog.read (·.wiphyPriv w) with
      | none => discoverLoop env devs count
      | some loc =>
        match ← tsfPtpProbe (env dev.id) loc with
        | .ok () => discoverLoop env devs (count + 1)
        | .error _ => discoverLoop env devs count

/-- `tsf_ptp_discover_from_netdevs`. -/
def tsfPtpDiscoverFromNetdevs (env : DevId → ProbeEnv) : KProg Nat := do
  let devs ← Prog.read initNetdevs
  discoverLoop env devs 0

/-- One round of `tsf_ptp_scan_existing_vifs`. -/
def scanExistingVif (dev : NetDev) : KProg Unit :=
  match dev.wiphy with
  | none => return
  | some w => if dev.up then captureVif w dev else return

/-- `tsf_ptp_scan_existing_vifs`. -/
def tsfPtpScanExistingVifs : KProg Unit := do
  let devs ← Prog.read initNetdevs
  forM devs scanExistingVif

end TsfSync
