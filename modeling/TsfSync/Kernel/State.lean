import Mathlib.Data.List.Nodup
import TsfSync.Lib.Prog
import TsfSync.Lib.Word

/-!
# The state of the `tsf_ptp` module

What the functions of `kernel/tsf_ptp.c` read and write: the cards behind `struct tsf_ptp_card *` pointers with the
hardware they drive, the list `cards_list`, the module parameters and counters, and the kernel's net_devices.
A function of the module is a program over this state (`KProg`) whose locks are `cards_lock`, the `lock` of each card
and the lock of each wiphy. Calls into a driver are logged (`drv`).
-/

namespace TsfSync

open LockProg MachineWord

/-- A `struct wiphy *`. -/
abbrev WiphyId := Nat

/-- A `struct net_device *`. Its private data holds the VIF, so the same number names `&sdata->vif`. -/
abbrev DevId := Nat

/-- `struct ieee80211_ops`: which of the two TSF ops the driver has. -/
structure Ops where
  getTsf : Bool
  setTsf : Bool
  deriving DecidableEq, Repr

/-- `struct ieee80211_hw` with the TSF counter of the device, in microseconds. -/
structure Hw where
  wiphy : WiphyId
  ops : Ops
  tsf : UInt64
  deriving DecidableEq, Repr

/-- The C string in a `char[n]`: the bytes before its terminator. -/
structure CStr (n : Nat) where
  bytes : List UInt8
  fits : bytes.length < n
  noNul : 0 ∉ bytes
  deriving DecidableEq

/-- What a `struct tsf_ptp_card *` may hold: the address of a card, or the list head read as an entry, which is where
the cursor of `list_for_each_entry` stands after the last card. -/
inductive CardPtr
  | card (addr : Nat)
  | head
  deriving DecidableEq, Repr

/-- `struct tsf_ptp_card`; `settime64` and `adjtime` are the pointers of its `ptp_info` that may be NULL. -/
structure Card where
  hw : Hw
  vif : Option DevId
  name : CStr 32
  phyName : CStr 32
  settime64 : Bool
  adjtime : Bool
  lastOffsetNs : Int64
  syncCount : Nat
  syncErrorCount : Nat
  deriving DecidableEq

/-- `cards_list`: a linked list through the cards, so no card is on it twice and its head is not an entry. -/
structure CardsList where
  ptrs : List CardPtr
  nodup : ptrs.Nodup
  noHead : .head ∉ ptrs

/-- A lock of the module or of cfg80211. -/
inductive LockId
  | cards
  | card (c : CardPtr)
  | wiphy (w : WiphyId)
  deriving DecidableEq, Repr

/-- A call of a driver op. -/
inductive DrvCall
  | getTsf (c : CardPtr) (vif : DevId)
  | setTsf (c : CardPtr) (vif : DevId) (tsf : UInt64)
  deriving DecidableEq, Repr

/-- `struct wireless_dev`. -/
structure Wdev where
  wiphy : Option WiphyId
  deriving DecidableEq, Repr

/-- `struct net_device`: its namespace (`0` is `init_net`), its `ieee80211_ptr` and the flag `IFF_UP`. -/
structure NetDev where
  id : DevId
  net : Nat
  ieee80211Ptr : Option Wdev
  up : Bool
  deriving DecidableEq, Repr

/-- The wiphy that a net_device belongs to, if it is a wireless one: `dev->ieee80211_ptr->wiphy`. -/
def NetDev.wiphy (dev : NetDev) : Option WiphyId := dev.ieee80211Ptr.bind (·.wiphy)

/-- `struct ieee80211_local`, found by `wiphy_priv` from its wiphy: the hardware and the wiphy's name. A wiphy whose
`wiphy_priv` is something else, that of a FullMAC driver, is outside the model: what `get_tsf` then reads is not followed. -/
structure Local (w : WiphyId) where
  hw : Hw
  wiphyName : List UInt8
  back : hw.wiphy = w

/-- `struct delayed_work sync_work`: initialised or not, and the delay it was last scheduled with while pending. -/
structure DelayedWork where
  initialised : Bool
  pending : Option Nat
  deriving DecidableEq, Repr

/-- The state shared by the functions of the module. -/
structure Kernel where
  cardsList : CardsList
  card : CardPtr → Card
  adjtimeThresholdNs : UInt32
  syncPrimary : List UInt8
  syncIntervalMs : UInt32
  adjtimeSkipCount : Nat
  adjtimeApplyCount : Nat
  globalSyncCount : Nat
  globalSyncErrorCount : Nat
  syncWork : DelayedWork
  netdevs : List NetDev
  wiphyPriv : (w : WiphyId) → Option (Local w)
  ktimeNs : Int64
  ktimeRaw : Int64
  ktimeReal : Int64
  drv : List DrvCall

/-- A function of the module. -/
abbrev KProg := Prog Kernel LockId

/-- The error numbers the module returns. -/
inductive Errno
  | ENODEV
  | EOPNOTSUPP
  | EEXIST
  | ENOMEM
  | EINVAL
  | EFAULT
  | other (n : Nat)
  deriving DecidableEq, Repr

/-- Zeroed memory read as a card. -/
def Card.zeroed : Card where
  hw := ⟨0, ⟨false, false⟩, 0⟩
  vif := none
  name := ⟨[], by decide, by simp⟩
  phyName := ⟨[], by decide, by simp⟩
  settime64 := false
  adjtime := false
  lastOffsetNs := 0
  syncCount := 0
  syncErrorCount := 0

namespace Kernel

/-- The state when the module is loaded with the default parameters, before it registers anything. -/
def load (netdevs : List NetDev) (wiphyPriv : (w : WiphyId) → Option (Local w)) : Kernel where
  cardsList := ⟨[], List.nodup_nil, List.not_mem_nil⟩
  card := fun _ => .zeroed
  adjtimeThresholdNs := 5000
  syncPrimary := []
  syncIntervalMs := 10
  adjtimeSkipCount := 0
  adjtimeApplyCount := 0
  globalSyncCount := 0
  globalSyncErrorCount := 0
  syncWork := ⟨false, none⟩
  netdevs := netdevs
  wiphyPriv := wiphyPriv
  ktimeNs := 0
  ktimeRaw := 0
  ktimeReal := 0
  drv := []

/-- A loaded module whose list holds the given cards, the `i`-th at address `i`. -/
def withCards (cs : List Card) : Kernel :=
  { load [] (fun _ => none) with
    cardsList :=
      { ptrs := (List.range cs.length).map .card
        nodup := List.nodup_range.map fun _ _ h => CardPtr.card.inj h
        noHead := by simp }
    card := fun
      | .card i => cs.getD i .zeroed
      | .head => .zeroed }

/-- Change one card. -/
def setCard (s : Kernel) (c : CardPtr) (f : Card → Card) : Kernel :=
  { s with card := Function.update s.card c (f (s.card c)) }

@[simp] theorem setCard_self (s : Kernel) (c : CardPtr) (f : Card → Card) : (s.setCard c f).card c = f (s.card c) := by
  simp [setCard]

theorem setCard_ne (s : Kernel) {c d : CardPtr} (f : Card → Card) (h : d ≠ c) : (s.setCard c f).card d = s.card d := by
  simp [setCard, h]

@[simp] theorem setCard_cardsList (s : Kernel) (c : CardPtr) (f : Card → Card) :
    (s.setCard c f).cardsList = s.cardsList := rfl

end Kernel

/-! ## Steps of the module's functions -/

/-- `mutex_lock` and `wiphy_lock`. -/
def mutexLock (l : LockId) : KProg Unit := Prog.acquire l

/-- `mutex_unlock` and `wiphy_unlock`. -/
def mutexUnlock (l : LockId) : KProg Unit := Prog.release l

/-- The cards that a walk of `cards_list` visits. -/
def listEntries : KProg (List CardPtr) := Prog.read (·.cardsList.ptrs)

/-- The fields of a card. -/
def readCard (c : CardPtr) : KProg Card := Prog.read (·.card c)

/-- Write fields of a card. -/
def writeCard (c : CardPtr) (f : Card → Card) : KProg Unit := Prog.modify (·.setCard c f)

/-- The driver's `get_tsf`. -/
def drvGetTsf (c : CardPtr) (vif : DevId) : KProg UInt64 :=
  .act (fun s => { s with drv := s.drv ++ [.getTsf c vif] }) fun s => .ret (s.card c).hw.tsf

/-- The driver's `set_tsf`. -/
def drvSetTsf (c : CardPtr) (vif : DevId) (tsf : UInt64) : KProg Unit :=
  Prog.modify fun s => { s.setCard c (fun k => { k with hw := { k.hw with tsf := tsf } }) with
    drv := s.drv ++ [.setTsf c vif tsf] }

/-- `tsf_ptp_call_get_tsf`. -/
def tsfPtpCallGetTsf (c : CardPtr) (vif : DevId) : KProg UInt64 := do
  let card ← readCard c
  if !card.hw.ops.getTsf then
    return 0
  drvGetTsf c vif

/-- `tsf_ptp_call_set_tsf`. -/
def tsfPtpCallSetTsf (c : CardPtr) (vif : DevId) (tsf : UInt64) : KProg Unit := do
  let card ← readCard c
  if !card.hw.ops.setTsf then
    return
  drvSetTsf c vif tsf

/-- `atomic64_inc(&adjtime_skip_count)`. -/
def incSkipCount : KProg Unit := Prog.modify fun s => { s with adjtimeSkipCount := s.adjtimeSkipCount + 1 }

/-- `atomic64_inc(&adjtime_apply_count)`. -/
def incApplyCount : KProg Unit := Prog.modify fun s => { s with adjtimeApplyCount := s.adjtimeApplyCount + 1 }

/-- `atomic64_inc(&global_sync_count)`. -/
def incGlobalSyncCount : KProg Unit := Prog.modify fun s => { s with globalSyncCount := s.globalSyncCount + 1 }

/-- `atomic64_inc(&global_sync_error_count)`. -/
def incGlobalSyncErrorCount : KProg Unit :=
  Prog.modify fun s => { s with globalSyncErrorCount := s.globalSyncErrorCount + 1 }

/-! ## Nanoseconds -/

/-- `NSEC_PER_USEC`. -/
def nsecPerUsec : Int64 := 1000

/-- `(s64)tsf * NSEC_PER_USEC`. -/
def tsfToNs (tsf : UInt64) : Int64 := tsf.toInt64 * nsecPerUsec

/-- `div_s64(delta_ns, NSEC_PER_USEC)` added to a TSF. -/
def addDeltaNs (tsf : UInt64) (deltaNs : Int64) : UInt64 := tsf + (deltaNs / nsecPerUsec).toUInt64

/-- The filter of `tsf_ptp_adjtime` and `tsf_sync_chardev_write`:
`threshold > 0 && (delta_ns < 0 ? -delta_ns : delta_ns) < threshold`. -/
def belowThreshold (threshold : UInt32) (deltaNs : Int64) : Bool := 0 < threshold && absW deltaNs < ofU32 threshold

end TsfSync
