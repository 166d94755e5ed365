import Mathlib.Data.List.Sort
import TsfSync.Kernel.State

/-!
# Discovery: the WiFi cards that sysfs shows

`discover_cards` of `src/discovery.rs` walks the class directory `ieee80211`, and for every phy reads its driver and looks
for a PTP clock, first in the directory of its device and then in its own (`findPtpClock`). A directory of sysfs has one
identity (`DirId`) whichever path leads to it, so several phys may share a device. Strings are their UTF-8 bytes.
-/

namespace TsfSync.User

open TsfSync

/-- A Rust `String`, by its UTF-8 bytes; a file name by what `to_string_lossy` gives. -/
abbrev Str := List UInt8

/-- A text in the source. -/
def utf8 (s : String) : Str := s.toUTF8.data.toList

/-- `starts_with`. -/
def startsWith (s start : Str) : Bool := start.isPrefixOf s

/-- `std::io::ErrorKind`, as far as the daemon looks at it. -/
inductive ErrorKind
  | notFound
  | unsupported
  | other
  deriving DecidableEq, Repr

/-- `std::io::Error`. -/
inductive IoError
  | os (e : Errno)
  | custom (kind : ErrorKind) (message : Str)
  deriving DecidableEq, Repr

/-- `io::Error::kind`; `ENOENT` is 2. -/
def IoError.kind : IoError → ErrorKind
  | .os e => if e = .other 2 then .notFound else .other
  | .custom kind _ => kind

/-- `DiscoveryError`. -/
inductive DiscoveryError
  | sysfs (e : IoError)
  deriving DecidableEq, Repr

/-- `PtpSource`. -/
inductive PtpSource
  | native
  | tsfPtp
  | none
  deriving DecidableEq, Repr

/-- `WifiCard`. -/
structure WifiCard where
  phy : Str
  driver : Str
  ptpClock : Option Str
  ptpSource : PtpSource
  canSetTsf : Bool
  deriving DecidableEq, Repr

/-- `NATIVE_PTP_DRIVERS`. -/
def nativePtpDrivers : List Str := [utf8 "iwlwifi"]

/-- `FULLMAC_DRIVERS`. -/
def fullmacDrivers : List Str := [utf8 "brcmfmac", utf8 "mwifiex", utf8 "ath6kl"]

/-- `READ_ONLY_DRIVERS`. -/
def readOnlyDrivers : List Str := [utf8 "rtl8xxxu", utf8 "wil6210"]

/-! ## sysfs -/

/-- A directory of sysfs. -/
abbrev DirId := Nat

/-- An entry of the class directory: its name, the directory it leads to, and the one that `device` in it leads to. -/
structure ClassEntry where
  name : Str
  dir : DirId
  device : Option DirId
  deriving DecidableEq, Repr

/-- What the daemon can read of sysfs: the class directory `ieee80211`, the names in a directory, both in the order of
`read_dir`, where each entry may fail on its own, and the file name that the link `driver` of a directory points to. -/
structure Sysfs where
  ieee80211 : Except IoError (List (Except IoError ClassEntry))
  readDir : DirId → Except IoError (List (Except IoError Str))
  driver : DirId → Except IoError (Option Str)

/-! ## Sorting -/

/-- `is_ascii_digit`. -/
def isAsciiDigit (b : UInt8) : Bool := 48 ≤ b && b ≤ 57

/-- The value of decimal digits, none if another character is among them. -/
def digitsValue (digits : Str) : Option Nat :=
  digits.foldlM (fun n b => if isAsciiDigit b then some (10 * n + (b.toNat - 48)) else none) 0

/-- `parse::<u64>`: an optional `+`, then at least one digit, without overflow. -/
def parseU64 (s : Str) : Option UInt64 :=
  let digits := if s.head? = some 43 then s.tail else s
  if digits = [] then none
  else (digitsValue digits).bind fun n => if n < 2 ^ 64 then some (UInt64.ofNat n) else none

/-- `natural_sort_key`. -/
def naturalSortKey (s : Str) : Str × UInt64 :=
  (s.takeWhile fun b => !isAsciiDigit b, (parseU64 (s.dropWhile fun b => !isAsciiDigit b)).getD 0)

/-- `cmp` of two keys is not `Greater`. -/
def keyLe (a b : Str × UInt64) : Bool := a.1 < b.1 || (a.1 == b.1 && a.2 ≤ b.2)

/-- `cards.sort_by`, which is stable. -/
def sortCards (cards : List WifiCard) : List WifiCard :=
  cards.insertionSort fun a b => keyLe (naturalSortKey a.phy) (naturalSortKey b.phy) = true

/-! ## Discovery -/

namespace Sysfs

variable (t : Sysfs)

/-- `read_driver`. -/
def readDriver (device : Option DirId) : Str :=
  match device with
  | none => utf8 "unknown"
  | some d =>
    match t.driver d with
    | .ok (some name) => name
    | .ok none => utf8 "unknown"
    | .error _ => utf8 "unknown"

/-- The first entry of a directory whose name begins with `ptp`; entries that fail are passed over. -/
def ptpEntry (d : DirId) : Option Str :=
  match t.readDir d with
  | .error _ => none
  | .ok entries => (entries.filterMap Except.toOption).find? (startsWith · (utf8 "ptp"))

/-- The search directories of `find_ptp_clock`; without a `device` only the second can be read. -/
def searchDirs (entry : ClassEntry) : List DirId := entry.device.toList ++ [entry.dir]

/-- The walk of `find_ptp_clock` over its search directories. -/
def findPtpClockIn (driver : Str) : List DirId → Option Str × PtpSource
  | [] => (none, .none)
  | d :: dirs =>
    match t.ptpEntry d with
    | some name => (some (utf8 "/dev/" ++ name), if nativePtpDrivers.contains driver then .native else .tsfPtp)
    | none => findPtpClockIn driver dirs

/-- `find_ptp_clock`. -/
def findPtpClock (entry : ClassEntry) (driver : Str) : Option Str × PtpSource :=
  t.findPtpClockIn driver (searchDirs entry)

/-- The card that `discover_cards` makes of an entry. -/
def cardOf (entry : ClassEntry) : WifiCard :=
  let driver := t.readDriver entry.device
  let (ptpClock, ptpSource) := t.findPtpClock entry driver
  { phy := entry.name, driver := driver, ptpClock := ptpClock, ptpSource := ptpSource
    canSetTsf := !fullmacDrivers.contains driver && !readOnlyDrivers.contains driver }

/-- The walk of `discover_cards` over the class directory. -/
def discoverLoop : List (Except IoError ClassEntry) → Except DiscoveryError (List WifiCard)
  | [] => .ok []
  | .error e :: _ => .error (.sysfs e)
  | .ok entry :: entries =>
    if !startsWith entry.name (utf8 "phy") then discoverLoop entries
    else do
      let cards ← discoverLoop entries
      return t.cardOf entry :: cards

/-- `discover_cards`. -/
def discoverCards : Except DiscoveryError (List WifiCard) :=
  match t.ieee80211 with
  | .error e => if e.kind = .notFound then .ok [] else .error (.sysfs e)
  | .ok entries => do
    let cards ← t.discoverLoop entries
    return sortCards cards

end Sysfs

end TsfSync.User
