import TsfSync.Lib.Failing
import TsfSync.User.ConfigGen
import TsfSync.User.ModuleLoader

/-!
# Starting the daemon

`start` of `src/daemon.rs`: discover the cards, load the module if a card needs it, discover again, select the primary and
start what the sync mode asks for. A run of the daemon changes the machine and may fail (`DaemonM`), and it logs what it
selects and starts (`LogEvent`).
-/

namespace TsfSync.User

open TsfSync

/-- `SyncError`, as far as `start` meets it. -/
inductive SyncError
  | start (name : Str) (source : IoError)
  | notFound (bin : Str)
  deriving DecidableEq, Repr

/-- `DaemonError`. -/
inductive DaemonError
  | discovery (e : DiscoveryError)
  | config (e : ConfigError)
  | module (e : ModuleError)
  | sync (e : SyncError)
  | io (e : IoError)
  deriving DecidableEq, Repr

/-- `SyncProcess`. -/
structure SyncProcess where
  child : Pid
  name : Str
  deriving DecidableEq, Repr

/-- `SyncState`; the thread of Mode C is given by what it is started with. -/
inductive SyncState
  | phc2sys (processes : List SyncProcess)
  | kernel
  | ioUring (primaryIndex : UInt32) (thresholdNs : Int64) (intervalMs : UInt32)
  deriving DecidableEq, Repr

/-- What the daemon logs. -/
inductive LogEvent
  | selectedPrimary (primary clock : Str) (mode : SyncMode)
  | starting (bin : Str) (args : List Str) (name : Str)
  deriving DecidableEq, Repr

/-- The machine and the log. -/
structure Daemon (W : Type) where
  world : W
  log : List LogEvent

/-- A run of the daemon that may fail. -/
abbrev DaemonM (W : Type) := ExceptT DaemonError (StateM (Daemon W))

/-- The options of a start, with the feature `iouring` of the build. -/
structure StartOptions where
  primary : Str
  phc2sysBin : Str
  adjtimeThresholdNs : UInt64
  syncMode : SyncMode
  syncIntervalMs : UInt32
  iouring : Bool

namespace DaemonM

variable {W α ε : Type}

/-- Look at the machine. -/
def look (f : W → α) : DaemonM W α := fun d => (.ok (f d.world), d)

/-- Act on the machine. -/
def act (f : W → α × W) : DaemonM W α := fun d => (.ok (f d.world).1, { d with world := (f d.world).2 })

/-- `tracing::info!`. -/
def info (e : LogEvent) : DaemonM W Unit := fun d => (.ok (), { d with log := d.log ++ [e] })

/-- The operator `?`. -/
def orFail (wrap : ε → DaemonError) : Except ε α → DaemonM W α
  | .error e => throw (wrap e)
  | .ok a => pure a

end DaemonM

open DaemonM FailingRun

namespace Host

variable {W : Type} (h : Host W)

/-- The arguments of `start_phc2sys`. -/
def phc2sysArgs (primaryClock secondaryClock : Str) : List Str :=
  [utf8 "-s", primaryClock, utf8 "-c", secondaryClock, utf8 "-R", utf8 "10", utf8 "-O", utf8 "0", utf8 "-m"]

/-- The name that `start_phc2sys` gives to its process. -/
def phc2sysName (primaryClock secondaryClock : Str) : Str :=
  utf8 "phc2sys[" ++ primaryClock ++ utf8 "→" ++ secondaryClock ++ utf8 "]"

/-- `SyncProcess::spawn`. -/
def spawnProcess (bin : Str) (args : List Str) (name : Str) : DaemonM W (Except SyncError SyncProcess) := do
  info (.starting bin args name)
  match ← act (h.spawn bin args) with
  | .ok pid => return .ok ⟨pid, name⟩
  | .error e => return .error (if e.kind = .notFound then .notFound bin else .start name e)

/-- `start_phc2sys`. -/
def startPhc2sys (primaryClock secondaryClock bin : Str) : DaemonM W (Except SyncError SyncProcess) :=
  h.spawnProcess bin (phc2sysArgs primaryClock secondaryClock) (phc2sysName primaryClock secondaryClock)

/-- Drop the processes of a `Vec`. -/
def dropAll (processes : List SyncProcess) : DaemonM W Unit :=
  act fun w => ((), processes.foldl (fun w p => h.dropProcess p.child w) w)

/-- The loop of Mode A over the cards with a clock. -/
def startAll (bin : Str) (primary : WifiCard) : List WifiCard → List SyncProcess → DaemonM W (List SyncProcess)
  | [], processes => pure processes
  | card :: cards, processes =>
    if card.phy = primary.phy then startAll bin primary cards processes
    else do
      match ← h.startPhc2sys primary.clock card.clock bin with
      | .ok proc => startAll bin primary cards (processes ++ [proc])
      | .error e =>
        h.dropAll processes
        throw (.sync e)

/-- The end of `start`, by sync mode. -/
def startMode (o : StartOptions) (ptpCards : List WifiCard) (primaryCard : WifiCard) : DaemonM W SyncState :=
  match o.syncMode with
  | .ptp => do
    let processes ← h.startAll o.phc2sysBin primaryCard ptpCards []
    return .phc2sys processes
  | .kernel => return .kernel
  | .iouring =>
    if o.iouring then do
      let primaryIndex ← act (h.findPrimaryIndex primaryCard.phy)
      let primaryIndex ← orFail .io primaryIndex
      return .ioUring primaryIndex o.adjtimeThresholdNs.toInt64 o.syncIntervalMs
    else throw (.io (.custom .unsupported (utf8 "iouring sync mode requires --features iouring")))

/-- `start` from its third step on, with the cards of the second discovery. -/
def startSync (o : StartOptions) (cards : List WifiCard) : DaemonM W SyncState :=
  let ptpCards := ptpCardsOf cards
  if ptpCards.length < 2 then throw (.config .onlyOneClock)
  else do
    let primaryCard ← orFail .config (selectPrimary ptpCards o.primary)
    info (.selectedPrimary primaryCard.phy primaryCard.clock o.syncMode)
    h.startMode o ptpCards primaryCard

/-- A card that needs the module. -/
def needsModule (cards : List WifiCard) : Bool :=
  cards.any fun c => c.canSetTsf && c.ptpClock.isNone && c.ptpSource == .none

/-- The second step of `start`. -/
def loadIfNeeded (o : StartOptions) (cards : List WifiCard) : DaemonM W Unit :=
  if needsModule cards then do
    let primaryForModule := if o.primary ≠ auto then some o.primary else none
    let loaded ← act (h.loadTsfPtp o.adjtimeThresholdNs o.syncMode primaryForModule (some o.syncIntervalMs))
    orFail .module loaded
    act fun w => ((), h.sleep w)
  else pure ()

/-- `start` up to the second discovery. -/
def prepare (o : StartOptions) : DaemonM W Unit := do
  let cards ← look fun w => (h.sysfs w).discoverCards
  let cards ← orFail .discovery cards
  h.loadIfNeeded o cards

/-- `start`. -/
def start (o : StartOptions) : DaemonM W SyncState := do
  h.prepare o
  let cards ← look fun w => (h.sysfs w).discoverCards
  let cards ← orFail .discovery cards
  h.startSync o cards

end Host

/-! ## Steps of a run -/

namespace DaemonM

variable {W α β ε : Type} {d d' : Daemon W}

theorem look_bind (g : W → α) (f : α → DaemonM W β) : (look g >>= f) d = f (g d.world) d := bind_ok rfl

theorem act_bind (g : W → α × W) (f : α → DaemonM W β) :
    (act g >>= f) d = f (g d.world).1 { d with world := (g d.world).2 } := bind_ok rfl

theorem info_bind (e : LogEvent) (f : Unit → DaemonM W β) :
    (info e >>= f) d = f () { d with log := d.log ++ [e] } := bind_ok rfl

theorem orFail_ok_bind (wrap : ε → DaemonError) (a : α) (f : α → DaemonM W β) :
    (orFail wrap (.ok a) >>= f) d = f a d := bind_ok rfl

theorem orFail_error_bind (wrap : ε → DaemonError) (e : ε) (f : α → DaemonM W β) :
    (orFail wrap (.error e) >>= f) d = (.error (wrap e), d) := bind_error rfl

theorem orFail_eq_ok {wrap : ε → DaemonError} {r : Except ε α} {a : α} (h : orFail wrap r d = (.ok a, d')) :
    r = .ok a ∧ d' = d := by
  cases r with
  | ok b => cases h; exact ⟨rfl, rfl⟩
  | error e => cases h

section Ensures

variable {P : Daemon W → Prop} {Q : α → Daemon W → Prop} {E : Daemon W → Prop}

theorem ensures_look {g : W → α} (h : ∀ d, P d → Q (g d.world) d) : Ensures P (look g) Q E :=
  ensures_of_ok fun d hd => ⟨_, _, rfl, h d hd⟩

theorem ensures_act {g : W → α × W} (h : ∀ d, P d → Q (g d.world).1 { d with world := (g d.world).2 }) :
    Ensures P (act g) Q E :=
  ensures_of_ok fun d hd => ⟨_, _, rfl, h d hd⟩

theorem ensures_info {event : LogEvent} {Q : Unit → Daemon W → Prop}
    (h : ∀ d, P d → Q () { d with log := d.log ++ [event] }) : Ensures P (info event) Q E :=
  ensures_of_ok fun d hd => ⟨_, _, rfl, h d hd⟩

theorem ensures_orFail {wrap : ε → DaemonError} {r : Except ε α} (h : ∀ a d, P d → Q a d) (hfail : ∀ d, P d → E d) :
    Ensures P (orFail wrap r) Q E := by
  cases r with
  | ok a => exact ensures_pure (h a)
  | error e => exact ensures_throw hfail

end Ensures

end DaemonM

end TsfSync.User
