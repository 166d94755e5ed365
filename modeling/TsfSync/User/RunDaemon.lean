import TsfSync.User.SyncProcess

/-!
# Running the daemon

`run_daemon` of `src/daemon.rs` with `stop`, and `unload_tsf_ptp` of `src/module_loader.rs`: start, check the processes in
every round of the loop until a signal comes, stop the processes, drop them and unload the module. What the loop only logs
(the health query, the counters) is left out.
-/

namespace TsfSync.User

open TsfSync Children DaemonM

namespace SyncProcess

/-- The check of all processes in one round. -/
def checkEach (children : List Pid) (t : Table) : Table := children.foldl (fun t child => (isRunning child t).2) t

/-- Stop processes one after another. -/
def stopEach (children : List Pid) (t : Table) : Table := children.foldl (fun t child => stop child t) t

end SyncProcess

namespace SyncState

/-- The check of the loop, by sync mode. -/
def check (t : Table) : SyncState → Table
  | .phc2sys processes => SyncProcess.checkEach (processes.map (·.child)) t
  | .kernel => t
  | .ioUring .. => t

/-- The rounds of the loop, each with a sleep and a check. -/
def monitor (state : SyncState) : Nat → Table → Table
  | 0, t => t
  | rounds + 1, t => state.monitor rounds (state.check t.tick)

/-- What `stop` does before it unloads the module: in Mode A it stops the processes and clears the `Vec`. -/
def stopProcesses (t : Table) : SyncState → Table
  | .phc2sys processes =>
    let children := processes.map (·.child)
    SyncProcess.dropEach children (SyncProcess.stopEach children t)
  | .kernel => t
  | .ioUring .. => t

end SyncState

namespace Host

variable {W : Type} (h : Host W)

/-- `unload_tsf_ptp`, where `rmmod` is the command. -/
def unloadTsfPtp (rmmod : W → CommandOutput × W) (w : W) : Except ModuleError Unit × W :=
  match h.isTsfPtpLoaded w with
  | .error e => (.error e, w)
  | .ok false => (.ok (), w)
  | .ok true =>
    match rmmod w with
    | (.error e, w) => (.error (.exec e), w)
    | (.ok (.error stderr), w) => (.error (.rmmod stderr), w)
    | (.ok (.ok ()), w) => (.ok (), w)

/-- `stop`. -/
def stop (rmmod : W → CommandOutput × W) (state : SyncState) : DaemonM (W × Table) Unit := do
  act fun w => ((), w.1, state.stopProcesses w.2)
  let unloaded ← act fun w => ((h.unloadTsfPtp rmmod w.1).1, (h.unloadTsfPtp rmmod w.1).2, w.2)
  orFail .module unloaded

/-- `run_daemon`, where the signal comes after some rounds of the loop, either in the sleep of the next (`asleep`) or
before it. -/
def runDaemon (lives : Pid → W → Child) (rmmod : W → CommandOutput × W) (o : StartOptions) (rounds : Nat)
    (asleep : Bool) : DaemonM (W × Table) Unit := do
  let state ← (h.withChildren lives).start o
  act fun w => ((), w.1, state.monitor rounds w.2)
  act fun w => ((), w.1, if asleep then w.2.tick else w.2)
  h.stop rmmod state

end Host

end TsfSync.User
