import TsfSync.Lib.Rings
import TsfSync.User.Discovery
import TsfSync.User.IoUring

/-!
# The ring of `IoUringSyncer`

`read_snapshots` and `write_adjustments` push one entry, call `submit_and_wait(1)` and pop one completion, whose
`user_data` neither looks at. The ring outlives the calls, so what it does is given for each operation of the thread
(`Behaviour`): which entries the kernel takes, which completions arrive when, and what the wait returns, be it early or
an error. `ringDev` is `/dev/tsf_sync` through this ring. Every operation has a buffer of its own, zeroed until its own
completion arrives; what the kernel writes into the freed buffer of a call that returned is not followed.
-/

namespace TsfSync.User

open TsfSync IoRings

/-- `opcode::Read` and `opcode::Write`. -/
inductive Opcode
  | read (len : Nat)
  | write (buf : List UInt8)
  deriving DecidableEq, Repr

/-- What an entry is built from. -/
structure Request where
  opcode : Opcode
  userData : UInt64
  deriving DecidableEq, Repr

/-- What the kernel answers an entry with: the result, and what it put into the buffer. -/
structure Answer where
  result : Int32
  data : List UInt8
  deriving DecidableEq, Repr

abbrev Ring := Rings Request Answer

/-- What the ring does around one operation: the completions that arrive before the push, how many entries the kernel
takes, the completions that arrive up to the end of the wait, what the wait returns, and the completions that arrive
before the buffer is read. -/
structure Behaviour where
  before : List (Nat × Answer)
  taken : Nat
  during : List (Nat × Answer)
  wait : Except IoError Unit
  after : List (Nat × Answer)

/-- What the thread saw of the ring: the completion that an operation consumed, and whether the buffer of an operation
was complete when it was decoded. -/
inductive RingEvent
  | consumed (op : Nat) (cqe : Cqe Request Answer)
  | decoded (op : Nat) (complete : Bool)
  deriving DecidableEq, Repr

/-- The ring, the number of the next operation, and what the thread saw. -/
structure Syncing where
  ring : Ring
  nextOp : Nat
  log : List RingEvent
  deriving DecidableEq, Repr

/-- `IoUring::new`. -/
def Syncing.start : Syncing := ⟨.empty, 0, []⟩

/-- The entries of `IoUring::new(8)`. -/
def ringEntries : Nat := 8

def submissionFull : IoError := .custom .other (utf8 "io_uring submission full")

def noCompletion : IoError := .custom .other (utf8 "no io_uring completion")

/-- `push`, `submit_and_wait(1)` and `completion().next()` for one entry. -/
def pushAndWait (b : Behaviour) (e : Sqe Request) (ring : Ring) : Except IoError (Cqe Request Answer) × Ring :=
  let ring := ring.completeAll b.before
  match ring.push ringEntries e with
  | none => (.error submissionFull, ring)
  | some ring =>
    let ring := (ring.take b.taken).completeAll b.during
    match b.wait with
    | .error err => (.error err, ring)
    | .ok () =>
      match ring.next with
      | none => (.error noCompletion, ring)
      | some (cqe, ring) => (.ok cqe, ring)

/-- A result below zero is an error number. -/
def rawResult (result : Int32) : Except Errno Nat :=
  if result < 0 then .error (.other (-result).toInt.toNat) else .ok result.toInt.toNat

/-- A step of the thread; the errors of the ring end `sync_once`. -/
abbrev RingM := ExceptT IoError (StateM Syncing)

section

variable (env : Nat → Behaviour)

/-- Submit an entry and consume a completion: the number of the operation and the result of the completion. -/
def transfer (req : Request) : RingM (Nat × Except Errno Nat) := fun s =>
  let op := s.nextOp
  match pushAndWait (env op) ⟨op, req⟩ s.ring with
  | (.error err, ring) => (.error err, { s with ring, nextOp := op + 1 })
  | (.ok cqe, ring) => (.ok (op, rawResult cqe.result.result), ⟨ring, op + 1, s.log ++ [.consumed op cqe]⟩)

/-- The buffer of a read, zeroed by `vec!` and filled by its completion. -/
def buffer (ring : Ring) (op len : Nat) : List UInt8 :=
  match ring.completed.find? (·.sqe.op == op) with
  | none => List.replicate len 0
  | some cqe => (cqe.result.data ++ List.replicate len 0).take len

/-- Decode `bytesRead` bytes of the buffer of a read. -/
def decodeBuffer (op len bytesRead : Nat) : RingM (List UInt8) := fun s =>
  let ring := s.ring.completeAll (env op).after
  (.ok ((buffer ring op len).take bytesRead),
    { s with ring, log := s.log ++ [.decoded op (ring.completed.any (·.sqe.op == op))] })

/-- `/dev/tsf_sync` through the ring. -/
def ringDev : DevTsfSync RingM where
  read len := do
    let (op, res) ← transfer env ⟨.read len, 0x01⟩
    match res with
    | .error e => return .error e
    | .ok bytesRead => return .ok (← decodeBuffer env op len bytesRead)
  write buf := do
    let (_, res) ← transfer env ⟨.write buf, 0x02⟩
    return res

/-- `sync_once` through the ring: what it returns and the state after it. -/
def IoUringSyncer.ringSyncOnce (self : IoUringSyncer) (s : Syncing) :
    Except IoError (Except Errno SyncStats) × Syncing := (self.syncOnce (ringDev env)).run.run s

/-- The state after `n` rounds of `run`; a failed round is logged and the next one starts as any other. -/
def IoUringSyncer.rounds (self : IoUringSyncer) : Nat → Syncing
  | 0 => .start
  | n + 1 => (self.ringSyncOnce env (self.rounds n)).2

end

end TsfSync.User
