import TsfSync.Lib.Atomic
import TsfSync.Kernel.Heap
import TsfSync.Kernel.Lookup
import TsfSync.Kernel.ModeB

/-!
# Every access to a counter is atomic

What the module is for, without its locks: the TSF counters of the cards (`Tsfs`), and calls that look at a counter or
set it in one action (`TsfProg`). A read of a PTP clock is one access, a shift of one is one access, a cycle of Mode B is
an access to the primary and then one to each secondary, and the char device goes over the cards one by one.

The functions of the module do just that while the list of cards, the VIFs and the parameters stay and the counters do
not go on by themselves: whatever threads call, among them some that go on from what they were answered (`Client`), and
under every schedule, the counters and the answers are those of calls whose accesses are atomic (`calls_atomic`).
-/

namespace TsfSync

open LockProg MachineWord Uapi

namespace Atomic

open Lifetime (UserCall)

variable {α : Type}

/-! ## The calls, without locks -/

/-- The counters of the cards. -/
abbrev Tsfs := CardPtr → UInt64

/-- A program that accesses the counters. -/
abbrev TsfProg := Prog Tsfs Empty

/-- One access to a counter: what it gives, and what the counter is then. -/
def access (c : CardPtr) (f : UInt64 → α × UInt64) : TsfProg α :=
  .act (fun t => Function.update t c (f (t c)).2) fun t => .ret (f (t c)).1

section Calls

variable (s₀ : Kernel)

/-- What the driver gives for a counter. -/
def shown (c : CardPtr) (tsf : UInt64) : UInt64 := if (s₀.card c).hw.ops.getTsf then tsf else 0

/-- What a counter is when the driver is asked to set it. -/
def put (c : CardPtr) (tsf new : UInt64) : UInt64 := if (s₀.card c).hw.ops.setTsf then new else tsf

/-- An access to the counter of a card that must have a VIF. -/
def clockAccess (c : CardPtr) (f : UInt64 → α × UInt64) : TsfProg (Except Errno α) :=
  access c fun tsf => if (s₀.card c).vif.isSome then (.ok (f tsf).1, (f tsf).2) else (.error .ENODEV, tsf)

/-- A read of the clock. -/
def gettime (c : CardPtr) : TsfProg (Except Errno Timespec64) :=
  clockAccess s₀ c fun tsf => (nsToTimespec64 (tsfToNs (shown s₀ c tsf)), tsf)

/-- The clock is set. -/
def settime (c : CardPtr) (ts : Timespec64) : TsfProg (Except Errno Unit) :=
  clockAccess s₀ c fun tsf => ((), put s₀ c tsf ((timespec64ToNs ts).toUInt64 / 1000))

/-- The clock is shifted, unless by less than the threshold. -/
def adjtime (c : CardPtr) (deltaNs : Int64) : TsfProg (Except Errno Unit) :=
  if belowThreshold s₀.adjtimeThresholdNs deltaNs then return .ok ()
  else clockAccess s₀ c fun tsf => ((), put s₀ c tsf (addDeltaNs (shown s₀ c tsf) deltaNs))

/-- A read of the clock, between two of the system's. -/
def getcrosststamp (c : CardPtr) : TsfProg (Except Errno SystemDeviceCrosststamp) :=
  clockAccess s₀ c fun tsf => (⟨tsfToNs (shown s₀ c tsf), s₀.ktimeReal, s₀.ktimeRaw⟩, tsf)

/-- A secondary follows the primary, which stands at `primaryTsf`. -/
def follow (primaryTsf : UInt64) (c : CardPtr) : TsfProg Unit :=
  access c fun tsf => ((),
    if (s₀.card c).vif.isSome && reachesThreshold s₀.adjtimeThresholdNs (offsetNs primaryTsf (shown s₀ c tsf)) then
      put s₀ c tsf primaryTsf else tsf)

/-- A cycle of Mode B. -/
def syncWork : TsfProg Unit :=
  match s₀.primary with
  | none => return
  | some p => do
    let primaryTsf ← access p fun tsf => (shown s₀ p tsf, tsf)
    if (s₀.card p).vif.isSome then
      forM s₀.cardsList.ptrs fun c => if c = p then return else follow s₀ primaryTsf c

/-- The snapshot of the card at position `i`. -/
def snapshot (i : Nat) (c : CardPtr) : TsfProg TsfSnapshot :=
  access c fun tsf =>
    let named (tsfNs monoNs : Int64) : TsfSnapshot :=
      { cardIndex := UInt32.ofNat i, phyNameLen := UInt32.ofNat (s₀.card c).phyName.bytes.length,
        phyName := padName (s₀.card c).phyName, tsfNs, monoNs }
    (if (s₀.card c).vif.isSome then named (tsfToNs (shown s₀ c tsf)) s₀.ktimeNs else named 0 0, tsf)

/-- The snapshots of cards from position `i` on. -/
def snapshots : Nat → List CardPtr → TsfProg (List TsfSnapshot)
  | _, [] => return []
  | i, c :: cards => do
    let snap ← snapshot s₀ i c
    let snaps ← snapshots (i + 1) cards
    return snap :: snaps

/-- A read of the char device. -/
def chardevRead (mem : UserMem) (count : Nat) : TsfProg (Except Errno (List UInt8)) :=
  if s₀.cardsList.ptrs.length = 0 then return .ok []
  else if !mem.alloc then return .error .ENOMEM
  else do
    let snaps ← snapshots s₀ 0 s₀.cardsList.ptrs
    return if !mem.copy then .error .EFAULT
      else .ok ((snaps.flatMap TsfSnapshot.bytes).take (min count (snaps.length * snapSize)))

/-- A card is shifted by an adjustment that names it, unless by less than the threshold. -/
def adjust (adj : TsfAdjustment) : TsfProg Unit :=
  if belowThreshold s₀.adjtimeThresholdNs adj.deltaNs then return
  else match findByIndex s₀.cardsList.ptrs adj.cardIndex with
    | none => return
    | some c => access c fun tsf => ((),
      if (s₀.card c).vif.isSome then put s₀ c tsf (addDeltaNs (shown s₀ c tsf) adj.deltaNs) else tsf)

/-- A write of the char device. -/
def chardevWrite (mem : UserMem) (buf : List UInt8) : TsfProg (Except Errno Nat) :=
  if buf.length = 0 then return .ok 0
  else if buf.length / adjSize = 0 then return .error .EINVAL
  else if !mem.alloc then return .error .ENOMEM
  else if !mem.copy then return .error .EFAULT
  else do
    forM (decodeAdjustments buf) (adjust s₀)
    return .ok (buf.length / adjSize * adjSize)

end Calls

/-! ## Threads that call -/

/-- What a call answers. -/
def Answer : UserCall → Type
  | .gettime _ => Except Errno Timespec64
  | .settime _ _ => Except Errno Unit
  | .adjtime _ _ => Except Errno Unit
  | .getcrosststamp _ => Except Errno SystemDeviceCrosststamp
  | .syncWork => Unit
  | .chardevRead _ _ => Except Errno (List UInt8)
  | .chardevWrite _ _ => Except Errno Nat

/-- The function of the module that is called. -/
def code : (call : UserCall) → KProg (Answer call)
  | .gettime c => tsfPtpGettime c
  | .settime c ts => tsfPtpSettime c ts
  | .adjtime c deltaNs => tsfPtpAdjtime c deltaNs
  | .getcrosststamp c => tsfPtpGetcrosststamp c
  | .syncWork => tsfSyncWorkFn
  | .chardevRead mem count => tsfSyncChardevRead mem count
  | .chardevWrite mem buf => tsfSyncChardevWrite mem buf

/-- The call without locks. -/
def spec (s₀ : Kernel) : (call : UserCall) → TsfProg (Answer call)
  | .gettime c => gettime s₀ c
  | .settime c ts => settime s₀ c ts
  | .adjtime c deltaNs => adjtime s₀ c deltaNs
  | .getcrosststamp c => getcrosststamp s₀ c
  | .syncWork => syncWork s₀
  | .chardevRead mem count => chardevRead s₀ mem count
  | .chardevWrite mem buf => chardevWrite s₀ mem buf

/-- A thread of userspace. -/
abbrev Client := LockProg.Client UserCall Answer

/-! ## The parts of the state -/

/-- The setup and the system's clocks are as at the start. -/
structure Still (s₀ s : Kernel) : Prop where
  setup : SameSetup s₀ s
  ktimeNs : s.ktimeNs = s₀.ktimeNs
  ktimeRaw : s.ktimeRaw = s₀.ktimeRaw
  ktimeReal : s.ktimeReal = s₀.ktimeReal

/-- A counter is protected by the lock of its card. -/
def layout (s₀ : Kernel) : Layout Kernel CardPtr UInt64 LockId where
  part := fun c s => (s.card c).hw.tsf
  of := fun
    | .card c => some c
    | _ => none
  ok := Still s₀
  unique := by
    rintro (_ | c | w) (_ | c' | w') d ⟨⟩ ⟨⟩
    rfl

theorem Still.refl (s : Kernel) : Still s s := ⟨.refl s, rfl, rfl, rfl⟩

variable {s₀ s : Kernel} {c : CardPtr} {x y : UInt64} {P : TsfProg α}

theorem Still.trans {s' : Kernel} (h : Still s₀ s) (h' : Still s s') : Still s₀ s' :=
  ⟨h.setup.trans h'.setup, h'.ktimeNs.trans h.ktimeNs, h'.ktimeRaw.trans h.ktimeRaw, h'.ktimeReal.trans h.ktimeReal⟩

/-- A change of one card that keeps its VIF, its name and its ops. -/
theorem Still.setCard (h : Still s₀ s) (c : CardPtr) {f : Card → Card}
    (hf : ∀ k, (f k).vif = k.vif ∧ (f k).phyName = k.phyName ∧ (f k).hw.ops = k.hw.ops) : Still s₀ (s.setCard c f) :=
  ⟨h.setup.trans (.setCard s c hf), h.ktimeNs, h.ktimeRaw, h.ktimeReal⟩

/-- What differs elsewhere only is as still. -/
theorem Still.congr {s' : Kernel} (h : Still s₀ s) (hcard : s'.card = s.card) (hlist : s'.cardsList = s.cardsList)
    (hthr : s'.adjtimeThresholdNs = s.adjtimeThresholdNs) (hprimary : s'.syncPrimary = s.syncPrimary)
    (hktime : s'.ktimeNs = s.ktimeNs ∧ s'.ktimeRaw = s.ktimeRaw ∧ s'.ktimeReal = s.ktimeReal) : Still s₀ s' where
  setup := ⟨hlist.trans h.setup.cardsList, hthr.trans h.setup.threshold, hprimary.trans h.setup.syncPrimary,
    fun c => hcard ▸ h.setup.card c⟩
  ktimeNs := hktime.1.trans h.ktimeNs
  ktimeRaw := hktime.2.1.trans h.ktimeRaw
  ktimeReal := hktime.2.2.trans h.ktimeReal

/-- A write to the statistics of a card. -/
theorem part_setCard {f : Card → Card} (hf : ∀ k, (f k).hw = k.hw) (c d : CardPtr) :
    (layout s₀).part d (s.setCard c f) = (layout s₀).part d s := by
  show ((s.setCard c f).card d).hw.tsf = (s.card d).hw.tsf
  by_cases hd : d = c
  · subst hd
    rw [Kernel.setCard_self, hf]
  · rw [Kernel.setCard_ne _ _ hd]

/-! ## The driver's ops in a critical section -/

theorem atomically_callGetTsf {vif : DevId} {f : UInt64 → KProg α}
    (hf : Atomically (layout s₀) (some (c, x, y)) (f (shown s₀ c x)) P) :
    Atomically (layout s₀) (some (c, x, y)) (tsfPtpCallGetTsf c vif >>= f) P := by
  simp only [tsfPtpCallGetTsf, readCard, bind_assoc]
  refine atomically_look_bind fun s hs _ => ?_
  rw [(hs.setup.card c).2.2]
  rw [shown] at hf
  cases hget : (s₀.card c).hw.ops.getTsf with
  | false =>
    rw [hget] at hf
    exact hf
  | true =>
    rw [hget] at hf
    intro s' hs' hx
    refine ⟨hs'.congr rfl rfl rfl rfl ⟨rfl, rfl, rfl⟩, fun _ _ => rfl, ?_⟩
    change (s'.card c).hw.tsf = x at hx
    show Atomically _ (some (c, (s'.card c).hw.tsf, y)) (f (s'.card c).hw.tsf) P
    rw [hx]
    exact hf

theorem atomically_callSetTsf {vif : DevId} {new : UInt64} {f : Unit → KProg α}
    (hf : Atomically (layout s₀) (some (c, put s₀ c x new, y)) (f ()) P) :
    Atomically (layout s₀) (some (c, x, y)) (tsfPtpCallSetTsf c vif new >>= f) P := by
  simp only [tsfPtpCallSetTsf, readCard, bind_assoc]
  refine atomically_look_bind fun s hs _ => ?_
  rw [(hs.setup.card c).2.2]
  rw [put] at hf
  cases hset : (s₀.card c).hw.ops.setTsf with
  | false =>
    rw [hset] at hf
    exact hf
  | true =>
    rw [hset] at hf
    refine atomically_change_bind (fun s' hs' _ => ?_) hf
    let upd : Card → Card := fun k => { k with hw := { k.hw with tsf := new } }
    have hset := hs'.setCard c (f := upd) fun _ => ⟨rfl, rfl, rfl⟩
    refine ⟨hset.congr rfl rfl rfl rfl ⟨rfl, rfl, rfl⟩, fun d hd => ?_, ?_⟩
    · exact congrArg (·.hw.tsf) (Kernel.setCard_ne s' upd hd)
    · exact congrArg (·.hw.tsf) (Kernel.setCard_self s' c upd)

/-! ## Critical sections -/

/-- The critical section of a card, and what comes after. -/
theorem atomically_lockCard {β : Type} {f : Card → KProg α} {g : UInt64 → β × UInt64} {F : β → TsfProg α}
    (hf : ∀ s x, Still s₀ s → Atomically (layout s₀) (some (c, x, (g x).2)) (f (s.card c)) (F (g x).1)) :
    Atomically (layout s₀) none (mutexLock (.card c) >>= fun _ => readCard c >>= f) (access c g >>= F) := by
  have hsec : ∀ x, Atomically (layout s₀) (some (c, x, (g x).2)) (readCard c >>= f) (F (g x).1) := by
    intro x
    apply atomically_look_bind
    intro s hs _
    exact hf s x hs
  exact atomically_section (l := LockId.card c) (g := fun x => (g x).2) (k := fun x => F (g x).1) rfl hsec

/-- The critical section of a clock operation. -/
theorem atomically_clockAccess {f : Card → KProg (Except Errno α)} {g : UInt64 → α × UInt64}
    (hdown : ∀ k : Card, k.vif = none → f k = mutexUnlock (.card c) >>= fun _ => pure (.error .ENODEV))
    (hup : ∀ (k : Card) vif x, k.vif = some vif →
      Atomically (layout s₀) (some (c, x, (g x).2)) (f k) (pure (.ok (g x).1))) :
    Atomically (layout s₀) none (mutexLock (.card c) >>= fun _ => readCard c >>= f) (clockAccess s₀ c g) := by
  rw [← bind_pure (clockAccess s₀ c g), clockAccess]
  refine atomically_lockCard fun s x hs => ?_
  have hvif := (hs.setup.card c).1
  cases hv : (s₀.card c).vif with
  | none =>
    rw [hdown _ (hvif.trans hv)]
    exact atomically_end_bind rfl (atomically_pure _)
  | some vif => exact hup (s.card c) vif x (hvif.trans hv)

/-- The end of a critical section that called the driver. -/
theorem atomically_unlock {w : WiphyId} {p : KProg α} (hp : Atomically (layout s₀) none p P) :
    Atomically (layout s₀) (some (c, x, x)) (mutexUnlock (.wiphy w) >>= fun _ => mutexUnlock (.card c) >>= fun _ => p)
      P := atomically_release_bind rfl (atomically_end_bind rfl hp)

/-! ## The clock operations -/

theorem atomically_gettime (c : CardPtr) : Atomically (layout s₀) none (tsfPtpGettime c) (gettime s₀ c) := by
  refine atomically_clockAccess (fun k hv => by rw [hv]) fun k vif x hv => ?_
  rw [hv]
  exact atomically_acquire_bind rfl (atomically_callGetTsf (atomically_unlock (atomically_pure _)))

theorem atomically_settime (c : CardPtr) (ts : Timespec64) :
    Atomically (layout s₀) none (tsfPtpSettime c ts) (settime s₀ c ts) := by
  refine atomically_clockAccess (fun k hv => by rw [hv]) fun k vif x hv => ?_
  rw [hv]
  exact atomically_acquire_bind rfl (atomically_callSetTsf (atomically_unlock (atomically_pure _)))

theorem atomically_getcrosststamp (c : CardPtr) :
    Atomically (layout s₀) none (tsfPtpGetcrosststamp c) (getcrosststamp s₀ c) := by
  refine atomically_clockAccess (fun k hv => by rw [hv]) fun k vif x hv => ?_
  rw [hv]
  refine atomically_acquire_bind rfl (atomically_look_bind fun s hs _ => atomically_callGetTsf ?_)
  refine atomically_look_bind fun s' hs' _ => ?_
  rw [hs.ktimeRaw, hs'.ktimeReal]
  exact atomically_unlock (atomically_pure _)

/-- The counters of the module are no part. -/
theorem atomically_count {g : Kernel → Kernel} {h : Option (CardPtr × UInt64 × UInt64)} {f : Unit → KProg α}
    (hcard : ∀ s, (g s).card = s.card) (hg : ∀ s, Still s (g s)) (hf : Atomically (layout s₀) h (f ()) P) :
    Atomically (layout s₀) h (Prog.modify g >>= f) P := by
  refine atomically_modify_bind (fun s hs => ⟨hs.trans (hg s), fun c => ?_⟩) hf
  show ((g s).card c).hw.tsf = (s.card c).hw.tsf
  rw [hcard]

theorem atomically_incSkipCount {h : Option (CardPtr × UInt64 × UInt64)} {f : Unit → KProg α}
    (hf : Atomically (layout s₀) h (f ()) P) : Atomically (layout s₀) h (incSkipCount >>= f) P :=
  atomically_count (fun _ => rfl) (fun s => (Still.refl s).congr rfl rfl rfl rfl ⟨rfl, rfl, rfl⟩) hf

theorem atomically_incApplyCount {h : Option (CardPtr × UInt64 × UInt64)} {f : Unit → KProg α}
    (hf : Atomically (layout s₀) h (f ()) P) : Atomically (layout s₀) h (incApplyCount >>= f) P :=
  atomically_count (fun _ => rfl) (fun s => (Still.refl s).congr rfl rfl rfl rfl ⟨rfl, rfl, rfl⟩) hf

/-- Neither are the statistics of a card. -/
theorem atomically_writeCard {h : Option (CardPtr × UInt64 × UInt64)} {u : Card → Card} {f : Unit → KProg α}
    (hu : ∀ k, (u k).vif = k.vif ∧ (u k).phyName = k.phyName ∧ (u k).hw = k.hw)
    (hf : Atomically (layout s₀) h (f ()) P) : Atomically (layout s₀) h (writeCard c u >>= f) P := by
  refine atomically_modify_bind (fun s hs => ⟨hs.setCard c fun k => ?_, part_setCard (fun k => (hu k).2.2) c⟩) hf
  obtain ⟨hv, hn, hh⟩ := hu k
  exact ⟨hv, hn, by rw [hh]⟩

theorem atomically_adjtime (c : CardPtr) (deltaNs : Int64) :
    Atomically (layout s₀) none (tsfPtpAdjtime c deltaNs) (adjtime s₀ c deltaNs) := by
  refine atomically_read_bind fun s hs => ?_
  rw [hs.setup.threshold, adjtime]
  cases belowThreshold s₀.adjtimeThresholdNs deltaNs with
  | true => exact atomically_incSkipCount (atomically_pure _)
  | false =>
    refine atomically_clockAccess (fun k hv => by rw [hv]) fun k vif x hv => ?_
    rw [hv]
    refine atomically_acquire_bind rfl (atomically_callGetTsf (atomically_callSetTsf (atomically_unlock ?_)))
    exact atomically_incApplyCount (atomically_pure _)

/-! ## Mode B -/

theorem atomically_resched {interval : UInt32} : Atomically (layout s₀) none (resched interval) (pure ()) :=
  atomically_count (f := pure) (fun _ => rfl) (fun s => (Still.refl s).congr rfl rfl rfl rfl ⟨rfl, rfl, rfl⟩)
    (atomically_pure _)

theorem atomically_syncSecondary {p : CardPtr} {primaryTsf : UInt64} (c : CardPtr) :
    Atomically (layout s₀) none (syncSecondary s₀.adjtimeThresholdNs p primaryTsf c)
      (if c = p then return else follow s₀ primaryTsf c) := by
  unfold syncSecondary
  by_cases hc : c = p
  · rw [if_pos hc, if_pos hc]
    exact atomically_pure _
  rw [if_neg hc, if_neg hc, follow, ← bind_pure (access c _)]
  refine atomically_lockCard fun s x hs => ?_
  have hvif := (hs.setup.card c).1
  cases hv : (s₀.card c).vif with
  | none =>
    rw [hvif, hv]
    exact atomically_end_bind rfl (atomically_writeCard (f := pure) (fun _ => ⟨rfl, rfl, rfl⟩) (atomically_pure _))
  | some vif =>
    rw [hvif, hv]
    simp only [Option.isSome_some, Bool.true_and]
    refine atomically_acquire_bind rfl (atomically_callGetTsf (atomically_writeCard (fun _ => ⟨rfl, rfl, rfl⟩) ?_))
    have hend : ∀ z, Atomically (layout s₀) (some (c, z, z)) (mutexUnlock (.wiphy (s.card c).hw.wiphy) >>= fun _ =>
        mutexUnlock (.card c) >>= fun _ => writeCard c fun k => { k with syncCount := k.syncCount + 1 }) (pure ()) :=
      fun z => atomically_unlock (atomically_writeCard (f := pure) (fun _ => ⟨rfl, rfl, rfl⟩) (atomically_pure _))
    cases reachesThreshold s₀.adjtimeThresholdNs (offsetNs primaryTsf (shown s₀ c x)) with
    | true => exact atomically_callSetTsf (atomically_incApplyCount (hend _))
    | false => exact atomically_incSkipCount (hend _)

theorem atomically_findPrimary {f : Option CardPtr → KProg α} (hf : Atomically (layout s₀) none (f s₀.primary) P) :
    Atomically (layout s₀) none (findPrimaryLocked >>= f) P := by
  refine atomically_read_bind fun s hs => ?_
  have hsame : Atomically (layout s₀) none (f s.primary) P := by
    rw [hs.setup.primary_eq]
    exact hf
  exact hsame

theorem atomically_workFn : Atomically (layout s₀) none tsfSyncWorkFn (syncWork s₀) := by
  refine atomically_read_bind fun s _ => atomically_read_bind fun s₁ hs₁ => ?_
  rw [hs₁.setup.threshold]
  refine atomically_acquire_bind rfl (atomically_findPrimary ?_)
  unfold syncWork
  have herror : Atomically (layout s₀) none (incGlobalSyncErrorCount >>= fun _ => resched s.syncIntervalMs) (pure ()) :=
    atomically_count (fun _ => rfl) (fun s => (Still.refl s).congr rfl rfl rfl rfl ⟨rfl, rfl, rfl⟩) atomically_resched
  cases s₀.primary with
  | none => exact atomically_release_bind rfl herror
  | some p =>
    refine atomically_lockCard fun s₂ x hs₂ => ?_
    rw [(hs₂.setup.card p).1]
    cases (s₀.card p).vif with
    | none => exact atomically_end_bind rfl (atomically_release_bind rfl herror)
    | some vif =>
      refine atomically_acquire_bind rfl (atomically_callGetTsf (atomically_unlock (atomically_read_bind fun s₃ hs₃ => ?_)))
      rw [hs₃.setup.cardsList]
      have hrest : Atomically (layout s₀) none (mutexUnlock .cards >>= fun _ => incGlobalSyncCount >>= fun _ =>
          resched s.syncIntervalMs) (pure ()) :=
        atomically_release_bind rfl (atomically_count (fun _ => rfl)
          (fun s => (Still.refl s).congr rfl rfl rfl rfl ⟨rfl, rfl, rfl⟩) atomically_resched)
      have hsecondary : ∀ c ∈ s₀.cardsList.ptrs, Atomically (layout s₀) none
          (syncSecondary s₀.adjtimeThresholdNs p (shown s₀ p x) c)
          (if c = p then pure () else follow s₀ (shown s₀ p x) c) := fun c _ => atomically_syncSecondary c
      have hloop := atomically_bind (atomically_forM hsecondary) fun _ => hrest
      rw [bind_pure] at hloop
      exact hloop

theorem atomically_takeSnapshot (i : Nat) (c : CardPtr) :
    Atomically (layout s₀) none (takeSnapshot i c) (snapshot s₀ i c) := by
  refine atomically_read_bind fun s hs => ?_
  rw [(hs.setup.card c).2.1, ← bind_pure (snapshot s₀ i c), snapshot]
  refine atomically_lockCard fun s₁ x hs₁ => ?_
  rw [(hs₁.setup.card c).1]
  cases (s₀.card c).vif with
  | none => exact atomically_end_bind rfl (atomically_pure _)
  | some vif =>
    refine atomically_acquire_bind rfl (atomically_callGetTsf (atomically_release_bind rfl ?_))
    refine atomically_look_bind fun s₂ hs₂ _ => ?_
    rw [hs₂.ktimeNs]
    exact atomically_end_bind rfl (atomically_pure _)

theorem atomically_snapshotLoop {n : Nat} : ∀ (cards : List CardPtr) (i : Nat), i + cards.length ≤ n →
    Atomically (layout s₀) none (snapshotLoop n i cards) (snapshots s₀ i cards)
  | [], _, _ => atomically_pure _
  | c :: cards, i, h => by
    rw [List.length_cons] at h
    have hlt : ¬i ≥ n := by omega
    rw [snapshotLoop, if_neg hlt, snapshots]
    refine atomically_bind (atomically_takeSnapshot i c) fun snap => ?_
    exact atomically_bind (atomically_snapshotLoop cards (i + 1) (by omega)) fun snaps => atomically_pure _

theorem atomically_chardevRead (mem : UserMem) (count : Nat) :
    Atomically (layout s₀) none (tsfSyncChardevRead mem count) (chardevRead s₀ mem count) := by
  refine atomically_acquire_bind rfl (atomically_read_bind fun s hs => ?_)
  rw [hs.setup.cardsList, chardevRead]
  dsimp only
  by_cases hzero : s₀.cardsList.ptrs.length = 0
  · rw [if_pos hzero, if_pos hzero]
    exact atomically_release_bind rfl (atomically_pure _)
  rw [if_neg hzero, if_neg hzero]
  cases mem.alloc with
  | false => exact atomically_release_bind rfl (atomically_pure _)
  | true =>
    refine atomically_bind (atomically_snapshotLoop _ 0 (by omega)) fun snaps => atomically_release_bind rfl ?_
    cases mem.copy with
    | false => exact atomically_pure _
    | true => exact atomically_pure _

theorem atomically_adjustCard (c : CardPtr) (deltaNs : Int64) : Atomically (layout s₀) none (adjustCard c deltaNs)
    (access c fun tsf => ((),
      if (s₀.card c).vif.isSome then put s₀ c tsf (addDeltaNs (shown s₀ c tsf) deltaNs) else tsf)) := by
  rw [← bind_pure (access c _)]
  refine atomically_lockCard fun s x hs => ?_
  rw [(hs.setup.card c).1]
  cases (s₀.card c).vif with
  | none => exact atomically_end_bind (f := pure) rfl (atomically_pure _)
  | some vif =>
    refine atomically_acquire_bind rfl (atomically_callGetTsf (atomically_callSetTsf (atomically_unlock ?_)))
    exact atomically_incApplyCount (f := pure) (atomically_pure _)

theorem atomically_applyAdjustment (adj : TsfAdjustment) :
    Atomically (layout s₀) none (applyAdjustment findByIndex s₀.adjtimeThresholdNs adj) (adjust s₀ adj) := by
  unfold applyAdjustment adjust
  cases belowThreshold s₀.adjtimeThresholdNs adj.deltaNs with
  | true => exact atomically_incSkipCount (atomically_pure _)
  | false =>
    refine atomically_read_bind fun s hs => ?_
    rw [hs.setup.cardsList]
    cases findByIndex s₀.cardsList.ptrs adj.cardIndex with
    | none => exact atomically_pure _
    | some c => exact atomically_adjustCard c adj.deltaNs

theorem atomically_chardevWrite (mem : UserMem) (buf : List UInt8) :
    Atomically (layout s₀) none (tsfSyncChardevWrite mem buf) (chardevWrite s₀ mem buf) := by
  refine atomically_read_bind fun s hs => ?_
  rw [hs.setup.threshold, chardevWrite]
  by_cases hempty : buf.length = 0
  · rw [if_pos hempty, if_pos hempty]
    exact atomically_pure _
  rw [if_neg hempty, if_neg hempty]
  dsimp only
  by_cases hshort : buf.length / adjSize = 0
  · rw [if_pos hshort, if_pos hshort]
    exact atomically_pure _
  rw [if_neg hshort, if_neg hshort]
  cases mem.alloc with
  | false => exact atomically_pure _
  | true =>
    cases mem.copy with
    | false => exact atomically_pure _
    | true =>
      refine atomically_acquire_bind rfl (atomically_bind (atomically_forM fun adj _ => ?_) fun _ => ?_)
      · exact atomically_applyAdjustment adj
      · exact atomically_release_bind rfl (atomically_pure _)

/-! ## Threads -/

theorem atomically_call : ∀ call : UserCall, Atomically (layout s₀) none (code call) (spec s₀ call)
  | .gettime c => atomically_gettime c
  | .settime c ts => atomically_settime c ts
  | .adjtime c deltaNs => atomically_adjtime c deltaNs
  | .getcrosststamp c => atomically_getcrosststamp c
  | .syncWork => atomically_workFn
  | .chardevRead mem count => atomically_chardevRead mem count
  | .chardevWrite mem buf => atomically_chardevWrite mem buf

/-- The counters of the cards. -/
def tsfs (s : Kernel) : Tsfs := fun c => (s.card c).hw.tsf

/-- **The functions of the module are atomic in every access to a counter**: whatever threads call and under every
schedule, the threads that make the same calls without locks can take some of the steps, in their order, and then have
been answered the same, stand at the same values of all counters whose card is not locked, and have ended if the
others have. -/
theorem calls_atomic {ι : Type} [DecidableEq ι] {clients : ι → Client} {sched : List ι} {pool : Pool ι Kernel LockId}
    (hrun : Pool.runs sched (.start (fun i => (clients i).prog code) s₀) = some pool) :
    ∃ sched' pool', List.Sublist sched' sched ∧
      Pool.runs sched' (.start (fun i => (clients i).prog (spec s₀)) (tsfs s₀)) = some pool' ∧
      (∀ c, pool.holder (.card c) = none → pool'.state c = (pool.state.card c).hw.tsf) ∧
      (∀ i, pool.prog i = .ret () → pool'.prog i = .ret ()) ∧
      ((∀ i, pool.prog i = .ret ()) → pool'.state = tsfs pool.state) := by
  have hclients : ∀ i, Atomically (layout s₀) none ((clients i).prog code) ((clients i).prog (spec s₀)) := fun i =>
    atomically_client atomically_call (clients i)
  obtain ⟨sched', pool', hsub, hruns, hfree, hret, hall⟩ := Pool.atomic hclients (Still.refl s₀) hrun
  refine ⟨sched', pool', hsub, hruns, fun c hc => hfree c ?_, hret, hall⟩
  rintro (_ | d | w) ⟨⟩
  exact hc

/-- A thread that reads the first of two cards and sets the second to what it has read, and one that shifts both. -/
def readerAndShifter : Bool → Client
  | true => .ask (.gettime (.card 0)) fun
    | .ok ts => .ask (.settime (.card 1) ts) fun _ => .done
    | .error _ => .done
  | false => .ask (.adjtime (.card 0) 20000) fun _ => .ask (.adjtime (.card 1) 30000) fun _ => .done

/-- Two cards with their counters at 100 and 500. -/
def twoCounters : Kernel := .withCards [.upWith 0 100, .upWith 1 500]

/-- A schedule on which the two take turns. -/
def turns : List Bool :=
  [true, true, true, false] ++ List.replicate 4 true ++ List.replicate 10 false ++ [true, true, true, false] ++
    List.replicate 4 true ++ List.replicate 10 false

theorem calls_atomic_run : ∃ sched' pool', List.Sublist sched' turns ∧
    Pool.runs sched' (.start (fun i => (readerAndShifter i).prog (spec twoCounters)) (tsfs twoCounters)) = some pool' ∧
      pool'.state (.card 0) = 120 ∧ pool'.state (.card 1) = 130 := by
  obtain ⟨pool, hrun, hended, h₀, h₁⟩ : ∃ pool,
      Pool.runs turns (.start (fun i => (readerAndShifter i).prog code) twoCounters) = some pool ∧
      (∀ i, pool.prog i = .ret ()) ∧ tsfs pool.state (.card 0) = 120 ∧ tsfs pool.state (.card 1) = 130 :=
    ⟨_, rfl, by rintro (_ | _) <;> rfl, rfl, rfl⟩
  obtain ⟨sched', pool', hsub, hruns, -, -, hall⟩ := calls_atomic hrun
  rw [← hall hended] at h₀ h₁
  exact ⟨sched', pool', hsub, hruns, h₀, h₁⟩

end Atomic

end TsfSync
