import TsfSync.Lib.Threads
import TsfSync.Kernel.Clock
import TsfSync.Kernel.Lookup
import TsfSync.Kernel.Netdev
import TsfSync.Kernel.SyncWork

/-!
# The lock order of the module

Every function of the module takes its locks in the order `cards_lock`, `card->lock`, `wiphy_lock` (`keeps_*`). The
handlers of `NETDEV_REGISTER` and `NETDEV_UNREGISTER` are called with the lock of the wiphy held, below `cards_lock`, and
so against that order. No run comes to a circular wait in which none of them is delivered while a function that holds
`card->lock` waits for that wiphy's lock, and none of these comes to wait for it before the handler has taken its last lock
(`no_circular_wait`). Otherwise it happens: `gettime` holds `card->lock` and asks for the wiphy lock while the handler holds
the wiphy lock and asks for `card->lock` (`gettime_unregister_counterexample`).
-/

namespace TsfSync

open LockProg

/-- `cards_lock → card->lock → wiphy_lock`. -/
def lockRank : LockId → Nat
  | .cards => 0
  | .card _ => 1
  | .wiphy _ => 2

/-- A lock may be asked for on top of outer locks and of locks of lower rank. -/
def Allowed (outer : LockId → Prop) (H : List LockId) (l : LockId) : Prop := ∀ h ∈ H, outer h ∨ lockRank h < lockRank l

variable {outer : LockId → Prop}

theorem keeps_callGetTsf {H : List LockId} (c : CardPtr) (vif : DevId) :
    Keeps (Allowed outer) H (tsfPtpCallGetTsf c vif) H := by
  refine keeps_read_bind fun card => ?_
  cases card.hw.ops.getTsf
  · exact rfl
  · exact fun s => rfl

theorem keeps_callSetTsf {H : List LockId} (c : CardPtr) (vif : DevId) (tsf : UInt64) :
    Keeps (Allowed outer) H (tsfPtpCallSetTsf c vif tsf) H := by
  refine keeps_read_bind fun card => ?_
  cases card.hw.ops.setTsf
  · exact rfl
  · exact fun s => rfl

/-! ## The PTP clock operations -/

theorem allowed_nil (l : LockId) : Allowed outer [] l := fun _ h => by cases h

theorem allowed_wiphy (c : CardPtr) (w : WiphyId) : Allowed outer [.card c] (.wiphy w) := by simp [Allowed, lockRank]

theorem keeps_gettime (c : CardPtr) : Keeps (Allowed outer) [] (tsfPtpGettime c) [] := by
  refine keeps_acquire_bind (by simp) (allowed_nil _) (keeps_read_bind fun k => ?_)
  cases k.vif with
  | none => exact keeps_release_bind rfl
  | some vif =>
    refine keeps_acquire_bind (by simp) (allowed_wiphy c _) (keeps_bind _ (keeps_callGetTsf c vif) fun tsf => ?_)
    exact keeps_release_bind (keeps_release_bind rfl)

theorem keeps_settime (c : CardPtr) (ts : Timespec64) : Keeps (Allowed outer) [] (tsfPtpSettime c ts) [] := by
  refine keeps_acquire_bind (by simp) (allowed_nil _) (keeps_read_bind fun k => ?_)
  cases k.vif with
  | none => exact keeps_release_bind rfl
  | some vif =>
    refine keeps_acquire_bind (by simp) (allowed_wiphy c _) (keeps_bind _ (keeps_callSetTsf c vif _) fun _ => ?_)
    exact keeps_release_bind (keeps_release_bind rfl)

theorem keeps_adjtime (c : CardPtr) (deltaNs : Int64) : Keeps (Allowed outer) [] (tsfPtpAdjtime c deltaNs) [] := by
  refine keeps_read_bind fun threshold => ?_
  cases belowThreshold threshold deltaNs with
  | true => exact keeps_modify_bind rfl
  | false =>
    refine keeps_acquire_bind (by simp) (allowed_nil _) (keeps_read_bind fun k => ?_)
    cases k.vif with
    | none => exact keeps_release_bind rfl
    | some vif =>
      refine keeps_acquire_bind (by simp) (allowed_wiphy c _) (keeps_bind _ (keeps_callGetTsf c vif) fun tsf => ?_)
      refine keeps_bind _ (keeps_callSetTsf c vif _) fun _ => ?_
      exact keeps_release_bind (keeps_release_bind (keeps_modify_bind rfl))

theorem keeps_getcrosststamp (c : CardPtr) : Keeps (Allowed outer) [] (tsfPtpGetcrosststamp c) [] := by
  refine keeps_acquire_bind (by simp) (allowed_nil _) (keeps_read_bind fun k => ?_)
  cases k.vif with
  | none => exact keeps_release_bind rfl
  | some vif =>
    refine keeps_acquire_bind (by simp) (allowed_wiphy c _) (keeps_read_bind fun raw => ?_)
    refine keeps_bind _ (keeps_callGetTsf c vif) fun tsf => keeps_read_bind fun real => ?_
    exact keeps_release_bind (keeps_release_bind rfl)

/-! ## Mode B -/

theorem allowed_card (c : CardPtr) : Allowed outer [.cards] (.card c) := by simp [Allowed, lockRank]

theorem allowed_cards_card_wiphy (c : CardPtr) (w : WiphyId) : Allowed outer [.card c, .cards] (.wiphy w) := by
  simp [Allowed, lockRank]

theorem keeps_syncSecondary (threshold : UInt32) (primary : CardPtr) (primaryTsf : UInt64) (c : CardPtr) :
    Keeps (Allowed outer) [.cards] (syncSecondary threshold primary primaryTsf c) [.cards] := by
  unfold syncSecondary
  split
  · exact rfl
  refine keeps_acquire_bind (by simp) (allowed_card c) (keeps_read_bind fun k => ?_)
  cases k.vif with
  | none => exact keeps_release_bind fun _ => rfl
  | some vif =>
    refine keeps_acquire_bind (by simp) (allowed_cards_card_wiphy c _) ?_
    refine keeps_bind _ (keeps_callGetTsf c vif) fun tsf => ?_
    refine keeps_modify_bind ?_
    dsimp only
    split
    · refine keeps_bind _ (keeps_callSetTsf c vif _) fun _ => keeps_modify_bind ?_
      exact keeps_release_bind (keeps_release_bind fun _ => rfl)
    · exact keeps_modify_bind (keeps_release_bind (keeps_release_bind fun _ => rfl))

theorem keeps_workFn : Keeps (Allowed outer) [] tsfSyncWorkFn [] := by
  refine keeps_read_bind fun interval => keeps_read_bind fun threshold => ?_
  refine keeps_acquire_bind (by simp) (allowed_nil _) (keeps_read_bind fun primary => ?_)
  cases primary with
  | none => exact keeps_release_bind (keeps_modify_bind fun _ => rfl)
  | some primary =>
    refine keeps_acquire_bind (by simp) (allowed_card primary) (keeps_read_bind fun k => ?_)
    cases k.vif with
    | none => exact keeps_release_bind (keeps_release_bind (keeps_modify_bind fun _ => rfl))
    | some vif =>
      refine keeps_acquire_bind (by simp) (allowed_cards_card_wiphy primary _) ?_
      refine keeps_bind _ (keeps_callGetTsf primary vif) fun tsf => keeps_release_bind (keeps_release_bind ?_)
      refine keeps_read_bind fun cards => ?_
      refine keeps_bind _ (keeps_forM fun c _ => keeps_syncSecondary threshold primary tsf c) fun _ => ?_
      exact keeps_release_bind (keeps_modify_bind fun _ => rfl)

/-! ## Mode C -/

theorem keeps_takeSnapshot (i : Nat) (c : CardPtr) : Keeps (Allowed outer) [.cards] (takeSnapshot i c) [.cards] := by
  refine keeps_read_bind fun k => keeps_acquire_bind (by simp) (allowed_card c) (keeps_read_bind fun k' => ?_)
  cases k'.vif with
  | none => exact keeps_release_bind rfl
  | some vif =>
    refine keeps_acquire_bind (by simp) (allowed_cards_card_wiphy c _) ?_
    refine keeps_bind _ (keeps_callGetTsf c vif) fun tsf => ?_
    exact keeps_release_bind (keeps_read_bind fun mono => keeps_release_bind rfl)

theorem keeps_snapshotLoop (n : Nat) : ∀ (cards : List CardPtr) (i : Nat),
    Keeps (Allowed outer) [.cards] (snapshotLoop n i cards) [.cards]
  | [], _ => rfl
  | c :: cards, i => by
    unfold snapshotLoop
    split
    · exact rfl
    · exact keeps_bind _ (keeps_takeSnapshot i c) fun _ =>
        keeps_bind _ (keeps_snapshotLoop n cards (i + 1)) fun _ => rfl

theorem keeps_chardevRead (mem : UserMem) (count : Nat) :
    Keeps (Allowed outer) [] (tsfSyncChardevRead mem count) [] := by
  refine keeps_acquire_bind (by simp) (allowed_nil _) (keeps_read_bind fun cards => ?_)
  dsimp only
  split
  · exact keeps_release_bind rfl
  split
  · exact keeps_release_bind rfl
  refine keeps_bind _ (keeps_snapshotLoop _ cards 0) fun snaps => keeps_release_bind ?_
  split <;> exact rfl

theorem keeps_adjustCard (c : CardPtr) (deltaNs : Int64) :
    Keeps (Allowed outer) [.cards] (adjustCard c deltaNs) [.cards] := by
  refine keeps_acquire_bind (by simp) (allowed_card c) (keeps_read_bind fun k => ?_)
  cases k.vif with
  | none => exact keeps_release _
  | some vif =>
    refine keeps_acquire_bind (by simp) (allowed_cards_card_wiphy c _) ?_
    refine keeps_bind _ (keeps_callGetTsf c vif) fun tsf => ?_
    refine keeps_bind _ (keeps_callSetTsf c vif _) fun _ => ?_
    exact keeps_release_bind (keeps_release_bind fun _ => rfl)

theorem keeps_applyAdjustment (threshold : UInt32) (adj : Uapi.TsfAdjustment) :
    Keeps (Allowed outer) [.cards] (applyAdjustment findByIndex threshold adj) [.cards] := by
  unfold applyAdjustment
  split
  · exact keeps_modify_bind rfl
  refine keeps_read_bind fun cards => ?_
  cases findByIndex cards adj.cardIndex with
  | none => exact rfl
  | some c => exact keeps_adjustCard c _

theorem keeps_chardevWrite (mem : UserMem) (buf : List UInt8) :
    Keeps (Allowed outer) [] (tsfSyncChardevWrite mem buf) [] := by
  refine keeps_read_bind fun threshold => ?_
  dsimp only
  split
  · exact rfl
  split
  · exact rfl
  split
  · exact rfl
  split
  · exact rfl
  refine keeps_acquire_bind (by simp) (allowed_nil _) ?_
  exact keeps_bind _ (keeps_forM fun adj _ => keeps_applyAdjustment threshold adj) fun _ => keeps_release_bind rfl

/-! ## The notifier -/

section Notifier

variable {H : List LockId} (hH : ∀ h ∈ H, outer h ∧ ∃ w, h = .wiphy w)

include hH

theorem cards_allowed : LockId.cards ∉ H ∧ Allowed outer H .cards :=
  ⟨fun h => (by obtain ⟨-, w, hw⟩ := hH _ h; cases hw), fun h hh => Or.inl (hH h hh).1⟩

theorem card_allowed (c : CardPtr) : LockId.card c ∉ .cards :: H ∧ Allowed outer (.cards :: H) (.card c) := by
  refine ⟨fun h => ?_, fun h hh => ?_⟩
  · rcases List.mem_cons.mp h with h | h
    · cases h
    · obtain ⟨-, w, hw⟩ := hH _ h
      cases hw
  · rcases List.mem_cons.mp hh with rfl | hh
    · exact Or.inr Nat.zero_lt_one
    · exact Or.inl (hH h hh).1

/-- A look at the card of a wiphy, and perhaps a write to it. -/
theorem keeps_setVifIf (w : WiphyId) (cond : Card → Bool) (f : Card → Card) :
    Keeps (Allowed outer) H (do
      mutexLock .cards
      let card ← findCardByWiphyLocked w
      match card with
      | none => mutexUnlock .cards
      | some card =>
        mutexLock (.card card)
        let k ← readCard card
        if cond k then
          writeCard card f
        mutexUnlock (.card card)
        mutexUnlock .cards : KProg Unit) H := by
  have hc := cards_allowed hH
  refine keeps_acquire_bind hc.1 hc.2 (keeps_read_bind fun card => ?_)
  cases card with
  | none => exact keeps_release _
  | some c =>
    have hd := card_allowed hH c
    refine keeps_acquire_bind hd.1 hd.2 (keeps_read_bind fun k => ?_)
    dsimp only
    split
    · exact keeps_modify_bind (keeps_release_bind (keeps_release _))
    · exact keeps_release_bind (keeps_release _)

theorem keeps_captureVif (w : WiphyId) (dev : NetDev) : Keeps (Allowed outer) H (captureVif w dev) H :=
  keeps_setVifIf hH w (fun k => k.vif.isNone) _

theorem keeps_releaseVif (w : WiphyId) (dev : NetDev) : Keeps (Allowed outer) H (releaseVif w dev) H :=
  keeps_setVifIf hH w (fun k => k.vif == some dev.id) _

theorem keeps_probe (env : ProbeEnv) {w : WiphyId} (loc : Local w) :
    Keeps (Allowed outer) H (tsfPtpProbe env loc) H := by
  have hc := cards_allowed hH
  unfold tsfPtpProbe
  split
  · exact rfl
  refine keeps_acquire_bind hc.1 hc.2 (keeps_read_bind fun existing => ?_)
  split
  · exact keeps_release_bind rfl
  refine keeps_release_bind (keeps_read_bind fun mem => ?_)
  cases mem with
  | none => exact rfl
  | some card =>
    refine keeps_modify_bind ?_
    cases env.ptpClockRegister with
    | error e => exact rfl
    | ok u => exact keeps_acquire_bind hc.1 hc.2 (keeps_modify_bind (keeps_release_bind rfl))

theorem keeps_hotplugProbe (env : ProbeEnv) (w : WiphyId) :
    Keeps (Allowed outer) H (tsfPtpTryHotplugProbe env w) H := by
  have hc := cards_allowed hH
  refine keeps_acquire_bind hc.1 hc.2 (keeps_read_bind fun tracked => ?_)
  split
  · exact keeps_release _
  refine keeps_release_bind (keeps_read_bind fun loc => ?_)
  cases loc with
  | none => exact rfl
  | some loc => exact keeps_bind _ (keeps_probe hH env loc) fun _ => rfl

theorem keeps_hotplugRemove (w : WiphyId) : Keeps (Allowed outer) H (tsfPtpTryHotplugRemove w) H := by
  have hc := cards_allowed hH
  refine keeps_read_bind fun still => ?_
  split
  · exact rfl
  refine keeps_acquire_bind hc.1 hc.2 (keeps_read_bind fun card => ?_)
  cases card with
  | none => exact keeps_release _
  | some c => exact keeps_modify_bind (keeps_release _)

theorem keeps_netdevEvent (env : ProbeEnv) (event : NetdevEvent) (dev : NetDev) :
    Keeps (Allowed outer) H (tsfPtpNetdevEvent env event dev) H := by
  unfold tsfPtpNetdevEvent
  split
  · exact rfl
  split
  · exact rfl
  cases event with
  | register => exact keeps_hotplugProbe hH env _
  | up => exact keeps_captureVif hH _ dev
  | down => exact keeps_releaseVif hH _ dev
  | unregister => exact keeps_bind _ (keeps_releaseVif hH _ dev) fun _ => keeps_hotplugRemove hH _
  | other => exact rfl

end Notifier

/-! ## Threads -/

/-- What a thread calls. -/
inductive Call
  | gettime (c : CardPtr)
  | settime (c : CardPtr) (ts : Timespec64)
  | adjtime (c : CardPtr) (deltaNs : Int64)
  | getcrosststamp (c : CardPtr)
  | syncWork
  | chardevRead (mem : UserMem) (count : Nat)
  | chardevWrite (mem : UserMem) (buf : List UInt8)
  | netdevEvent (env : ProbeEnv) (event : NetdevEvent) (dev : NetDev)

/-- cfg80211 delivers `NETDEV_REGISTER` and `NETDEV_UNREGISTER` of a wireless device with the lock of its wiphy held. -/
def deliver (env : ProbeEnv) (event : NetdevEvent) (dev : NetDev) : KProg Unit :=
  match dev.wiphy with
  | none => tsfPtpNetdevEvent env event dev
  | some w =>
    if event = .register ∨ event = .unregister then do
      mutexLock (.wiphy w)
      tsfPtpNetdevEvent env event dev
      mutexUnlock (.wiphy w)
    else tsfPtpNetdevEvent env event dev

/-- The code of a call. -/
def Call.prog : Call → KProg Unit
  | .gettime c => do let _ ← tsfPtpGettime c
  | .settime c ts => do let _ ← tsfPtpSettime c ts
  | .adjtime c deltaNs => do let _ ← tsfPtpAdjtime c deltaNs
  | .getcrosststamp c => do let _ ← tsfPtpGetcrosststamp c
  | .syncWork => tsfSyncWorkFn
  | .chardevRead mem count => do let _ ← tsfSyncChardevRead mem count
  | .chardevWrite mem buf => do let _ ← tsfSyncChardevWrite mem buf
  | .netdevEvent env event dev => deliver env event dev

/-- The wiphy of which a call delivers `NETDEV_REGISTER` or `NETDEV_UNREGISTER`, with the lock of the wiphy held. -/
def Call.delivers : Call → Option WiphyId
  | .netdevEvent _ event dev => if event = .register ∨ event = .unregister then dev.wiphy else none
  | _ => none

/-- A thread that makes one call after the other. -/
def thread (calls : List Call) : KProg Unit := forM calls Call.prog

/-- The lock of a wiphy of which one of the threads delivers such an event. -/
def Delivered {ι : Type} (calls : ι → List Call) (l : LockId) : Prop :=
  ∃ i, ∃ call ∈ calls i, ∃ w, call.delivers = some w ∧ l = .wiphy w

theorem keeps_deliver (env : ProbeEnv) (event : NetdevEvent) (dev : NetDev)
    (h : ∀ w, (Call.netdevEvent env event dev).delivers = some w → outer (.wiphy w)) :
    Keeps (Allowed outer) [] (deliver env event dev) [] := by
  have hnil : Keeps (Allowed outer) [] (tsfPtpNetdevEvent env event dev) [] :=
    keeps_netdevEvent (fun _ h => by cases h) env event dev
  unfold deliver
  cases hdev : dev.wiphy with
  | none => exact hnil
  | some w =>
    dsimp only
    split
    · rename_i hevent
      have hout : outer (.wiphy w) := h w (by rw [Call.delivers, if_pos hevent, hdev])
      have hw : ∀ h ∈ [LockId.wiphy w], outer h ∧ ∃ w, h = .wiphy w := by
        intro l hl
        rw [List.mem_singleton.mp hl]
        exact ⟨hout, w, rfl⟩
      exact keeps_acquire_bind (by simp) (allowed_nil _)
        (keeps_bind _ (keeps_netdevEvent hw env event dev) fun _ => keeps_release _)
    · exact hnil

/-- Every call keeps the order. -/
theorem keeps_call (call : Call) (h : ∀ w, call.delivers = some w → outer (.wiphy w)) :
    Keeps (Allowed outer) [] call.prog [] := by
  cases call with
  | gettime c => exact keeps_bind _ (keeps_gettime c) fun _ => rfl
  | settime c ts => exact keeps_bind _ (keeps_settime c ts) fun _ => rfl
  | adjtime c deltaNs => exact keeps_bind _ (keeps_adjtime c deltaNs) fun _ => rfl
  | getcrosststamp c => exact keeps_bind _ (keeps_getcrosststamp c) fun _ => rfl
  | syncWork => exact keeps_workFn
  | chardevRead mem count => exact keeps_bind _ (keeps_chardevRead mem count) fun _ => rfl
  | chardevWrite mem buf => exact keeps_bind _ (keeps_chardevWrite mem buf) fun _ => rfl
  | netdevEvent env event dev => exact keeps_deliver env event dev h

/-- **No circular wait**: any number of threads under any schedule come to no circular wait, if for every wiphy of which
one of them delivers `NETDEV_REGISTER` or `NETDEV_UNREGISTER`, at each step

* a thread that holds a lock, so a function that has taken a `card->lock`, comes to its request for the lock of the wiphy
  only where that is free or its holder gives it back before asking for another;
* a thread takes the lock of the wiphy without giving it back before asking for another, so to call a handler, only where
  no thread that holds a lock asks for it. -/
theorem no_circular_wait {ι : Type} [DecidableEq ι] (calls : ι → List Call) (s : Kernel) (sched : List ι)
    {c : Pool ι Kernel LockId} (hrun : Pool.runs sched (.start (fun i => thread (calls i)) s) = some c)
    (horder : StepSystem.EveryStep (fun i c => c.step i) (Pool.InOrder (Delivered calls)) sched
      (.start (fun i => thread (calls i)) s)) : ¬c.CircularWait := by
  have hcall : ∀ i, ∀ call ∈ calls i, Keeps (Allowed (Delivered calls)) [] call.prog [] := fun i call hmem =>
    keeps_call call fun w hw => ⟨i, call, hmem, w, hw, rfl⟩
  have hstart : Disciplined (Allowed (Delivered calls)) (Pool.start (fun i => thread (calls i)) s) :=
    disciplined_start (fun i => keeps_forM (hcall i)) s
  have hrank : ∀ l, lockRank l < 3 := fun l => by cases l <;> simp [lockRank]
  have hapart := (Pool.apart_start (Delivered calls) (fun i => thread (calls i)) s).runs horder hrun
  exact not_circularWait lockRank 3 (Delivered calls) hrank (fun H l h => h) (hstart.runs hrun) hapart

/-- `gettime` of a card and the removal of another device of its wiphy. -/
def readerAndRemover (i : Bool) : List Call :=
  if i then [.netdevEvent .unused .unregister (.wlan 1 0 0 false)] else [.gettime (.card 0)]

/-- `gettime` has given the wiphy lock back when the handler is called; the handler waits for it, and it for nobody. -/
theorem no_circular_wait_run : ∃ c : Pool Bool Kernel LockId,
    Pool.runs (List.replicate 6 false ++ List.replicate 3 true)
      (.start (fun i => thread (readerAndRemover i)) (.withCards [.upWith 0 100])) = some c ∧
    c.WaitsFor true (.card (.card 0)) false ∧ ¬c.CircularWait := by
  refine ⟨_, rfl, ⟨⟨_, rfl⟩, rfl⟩, ?_⟩
  refine no_circular_wait readerAndRemover (.withCards [.upWith 0 100])
    (List.replicate 6 false ++ List.replicate 3 true) rfl ?_
  -- while `gettime` runs the handler holds nothing; then `gettime` asks for no wiphy lock, the handler for its first only
  have hquiet : ∀ {c : Pool Bool Kernel LockId}, (∀ w, ¬c.Asks false (.wiphy w)) →
      (∀ c' w, c.step true = some c' → ¬c'.Asks true (.wiphy w)) → c.InOrder (Delivered readerAndRemover) true := by
    intro c hother hnext
    constructor
    · rintro c' o ⟨-, -, -, w, -, rfl⟩ h - hasks
      exact absurd hasks (hnext c' w h)
    · rintro o k ⟨-, -, -, w, -, rfl⟩ -
      refine .inr fun j hj _ => ?_
      cases j with
      | false => exact hother w
      | true => exact absurd rfl hj
  refine Pool.everyStep_alone 6 (by rintro j - ⟨l, ⟨⟩⟩) ?_
  rintro c₆ ⟨⟩ c₇ ⟨⟩
  refine ⟨hquiet ?_ ?_, ?_⟩
  · rintro w ⟨k, ⟨⟩⟩
  · rintro c' w ⟨⟩ ⟨k, ⟨⟩⟩
  rintro c₈ ⟨⟩
  refine ⟨hquiet ?_ ?_, ?_⟩
  · rintro w ⟨k, ⟨⟩⟩
  · rintro c' w ⟨⟩ ⟨k, ⟨⟩⟩
  rintro c₉ ⟨⟩
  refine ⟨hquiet ?_ ?_, trivial⟩
  · rintro w ⟨k, ⟨⟩⟩
  · rintro c' w ⟨⟩ ⟨k, ⟨⟩⟩

/-- `gettime` of a card with a VIF runs up to its request for the wiphy lock, then another device of the wiphy is
unregistered: each waits for the other. -/
theorem gettime_unregister_counterexample : ∃ c : Pool Bool Kernel LockId,
    Pool.runs [false, false, true, true, true]
      (.start (fun i => thread (if i then [.netdevEvent .unused .unregister (.wlan 1 0 0 false)]
        else [.gettime (.card 0)])) (.withCards [.upWith 0 100])) = some c ∧ c.CircularWait := by
  refine ⟨_, rfl, Set.univ, ⟨true, trivial⟩, fun i _ => ?_⟩
  cases i with
  | false => exact ⟨⟨.card (.card 0), rfl⟩, .wiphy 0, true, trivial, by decide, ⟨_, rfl⟩, rfl⟩
  | true => exact ⟨⟨.wiphy 0, rfl⟩, .card (.card 0), false, trivial, by decide, ⟨_, rfl⟩, rfl⟩

end TsfSync
