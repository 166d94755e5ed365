import TsfSync.Drivers.Ath10k
import TsfSync.Lib.Monitor

/-!
# Fresh TSF values of ath10k

`ath10k_ptp_gettime64` always returns 0, also when its request was refused, timed out or never sent. Such a call has no
value to report; and one that timed out leaves a request with the firmware, whose event may complete a later call
(`stale_counterexample`). While no call lacked a vdev, was refused or timed out, though, no request is left over when
`conf_mutex` is free (`Quiet`), so the only event that can complete a call is the one for its own request (`Waiting`).
Hence under every schedule all calls are fresh exactly when none of them lacked a vdev, was refused or timed out
(`fresh_iff_inTime`).
-/

namespace TsfSync.Drivers

open TsfSync LockProg Relation

/-- The request was sent and accepted, and the wait for its answer did not time out. -/
def Sent.InTime : Sent → Prop
  | .noVdev => False
  | .refused _ => False
  | .timedOut _ => False
  | .completed _ => True

instance : DecidablePred Sent.InTime
  | .noVdev => inferInstanceAs (Decidable False)
  | .refused _ => inferInstanceAs (Decidable False)
  | .timedOut _ => inferInstanceAs (Decidable False)
  | .completed _ => inferInstanceAs (Decidable True)

/-- A call that returns 0 reports the answer to its own request; one whose request failed or timed out returns an
error. -/
structure GettimeCall.Fresh (answers : List (Nat × UInt64)) (call : GettimeCall) : Prop where
  value : call.ret = 0 → ∃ req tsf, call.sent = .completed req ∧ (req, tsf) ∈ answers ∧ call.ts = timeOfTsf tsf
  error : ¬call.sent.InTime → call.ret ≠ 0

namespace Ath10k

variable (ar : Ath10k)

/-- Every finished call is fresh. -/
def AllFresh : Prop := ∀ call ∈ ar.calls, call.Fresh ar.answers

/-- No finished call lacked a vdev, was refused or timed out. -/
def AllInTime : Prop := ∀ call ∈ ar.calls, call.sent.InTime

/-- No request is left with the firmware, and no event is being handled. -/
def Quiet : Prop := ar.outstanding = [] ∧ ar.answering = []

/-- A request has its answer, and it is the only one. -/
def Got (req : Nat) (tsf : UInt64) : Prop := ar.Quiet ∧ (req, tsf) ∈ ar.answers

/-- The only request left is the given one: not answered yet, its event being handled, or answered. -/
def Waiting (req : Nat) : Prop :=
  (ar.outstanding = [req] ∧ ar.answering = [] ∧ ar.tsfReadComplete = 0) ∨
  (ar.outstanding = [] ∧ ar.answering = [req] ∧ ar.tsfReadComplete = 0 ∧ (req, ar.tsfReadValue) ∈ ar.answers) ∨
  ar.Got req ar.tsfReadValue

/-- The requests that the firmware accepted, answered or not, are distinct. -/
structure Tracked : Prop where
  nodup : (ar.outstanding ++ ar.answers.map Prod.fst).Nodup
  lt : ∀ req ∈ ar.outstanding ++ ar.answers.map Prod.fst, req < ar.requests

end Ath10k

open Ath10k

/-! ## Steps without `conf_mutex` -/

/-- What happens without `conf_mutex`: nothing, one of the two halves of an event, or a change of the vdev. -/
inductive Outside (ar : Ath10k) : Ath10k → Prop
  | none : Outside ar ar
  | store {req : Nat} (tsf : UInt64) (h : req ∈ ar.outstanding) : Outside ar
      { ar with
        tsfReadValue := tsf
        outstanding := ar.outstanding.erase req
        answering := ar.answering ++ [req]
        answers := ar.answers ++ [(req, tsf)] }
  | complete {req : Nat} (h : req ∈ ar.answering) : Outside ar
      { ar.complete with answering := ar.answering.erase req }
  | setVdevId (id : Int32) : Outside ar { ar with ptpVdevId := id }

section Outside

variable {ar ar' : Ath10k} {req : Nat} {tsf : UInt64}

theorem outside_storeAnswer : Outside ar (storeAnswer req tsf ar) := by
  unfold storeAnswer
  split
  · rename_i h; exact .store tsf h
  · exact .none

theorem outside_completeAnswer : Outside ar (completeAnswer req ar) := by
  unfold completeAnswer
  split
  · rename_i h; exact .complete h
  · exact .none

namespace Outside

theorem calls (h : Outside ar ar') : ar'.calls = ar.calls := by
  cases h <;> rfl

theorem answers (h : Outside ar ar') : ar.answers ⊆ ar'.answers := by
  cases h with
  | store tsf h => exact List.subset_append_left _ _
  | none => exact List.Subset.refl _
  | complete h => exact List.Subset.refl _
  | setVdevId id => exact List.Subset.refl _

theorem quiet (h : Outside ar ar') (hq : ar.Quiet) : ar'.Quiet := by
  cases h with
  | none => exact hq
  | store tsf h => rw [hq.1] at h; cases h
  | complete h => rw [hq.2] at h; cases h
  | setVdevId id => exact hq

/-- With no request left nothing stores a value. -/
theorem tsfReadValue (h : Outside ar ar') (hq : ar.Quiet) : ar'.tsfReadValue = ar.tsfReadValue := by
  cases h with
  | none => rfl
  | store tsf h => rw [hq.1] at h; cases h
  | complete h => rfl
  | setVdevId id => rfl

/-- With no request left nothing completes a wait. -/
theorem tsfReadComplete (h : Outside ar ar') (hq : ar.Quiet) : ar'.tsfReadComplete = ar.tsfReadComplete := by
  cases h with
  | none => rfl
  | store tsf h => rfl
  | complete h => rw [hq.2] at h; cases h
  | setVdevId id => rfl

theorem got (h : Outside ar ar') (hg : ar.Got req tsf) : ar'.Got req tsf := ⟨h.quiet hg.1, h.answers hg.2⟩

/-- Only the event of the request itself can complete the wait for it. -/
theorem waiting (h : Outside ar ar') (hw : ar.Waiting req) : ar'.Waiting req := by
  rcases hw with ⟨hout, hans, hdone⟩ | ⟨hout, hans, hdone, hvalue⟩ | hgot
  · cases h with
    | none => exact .inl ⟨hout, hans, hdone⟩
    | store tsf h =>
      obtain rfl := List.mem_singleton.mp (hout ▸ h)
      refine .inr (.inl ⟨?_, ?_, hdone, List.mem_append_right _ List.mem_cons_self⟩)
      · show ar.outstanding.erase _ = []
        rw [hout, List.erase_cons_head]
      · show ar.answering ++ _ = _
        rw [hans, List.nil_append]
    | complete h => rw [hans] at h; cases h
    | setVdevId id => exact .inl ⟨hout, hans, hdone⟩
  · cases h with
    | none => exact .inr (.inl ⟨hout, hans, hdone, hvalue⟩)
    | store tsf h => rw [hout] at h; cases h
    | complete h =>
      obtain rfl := List.mem_singleton.mp (hans ▸ h)
      refine .inr (.inr ⟨⟨hout, ?_⟩, hvalue⟩)
      show ar.answering.erase _ = []
      rw [hans, List.erase_cons_head]
    | setVdevId id => exact .inr (.inl ⟨hout, hans, hdone, hvalue⟩)
  · have hg := h.got hgot
    rw [← h.tsfReadValue hgot.1] at hg
    exact .inr (.inr hg)

theorem tracked (h : Outside ar ar') (ht : ar.Tracked) : ar'.Tracked := by
  cases h with
  | none => exact ht
  | store tsf h =>
    rename_i req
    have hperm : (ar.outstanding.erase req ++ (ar.answers ++ [(req, tsf)]).map Prod.fst).Perm
        (ar.outstanding ++ ar.answers.map Prod.fst) := by
      rw [List.map_append, ← List.append_assoc]
      refine (List.perm_append_singleton req _).trans ?_
      exact (List.perm_cons_erase h).symm.append_right _
    exact ⟨hperm.nodup_iff.mpr ht.nodup, fun r hr => ht.lt r (hperm.subset hr)⟩
  | complete h => exact ⟨ht.nodup, ht.lt⟩
  | setVdevId id => exact ⟨ht.nodup, ht.lt⟩

end Outside

end Outside

/-! ## What `conf_mutex` protects -/

namespace Ath10k

/-- The requests are tracked, every call returned 0, and if all calls were in time they are fresh. -/
structure Safe (ar : Ath10k) : Prop where
  tracked : ar.Tracked
  ret : ∀ call ∈ ar.calls, call.ret = 0
  fresh : ar.AllInTime → ar.AllFresh

/-- With the mutex free, if all calls were in time nothing is left of them. -/
def Settled (ar : Ath10k) : Prop := ar.AllInTime → ar.Quiet

end Ath10k

section Protected

variable {ar ar' : Ath10k}

theorem Outside.allInTime_iff (h : Outside ar ar') : ar'.AllInTime ↔ ar.AllInTime := by
  rw [AllInTime, h.calls, AllInTime]

theorem GettimeCall.Fresh.mono {answers answers' : List (Nat × UInt64)} {call : GettimeCall} (h : call.Fresh answers)
    (hsub : answers ⊆ answers') : call.Fresh answers' :=
  ⟨fun hret =>
    let ⟨req, tsf, hsent, hmem, hts⟩ := h.value hret
    ⟨req, tsf, hsent, hsub hmem, hts⟩, h.error⟩

theorem Outside.safe (h : Outside ar ar') (hs : ar.Safe) : ar'.Safe := by
  refine ⟨h.tracked hs.tracked, h.calls ▸ hs.ret, fun hall call hcall => ?_⟩
  rw [h.calls] at hcall
  exact (hs.fresh (h.allInTime_iff.mp hall) call hcall).mono h.answers

/-- `conf_mutex`. -/
def confMutex : Monitor Ath10k Ath10kLock where
  lock := .confMutex
  env := Outside
  inv := Settled
  safe := Safe
  inv_env := fun hinv h hall => h.quiet (hinv (h.allInTime_iff.mp hall))
  safe_env := fun hs h => h.safe hs

/-- What only steps without the mutex came after still holds, if they keep it. -/
theorem still {P : Ath10k → Prop} (hP : ∀ ar ar', Outside ar ar' → P ar → P ar') (h : ar.AllInTime → P ar)
    (hs : ReflTransGen Outside ar ar') : ar'.AllInTime → P ar' :=
  keeps_env (M := confMutex) (P := fun ar => ar.AllInTime → P ar)
    (fun s s' hs hstep hall => hP s s' hstep (hs (hstep.allInTime_iff.mp hall))) h hs

end Protected

/-! ## A call -/

section Call

variable {wmi : Nat → Int32} {ar : Ath10k}

theorem tracked_request (ret : Int32) (h : ar.Tracked) : (ar.request ret).Tracked := by
  unfold request
  split
  · have hperm : (ar.outstanding ++ [ar.requests] ++ ar.answers.map Prod.fst).Perm
        (ar.requests :: (ar.outstanding ++ ar.answers.map Prod.fst)) :=
      (List.perm_append_singleton _ _).append_right _
    constructor
    · rw [hperm.nodup_iff, List.nodup_cons]
      exact ⟨fun hmem => Nat.lt_irrefl _ (h.lt _ hmem), h.nodup⟩
    · intro r hr
      rcases List.mem_cons.mp (hperm.subset hr) with rfl | hr
      · exact Nat.lt_succ_self _
      · exact Nat.lt_succ_of_lt (h.lt r hr)
  · exact ⟨h.nodup, fun r hr => Nat.lt_succ_of_lt (h.lt r hr)⟩

/-- A wait changes the count of the completion only. -/
theorem takeCompletion_eq (ar : Ath10k) : ∃ n, ar.takeCompletion = { ar with tsfReadComplete := n } := by
  unfold takeCompletion
  split
  · exact ⟨ar.tsfReadComplete, rfl⟩
  · exact ⟨_, rfl⟩

/-- The call has a value to report only if it is the answer to its own request. -/
def HasValue (tsf : UInt64) (sent : Sent) (ar : Ath10k) : Prop := ∀ req, sent = .completed req → ar.Got req tsf

/-- From the request on, the call gets the answer to its own request or none. -/
theorem guards_wait {req : Nat} (h : ar.AllInTime → ar.Waiting req) :
    Guards confMutex (fun known r => ∃ ar', known = some ar' ∧ (ar'.AllInTime → HasValue r.1 r.2 ar')) (some ar)
      (do
        let completed ← waitForCompletionTimeout
        if !completed then
          return (0, .timedOut req)
        let tsf ← Prog.read Ath10k.tsfReadValue
        return (tsf, .completed req)) := by
  refine guards_act fun ar₁ h₁ hsafe₁ => ?_
  obtain ⟨n, htake⟩ := takeCompletion_eq ar₁
  rw [htake]
  refine ⟨⟨⟨hsafe₁.tracked.nodup, hsafe₁.tracked.lt⟩, hsafe₁.ret, hsafe₁.fresh⟩, ?_⟩
  have hwait : ar₁.AllInTime → ar₁.Waiting req := still (fun _ _ => Outside.waiting) h h₁
  show Guards confMutex _ _ (if (!(ar₁.tsfReadComplete != 0)) = true then _ else _)
  split
  · exact guards_pure ⟨_, rfl, fun _ _ hreq => by cases hreq⟩
  · rename_i hdone
    have hne : ar₁.tsfReadComplete ≠ 0 := by simpa using hdone
    let waited : Ath10k := { ar₁ with tsfReadComplete := n }
    have hgot : waited.AllInTime → waited.Got req waited.tsfReadValue := by
      intro hall
      rcases hwait hall with ⟨-, -, h0⟩ | ⟨-, -, h0, -⟩ | hgot
      · exact absurd h0 hne
      · exact absurd h0 hne
      · exact hgot
    refine guards_read fun ar₂ h₂ => guards_pure ⟨ar₂, rfl, fun hall req' hreq => ?_⟩
    cases hreq
    refine still (P := fun ar => ar.Got req ar.tsfReadValue) (fun ar ar' hout hg => ?_) hgot h₂ hall
    rw [hout.tsfReadValue hg.1]
    exact hout.got hg

/-- Reading the TSF. -/
theorem guards_readTsf (h : ar.Settled) :
    Guards confMutex (fun known r => ∃ ar', known = some ar' ∧ (ar'.AllInTime → HasValue r.1 r.2 ar')) (some ar)
      (ath10kPtpReadTsf wmi) := by
  refine guards_read fun ar₁ h₁ => ?_
  split
  · exact guards_pure ⟨ar₁, rfl, fun _ req hreq => by cases hreq⟩
  · refine guards_modify fun ar₂ h₂ hsafe₂ => ⟨⟨⟨hsafe₂.tracked.nodup, hsafe₂.tracked.lt⟩, hsafe₂.ret, hsafe₂.fresh⟩, ?_⟩
    have hquiet : ar₂.AllInTime → ar₂.Quiet := still (fun _ _ => Outside.quiet) h (h₁.trans h₂)
    refine guards_act fun ar₃ h₃ hsafe₃ => ⟨⟨tracked_request _ hsafe₃.tracked, hsafe₃.ret, hsafe₃.fresh⟩, ?_⟩
    have hstart : ar₂.reinitCompletion.AllInTime →
        ar₂.reinitCompletion.Quiet ∧ ar₂.reinitCompletion.tsfReadComplete = 0 := fun hall => ⟨hquiet hall, rfl⟩
    have hready : ar₃.AllInTime → ar₃.Quiet ∧ ar₃.tsfReadComplete = 0 := by
      refine still (P := fun ar => ar.Quiet ∧ ar.tsfReadComplete = 0) (fun ar ar' hout hq => ?_) hstart h₃
      exact ⟨hout.quiet hq.1, (hout.tsfReadComplete hq.1).trans hq.2⟩
    show Guards confMutex _ _ (if wmi ar₃.requests ≠ 0 then _ else _)
    split
    · exact guards_pure ⟨_, rfl, fun _ req hreq => by cases hreq⟩
    · rename_i hret
      refine guards_wait fun hall => ?_
      obtain ⟨hq, hdone⟩ := hready hall
      refine .inl ⟨?_, hq.2, hdone⟩
      show (if wmi ar₃.requests = 0 then _ else _) = _
      rw [if_pos (not_not.mp hret), hq.1, List.nil_append]

theorem allInTime_finish {call : GettimeCall} : (ar.finish call).AllInTime ↔ ar.AllInTime ∧ call.sent.InTime := by
  show (∀ c ∈ ar.calls ++ [call], c.sent.InTime) ↔ _
  rw [List.forall_mem_append, List.forall_mem_singleton, AllInTime]

/-- A call in time has its answer, and nothing is left of it. -/
theorem got_of_hasValue {tsf : UInt64} {sent : Sent} (h : HasValue tsf sent ar) (hsent : sent.InTime) :
    ∃ req, sent = .completed req ∧ ar.Got req tsf := by
  cases sent with
  | completed req => exact ⟨req, rfl, h req rfl⟩
  | noVdev => cases hsent
  | refused ret => cases hsent
  | timedOut req => cases hsent

/-- A call with its answer may be finished: it is fresh, and nothing is left of it. -/
theorem finish_of_hasValue {tsf : UInt64} {sent : Sent} (hsafe : ar.Safe)
    (h : ar.AllInTime → HasValue tsf sent ar) :
    (ar.finish ⟨0, timeOfTsf tsf, sent⟩).Safe ∧ (ar.finish ⟨0, timeOfTsf tsf, sent⟩).Settled := by
  refine ⟨⟨⟨hsafe.tracked.nodup, hsafe.tracked.lt⟩, ?_, fun hall => ?_⟩, fun hall => ?_⟩
  · exact List.forall_mem_append.mpr ⟨hsafe.ret, List.forall_mem_singleton.mpr rfl⟩
  · obtain ⟨hold, hsent⟩ := allInTime_finish.mp hall
    obtain ⟨req, hreq, -, hmem⟩ := got_of_hasValue (h hold) hsent
    refine List.forall_mem_append.mpr ⟨hsafe.fresh hold, List.forall_mem_singleton.mpr ?_⟩
    exact ⟨fun _ => ⟨req, tsf, hreq, hmem, rfl⟩, fun hn => absurd hsent hn⟩
  · obtain ⟨hold, hsent⟩ := allInTime_finish.mp hall
    obtain ⟨req, -, hquiet, -⟩ := got_of_hasValue (h hold) hsent
    exact hquiet

theorem guards_gettime64 : Guards confMutex (fun known _ => known = none) none (ath10kPtpGettime64 wmi) := by
  refine guards_acquire (M := confMutex) fun ar₀ h₀ => guards_bind ((guards_readTsf h₀).mono ?_)
  rintro _ ⟨tsf, sent⟩ ⟨ar₁, rfl, hvalue⟩
  refine guards_modify fun ar₂ h₂ hsafe₂ => ?_
  have hvalue₂ : ar₂.AllInTime → HasValue tsf sent ar₂ :=
    still (fun _ _ hout hv req hreq => hout.got (hv req hreq)) hvalue h₂
  obtain ⟨hsafe, hsettled⟩ := finish_of_hasValue hsafe₂ hvalue₂
  exact ⟨hsafe, guards_release (M := confMutex) hsettled (guards_pure rfl)⟩

/-- A thread takes the mutex only to read the clock. -/
theorem guards_thread (ops : List Ath10kOp) : GuardsAll confMutex (ath10kThread wmi ops) := by
  refine guards_forM fun op _ => ?_
  cases op with
  | gettime64 =>
    refine guards_bind (guards_gettime64.mono ?_)
    rintro _ r rfl
    exact guards_pure rfl
  | tsfEvent req tsf =>
    refine guards_bind ((guards_modify_none fun _ => outside_storeAnswer).mono ?_)
    rintro _ _ rfl
    exact guards_modify_none fun _ => outside_completeAnswer
  | setVdevId id => exact guards_modify_none fun _ => .setVdevId id

end Call

/-! ## Runs -/

theorem safe_init : Ath10k.init.Safe := by
  refine ⟨⟨List.nodup_nil, fun _ h => ?_⟩, fun _ h => ?_, fun _ _ h => ?_⟩
  · cases h
  · cases h
  · cases h

theorem settled_init : Ath10k.init.Settled := fun _ => ⟨rfl, rfl⟩

/-- **Fresh values**: in every run of any threads that read the clock, handle responses and set the vdev, all calls so far
are fresh exactly when none of them lacked a vdev, was refused or timed out; no request is answered twice. -/
theorem fresh_iff_inTime {ι : Type} [DecidableEq ι] (wmi : Nat → Int32) (ops : ι → List Ath10kOp) (sched : List ι)
    (c : Pool ι Ath10k Ath10kLock)
    (hrun : (Pool.start (fun i => ath10kThread wmi (ops i)) Ath10k.init).runs sched = some c) :
    (c.state.AllFresh ↔ c.state.AllInTime) ∧ (c.state.answers.map Prod.fst).Nodup := by
  have hsafe : c.state.Safe :=
    (safe_runs (M := confMutex) (fun i => guards_thread (ops i)) safe_init settled_init hrun).1
  refine ⟨⟨fun hall call hcall => ?_, hsafe.fresh⟩, (List.nodup_append.mp hsafe.tracked.nodup).2.1⟩
  by_contra hn
  exact (hall call hcall).error hn (hsafe.ret call hcall)

/-- One thread sets the vdev and reads the clock twice, the other handles the response to each request: TSF 5 to the
first, TSF 7 to the second. -/
def twoReads (i : Bool) : List Ath10kOp :=
  if i then [.setVdevId 0, .gettime64, .gettime64] else [.tsfEvent 0 5, .tsfEvent 1 7]

/-- Both responses come in time. -/
theorem fresh_iff_inTime_two : ∃ (sched : List Bool) (c : Pool Bool Ath10k Ath10kLock),
    (Pool.start (fun i => ath10kThread (fun _ => 0) (twoReads i)) .init).runs sched = some c ∧
    c.state.calls = [⟨0, timeOfTsf 5, .completed 0⟩, ⟨0, timeOfTsf 7, .completed 1⟩] ∧ c.state.AllFresh := by
  let read : List Bool := List.replicate 4 true ++ [false, false] ++ List.replicate 4 true
  have hcalls : ((Pool.start (fun i => ath10kThread (fun _ => 0) (twoReads i)) Ath10k.init).runs
      (true :: (read ++ read))).map (·.state.calls) =
      some [⟨0, timeOfTsf 5, .completed 0⟩, ⟨0, timeOfTsf 7, .completed 1⟩] := by decide +kernel
  obtain ⟨c, hrun, hc⟩ := Option.map_eq_some_iff.mp hcalls
  refine ⟨_, c, hrun, hc, (fresh_iff_inTime _ twoReads _ c hrun).1.mpr ?_⟩
  rw [AllInTime, hc]
  decide

/-- The first read times out and still returns 0; its response comes during the second read, which reports it. -/
theorem stale_counterexample : ∃ (sched : List Bool) (c : Pool Bool Ath10k Ath10kLock),
    (Pool.start (fun i => ath10kThread (fun _ => 0) (twoReads i)) .init).runs sched = some c ∧
    c.state.answers = [(0, 5)] ∧
    c.state.calls = [⟨0, timeOfTsf 0, .timedOut 0⟩, ⟨0, timeOfTsf 5, .completed 1⟩] ∧
    ∀ call ∈ c.state.calls, ¬call.Fresh c.state.answers := by
  have hcalls : ((Pool.start (fun i => ath10kThread (fun _ => 0) (twoReads i)) Ath10k.init).runs
      (List.replicate 12 true ++ [false, false] ++ List.replicate 4 true)).map
        (fun c => (c.state.answers, c.state.calls)) =
      some ([(0, 5)], [⟨0, timeOfTsf 0, .timedOut 0⟩, ⟨0, timeOfTsf 5, .completed 1⟩]) := by decide +kernel
  obtain ⟨c, hrun, hc⟩ := Option.map_eq_some_iff.mp hcalls
  obtain ⟨hanswers, hc⟩ := Prod.mk.inj hc
  refine ⟨_, c, hrun, hanswers, hc, ?_⟩
  rw [hanswers, hc, List.forall_mem_cons, List.forall_mem_singleton]
  constructor
  · intro hfresh
    exact hfresh.error id rfl
  · intro hfresh
    obtain ⟨req, tsf, hsent, hmem, -⟩ := hfresh.value rfl
    cases hsent
    simp at hmem

end TsfSync.Drivers
