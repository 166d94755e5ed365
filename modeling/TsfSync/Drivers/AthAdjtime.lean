import TsfSync.Kernel.ClockLaws

/-!
# Adjusting the clocks of ath10k and ath11k

`ath10k_ptp_adjtime` and `ath11k_ptp_adjtime` send the firmware one command with the delta in microseconds, as a `u32`.
The one of ath10k has a command for either direction but returns 0 whatever becomes of it; the one of ath11k returns what
WMI returns, but its only command cannot move the clock back. A call is its return value and the commands that it sent,
each with the result of WMI; the firmware has accepted those with the result 0. The ids of vdevs are small, so that the
`int` and `u32` of the source hold them alike.
-/

namespace TsfSync.Drivers

open TsfSync MachineWord

/-- `ENODEV`. -/
def enodev : Int32 := 19

/-- The vdev parameters for the TSF: `inc_tsf` and `dec_tsf` of ath10k, `WMI_VDEV_PARAM_TSF_INCREMENT` of ath11k. -/
inductive VdevParam
  | incTsf
  | decTsf
  | tsfIncrement
  deriving DecidableEq, Repr

/-- A command that sets a parameter of a vdev. -/
structure SetParam where
  vdevId : Nat
  param : VdevParam
  value : UInt32
  deriving DecidableEq, Repr

/-- What the firmware adds to the 64-bit TSF of the vdev. -/
def SetParam.amount (cmd : SetParam) : Int :=
  match cmd.param with
  | .incTsf => cmd.value.toNat
  | .decTsf => -cmd.value.toNat
  | .tsfIncrement => cmd.value.toNat

@[simp] theorem amount_incTsf (vdevId : Nat) (value : UInt32) : (SetParam.mk vdevId .incTsf value).amount = value.toNat :=
  rfl

@[simp] theorem amount_decTsf (vdevId : Nat) (value : UInt32) : (SetParam.mk vdevId .decTsf value).amount = -value.toNat :=
  rfl

@[simp] theorem amount_tsfIncrement (vdevId : Nat) (value : UInt32) :
    (SetParam.mk vdevId .tsfIncrement value).amount = value.toNat := rfl

/-- A call of `adjtime`: what it returns, and the commands that it sent with their results. -/
structure AdjtimeCall where
  ret : Int32
  sent : List (SetParam × Int32)
  deriving DecidableEq, Repr

/-- The commands that the firmware has accepted. -/
def AdjtimeCall.accepted (call : AdjtimeCall) : List SetParam :=
  (call.sent.filter fun cmd => cmd.2 = 0).map Prod.fst

/-- The microseconds that a delta asks for. -/
def requested (deltaNs : Int64) : Int := deltaNs.toInt.tdiv 1000

theorem toInt_div_nsecPerUsec (deltaNs : Int64) : (deltaNs / nsecPerUsec).toInt = requested deltaNs :=
  Int64.toInt_div_of_ne_right _ _ (by decide)

theorem requested_range (deltaNs : Int64) : -2 ^ 63 < requested deltaNs ∧ requested deltaNs < 2 ^ 63 := by
  have hr := toInt_range deltaNs
  have habs : (requested deltaNs).natAbs = deltaNs.toInt.natAbs / 1000 := Int.natAbs_tdiv ..
  omega

@[simp] theorem accepted_nil (ret : Int32) : (AdjtimeCall.mk ret []).accepted = [] := rfl

theorem accepted_of_ok (ret : Int32) (cmd : SetParam) : (AdjtimeCall.mk ret [(cmd, 0)]).accepted = [cmd] := rfl

theorem accepted_of_error (ret : Int32) (cmd : SetParam) {wmi : Int32} (h : wmi ≠ 0) :
    (AdjtimeCall.mk ret [(cmd, wmi)]).accepted = [] := by simp [AdjtimeCall.accepted, h]

/-! ## ath10k -/

/-- The direction and the magnitude of a delta, as `ath10k_ptp_adjtime` splits it. -/
def adjtimeDirection (deltaUsec : Int64) : VdevParam × UInt32 :=
  if deltaUsec < 0 then (.decTsf, truncU32 (-deltaUsec)) else (.incTsf, truncU32 deltaUsec)

/-- `ath10k_ptp_adjtime`, where `wmi` is what `ath10k_wmi_vdev_set_param` returns. -/
def ath10kPtpAdjtime (ptpVdevId : Int) (arvifs : List Nat) (wmi : Int32) (deltaNs : Int64) : AdjtimeCall :=
  let deltaUsec := deltaNs / nsecPerUsec
  if deltaUsec = 0 then ⟨0, []⟩
  else
    let (vdevParam, absDelta) := adjtimeDirection deltaUsec
    if ptpVdevId < 0 then ⟨-enodev, []⟩
    else
      match arvifs.find? fun vdevId : Nat => (vdevId : Int) = ptpVdevId with
      | some vdevId => ⟨0, [(⟨vdevId, vdevParam, absDelta⟩, wmi)]⟩
      | none => ⟨0, []⟩

/-- A call that returns 0 had nothing to do, or the firmware has accepted exactly one command, for what was asked. -/
def AdjtimeCall.Honest (deltaNs : Int64) (call : AdjtimeCall) : Prop :=
  call.ret = 0 → requested deltaNs = 0 ∨ ∃ cmd, call.accepted = [cmd] ∧ cmd.amount = requested deltaNs

/-- The command moves the TSF by what was asked if that has 32 bits. -/
theorem amount_direction_iff (vdevId : Nat) (deltaNs : Int64) :
    (SetParam.mk vdevId (adjtimeDirection (deltaNs / nsecPerUsec)).1 (adjtimeDirection (deltaNs / nsecPerUsec)).2).amount =
      requested deltaNs ↔ |requested deltaNs| < 2 ^ 32 := by
  have hdiv := toInt_div_nsecPerUsec deltaNs
  have hr := requested_range deltaNs
  unfold adjtimeDirection
  split
  · rename_i hneg
    rw [Int64.lt_iff_toInt_lt, Int64.toInt_zero, hdiv] at hneg
    have hminus : (-(deltaNs / nsecPerUsec)).toInt = -requested deltaNs := by
      rw [toInt_neg_of_gt (by omega), hdiv]
    have htrunc := toNat_truncU32_eq_iff (d := -(deltaNs / nsecPerUsec)) (by omega)
    rw [hminus] at htrunc
    rw [abs_of_neg hneg, ← htrunc, amount_decTsf]
    exact neg_eq_iff_eq_neg
  · rename_i hpos
    rw [Int64.lt_iff_toInt_lt, Int64.toInt_zero, hdiv] at hpos
    have htrunc := toNat_truncU32_eq_iff (d := deltaNs / nsecPerUsec) (by omega)
    rw [hdiv] at htrunc
    rw [abs_of_nonneg (by omega), ← htrunc, amount_incTsf]

theorem div_eq_zero_iff (deltaNs : Int64) : deltaNs / nsecPerUsec = 0 ↔ requested deltaNs = 0 := by
  rw [← Int64.toInt_inj, toInt_div_nsecPerUsec, Int64.toInt_zero]

section

variable {ptpVdevId : Int} {arvifs : List Nat} {deltaNs : Int64} (wmi : Int32)

/-- With no vdev set there is no device. -/
theorem ath10kPtpAdjtime_of_unset (hdelta : requested deltaNs ≠ 0) (hid : ptpVdevId < 0) :
    ath10kPtpAdjtime ptpVdevId arvifs wmi deltaNs = ⟨-enodev, []⟩ := by
  rw [ath10kPtpAdjtime, if_neg (mt (div_eq_zero_iff deltaNs).mp hdelta)]
  exact if_pos hid

/-- A vdev that is set and does not exist gets no command, and the call returns 0. -/
theorem ath10kPtpAdjtime_of_missing (hdelta : requested deltaNs ≠ 0) (hid : ¬ptpVdevId < 0)
    (hmissing : ¬∃ vdevId ∈ arvifs, (vdevId : Int) = ptpVdevId) :
    ath10kPtpAdjtime ptpVdevId arvifs wmi deltaNs = ⟨0, []⟩ := by
  have hfind : arvifs.find? (fun vdevId : Nat => decide ((vdevId : Int) = ptpVdevId)) = none := by
    apply List.find?_eq_none.mpr
    intro vdevId hmem hsame
    exact hmissing ⟨vdevId, hmem, of_decide_eq_true hsame⟩
  rw [ath10kPtpAdjtime, if_neg (mt (div_eq_zero_iff deltaNs).mp hdelta)]
  simp only [if_neg hid, hfind]

/-- A vdev that is set and exists gets the one command, and the call returns 0. -/
theorem ath10kPtpAdjtime_of_named (hdelta : requested deltaNs ≠ 0)
    (hnamed : ∃ vdevId ∈ arvifs, (vdevId : Int) = ptpVdevId) : ∃ vdevId ∈ arvifs,
    ath10kPtpAdjtime ptpVdevId arvifs wmi deltaNs =
      ⟨0, [(⟨vdevId, (adjtimeDirection (deltaNs / nsecPerUsec)).1, (adjtimeDirection (deltaNs / nsecPerUsec)).2⟩, wmi)]⟩ := by
  obtain ⟨known, hknown, hsame⟩ := hnamed
  have hid : ¬ptpVdevId < 0 := by omega
  rw [ath10kPtpAdjtime, if_neg (mt (div_eq_zero_iff deltaNs).mp hdelta)]
  simp only [if_neg hid]
  cases hfind : arvifs.find? fun vdevId : Nat => decide ((vdevId : Int) = ptpVdevId) with
  | none => exact absurd (decide_eq_true hsame) (List.find?_eq_none.mp hfind known hknown)
  | some vdevId => exact ⟨vdevId, List.mem_of_find?_eq_some hfind, rfl⟩

end

/-- **`ath10k_ptp_adjtime` returns 0 for what it has done only, if and only if** less than a microsecond is asked for, no
vdev is set, or the vdev that is set exists, WMI takes the command and the microseconds have 32 bits. -/
theorem ath10kPtpAdjtime_honest_iff (ptpVdevId : Int) (arvifs : List Nat) (wmi : Int32) (deltaNs : Int64) :
    (ath10kPtpAdjtime ptpVdevId arvifs wmi deltaNs).Honest deltaNs ↔
      requested deltaNs = 0 ∨ ptpVdevId < 0 ∨
        (∃ vdevId ∈ arvifs, (vdevId : Int) = ptpVdevId) ∧ wmi = 0 ∧ |requested deltaNs| < 2 ^ 32 := by
  by_cases hdelta : requested deltaNs = 0
  · exact iff_of_true (fun _ => Or.inl hdelta) (Or.inl hdelta)
  rw [or_iff_right hdelta]
  by_cases hid : ptpVdevId < 0
  · rw [ath10kPtpAdjtime_of_unset wmi hdelta hid]
    refine iff_of_true ?_ (Or.inl hid)
    intro hret
    exact absurd hret (by decide)
  rw [or_iff_right hid, AdjtimeCall.Honest, or_iff_right hdelta]
  by_cases hnamed : ∃ vdevId ∈ arvifs, (vdevId : Int) = ptpVdevId
  · rw [and_iff_right hnamed]
    obtain ⟨vdevId, -, hcall⟩ := ath10kPtpAdjtime_of_named wmi hdelta hnamed
    rw [hcall, ← amount_direction_iff vdevId]
    by_cases hwmi : wmi = 0
    · subst hwmi
      rw [and_iff_right rfl, accepted_of_ok]
      constructor
      · intro h
        obtain ⟨cmd, hcmd, hamount⟩ := h rfl
        rw [List.singleton_inj.mp hcmd]
        exact hamount
      · intro hamount _
        exact ⟨_, rfl, hamount⟩
    · rw [accepted_of_error 0 _ hwmi]
      refine iff_of_false (fun h => ?_) fun h => hwmi h.1
      obtain ⟨cmd, hcmd, -⟩ := h rfl
      cases hcmd
  · rw [ath10kPtpAdjtime_of_missing wmi hdelta hid hnamed]
    refine iff_of_false (fun h => ?_) fun h => hnamed h.1
    obtain ⟨cmd, hcmd, -⟩ := h rfl
    cases hcmd

/-- The firmware has no command to move the TSF: the call returns 0 all the same. -/
theorem ath10kPtpAdjtime_counterexample : (ath10kPtpAdjtime 0 [0] (-95) 1000).ret = 0 ∧
    ¬(ath10kPtpAdjtime 0 [0] (-95) 1000).Honest 1000 := by
  refine ⟨rfl, fun h => ?_⟩
  obtain hzero | ⟨cmd, hcmd, -⟩ := h rfl
  · exact absurd hzero (by decide)
  · cases hcmd

/-! ## ath11k -/

/-- The part of `struct ath11k_vif` that `ath11k_ptp_find_vdev` reads. -/
structure Ath11kVif where
  vdevId : Nat
  isStarted : Bool
  deriving DecidableEq, Repr

/-- `ath11k_ptp_find_vdev`. -/
def ath11kPtpFindVdev (arvifs : List Ath11kVif) : Int :=
  match arvifs.find? Ath11kVif.isStarted with
  | some arvif => arvif.vdevId
  | none => -1

/-- `ath11k_ptp_adjtime`, where `wmi` is what `ath11k_wmi_vdev_set_param_cmd` returns. -/
def ath11kPtpAdjtime (arvifs : List Ath11kVif) (wmi : Int32) (deltaNs : Int64) : AdjtimeCall :=
  let deltaUs := deltaNs / nsecPerUsec
  let vdevId := ath11kPtpFindVdev arvifs
  if vdevId < 0 then ⟨-enodev, []⟩
  else ⟨wmi, [(⟨vdevId.toNat, .tsfIncrement, truncU32 deltaUs⟩, wmi)]⟩

/-- A delta that an unsigned 32-bit increment can express. -/
def Expressible (deltaNs : Int64) : Prop := 0 ≤ requested deltaNs ∧ requested deltaNs < 2 ^ 32

/-- A call that returns 0 has incremented the TSF by what was asked, and one for a delta that no increment expresses
returns an error and changes nothing. -/
structure AdjtimeCall.MovesAsAsked (deltaNs : Int64) (call : AdjtimeCall) : Prop where
  moved : call.ret = 0 → ∃ cmd, call.accepted = [cmd] ∧ cmd.amount = requested deltaNs
  rejected : ¬Expressible deltaNs → call.ret ≠ 0 ∧ call.accepted = []

/-- Where a vdev is started, the first one is found. -/
theorem ath11kPtpFindVdev_of_started {arvifs : List Ath11kVif} (h : ∃ arvif ∈ arvifs, arvif.isStarted = true) :
    ∃ arvif ∈ arvifs, arvif.isStarted = true ∧ ath11kPtpFindVdev arvifs = arvif.vdevId := by
  cases hfind : arvifs.find? Ath11kVif.isStarted with
  | none =>
    obtain ⟨arvif, hmem, hstarted⟩ := h
    exact absurd hstarted (List.find?_eq_none.mp hfind arvif hmem)
  | some arvif =>
    refine ⟨arvif, List.mem_of_find?_eq_some hfind, List.find?_some hfind, ?_⟩
    rw [ath11kPtpFindVdev, hfind]

/-- The increment is what was asked exactly if that is expressible. -/
theorem amount_increment_iff (vdevId : Nat) (deltaNs : Int64) :
    (SetParam.mk vdevId .tsfIncrement (truncU32 (deltaNs / nsecPerUsec))).amount = requested deltaNs ↔
      Expressible deltaNs := by
  have htrunc := toNat_truncU32 (deltaNs / nsecPerUsec)
  rw [toInt_div_nsecPerUsec] at htrunc
  rw [amount_tsfIncrement, Expressible]
  omega

/-- **With a vdev started `ath11k_ptp_adjtime` moves the clock as asked if and only if** WMI refuses the command, or the
delta is not negative and less than `2^32` microseconds. -/
theorem ath11kPtpAdjtime_moves_iff {arvifs : List Ath11kVif} (h : ∃ arvif ∈ arvifs, arvif.isStarted = true) (wmi : Int32)
    (deltaNs : Int64) :
    (ath11kPtpAdjtime arvifs wmi deltaNs).MovesAsAsked deltaNs ↔ wmi ≠ 0 ∨ Expressible deltaNs := by
  obtain ⟨arvif, -, -, hfind⟩ := ath11kPtpFindVdev_of_started h
  have hfound : ¬ath11kPtpFindVdev arvifs < 0 := by rw [hfind]; omega
  rw [ath11kPtpAdjtime]
  simp only [if_neg hfound]
  by_cases hwmi : wmi = 0
  · subst hwmi
    rw [or_iff_right (not_not.mpr rfl), ← amount_increment_iff (ath11kPtpFindVdev arvifs).toNat]
    constructor
    · intro hmoves
      obtain ⟨cmd, hcmd, hamount⟩ := hmoves.moved rfl
      rw [accepted_of_ok, List.singleton_inj] at hcmd
      rw [hcmd]
      exact hamount
    · intro hamount
      exact ⟨fun _ => ⟨_, accepted_of_ok 0 _, hamount⟩, fun hnot => absurd ((amount_increment_iff _ deltaNs).mp hamount) hnot⟩
  · exact iff_of_true ⟨fun hret => absurd hret hwmi, fun _ => ⟨hwmi, accepted_of_error wmi _ hwmi⟩⟩ (Or.inl hwmi)

/-- A second forward with one vdev started. -/
theorem ath11kPtpAdjtime_moves_second : (ath11kPtpAdjtime [⟨0, false⟩, ⟨3, true⟩] 0 1000000000).MovesAsAsked 1000000000 :=
  (ath11kPtpAdjtime_moves_iff ⟨⟨3, true⟩, by decide, rfl⟩ 0 1000000000).mpr
    (Or.inr ⟨by decide, by decide⟩)

/-- A microsecond back moves the clock more than 71 minutes forward, and the call returns 0. -/
theorem ath11kPtpAdjtime_counterexample :
    (ath11kPtpAdjtime [⟨0, true⟩] 0 (-1000)).accepted = [⟨0, .tsfIncrement, 4294967295⟩] ∧
      ¬(ath11kPtpAdjtime [⟨0, true⟩] 0 (-1000)).MovesAsAsked (-1000) := by
  refine ⟨by decide, fun h => ?_⟩
  have hrejected := (h.rejected fun he => absurd he.1 (by decide)).1
  exact hrejected rfl

end TsfSync.Drivers
