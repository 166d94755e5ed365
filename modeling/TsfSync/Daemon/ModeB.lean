import TsfSync.User.Daemon

/-!
# Does Mode B follow the primary that the daemon reports?

`start` selects the primary among the cards it discovers, and `find_primary_locked` selects it again in the kernel, by the
parameter `sync_primary` or as the first card of `cards_list`. All that links the two are the parameters of a load, and
the daemon loads the module only where a card needs it and it is not loaded yet. The two agree exactly when `StartsModeB`
holds (`modeB_agrees_iff`).
-/

namespace TsfSync

open User User.DaemonM LockProg FailingRun

/-! ## What the machine does -/

namespace ModuleParams

/-- The kernel reads one argument; `adjtime_threshold_ns` has to fit `unsigned int`. -/
def set (p : ModuleParams) : ParamArg → Option ModuleParams
  | .adjtimeThresholdNs v =>
    if v.toNat < 2 ^ 32 then some { p with adjtimeThresholdNs := UInt32.ofNat v.toNat } else none
  | .syncMode v => some { p with syncMode := v }
  | .syncPrimary v => some { p with syncPrimary := v }
  | .syncIntervalMs v => some { p with syncIntervalMs := v }

/-- The kernel reads the arguments of a load, and keeps the defaults of the others. -/
def parse (args : List ParamArg) : Option ModuleParams := args.foldlM set ModuleParams.default

end ModuleParams

/-- A module that has just been loaded with some arguments. -/
def Module.JustLoaded (args : List ParamArg) (m : Module) : Prop :=
  ∃ params netdevs wiphyPriv notifierEnv discoverEnv miscRegister, ModuleParams.parse args = some params ∧
    m = (Module.load params netdevs wiphyPriv).tsfPtpInit notifierEnv discoverEnv miscRegister

/-- What is documented of the commands that load a module, and of the machine while the daemon sleeps: `/proc/modules`
names the module if it is loaded; a command that succeeds has loaded it with its arguments, one that fails has not; and
the module runs on, with nobody writing a parameter. -/
structure User.Host.Documented {W : Type} (h : Host W) : Prop where
  procModules : ∀ w names, h.procModules w = .ok names → (moduleName ∈ names ↔ (h.module w).isSome = true)
  modprobe : ∀ args w, h.module w = none →
    if (h.modprobe args w).1 = .ok (.ok ()) then ∃ m, h.module (h.modprobe args w).2 = some m ∧ m.JustLoaded args
    else h.module (h.modprobe args w).2 = none
  insmod : ∀ args w, h.module w = none → (h.insmod args w).1 = .ok (.ok ()) →
    ∃ m, h.module (h.insmod args w).2 = some m ∧ m.JustLoaded args
  sleep : ∀ w m, h.module w = some m → ∃ as m', h.module (h.sleep w) = some m' ∧
    (∀ a ∈ as, ¬Module.Action.WritesParam a) ∧ StepSystem.runs Module.step as m = some m'

section Load

variable {W : Type} {h : Host W} {w w₁ : W} {thr : UInt64} {mode : SyncMode} {primary : Option Str}
  {interval : Option UInt32}

/-- The `sync_primary` that `load_tsf_ptp` passes; empty if it passes none. -/
def passedPrimary (primary : Option Str) : Str :=
  match primary with
  | none => []
  | some p => if p ≠ [] ∧ p ≠ utf8 "auto" then p else []

/-- `start` passes the primary that is named. -/
theorem passedPrimary_start (selection : Str) :
    passedPrimary (if selection ≠ auto then some selection else none) = if selection = auto then [] else selection := by
  by_cases hauto : selection = auto
  · rw [if_neg (not_not.mpr hauto), if_pos hauto]
    rfl
  · rw [if_pos hauto, if_neg hauto]
    show (if selection ≠ [] ∧ selection ≠ auto then selection else []) = selection
    by_cases hempty : selection = []
    · rw [if_neg fun h => h.1 hempty, hempty]
    · rw [if_pos ⟨hempty, hauto⟩]

/-- What a module that `load_tsf_ptp` has loaded got for `sync_mode` and `sync_primary`. -/
theorem parse_loadParams {p : ModuleParams}
    (hp : ModuleParams.parse (Host.loadParams thr mode primary interval) = some p) :
    p.syncMode = mode.asKernelParam ∧ p.syncPrimary = passedPrimary primary := by
  have hinterval : ∀ (q q' : ModuleParams), (interval.map ParamArg.syncIntervalMs).toList.foldlM ModuleParams.set q =
      some q' → q'.syncMode = q.syncMode ∧ q'.syncPrimary = q.syncPrimary := by
    intro q q' hq
    cases interval with
    | none => cases hq; exact ⟨rfl, rfl⟩
    | some v => cases hq; exact ⟨rfl, rfl⟩
  unfold ModuleParams.parse Host.loadParams at hp
  rw [List.foldlM_append, List.foldlM_append, Option.bind_eq_bind, Option.bind_eq_some_iff] at hp
  obtain ⟨q, hq, hrest⟩ := hp
  obtain ⟨hmode, hprimary⟩ := hinterval q p hrest
  rw [hmode, hprimary]
  obtain ⟨q₀, hq₀, hpassed⟩ := Option.bind_eq_some_iff.mp hq
  obtain ⟨q₁, hq₁, hq₀⟩ := Option.bind_eq_some_iff.mp hq₀
  obtain ⟨-, hq₁⟩ := Option.ite_none_right_eq_some.mp hq₁
  cases hq₁
  cases hq₀
  unfold passedPrimary
  cases primary with
  | none => cases hpassed; exact ⟨rfl, rfl⟩
  | some s =>
    dsimp only at hpassed ⊢
    split at hpassed
    · rename_i hs
      cases hpassed
      exact ⟨rfl, (if_pos hs).symm⟩
    · rename_i hs
      cases hpassed
      exact ⟨rfl, (if_neg hs).symm⟩

theorem Module.JustLoaded.params {m : Module} (hm : m.JustLoaded (Host.loadParams thr mode primary interval)) :
    m.syncMode = mode.asKernelParam ∧ m.kernel.syncPrimary = passedPrimary primary := by
  obtain ⟨params, netdevs, wiphyPriv, env₁, env₂, misc, hparse, rfl⟩ := hm
  obtain ⟨hmode, hprimary⟩ := parse_loadParams hparse
  have hinit := Module.sameParams_init env₁ env₂ misc (Module.load params netdevs wiphyPriv)
  exact ⟨hinit.1.trans hmode, hinit.2.trans hprimary⟩

/-- `insmod` of the file of the build, after `modprobe` has failed. -/
theorem insmod_ok (hd : h.Documented) {args : List ParamArg} (hnone : h.module w = none)
    (hload : (if h.koExists w then (Host.commandResult (h.insmod args w).1, (h.insmod args w).2)
      else (.error (.modprobe (utf8 "tsf_ptp module not found via modprobe or at kernel/tsf_ptp.ko")), w)) =
      (.ok (), w₁)) :
    ∃ m, h.module w₁ = some m ∧ m.JustLoaded args := by
  split at hload
  · obtain ⟨hresult, rfl⟩ := Prod.mk.inj hload
    refine hd.insmod args w hnone ?_
    rcases hout : (h.insmod args w).1 with e | out
    · rw [hout] at hresult; cases hresult
    · cases out with
      | error stderr => rw [hout] at hresult; cases hresult
      | ok u => rfl
  · cases hload

/-- `/proc/modules` names the module exactly when it is loaded. -/
theorem isModuleLoadedFrom_iff (hd : h.Documented) {names : List Str} (hproc : h.procModules w = .ok names) :
    isModuleLoadedFrom names moduleName = true ↔ (h.module w).isSome = true := by
  have hname : moduleName.map (fun b => if b = 45 then 95 else b) = moduleName := by decide
  rw [← hd.procModules w names hproc, isModuleLoadedFrom, hname]
  simp

/-- A successful `load_tsf_ptp` leaves a loaded module alone, and loads a missing one. -/
theorem loadTsfPtp_justLoaded (hd : h.Documented) (hload : h.loadTsfPtp thr mode primary interval w = (.ok (), w₁)) :
    ((h.module w).isSome = true ∧ w₁ = w) ∨ h.module w = none ∧
      ∃ m, h.module w₁ = some m ∧ m.JustLoaded (Host.loadParams thr mode primary interval) := by
  unfold Host.loadTsfPtp Host.isTsfPtpLoaded at hload
  cases hproc : h.procModules w with
  | error e => rw [hproc] at hload; cases hload
  | ok names =>
    have hloaded := isModuleLoadedFrom_iff hd hproc
    rw [hproc] at hload
    dsimp only at hload
    cases hl : isModuleLoadedFrom names moduleName with
    | true =>
      rw [hl] at hload
      cases hload
      exact Or.inl ⟨hloaded.mp hl, rfl⟩
    | false =>
      have hnone : h.module w = none := by
        rw [← Option.not_isSome_iff_eq_none, ← hloaded, hl]
        decide
      rw [hl] at hload
      refine Or.inr ⟨hnone, ?_⟩
      have hmod := hd.modprobe (Host.loadParams thr mode primary interval) w hnone
      rcases hout : h.modprobe (Host.loadParams thr mode primary interval) w with ⟨out, w'⟩
      rw [hout] at hmod hload
      rcases out with e | stderr | u
      · rw [if_neg (by simp)] at hmod
        exact insmod_ok hd hmod hload
      · rw [if_neg (by simp)] at hmod
        exact insmod_ok hd hmod hload
      · rw [if_pos rfl] at hmod
        cases hload
        exact hmod

/-- A module that is loaded gets the parameters. -/
theorem loadTsfPtp_ok (hd : h.Documented) (hload : h.loadTsfPtp thr mode primary interval w = (.ok (), w₁)) :
    ((h.module w).isSome = true ∧ w₁ = w) ∨ h.module w = none ∧ ∃ m, h.module w₁ = some m ∧
      m.syncMode = mode.asKernelParam ∧ m.kernel.syncPrimary = passedPrimary primary := by
  rcases loadTsfPtp_justLoaded hd hload with hloaded | ⟨hnone, m, hm, hjust⟩
  · exact Or.inl hloaded
  · exact Or.inr ⟨hnone, m, hm, hjust.params⟩

/-- The module keeps its parameters while the daemon sleeps. -/
theorem sleep_ok (hd : h.Documented) {m : Module} (hm : h.module w = some m) :
    ∃ m', h.module (h.sleep w) = some m' ∧ Module.SameParams m m' := by
  obtain ⟨as, m', hm', has, hrun⟩ := hd.sleep w m hm
  exact ⟨m', hm', Module.sameParams_runs has hrun⟩

end Load

/-! ## A successful start -/

/-- The primary that `select_primary` goes for: the one that is named, else the first with a native clock, else the
first. -/
def goesFor (ptpCards : List WifiCard) (selection : Str) : Option Str :=
  if selection ≠ auto then some selection
  else ((ptpCards.find? (·.ptpSource == .native)).or ptpCards.head?).map (·.phy)

theorem goesFor_of_selectPrimary {ptpCards : List WifiCard} {selection : Str} {card : WifiCard}
    (h : selectPrimary ptpCards selection = .ok card) : goesFor ptpCards selection = some card.phy := by
  unfold selectPrimary at h
  unfold goesFor
  split at h
  · rename_i hsel
    rw [if_pos hsel]
    split at h
    · cases h
    · rename_i c hc
      split at h
      · cases h
      · cases h
        have hphy : card.phy = selection := by simpa using List.find?_some hc
        rw [hphy]
  · rename_i hsel
    rw [if_neg hsel]
    split at h
    · rename_i c hc
      cases h
      rw [hc]
      rfl
    · rename_i hc
      rw [hc]
      split at h
      · rename_i c hhead
        cases h
        rw [hhead]
        rfl
      · cases h

/-- The `sync_primary` in force when a start for Mode B has loaded the module or found it loaded. -/
def User.Host.inForce {W : Type} (h : Host W) (primary : Str) (w : W) : Str :=
  match h.module w with
  | some m => m.kernel.syncPrimary
  | none => if primary = auto then [] else primary

/-- The first discovery shows a card that needs the module. -/
def User.Host.Needs {W : Type} (h : Host W) (w : W) : Prop :=
  ∃ cards, (h.sysfs w).discoverCards = .ok cards ∧ Host.needsModule cards = true

section Start

variable {W : Type} {h : Host W} {o : StartOptions} {w : W} {d₁ : Daemon W}

theorem prepare_ok (hp : h.prepare o ⟨w, []⟩ = (.ok (), d₁)) : d₁.log = [] ∧
    ((¬h.Needs w ∧ d₁.world = w) ∨ h.Needs w ∧ ∃ w₁, d₁.world = h.sleep w₁ ∧
      h.loadTsfPtp o.adjtimeThresholdNs o.syncMode (if o.primary ≠ auto then some o.primary else none)
        (some o.syncIntervalMs) w = (.ok (), w₁)) := by
  unfold Host.prepare at hp
  rw [look_bind] at hp
  obtain ⟨cards, d, hfound, hload⟩ := of_bind_eq_ok hp
  obtain ⟨hcards : (h.sysfs w).discoverCards = .ok cards, rfl⟩ := orFail_eq_ok hfound
  have hneeds : h.Needs w ↔ Host.needsModule cards = true := by
    constructor
    · rintro ⟨cards', hcards', hn⟩
      rw [hcards] at hcards'
      cases hcards'
      exact hn
    · exact fun hn => ⟨cards, hcards, hn⟩
  unfold Host.loadIfNeeded at hload
  split at hload
  · rename_i hn
    rw [act_bind] at hload
    obtain ⟨u, d₂, hloaded, hsleep⟩ := of_bind_eq_ok hload
    obtain ⟨hok, rfl⟩ := orFail_eq_ok hloaded
    cases hsleep
    exact ⟨rfl, Or.inr ⟨hneeds.mpr hn, _, rfl, Prod.ext hok rfl⟩⟩
  · rename_i hn
    cases hload
    exact ⟨rfl, Or.inl ⟨fun hneed => hn (hneeds.mp hneed), rfl⟩⟩

/-- The module after a successful start for Mode B. -/
theorem module_after (hd : h.Documented) (hmode : o.syncMode = .kernel) (hp : h.prepare o ⟨w, []⟩ = (.ok (), d₁)) :
    (∃ m m', h.module w = some m ∧ h.module d₁.world = some m' ∧ m'.syncMode = m.syncMode ∧
      m'.kernel.syncPrimary = h.inForce o.primary w) ∨
    (h.module w = none ∧ h.Needs w ∧ ∃ m', h.module d₁.world = some m' ∧ m'.syncMode = tsfSyncModeKernel ∧
      m'.kernel.syncPrimary = h.inForce o.primary w) ∨
    (h.module w = none ∧ ¬h.Needs w ∧ h.module d₁.world = none) := by
  obtain ⟨-, ⟨hneeds, hw⟩ | ⟨hneeds, w₁, hw, hload⟩⟩ := prepare_ok hp
  · rw [hw]
    cases hm : h.module w with
    | none => exact Or.inr (Or.inr ⟨rfl, hneeds, rfl⟩)
    | some m => exact Or.inl ⟨m, m, rfl, rfl, rfl, by rw [Host.inForce, hm]⟩
  · rw [hw]
    rcases loadTsfPtp_ok hd hload with ⟨hsome, rfl⟩ | ⟨hnone, m, hm, hsync, hprimary⟩
    · obtain ⟨m, hm⟩ := Option.isSome_iff_exists.mp hsome
      obtain ⟨m', hm', hsame⟩ := sleep_ok hd hm
      exact Or.inl ⟨m, m', hm, hm', hsame.1, by rw [Host.inForce, hm, hsame.2]⟩
    · obtain ⟨m', hm', hsame⟩ := sleep_ok hd hm
      refine Or.inr (Or.inl ⟨hnone, hneeds, m', hm', ?_, ?_⟩)
      · rw [hsame.1, hsync, hmode]
        rfl
      · rw [hsame.2, hprimary, passedPrimary_start, Host.inForce, hnone]

/-- A successful start discovers twice, selects a primary and reports it. -/
theorem start_ok {w' : W} {log : List LogEvent} (hmode : o.syncMode = .kernel)
    (hs : h.start o ⟨w, []⟩ = (.ok .kernel, ⟨w', log⟩)) : ∃ cards card, h.prepare o ⟨w, []⟩ = (.ok (), ⟨w', []⟩) ∧
      (h.sysfs w').discoverCards = .ok cards ∧ selectPrimary (ptpCardsOf cards) o.primary = .ok card ∧
      log = [.selectedPrimary card.phy card.clock .kernel] := by
  unfold Host.start at hs
  obtain ⟨u, ⟨w₁, log₁⟩, hprep, hs⟩ := of_bind_eq_ok hs
  obtain ⟨rfl, -⟩ := prepare_ok hprep
  rw [look_bind] at hs
  obtain ⟨cards, d, hfound, hs⟩ := of_bind_eq_ok hs
  obtain ⟨hcards, rfl⟩ := orFail_eq_ok hfound
  unfold Host.startSync at hs
  split at hs
  · cases hs
  obtain ⟨card, d, hselected, hs⟩ := of_bind_eq_ok hs
  obtain ⟨hcard, rfl⟩ := orFail_eq_ok hselected
  rw [info_bind] at hs
  unfold Host.startMode at hs
  simp only [hmode] at hs
  cases hs
  exact ⟨cards, card, hprep, hcards, hcard, rfl⟩

end Start

/-! ## Agreement -/

/-- **Mode B agrees with the daemon**: the module is loaded for the sync loop, and the primary that the kernel finds is
the card whose phy was reported. -/
def ModeBAgrees {W : Type} (h : Host W) (w : W) (log : List LogEvent) : Prop :=
  ∃ m phy clock c, h.module w = some m ∧ m.syncMode = tsfSyncModeKernel ∧ .selectedPrimary phy clock .kernel ∈ log ∧
    m.kernel.primary = some c ∧ (m.kernel.card c).phyName.bytes = phy

/-- With `sync_primary` empty the first listed card has the phy; else `sync_primary` is the phy, and a listed card has
it. -/
def Leads (s : Kernel) (inForce phy : Str) : Prop :=
  if inForce = [] then ∃ c, s.cardsList.ptrs.head? = some c ∧ (s.card c).phyName.bytes = phy
  else inForce = phy ∧ ∃ c ∈ s.cardsList.ptrs, (s.card c).phyName.bytes = phy

/-- The primary that `find_primary_locked` finds has the phy exactly when the phy leads. -/
theorem primary_phy_iff (s : Kernel) (phy : Str) :
    (∃ c, s.primary = some c ∧ (s.card c).phyName.bytes = phy) ↔ Leads s s.syncPrimary phy := by
  unfold Leads
  by_cases hempty : s.syncPrimary = []
  · have hprimary : s.primary = s.cardsList.ptrs.head? := by
      show (if s.syncPrimary ≠ [] then _ else _) = _
      rw [if_neg (not_not.mpr hempty)]
    rw [if_pos hempty, hprimary]
  · have hprimary : s.primary = s.cardsList.ptrs.find? fun c => (s.card c).phyName.bytes == s.syncPrimary := by
      show (if s.syncPrimary ≠ [] then _ else _) = _
      rw [if_pos hempty]
    rw [if_neg hempty, hprimary]
    constructor
    · rintro ⟨c, hc, rfl⟩
      have hname : (s.card c).phyName.bytes = s.syncPrimary := by simpa using List.find?_some hc
      exact ⟨hname.symm, c, List.mem_of_find?_eq_some hc, rfl⟩
    · rintro ⟨hforce, c, hc, hname⟩
      cases hfind : s.cardsList.ptrs.find? fun c => (s.card c).phyName.bytes == s.syncPrimary with
      | none =>
        have := List.find?_eq_none.mp hfind c hc
        simp [hname, hforce] at this
      | some d =>
        have hd : (s.card d).phyName.bytes = s.syncPrimary := by simpa using List.find?_some hfind
        exact ⟨d, rfl, hd.trans hforce⟩

/-- The module is loaded for the sync loop, already or because a card needs it, and the phy that `select_primary` goes
for leads in the kernel, with the `sync_primary` in force. -/
structure StartsModeB {W : Type} (h : Host W) (selection : Str) (w w' : W) : Prop where
  loaded : (∃ m, h.module w = some m ∧ m.syncMode = tsfSyncModeKernel) ∨ (h.module w = none ∧ h.Needs w)
  leads : ∀ m cards phy, h.module w' = some m → (h.sysfs w').discoverCards = .ok cards →
    goesFor (ptpCardsOf cards) selection = some phy → Leads m.kernel (h.inForce selection w) phy

/-- A log that names one primary leaves only the module to agree. -/
theorem modeBAgrees_selected {W : Type} {h : Host W} {w : W} {phy clock : Str} :
    ModeBAgrees h w [.selectedPrimary phy clock .kernel] ↔
      ∃ m, h.module w = some m ∧ m.syncMode = tsfSyncModeKernel ∧ Leads m.kernel m.kernel.syncPrimary phy := by
  constructor
  · rintro ⟨m, phy, clock, c, hm, hsync, hlog, hc, hname⟩
    cases List.mem_singleton.mp hlog
    exact ⟨m, hm, hsync, (primary_phy_iff _ _).mp ⟨c, hc, hname⟩⟩
  · rintro ⟨m, hm, hsync, hleads⟩
    obtain ⟨c, hc, hname⟩ := (primary_phy_iff _ _).mpr hleads
    exact ⟨m, phy, clock, c, hm, hsync, List.mem_singleton.mpr rfl, hc, hname⟩

/-- What is said of every module, discovery and phy is said of the ones there are. -/
theorem leads_iff {W : Type} {h : Host W} {w' : W} {m : Module} {cards : List WifiCard} {selection inForce phy : Str}
    (hm : h.module w' = some m) (hcards : (h.sysfs w').discoverCards = .ok cards)
    (hgoes : goesFor (ptpCardsOf cards) selection = some phy) (hforce : m.kernel.syncPrimary = inForce) :
    Leads m.kernel m.kernel.syncPrimary phy ↔ ∀ m cards phy, h.module w' = some m →
      (h.sysfs w').discoverCards = .ok cards → goesFor (ptpCardsOf cards) selection = some phy →
      Leads m.kernel inForce phy := by
  rw [hforce]
  constructor
  · intro hl m₁ cards₁ phy₁ hm₁ hcards₁ hphy
    rw [hm] at hm₁
    rw [hcards] at hcards₁
    cases hm₁
    cases hcards₁
    rw [hgoes] at hphy
    cases hphy
    exact hl
  · exact fun hl => hl m cards phy hm hcards hgoes

/-- **A start for Mode B agrees with the kernel exactly when it starts Mode B.** -/
theorem modeB_agrees_iff {W : Type} {h : Host W} (hd : h.Documented) {o : StartOptions} (hmode : o.syncMode = .kernel)
    {w w' : W} {log : List LogEvent} (hs : h.start o ⟨w, []⟩ = (.ok .kernel, ⟨w', log⟩)) :
    ModeBAgrees h w' log ↔ StartsModeB h o.primary w w' := by
  obtain ⟨cards, card, hprep, hcards, hcard, rfl⟩ := start_ok hmode hs
  have hgoes := goesFor_of_selectPrimary hcard
  rw [modeBAgrees_selected]
  rcases module_after hd hmode hprep with ⟨m, m', hm, hm', hsync, hforce⟩ | ⟨hnone, hneeds, m', hm', hsync, hforce⟩ |
    ⟨hnone, hneeds, hnone'⟩
  · constructor
    · rintro ⟨m₁, hm₁, hsync₁, hl⟩
      rw [hm'] at hm₁
      cases hm₁
      exact ⟨Or.inl ⟨m, hm, hsync.symm.trans hsync₁⟩, (leads_iff hm' hcards hgoes hforce).mp hl⟩
    · rintro ⟨hloaded, hl⟩
      refine ⟨m', hm', ?_, (leads_iff hm' hcards hgoes hforce).mpr hl⟩
      rcases hloaded with ⟨m₁, hm₁, hsync₁⟩ | ⟨hnone, -⟩
      · rw [hm] at hm₁
        cases hm₁
        exact hsync.trans hsync₁
      · rw [hm] at hnone
        cases hnone
  · constructor
    · rintro ⟨m₁, hm₁, -, hl⟩
      rw [hm'] at hm₁
      cases hm₁
      exact ⟨Or.inr ⟨hnone, hneeds⟩, (leads_iff hm' hcards hgoes hforce).mp hl⟩
    · rintro ⟨-, hl⟩
      exact ⟨m', hm', hsync, (leads_iff hm' hcards hgoes hforce).mpr hl⟩
  · constructor
    · rintro ⟨m₁, hm₁, -⟩
      rw [hnone'] at hm₁
      cases hm₁
    · rintro ⟨⟨m₁, hm₁, -⟩ | ⟨-, hneeds'⟩, -⟩
      · rw [hnone] at hm₁
        cases hm₁
      · exact absurd hneeds' hneeds

/-! ## A machine -/

/-- A machine with two mac80211 phys, `phy0` and `phy1`, that loads the module with any arguments it can read; its tree
depends on whether the module is loaded. -/
def User.Host.bench (tree : Option Module → Sysfs) (load : ModuleParams → Module) : Host (Option Module) where
  sysfs := tree
  procModules := fun w => .ok (if w.isSome then [moduleName] else [])
  module := id
  modprobe := fun args w =>
    match ModuleParams.parse args with
    | some params => (.ok (.ok ()), w.or (some (load params)))
    | none => (.ok (.error []), w)
  insmod := fun args w =>
    match ModuleParams.parse args with
    | some params => (.ok (.ok ()), w.or (some (load params)))
    | none => (.ok (.error []), w)
  koExists := fun _ => true
  sleep := id
  spawn := fun _ _ w => (.ok 0, w)
  dropProcess := fun _ w => w
  findPrimaryIndex := fun _ w => (.error (.custom .notFound []), w)

/-- The load of the module where `wlan0` of `phy0` and `wlan1` of `phy1` are up. -/
def Module.loadTwo (params : ModuleParams) : Module :=
  (Module.load params [.wlan 0 0 0 true, .wlan 1 0 1 true] fun w =>
    some { Local.both w with wiphyName := if w = 0 then utf8 "phy0" else utf8 "phy1" }).tsfPtpInit
    (fun id => .accepts id) (fun _ => .unused) (.ok ())

theorem justLoaded_loadTwo {args : List ParamArg} {params : ModuleParams} (h : ModuleParams.parse args = some params) :
    (Module.loadTwo params).JustLoaded args := ⟨params, _, _, _, _, _, h, rfl⟩

theorem documented_bench (tree : Option Module → Sysfs) : (Host.bench tree Module.loadTwo).Documented where
  procModules := fun w names h => by
    cases h
    cases w <;> simp [Host.bench]
  modprobe := fun args w hw => by
    obtain rfl : w = none := hw
    cases hparse : ModuleParams.parse args with
    | none => simp [Host.bench, hparse]
    | some params => simpa [Host.bench, hparse] using justLoaded_loadTwo hparse
  insmod := fun args w hw hok => by
    obtain rfl : w = none := hw
    cases hparse : ModuleParams.parse args with
    | none => simp [Host.bench, hparse] at hok
    | some params => simpa [Host.bench, hparse] using justLoaded_loadTwo hparse
  sleep := fun w m hm => ⟨[], m, hm, fun _ ha => (by cases ha), rfl⟩

/-- The tree of two phys, with their clocks once the module is loaded. -/
def Sysfs.bench (driver : Str) (w : Option Module) : Sysfs where
  ieee80211 := .ok [.ok ⟨utf8 "phy0", 0, some 2⟩, .ok ⟨utf8 "phy1", 1, some 3⟩]
  readDir := fun d =>
    .ok (if d = 2 then (if w.isSome then [.ok (utf8 "ptp0")] else [])
      else if d = 3 then (if w.isSome then [.ok (utf8 "ptp1")] else []) else [])
  driver := fun _ => .ok (some driver)

/-- The machine with two mt76 radios. -/
def User.Host.twoRadios : Host (Option Module) := Host.bench (Sysfs.bench (utf8 "mt76")) Module.loadTwo

/-- A start for Mode B with a given primary. -/
def StartOptions.kernel (primary : Str) : StartOptions := ⟨primary, utf8 "phc2sys", 5000, .kernel, 10, false⟩

/-- A start that loads the module for `phy1`. -/
theorem modeB_agrees_iff_run : ∃ w' log, (Host.bench (Sysfs.bench (utf8 "mt76")) Module.loadTwo).start
      (StartOptions.kernel (utf8 "phy1")) ⟨none, []⟩ = (.ok .kernel, ⟨w', log⟩) ∧
    ModeBAgrees (Host.bench (Sysfs.bench (utf8 "mt76")) Module.loadTwo) w' log := by
  have hstart : (Host.bench (Sysfs.bench (utf8 "mt76")) Module.loadTwo).start (StartOptions.kernel (utf8 "phy1"))
      ⟨none, []⟩ = (.ok .kernel, ⟨some (Module.loadTwo ⟨1, 5000, utf8 "phy1", 10⟩),
        [.selectedPrimary (utf8 "phy1") (utf8 "/dev/ptp1") .kernel]⟩) := rfl
  refine ⟨_, _, hstart, (modeB_agrees_iff (documented_bench _) rfl hstart).mpr ⟨Or.inr ⟨rfl, _, rfl, rfl⟩, ?_⟩⟩
  intro m cards phy hm _ hphy
  cases hm
  cases hphy
  have hphys : (Module.loadTwo ⟨1, 5000, utf8 "phy1", 10⟩).kernel.cardsList.ptrs.map
      (fun c => ((Module.loadTwo ⟨1, 5000, utf8 "phy1", 10⟩).kernel.card c).phyName.bytes) =
      [utf8 "phy0", utf8 "phy1"] := by decide +kernel
  have hmem : utf8 "phy1" ∈ (Module.loadTwo ⟨1, 5000, utf8 "phy1", 10⟩).kernel.cardsList.ptrs.map
      (fun c => ((Module.loadTwo ⟨1, 5000, utf8 "phy1", 10⟩).kernel.card c).phyName.bytes) := by
    rw [hphys]
    decide
  exact ⟨rfl, List.mem_map.mp hmem⟩

/-- The module is already loaded for Mode A: the start reports Mode B all the same. -/
theorem modeB_agrees_counterexample :
    ∃ w' log, (Host.bench (Sysfs.bench (utf8 "mt76")) Module.loadTwo).start (StartOptions.kernel auto)
        ⟨some (Module.loadTwo .default), []⟩ = (.ok .kernel, ⟨w', log⟩) ∧
      ¬ModeBAgrees (Host.bench (Sysfs.bench (utf8 "mt76")) Module.loadTwo) w' log := by
  have hstart : (Host.bench (Sysfs.bench (utf8 "mt76")) Module.loadTwo).start (StartOptions.kernel auto)
      ⟨some (Module.loadTwo .default), []⟩ = (.ok .kernel, ⟨some (Module.loadTwo .default),
        [.selectedPrimary (utf8 "phy0") (utf8 "/dev/ptp0") .kernel]⟩) := rfl
  refine ⟨_, _, hstart, ?_⟩
  rintro ⟨m, phy, clock, c, hm, hsync, -⟩
  cases hm
  cases hsync

end TsfSync
