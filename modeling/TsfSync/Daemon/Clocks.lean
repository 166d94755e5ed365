import TsfSync.User.Daemon

/-!
# Which card gets which clock

`find_ptp_clock` gives a phy the first clock in the directory of its device, or else in its own: its clock directory
(`clockDir`). The cards have clocks of their own, `generate_config` writes no section twice and `start` never runs
`phc2sys` from a clock to itself exactly when no two phys share a clock directory and no two clock directories lead with
the same name (`oneClockEach_iff`). Two radios of one device share it (`oneClockEach_counterexample`).
-/

namespace TsfSync.User

open TsfSync DaemonM FailingRun

/-! ## The clock of a phy -/

namespace Sysfs

variable (t : Sysfs)

/-- The directory that the clock of a phy is taken from. -/
def clockDir (entry : ClassEntry) : Option DirId := (searchDirs entry).find? fun d => (t.ptpEntry d).isSome

/-- The phys of a class directory. -/
def phys (entries : List (Except IoError ClassEntry)) : List ClassEntry :=
  (entries.filterMap Except.toOption).filter fun entry => startsWith entry.name (utf8 "phy")

theorem phys_cons_skip {entry : ClassEntry} {entries : List (Except IoError ClassEntry)}
    (h : startsWith entry.name (utf8 "phy") = false) : phys (.ok entry :: entries) = phys entries := by
  simp [phys, Except.toOption, h]

theorem phys_cons_phy {entry : ClassEntry} {entries : List (Except IoError ClassEntry)}
    (h : startsWith entry.name (utf8 "phy") = true) : phys (.ok entry :: entries) = entry :: phys entries := by
  simp [phys, Except.toOption, h]

theorem findPtpClockIn_clock (driver : Str) : ∀ dirs : List DirId, (t.findPtpClockIn driver dirs).1 =
    ((dirs.find? fun d => (t.ptpEntry d).isSome).bind t.ptpEntry).map (utf8 "/dev/" ++ ·)
  | [] => rfl
  | d :: dirs => by
    rw [findPtpClockIn, List.find?_cons]
    cases h : t.ptpEntry d with
    | none => exact findPtpClockIn_clock driver dirs
    | some name => simp [h]

/-- The clock of a card is the first one of its clock directory. -/
theorem cardOf_ptpClock (entry : ClassEntry) :
    (t.cardOf entry).ptpClock = ((t.clockDir entry).bind t.ptpEntry).map (utf8 "/dev/" ++ ·) :=
  t.findPtpClockIn_clock (t.readDriver entry.device) (searchDirs entry)

theorem discoverLoop_eq_ok {t : Sysfs} : ∀ {entries : List (Except IoError ClassEntry)} {cards : List WifiCard},
    t.discoverLoop entries = .ok cards → cards = (phys entries).map t.cardOf
  | [], _, h => by cases h; rfl
  | .error e :: entries, _, h => by cases h
  | .ok entry :: entries, cards, h => by
    rw [discoverLoop] at h
    cases hphy : startsWith entry.name (utf8 "phy") with
    | false =>
      rw [hphy] at h
      rw [phys_cons_skip hphy]
      exact discoverLoop_eq_ok h
    | true =>
      rw [hphy] at h
      cases hrest : t.discoverLoop entries with
      | error e => rw [hrest] at h; cases h
      | ok rest =>
        rw [hrest] at h
        cases h
        rw [phys_cons_phy hphy, List.map_cons, discoverLoop_eq_ok hrest]

/-- The phys of the tree; none if the class directory is missing. -/
def allPhys : List ClassEntry :=
  match t.ieee80211 with
  | .error _ => []
  | .ok entries => phys entries

/-- The discovered cards are those of the phys, in some order. -/
theorem perm_of_discoverCards {t : Sysfs} {cards : List WifiCard} (h : t.discoverCards = .ok cards) :
    cards.Perm (t.allPhys.map t.cardOf) := by
  unfold discoverCards at h
  unfold allPhys
  cases hclass : t.ieee80211 with
  | error e =>
    rw [hclass] at h
    dsimp only at h
    split at h
    · cases h; exact .nil
    · cases h
  | ok entries =>
    rw [hclass] at h
    cases hloop : t.discoverLoop entries with
    | error e => simp only [hloop] at h; cases h
    | ok found =>
      simp only [hloop] at h
      cases h
      rw [← discoverLoop_eq_ok hloop]
      exact List.perm_insertionSort _ found

/-- No two phys share a clock directory, and no two clock directories lead with the same name. -/
structure ClocksApart (t : Sysfs) : Prop where
  dirs : t.allPhys.Pairwise fun p q => ∀ d, t.clockDir p = some d → t.clockDir q ≠ some d
  names : t.allPhys.Pairwise fun p q => ∀ d e, t.clockDir p = some d → t.clockDir q = some e → d ≠ e →
    t.ptpEntry d ≠ t.ptpEntry e

theorem clockDir_ptpEntry {entry : ClassEntry} {d : DirId} (h : t.clockDir entry = some d) :
    ∃ name, t.ptpEntry d = some name :=
  Option.isSome_iff_exists.mp (List.find?_some (p := fun d => (t.ptpEntry d).isSome) h)

/-- Two phys have the same clock exactly when their clock directories lead with the same name. -/
theorem same_clock_iff {p q : ClassEntry} : (∃ clock, (t.cardOf p).ptpClock = some clock ∧
      (t.cardOf q).ptpClock = some clock) ↔
    ∃ d e, t.clockDir p = some d ∧ t.clockDir q = some e ∧ t.ptpEntry d = t.ptpEntry e := by
  simp only [cardOf_ptpClock, Option.map_eq_some_iff, Option.bind_eq_some_iff]
  constructor
  · rintro ⟨clock, ⟨n, ⟨d, hd, hn⟩, rfl⟩, m, ⟨e, he, hm⟩, hnm⟩
    rw [List.append_cancel_left hnm] at hm
    exact ⟨d, e, hd, he, hn.trans hm.symm⟩
  · rintro ⟨d, e, hd, he, hde⟩
    obtain ⟨name, hname⟩ := t.clockDir_ptpEntry hd
    exact ⟨_, ⟨name, ⟨d, hd, hname⟩, rfl⟩, name, ⟨e, he, hde ▸ hname⟩, rfl⟩

/-- The clocks of the cards are distinct exactly when the clock directories are apart. -/
theorem clocks_nodup_iff {t : Sysfs} {cards : List WifiCard} (h : t.discoverCards = .ok cards) :
    (cards.filterMap (·.ptpClock)).Nodup ↔ t.ClocksApart := by
  rw [((perm_of_discoverCards h).filterMap (·.ptpClock)).nodup_iff, List.filterMap_map, List.Nodup,
    List.pairwise_filterMap]
  have hpair : ∀ p q, (∀ a, (t.cardOf p).ptpClock = some a → ∀ b, (t.cardOf q).ptpClock = some b → a ≠ b) ↔
      (∀ d, t.clockDir p = some d → t.clockDir q ≠ some d) ∧
      ∀ d e, t.clockDir p = some d → t.clockDir q = some e → d ≠ e → t.ptpEntry d ≠ t.ptpEntry e := by
    intro p q
    have hsame := t.same_clock_iff (p := p) (q := q)
    constructor
    · intro hne
      refine ⟨fun d hp hq => ?_, fun d e hp hq _ hde => ?_⟩
      · obtain ⟨clock, h₁, h₂⟩ := hsame.mpr ⟨d, d, hp, hq, rfl⟩
        exact hne clock h₁ clock h₂ rfl
      · obtain ⟨clock, h₁, h₂⟩ := hsame.mpr ⟨d, e, hp, hq, hde⟩
        exact hne clock h₁ clock h₂ rfl
    · rintro ⟨hdirs, hnames⟩ a ha b hb rfl
      obtain ⟨d, e, hp, hq, hde⟩ := hsame.mp ⟨a, ha, hb⟩
      by_cases hd : d = e
      · subst hd; exact hdirs d hp hq
      · exact hnames d e hp hq hd hde
  constructor
  · intro hp
    have hall := hp.imp fun {p q} hpq => (hpair p q).mp hpq
    exact ⟨hall.imp And.left, hall.imp And.right⟩
  · rintro ⟨hdirs, hnames⟩
    exact (hdirs.and hnames).imp fun {p q} hpq => (hpair p q).mpr hpq

end Sysfs

/-! ## The configuration -/

section Config

variable {cards : List WifiCard} {selection : Str} {primary card : WifiCard}

theorem selectPrimary_mem {ptpCards : List WifiCard} (h : selectPrimary ptpCards selection = .ok card) :
    card ∈ ptpCards := by
  unfold selectPrimary at h
  split at h
  · split at h
    · cases h
    · rename_i c hc
      split at h
      · cases h
      · cases h; exact List.mem_of_find?_eq_some hc
  · split at h
    · rename_i c hc
      cases h
      exact List.mem_of_find?_eq_some hc
    · split at h
      · rename_i c hc
        cases h
        exact List.mem_of_head? hc
      · cases h

/-- The other cards of a configuration. -/
def secondariesOf (cards : List WifiCard) (primary : WifiCard) : List WifiCard :=
  (ptpCardsOf cards).filter fun card => card.phy ≠ primary.phy

theorem sections_append (as bs : List Str) : sections (as ++ bs) = sections as ++ sections bs := List.filter_append ..

theorem sections_secondaryLines (card : WifiCard) : sections (secondaryLines card) = [sectionLine card.clock] := rfl

theorem sections_secondaries (ptpCards : List WifiCard) :
    sections (ptpCards.flatMap fun card => if card.phy = primary.phy then [] else secondaryLines card) =
      (ptpCards.filter fun card => card.phy ≠ primary.phy).map fun card => sectionLine card.clock := by
  induction ptpCards with
  | nil => rfl
  | cons card ptpCards ih =>
    rw [List.flatMap_cons, sections_append, ih, List.filter_cons]
    by_cases h : card.phy = primary.phy
    · simp [h, sections]
    · simp [h, sections_secondaryLines]

/-- The lines of a configuration that was generated. -/
theorem configLines_eq_ok {lines : List Str} (h : configLines cards selection = .ok lines) :
    ∃ primary, selectPrimary (ptpCardsOf cards) selection = .ok primary ∧
      lines = globalLines ++ primaryLines primary ++
        (ptpCardsOf cards).flatMap fun card => if card.phy = primary.phy then [] else secondaryLines card := by
  unfold configLines at h
  dsimp only at h
  split at h
  · cases h
  split at h
  · cases h
  cases hsel : selectPrimary (ptpCardsOf cards) selection with
  | error e => rw [hsel] at h; cases h
  | ok primary =>
    rw [hsel] at h
    cases h
    exact ⟨primary, rfl, rfl⟩

/-- The sections of a configuration: the global one, that of the primary, and one for every other card. -/
theorem sections_configLines {lines : List Str} (h : configLines cards selection = .ok lines) :
    ∃ primary ∈ ptpCardsOf cards, sections lines = sectionLine (utf8 "global") :: sectionLine primary.clock ::
      (secondariesOf cards primary).map fun card => sectionLine card.clock := by
  obtain ⟨primary, hsel, rfl⟩ := configLines_eq_ok h
  refine ⟨primary, selectPrimary_mem hsel, ?_⟩
  rw [sections_append, sections_secondaries]
  rfl

theorem filterMap_ptpClock (cards : List WifiCard) :
    cards.filterMap (·.ptpClock) = (ptpCardsOf cards).map (·.clock) := by
  induction cards with
  | nil => rfl
  | cons card cards ih =>
    unfold ptpCardsOf at ih ⊢
    rw [List.filterMap_cons, List.filter_cons]
    cases hc : card.ptpClock with
    | none => simpa [hc] using ih
    | some clock => simpa [hc, WifiCard.clock] using ih

/-- With distinct clocks, two cards with different names have different clocks. -/
theorem clock_ne (hclocks : (cards.filterMap (·.ptpClock)).Nodup) (hp : primary ∈ ptpCardsOf cards)
    (hc : card ∈ ptpCardsOf cards) (hne : card.phy ≠ primary.phy) : primary.clock ≠ card.clock := by
  rw [filterMap_ptpClock] at hclocks
  intro h
  exact hne (congrArg WifiCard.phy (List.inj_on_of_nodup_map hclocks hp hc h)).symm

theorem sectionLine_inj {a b : Str} (h : sectionLine a = sectionLine b) : a = b :=
  List.append_cancel_left (List.append_cancel_right h)

/-- With distinct clocks that are device paths no section is written twice. -/
theorem sections_nodup (hclocks : (cards.filterMap (·.ptpClock)).Nodup)
    (hdev : ∀ card ∈ ptpCardsOf cards, card.clock ≠ utf8 "global") {lines : List Str}
    (h : configLines cards selection = .ok lines) : (sections lines).Nodup := by
  obtain ⟨primary, hp, hsections⟩ := sections_configLines h
  have hmem : ∀ card ∈ secondariesOf cards primary, card ∈ ptpCardsOf cards ∧ card.phy ≠ primary.phy := fun card hc => by
    simpa using List.mem_filter.mp hc
  rw [hsections, List.nodup_cons, List.nodup_cons, List.mem_cons, not_or]
  refine ⟨⟨fun hglobal => ?_, fun hglobal => ?_⟩, fun hprimary => ?_, ?_⟩
  · exact hdev primary hp (sectionLine_inj hglobal).symm
  · obtain ⟨card, hc, heq⟩ := List.mem_map.mp hglobal
    exact hdev card (hmem card hc).1 (sectionLine_inj heq)
  · obtain ⟨card, hc, heq⟩ := List.mem_map.mp hprimary
    exact clock_ne hclocks hp (hmem card hc).1 (hmem card hc).2 (sectionLine_inj heq).symm
  · rw [filterMap_ptpClock] at hclocks
    have hsub : ((secondariesOf cards primary).map (·.clock)).Nodup := hclocks.sublist (List.filter_sublist.map _)
    have hmap : ((secondariesOf cards primary).map fun card => sectionLine card.clock) =
        ((secondariesOf cards primary).map (·.clock)).map sectionLine := by
      rw [List.map_map]
      rfl
    rw [hmap]
    exact hsub.map fun a b => sectionLine_inj

end Config

/-- The clocks of discovered cards are device paths. -/
theorem clock_ne_global {t : Sysfs} {cards : List WifiCard} (h : t.discoverCards = .ok cards) {card : WifiCard}
    (hc : card ∈ ptpCardsOf cards) : card.clock ≠ utf8 "global" := by
  obtain ⟨hmem, hsome⟩ := List.mem_filter.mp hc
  obtain ⟨entry, -, rfl⟩ := List.mem_map.mp ((Sysfs.perm_of_discoverCards h).mem_iff.mp hmem)
  obtain ⟨clock, hclock⟩ := Option.isSome_iff_exists.mp hsome
  have hdev := hclock
  rw [Sysfs.cardOf_ptpClock, Option.map_eq_some_iff] at hdev
  obtain ⟨name, -, rfl⟩ := hdev
  rw [WifiCard.clock, hclock]
  intro heq
  cases heq

/-! ## The processes of Mode A -/

section Processes

variable {W : Type} (h : Host W) {bin : Str} {primary : WifiCard}

/-- The log of Mode A: one process for a card with another name than the primary, from the primary's clock to its own. -/
def Starts (bin : Str) (primary : WifiCard) (cards : List WifiCard) (e : LogEvent) : Prop :=
  ∃ card ∈ cards, card.phy ≠ primary.phy ∧
    e = .starting bin (Host.phc2sysArgs primary.clock card.clock) (Host.phc2sysName primary.clock card.clock)

theorem log_startPhc2sys (src client bin : Str) (d : Daemon W) :
    ∃ r d', h.startPhc2sys src client bin d = (.ok r, d') ∧
      d'.log = d.log ++ [.starting bin (Host.phc2sysArgs src client) (Host.phc2sysName src client)] := by
  unfold Host.startPhc2sys Host.spawnProcess
  rw [info_bind, act_bind]
  dsimp only
  rcases h.spawn bin (Host.phc2sysArgs src client) d.world with ⟨spawned, w⟩
  cases spawned with
  | ok pid => exact ⟨_, _, rfl, rfl⟩
  | error e => exact ⟨_, _, rfl, rfl⟩

theorem log_startAll : ∀ (cards : List WifiCard) (processes : List SyncProcess) (d : Daemon W),
    ∀ e ∈ (h.startAll bin primary cards processes d).2.log, e ∈ d.log ∨ Starts bin primary cards e
  | [], _, _, e, he => Or.inl he
  | card :: cards, processes, d, e, he => by
    have hmore : Starts bin primary cards e → Starts bin primary (card :: cards) e := by
      rintro ⟨c, hc, hrest⟩
      exact ⟨c, List.mem_cons_of_mem _ hc, hrest⟩
    rw [Host.startAll] at he
    split at he
    · exact (log_startAll cards processes d e he).imp_right hmore
    · rename_i hphy
      obtain ⟨r, d₁, hstart, hlog⟩ := log_startPhc2sys h primary.clock card.clock bin d
      have hnew : e ∈ d₁.log → e ∈ d.log ∨ Starts bin primary (card :: cards) e := by
        rw [hlog, List.mem_append, List.mem_singleton]
        exact Or.imp_right fun heq => ⟨card, List.mem_cons_self, hphy, heq⟩
      rw [bind_ok hstart] at he
      cases r with
      | ok proc =>
        rcases log_startAll cards (processes ++ [proc]) d₁ e he with hold | hs
        · exact hnew hold
        · exact Or.inr (hmore hs)
      | error e' => exact hnew he

/-- `prepare` starts no process. -/
theorem log_prepare (o : StartOptions) (d : Daemon W) : (h.prepare o d).2.log = d.log := by
  unfold Host.prepare
  rw [look_bind]
  cases (h.sysfs d.world).discoverCards with
  | error e => rfl
  | ok cards =>
    show (h.loadIfNeeded o cards d).2.log = d.log
    unfold Host.loadIfNeeded
    split
    · rw [act_bind]
      rcases h.loadTsfPtp o.adjtimeThresholdNs o.syncMode (if o.primary ≠ auto then some o.primary else none)
        (some o.syncIntervalMs) d.world with ⟨loaded, w⟩
      cases loaded with
      | ok u => rfl
      | error e => rfl
    · rfl

/-- The end of `start` starts processes only in Mode A. -/
theorem log_startMode (o : StartOptions) (ptpCards : List WifiCard) (primary : WifiCard) (d : Daemon W) :
    ∀ e ∈ (h.startMode o ptpCards primary d).2.log, e ∈ d.log ∨ Starts o.phc2sysBin primary ptpCards e := by
  intro e he
  unfold Host.startMode at he
  cases hmode : o.syncMode with
  | ptp =>
    simp only [hmode] at he
    refine log_startAll h ptpCards [] d e ?_
    rcases hstart : h.startAll o.phc2sysBin primary ptpCards [] d with ⟨r, d₁⟩
    cases r with
    | ok processes => rw [bind_ok hstart] at he; exact he
    | error e' => rw [bind_error hstart] at he; exact he
  | kernel =>
    simp only [hmode] at he
    exact Or.inl he
  | iouring =>
    simp only [hmode] at he
    split at he
    · rw [act_bind] at he
      rcases hfind : h.findPrimaryIndex primary.phy d.world with ⟨r, w⟩
      rw [hfind] at he
      cases r with
      | ok i => exact Or.inl he
      | error e' => exact Or.inl he
    · exact Or.inl he

/-- Processes are started from the clock of a primary to those of other cards. -/
theorem log_startSync (o : StartOptions) (cards : List WifiCard) (d : Daemon W) {bin : Str} {args : List Str} {name : Str}
    (he : .starting bin args name ∈ (h.startSync o cards d).2.log) : .starting bin args name ∈ d.log ∨
      ∃ primary ∈ ptpCardsOf cards, Starts o.phc2sysBin primary (ptpCardsOf cards) (.starting bin args name) := by
  unfold Host.startSync at he
  split at he
  · exact Or.inl he
  cases hsel : selectPrimary (ptpCardsOf cards) o.primary with
  | error e =>
    rw [hsel, orFail_error_bind] at he
    exact Or.inl he
  | ok primary =>
    rw [hsel, orFail_ok_bind, info_bind] at he
    rcases log_startMode h o (ptpCardsOf cards) primary _ _ he with hold | hs
    · -- the line that reports the primary starts nothing
      rw [List.mem_append, List.mem_singleton] at hold
      exact Or.inl (hold.resolve_right fun heq => by cases heq)
    · exact Or.inr ⟨primary, selectPrimary_mem hsel, hs⟩

end Processes

/-! ## One clock for each card -/

/-- The clocks of the cards that a tree shows are distinct, `generate_config` writes no section twice for them, and a
`start` whose second discovery finds them never runs `phc2sys` from a clock to itself. -/
structure OneClockEach (t : Sysfs) (cards : List WifiCard) : Prop where
  clocks : (cards.filterMap (·.ptpClock)).Nodup
  sections : ∀ selection lines, configLines cards selection = .ok lines → (sections lines).Nodup
  phc2sys : ∀ {W : Type} (h : Host W) (o : StartOptions) (w : W) (d₁ : Daemon W),
    h.prepare o ⟨w, []⟩ = (.ok (), d₁) → h.sysfs d₁.world = t → ∀ bin source client name,
      .starting bin (Host.phc2sysArgs source client) name ∈ (h.start o ⟨w, []⟩).2.log → source ≠ client

/-- **Each card has a clock of its own** exactly when no two phys share a clock directory and no two clock directories
lead with the same name. -/
theorem oneClockEach_iff {t : Sysfs} {cards : List WifiCard} (h : t.discoverCards = .ok cards) :
    OneClockEach t cards ↔ t.ClocksApart := by
  rw [← Sysfs.clocks_nodup_iff h]
  refine ⟨fun hone => hone.clocks, fun hclocks => ⟨hclocks, fun selection lines hlines => ?_, ?_⟩⟩
  · exact sections_nodup hclocks (fun card hc => clock_ne_global h hc) hlines
  · intro W host o w d₁ hprep htree bin source client name he
    have hlog : d₁.log = [] := by
      have := log_prepare host o ⟨w, []⟩
      rw [hprep] at this
      exact this
    unfold Host.start at he
    rw [bind_ok hprep, look_bind, htree, h, orFail_ok_bind] at he
    rcases log_startSync host o cards d₁ he with hold | ⟨primary, hp, card, hc, hphy, heq⟩
    · rw [hlog] at hold
      cases hold
    · injection heq with _ hargs _
      have hclock := clock_ne hclocks hp hc hphy
      simp only [Host.phc2sysArgs, List.cons.injEq, and_true, true_and] at hargs
      rw [hargs.1, hargs.2]
      exact hclock

/-- Two mt76 phys, each with a directory of its own that holds no clock, and with a device. -/
def Sysfs.twoPhys (device₀ device₁ : DirId) (deviceDir : DirId → List Str) : Sysfs where
  ieee80211 := .ok [.ok ⟨utf8 "phy0", 0, some device₀⟩, .ok ⟨utf8 "phy1", 1, some device₁⟩]
  readDir := fun d => .ok ((deviceDir d).map .ok)
  driver := fun _ => .ok (some (utf8 "mt76"))

/-- Two devices with a clock each. -/
theorem oneClockEach_iff_run : ∃ cards, (Sysfs.twoPhys 2 3 fun d => if d = 2 then [utf8 "ptp0"] else
      if d = 3 then [utf8 "ptp1"] else []).discoverCards = .ok cards ∧
    OneClockEach (Sysfs.twoPhys 2 3 fun d => if d = 2 then [utf8 "ptp0"] else
      if d = 3 then [utf8 "ptp1"] else []) cards := by
  refine ⟨_, rfl, (oneClockEach_iff rfl).mpr ((Sysfs.clocks_nodup_iff rfl).mp ?_)⟩
  decide

/-- Two radios of one device, for which the module has registered `ptp0` and `ptp1` with the device: both phys get
`/dev/ptp0`, the configuration has that section twice, and `phc2sys` would run from it to itself. -/
theorem oneClockEach_counterexample : ∃ cards lines,
    (Sysfs.twoPhys 2 2 fun d => if d = 2 then [utf8 "ptp0", utf8 "ptp1"] else []).discoverCards = .ok cards ∧
    cards.map (·.ptpClock) = [some (utf8 "/dev/ptp0"), some (utf8 "/dev/ptp0")] ∧
    configLines cards auto = .ok lines ∧
    sections lines = [utf8 "[global]", utf8 "[/dev/ptp0]", utf8 "[/dev/ptp0]"] ∧
    ¬OneClockEach (Sysfs.twoPhys 2 2 fun d => if d = 2 then [utf8 "ptp0", utf8 "ptp1"] else []) cards := by
  refine ⟨_, _, rfl, by decide, rfl, by decide, fun h => ?_⟩
  exact absurd h.clocks (by decide)

end TsfSync.User
