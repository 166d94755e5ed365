import TsfSync.Daemon.Clocks
import TsfSync.Lib.StableSort

/-!
# The order of directories

`read_dir` lists the entries of a directory in any order. Two trees are the same up to that order (`SameTree`) if their
directories list the same entries. `discover_cards` sorts by `natural_sort_key` and `find_ptp_clock` takes the first clock
of a directory, so the order shows exactly through entries that fail in different ways, through phys of one key that are
different cards, and through clock directories with several clocks (`orderFree_iff`).
-/

namespace TsfSync.User

open TsfSync

/-! ## Trees that differ in order only -/

/-- Two listings of one directory. -/
def SameListing {α : Type} : Except IoError (List α) → Except IoError (List α) → Prop
  | .ok as, .ok bs => as.Perm bs
  | .error e, .error f => e = f
  | _, _ => False

theorem SameListing.refl {α : Type} : ∀ listing : Except IoError (List α), SameListing listing listing
  | .ok as => List.Perm.refl as
  | .error _ => rfl

theorem SameListing.ok_left {α : Type} {as : List α} : ∀ {b : Except IoError (List α)}, SameListing (.ok as) b →
    ∃ bs, b = .ok bs ∧ as.Perm bs
  | .ok bs, h => ⟨bs, rfl, h⟩

namespace Sysfs

/-- Two trees whose directories list the same entries. -/
structure SameTree (t u : Sysfs) : Prop where
  ieee80211 : SameListing t.ieee80211 u.ieee80211
  readDir : ∀ d, SameListing (t.readDir d) (u.readDir d)
  driver : u.driver = t.driver

theorem SameTree.refl (t : Sysfs) : SameTree t t := ⟨SameListing.refl _, fun _ => SameListing.refl _, rfl⟩

/-- `discover_cards` gives the same whichever way the directories are listed. -/
def OrderFree (t : Sysfs) : Prop :=
  ∀ u v, SameTree t u → SameTree t v → u.discoverCards = v.discoverCards

/-- The errors among the entries of a listing. -/
def failures {α : Type} (entries : List (Except IoError α)) : List IoError :=
  entries.filterMap fun entry =>
    match entry with
    | .ok _ => none
    | .error e => some e

/-- The names of clocks in a directory. -/
def clockNames (t : Sysfs) (d : DirId) : List Str :=
  match t.readDir d with
  | .error _ => []
  | .ok entries => (entries.filterMap Except.toOption).filter (startsWith · (utf8 "ptp"))

/-- The name of the clock of a phy. -/
def leadingClock (t : Sysfs) (entry : ClassEntry) : Option Str := (t.clockDir entry).bind t.ptpEntry

/-- Nothing of the order shows among some phys: a clock directory has one name of a clock, and phys of one key have the
same name, driver and clock. -/
structure TieFree (t : Sysfs) (entries : List ClassEntry) : Prop where
  clocks : ∀ p ∈ entries, ∀ d, t.clockDir p = some d → ∀ n ∈ t.clockNames d, ∀ m ∈ t.clockNames d, n = m
  keys : ∀ p ∈ entries, ∀ q ∈ entries, naturalSortKey p.name = naturalSortKey q.name →
    p.name = q.name ∧ t.readDriver p.device = t.readDriver q.device ∧ t.leadingClock p = t.leadingClock q

/-- The order shows nowhere in a tree: the class directory cannot be read, or its entries fail in one way only, or all can
be read and nothing of the order shows among its phys. -/
def NoTies (t : Sysfs) : Prop :=
  match t.ieee80211 with
  | .error _ => True
  | .ok entries =>
    (failures entries ≠ [] ∧ ∀ e ∈ failures entries, ∀ f ∈ failures entries, e = f) ∨
    (failures entries = [] ∧ t.TieFree (phys entries))

/-! ## Keys -/

instance keyLe_total : Std.Total fun a b : WifiCard => keyLe (naturalSortKey a.phy) (naturalSortKey b.phy) = true where
  total a b := by
    generalize naturalSortKey a.phy = k
    generalize naturalSortKey b.phy = l
    simp only [keyLe, Bool.or_eq_true, Bool.and_eq_true, decide_eq_true_eq, beq_iff_eq]
    rcases Std.Trichotomous.rel_or_eq_or_rel_swap (r := fun a b : Str => a < b) (a := k.1) (b := l.1) with h | h | h
    · exact .inl (.inl h)
    · rcases UInt64.le_total k.2 l.2 with h' | h'
      · exact .inl (.inr ⟨h, h'⟩)
      · exact .inr (.inr ⟨h.symm, h'⟩)
    · exact .inr (.inl h)

theorem keyLe_trans {k l m : Str × UInt64} (hkl : keyLe k l = true) (hlm : keyLe l m = true) : keyLe k m = true := by
  simp only [keyLe, Bool.or_eq_true, Bool.and_eq_true, decide_eq_true_eq, beq_iff_eq] at hkl hlm ⊢
  rcases hkl with hkl | ⟨hkl, hkl'⟩
  · rcases hlm with hlm | ⟨hlm, -⟩
    · exact .inl (List.lt_trans hkl hlm)
    · exact .inl (hlm ▸ hkl)
  · rcases hlm with hlm | ⟨hlm, hlm'⟩
    · exact .inl (hkl ▸ hlm)
    · exact .inr ⟨hkl.trans hlm, UInt64.le_trans hkl' hlm'⟩

instance keyLe_isTrans : IsTrans WifiCard
    fun a b => keyLe (naturalSortKey a.phy) (naturalSortKey b.phy) = true where
  trans _ _ _ := keyLe_trans

theorem keyLe_antisymm {k l : Str × UInt64} (hkl : keyLe k l = true) (hlk : keyLe l k = true) : k = l := by
  simp only [keyLe, Bool.or_eq_true, Bool.and_eq_true, decide_eq_true_eq, beq_iff_eq] at hkl hlk
  rcases hkl with hkl | ⟨hkl, hkl'⟩
  · rcases hlk with hlk | ⟨hlk, -⟩
    · exact absurd hlk (List.lt_asymm hkl)
    · exact absurd (hlk ▸ hkl) (List.lt_irrefl _)
  · rcases hlk with hlk | ⟨-, hlk'⟩
    · exact absurd (hkl ▸ hlk) (List.lt_irrefl _)
    · exact Prod.ext hkl (UInt64.le_antisymm hkl' hlk')

theorem keyLe_refl (k : Str × UInt64) : keyLe k k = true := by
  simp [keyLe]

/-! ## What discovery finds -/

section Found

variable {t u : Sysfs} {entries : List (Except IoError ClassEntry)} {p q : ClassEntry} {d : DirId}

theorem ptpEntry_eq_head (t : Sysfs) (d : DirId) : t.ptpEntry d = (t.clockNames d).head? := by
  unfold ptpEntry clockNames
  cases t.readDir d with
  | error e => rfl
  | ok names => rw [List.head?_filter]

theorem findPtpClockIn_eq (t : Sysfs) (driver : Str) : ∀ dirs : List DirId, t.findPtpClockIn driver dirs =
    match (dirs.find? fun d => (t.ptpEntry d).isSome).bind t.ptpEntry with
    | some name => (some (utf8 "/dev/" ++ name), if nativePtpDrivers.contains driver then .native else .tsfPtp)
    | none => (none, .none)
  | [] => rfl
  | d :: dirs => by
    rw [findPtpClockIn, List.find?_cons]
    cases h : t.ptpEntry d with
    | none => exact findPtpClockIn_eq t driver dirs
    | some name => simp [h]

/-- A card shows the name, the driver and the clock of its phy, and nothing else. -/
theorem cardOf_eq_iff : t.cardOf p = u.cardOf q ↔
    p.name = q.name ∧ t.readDriver p.device = u.readDriver q.device ∧ t.leadingClock p = u.leadingClock q := by
  constructor
  · intro h
    have hclock := congrArg WifiCard.ptpClock h
    rw [cardOf_ptpClock, cardOf_ptpClock] at hclock
    refine ⟨congrArg WifiCard.phy h, congrArg WifiCard.driver h, ?_⟩
    apply Option.map_injective _ hclock
    intro a b hab
    exact List.append_cancel_left hab
  · rintro ⟨hname, hdriver, hclock⟩
    have hfind : t.findPtpClock p (t.readDriver p.device) = u.findPtpClock q (u.readDriver q.device) := by
      unfold findPtpClock
      rw [findPtpClockIn_eq, findPtpClockIn_eq, hdriver]
      unfold leadingClock clockDir at hclock
      rw [hclock]
    unfold cardOf
    dsimp only
    rw [hfind, hdriver, hname]

theorem failures_cons_ok {α : Type} (a : α) (rest : List (Except IoError α)) :
    failures (.ok a :: rest) = failures rest := rfl

/-- The walk over the class directory fails with the first entry that does. -/
theorem discoverLoop_eq (t : Sysfs) : ∀ entries : List (Except IoError ClassEntry), t.discoverLoop entries =
    match (failures entries).head? with
    | some e => .error (.sysfs e)
    | none => .ok ((phys entries).map t.cardOf)
  | [] => rfl
  | .error e :: entries => rfl
  | .ok entry :: entries => by
    have ih := discoverLoop_eq t entries
    rw [discoverLoop, failures_cons_ok]
    cases hphy : startsWith entry.name (utf8 "phy") with
    | false =>
      rw [phys_cons_skip hphy, ← ih]
      rfl
    | true =>
      rw [phys_cons_phy hphy, ih]
      cases (failures entries).head? with
      | none => rfl
      | some e => rfl

theorem discoverCards_of_failure (h : t.ieee80211 = .ok entries) {e : IoError} (he : (failures entries).head? = some e) :
    t.discoverCards = .error (.sysfs e) := by
  unfold discoverCards
  rw [h]
  dsimp only
  rw [discoverLoop_eq, he]
  rfl

theorem discoverCards_of_ok (h : t.ieee80211 = .ok entries) (hf : failures entries = []) :
    t.discoverCards = .ok (sortCards ((phys entries).map t.cardOf)) := by
  unfold discoverCards
  rw [h]
  dsimp only
  rw [discoverLoop_eq, hf]
  rfl

end Found

/-! ## Trees without ties -/

section Same

variable {t u : Sysfs} {entries : List (Except IoError ClassEntry)} {p : ClassEntry} {d : DirId}

theorem SameTree.clockNames (h : SameTree t u) (d : DirId) : (t.clockNames d).Perm (u.clockNames d) := by
  have hd := h.readDir d
  unfold Sysfs.clockNames
  cases ht : t.readDir d with
  | ok names =>
    rw [ht] at hd
    obtain ⟨names', hu, hperm⟩ := hd.ok_left
    rw [hu]
    exact (hperm.filterMap _).filter _
  | error e =>
    rw [ht] at hd
    cases hu : u.readDir d with
    | ok names => rw [hu] at hd; exact hd.elim
    | error f => exact .nil

/-- Whether a directory has a clock does not depend on the order. -/
theorem SameTree.isSome_ptpEntry (h : SameTree t u) (d : DirId) :
    (u.ptpEntry d).isSome = (t.ptpEntry d).isSome := by
  have hlen := (h.clockNames d).length_eq
  rw [ptpEntry_eq_head, ptpEntry_eq_head]
  cases ht : t.clockNames d with
  | nil =>
    rw [ht] at hlen
    rw [List.length_eq_zero_iff.mp hlen.symm]
  | cons n ns =>
    cases hu : u.clockNames d with
    | nil => rw [ht, hu] at hlen; cases hlen
    | cons m ms => rfl

theorem SameTree.clockDir (h : SameTree t u) (p : ClassEntry) : u.clockDir p = t.clockDir p := by
  unfold Sysfs.clockDir
  simp only [h.isSome_ptpEntry]

theorem SameTree.readDriver (h : SameTree t u) (device : Option DirId) : u.readDriver device = t.readDriver device := by
  unfold Sysfs.readDriver
  rw [h.driver]

/-- A clock directory with one name leads with it whatever its order. -/
theorem SameTree.leadingClock (h : SameTree t u)
    (hone : ∀ d, t.clockDir p = some d → ∀ n ∈ t.clockNames d, ∀ m ∈ t.clockNames d, n = m) :
    u.leadingClock p = t.leadingClock p := by
  unfold Sysfs.leadingClock
  rw [h.clockDir]
  cases hd : t.clockDir p with
  | none => rfl
  | some d =>
    have hsome := h.isSome_ptpEntry d
    obtain ⟨n, hn⟩ := t.clockDir_ptpEntry hd
    rw [hn] at hsome
    obtain ⟨m, hm⟩ := Option.isSome_iff_exists.mp hsome
    rw [Option.bind_some, Option.bind_some, hn, hm]
    rw [ptpEntry_eq_head] at hn hm
    have hmem : m ∈ t.clockNames d := (h.clockNames d).mem_iff.mpr (List.mem_of_head? hm)
    rw [hone d hd m hmem n (List.mem_of_head? hn)]

theorem failures_perm {α : Type} {as bs : List (Except IoError α)} (h : as.Perm bs) :
    (failures as).Perm (failures bs) := h.filterMap _

theorem phys_perm {as bs : List (Except IoError ClassEntry)} (h : as.Perm bs) : (phys as).Perm (phys bs) :=
  (h.filterMap _).filter _

/-- Without ties discovery does not depend on the order. -/
theorem NoTies.discoverCards (ht : NoTies t) (h : SameTree t u) : u.discoverCards = t.discoverCards := by
  have hclass := h.ieee80211
  unfold NoTies at ht
  cases hentries : t.ieee80211 with
  | error e =>
    rw [hentries] at hclass
    have hu : u.ieee80211 = .error e := by
      cases hu : u.ieee80211 with
      | ok entries => rw [hu] at hclass; exact hclass.elim
      | error f => rw [hu] at hclass; exact congrArg Except.error (Eq.symm hclass)
    unfold Sysfs.discoverCards
    rw [hu, hentries]
  | ok entries =>
    rw [hentries] at hclass ht
    obtain ⟨entries', hu, hperm⟩ := hclass.ok_left
    rcases ht with ⟨hne, hall⟩ | ⟨hnone, hfree⟩
    · -- whichever entry fails first, it is the same error
      obtain ⟨e, he⟩ := Option.isSome_iff_exists.mp (List.isSome_head?.mpr hne)
      have hne' : failures entries' ≠ [] := by
        intro hnil
        have := failures_perm hperm
        rw [hnil] at this
        exact hne this.eq_nil
      obtain ⟨f, hf⟩ := Option.isSome_iff_exists.mp (List.isSome_head?.mpr hne')
      have hef : f = e :=
        hall f ((failures_perm hperm).mem_iff.mpr (List.mem_of_head? hf)) e (List.mem_of_head? he)
      rw [discoverCards_of_failure hentries he, discoverCards_of_failure hu hf, hef]
    · have hnone' : failures entries' = [] := by
        have := failures_perm hperm
        rw [hnone] at this
        exact this.symm.eq_nil
      have hcards : (phys entries').map u.cardOf = (phys entries').map t.cardOf := by
        apply List.map_congr_left
        intro p hp
        rw [cardOf_eq_iff]
        have hp' : p ∈ phys entries := (phys_perm hperm).mem_iff.mpr hp
        exact ⟨rfl, h.readDriver _, h.leadingClock (hfree.clocks p hp')⟩
      rw [discoverCards_of_ok hentries hnone, discoverCards_of_ok hu hnone', hcards]
      congr 1
      symm
      apply StableSort.insertionSort_eq_of_perm ((phys_perm hperm).map _)
      intro a ha b hb hab hba
      obtain ⟨p, hp, rfl⟩ := List.mem_map.mp ha
      obtain ⟨q, hq, rfl⟩ := List.mem_map.mp hb
      rw [cardOf_eq_iff]
      exact hfree.keys p hp q hq (keyLe_antisymm hab hba)

end Same

/-! ## Ties show -/

section Ties

variable {t : Sysfs} {entries : List (Except IoError ClassEntry)} {p q : ClassEntry} {d : DirId} {n m : Str}

/-- Any element can be listed first. -/
theorem exists_perm_cons {α : Type} {a : α} {as : List α} (h : a ∈ as) : ∃ rest, as.Perm (a :: rest) := by
  obtain ⟨front, back, rfl⟩ := List.append_of_mem h
  exact ⟨front ++ back, List.perm_middle⟩

/-- More elements pass a weaker test, if one of them fails the stronger one. -/
theorem countP_lt_countP {α : Type} {f g : α → Bool} {as : List α} {a : α} (hfg : ∀ x ∈ as, f x = true → g x = true)
    (ha : a ∈ as) (hf : f a = false) (hg : g a = true) : as.countP f < as.countP g := by
  obtain ⟨front, back, rfl⟩ := List.append_of_mem ha
  have hfront : front.countP f ≤ front.countP g := by
    apply List.countP_mono_left
    intro x hx
    exact hfg x (List.mem_append_left _ hx)
  have hback : back.countP f ≤ back.countP g := by
    apply List.countP_mono_left
    intro x hx
    exact hfg x (List.mem_append_right _ (List.mem_cons_of_mem _ hx))
  have hcf : (a :: back).countP f = back.countP f := List.countP_cons_of_neg (by simp [hf])
  have hcg : (a :: back).countP g = back.countP g + 1 := List.countP_cons_of_pos hg
  rw [List.countP_append, List.countP_append, hcf, hcg]
  omega

/-- The tree with the class directory listed in another way. -/
def listing (t : Sysfs) (entries : List (Except IoError ClassEntry)) : Sysfs := { t with ieee80211 := .ok entries }

theorem sameTree_listing {entries' : List (Except IoError ClassEntry)} (h : t.ieee80211 = .ok entries)
    (hperm : entries.Perm entries') : SameTree t (t.listing entries') := by
  refine ⟨?_, fun d => SameListing.refl _, rfl⟩
  rw [h]
  exact hperm

theorem cardOf_listing (t : Sysfs) (entries' : List (Except IoError ClassEntry)) :
    (t.listing entries').cardOf = t.cardOf := by
  funext p
  exact cardOf_eq_iff.mpr ⟨rfl, rfl, rfl⟩

/-- Entries that fail in different ways show. -/
theorem OrderFree.failures_eq (ht : OrderFree t) (h : t.ieee80211 = .ok entries) {e f : IoError}
    (he : e ∈ failures entries) (hf : f ∈ failures entries) : e = f := by
  -- with the entry of an error first, discovery fails with that error
  have hfront : ∀ e ∈ failures entries, ∃ u, SameTree t u ∧ u.discoverCards = .error (.sysfs e) := by
    intro e he
    obtain ⟨entry, hentry, heq⟩ := List.mem_filterMap.mp he
    cases entry with
    | ok p => cases heq
    | error e' =>
      cases heq
      obtain ⟨rest, hrest⟩ := exists_perm_cons hentry
      exact ⟨_, sameTree_listing h hrest, discoverCards_of_failure rfl rfl⟩
  obtain ⟨u, hu, hue⟩ := hfront e he
  obtain ⟨v, hv, hvf⟩ := hfront f hf
  have huv := ht u v hu hv
  rw [hue, hvf] at huv
  cases huv
  rfl

/-- Different cards of one key show. -/
theorem OrderFree.cardOf_eq (ht : OrderFree t) (h : t.ieee80211 = .ok entries) (hnone : failures entries = [])
    (hp : p ∈ phys entries) (hq : q ∈ phys entries) (hkey : naturalSortKey p.name = naturalSortKey q.name) :
    t.cardOf p = t.cardOf q := by
  -- with a phy listed first, its card leads what is sorted
  have hfront : ∀ p ∈ phys entries, ∃ u rest, SameTree t u ∧
      u.discoverCards = .ok (sortCards (t.cardOf p :: rest)) := by
    intro p hp
    obtain ⟨hmem, hphy⟩ := List.mem_filter.mp hp
    obtain ⟨entry, hentry, heq⟩ := List.mem_filterMap.mp hmem
    cases entry with
    | error e => cases heq
    | ok p' =>
      cases heq
      obtain ⟨rest, hrest⟩ := exists_perm_cons hentry
      have hfail : failures (.ok p :: rest) = [] := by
        have := failures_perm hrest
        rw [hnone] at this
        exact this.symm.eq_nil
      have htake : phys (.ok p :: rest) = p :: phys rest := by
        simp [phys, Except.toOption, hphy]
      refine ⟨_, (phys rest).map t.cardOf, sameTree_listing h hrest, ?_⟩
      rw [discoverCards_of_ok rfl hfail, htake, List.map_cons, cardOf_listing]
  obtain ⟨u, restu, hu, hup⟩ := hfront p hp
  obtain ⟨v, restv, hv, hvq⟩ := hfront q hq
  have huv := ht u v hu hv
  rw [hup, hvq] at huv
  injection huv with hsort
  apply StableSort.eq_of_insertionSort_cons_eq _ _ hsort
  · exact (hkey ▸ keyLe_refl _ : keyLe (naturalSortKey p.name) (naturalSortKey q.name) = true)
  · exact (hkey ▸ keyLe_refl _ : keyLe (naturalSortKey q.name) (naturalSortKey p.name) = true)

/-- A tree with `n` as the first clock of one directory, the other directories as they are. -/
theorem exists_leading (hn : n ∈ t.clockNames d) :
    ∃ u, SameTree t u ∧ u.ieee80211 = t.ieee80211 ∧ u.ptpEntry d = some n ∧
      ∀ d' ≠ d, u.ptpEntry d' = t.ptpEntry d' := by
  cases hd : t.readDir d with
  | error e =>
    simp only [clockNames, hd] at hn
    cases hn
  | ok names =>
    simp only [clockNames, hd] at hn
    obtain ⟨hmem, hptp⟩ := List.mem_filter.mp hn
    obtain ⟨entry, hentry, heq⟩ := List.mem_filterMap.mp hmem
    cases entry with
    | error e => cases heq
    | ok n' =>
      cases heq
      obtain ⟨rest, hrest⟩ := exists_perm_cons hentry
      refine ⟨{ t with readDir := Function.update t.readDir d (.ok (.ok n :: rest)) }, ⟨?_, ?_, rfl⟩, rfl, ?_, ?_⟩
      · exact SameListing.refl _
      · intro d'
        show SameListing (t.readDir d') (Function.update t.readDir d (.ok (.ok n :: rest)) d')
        by_cases h : d' = d
        · rw [h, hd, Function.update_self]
          exact hrest
        · rw [Function.update_of_ne h]
          exact SameListing.refl _
      · simp [ptpEntry, Except.toOption, hptp]
      · intro d' h
        simp [ptpEntry, h]

/-- Different clocks in a clock directory show. -/
theorem OrderFree.clock_eq (ht : OrderFree t) (h : t.ieee80211 = .ok entries) (hnone : failures entries = [])
    (hp : p ∈ phys entries) (hd : t.clockDir p = some d) (hn : n ∈ t.clockNames d) (hm : m ∈ t.clockNames d) :
    n = m := by
  by_contra hne
  obtain ⟨u, hu, hclassu, hun, hurest⟩ := exists_leading hn
  obtain ⟨v, hv, hclassv, hvm, hvrest⟩ := exists_leading hm
  have huv := ht u v hu hv
  rw [discoverCards_of_ok (hclassu.trans h) hnone, discoverCards_of_ok (hclassv.trans h) hnone] at huv
  injection huv with hsort
  have hcards : ((phys entries).map u.cardOf).Perm ((phys entries).map v.cardOf) :=
    (List.perm_insertionSort _ _).symm.trans ((List.Perm.of_eq hsort).trans (List.perm_insertionSort _ _))
  -- fewer phys have the clock `n` where the directory leads with `m`
  let has : WifiCard → Bool := fun card => card.ptpClock == some (utf8 "/dev/" ++ n)
  have hhas : ∀ (w : Sysfs) (q : ClassEntry), has (w.cardOf q) = true ↔ w.leadingClock q = some n := by
    intro w q
    rw [beq_iff_eq, cardOf_ptpClock]
    constructor
    · intro h
      obtain ⟨n', hn', heq⟩ := Option.map_eq_some_iff.mp h
      rwa [List.append_cancel_left heq] at hn'
    · intro h
      exact Option.map_eq_some_iff.mpr ⟨n, h, rfl⟩
  have hlt : (phys entries).countP (fun q => has (v.cardOf q)) < (phys entries).countP (fun q => has (u.cardOf q)) := by
    refine countP_lt_countP ?_ hp ?_ ?_
    · intro q _ hq
      rw [hhas] at hq ⊢
      unfold leadingClock at hq ⊢
      rw [hv.clockDir] at hq
      rw [hu.clockDir]
      cases hdir : t.clockDir q with
      | none => rw [hdir] at hq; cases hq
      | some d' =>
        rw [hdir, Option.bind_some] at hq
        rw [Option.bind_some]
        by_cases heq : d' = d
        · rw [heq, hun]
        · rw [hurest d' heq, ← hvrest d' heq, hq]
    · rw [Bool.eq_false_iff, ne_eq, hhas]
      unfold leadingClock
      rw [hv.clockDir, hd, Option.bind_some, hvm]
      intro heq
      exact hne (Option.some.inj heq).symm
    · rw [hhas]
      unfold leadingClock
      rw [hu.clockDir, hd, Option.bind_some, hun]
  have hcount := hcards.countP_eq has
  rw [List.countP_map, List.countP_map] at hcount
  exact absurd hcount (Nat.ne_of_gt hlt)

end Ties

/-! ## The result -/

/-- **Discovery does not depend on the order of directories** exactly when nothing ties: the class directory cannot be
read, or its entries fail in one way only, or all can be read, every clock directory has one clock, and phys of one sort
key have the same name, driver and clock. -/
theorem orderFree_iff (t : Sysfs) : OrderFree t ↔ NoTies t := by
  constructor
  · intro ht
    unfold NoTies
    cases hentries : t.ieee80211 with
    | error e => exact trivial
    | ok entries =>
      by_cases hnone : failures entries = []
      · refine .inr ⟨hnone, ⟨?_, ?_⟩⟩
        · intro p hp d hd n hn m hm
          exact ht.clock_eq hentries hnone hp hd hn hm
        · intro p hp q hq hkey
          exact cardOf_eq_iff.mp (ht.cardOf_eq hentries hnone hp hq hkey)
      · exact .inl ⟨hnone, fun e he f hf => ht.failures_eq hentries he hf⟩
  · intro ht u v hu hv
    rw [ht.discoverCards hu, ht.discoverCards hv]

/-- Two phys of mt76 with a device each, and what the class directory and the first device list. -/
def listed (class_ : List ClassEntry) (device : List Str) : Sysfs where
  ieee80211 := .ok (class_.map .ok)
  readDir := fun d => .ok (if d = 2 then device.map .ok else if d = 3 then [.ok (utf8 "ptp2")] else [])
  driver := fun _ => .ok (some (utf8 "mt76"))

/-- Two phys that were renamed and have one sort key come in the order of the class directory, and with it the primary
that is selected by itself; a device with two clocks gives the one that it lists first. -/
theorem orderFree_counterexample :
    let left : ClassEntry := ⟨utf8 "phy0-left", 0, some 2⟩
    let right : ClassEntry := ⟨utf8 "phy0-right", 1, some 3⟩
    let ptp0 := utf8 "ptp0"
    let ptp1 := utf8 "ptp1"
    let shown := fun t : Sysfs => t.discoverCards.map fun cards => cards.map fun card => (card.phy, card.ptpClock)
    (SameTree (listed [left, right] [ptp0]) (listed [right, left] [ptp0]) ∧
      shown (listed [left, right] [ptp0]) =
        .ok [(utf8 "phy0-left", some (utf8 "/dev/ptp0")), (utf8 "phy0-right", some (utf8 "/dev/ptp2"))] ∧
      shown (listed [right, left] [ptp0]) =
        .ok [(utf8 "phy0-right", some (utf8 "/dev/ptp2")), (utf8 "phy0-left", some (utf8 "/dev/ptp0"))]) ∧
    (SameTree (listed [left] [ptp0, ptp1]) (listed [left] [ptp1, ptp0]) ∧
      shown (listed [left] [ptp0, ptp1]) = .ok [(utf8 "phy0-left", some (utf8 "/dev/ptp0"))] ∧
      shown (listed [left] [ptp1, ptp0]) = .ok [(utf8 "phy0-left", some (utf8 "/dev/ptp1"))]) ∧
    ¬OrderFree (listed [left, right] [ptp0]) ∧ ¬OrderFree (listed [left] [ptp0, ptp1]) := by
  intro left right ptp0 ptp1 shown
  have hclass : SameTree (listed [left, right] [ptp0]) (listed [right, left] [ptp0]) :=
    ⟨List.Perm.swap _ _ _, fun d => SameListing.refl _, rfl⟩
  have hdevice : SameTree (listed [left] [ptp0, ptp1]) (listed [left] [ptp1, ptp0]) := by
    refine ⟨List.Perm.refl _, fun d => ?_, rfl⟩
    by_cases h : d = 2
    · subst h
      exact List.Perm.swap _ _ _
    · simpa [listed, h] using SameListing.refl _
  refine ⟨⟨hclass, by decide, by decide⟩, ⟨hdevice, by decide, by decide⟩, ?_, ?_⟩
  · intro h
    have hsame := congrArg (Except.map (List.map WifiCard.phy)) (h _ _ hclass (SameTree.refl _))
    exact absurd hsame (by decide)
  · intro h
    have hsame := congrArg (Except.map (List.map WifiCard.ptpClock)) (h _ _ hdevice (SameTree.refl _))
    exact absurd hsame (by decide)

end Sysfs

end TsfSync.User
