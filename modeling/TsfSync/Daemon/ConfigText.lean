import TsfSync.Daemon.Clocks

/-!
# What the configuration says

A reader of the configuration takes it line by line (`linesOf`) and finds its sections: a header and the lines up to the
next one (`sectionsOf`). For cards with distinct names `generate_config` succeeds exactly when there are two clocks and a
primary can be selected, and then its text describes the cards with a clock, all of them once (`generateConfig_faithful`).
-/

namespace TsfSync.User

/-! ## Reading a text -/

/-- The lines of a text; an empty one stands after the last newline. -/
def linesOf (text : Str) : List Str := text.splitOn 10

/-- A line that opens a section. -/
def isHeader (line : Str) : Bool := startsWith line (utf8 "[")

/-- A line that sets `serverOnly`. -/
def isServerOnly (line : Str) : Bool := startsWith line (utf8 "serverOnly")

/-- A section of a configuration: its header and the lines up to the next one. -/
structure ConfigSection where
  header : Str
  body : List Str
  deriving DecidableEq, Repr

/-- The sections among some lines. -/
def sectionsOf : List Str → List ConfigSection
  | [] => []
  | line :: lines =>
    if isHeader line then ⟨line, lines.takeWhile (!isHeader ·)⟩ :: sectionsOf lines
    else sectionsOf lines

/-- Lines without a newline are read as they were written. -/
theorem linesOf_flatMap : ∀ {lines : List Str}, (∀ line ∈ lines, 10 ∉ line) →
    linesOf (lines.flatMap (· ++ utf8 "\n")) = lines ++ [[]]
  | [], _ => rfl
  | line :: lines, h => by
    have hrest : linesOf (lines.flatMap (· ++ utf8 "\n")) = lines ++ [[]] := by
      apply linesOf_flatMap
      intro l hl
      exact h l (List.mem_cons_of_mem _ hl)
    have hsplit : (line ++ 10 :: lines.flatMap (· ++ utf8 "\n")).splitOn 10 =
        line :: linesOf (lines.flatMap (· ++ utf8 "\n")) :=
      List.splitOn_append_cons_self_of_not_mem (h line List.mem_cons_self) _
    rw [List.flatMap_cons, List.append_assoc, List.cons_append, ← hrest, ← hsplit]
    rfl

/-- The headers of the sections are the lines that open one. -/
theorem sectionsOf_header (lines : List Str) : (sectionsOf lines).map (·.header) = sections lines := by
  induction lines with
  | nil => rfl
  | cons line lines ih =>
    rw [sectionsOf, sections, List.filter_cons]
    by_cases h : startsWith line (utf8 "[") = true
    · simp [isHeader, h, ih, sections]
    · simp [isHeader, h, ih, sections]

/-- Among lines that set no `serverOnly` no section does. -/
theorem sectionsOf_noServer : ∀ {lines : List Str}, (∀ line ∈ lines, isServerOnly line = false) →
    ∀ s ∈ sectionsOf lines, s.body.countP isServerOnly = 0
  | [], _, s, hs => by cases hs
  | line :: lines, h, s, hs => by
    have hlines : ∀ l ∈ lines, isServerOnly l = false := by
      intro l hl
      exact h l (List.mem_cons_of_mem _ hl)
    rw [sectionsOf] at hs
    split at hs
    · rcases List.mem_cons.mp hs with rfl | hs
      · rw [List.countP_eq_zero]
        intro l hl
        simp [hlines l ((List.takeWhile_prefix _).subset hl)]
      · exact sectionsOf_noServer hlines s hs
    · exact sectionsOf_noServer hlines s hs

/-! ## The lines of the configuration -/

section Lines

variable {cards ptpCards : List WifiCard} {primary card : WifiCard} {selection : Str}

@[simp] theorem isHeader_sectionLine (name : Str) : isHeader (sectionLine name) = true := rfl

@[simp] theorem isHeader_commentLine (role : Str) (card : WifiCard) : isHeader (commentLine role card) = false := rfl

@[simp] theorem isServerOnly_sectionLine (name : Str) : isServerOnly (sectionLine name) = false := rfl

@[simp] theorem isServerOnly_commentLine (role : Str) (card : WifiCard) :
    isServerOnly (commentLine role card) = false := rfl

/-- The sections of the other cards. -/
def othersLines (ptpCards : List WifiCard) (primary : WifiCard) : List Str :=
  ptpCards.flatMap fun card => if card.phy = primary.phy then [] else secondaryLines card

/-- No line of another card sets `serverOnly`. -/
theorem othersLines_noServer {line : Str} (h : line ∈ othersLines ptpCards primary) : isServerOnly line = false := by
  obtain ⟨card, -, hline⟩ := List.mem_flatMap.mp h
  split at hline
  · cases hline
  · simp only [secondaryLines, List.mem_cons, List.not_mem_nil, or_false] at hline
    rcases hline with rfl | rfl | rfl
    · rfl
    · rfl
    · rfl

/-- The sections of the whole text: global, the primary's, and those of what follows. -/
theorem sectionsOf_lines (primary : WifiCard) (rest : List Str) :
    sectionsOf (globalLines ++ primaryLines primary ++ rest) =
      ⟨sectionLine (utf8 "global"), globalLines.tail ++ [commentLine (utf8 "Primary") primary]⟩ ::
      ⟨sectionLine primary.clock, utf8 "serverOnly              1" :: rest.takeWhile (!isHeader ·)⟩ ::
      sectionsOf rest := rfl

/-- A card whose name, driver and clock have no newline. -/
structure OnOneLine (card : WifiCard) : Prop where
  phy : 10 ∉ card.phy
  driver : 10 ∉ card.driver
  clock : 10 ∉ card.clock

theorem sectionLine_oneLine {name : Str} (h : 10 ∉ name) : 10 ∉ sectionLine name := by
  have hopen : (10 : UInt8) ∉ utf8 "[" := by decide
  have hclose : (10 : UInt8) ∉ utf8 "]" := by decide
  simp [sectionLine, h, hopen, hclose]

theorem commentLine_oneLine {role : Str} (hrole : 10 ∉ role) (h : OnOneLine card) : 10 ∉ commentLine role card := by
  have hhash : (10 : UInt8) ∉ utf8 "# " := by decide
  have hcolon : (10 : UInt8) ∉ utf8 ": " := by decide
  have hopen : (10 : UInt8) ∉ utf8 " (" := by decide
  have hclose : (10 : UInt8) ∉ utf8 ")" := by decide
  simp [commentLine, hrole, h.phy, h.driver, hhash, hcolon, hopen, hclose]

theorem globalLines_oneLine : ∀ line ∈ globalLines, 10 ∉ line := by decide

theorem primaryLines_oneLine (h : OnOneLine primary) : ∀ line ∈ primaryLines primary, 10 ∉ line := by
  intro line hline
  simp only [primaryLines, List.mem_cons, List.not_mem_nil, or_false] at hline
  rcases hline with rfl | rfl | rfl
  · exact commentLine_oneLine (by decide) h
  · exact sectionLine_oneLine h.clock
  · decide

theorem othersLines_oneLine (h : ∀ card ∈ ptpCards, OnOneLine card) :
    ∀ line ∈ othersLines ptpCards primary, 10 ∉ line := by
  intro line hline
  obtain ⟨card, hcard, hline⟩ := List.mem_flatMap.mp hline
  split at hline
  · cases hline
  · simp only [secondaryLines, List.mem_cons, List.not_mem_nil, or_false] at hline
    rcases hline with rfl | rfl | rfl
    · exact List.not_mem_nil
    · exact commentLine_oneLine (by decide) (h card hcard)
    · exact sectionLine_oneLine (h card hcard).clock

/-- A generated text is read back line by line. -/
theorem generateConfig_eq_ok {text : Str} (hone : ∀ card ∈ ptpCardsOf cards, OnOneLine card)
    (h : generateConfig cards selection = .ok text) :
    ∃ primary, selectPrimary (ptpCardsOf cards) selection = .ok primary ∧
      linesOf text = globalLines ++ primaryLines primary ++ (othersLines (ptpCardsOf cards) primary ++ [[]]) := by
  unfold generateConfig at h
  cases hlines : configLines cards selection with
  | error e => rw [hlines] at h; cases h
  | ok lines =>
    rw [hlines] at h
    cases h
    obtain ⟨primary, hsel, rfl⟩ := configLines_eq_ok hlines
    refine ⟨primary, hsel, ?_⟩
    rw [← List.append_assoc]
    apply linesOf_flatMap
    intro line hline
    rcases List.mem_append.mp hline with hline | hline
    · rcases List.mem_append.mp hline with hline | hline
      · exact globalLines_oneLine line hline
      · exact primaryLines_oneLine (hone primary (selectPrimary_mem hsel)) line hline
    · exact othersLines_oneLine hone line hline

end Lines

/-! ## Which cards the text describes -/

section Cards

variable {cards ptpCards : List WifiCard} {primary : WifiCard} {selection : Str}

/-- When a primary can be selected among cards with a clock. -/
theorem selectPrimary_isOk_iff (hclocks : ∀ card ∈ ptpCards, card.ptpClock.isSome) (hne : ptpCards ≠ []) :
    (∃ primary, selectPrimary ptpCards selection = .ok primary) ↔
      selection = auto ∨ ∃ card ∈ ptpCards, card.phy = selection := by
  unfold selectPrimary
  by_cases hsel : selection = auto
  · rw [if_neg (not_not.mpr hsel)]
    refine iff_of_true ?_ (.inl hsel)
    split
    · exact ⟨_, rfl⟩
    · obtain ⟨card, rest, rfl⟩ := List.exists_cons_of_ne_nil hne
      exact ⟨card, rfl⟩
  · rw [if_pos hsel]
    cases hfind : ptpCards.find? (·.phy == selection) with
    | none =>
      have hnone : ∀ card ∈ ptpCards, card.phy ≠ selection := by
        intro card hcard
        simpa using List.find?_eq_none.mp hfind card hcard
      simp [hsel]
      exact hnone
    | some card =>
      have hmem := List.mem_of_find?_eq_some hfind
      have hphy : card.phy = selection := by simpa using List.find?_some hfind
      have hclock : card.ptpClock.isNone = false := by
        have := hclocks card hmem
        cases hc : card.ptpClock with
        | none => rw [hc] at this; cases this
        | some clock => rfl
      refine iff_of_true ⟨card, ?_⟩ (.inr ⟨card, hmem, hphy⟩)
      simp [hclock]

theorem ptpCardsOf_isSome : ∀ card ∈ ptpCardsOf cards, card.ptpClock.isSome = true := by
  intro card hcard
  exact (List.mem_filter.mp hcard).2

/-- When there is a text: two clocks, and a primary among them. -/
theorem generateConfig_isOk_iff : (∃ text, generateConfig cards selection = .ok text) ↔
    2 ≤ (ptpCardsOf cards).length ∧ (selection = auto ∨ ∃ card ∈ ptpCardsOf cards, card.phy = selection) := by
  unfold generateConfig configLines
  dsimp only
  by_cases hlen : 2 ≤ (ptpCardsOf cards).length
  · have hne : ptpCardsOf cards ≠ [] := by
      intro hnil
      rw [hnil] at hlen
      simp at hlen
    have hempty : (ptpCardsOf cards).isEmpty = false := by simpa using hne
    rw [← selectPrimary_isOk_iff ptpCardsOf_isSome hne, hempty, if_neg (by decide), if_neg (by omega)]
    cases hsel : selectPrimary (ptpCardsOf cards) selection with
    | error e => exact iff_of_false (fun ⟨_, h⟩ => by cases h) (fun ⟨_, _, h⟩ => by cases h)
    | ok primary => exact iff_of_true ⟨_, rfl⟩ ⟨hlen, _, rfl⟩
  · refine iff_of_false ?_ fun h => hlen h.1
    rintro ⟨text, htext⟩
    split at htext
    · cases htext
    · rw [if_pos (by omega)] at htext
      cases htext

/-- With distinct names the other cards are those besides the primary. -/
theorem secondariesOf_eq_erase (hphys : ((ptpCardsOf cards).map (·.phy)).Nodup) (hp : primary ∈ ptpCardsOf cards) :
    secondariesOf cards primary = (ptpCardsOf cards).erase primary := by
  rw [hphys.of_map.erase_eq_filter]
  apply List.filter_congr
  intro card hcard
  by_cases h : card = primary
  · simp [h]
  · have hphy : card.phy ≠ primary.phy := fun hphy => h (List.inj_on_of_nodup_map hphys hcard hp hphy)
    simp [h, hphy]

/-- A text that describes some cards: after the global section stand those of the primary and of all other cards, in their
order, each card once, and `serverOnly` is set on one line, which is in the section of the primary. -/
structure Describes (text : Str) (primary : WifiCard) (ptpCards : List WifiCard) : Prop where
  each : (primary :: ptpCards.erase primary).Perm ptpCards
  clocks : ∀ card ∈ ptpCards, card.ptpClock = some card.clock
  headers : (sectionsOf (linesOf text)).map (·.header) =
    sectionLine (utf8 "global") :: (primary :: ptpCards.erase primary).map fun card => sectionLine card.clock
  servers : (sectionsOf (linesOf text)).map (·.body.countP isServerOnly) =
    0 :: 1 :: (ptpCards.erase primary).map fun _ => 0
  oneServer : (linesOf text).countP isServerOnly = 1

theorem ptpCardsOf_idem (cards : List WifiCard) : ptpCardsOf (ptpCardsOf cards) = ptpCardsOf cards := by
  unfold ptpCardsOf
  rw [List.filter_filter]
  simp

/-- Cards without a clock leave no trace. -/
theorem generateConfig_ptpCardsOf (cards : List WifiCard) (selection : Str) :
    generateConfig (ptpCardsOf cards) selection = generateConfig cards selection := by
  unfold generateConfig configLines
  rw [ptpCardsOf_idem]

/-- A text describes the cards that it was generated for. -/
theorem describes_of_linesOf {text : Str} (hphys : ((ptpCardsOf cards).map (·.phy)).Nodup)
    (hp : primary ∈ ptpCardsOf cards)
    (hlines : linesOf text =
      globalLines ++ primaryLines primary ++ (othersLines (ptpCardsOf cards) primary ++ [[]])) :
    Describes text primary (ptpCardsOf cards) := by
  -- what stands after the primary's section sets no `serverOnly`
  have hrest : ∀ line ∈ othersLines (ptpCardsOf cards) primary ++ [[]], isServerOnly line = false := by
    intro line hline
    rcases List.mem_append.mp hline with h | h
    · exact othersLines_noServer h
    · rw [List.mem_singleton.mp h]
      rfl
  have hcount : ∀ lines : List Str, (∀ line ∈ lines, isServerOnly line = false) → lines.countP isServerOnly = 0 := by
    intro lines h
    simpa [List.countP_eq_zero] using h
  have hothers : (sectionsOf (othersLines (ptpCardsOf cards) primary ++ [[]])).map (·.header) =
      ((ptpCardsOf cards).erase primary).map fun card => sectionLine card.clock := by
    rw [sectionsOf_header, sections_append, ← secondariesOf_eq_erase hphys hp, othersLines, sections_secondaries,
      secondariesOf]
    exact List.append_nil _
  have hlen := congrArg List.length hothers
  rw [List.length_map, List.length_map] at hlen
  refine ⟨(List.perm_cons_erase hp).symm, ?_, ?_, ?_, ?_⟩
  · intro card hcard
    obtain ⟨clock, hclock⟩ := Option.isSome_iff_exists.mp (ptpCardsOf_isSome card hcard)
    rw [WifiCard.clock, hclock]
    rfl
  · rw [hlines, sectionsOf_lines, List.map_cons, List.map_cons, hothers]
    rfl
  · rw [hlines, sectionsOf_lines, List.map_cons, List.map_cons]
    have hprimary : (utf8 "serverOnly              1" ::
        (othersLines (ptpCardsOf cards) primary ++ [[]]).takeWhile (!isHeader ·)).countP isServerOnly = 1 := by
      rw [List.countP_cons_of_pos (by decide), hcount]
      intro line hline
      exact hrest line ((List.takeWhile_prefix _).subset hline)
    have hzero : (sectionsOf (othersLines (ptpCardsOf cards) primary ++ [[]])).map (·.body.countP isServerOnly) =
        ((ptpCardsOf cards).erase primary).map fun _ => 0 := by
      rw [List.map_const', ← hlen, ← List.map_const']
      apply List.map_congr_left
      exact sectionsOf_noServer hrest
    rw [hprimary, hzero]
    rfl
  · rw [hlines, List.countP_append, List.countP_append, hcount _ hrest]
    rfl

/-- **`generate_config` is faithful to the cards**: for cards with distinct names that stand on one line each, there is a
text exactly when two cards have a clock and the selection is `auto` or names one of them; the text describes the cards
with a clock, its primary is the one that `select_primary` chose, and cards without a clock make no difference. -/
theorem generateConfig_faithful (hphys : (cards.map (·.phy)).Nodup) (hone : ∀ card ∈ cards, OnOneLine card)
    (selection : Str) :
    ((∃ text, generateConfig cards selection = .ok text) ↔
      2 ≤ (ptpCardsOf cards).length ∧ (selection = auto ∨ ∃ card ∈ ptpCardsOf cards, card.phy = selection)) ∧
    (∀ text, generateConfig cards selection = .ok text → ∃ primary,
      selectPrimary (ptpCardsOf cards) selection = .ok primary ∧ Describes text primary (ptpCardsOf cards)) ∧
    generateConfig cards selection = generateConfig (ptpCardsOf cards) selection := by
  refine ⟨generateConfig_isOk_iff, ?_, (generateConfig_ptpCardsOf cards selection).symm⟩
  intro text htext
  have hsub : (ptpCardsOf cards).Sublist cards := List.filter_sublist
  obtain ⟨primary, hsel, hlines⟩ := generateConfig_eq_ok (fun card hc => hone card (hsub.subset hc)) htext
  exact ⟨primary, hsel, describes_of_linesOf (hphys.sublist (hsub.map _)) (selectPrimary_mem hsel) hlines⟩

end Cards

/-- Four cards, the third without a clock. -/
def fourCards : List WifiCard :=
  [⟨utf8 "phy0", utf8 "mt76", some (utf8 "/dev/ptp0"), .tsfPtp, true⟩,
    ⟨utf8 "phy1", utf8 "iwlwifi", some (utf8 "/dev/ptp1"), .native, true⟩,
    ⟨utf8 "phy2", utf8 "brcmfmac", none, .none, false⟩,
    ⟨utf8 "phy3", utf8 "mt76", some (utf8 "/dev/ptp2"), .tsfPtp, true⟩]

/-- The last one of them is selected. -/
theorem generateConfig_faithful_phy3 : ∃ text primary, generateConfig fourCards (utf8 "phy3") = .ok text ∧
    selectPrimary (ptpCardsOf fourCards) (utf8 "phy3") = .ok primary ∧
    Describes text primary (ptpCardsOf fourCards) := by
  have hone : ∀ card ∈ fourCards, OnOneLine card := by
    intro card hcard
    simp only [fourCards, List.mem_cons, List.not_mem_nil, or_false] at hcard
    rcases hcard with rfl | rfl | rfl | rfl
    · exact ⟨by decide, by decide, by decide⟩
    · exact ⟨by decide, by decide, by decide⟩
    · exact ⟨by decide, by decide, by decide⟩
    · exact ⟨by decide, by decide, by decide⟩
  obtain ⟨hok, hdescribes, -⟩ := generateConfig_faithful (by decide) hone (utf8 "phy3")
  obtain ⟨text, htext⟩ := hok.mpr (by decide)
  obtain ⟨primary, hsel, htexts⟩ := hdescribes text htext
  exact ⟨text, primary, htext, hsel, htexts⟩

end TsfSync.User
