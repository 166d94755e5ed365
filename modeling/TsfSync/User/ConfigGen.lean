import TsfSync.User.Discovery

/-!
# The ptp4l configuration

`select_primary` and `generate_config` of `src/config_gen.rs`: the primary is the card that was named, else a card with a
native clock, else the first one; the configuration has a global section, the section of the primary and one section for
every other card with a clock.
-/

namespace TsfSync.User

/-- `ConfigError`. -/
inductive ConfigError
  | noPtpClocks
  | primaryNotFound (selection : Str)
  | primaryNoPtp (selection : Str)
  | noPrimary
  | onlyOneClock
  deriving DecidableEq, Repr

/-- The texts of `ConfigError`. -/
def ConfigError.message : ConfigError → Str
  | .noPtpClocks => utf8 "no cards with PTP clocks found (load tsf-ptp module first?)"
  | .primaryNotFound selection =>
    utf8 "specified primary '" ++ selection ++ utf8 "' not found among discovered cards"
  | .primaryNoPtp selection => utf8 "specified primary '" ++ selection ++ utf8 "' has no PTP clock"
  | .noPrimary => utf8 "no suitable primary card found (need at least one card with a PTP clock)"
  | .onlyOneClock => utf8 "only one PTP clock found — need at least two for synchronization"

/-- The selection `"auto"`. -/
def auto : Str := utf8 "auto"

/-- `select_primary`. -/
def selectPrimary (ptpCards : List WifiCard) (selection : Str) : Except ConfigError WifiCard :=
  if selection ≠ auto then
    match ptpCards.find? (·.phy == selection) with
    | none => .error (.primaryNotFound selection)
    | some card => if card.ptpClock.isNone then .error (.primaryNoPtp selection) else .ok card
  else
    match ptpCards.find? (·.ptpSource == .native) with
    | some card => .ok card
    | none =>
      match ptpCards.head? with
      | some card => .ok card
      | none => .error .noPrimary

/-- The cards with a PTP clock. -/
def ptpCardsOf (cards : List WifiCard) : List WifiCard := cards.filter (·.ptpClock.isSome)

/-- `ptp_clock.as_ref().unwrap()` of a card with a clock. -/
def WifiCard.clock (card : WifiCard) : Str := card.ptpClock.getD []

/-- A section header. -/
def sectionLine (name : Str) : Str := utf8 "[" ++ name ++ utf8 "]"

/-- The comment line of a card. -/
def commentLine (role : Str) (card : WifiCard) : Str :=
  utf8 "# " ++ role ++ utf8 ": " ++ card.phy ++ utf8 " (" ++ card.driver ++ utf8 ")"

/-- The global section. -/
def globalLines : List Str :=
  [sectionLine (utf8 "global"), utf8 "clockClass              248", utf8 "priority1               128",
    utf8 "priority2               128", utf8 "domainNumber            42", []]

/-- The section of the primary. -/
def primaryLines (primary : WifiCard) : List Str :=
  [commentLine (utf8 "Primary") primary, sectionLine primary.clock, utf8 "serverOnly              1"]

/-- The section of a secondary. -/
def secondaryLines (card : WifiCard) : List Str :=
  [[], commentLine (utf8 "Secondary") card, sectionLine card.clock]

/-- What `generate_config` writes, one `writeln!` after the other. -/
def configLines (cards : List WifiCard) (primarySelection : Str) : Except ConfigError (List Str) :=
  let ptpCards := ptpCardsOf cards
  if ptpCards.isEmpty then .error .noPtpClocks
  else if ptpCards.length < 2 then .error .onlyOneClock
  else do
    let primary ← selectPrimary ptpCards primarySelection
    return globalLines ++ primaryLines primary ++
      ptpCards.flatMap fun card => if card.phy = primary.phy then [] else secondaryLines card

/-- `generate_config`. -/
def generateConfig (cards : List WifiCard) (primarySelection : Str) : Except ConfigError Str := do
  let lines ← configLines cards primarySelection
  return lines.flatMap (· ++ utf8 "\n")

/-- The section headers among some lines. -/
def sections (lines : List Str) : List Str := lines.filter (startsWith · (utf8 "["))

end TsfSync.User
