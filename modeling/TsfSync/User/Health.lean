import TsfSync.Lib.Pairing
import TsfSync.User.Discovery
import TsfSync.User.Text

/-!
# The health of the ports

`parse_port_data_set` of `src/health.rs` goes through the output of `pmc` line by line with two pending slots, for a port
and for its state, and gives a status when both are full. The output is a sequence of records; the port and the state of a
status come from one record, and every record with both gives one, exactly when after a record with one of the two lines
the next record with any begins with the same one (`neverMixes_iff`).
-/

namespace TsfSync.User

open Pairing

/-- `HealthError`. -/
inductive HealthError
  | pmcExec (e : IoError)
  | pmcNotFound
  | parse (message : Text)
  deriving DecidableEq, Repr

/-- `HealthState`. -/
inductive HealthState
  | converging
  | healthy
  | degraded
  | failed
  | removed
  deriving DecidableEq, Repr

/-- `ClockStatus`. -/
structure ClockStatus where
  port : Text
  portState : Text
  offsetNs : Option Int64
  pathDelayNs : Option Int64
  health : HealthState
  deriving DecidableEq, Repr

/-- The health of a port state. -/
def healthOf (state : Text) : HealthState :=
  if state = "MASTER".toList then .healthy
  else if state = "SLAVE".toList then .healthy
  else if state = "LISTENING".toList ∨ state = "UNCALIBRATED".toList ∨ state = "PRE_MASTER".toList then .converging
  else if state = "FAULTY".toList ∨ state = "DISABLED".toList then .failed
  else .converging

/-- The status that is pushed for a port and its state. -/
def clockStatus (port state : Text) : ClockStatus :=
  { port := port, portState := state, offsetNs := none, pathDelayNs := none, health := healthOf state }

/-- The variables of the loop. -/
structure PortScan where
  statuses : List ClockStatus
  currentPort : Option Text
  currentState : Option Text

/-- A trimmed line is a `portIdentity` line. -/
def isPortIdentity (line : Text) : Bool := "portIdentity".toList.isPrefixOf line

/-- A trimmed line is a `portState` line. -/
def isPortState (line : Text) : Bool := "portState".toList.isPrefixOf line

/-- `line.split_whitespace().last()`. -/
def lastWord (line : Text) : Option Text := (splitWhitespace line).getLast?

/-- The first half of the loop: what a line says goes into its slot. -/
def PortScan.take (scan : PortScan) (line : Text) : PortScan :=
  if isPortIdentity line then { scan with currentPort := lastWord line }
  else if isPortState line then { scan with currentState := lastWord line }
  else scan

/-- The second half: a status for two full slots. -/
def PortScan.emit (scan : PortScan) : PortScan :=
  match scan.currentPort, scan.currentState with
  | some port, some state => ⟨scan.statuses ++ [clockStatus port state], none, none⟩
  | _, _ => scan

/-- The loop for one line. -/
def PortScan.line (scan : PortScan) (line : Text) : PortScan := (scan.take (trim line)).emit

/-- `parse_port_data_set`. -/
def parsePortDataSet (output : Text) : Except HealthError (List ClockStatus) :=
  .ok ((lines output).foldl PortScan.line ⟨[], none, none⟩).statuses

/-! ## The loop pairs -/

/-- What a line says: the port on the left, the state on the right. -/
def itemOf (line : Text) : Option (Side × Text) :=
  if isPortIdentity (trim line) then (lastWord (trim line)).map (Side.left, ·)
  else if isPortState (trim line) then (lastWord (trim line)).map (Side.right, ·)
  else none

theorem isSome_lastWord_of_prefix {start line : Text} {c : Char} (hc : isWhitespace c = false) (hstart : c ∈ start)
    (h : start.isPrefixOf line = true) : ∃ word, lastWord line = some word := by
  obtain ⟨rest, rfl⟩ := List.isPrefixOf_iff_prefix.mp h
  exact Option.isSome_iff_exists.mp (isSome_lastWord hc (List.mem_append_left rest hstart))

theorem lastWord_of_portIdentity {line : Text} (h : isPortIdentity line = true) : ∃ word, lastWord line = some word :=
  isSome_lastWord_of_prefix (c := 'p') (by decide) (by decide) h

theorem lastWord_of_portState {line : Text} (h : isPortState line = true) : ∃ word, lastWord line = some word :=
  isSome_lastWord_of_prefix (c := 'p') (by decide) (by decide) h

/-- A line is not of both kinds. -/
theorem not_portState {line : Text} (h : isPortIdentity line = true) : isPortState line = false := by
  obtain ⟨rest, rfl⟩ := List.isPrefixOf_iff_prefix.mp h
  rfl

/-- The three kinds of lines. -/
theorem line_cases (line : Text) :
    (isPortIdentity (trim line) = true ∧ isPortState (trim line) = false ∧
      ∃ word, lastWord (trim line) = some word ∧ itemOf line = some (.left, word)) ∨
    (isPortIdentity (trim line) = false ∧ isPortState (trim line) = true ∧
      ∃ word, lastWord (trim line) = some word ∧ itemOf line = some (.right, word)) ∨
    (isPortIdentity (trim line) = false ∧ isPortState (trim line) = false ∧ itemOf line = none) := by
  unfold itemOf
  cases hport : isPortIdentity (trim line) with
  | true =>
    obtain ⟨word, hword⟩ := lastWord_of_portIdentity hport
    exact .inl ⟨rfl, not_portState hport, word, hword, by simp [hword]⟩
  | false =>
    cases hstate : isPortState (trim line) with
    | true =>
      obtain ⟨word, hword⟩ := lastWord_of_portState hstate
      exact .inr (.inl ⟨rfl, rfl, word, hword, by simp [hword]⟩)
    | false => exact .inr (.inr ⟨rfl, rfl, by simp⟩)

/-- With a slot clear no status is given. -/
theorem PortScan.emit_of_open {scan : PortScan} (h : scan.currentPort = none ∨ scan.currentState = none) :
    scan.emit = scan := by
  obtain ⟨statuses, port, state⟩ := scan
  rcases h with rfl | rfl
  · rfl
  · cases port with
    | none => rfl
    | some p => rfl

/-- The loop is the reader of pairs. -/
theorem statuses_foldl : ∀ (ls : List Text) (scan : PortScan), scan.currentPort = none ∨ scan.currentState = none →
    (ls.foldl PortScan.line scan).statuses = scan.statuses ++
      (pairs ⟨scan.currentPort, scan.currentState⟩ (ls.filterMap itemOf)).map fun p => clockStatus p.1 p.2
  | [], scan, _ => by simp [pairs]
  | l :: ls, ⟨statuses, port, state⟩, hopen => by
    rw [List.foldl_cons, List.filterMap_cons, PortScan.line, PortScan.take]
    rcases line_cases l with ⟨hport, -, word, hword, hitem⟩ | ⟨hport, hstate, word, hword, hitem⟩ | ⟨hport, hstate, hitem⟩
    · rw [hitem, if_pos hport, hword]
      cases state with
      | none =>
        rw [PortScan.emit_of_open (.inr rfl), statuses_foldl ls _ (.inr rfl)]
        rfl
      | some s =>
        show (ls.foldl PortScan.line ⟨statuses ++ [clockStatus word s], none, none⟩).statuses = _
        rw [statuses_foldl ls _ (.inl rfl), List.append_assoc]
        rfl
    · rw [hitem, if_neg (by simp [hport]), if_pos hstate, hword]
      cases port with
      | none =>
        rw [PortScan.emit_of_open (.inl rfl), statuses_foldl ls _ (.inl rfl)]
        rfl
      | some p =>
        show (ls.foldl PortScan.line ⟨statuses ++ [clockStatus p word], none, none⟩).statuses = _
        rw [statuses_foldl ls _ (.inl rfl), List.append_assoc]
        rfl
    · rw [hitem, if_neg (by simp [hport]), if_neg (by simp [hstate]), PortScan.emit_of_open hopen]
      exact statuses_foldl ls _ hopen

/-! ## Records -/

/-- A record of the output: a header line, at most one `portIdentity` line, at most one `portState` line, and others. -/
structure Record where
  header : Text
  body : List Text
  header_other : isPortIdentity (trim header) = false ∧ isPortState (trim header) = false
  onePort : body.countP (fun line => isPortIdentity (trim line)) ≤ 1
  oneState : body.countP (fun line => isPortState (trim line)) ≤ 1

namespace Record

/-- The lines of a record. -/
def lines (r : Record) : List Text := r.header :: r.body

/-- The port of a record. -/
def port (r : Record) : Option Text := (r.lines.find? fun line => isPortIdentity (trim line)).bind fun line =>
  lastWord (trim line)

/-- The state of a record. -/
def state (r : Record) : Option Text := (r.lines.find? fun line => isPortState (trim line)).bind fun line =>
  lastWord (trim line)

/-- The status of a record that has both lines. -/
def status (r : Record) : Option ClockStatus :=
  match r.port, r.state with
  | some port, some state => some (clockStatus port state)
  | _, _ => none

/-- What the lines of a record say. -/
def items (r : Record) : List (Side × Text) := r.lines.filterMap itemOf

/-- A record has at most one item of each side. -/
theorem nodup_items (r : Record) : (r.items.map Prod.fst).Nodup := by
  have hcount : ∀ ls : List Text,
      ((ls.filterMap itemOf).map Prod.fst).count .left = ls.countP (fun line => isPortIdentity (trim line)) ∧
      ((ls.filterMap itemOf).map Prod.fst).count .right = ls.countP (fun line => isPortState (trim line)) := by
    intro ls
    induction ls with
    | nil => exact ⟨rfl, rfl⟩
    | cons l ls ih =>
      obtain ⟨ihl, ihr⟩ := ih
      rw [List.filterMap_cons, List.countP_cons, List.countP_cons]
      rcases line_cases l with ⟨hport, hstate, word, -, hitem⟩ | ⟨hport, hstate, word, -, hitem⟩ | ⟨hport, hstate, hitem⟩
      · simp [hitem, hport, hstate, ihl, ihr]
      · simp [hitem, hport, hstate, ihl, ihr]
      · simp [hitem, hport, hstate, ihl, ihr]
  obtain ⟨hleft, hright⟩ := hcount r.lines
  have hport : r.lines.countP (fun line => isPortIdentity (trim line)) ≤ 1 := by
    rw [lines, List.countP_cons_of_neg (by simp [r.header_other.1])]
    exact r.onePort
  have hstate : r.lines.countP (fun line => isPortState (trim line)) ≤ 1 := by
    rw [lines, List.countP_cons_of_neg (by simp [r.header_other.2])]
    exact r.oneState
  rw [List.nodup_iff_count_le_one]
  intro side
  cases side with
  | left => exact hleft.trans_le hport
  | right => exact hright.trans_le hstate

/-- The port and the state of a record are what its lines say on either side. -/
theorem valueOf_items (r : Record) : valueOf .left r.items = r.port ∧ valueOf .right r.items = r.state := by
  unfold items port state
  induction r.lines with
  | nil => exact ⟨rfl, rfl⟩
  | cons l ls ih =>
    obtain ⟨ihl, ihr⟩ := ih
    rw [List.filterMap_cons, List.find?_cons, List.find?_cons]
    rcases line_cases l with ⟨hport, hstate, word, hword, hitem⟩ | ⟨hport, hstate, word, hword, hitem⟩ |
      ⟨hport, hstate, hitem⟩
    · simp [hitem, hport, hstate, hword, valueOf_cons, ihr]
    · simp [hitem, hport, hstate, hword, valueOf_cons, ihl]
    · simp [hitem, hport, hstate, ihl, ihr]

theorem status_eq (r : Record) : r.status = (pairOf r.items).map fun p => clockStatus p.1 p.2 := by
  unfold status pairOf
  rw [r.valueOf_items.1, r.valueOf_items.2]
  cases r.port with
  | none => rfl
  | some port =>
    cases r.state with
    | none => rfl
    | some state => rfl

end Record

/-! ## Where a status comes from -/

/-- What the lines of numbered records say. -/
def numbered (records : List Record) : List (List (Side × (Nat × Text))) := numberFrom 0 (records.map Record.items)

/-- The words of the statuses that `parse_port_data_set` gives, each with the number of the record that it stands in. -/
def sources (records : List Record) : List ((Nat × Text) × (Nat × Text)) := pairs .clear (numbered records).flatten

/-- One status for each record that has both lines, in their order, whose port and state come from that record. -/
structure NeverMixes (output : Text) (records : List Record) : Prop where
  statuses : parsePortDataSet output = .ok (records.filterMap Record.status)
  sources : sources records = (numbered records).filterMap pairOf

section Sources

variable {output : Text} {records : List Record}

/-- The statuses are those of the sources. -/
theorem parsePortDataSet_eq (h : lines output = records.flatMap Record.lines) : parsePortDataSet output =
    .ok ((sources records).map fun p => clockStatus p.1.2 p.2.2) := by
  have hitems : (lines output).filterMap itemOf = (records.map Record.items).flatten := by
    rw [h, List.filterMap_flatMap, ← List.flatMap_def]
    rfl
  have huntag : ((numbered records).flatten).map (Prod.map id Prod.snd) = (records.map Record.items).flatten := by
    rw [List.map_flatten, numbered, numberFrom_snd]
  have hpairs := pairs_map (Prod.snd : Nat × Text → Text) .clear (numbered records).flatten
  rw [huntag] at hpairs
  have hfold := statuses_foldl (lines output) ⟨[], none, none⟩ (.inl rfl)
  rw [hitems] at hfold
  unfold parsePortDataSet sources
  rw [hfold]
  show Except.ok ((pairs .clear _).map _) = _
  rw [show (Slots.clear : Slots Text) = ⟨(Slots.clear : Slots (Nat × Text)).left.map Prod.snd,
    (Slots.clear : Slots (Nat × Text)).right.map Prod.snd⟩ from rfl, hpairs, List.map_map]
  rfl

/-- The statuses of the records are those of their own pairs. -/
theorem statuses_eq (records : List Record) : records.filterMap Record.status =
    ((numbered records).filterMap pairOf).map fun p => clockStatus p.1.2 p.2.2 := by
  have huntag : (numbered records).map (·.map (Prod.map id Prod.snd)) = records.map Record.items :=
    numberFrom_snd 0 _
  calc records.filterMap Record.status
      = (records.map Record.items).filterMap fun g => (pairOf g).map fun p => clockStatus p.1 p.2 := by
        rw [List.filterMap_map]
        exact List.filterMap_congr fun r _ => r.status_eq
    _ = (numbered records).filterMap fun g => (pairOf g).map fun p => clockStatus p.1.2 p.2.2 := by
        rw [← huntag, List.filterMap_map]
        refine List.filterMap_congr fun g _ => ?_
        rw [Function.comp_apply, pairOf_map, Option.map_map]
        rfl
    _ = ((numbered records).filterMap pairOf).map fun p => clockStatus p.1.2 p.2.2 := by
        rw [List.map_filterMap]

/-- **Health entries never mix ports** exactly when after a record with one of the two lines the next record with any
begins with the same one; the statuses are those of the sources in any case. -/
theorem neverMixes_iff (h : lines output = records.flatMap Record.lines) :
    parsePortDataSet output = .ok ((sources records).map fun p => clockStatus p.1.2 p.2.2) ∧
    (NeverMixes output records ↔ Unbroken (records.map Record.items)) := by
  have hnodup : ∀ group ∈ records.map Record.items, (group.map Prod.fst).Nodup := by
    intro group hgroup
    obtain ⟨r, -, rfl⟩ := List.mem_map.mp hgroup
    exact r.nodup_items
  refine ⟨parsePortDataSet_eq h, ?_⟩
  rw [← pairs_numbered_iff hnodup]
  constructor
  · intro hmix
    exact hmix.sources
  · intro hsources
    refine ⟨?_, hsources⟩
    rw [parsePortDataSet_eq h, statuses_eq]
    exact congrArg (fun ps => Except.ok (ps.map fun p => clockStatus p.1.2 p.2.2)) hsources

end Sources

/-- An output of `pmc`, line by line. -/
def pmcOutput (ls : List String) : Text := ls.flatMap fun line => line.toList ++ ['\n']

/-- A record of `pmc` with some lines after its header. -/
def pmcRecord (body : List String) (onePort : (body.map String.toList).countP (fun line => isPortIdentity (trim line)) ≤ 1)
    (oneState : (body.map String.toList).countP (fun line => isPortState (trim line)) ≤ 1) : Record :=
  ⟨"sending: GET".toList, body.map String.toList, ⟨by decide, by decide⟩, onePort, oneState⟩

/-- Two ports that both answer in full. -/
theorem neverMixes_iff_two : NeverMixes
    (pmcOutput ["sending: GET", " portIdentity 0.fffe.1-1", " portState MASTER", "sending: GET",
      " portIdentity 0.fffe.1-2", " portState SLAVE"])
    [pmcRecord [" portIdentity 0.fffe.1-1", " portState MASTER"] (by decide) (by decide),
      pmcRecord [" portIdentity 0.fffe.1-2", " portState SLAVE"] (by decide) (by decide)] :=
  (neverMixes_iff (by decide +kernel)).2.mpr (by decide +kernel)

/-- Of the first port only the state stands in the output: the second port, a slave, is reported as failed. -/
theorem neverMixes_counterexample :
    let output := pmcOutput ["sending: GET", " portState FAULTY", "sending: GET", " portIdentity 0.fffe.1-2",
      " portState SLAVE"]
    let records := [pmcRecord [" portState FAULTY"] (by decide) (by decide),
      pmcRecord [" portIdentity 0.fffe.1-2", " portState SLAVE"] (by decide) (by decide)]
    lines output = records.flatMap Record.lines ∧
    parsePortDataSet output = .ok [clockStatus "0.fffe.1-2".toList "FAULTY".toList] ∧
    healthOf "FAULTY".toList = .failed ∧
    records.filterMap Record.status = [clockStatus "0.fffe.1-2".toList "SLAVE".toList] ∧
    healthOf "SLAVE".toList = .healthy ∧
    ¬NeverMixes output records := by
  intro output records
  have hlines : lines output = records.flatMap Record.lines := by decide +kernel
  have hparse : parsePortDataSet output = .ok [clockStatus "0.fffe.1-2".toList "FAULTY".toList] := by decide +kernel
  have hstatus : records.filterMap Record.status = [clockStatus "0.fffe.1-2".toList "SLAVE".toList] := by
    decide +kernel
  refine ⟨hlines, hparse, by decide, hstatus, by decide, ?_⟩
  intro h
  have heq := h.statuses
  rw [hparse, hstatus, Except.ok.injEq] at heq
  exact absurd heq (by decide)

end TsfSync.User
