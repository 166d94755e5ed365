import TsfSync.ModeC.Identity

/-!
# The wire format from end to end

Whatever the size of the user's buffer, the daemon decodes what the kernel copied out to the snapshots of the first
cards (`decodeSnapshots_take`), with the position and the name of each card (`name_snapshotOf`); so it finds its primary
at the position of the first card with that name (`findPrimaryIndex_eq_ok_iff`). What it writes back the kernel decodes
to the same adjustments (`wire_format`).
-/

namespace TsfSync

open LockProg ByteCodec User User.IoUringSyncer

/-- The name of a card is not empty and valid UTF-8. -/
def Card.NameOk (k : Card) : Prop := k.phyName.bytes ≠ [] ∧ ByteArray.validateUTF8 ⟨k.phyName.bytes.toArray⟩ = true

/-- The bytes of the name field that the length field covers. -/
def User.TsfSnapshot.nameBytes (snap : User.TsfSnapshot) : List UInt8 :=
  (List.ofFn snap.phyName).take (min snap.phyNameLen.toNat 32)

/-- `MAX_RW_COUNT`: the most that the kernel passes to a read at once. -/
def maxRwCount : Nat := 0x7ffff000

section Names

variable {s : Kernel} {c : CardPtr} {i : Nat}

/-- The name field of a snapshot holds the name of the card. -/
theorem nameBytes_snapshotOf (s : Kernel) (i : Nat) (c : CardPtr) :
    (snapshotOf s i c).toUser.nameBytes = (s.card c).phyName.bytes := by
  have hfits := (s.card c).phyName.fits
  have hlen : (UInt32.ofNat (s.card c).phyName.bytes.length).toNat = (s.card c).phyName.bytes.length := by
    rw [UInt32.toNat_ofNat']
    omega
  show (List.ofFn (Uapi.padName (s.card c).phyName)).take
    (min (UInt32.ofNat (s.card c).phyName.bytes.length).toNat 32) = _
  rw [hlen, Nat.min_eq_left (by omega)]
  refine List.ext_getElem (by rw [List.length_take, List.length_ofFn]; omega) fun j h₁ h₂ => ?_
  rw [List.getElem_take, List.getElem_ofFn]
  exact (List.getElem_eq_getD 0).symm

/-- A valid name survives the checks of the daemon. -/
theorem name_snapshotOf (h : (s.card c).NameOk) : (snapshotOf s i c).toUser.name = (s.card c).phyName.bytes := by
  have hname : (snapshotOf s i c).toUser.name =
      if ByteArray.validateUTF8 ⟨(snapshotOf s i c).toUser.nameBytes.toArray⟩ then
        (snapshotOf s i c).toUser.nameBytes.rdropWhile (· == 0)
      else [] := rfl
  rw [hname, nameBytes_snapshotOf, if_pos h.2, List.rdropWhile_eq_self_iff]
  intro hne hlast
  have hzero : (s.card c).phyName.bytes.getLast hne = 0 := by simpa using hlast
  exact (s.card c).phyName.noNul (hzero ▸ List.getLast_mem hne)

/-- The daemon finds its primary at the position of the first visible card with the name. -/
theorem findPrimaryIndex_eq_ok_iff (hnames : ∀ c ∈ s.cardsList.ptrs, (s.card c).NameOk) (primaryPhy : List UInt8)
    (p : UInt32) : ((findPrimaryIndex (devTsfSync (pure ())) primaryPhy).run s).1 = .ok p ↔
    ∃ c, (visible s)[p.toNat]? = some c ∧ (s.card c).phyName.bytes = primaryPhy ∧
      ∀ j < p.toNat, ∀ d, (visible s)[j]? = some d → (s.card d).phyName.bytes ≠ primaryPhy := by
  have hname : ∀ {j d}, (visible s)[j]? = some d → (snapshotOf s j d).toUser.name = (s.card d).phyName.bytes :=
    fun hd => name_snapshotOf (hnames _ (List.mem_of_getElem? (visible_getElem? hd).2))
  rw [run_findPrimaryIndex]
  dsimp only
  constructor
  · intro h
    split at h
    · rename_i x hf
      obtain ⟨c, i⟩ := x
      obtain ⟨hx, j, hj, hget, hbefore⟩ := List.find?_eq_some_iff_getElem.mp hf
      rw [List.getElem_zipIdx, Prod.mk.injEq, Nat.zero_add] at hget
      obtain ⟨hc, rfl⟩ := hget
      have hlt : j < (visible s).length := by simpa using hj
      have hvis : (visible s)[j]? = some c := List.getElem?_eq_some_iff.mpr ⟨hlt, hc⟩
      obtain rfl : UInt32.ofNat j = p := Except.ok.inj h
      rw [toNat_ofNat_visible (visible_getElem? hvis).1]
      refine ⟨c, hvis, ?_, fun k hk d hd => ?_⟩
      · rw [← hname hvis]
        simpa using hx
      · have hb := hbefore k hk
        rw [List.getElem_zipIdx, Nat.zero_add] at hb
        have hdk : (visible s)[k] = d := (List.getElem?_eq_some_iff.mp hd).2
        rw [← hname hd]
        simpa [hdk] using hb
    · cases h
  · rintro ⟨c, hvis, hc, hbefore⟩
    have hlt := (List.getElem?_eq_some_iff.mp hvis).1
    have hfind : (visible s).zipIdx.find? (fun x => (snapshotOf s x.2 x.1).toUser.name == primaryPhy) =
        some (c, p.toNat) := by
      refine List.find?_eq_some_iff_getElem.mpr ⟨?_, p.toNat, by simpa using hlt, ?_, fun j hj => ?_⟩
      · simpa [hname hvis] using hc
      · rw [List.getElem_zipIdx, (List.getElem?_eq_some_iff.mp hvis).2, Nat.zero_add]
      · have hjlt : j < (visible s).length := hj.trans hlt
        have hd : (visible s)[j]? = some (visible s)[j] := List.getElem?_eq_getElem hjlt
        rw [List.getElem_zipIdx, Nat.zero_add]
        simpa [hname hd] using hbefore j hj _ hd
    rw [hfind]
    exact congrArg Except.ok (UInt32.ofNat_toNat)

/-- **Both ends agree on the wire format.** -/
theorem wire_format (hnames : ∀ c ∈ s.cardsList.ptrs, (s.card c).NameOk) :
    (∀ count, ∃ bytes, ((tsfSyncChardevRead .ok count).run s).1 = .ok bytes ∧
      User.decodeSnapshots bytes = ((snapshots s).take (count / User.snapshotSize)).map Uapi.TsfSnapshot.toUser ∧
      (User.decodeSnapshots bytes).length = min s.cardsList.ptrs.length (count / User.snapshotSize) ∧
      ∀ i snap, (User.decodeSnapshots bytes)[i]? = some snap → ∃ c, s.cardsList.ptrs[i]? = some c ∧
        snap.cardIndex = UInt32.ofNat i ∧ (count ≤ maxRwCount → snap.cardIndex.toNat = i) ∧
        snap.nameBytes = (s.card c).phyName.bytes ∧ snap.name = (s.card c).phyName.bytes) ∧
    (∀ primaryPhy p, ((findPrimaryIndex (devTsfSync (pure ())) primaryPhy).run s).1 = .ok p ↔
      ∃ c, (visible s)[p.toNat]? = some c ∧ (s.card c).phyName.bytes = primaryPhy ∧
        ∀ j < p.toNat, ∀ d, (visible s)[j]? = some d → (s.card d).phyName.bytes ≠ primaryPhy) ∧
    ∀ adjs : List User.TsfAdjustment,
      Uapi.decodeAdjustments (adjs.flatMap User.TsfAdjustment.bytes) = adjs.map User.TsfAdjustment.toKernel := by
  refine ⟨fun count => ?_, fun primaryPhy p => findPrimaryIndex_eq_ok_iff hnames primaryPhy p,
    decodeAdjustments_flatMap⟩
  have hdecode := decodeSnapshots_take (snapshots s) count
  refine ⟨((snapshots s).flatMap Uapi.TsfSnapshot.bytes).take count, by rw [run_chardevRead], hdecode, ?_, ?_⟩
  · rw [hdecode, List.length_map, List.length_take, snapshots, List.length_mapIdx, Nat.min_comm]
  · intro i snap hsnap
    rw [hdecode, List.getElem?_map, List.getElem?_take] at hsnap
    split at hsnap
    · rename_i hi
      rw [snapshots, List.getElem?_mapIdx] at hsnap
      cases hc : s.cardsList.ptrs[i]? with
      | none => rw [hc] at hsnap; cases hsnap
      | some c =>
        rw [hc] at hsnap
        cases hsnap
        refine ⟨c, rfl, rfl, fun hcount => ?_, nameBytes_snapshotOf s i c,
          name_snapshotOf (hnames c (List.mem_of_getElem? hc))⟩
        show (UInt32.ofNat i).toNat = i
        have hsize : User.snapshotSize = 56 := rfl
        rw [hsize] at hi
        rw [maxRwCount] at hcount
        rw [UInt32.toNat_ofNat']
        omega
    · cases hsnap

end Names

/-- Of three cards `a`, `b` and `c` a buffer of 120 bytes gets the first two, and `b` is found at position 1. -/
theorem wire_format_three : (∃ bytes, ((tsfSyncChardevRead .ok 120).run threeCards).1 = .ok bytes ∧
      (User.decodeSnapshots bytes).length = 2) ∧
    ((findPrimaryIndex (devTsfSync (pure ())) [98]).run threeCards).1 = .ok 1 := by
  have hnames : ∀ c ∈ threeCards.cardsList.ptrs, (threeCards.card c).NameOk := by
    intro c hc
    have hc' : c ∈ [CardPtr.card 0, .card 1, .card 2] := hc
    simp only [List.mem_cons, List.not_mem_nil, or_false] at hc'
    rcases hc' with rfl | rfl | rfl <;> exact ⟨by decide, by decide⟩
  obtain ⟨hread, hfind, -⟩ := wire_format hnames
  obtain ⟨bytes, hbytes, -, hlen, -⟩ := hread 120
  refine ⟨⟨bytes, hbytes, hlen⟩, (hfind [98] 1).mpr ⟨.card 1, rfl, rfl, ?_⟩⟩
  intro j hj d hd
  obtain rfl : j = 0 := Nat.lt_one_iff.mp hj
  cases hd
  decide

end TsfSync
