import TsfSync.Lib.Failing
import TsfSync.User.Ring

/-!
# Whose completion an operation consumes

A `sync_once` that begins on a ring with nothing left in it consumes its own completions only, whatever the ring does
during the call (`own_ringSyncOnce`). After a wait that failed or returned early something is left, and then the next
call may consume the completion of the earlier operation and decode a buffer that was never filled
(`exists_stale_ringSyncOnce`), unless the submission queue is full and every call fails at its push
(`log_of_full`). So a call is safe against every behaviour of the ring exactly when the ring is idle or full
(`own_completions_iff_idle`).
-/

namespace TsfSync.User

open TsfSync IoRings IoUringSyncer FailingRun ByteCodec

/-- The completion is that of the operation, and a decoded buffer is complete. -/
def RingEvent.Own : RingEvent → Prop
  | .consumed op cqe => cqe.sqe.op = op
  | .decoded _ complete => complete = true

instance : DecidablePred RingEvent.Own
  | .consumed op cqe => inferInstanceAs (Decidable (cqe.sqe.op = op))
  | .decoded _ complete => inferInstanceAs (Decidable (complete = true))

/-- Every operation so far consumed its own completion. -/
def OwnCompletions (s : Syncing) : Prop := ∀ e ∈ s.log, e.Own

instance (s : Syncing) : Decidable (OwnCompletions s) := inferInstanceAs (Decidable (∀ e ∈ s.log, e.Own))

/-- The operations in the ring are earlier ones, and the completions in its queue have happened. -/
structure Syncing.Sound (s : Syncing) : Prop where
  earlier : ∀ e ∈ s.ring.entries, e.op < s.nextOp
  recorded : s.ring.Recorded

theorem Syncing.sound_start : Syncing.start.Sound := ⟨fun _ h => (by cases h), Rings.recorded_empty⟩

/-! ## One operation -/

section Operation

variable {b : Behaviour} {e : Sqe Request} {ring : Ring}

theorem recorded_pushAndWait (hr : ring.Recorded) : (pushAndWait b e ring).2.Recorded := by
  unfold pushAndWait
  dsimp only
  cases hpush : (ring.completeAll b.before).push ringEntries e with
  | none => exact hr.completeAll _
  | some pushed =>
    have hwaited := (((hr.completeAll _).push hpush).take b.taken).completeAll b.during
    dsimp only
    split
    · exact hwaited
    · split
      · exact hwaited
      · rename_i hnext
        exact (hwaited.next hnext).2

/-- What becomes of an entry: it does not fit, or it stays in the ring with what was there, or it stays or goes as one
completion is popped. -/
theorem pushAndWait_cases (hr : ring.Recorded) :
    ((pushAndWait b e ring).1 = .error submissionFull ∧ (pushAndWait b e ring).2.entries.Perm ring.entries) ∨
    (∃ err, (pushAndWait b e ring).1 = .error err ∧
      (pushAndWait b e ring).2.entries.Perm (ring.entries ++ [e])) ∨
    ∃ cqe, (pushAndWait b e ring).1 = .ok cqe ∧
      (cqe.sqe :: (pushAndWait b e ring).2.entries).Perm (ring.entries ++ [e]) ∧
      cqe ∈ (pushAndWait b e ring).2.completed := by
  unfold pushAndWait
  dsimp only
  have hbefore : (ring.completeAll b.before).entries.Perm ring.entries := Rings.perm_completeAll _
  cases hpush : (ring.completeAll b.before).push ringEntries e with
  | none => exact .inl ⟨rfl, hbefore⟩
  | some pushed =>
    have hwaited : ((pushed.take b.taken).completeAll b.during).entries.Perm (ring.entries ++ [e]) := by
      refine (Rings.perm_completeAll _).trans ?_
      rw [Rings.entries_take, Rings.entries_push hpush]
      exact hbefore.append_right _
    have hrec := (((hr.completeAll _).push hpush).take b.taken).completeAll b.during
    dsimp only
    split
    · rename_i err _
      exact .inr (.inl ⟨err, rfl, hwaited⟩)
    · split
      · exact .inr (.inl ⟨noCompletion, rfl, hwaited⟩)
      · rename_i cqe rest hnext
        rw [Rings.entries_next hnext] at hwaited
        exact .inr (.inr ⟨cqe, rfl, hwaited, (hrec.next hnext).1⟩)

/-- The wait brings the completion at the head of the queue. -/
theorem pushAndWait_of_head? {pushed : Ring} {cqe : Cqe Request Answer} (hbefore : b.before = [])
    (hwait : b.wait = .ok ()) (hpush : ring.push ringEntries e = some pushed)
    (hhead : ((pushed.take b.taken).completeAll b.during).cq.head? = some cqe) :
    (pushAndWait b e ring).1 = .ok cqe := by
  simp only [pushAndWait, hbefore, hwait, Rings.completeAll_nil, hpush, Rings.next_of_head? hhead]

/-- An entry does not fit a full queue. -/
theorem pushAndWait_of_full (hfull : ringEntries ≤ ring.sq.length) :
    (pushAndWait b e ring).1 = .error submissionFull := by
  have hnone : (ring.completeAll b.before).push ringEntries e = none := by
    rw [Rings.push, Rings.sq_completeAll, if_neg (Nat.not_lt.mpr hfull)]
  simp only [pushAndWait, hnone]

end Operation

/-! ## The device -/

section Device

variable {env : Nat → Behaviour} {α : Type}

/-- What an operation leaves behind that consumed a completion. -/
structure Consumed (req : Request) (s s' : Syncing) (cqe : Cqe Request Answer) : Prop where
  sound : s'.Sound
  perm : (cqe.sqe :: s'.ring.entries).Perm (s.ring.entries ++ [⟨s.nextOp, req⟩])
  completed : cqe ∈ s'.ring.completed
  mem_log : .consumed s.nextOp cqe ∈ s'.log
  log_subset : s.log ⊆ s'.log
  own : cqe.sqe.op = s.nextOp → OwnCompletions s → OwnCompletions s'

/-- `x` submits one entry and consumes at most one completion, the one that the wait brings. -/
def Operates (env : Nat → Behaviour) (req : Request) (x : RingM α) : Prop := ∀ s : Syncing, s.Sound →
  (∃ err s', (pushAndWait (env s.nextOp) ⟨s.nextOp, req⟩ s.ring).1 = .error err ∧ x s = (.error err, s') ∧
    s'.Sound ∧ s'.log = s.log) ∨
  ∃ cqe a s', (pushAndWait (env s.nextOp) ⟨s.nextOp, req⟩ s.ring).1 = .ok cqe ∧ x s = (.ok a, s') ∧
    Consumed req s s' cqe

theorem operates_transfer (req : Request) : Operates env req (transfer env req) := by
  rintro ⟨ring, nextOp, log⟩ hs
  have hrec := recorded_pushAndWait (b := env nextOp) (e := ⟨nextOp, req⟩) hs.recorded
  have hcases := pushAndWait_cases (b := env nextOp) (e := ⟨nextOp, req⟩) hs.recorded
  have hpushed : ∀ e ∈ ring.entries ++ [⟨nextOp, req⟩], e.op < nextOp + 1 := by
    intro e he
    rcases List.mem_append.mp he with he | he
    · exact Nat.lt_succ_of_lt (hs.earlier e he)
    · cases List.mem_singleton.mp he
      exact Nat.lt_succ_self _
  unfold transfer
  dsimp only
  rcases hres : pushAndWait (env nextOp) ⟨nextOp, req⟩ ring with ⟨res, ring'⟩
  rw [hres] at hcases hrec
  rcases hcases with ⟨rfl, hperm⟩ | ⟨err, rfl, hperm⟩ | ⟨cqe, rfl, hperm, hcqe⟩
  · refine .inl ⟨_, _, rfl, rfl, ⟨fun e he => ?_, hrec⟩, rfl⟩
    exact Nat.lt_succ_of_lt (hs.earlier e (hperm.subset he))
  · refine .inl ⟨_, _, rfl, rfl, ⟨fun e he => ?_, hrec⟩, rfl⟩
    exact hpushed e (hperm.subset he)
  · refine .inr ⟨cqe, _, _, rfl, rfl, ⟨fun e he => ?_, hrec⟩, hperm, hcqe, ?_, ?_, ?_⟩
    · exact hpushed e (hperm.subset (List.mem_cons_of_mem _ he))
    · exact List.mem_append_right _ List.mem_cons_self
    · exact List.subset_append_left _ _
    · intro hop hown e he
      rcases List.mem_append.mp he with he | he
      · exact hown e he
      · cases List.mem_singleton.mp he
        exact hop

/-- Decoding adds that the buffer was complete, if the completion was the operation's own. -/
theorem Consumed.decodeBuffer {req : Request} {s s' : Syncing} {cqe : Cqe Request Answer} (h : Consumed req s s' cqe)
    (len bytesRead : Nat) : ∃ buf s'', decodeBuffer env s.nextOp len bytesRead s' = (.ok buf, s'') ∧
      Consumed req s s'' cqe := by
  have hperm := Rings.perm_completeAll (r := s'.ring) (env s.nextOp).after
  have hdone := Rings.completed_completeAll (env s.nextOp).after h.completed
  refine ⟨_, _, rfl, ⟨fun e he => h.sound.earlier e (hperm.subset he), h.sound.recorded.completeAll _⟩,
    (hperm.cons _).trans h.perm, hdone, List.mem_append_left _ h.mem_log, ?_, ?_⟩
  · exact List.Subset.trans h.log_subset (List.subset_append_left _ _)
  · intro hop hown e he
    rcases List.mem_append.mp he with he | he
    · exact h.own hop hown e he
    · cases List.mem_singleton.mp he
      exact List.any_eq_true.mpr ⟨cqe, hdone, beq_iff_eq.mpr hop⟩

theorem op_transfer {req : Request} {s s' : Syncing} {a : Nat × Except Errno Nat}
    (h : transfer env req s = (.ok a, s')) : a.1 = s.nextOp := by
  unfold transfer at h
  dsimp only at h
  split at h
  · cases h
  · cases h; rfl

theorem operates_read (env : Nat → Behaviour) (len : Nat) : Operates env ⟨.read len, 0x01⟩ ((ringDev env).read len) := by
  intro s hs
  rcases operates_transfer ⟨.read len, 0x01⟩ s hs with ⟨err, s', hpopped, hrun, hs', hlog⟩ |
    ⟨cqe, ⟨op, res⟩, s', hpopped, hrun, hcons⟩
  · exact .inl ⟨err, s', hpopped, bind_error hrun, hs', hlog⟩
  · obtain rfl : op = s.nextOp := op_transfer hrun
    refine .inr ⟨cqe, ?_⟩
    cases res with
    | error e => exact ⟨_, s', hpopped, bind_ok hrun, hcons⟩
    | ok bytesRead =>
      obtain ⟨buf, s'', hdecode, hcons'⟩ := hcons.decodeBuffer len bytesRead
      exact ⟨_, s'', hpopped, (bind_ok hrun).trans (bind_ok hdecode), hcons'⟩

theorem operates_write (env : Nat → Behaviour) (buf : List UInt8) : Operates env ⟨.write buf, 0x02⟩ ((ringDev env).write buf) := by
  intro s hs
  rcases operates_transfer ⟨.write buf, 0x02⟩ s hs with ⟨err, s', hpopped, hrun, hs', hlog⟩ |
    ⟨cqe, a, s', hpopped, hrun, hcons⟩
  · exact .inl ⟨err, s', hpopped, bind_error hrun, hs', hlog⟩
  · exact .inr ⟨cqe, _, s', hpopped, bind_ok hrun, hcons⟩

namespace Operates

variable {req : Request} {x : RingM α} {s : Syncing}

theorem sound (hx : Operates env req x) (hs : s.Sound) : (x s).2.Sound := by
  rcases hx s hs with ⟨err, s', -, hrun, hs', -⟩ | ⟨cqe, a, s', -, hrun, hcons⟩
  · rw [hrun]; exact hs'
  · rw [hrun]; exact hcons.sound

/-- What the thread saw stays seen. -/
theorem log_subset (hx : Operates env req x) (hs : s.Sound) : s.log ⊆ (x s).2.log := by
  rcases hx s hs with ⟨err, s', -, hrun, -, hlog⟩ | ⟨cqe, a, s', -, hrun, hcons⟩
  · rw [hrun, ← hlog]; exact List.Subset.refl _
  · rw [hrun]; exact hcons.log_subset

/-- **On an idle ring** an operation consumes its own completion or none, and it leaves the ring idle if it gets one. -/
theorem own (hx : Operates env req x) (hs : s.Sound) (hidle : s.ring.Idle) (hown : OwnCompletions s) :
    OwnCompletions (x s).2 ∧ ∀ a, (x s).1 = .ok a → (x s).2.ring.Idle := by
  rcases hx s hs with ⟨err, s', -, hrun, -, hlog⟩ | ⟨cqe, a, s', -, hrun, hcons⟩
  · rw [hrun]
    refine ⟨fun e he => hown e (hlog ▸ he), fun a ha => by cases ha⟩
  · have hperm := hcons.perm
    rw [show s.ring.entries = [] from hidle, List.nil_append] at hperm
    obtain ⟨hsqe, hidle'⟩ := Rings.own_of_perm hperm
    rw [hrun]
    exact ⟨hcons.own (congrArg Sqe.op hsqe) hown, fun _ _ => hidle'⟩

/-- An operation whose entry does not fit sees nothing. -/
theorem log_of_full (hx : Operates env req x) (hs : s.Sound) (hfull : ringEntries ≤ s.ring.sq.length) :
    (∃ err, (x s).1 = .error err) ∧ (x s).2.log = s.log := by
  rcases hx s hs with ⟨err, s', -, hrun, -, hlog⟩ | ⟨cqe, a, s', hpopped, -, -⟩
  · rw [hrun]; exact ⟨⟨err, rfl⟩, hlog⟩
  · rw [pushAndWait_of_full hfull] at hpopped; cases hpopped

/-- An operation that is brought the completion of an earlier one consumes it. -/
theorem stale (hx : Operates env req x) (hs : s.Sound) {cqe : Cqe Request Answer}
    (hpopped : (pushAndWait (env s.nextOp) ⟨s.nextOp, req⟩ s.ring).1 = .ok cqe) (hcqe : cqe.sqe ∈ s.ring.entries) :
    ¬OwnCompletions (x s).2 := by
  rcases hx s hs with ⟨err, s', herr, -, -, -⟩ | ⟨cqe', a, s', hok, hrun, hcons⟩
  · rw [herr] at hpopped; cases hpopped
  · rw [hpopped] at hok
    cases hok
    intro hown
    rw [hrun] at hown
    have hop : cqe.sqe.op = s.nextOp := hown _ hcons.mem_log
    exact absurd (hs.earlier _ hcqe) (by omega)

end Operates

end Device

/-! ## A call of `sync_once` -/

section Call

variable {self : IoUringSyncer} {env : Nat → Behaviour} {s : Syncing}

/-- The length of a read. -/
abbrev readLen : Nat := snapshotSize * maxCards

/-- A call is its read, or its read, which succeeded, and then its write. -/
theorem ringSyncOnce_cases (self : IoUringSyncer) (env : Nat → Behaviour) (s : Syncing) :
    (self.ringSyncOnce env s).2 = ((ringDev env).read readLen s).2 ∨
    ∃ bytes buf, ((ringDev env).read readLen s).1 = .ok (.ok bytes) ∧
      (self.ringSyncOnce env s).2 = ((ringDev env).write buf ((ringDev env).read readLen s).2).2 := by
  show (self.syncOnce (ringDev env) s).2 = _ ∨ ∃ bytes buf, _ ∧ (self.syncOnce (ringDev env) s).2 = _
  rcases hread : (ringDev env).read readLen s with ⟨res, s₁⟩
  cases res with
  | error err => exact .inl (congrArg Prod.snd (bind_error (bind_error hread)))
  | ok res =>
    unfold IoUringSyncer.syncOnce
    cases res with
    | error e =>
      have hsnaps : readSnapshots (ringDev env) s = (.ok (.error e), s₁) := bind_ok hread
      rw [bind_ok hsnaps]
      exact .inl rfl
    | ok bytes =>
      have hsnaps : readSnapshots (ringDev env) s = (.ok (.ok (decodeSnapshots bytes)), s₁) := bind_ok hread
      rw [bind_ok hsnaps]
      dsimp only
      split
      · exact .inl rfl
      · cases hprimary : (decodeSnapshots bytes).find? (·.cardIndex == self.primaryIndex) with
        | none => exact .inl rfl
        | some primary =>
          dsimp only
          split
          · exact .inl rfl
          · refine .inr ⟨bytes, _, rfl, (snd_bind ?_ s₁).trans (snd_bind ?_ s₁)⟩
            · intro res s₂; cases res <;> rfl
            · intro res s₂; cases res <;> rfl

theorem sound_ringSyncOnce (hs : s.Sound) : (self.ringSyncOnce env s).2.Sound := by
  have hread := (operates_read env readLen).sound hs
  rcases ringSyncOnce_cases self env s with h | ⟨-, buf, -, h⟩
  · rw [h]; exact hread
  · rw [h]; exact (operates_write _ buf).sound hread

/-- A call that begins on an idle ring consumes its own completions. -/
theorem own_ringSyncOnce (hs : s.Sound) (hidle : s.ring.Idle) (hown : OwnCompletions s) :
    OwnCompletions (self.ringSyncOnce env s).2 := by
  have hsread := (operates_read env readLen).sound hs
  obtain ⟨hread, hidle'⟩ := (operates_read env readLen).own hs hidle hown
  rcases ringSyncOnce_cases self env s with h | ⟨bytes, buf, hok, h⟩
  · rw [h]; exact hread
  · rw [h]; exact ((operates_write _ buf).own hsread (hidle' _ hok) hread).1

/-- A call whose entry does not fit sees nothing. -/
theorem log_of_full (self : IoUringSyncer) (env : Nat → Behaviour) (hs : s.Sound)
    (hfull : ringEntries ≤ s.ring.sq.length) :
    (self.ringSyncOnce env s).2.log = s.log := by
  obtain ⟨⟨err, herr⟩, hlog⟩ := (operates_read env readLen).log_of_full hs hfull
  rcases ringSyncOnce_cases self env s with h | ⟨bytes, buf, hok, -⟩
  · rw [h]; exact hlog
  · rw [herr] at hok; cases hok

/-- The ring takes every entry and completes what is left of an earlier operation first. -/
def staleFirst (arrivals : List (Nat × Answer)) (queued : Nat) : Behaviour := ⟨[], queued + 1, arrivals, .ok (), []⟩

/-- Where something is left and a push fits, the ring can bring the next call the completion of an earlier operation. -/
theorem exists_stale_ringSyncOnce (self : IoUringSyncer) (hs : s.Sound) (hleft : ¬s.ring.Idle)
    (hfits : s.ring.sq.length < ringEntries) : ∃ env, ¬OwnCompletions (self.ringSyncOnce env s).2 := by
  obtain ⟨pushed, hpush⟩ : ∃ pushed, s.ring.push ringEntries ⟨s.nextOp, ⟨.read readLen, 0x01⟩⟩ = some pushed :=
    ⟨_, if_pos hfits⟩
  obtain ⟨arrivals, cqe, hhead, hcqe⟩ := Rings.exists_stale_head ⟨0, []⟩ hleft hpush
  refine ⟨fun _ => staleFirst arrivals s.ring.sq.length, fun hown => ?_⟩
  have hread := operates_read (fun _ => staleFirst arrivals s.ring.sq.length) readLen
  have hpopped := pushAndWait_of_head? (b := staleFirst arrivals s.ring.sq.length) rfl rfl hpush hhead
  refine hread.stale hs hpopped hcqe fun e he => hown e ?_
  rcases ringSyncOnce_cases self (fun _ => staleFirst arrivals s.ring.sq.length) s with h | ⟨-, buf, -, h⟩
  · rw [h]; exact he
  · rw [h]; exact (operates_write _ buf).log_subset (hread.sound hs) he

end Call

/-! ## Runs -/

section Rounds

variable (self : IoUringSyncer) (env : Nat → Behaviour)

theorem sound_rounds : ∀ n, (self.rounds env n).Sound
  | 0 => Syncing.sound_start
  | n + 1 => sound_ringSyncOnce (sound_rounds n)

theorem own_rounds : ∀ n, (∀ k < n, (self.rounds env k).ring.Idle) → OwnCompletions (self.rounds env n)
  | 0, _ => fun _ he => by cases he
  | n + 1, h => own_ringSyncOnce (sound_rounds self env n) (h n (Nat.lt_succ_self n))
      (own_rounds n fun k hk => h k (Nat.lt_succ_of_lt hk))

/-- **Own completions**: a run whose rounds all begin on an idle ring consumes its own completions only; and in every
state a run reaches the next round does so under every behaviour of the ring exactly when nothing is left in the ring, or
so much that nothing can be pushed. -/
theorem own_completions_iff_idle (n : Nat) :
    ((∀ k < n, (self.rounds env k).ring.Idle) → OwnCompletions (self.rounds env n)) ∧
    (OwnCompletions (self.rounds env n) →
      ((∀ env', OwnCompletions (self.ringSyncOnce env' (self.rounds env n)).2) ↔
        (self.rounds env n).ring.Idle ∨ ringEntries ≤ (self.rounds env n).ring.sq.length)) := by
  have hs := sound_rounds self env n
  refine ⟨own_rounds self env n, fun hown => ⟨fun hall => ?_, ?_⟩⟩
  · by_contra hleft
    obtain ⟨hidle, hfits⟩ := not_or.mp hleft
    obtain ⟨env', hstale⟩ := exists_stale_ringSyncOnce self hs hidle (Nat.lt_of_not_le hfits)
    exact hstale (hall env')
  · rintro (hidle | hfull) env'
    · exact own_ringSyncOnce hs hidle hown
    · exact fun e he => hown e (log_of_full self env' hs hfull ▸ he)

end Rounds

/-- The snapshots of two cards 1 ms apart. -/
def twoCards : Answer where
  result := 112
  data := List.replicate 56 0 ++ encodeLE 4 1 ++ List.replicate 36 0 ++ encodeLE 8 1000000 ++ List.replicate 8 0

/-- A ring that answers every operation, in turn a read and a write, before the wait returns. -/
def prompt (op : Nat) : Behaviour where
  before := []
  taken := 1
  during := [(op, if op % 2 = 0 then twoCards else ⟨12, []⟩)]
  wait := .ok ()
  after := []

theorem own_completions_iff_idle_two : (rounds prompt ⟨0, 5000⟩ 2).nextOp = 4 ∧
    OwnCompletions (rounds prompt ⟨0, 5000⟩ 2) ∧
    ∀ env', OwnCompletions (ringSyncOnce env' ⟨0, 5000⟩ (rounds prompt ⟨0, 5000⟩ 2)).2 := by
  have hown := (own_completions_iff_idle ⟨0, 5000⟩ prompt 2).1 (by decide +kernel)
  exact ⟨by decide +kernel, hown, ((own_completions_iff_idle ⟨0, 5000⟩ prompt 2).2 hown).mpr (.inl (by decide +kernel))⟩

/-- A ring whose first wait returns before its read completes; the completion arrives during the second wait. -/
def late (op : Nat) : Behaviour where
  before := []
  taken := 1
  during := if op = 1 then [(0, twoCards)] else []
  wait := .ok ()
  after := []

/-- The second round consumes the completion of the first read and decodes a buffer that was never filled. -/
theorem own_completions_counterexample :
    (ringSyncOnce late ⟨0, 5000⟩ .start).1 = .error noCompletion ∧
    RingEvent.decoded 1 false ∈ (rounds late ⟨0, 5000⟩ 2).log ∧
    ¬∀ (self : IoUringSyncer) (env : Nat → Behaviour) (n : Nat), OwnCompletions (rounds env self n) :=
  ⟨by decide +kernel, by decide +kernel, fun h => absurd (h ⟨0, 5000⟩ late 2) (by decide +kernel)⟩

end TsfSync.User
