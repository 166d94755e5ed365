import Mathlib.Algebra.Group.Nat.Defs
import TsfSync.Debugfs.Sleep

/-!
# Reading and writing a TSF file

`TsfFile` of `debugfs.rs` reads and writes at offset 0 with `pread` and `pwrite`, or with `lseek`, `read` and `write` where
its probe has found that `pread` does not work. The inline system calls of x86_64 give a negative errno, the C library gives
-1 and stores the errno, and `do_pread` and `do_pwrite` make the second into the first. `read_raw` reports every outcome on
both paths (`readRaw_eq`). `write_raw` takes the -1 of `libc::write` for a negative errno, so without `pread` every failed
write is reported as errno 1, `EPERM` (`reportsAlike_iff`).
-/

namespace TsfSync.Debugfs

/-- `EPERM`. -/
def KernelErrno.eperm : KernelErrno := ⟨1, by decide, by decide⟩

/-- The value of `errno` for an error. -/
def KernelErrno.code (errno : KernelErrno) : Int32 := Int32.ofNat errno.val

/-- The number of bytes that a call has transferred, an `ssize_t`. -/
structure ByteCount where
  val : Nat
  lt : val < 2 ^ 63
  deriving DecidableEq

/-- How the kernel ends a read or a write. -/
inductive Transfer
  | done (n : ByteCount)
  | failed (errno : KernelErrno)
  deriving DecidableEq

/-- What a system call leaves in `rax`: `raw_pread64` and `raw_pwrite64`. -/
def Transfer.rax : Transfer → Int64
  | .done n => Int64.ofNat n.val
  | .failed errno => Int64.ofInt (-errno.val)

/-- What a call of the C library returns, and `errno` after it. -/
def Transfer.libc (result : Transfer) (errno : Int32) : Int64 × Int32 :=
  match result with
  | .done n => (Int64.ofNat n.val, errno)
  | .failed e => (-1, e.code)

/-- `errno` after `libc::lseek`, whose result the code ignores; it may fail, with an errno. -/
def lseek (failure : Option KernelErrno) (errno : Int32) : Int32 :=
  match failure with
  | none => errno
  | some e => e.code

/-- A call at an offset: bytes transferred or a negative errno. -/
def positioned (arch : Arch) (result : Transfer) (errno : Int32) : Int64 :=
  match arch with
  | .x86_64 => result.rax
  | .other =>
    let (r, errno) := result.libc errno
    if r < 0 then -errno.toInt64 else r

/-- `do_pread`. -/
def doPread : Arch → Transfer → Int32 → Int64 := positioned

/-- `do_pwrite`. -/
def doPwrite : Arch → Transfer → Int32 → Int64 := positioned

/-- `TsfFile`, without its file descriptor. -/
structure TsfFile where
  preadOk : Bool
  deriving DecidableEq

namespace TsfFile

/-- `TsfFile::open` once the file is open, given what its probe gives. -/
def opened (arch : Arch) (probe : Transfer) (errno : Int32) : TsfFile := ⟨0 ≤ doPread arch probe errno⟩

/-- `read_raw`: the bytes read, or the OS code of the error. -/
def readRaw (file : TsfFile) (arch : Arch) (seek : Option KernelErrno) (result : Transfer) (errno : Int32) :
    Except Int32 UInt64 :=
  if file.preadOk then
    let r := doPread arch result errno
    if r < 0 then .error (-r).toInt32 else .ok r.toUInt64
  else
    let (r, errno) := result.libc (lseek seek errno)
    if r < 0 then .error errno else .ok r.toUInt64

/-- `write_raw`. -/
def writeRaw (file : TsfFile) (arch : Arch) (seek : Option KernelErrno) (result : Transfer) (errno : Int32) :
    Except Int32 Unit :=
  let written := if file.preadOk then doPwrite arch result errno else (result.libc (lseek seek errno)).1
  if written < 0 then .error (-written).toInt32 else .ok ()

end TsfFile

/-- What a read or a write is to report: the bytes transferred, or the error of the kernel. -/
def Transfer.reported : Transfer → Except Int32 UInt64
  | .done n => .ok (UInt64.ofNat n.val)
  | .failed errno => .error errno.code

/-- The two functions. -/
inductive Operation
  | readRaw
  | writeRaw
  deriving DecidableEq

/-- What a function returns for an outcome of its call: the bytes read, if it reads, or the OS code of the error. -/
def TsfFile.report (file : TsfFile) (arch : Arch) (seek : Option KernelErrno) (result : Transfer) (errno : Int32) :
    Operation → Except Int32 (Option UInt64)
  | .readRaw => (file.readRaw arch seek result errno).map some
  | .writeRaw => (file.writeRaw arch seek result errno).map fun _ => none

/-- What a function is to return. -/
def Operation.expected (result : Transfer) : Operation → Except Int32 (Option UInt64)
  | .readRaw => result.reported.map some
  | .writeRaw => result.reported.map fun _ => none

/-- The function reports this outcome on both paths. -/
def ReportsAlike (op : Operation) (arch : Arch) (seek : Option KernelErrno) (result : Transfer) (errno : Int32) : Prop :=
  ∀ file : TsfFile, file.report arch seek result errno op = op.expected result

/-! ## Numbers of bytes and errors -/

theorem ByteCount.toInt (n : ByteCount) : (Int64.ofNat n.val).toInt = n.val := Int64.toInt_ofNat_of_lt n.lt

/-- A number of bytes is no error. -/
theorem ByteCount.not_neg (n : ByteCount) : ¬Int64.ofNat n.val < 0 := by
  rw [Int64.lt_iff_toInt_lt, n.toInt, Int64.toInt_zero]
  omega

theorem KernelErrno.toInt_neg (errno : KernelErrno) : (Int64.ofInt (-errno.val)).toInt = -errno.val := by
  have hle := errno.le_max
  exact Int64.toInt_ofInt_of_le (by omega) (by omega)

/-- A negative errno is an error. -/
theorem KernelErrno.neg (errno : KernelErrno) : Int64.ofInt (-errno.val) < 0 := by
  have hpos := errno.pos
  rw [Int64.lt_iff_toInt_lt, errno.toInt_neg, Int64.toInt_zero]
  omega

/-- Its code is the errno. -/
theorem KernelErrno.code_neg (errno : KernelErrno) : (-Int64.ofInt (-errno.val)).toInt32 = errno.code := by
  rw [Int64.neg_ofInt, Int.neg_neg, Int64.toInt32_ofInt, Int32.ofInt_eq_ofNat, code]

/-- The C library's errno negated is the negative errno of the kernel. -/
theorem KernelErrno.neg_code (errno : KernelErrno) : -errno.code.toInt64 = Int64.ofInt (-errno.val) := by
  have hle := errno.le_max
  have hmax : Int32.maxValue.toInt = 2147483647 := rfl
  rw [code, Int32.toInt64_ofNat' (by omega), Int64.ofInt_neg, Int64.ofInt_eq_ofNat]

theorem KernelErrno.code_inj {e e' : KernelErrno} (h : e.code = e'.code) : e = e' := by
  have hle := e.le_max
  have hle' := e'.le_max
  have hval := congrArg Int32.toInt h
  rw [code, code, Int32.toInt_ofNat_of_lt (by omega), Int32.toInt_ofNat_of_lt (by omega)] at hval
  cases e
  cases e'
  rw [mk.injEq]
  exact Int.ofNat_inj.mp hval

/-! ## What the functions report -/

variable {arch : Arch} {seek : Option KernelErrno} {result : Transfer} {errno : Int32}

/-- On all architectures a call at an offset gives what the inline system call gives. -/
theorem positioned_eq (arch : Arch) (result : Transfer) (errno : Int32) : positioned arch result errno = result.rax := by
  cases arch with
  | x86_64 => rfl
  | other =>
    cases result with
    | done n => exact if_neg n.not_neg
    | failed e =>
      show (if (-1 : Int64) < 0 then -e.code.toInt64 else -1) = _
      rw [if_pos (by decide), e.neg_code, Transfer.rax]

/-- A negative errno is reported as the error, and anything else as a value. -/
theorem positioned_reported {α : Type} (value : Int64 → α) :
    (if positioned arch result errno < 0 then Except.error (-positioned arch result errno).toInt32
      else .ok (value (positioned arch result errno))) =
    match result with
    | .done n => .ok (value (Int64.ofNat n.val))
    | .failed e => .error e.code := by
  rw [positioned_eq]
  cases result with
  | done n => exact if_neg n.not_neg
  | failed e => exact (if_pos e.neg).trans (congrArg _ e.code_neg)

/-- **`read_raw` reports every outcome**, on both paths. -/
theorem TsfFile.readRaw_eq (file : TsfFile) : file.readRaw arch seek result errno = result.reported := by
  obtain ⟨preadOk⟩ := file
  cases preadOk with
  | true => exact (positioned_reported Int64.toUInt64).trans (by cases result <;> rfl)
  | false =>
    cases result with
    | done n => exact if_neg n.not_neg
    | failed e => rfl

/-- What `write_raw` reports: without `pread` every error is `EPERM`. -/
theorem TsfFile.writeRaw_eq (file : TsfFile) : file.writeRaw arch seek result errno =
    match result with
    | .done _ => .ok ()
    | .failed e => .error (if file.preadOk then e.code else KernelErrno.eperm.code) := by
  obtain ⟨preadOk⟩ := file
  cases preadOk with
  | true => exact positioned_reported fun _ => ()
  | false =>
    cases result with
    | done n => exact if_neg n.not_neg
    | failed e => rfl

/-- **A function reports alike if and only if** it is `read_raw`, or its call does not fail, or fails with `EPERM`. -/
theorem reportsAlike_iff (op : Operation) (arch : Arch) (seek : Option KernelErrno) (result : Transfer) (errno : Int32) :
    ReportsAlike op arch seek result errno ↔ op = .readRaw ∨ ∀ e, result = .failed e → e = .eperm := by
  cases op with
  | readRaw =>
    refine iff_of_true (fun file => ?_) (.inl rfl)
    exact congrArg (Except.map some) file.readRaw_eq
  | writeRaw =>
    cases result with
    | done n =>
      refine iff_of_true (fun file => ?_) (.inr nofun)
      rw [TsfFile.report, file.writeRaw_eq]
      rfl
    | failed e =>
      have hreport : ∀ file : TsfFile, file.report arch seek (.failed e) errno .writeRaw =
          .error (if file.preadOk then e.code else KernelErrno.eperm.code) := fun file => by
        rw [TsfFile.report, file.writeRaw_eq]
        rfl
      constructor
      · intro halike
        have h := (hreport ⟨false⟩).symm.trans (halike ⟨false⟩)
        refine .inr fun e' he => ?_
        cases he
        exact (KernelErrno.code_inj (Except.error.inj h)).symm
      · rintro (h | h) file
        · cases h
        · rw [hreport, h e rfl]
          exact congrArg Except.error (ite_self _)

/-- `ESPIPE`. -/
def KernelErrno.espipe : KernelErrno := ⟨29, by decide, by decide⟩

/-- `EIO`. -/
def KernelErrno.eio : KernelErrno := ⟨5, by decide, by decide⟩

/-- A driver fails a write with `EIO` on a filesystem without `pread`: the error reported is `EPERM`. -/
theorem reportsAlike_counterexample :
    (TsfFile.opened .x86_64 (.failed .espipe) 0).writeRaw .x86_64 none (.failed .eio) 0 = .error 1 ∧
      ¬ReportsAlike .writeRaw .x86_64 none (.failed .eio) 0 := by
  refine ⟨rfl, fun h => ?_⟩
  have hcode := h (TsfFile.opened .x86_64 (.failed .espipe) 0)
  cases hcode

end TsfSync.Debugfs
