import Mathlib.Data.BitVec
import LingmoAuthenticate.ShmComm.Frames

/-!
# Images over the channel: `shmn_image.c`

An image goes behind its header into the shared memory. The size of the header is a `size_t`, which
an `int` is added to, and the sum is an `int` again where it is passed on; the callbacks take the
header off in `size_t`. An `int` is a `BitVec 32`, a `size_t` a `BitVec 64`, and a conversion keeps
the sign or cuts.

* `Opens`: when a channel is created: where the capacity, header and lock fit an `int`.
* `Survives`: what a write, and the notice of a disconnection, are to come to.
* `image_size_survives_iff`: a write does exactly if the size and the header fit an `int`, and the
  size is not negative and has fewer than ten digits with the header, or is refused; what a reader
  is told of a disconnection never does.
-/

namespace LingmoAuthenticate.ShmComm

/-! ## Sizes -/

/-- An `int` where a `size_t` is needed. -/
def toSize (i : BitVec 32) : BitVec 64 := i.signExtend 64

/-- A `size_t` where an `int` is needed. -/
def toInt32 (n : BitVec 64) : BitVec 32 := n.setWidth 32

/-- The six fields of an `image_info`. -/
def sizeofImageInfo : BitVec 64 := 24

/-- Source: `shm_notifier_priv.h`, `lock`. -/
def sizeofLock : BitVec 32 := 4

/-! ## A channel -/

/-- Whether the shared memory can be opened and mapped, and the socket connected, and the descriptor
of that. -/
structure CreateEnv where
  maps : Bool
  connects : Bool
  selfFd : ℤ

/-- The kernel maps nothing of a size that is not positive.
Source: `shm_notifier.c`, `create_shm_data`. -/
def createShmData (env : CreateEnv) (size : BitVec 32) : Bool :=
  env.maps && decide (0 < size.toInt)

/-- Source: `shm_notifier.c`, `shmn_create`. -/
def shmnCreate (env : CreateEnv) (role : ShmnRole) (size : BitVec 32) : Option Shmn :=
  if createShmData env (size + sizeofLock) && env.connects then
    some { role
           enableEx := false
           selfFd := env.selfFd
           cliFdList := []
           senderSize := match role with
             | .shmnRoleWriter => size.toInt
             | .shmnRoleReader => 0 }
  else none

/-- The `shmn` of the image; it is not looked at whether there is one.
Source: `shmn_image.c`, `shmn_image_create`. -/
def shmnImageCreate (env : CreateEnv) (role : ShmnRole) (size : BitVec 32) : Option Shmn :=
  shmnCreate env role (toInt32 (toSize size + sizeofImageInfo))

/-! ## Writing and reading -/

/-- What a write returns, how many bytes it has copied to the shared memory by each `memcpy`, and
what it has written to the sockets. -/
structure ImageWrite where
  err : ShmnErr
  copies : List (BitVec 64)
  written : Written

/-- Source: `shmn_image.c`, `image_data_write_cb`. -/
def imageDataWriteCb (data_size : BitVec 32) : List (BitVec 64) :=
  [sizeofImageInfo, toSize data_size - sizeofImageInfo]

/-- What `shmn_write` copies, with `image_data_write_cb`. -/
def copiesOf (s : Option Shmn) (len : BitVec 32) : List (BitVec 64) :=
  match s with
  | none => []
  | some s =>
      if len.toInt > s.senderSize then []
      else match s.role with
        | .shmnRoleWriter => imageDataWriteCb len
        | .shmnRoleReader => if s.enableEx then [toSize len] else []

/-- `stack` is what the buffer of the length holds before. Source: `shmn_image.c`,
`shmn_image_write`, of an image, a header and data that are not null. -/
def shmnImageWrite (s : Option Shmn) (stack : LenBuffer) (size : BitVec 32) :
    Option ImageWrite := do
  let len := toInt32 (toSize size + sizeofImageInfo)
  let (err, written) ← shmnWrite s stack len.toInt
  return { err, copies := copiesOf s len, written }

/-- The `data_size` that the callback of the reader gets.
Source: `shmn_image.c`, `image_data_read_cb`. -/
def imageDataReadCb (size : BitVec 32) : BitVec 32 := toInt32 (toSize size - sizeofImageInfo)

/-- With what the callbacks of the images are invoked. -/
def imageCallbacks (cbs : List (Int × CbErr)) : List (BitVec 32 × CbErr) :=
  cbs.map fun cb => (imageDataReadCb (BitVec.ofInt 32 cb.1), cb.2)

/-- What the other end of a socket that is closed is told; nobody is where there is no channel. -/
def disconnected (s : Option Shmn) (stack : List Char) : List (BitVec 32 × CbErr) :=
  match s with
  | none => []
  | some s => imageCallbacks (match s.role with
      | .shmnRoleWriter => listenClient s.enableEx stack (some [])
      | .shmnRoleReader => recvLoop stack (some []))

/-! ## What is to hold -/

/-- What happens on a channel: the writer tells of an image of this size, or the connection is
lost. -/
inductive ImageEvent where
  | write (size : BitVec 32)
  | disconnect

/-- **The size survives the channel**: a write is refused and copies nothing, or the size is within
the capacity, the header and the size are what is copied, and a reader that gets the frame is called
with the size. Of a disconnection, no size that is negative is reported. -/
def Survives (capacity : BitVec 32) (s : Option Shmn) (stack : LenBuffer) : ImageEvent → Prop
  | .write size => ∃ r, shmnImageWrite s stack size = some r ∧
      (r.err ≠ .shmnNoErr ∧ r.copies = [] ∨
        r.err = .shmnNoErr ∧ 0 ≤ size.toInt ∧ size.toInt ≤ capacity.toInt ∧
          ((r.copies.map BitVec.toNat).sum : ℤ) = sizeofImageInfo.toNat + size.toInt ∧
          ∀ w ∈ r.written, ∀ mem,
            imageCallbacks (recvLoop mem (some w.2)) = [(size, .cbNoErr)])
  | .disconnect => ∀ mem, ∀ cb ∈ disconnected s mem, 0 ≤ cb.1.toInt

/-- The memory is mapped, the socket connected, and header, capacity and lock fit an `int` and are
not nothing. -/
def Opens (env : CreateEnv) (capacity : BitVec 32) : Prop :=
  env.maps = true ∧ env.connects = true ∧ -28 < capacity.toInt ∧ capacity.toInt + 28 < 2 ^ 31

/-- The size and the header fit an `int`, and of the writer either the size is above the capacity or
it is not negative and its text with the header fits the frame; a reader refuses what is longer than
nothing. A disconnection is told to the reader only. -/
def Fits (role : ShmnRole) (capacity : BitVec 32) : ImageEvent → Prop
  | .write size => size.toInt + 24 < 2 ^ 31 ∧ match role with
      | .shmnRoleWriter =>
          capacity.toInt < size.toInt ∨ 0 ≤ size.toInt ∧ size.toInt + 24 < 10 ^ 9
      | .shmnRoleReader => 0 < size.toInt + 24
  | .disconnect => role = .shmnRoleWriter

/-! ## Conversions -/

theorem toInt32_toSize (i : BitVec 32) : toInt32 (toSize i) = i := by
  ext k hk
  rw [toInt32, toSize, BitVec.getElem_setWidth, BitVec.getLsbD_signExtend, if_pos hk,
    BitVec.getLsbD_eq_getElem hk]
  simp
  omega

theorem toInt32_add (i : BitVec 32) : toInt32 (toSize i + sizeofImageInfo) = i + 24 := by
  have hcut := toInt32_toSize i
  unfold toInt32 at hcut ⊢
  rw [BitVec.setWidth_add _ _ (by decide), hcut]
  rfl

/-- The header is taken off in 32 bits. -/
theorem imageDataReadCb_eq (size : BitVec 32) : imageDataReadCb size = size - 24 := by
  have hcut := toInt32_toSize size
  unfold imageDataReadCb toInt32 at *
  rw [BitVec.sub_eq_add_neg, BitVec.setWidth_add _ _ (by decide), hcut, BitVec.sub_eq_add_neg]
  rfl

/-- An `int` that is not negative is the same `size_t`. -/
theorem toNat_toSize {i : BitVec 32} (h : 0 ≤ i.toInt) : ((toSize i).toNat : ℤ) = i.toInt := by
  have hlt := i.isLt
  have hcond := BitVec.toInt_eq_toNat_cond i
  have hsmall : 2 * i.toNat < 2 ^ 32 := by
    by_contra hge
    rw [if_neg hge] at hcond
    omega
  rw [toSize, BitVec.signExtend_eq_setWidth_of_msb_false
    (BitVec.msb_eq_false_iff_two_mul_lt.mpr hsmall), BitVec.toNat_setWidth,
    Nat.mod_eq_of_lt (by omega), hcond, if_pos hsmall]

/-- The range of an `int`. -/
theorem toInt_range (i : BitVec 32) : -2 ^ 31 ≤ i.toInt ∧ i.toInt < 2 ^ 31 :=
  ⟨BitVec.le_toInt i, BitVec.toInt_lt⟩

/-- **A sum that wraps**: with the header, or the lock, added. -/
theorem toInt_add_small {i : BitVec 32} {n : ℕ} (hn : n < 2 ^ 31) :
    (i + BitVec.ofNat 32 n).toInt =
      if i.toInt + n < 2 ^ 31 then i.toInt + n else i.toInt + n - 2 ^ 32 := by
  obtain ⟨hle, hlt⟩ := toInt_range i
  have hsmall : (BitVec.ofNat 32 n).toInt = n := by
    rw [BitVec.toInt_eq_toNat_of_lt]
    · rw [BitVec.toNat_ofNat, Nat.mod_eq_of_lt (by omega)]
    · rw [BitVec.toNat_ofNat, Nat.mod_eq_of_lt (by omega)]
      omega
  rw [BitVec.toInt_add, hsmall]
  split_ifs with hfits
  · apply Int.bmod_eq_of_le
    · omega
    · omega
  · rw [← Int.sub_bmod_right]
    apply Int.bmod_eq_of_le
    · omega
    · omega

/-- The length that is passed on. -/
theorem toInt_len (size : BitVec 32) :
    (size + 24).toInt =
      if size.toInt + 24 < 2 ^ 31 then size.toInt + 24 else size.toInt + 24 - 2 ^ 32 :=
  toInt_add_small (n := 24) (by decide)

/-! ## The channel and its writes -/

variable {env : CreateEnv} {role : ShmnRole} {capacity size : BitVec 32} {s : Shmn}
  {stack : LenBuffer}

/-- The memory that is mapped: with header and lock. -/
theorem toInt_mapped_pos_iff :
    0 < (capacity + 24 + sizeofLock).toInt ↔
      -28 < capacity.toInt ∧ capacity.toInt + 28 < 2 ^ 31 := by
  obtain ⟨-, hmax⟩ := toInt_range capacity
  have hlock : capacity + 24 + sizeofLock = capacity + BitVec.ofNat 32 28 := by
    rw [sizeofLock, BitVec.add_assoc]
    rfl
  rw [hlock, toInt_add_small (by decide)]
  split_ifs with hfits
  · constructor
    · intro hpos
      exact ⟨by omega, by omega⟩
    · rintro ⟨hlo, -⟩
      omega
  · constructor
    · intro hpos
      omega
    · rintro ⟨-, hhi⟩
      exact absurd hhi hfits

/-- **When a channel is created.** -/
theorem shmnImageCreate_eq_none : shmnImageCreate env role capacity = none ↔
    ¬ Opens env capacity := by
  unfold shmnImageCreate shmnCreate
  rw [toInt32_add, createShmData, Opens, ← toInt_mapped_pos_iff]
  split_ifs with hmaps
  · simp only [Bool.and_eq_true, decide_eq_true_eq] at hmaps
    obtain ⟨⟨hm, hpos⟩, hc⟩ := hmaps
    exact iff_of_false (by simp) (not_not_intro ⟨hm, hc, hpos⟩)
  · simp only [Bool.and_eq_true, decide_eq_true_eq, not_and] at hmaps
    simp only [true_iff, not_and]
    intro hm hc hpos
    exact hmaps ⟨hm, hpos⟩ hc

/-- **What a channel is created with.** -/
theorem shmnImageCreate_eq_some (h : shmnImageCreate env role capacity = some s) :
    Opens env capacity ∧ s.role = role ∧ s.enableEx = false ∧
      s.senderSize = if role = .shmnRoleWriter then capacity.toInt + 24 else 0 := by
  have hopens : Opens env capacity := by
    by_contra hclosed
    rw [shmnImageCreate_eq_none.mpr hclosed] at h
    cases h
  obtain ⟨-, -, hlo, hhi⟩ := id hopens
  unfold shmnImageCreate shmnCreate at h
  rw [toInt32_add] at h
  split_ifs at h
  cases h
  refine ⟨hopens, rfl, rfl, ?_⟩
  cases role with
  | shmnRoleWriter =>
      show (capacity + 24).toInt = capacity.toInt + 24
      rw [toInt_len, if_pos (by omega)]
  | shmnRoleReader => rfl

/-- A length above the size of the sender is refused. -/
theorem shmnImageWrite_refused (h : s.senderSize < (size + 24).toInt) :
    shmnImageWrite (some s) stack size = some ⟨.shmnErrDataSize, [], []⟩ := by
  unfold shmnImageWrite
  dsimp only
  rw [toInt32_add, shmnWrite, if_pos h, copiesOf, if_pos h]
  rfl

/-- A reader copies nothing, and has no error. -/
theorem shmnImageWrite_reader (hrole : s.role = .shmnRoleReader) (hex : s.enableEx = false)
    (h : (size + 24).toInt ≤ s.senderSize) :
    shmnImageWrite (some s) stack size = some ⟨.shmnNoErr, [], []⟩ := by
  unfold shmnImageWrite
  dsimp only
  rw [toInt32_add, shmnWrite, if_neg (Int.not_lt.mpr h), copiesOf, if_neg (Int.not_lt.mpr h),
    hrole, hex]
  rfl

/-- A writer copies, and sends the length where its text fits the frame. -/
theorem shmnImageWrite_writer (hrole : s.role = .shmnRoleWriter)
    (h : (size + 24).toInt ≤ s.senderSize) :
    shmnImageWrite (some s) stack size = (lenStr stack (size + 24).toInt).map fun f =>
      ⟨.shmnNoErr, imageDataWriteCb (size + 24),
        s.cliFdList.map (serverSendDataForeach f)⟩ := by
  unfold shmnImageWrite
  dsimp only
  rw [toInt32_add, shmnWrite, if_neg (Int.not_lt.mpr h), copiesOf, if_neg (Int.not_lt.mpr h),
    hrole]
  cases lenStr stack (size + 24).toInt with
  | none => rfl
  | some f => rfl

/-- **What is copied** of a size that is not negative, is header and size. -/
theorem sum_copies (h : 0 ≤ size.toInt) (hfits : size.toInt + 24 < 2 ^ 31) :
    (((imageDataWriteCb (size + 24)).map BitVec.toNat).sum : ℤ) =
      sizeofImageInfo.toNat + size.toInt := by
  have hlen : (size + 24).toInt = size.toInt + 24 := by
    rw [toInt_len, if_pos hfits]
  have hnat : ((toSize (size + 24)).toNat : ℤ) = size.toInt + 24 := by
    rw [toNat_toSize (by omega), hlen]
  have hrest : (toSize (size + 24) - sizeofImageInfo).toNat =
      (toSize (size + 24)).toNat - 24 := by
    apply BitVec.toNat_sub_of_le
    apply BitVec.le_def.mpr
    show 24 ≤ (toSize (size + 24)).toNat
    omega
  simp only [imageDataWriteCb, List.map_cons, List.map_nil, List.sum_cons, List.sum_nil, hrest]
  show ((24 + ((toSize (size + 24)).toNat - 24 + 0) : ℕ) : ℤ) = 24 + size.toInt
  omega

/-- A frame of the length, as it is read, gives the size. -/
theorem imageCallbacks_of_lenStr {f : LenBuffer} (h : 0 ≤ (size + 24).toInt)
    (hf : lenStr stack (size + 24).toInt = some f) (mem : List Char) :
    imageCallbacks (recvLoop mem (some f.toList)) = [(size, .cbNoErr)] := by
  rw [recvLoop_of_ne_nil mem (toList_ne_nil f), overwrite, atoi_of_lenStr h hf]
  show [(imageDataReadCb (BitVec.ofInt 32 (size + 24).toInt), _)] = _
  rw [BitVec.ofInt_toInt, imageDataReadCb_eq, BitVec.add_sub_cancel]

/-! ## Which sizes survive -/

/-- **A write by a reader** is refused unless the length is not positive, and no error is then
returned for nothing copied. -/
theorem survives_write_reader (hrole : s.role = .shmnRoleReader) (hex : s.enableEx = false)
    (hsize : s.senderSize = 0) :
    Survives capacity (some s) stack (.write size) ↔
      Fits .shmnRoleReader capacity (.write size) := by
  obtain ⟨hmin, hmax⟩ := toInt_range size
  have hlen := toInt_len size
  constructor
  · rintro ⟨r, hr, hkept⟩
    have hpos : 0 < (size + 24).toInt := by
      by_contra hle
      rw [shmnImageWrite_reader hrole hex (by omega)] at hr
      cases hr
      obtain ⟨hne, -⟩ | ⟨-, hnonneg, -, hcopied, -⟩ := hkept
      · exact hne rfl
      · change (0 : ℤ) = 24 + size.toInt at hcopied
        omega
    rw [hlen] at hpos
    split_ifs at hpos with hfits
    · exact ⟨hfits, hpos⟩
    · omega
  · rintro ⟨hfits, hpos⟩
    rw [if_pos hfits] at hlen
    refine ⟨_, shmnImageWrite_refused (by omega), Or.inl ⟨?_, rfl⟩⟩
    simp

/-- **A write by a writer** of a size that is within the capacity, or above. -/
theorem survives_write_writer (hrole : s.role = .shmnRoleWriter)
    (hsize : s.senderSize = capacity.toInt + 24)
    (hopens : -28 < capacity.toInt ∧ capacity.toInt + 28 < 2 ^ 31) :
    Survives capacity (some s) stack (.write size) ↔
      Fits .shmnRoleWriter capacity (.write size) := by
  obtain ⟨hmin, hmax⟩ := toInt_range size
  obtain ⟨hlo, hhi⟩ := hopens
  have hlen := toInt_len size
  constructor
  · rintro ⟨r, hr, hkept⟩
    by_cases hle : (size + 24).toInt ≤ s.senderSize
    · rw [shmnImageWrite_writer hrole hle] at hr
      obtain ⟨f, hf, rfl⟩ := Option.map_eq_some_iff.mp hr
      obtain ⟨hne, -⟩ | ⟨-, hnonneg, hwithin, -, -⟩ := hkept
      · exact absurd rfl hne
      · rw [if_pos (by omega)] at hlen
        obtain ⟨htext, -⟩ := eq_of_lenStr (by omega) hf
        exact ⟨by omega, Or.inr ⟨hnonneg, by omega⟩⟩
    · -- What has wrapped is far below the size of the sender.
      rw [hlen, hsize] at hle
      split_ifs at hle with hfits
      · exact ⟨hfits, Or.inl (by omega)⟩
      · omega
  · rintro ⟨hfits, hkept⟩
    rw [if_pos hfits] at hlen
    by_cases habove : capacity.toInt < size.toInt
    · refine ⟨_, shmnImageWrite_refused (by omega), Or.inl ⟨?_, rfl⟩⟩
      simp
    · obtain habove' | ⟨hnonneg, htext⟩ := hkept
      · exact absurd habove' habove
      · have hsome : (lenStr stack (size + 24).toInt).isSome := by
          rw [lenStr_isSome_iff (by omega)]
          omega
        obtain ⟨f, hf⟩ := Option.isSome_iff_exists.mp hsome
        refine ⟨_, by rw [shmnImageWrite_writer hrole (by omega), hf]; rfl,
          Or.inr ⟨rfl, hnonneg, by omega, sum_copies hnonneg hfits, ?_⟩⟩
        intro w hw mem
        obtain ⟨fd, -, rfl⟩ := List.mem_map.mp hw
        exact imageCallbacks_of_lenStr (by omega) hf mem

/-- **A disconnection** is told to a reader with a size that is negative: that of nothing, less the
header. -/
theorem survives_disconnect : Survives capacity (some s) stack .disconnect ↔
    s.role = .shmnRoleWriter := by
  cases hrole : s.role with
  | shmnRoleWriter =>
      apply iff_of_true
      · intro mem cb hcb
        rw [disconnected, hrole] at hcb
        cases hcb
      · rfl
  | shmnRoleReader =>
      apply iff_of_false
      · intro hkept
        have hneg := hkept [] (-24, .cbErrDisconneted) (by
          rw [disconnected, hrole]
          exact List.mem_singleton_self _)
        revert hneg
        decide
      · simp

/-- **Image sizes survive the channel** exactly where none is opened, or the size fits it, whoever
is connected by then. -/
theorem image_size_survives_iff (env : CreateEnv) (role : ShmnRole) (capacity : BitVec 32)
    (clients : List Int) (stack : LenBuffer) (ev : ImageEvent) :
    Survives capacity ((shmnImageCreate env role capacity).map fun s =>
        { s with cliFdList := clients }) stack ev ↔
      (Opens env capacity → Fits role capacity ev) := by
  cases hs : shmnImageCreate env role capacity with
  | none =>
      apply iff_of_true
      · cases ev with
        | write size => exact ⟨_, rfl, Or.inl ⟨by simp, rfl⟩⟩
        | disconnect =>
            intro mem cb hcb
            cases hcb
      · intro hopens
        exact absurd hopens (shmnImageCreate_eq_none.mp hs)
  | some s =>
      obtain ⟨hopens, hrole, hex, hsize⟩ := shmnImageCreate_eq_some hs
      simp only [Option.map_some, hopens, true_imp_iff]
      subst hrole
      cases ev with
      | write size =>
          cases hrole : s.role with
          | shmnRoleWriter =>
              rw [if_pos hrole] at hsize
              exact survives_write_writer rfl hsize hopens.2.2
          | shmnRoleReader =>
              rw [if_neg (by simp [hrole])] at hsize
              exact survives_write_reader rfl hex hsize
      | disconnect => exact survives_disconnect

/-- **A size of `-1`** on a channel for images of 100 bytes: as many bytes as a `size_t` can say are
copied. -/
theorem negative_size_copied :
    ¬ ∀ (env : CreateEnv) (role : ShmnRole) (capacity : BitVec 32) (clients : List Int)
      (stack : LenBuffer) (ev : ImageEvent),
      Survives capacity ((shmnImageCreate env role capacity).map fun s =>
        { s with cliFdList := clients }) stack ev := by
  intro hall
  have hkept := hall ⟨true, true, 3⟩ .shmnRoleWriter 100 [7] (List.Vector.replicate _ nul)
    (.write (-1))
  obtain ⟨r, hr, hkept⟩ := hkept
  have hcopies : r.err = .shmnNoErr ∧ r.copies = [24, BitVec.allOnes 64] := by
    cases hr
    decide
  obtain ⟨hne, -⟩ | ⟨-, hnonneg, -⟩ := hkept
  · exact hne hcopies.1
  · revert hnonneg
    decide

end LingmoAuthenticate.ShmComm
