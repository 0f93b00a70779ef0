import Mathlib.Algebra.Group.Nat.Basic
import Mathlib.Data.Nat.Defs
/-!
# `ABuffer`

`host/frontend/gcastv2/libandroid/ABuffer.cpp`: a byte buffer with a capacity and a range
`[mRangeOffset, mRangeOffset + mRangeLength)` that should lie inside it. The fields are
`size_t`, so they are 64-bit words here, and `offset + size` in `setRange` wraps around.

The storage of a buffer is the function from positions to the bytes of its current
allocation, of `mCapacity` bytes. A fresh allocation holds whatever bytes the allocator left
there; `memcpy` outside of either allocation is undefined behaviour, and the model refuses it.
-/

namespace Cuttlefish
namespace Libandroid

/-- The fields of an `ABuffer` that its methods read and write. -/
structure ABuffer where
  /-- `mData`: the bytes of the allocation, by position. -/
  data : Nat → UInt8
  /-- `mCapacity`. -/
  capacity : BitVec 64
  /-- `mRangeOffset`. -/
  rangeOffset : BitVec 64
  /-- `mRangeLength`. -/
  rangeLength : BitVec 64

/-- What the allocator does in `reserve`: `realloc` succeeds, or it returns `NULL` and
`malloc` succeeds, or both return `NULL`. `fresh` are the bytes of the new allocation before
anything is copied into it. -/
inductive Allocation
  | realloc (fresh : Nat → UInt8)
  | malloc (fresh : Nat → UInt8)
  | outOfMemory

/-- `memcpy(dst + dstOffset, src + srcOffset, length)` from an allocation of `srcSize` bytes
into one of `dstSize` bytes; `none` when it would touch a byte outside either. -/
def memcpy (dst : Nat → UInt8) (dstSize dstOffset : Nat) (src : Nat → UInt8)
    (srcSize srcOffset length : Nat) : Option (Nat → UInt8) :=
  if dstOffset + length ≤ dstSize ∧ srcOffset + length ≤ srcSize then
    some fun i => if dstOffset ≤ i ∧ i < dstOffset + length then src (srcOffset + (i - dstOffset))
      else dst i
  else none

namespace ABuffer

/-- `ABuffer::ABuffer(capacity)`: `malloc(capacity)` leaves the bytes `fresh`, and the range is
the whole buffer. -/
def new (capacity : BitVec 64) (fresh : Nat → UInt8) : ABuffer :=
  ⟨fresh, capacity, 0, capacity⟩

/-- `ABuffer::setRange(offset, size)`: its two `CHECK_LE`s in `size_t` arithmetic, the second
of a sum that wraps around; a failed `CHECK` aborts. -/
def setRange (b : ABuffer) (offset size : BitVec 64) : Option ABuffer :=
  if offset ≤ b.capacity ∧ offset + size ≤ b.capacity then
    some { b with rangeOffset := offset, rangeLength := size }
  else none

/-- `ABuffer::reserve(size)`. Past the early return, `mCapacity` is set first; `realloc` keeps
the bytes of the old allocation; its fallback copies `size()` bytes from `data()`, that is
from `mRangeOffset` on in the old allocation, to `mRangeOffset` in the new one. -/
def reserve (b : ABuffer) (size : BitVec 64) (allocation : Allocation) : Option ABuffer :=
  if size ≤ b.capacity then some b
  else
    match allocation with
    | .realloc fresh =>
        some { b with
          capacity := size
          data := fun i => if i < b.capacity.toNat then b.data i else fresh i }
    | .malloc fresh =>
        (memcpy fresh size.toNat b.rangeOffset.toNat b.data b.capacity.toNat b.rangeOffset.toNat
          b.rangeLength.toNat).map fun data => { b with capacity := size, data }
    | .outOfMemory => none

/-- A call on a buffer. -/
inductive Op
  | setRange (offset size : BitVec 64)
  | reserve (size : BitVec 64) (allocation : Allocation)

/-- The effect of one call; `none` when a `CHECK` fails or the call is undefined. -/
def apply (b : ABuffer) : Op → Option ABuffer
  | .setRange offset size => b.setRange offset size
  | .reserve size allocation => b.reserve size allocation

/-- A sequence of calls. -/
def run (b : ABuffer) : List Op → Option ABuffer
  | [] => some b
  | op :: ops => (b.apply op).bind fun b' => b'.run ops

/-- The range lies inside the allocation, computed without wrapping around. -/
def InRange (b : ABuffer) : Prop :=
  b.rangeOffset.toNat + b.rangeLength.toNat ≤ b.capacity.toNat

/-- What the two `CHECK`s of `setRange` compare, in `size_t` arithmetic. -/
def Checked (b : ABuffer) : Prop :=
  b.rangeOffset ≤ b.capacity ∧ b.rangeOffset + b.rangeLength ≤ b.capacity

/-! ## The range can leave the allocation -/

/-- `setRange(1, SIZE_MAX)` on a buffer of 16 bytes passes both `CHECK`s, since `1 + SIZE_MAX`
wraps around to `0`, and leaves a range that ends `2^64` bytes in; the fallback of a later
`reserve(32)` then copies from far outside the old allocation. -/
theorem setRange_wraps_around :
    ((new 16 fun _ => 0).setRange 1 (-1)).map
        (fun b => (b.rangeOffset.toNat + b.rangeLength.toNat, b.capacity.toNat)) =
      some (2 ^ 64, 16) ∧
      ((new 16 fun _ => 0).setRange 1 (-1)).bind (·.reserve 32 (.malloc fun _ => 0)) = none :=
  ⟨by decide, rfl⟩

/-! ## What the `CHECK`s do guarantee -/

theorem new_checked (capacity : BitVec 64) (fresh : Nat → UInt8) : (new capacity fresh).Checked :=
  ⟨BitVec.le_def.mpr (Nat.zero_le _), by simp [new, Checked]⟩

/-- `reserve` only ever grows the capacity, and leaves the range alone. -/
theorem reserve_eq_some {b b' : ABuffer} {size : BitVec 64} {allocation : Allocation}
    (reserved : b.reserve size allocation = some b') :
    b'.rangeOffset = b.rangeOffset ∧ b'.rangeLength = b.rangeLength ∧
      b'.capacity.toNat = max b.capacity.toNat size.toNat := by
  unfold reserve at reserved
  split at reserved
  · rename_i small
    cases reserved
    have := BitVec.le_def.mp small
    exact ⟨rfl, rfl, by omega⟩
  · rename_i large
    have grows : b.capacity.toNat ≤ size.toNat := by
      rw [BitVec.le_def] at large
      omega
    split at reserved
    · cases reserved
      exact ⟨rfl, rfl, by simp only; omega⟩
    · obtain ⟨_, -, rfl⟩ := Option.map_eq_some'.mp reserved
      exact ⟨rfl, rfl, by simp only; omega⟩
    · cases reserved

/-- Every call keeps what the `CHECK`s of `setRange` compare. -/
theorem apply_checked {b b' : ABuffer} {op : Op} (checked : b.Checked)
    (applied : b.apply op = some b') : b'.Checked := by
  cases op with
  | setRange offset size =>
      simp only [apply, setRange] at applied
      split at applied
      · cases applied
        exact ‹_›
      · cases applied
  | reserve size allocation =>
      obtain ⟨sameOffset, sameLength, capacity⟩ := reserve_eq_some applied
      obtain ⟨offsetLe, endLe⟩ := checked
      simp only [Checked, BitVec.le_def, sameOffset, sameLength, capacity] at offsetLe endLe ⊢
      omega

/-- Calls whose `CHECK`s pass keep what the `CHECK`s compare. -/
theorem run_checked_of {b b' : ABuffer} {ops : List Op} (checked : b.Checked)
    (ran : b.run ops = some b') : b'.Checked := by
  induction ops generalizing b with
  | nil => cases ran; exact checked
  | cons op ops ih =>
      obtain ⟨b₁, applied, rest⟩ := Option.bind_eq_some.mp ran
      exact ih (apply_checked checked applied) rest

/-- Every buffer reached from the constructor by calls whose `CHECK`s pass has its range inside
its capacity as `size_t` arithmetic computes it: wrapping around. -/
theorem run_checked {capacity : BitVec 64} {fresh : Nat → UInt8} {ops : List Op} {b : ABuffer}
    (ran : (new capacity fresh).run ops = some b) : b.Checked :=
  run_checked_of (new_checked capacity fresh) ran

/-- The buffer `setRange(1, SIZE_MAX)` leaves on a new buffer of 16 bytes. -/
def wrappedRange : ABuffer := ((new 16 fun _ => 0).setRange 1 (-1)).get (by decide)

theorem run_checked_wrapped :
    (new 16 fun _ => 0).run [.setRange 1 (-1)] = some wrappedRange ∧ wrappedRange.Checked :=
  have ran : (new 16 fun _ => 0).run [.setRange 1 (-1)] = some wrappedRange := rfl
  ⟨ran, run_checked ran⟩

/-- A call of `setRange` whose `offset + size` does not wrap around. -/
def Op.NoWrap : Op → Prop
  | .setRange offset size => offset.toNat + size.toNat < 2 ^ 64
  | .reserve _ _ => True

instance : DecidablePred Op.NoWrap
  | .setRange _ _ => Nat.decLt _ _
  | .reserve _ _ => instDecidableTrue

/-- Without a wrapping `setRange`, every call keeps the range inside the allocation. -/
theorem apply_inRange {b b' : ABuffer} {op : Op} (inRange : b.InRange) (noWrap : op.NoWrap)
    (applied : b.apply op = some b') : b'.InRange := by
  cases op with
  | setRange offset size =>
      simp only [apply, setRange] at applied
      split at applied
      · rename_i checks
        cases applied
        obtain ⟨-, endLe⟩ := checks
        simp only [Op.NoWrap] at noWrap
        rw [BitVec.le_def, BitVec.toNat_add, Nat.mod_eq_of_lt noWrap] at endLe
        exact endLe
      · cases applied
  | reserve size allocation =>
      obtain ⟨sameOffset, sameLength, capacity⟩ := reserve_eq_some applied
      simp only [InRange, sameOffset, sameLength, capacity] at inRange ⊢
      omega

/-- Calls without a wrapping `setRange` keep the range inside the allocation. -/
theorem run_inRange_of {b b' : ABuffer} {ops : List Op} (inRange : b.InRange)
    (noWrap : ∀ op ∈ ops, op.NoWrap) (ran : b.run ops = some b') : b'.InRange := by
  induction ops generalizing b with
  | nil => cases ran; exact inRange
  | cons op ops ih =>
      obtain ⟨b₁, applied, rest⟩ := Option.bind_eq_some.mp ran
      exact ih (apply_inRange inRange (noWrap op (.head _)) applied)
        (fun op' mem => noWrap op' (.tail _ mem)) rest

/-- Every buffer reached from the constructor by calls whose `CHECK`s pass, and none of whose
`setRange` calls has an `offset + size` that wraps around, has its range inside its
allocation. -/
theorem run_inRange {capacity : BitVec 64} {fresh : Nat → UInt8} {ops : List Op} {b : ABuffer}
    (noWrap : ∀ op ∈ ops, op.NoWrap) (ran : (new capacity fresh).run ops = some b) :
    b.InRange :=
  run_inRange_of (by simp [InRange, new]) noWrap ran

/-- A buffer of 16 bytes whose range is set to `[4, 12)`, then grown to 32 bytes by the
fallback of `reserve`. -/
def grownRange : ABuffer :=
  ((new 16 fun _ => 0).run [.setRange 4 8, .reserve 32 (.malloc fun _ => 0)]).get (by decide)

theorem run_inRange_grown :
    (∀ op ∈ [Op.setRange 4 8, .reserve 32 (.malloc fun _ => 0)], op.NoWrap) ∧
      (new 16 fun _ => 0).run [.setRange 4 8, .reserve 32 (.malloc fun _ => 0)] =
        some grownRange ∧
      grownRange.InRange :=
  have noWrap : ∀ op ∈ [Op.setRange 4 8, .reserve 32 (.malloc fun _ => 0)], op.NoWrap := by
    decide
  have ran : (new 16 fun _ => 0).run [.setRange 4 8, .reserve 32 (.malloc fun _ => 0)] =
      some grownRange := (Option.some_get _).symm
  ⟨noWrap, ran, run_inRange noWrap ran⟩

/-! ## `reserve`'s two paths agree -/

/-- On a buffer whose range lies inside the allocation, `reserve(size)` keeps the range, sets
the capacity to the larger of the old one and `size`, and keeps the bytes of the range,
whether `realloc` succeeds or its fallback runs: the fallback's `memcpy` reads only inside the
old allocation and writes only inside the new one. -/
theorem reserve_keeps_range {b : ABuffer} (inRange : b.InRange) (size : BitVec 64)
    {allocation : Allocation} (allocated : allocation ≠ .outOfMemory) :
    ∃ b', b.reserve size allocation = some b' ∧ b'.rangeOffset = b.rangeOffset ∧
      b'.rangeLength = b.rangeLength ∧ b'.capacity.toNat = max b.capacity.toNat size.toNat ∧
      ∀ i, b.rangeOffset.toNat ≤ i → i < b.rangeOffset.toNat + b.rangeLength.toNat →
        b'.data i = b.data i := by
  unfold InRange at inRange
  by_cases small : size ≤ b.capacity
  · have := BitVec.le_def.mp small
    exact ⟨b, by simp [reserve, small], rfl, rfl, by omega, fun _ _ _ => rfl⟩
  · have grows : b.capacity.toNat < size.toNat := by
      rw [BitVec.le_def] at small
      omega
    cases allocation with
    | realloc fresh =>
        refine ⟨{ b with
            capacity := size
            data := fun i => if i < b.capacity.toNat then b.data i else fresh i },
          by simp [reserve, small], rfl, rfl, by simp only; omega, fun i _ below => ?_⟩
        simp only [show i < b.capacity.toNat by omega, if_true]
    | malloc fresh =>
        have copied : b.rangeOffset.toNat + b.rangeLength.toNat ≤ size.toNat ∧
            b.rangeOffset.toNat + b.rangeLength.toNat ≤ b.capacity.toNat := ⟨by omega, inRange⟩
        refine ⟨{ b with
            capacity := size
            data := fun i => if b.rangeOffset.toNat ≤ i ∧
                i < b.rangeOffset.toNat + b.rangeLength.toNat then
              b.data (b.rangeOffset.toNat + (i - b.rangeOffset.toNat)) else fresh i },
          by simp [reserve, small, memcpy, copied], rfl, rfl, by simp only; omega,
          fun i above below => ?_⟩
        simp only [show b.rangeOffset.toNat ≤ i ∧ i < b.rangeOffset.toNat + b.rangeLength.toNat
          from ⟨above, below⟩, and_self, if_true]
        congr 1
        omega
    | outOfMemory => exact absurd rfl allocated

theorem reserve_keeps_range_of_new :
    (new 16 fun _ => 7).InRange ∧
      ∃ b', (new 16 fun _ => 7).reserve 32 (.malloc fun _ => 0) = some b' ∧
        b'.rangeOffset = (new 16 fun _ => 7).rangeOffset ∧
        b'.rangeLength = (new 16 fun _ => 7).rangeLength ∧
        b'.capacity.toNat = max (new 16 fun _ => 7).capacity.toNat (32 : BitVec 64).toNat ∧
        ∀ i, (new 16 fun _ => 7).rangeOffset.toNat ≤ i →
          i < (new 16 fun _ => 7).rangeOffset.toNat + (new 16 fun _ => 7).rangeLength.toNat →
            b'.data i = (new 16 fun _ => 7).data i :=
  have inRange : (new 16 fun _ => 7).InRange := by unfold InRange; decide
  ⟨inRange, reserve_keeps_range inRange 32 nofun⟩

end ABuffer

end Libandroid
end Cuttlefish
