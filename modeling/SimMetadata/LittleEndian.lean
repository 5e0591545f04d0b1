import SimMetadata.Text.Utf8

/-!
# Numbers in bytes

Binary headers hold numbers in a fixed count of bytes, the least significant first.

## Main statements

* `length_littleEndian`: the count of bytes does not depend on the number.
* `ofLittleEndian_littleEndian`: the bytes read back as the number, as far as they can hold it.
* `littleEndian_ofLittleEndian`: bytes are what their number is written as, so each number has one
  form of a given length.
-/

namespace SimMetadata

/-- A number in so many bytes, the least significant first. What does not fit is lost. -/
def littleEndian : Nat → Nat → Bytes
  | 0, _ => []
  | count + 1, n => UInt8.ofNat n :: littleEndian count (n / 256)

/-- The number that bytes hold, the least significant first. -/
def ofLittleEndian : Bytes → Nat
  | [] => 0
  | b :: bs => b.toNat + 256 * ofLittleEndian bs

@[simp] theorem length_littleEndian (count n : Nat) : (littleEndian count n).length = count := by
  induction count generalizing n with
  | zero => rfl
  | succ count ih => simp [littleEndian, ih]

theorem ofLittleEndian_littleEndian (count n : Nat) :
    ofLittleEndian (littleEndian count n) = n % Nat.pow 256 count := by
  induction count generalizing n with
  | zero => simp [littleEndian, ofLittleEndian, Nat.mod_one]
  | succ count ih =>
    have low : (UInt8.ofNat n).toNat = n % 256 := by simp
    rw [littleEndian, ofLittleEndian, ih, low, Nat.pow_eq, Nat.pow_eq, Nat.pow_succ', Nat.mod_mul]

theorem littleEndian_ofLittleEndian (bs : Bytes) :
    littleEndian bs.length (ofLittleEndian bs) = bs := by
  induction bs with
  | nil => rfl
  | cons b bs ih =>
    have low : UInt8.ofNat (b.toNat + 256 * ofLittleEndian bs) = b := by
      apply UInt8.toNat_inj.1
      have := b.toNat_lt
      simp only [UInt8.toNat_ofNat']
      omega
    have high : (b.toNat + 256 * ofLittleEndian bs) / 256 = ofLittleEndian bs := by
      have := b.toNat_lt
      omega
    rw [List.length_cons, ofLittleEndian, littleEndian, low, high, ih]

end SimMetadata
