import Mathlib.Tactic

/-!
# Little-endian words

Words of two and of four bytes, the low byte first, in both directions.
-/

namespace TibiaGame.Library.LittleEndian

def wordBytes (word : UInt16) : List UInt8 := [word.toUInt8, (word >>> 8).toUInt8]

def bytesWord (low high : UInt8) : UInt16 := UInt16.ofNat (low.toNat + 256 * high.toNat)

def quadBytes (quad : UInt32) : List UInt8 :=
  [quad.toUInt8, (quad >>> 8).toUInt8, (quad >>> 16).toUInt8, (quad >>> 24).toUInt8]

def bytesQuad (b0 b1 b2 b3 : UInt8) : UInt32 :=
  UInt32.ofNat (b0.toNat + 256 * b1.toNat + 65536 * b2.toNat + 16777216 * b3.toNat)

@[simp] theorem word_bytes_length (word : UInt16) : (wordBytes word).length = 2 := rfl

@[simp] theorem quad_bytes_length (quad : UInt32) : (quadBytes quad).length = 4 := rfl

theorem bytes_word_nat (low high : UInt8) :
    (bytesWord low high).toNat = low.toNat + 256 * high.toNat := by
  have lowBound := low.toNat_lt
  have highBound := high.toNat_lt
  simp only [bytesWord, UInt16.toNat_ofNat']
  omega

theorem bytes_quad_nat (b0 b1 b2 b3 : UInt8) :
    (bytesQuad b0 b1 b2 b3).toNat =
      b0.toNat + 256 * b1.toNat + 65536 * b2.toNat + 16777216 * b3.toNat := by
  have bound0 := b0.toNat_lt
  have bound1 := b1.toNat_lt
  have bound2 := b2.toNat_lt
  have bound3 := b3.toNat_lt
  simp only [bytesQuad, UInt32.toNat_ofNat']
  omega

theorem word_byte_nat (word : UInt16) : (word >>> 8).toUInt8.toNat = word.toNat / 256 % 256 := by
  rw [UInt16.toNat_toUInt8, UInt16.toNat_shiftRight, Nat.shiftRight_eq_div_pow]
  rfl

theorem quad_byte_nat (quad shift : UInt32) (below : shift.toNat < 32) :
    (quad >>> shift).toUInt8.toNat = quad.toNat / 2 ^ shift.toNat % 256 := by
  rw [UInt32.toNat_toUInt8, UInt32.toNat_shiftRight, Nat.shiftRight_eq_div_pow,
    Nat.mod_eq_of_lt below]

@[simp] theorem bytes_word_bytes (word : UInt16) :
    bytesWord word.toUInt8 (word >>> 8).toUInt8 = word := by
  have bound := word.toNat_lt
  apply UInt16.toNat_inj.mp
  rw [bytes_word_nat, word_byte_nat, UInt16.toNat_toUInt8]
  omega

/-- The bytes of a double word, as numbers. -/
theorem quad_byte_values (quad : UInt32) :
    quad.toUInt8.toNat = quad.toNat % 256 ∧ (quad >>> 8).toUInt8.toNat = quad.toNat / 256 % 256 ∧
      (quad >>> 16).toUInt8.toNat = quad.toNat / 65536 % 256 ∧
      (quad >>> 24).toUInt8.toNat = quad.toNat / 16777216 % 256 := by
  constructor
  · exact UInt32.toNat_toUInt8 quad
  · exact ⟨quad_byte_nat quad 8 (by decide), quad_byte_nat quad 16 (by decide),
      quad_byte_nat quad 24 (by decide)⟩

@[simp] theorem bytes_quad_bytes (quad : UInt32) :
    bytesQuad quad.toUInt8 (quad >>> 8).toUInt8 (quad >>> 16).toUInt8 (quad >>> 24).toUInt8 =
      quad := by
  have bound := quad.toNat_lt
  have values := quad_byte_values quad
  apply UInt32.toNat_inj.mp
  rw [bytes_quad_nat]
  omega

theorem quad_bytes_of (b0 b1 b2 b3 : UInt8) : quadBytes (bytesQuad b0 b1 b2 b3) = [b0, b1, b2, b3] := by
  have bound0 := b0.toNat_lt
  have bound1 := b1.toNat_lt
  have bound2 := b2.toNat_lt
  have bound3 := b3.toNat_lt
  have value := bytes_quad_nat b0 b1 b2 b3
  have values := quad_byte_values (bytesQuad b0 b1 b2 b3)
  simp only [quadBytes, List.cons.injEq, and_true, ← UInt8.toNat_inj]
  omega

end TibiaGame.Library.LittleEndian
