/-
This file says that packing loses nothing. A double is its sign, its exponent and its mantissa side
by side, so it is what is packed again from what it is unpacked to.
-/

import Stagecraft.Proofs.Scalar.Rounding

namespace Stagecraft

open Float.Model Float.Model.UnpackedFloat

namespace Rounding

/-! ### Parts -/

theorem toNat_unpackMantissa (bits : BitVec 64) :
    (@unpackMantissa Format.binary64 bits).toNat = bits.toNat % 2 ^ 52 := by
  simp [unpackMantissa]

theorem toNat_unpackExponent (bits : BitVec 64) :
    (@unpackExponent Format.binary64 bits).toNat = bits.toNat / 2 ^ 52 % 2 ^ 11 := by
  simp [unpackExponent, Nat.shiftRight_eq_div_pow]

theorem toNat_unpackSign (bits : BitVec 64) :
    (@unpackSign Format.binary64 bits).toNat = bits.toNat / 2 ^ 63 := by
  have bound : bits.toNat < 2 ^ 64 := bits.isLt
  simp [unpackSign, Nat.shiftRight_eq_div_pow]
  omega

theorem toNat_append {high low : Nat} (first : BitVec high) (second : BitVec low) :
    (first ++ second).toNat = first.toNat * 2 ^ low + second.toNat := by
  rw [BitVec.toNat_append, ← Nat.shiftLeft_add_eq_or_of_lt second.isLt, Nat.shiftLeft_eq]

theorem toNat_packComponents (sign : Sign) (exponent : BitVec 11) (mantissa : BitVec 52) :
    (packComponents Format.binary64 sign exponent mantissa).toNat =
      sign.toBitVec.toNat * 2 ^ 63 + exponent.toNat * 2 ^ 52 + mantissa.toNat := by
  rw [packComponents, toNat_append, toNat_append]
  ring

@[simp] theorem unpackSign_packComponents (sign : Sign) (exponent : BitVec 11)
    (mantissa : BitVec 52) :
    unpackSign (packComponents Format.binary64 sign exponent mantissa) = sign.toBitVec := by
  have exponentBound := exponent.isLt
  have mantissaBound := mantissa.isLt
  apply BitVec.eq_of_toNat_eq
  rw [toNat_unpackSign, toNat_packComponents]
  omega

@[simp] theorem ofBitVec_toBitVec (sign : Sign) : Sign.ofBitVec sign.toBitVec = sign := by
  cases sign <;> rfl

@[simp] theorem toBitVec_ofBitVec (bit : BitVec 1) : (Sign.ofBitVec bit).toBitVec = bit := by
  revert bit
  decide

/-- The parts of a double make it up. -/
theorem packComponents_unpack (bits : BitVec 64) :
    packComponents Format.binary64 (Sign.ofBitVec (@unpackSign Format.binary64 bits))
      (@unpackExponent Format.binary64 bits) (@unpackMantissa Format.binary64 bits) = bits := by
  have bound : bits.toNat < 2 ^ 64 := bits.isLt
  apply BitVec.eq_of_toNat_eq
  rw [toNat_packComponents, toBitVec_ofBitVec, toNat_unpackSign, toNat_unpackExponent,
    toNat_unpackMantissa]
  omega

/-! ### Packing and unpacking -/

/-- What a double is, by its sign, its exponent and its mantissa. -/
def assemble (sign : Sign) (exponent mantissa : Nat) : UnpackedFloat :=
  if exponent = 2047 then
    if mantissa = 0 then .infinity sign else .notANumber
  else if exponent = 0 then
    if positive : 0 < mantissa then .finite sign mantissa (-1074) positive else .zero sign
  else .finite sign (2 ^ 52 + mantissa) (exponent - 1075) (Nat.add_pos_left (by norm_num) _)

theorem unpack_packComponents (sign : Sign) (exponent : BitVec 11) (mantissa : BitVec 52) :
    UnpackedFloat.unpack Format.binary64
        (packComponents Format.binary64 sign exponent mantissa) =
      assemble sign exponent.toNat mantissa.toNat := by
  have isLast : exponent = -1#11 ↔ exponent.toNat = 2047 := by
    rw [← BitVec.toNat_inj]
    rfl
  have isFirst : exponent = 0#11 ↔ exponent.toNat = 0 := by
    rw [← BitVec.toNat_inj]
    rfl
  have isZero : mantissa = 0#52 ↔ mantissa.toNat = 0 := by
    rw [← BitVec.toNat_inj]
    rfl
  have full : (1#1 ++ mantissa).toNat = 2 ^ 52 + mantissa.toNat := by
    rw [toNat_append]
    rfl
  have bias : (Format.binary64.exponentBias : Int) + (52 : Nat) = 1075 := rfl
  rw [UnpackedFloat.unpack, assemble]
  simp only [unpackExponent_packComponents, unpackMantissa_packComponents,
    unpackSign_packComponents, ofBitVec_toBitVec, isLast, isFirst, isZero, full, bias]
  split_ifs <;> first | rfl | omega | simp_all

variable {mantissa : Nat} {exponent : Int}

/-- Where a double stands in the order of exponents. -/
theorem biased_eq (canonical : IsCanonical mantissa exponent) :
    (exponent + (Format.binary64.exponentBias : Int) +
        (Format.binary64.mantissaBitsWithoutImplicit : Int)).toNat = (exponent + 1075).toNat ∧
      ¬2 ^ Format.binary64.exponentBits ≤ (exponent + 1075).toNat + 1 := by
  have greatest := canonical.greatest
  have bias : (Format.binary64.exponentBias : Int) = 1023 := rfl
  have fraction : (Format.binary64.mantissaBitsWithoutImplicit : Int) = 52 := rfl
  have bits : 2 ^ Format.binary64.exponentBits = 2048 := rfl
  rw [bias, fraction, bits]
  omega

theorem log2_eq_iff (canonical : IsCanonical mantissa exponent) :
    mantissa.log2 + 1 = Format.binary64.mantissaBits ↔ 2 ^ 52 ≤ mantissa := by
  have bits : Format.binary64.mantissaBits = 53 := rfl
  have upper := (Nat.log2_lt canonical.pos.ne').mpr canonical.lt
  have lower := Nat.le_log2 (k := 52) canonical.pos.ne'
  rw [bits]
  omega

/-- The bits of a double with a full mantissa. -/
theorem pack_finite_of_le (canonical : IsCanonical mantissa exponent) (full : 2 ^ 52 ≤ mantissa)
    (sign : Sign) :
    UnpackedFloat.pack Format.binary64 (.finite sign mantissa exponent canonical.pos) =
      packComponents Format.binary64 sign (BitVec.ofNat 11 (exponent + 1075).toNat)
        (BitVec.ofNat 52 mantissa) := by
  obtain ⟨biased, fits⟩ := biased_eq canonical
  rw [UnpackedFloat.pack]
  dsimp only
  rw [biased, if_neg fits, if_pos ((log2_eq_iff canonical).mpr full)]

/-- The bits of a double with a smaller mantissa, which has the least exponent. -/
theorem pack_finite_of_lt (canonical : IsCanonical mantissa exponent) (small : mantissa < 2 ^ 52)
    (sign : Sign) :
    UnpackedFloat.pack Format.binary64 (.finite sign mantissa exponent canonical.pos) =
      packComponents Format.binary64 sign 0#11 (BitVec.ofNat 52 mantissa) := by
  obtain ⟨biased, fits⟩ := biased_eq canonical
  rw [UnpackedFloat.pack]
  dsimp only
  rw [biased, if_neg fits, if_neg (fun full => absurd ((log2_eq_iff canonical).mp full) (by omega))]


theorem isCanonical_of_lt (pos : 0 < mantissa) (small : mantissa < 2 ^ 52) :
    IsCanonical mantissa (-1074) :=
  ⟨⟨pos, by omega, le_rfl, .inr rfl⟩, by norm_num⟩

theorem isCanonical_full {biased fraction : Nat} (notFirst : biased ≠ 0) (notLast : biased < 2047)
    (small : fraction < 2 ^ 52) : IsCanonical (2 ^ 52 + fraction) (biased - 1075) :=
  ⟨⟨by omega, by omega, by omega, .inl (by omega)⟩, by omega⟩

theorem unpack_pack (canonical : IsCanonical mantissa exponent) (sign : Sign) :
    UnpackedFloat.unpack Format.binary64
        (UnpackedFloat.pack Format.binary64 (.finite sign mantissa exponent canonical.pos)) =
      .finite sign mantissa exponent canonical.pos := by
  have upper := canonical.lt
  have least := canonical.least
  have greatest := canonical.greatest
  by_cases full : 2 ^ 52 ≤ mantissa
  · have biased : (BitVec.ofNat 11 (exponent + 1075).toNat).toNat = (exponent + 1075).toNat := by
      rw [BitVec.toNat_ofNat, Nat.mod_eq_of_lt (by omega)]
    have fraction : (BitVec.ofNat 52 mantissa).toNat = mantissa - 2 ^ 52 := by
      rw [BitVec.toNat_ofNat]
      omega
    rw [pack_finite_of_le canonical full, unpack_packComponents, biased, fraction, assemble,
      if_neg (by omega), if_neg (by omega), UnpackedFloat.finite.injEq]
    exact ⟨rfl, by omega, by omega⟩
  · have fraction : (BitVec.ofNat 52 mantissa).toNat = mantissa := by
      rw [BitVec.toNat_ofNat, Nat.mod_eq_of_lt (by omega)]
    have lowest := canonical.full.resolve_left full
    rw [pack_finite_of_lt canonical (by omega), unpack_packComponents, fraction, assemble,
      if_neg (by norm_num), if_pos (by rfl), dif_pos canonical.pos, UnpackedFloat.finite.injEq]
    exact ⟨rfl, rfl, lowest.symm⟩

/-- A double is what is packed from its parts. -/
theorem pack_assemble (sign : Sign) (exponent : BitVec 11) (mantissa : BitVec 52)
    (valid : Format.binary64.Valid (packComponents Format.binary64 sign exponent mantissa)) :
    UnpackedFloat.pack Format.binary64 (assemble sign exponent.toNat mantissa.toNat) =
      packComponents Format.binary64 sign exponent mantissa := by
  have exponentBound := exponent.isLt
  have mantissaBound := mantissa.isLt
  have back : BitVec.ofNat 52 mantissa.toNat = mantissa := by simp
  rw [assemble]
  split_ifs with last zero first positive
  · have allOnes : exponent = -1#11 := BitVec.eq_of_toNat_eq last
    have nothing : mantissa = 0#52 := BitVec.eq_of_toNat_eq zero
    rw [allOnes, nothing]
    rfl
  · have allOnes : exponent = -1#11 := BitVec.eq_of_toNat_eq last
    refine (valid.eq_packedNaN ?_ ?_).symm
    · rw [unpackExponent_packComponents, allOnes]
    · rw [unpackMantissa_packComponents]
      exact fun nothing => zero (congrArg BitVec.toNat nothing)
  · have nothing : exponent = 0#11 := BitVec.eq_of_toNat_eq first
    rw [pack_finite_of_lt (isCanonical_of_lt positive mantissaBound) mantissaBound, back, nothing]
  · have noExponent : exponent = 0#11 := BitVec.eq_of_toNat_eq first
    have nothing : mantissa = 0#52 := BitVec.eq_of_toNat_eq (by simpa using positive)
    rw [noExponent, nothing]
    rfl
  · have fraction : BitVec.ofNat 52 (2 ^ 52 + mantissa.toNat) = mantissa := by
      apply BitVec.eq_of_toNat_eq
      rw [BitVec.toNat_ofNat]
      omega
    have biased : BitVec.ofNat 11 ((exponent.toNat : Int) - 1075 + 1075).toNat = exponent := by
      simp
    rw [pack_finite_of_le (isCanonical_full first (by omega) mantissaBound) (by omega), fraction,
      biased]

/-- Packing what was unpacked gives the same double. -/
theorem model_pack_unpack (model : Float.Model) : Float.Model.pack model.unpack = model := by
  obtain ⟨bits, valid⟩ := model
  have parts := packComponents_unpack bits.toBitVec
  have again : UnpackedFloat.pack Format.binary64
      (UnpackedFloat.unpack Format.binary64 bits.toBitVec) = bits.toBitVec := by
    rw [← parts] at valid ⊢
    rw [unpack_packComponents, pack_assemble _ _ _ valid]
  rw [Float.Model.unpack, Float.Model.pack, Float.Model.mk.injEq]
  exact congrArg UInt64.ofBitVec again

end Rounding

end Stagecraft
