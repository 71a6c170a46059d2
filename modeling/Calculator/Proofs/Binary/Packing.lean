import Calculator.Proofs.Binary.Rounding

/-! Numbers as they are stored. A canonical magnitude within the range is stored with its sign
and read back unchanged; one beyond the range is stored as an infinity.
-/

namespace Calculator.Binary

open Float.Model Float.Model.UnpackedFloat

/-- Reading stored parts. All bits of the exponent are set for what is no number, and none is
set for a significand that is not full.
-/
theorem unpack_of_parts {bits : BitVec 64} {sign : Sign} {e : BitVec 11} {m : BitVec 52}
    (sign_eq : Sign.ofBitVec (@unpackSign .binary64 bits) = sign)
    (e_eq : @unpackExponent .binary64 bits = e) (m_eq : @unpackMantissa .binary64 bits = m)
    : UnpackedFloat.unpack .binary64 bits
      = if e = -1#11 then
          if m = 0#52 then .infinity sign else .notANumber
        else if e = 0#11 then
          unpacked sign m.toNat (-1074)
        else
          unpacked sign (2 ^ 52 + m.toNat) ((e.toNat : Int) - 1075) := by
  have implicit : (1#1 ++ m).toNat = 2 ^ 52 + m.toNat := by
    rw [BitVec.toNat_append, ← Nat.shiftLeft_add_eq_or_of_lt m.isLt]
    rfl
  unfold UnpackedFloat.unpack
  simp only [sign_eq, e_eq, m_eq]
  by_cases special : e = -1#11
  · simp [special]
  · by_cases subnormal : e = 0#11
    · subst subnormal
      by_cases zero : m = 0#52
      · subst zero
        rfl
      · have nonzero : m.toNat ≠ 0 := fun same => zero (BitVec.eq_of_toNat_eq same)
        simp [unpacked, zero, nonzero, Format.exponentBias]
    · simp [unpacked, subnormal, implicit, Format.exponentBias]

/-- Unpacking by the two fields: special numbers, subnormal numbers, and normal ones, whose first
bit is not stored.
-/
theorem unpack_packComponents (sign : Sign) (e : BitVec 11) (m : BitVec 52)
    : UnpackedFloat.unpack .binary64 (packComponents .binary64 sign e m)
      = if e = -1#11 then
          if m = 0#52 then .infinity sign else .notANumber
        else if e = 0#11 then
          unpacked sign m.toNat (-1074)
        else
          unpacked sign (2 ^ 52 + m.toNat) ((e.toNat : Int) - 1075) :=
  unpack_of_parts (by rw [unpackSign_packComponents, Sign.ofBitVec_toBitVec])
    unpackExponent_packComponents unpackMantissa_packComponents

/-- What is stored for a magnitude: an infinity, the parts of a full significand, or the parts
of one that is not full.
-/
theorem pack_unpacked (sign : Sign) {m : Nat} {e : Int} (canonical : Canonical m e)
    : pack .binary64 (unpacked sign m e)
      = if 971 < e then
          packComponents .binary64 sign (-1#11) 0
        else if 2 ^ 52 ≤ m then
          packComponents .binary64 sign (BitVec.ofNat 11 (e + 1075).toNat) (BitVec.ofNat 52 m)
        else
          packComponents .binary64 sign 0#11 (BitVec.ofNat 52 m) := by
  have least := canonical.least
  by_cases zero : m = 0
  · subst zero
    have smallest : e = -1074 := canonical.normal.resolve_right (by norm_num)
    subst smallest
    simp [unpacked, UnpackedFloat.pack, packedZero]
  · have digits : m.log2 < 53 := (Nat.log2_lt zero).mpr canonical.small
    have full : m.log2 = 52 ↔ 2 ^ 52 ≤ m := by
      rw [← Nat.le_log2 zero]
      omega
    have biased : e + ((2 ^ (11 - 1) - 1 : Nat) : Int) + ((52 : Nat) : Int) = e + 1075 := by
      norm_num
      ring
    have overflow : 2 ^ 11 ≤ (e + 1075).toNat + 1 ↔ 971 < e := by omega
    have length : m.log2 + 1 = 1 + 52 ↔ 2 ^ 52 ≤ m := by
      rw [← full]
      omega
    simp only [unpacked, zero, dite_false, UnpackedFloat.pack, Format.exponentBias,
      Format.mantissaBits, packedInfinity, biased, overflow, length]

/-- A canonical magnitude is read back as it was stored, unless it is beyond the range. -/
theorem unpack_pack (sign : Sign) {m : Nat} {e : Int} (canonical : Canonical m e)
    : (Float.Model.pack (unpacked sign m e)).unpack
      = if 971 < e then .infinity sign else unpacked sign m e := by
  have small := canonical.small
  have least := canonical.least
  have stored
      : (Float.Model.pack (unpacked sign m e)).unpack
        = UnpackedFloat.unpack .binary64 (UnpackedFloat.pack .binary64 (unpacked sign m e)) := rfl
  rw [stored, pack_unpacked sign canonical]
  by_cases overflow : 971 < e
  · rw [if_pos overflow, if_pos overflow, unpack_packComponents, if_pos rfl]
    exact if_pos rfl
  · rw [if_neg overflow, if_neg overflow]
    have exponent : (BitVec.ofNat 11 (e + 1075).toNat).toNat = (e + 1075).toNat := by
      rw [BitVec.toNat_ofNat, Nat.mod_eq_of_lt (by omega)]
    by_cases full : 2 ^ 52 ≤ m
    · have significand : (BitVec.ofNat 52 m).toNat = m - 2 ^ 52 := by
        rw [BitVec.toNat_ofNat, Nat.mod_eq_sub_mod full, Nat.mod_eq_of_lt (by omega)]
      have number : BitVec.ofNat 11 (e + 1075).toNat ≠ -1#11 := by
        intro same
        have := congrArg BitVec.toNat same
        rw [exponent] at this
        simp at this
        omega
      have normal : BitVec.ofNat 11 (e + 1075).toNat ≠ 0#11 := by
        intro same
        have := congrArg BitVec.toNat same
        rw [exponent] at this
        simp at this
        omega
      have unbiased : (((e + 1075).toNat : Nat) : Int) - 1075 = e := by omega
      rw [if_pos full, unpack_packComponents, if_neg number, if_neg normal, significand, exponent,
        Nat.add_sub_cancel' full, unbiased]
    · have smallest : e = -1074 := canonical.normal.resolve_right full
      have significand : (BitVec.ofNat 52 m).toNat = m := by
        rw [BitVec.toNat_ofNat, Nat.mod_eq_of_lt (by omega)]
      rw [if_neg full, unpack_packComponents, if_neg (by decide), if_pos rfl, significand, smallest]

/-- What is read from a stored number is canonical and within the range, or no number. -/
theorem exists_unpacked (x : Float.Model)
    : (∃ sign m e, Canonical m e ∧ e ≤ 971 ∧ x.unpack = unpacked sign m e)
      ∨ (∃ sign, x.unpack = .infinity sign) ∨ x.unpack = .notANumber := by
  let bits := x.toBits.toBitVec
  let sign := Sign.ofBitVec (@unpackSign .binary64 bits)
  let e := @unpackExponent .binary64 bits
  let m := @unpackMantissa .binary64 bits
  have e_lt : e.toNat < 2 ^ 11 := e.isLt
  have m_lt : m.toNat < 2 ^ 52 := m.isLt
  have parts := @unpack_of_parts bits sign e m rfl rfl rfl
  change x.unpack = _ at parts
  by_cases special : e = -1#11
  · rw [if_pos special] at parts
    by_cases infinite : m = 0#52
    · exact .inr (.inl ⟨sign, parts.trans (if_pos infinite)⟩)
    · exact .inr (.inr (parts.trans (if_neg infinite)))
  · rw [if_neg special] at parts
    have number : e.toNat ≠ 2 ^ 11 - 1 := fun same => special (BitVec.eq_of_toNat_eq same)
    left
    by_cases subnormal : e = 0#11
    · refine ⟨sign, m.toNat, -1074, ⟨by omega, by omega, .inl rfl⟩, by omega, ?_⟩
      exact parts.trans (if_pos subnormal)
    · have normal : e.toNat ≠ 0 := fun same => subnormal (BitVec.eq_of_toNat_eq same)
      refine ⟨sign, 2 ^ 52 + m.toNat, (e.toNat : Int) - 1075,
        ⟨by omega, by omega, .inr (by omega)⟩, by omega, ?_⟩
      exact parts.trans (if_neg subnormal)

--------------------------------------------------------------------------------
-- The same bits
--------------------------------------------------------------------------------

/-- The parts that are read from bits make up these bits. -/
theorem packComponents_unpack (bits : BitVec 64)
    : packComponents .binary64 (Sign.ofBitVec (@unpackSign .binary64 bits))
        (@unpackExponent .binary64 bits) (@unpackMantissa .binary64 bits)
      = bits := by
  have sign (s : BitVec 1) : (Sign.ofBitVec s).toBitVec = s := by
    revert s
    decide
  rw [packComponents, sign]
  change bits.extractLsb' 63 1 ++ bits.extractLsb' 52 11 ++ bits.extractLsb' 0 52 = bits
  rw [BitVec.extractLsb'_append_extractLsb'_eq_extractLsb' (by rfl)]
  exact BitVec.extractLsb'_append_extractLsb'

/-- An unpacked number determines the canonical parts it is made of. -/
theorem unpacked_inj {s t : Sign} {m n : Nat} {e f : Int} (a : Canonical m e) (b : Canonical n f)
    (same : unpacked s m e = unpacked t n f)
    : s = t ∧ m = n ∧ e = f := by
  unfold unpacked at same
  split at same <;> split at same
  · rename_i left right
    have a_least := a.normal
    have b_least := b.normal
    cases same
    exact ⟨rfl, by omega, by omega⟩
  · cases same
  · cases same
  · cases same
    exact ⟨rfl, rfl, rfl⟩

theorem unpacked_ne_infinity (sign t : Sign) (m : Nat) (e : Int)
    : unpacked sign m e ≠ .infinity t := by
  unfold unpacked
  split <;> exact fun same => UnpackedFloat.noConfusion same

theorem unpacked_ne_nan (sign : Sign) (m : Nat) (e : Int)
    : unpacked sign m e ≠ .notANumber := by
  unfold unpacked
  split <;> exact fun same => UnpackedFloat.noConfusion same

/-- What is read from a number is stored as the same bits. -/
theorem pack_of_unpack {x : Float.Model} {sign : Sign} {m : Nat} {e : Int}
    (canonical : Canonical m e) (parts : x.unpack = unpacked sign m e)
    : Float.Model.pack (unpacked sign m e) = x := by
  suffices bits : UnpackedFloat.pack .binary64 (unpacked sign m e) = x.toBits.toBitVec by
    cases x
    simp only [Float.Model.pack, bits]
  have bits := packComponents_unpack x.toBits.toBitVec
  have read := @unpack_of_parts x.toBits.toBitVec _ _ _ rfl rfl rfl
  change x.unpack = _ at read
  set E := @unpackExponent .binary64 x.toBits.toBitVec with exponent
  set M := @unpackMantissa .binary64 x.toBits.toBitVec
  have E_lt : E.toNat < 2 ^ 11 := E.isLt
  have M_lt : M.toNat < 2 ^ 52 := M.isLt
  rw [parts] at read
  split at read
  · split at read
    · exact absurd read (unpacked_ne_infinity _ _ _ _)
    · exact absurd read (unpacked_ne_nan _ _ _)
  · rename_i number
    split at read
    · rename_i subnormal
      obtain ⟨rfl, rfl, rfl⟩ := unpacked_inj canonical ⟨by omega, le_rfl, .inl rfl⟩ read
      refine Eq.trans ?_ bits
      rw [pack_unpacked _ canonical, if_neg (by omega), if_neg (by omega), subnormal,
        BitVec.ofNat_toNat, BitVec.setWidth_eq]
    · rename_i normal
      have number : E.toNat ≠ 2 ^ 11 - 1 := fun same => number (BitVec.eq_of_toNat_eq same)
      have normal : E.toNat ≠ 0 := fun same => normal (BitVec.eq_of_toNat_eq same)
      obtain ⟨rfl, rfl, rfl⟩ :=
        unpacked_inj canonical ⟨by omega, by omega, .inr (by omega)⟩ read
      have significand : BitVec.ofNat 52 (2 ^ 52 + M.toNat) = M :=
        BitVec.eq_of_toNat_eq (by rw [BitVec.toNat_ofNat]; omega)
      have biased : BitVec.ofNat 11 ((E.toNat : Int) - 1075 + 1075).toNat = E :=
        BitVec.eq_of_toNat_eq (by rw [BitVec.toNat_ofNat]; omega)
      refine Eq.trans ?_ bits
      rw [pack_unpacked _ canonical, if_neg (by omega), if_pos (by omega), significand, biased]

end Calculator.Binary
