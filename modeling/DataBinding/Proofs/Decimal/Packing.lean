import DataBinding.Proofs.Decimal.Rounding

/-!
# Doubles and their bits

* `Canonical`: the mantissas and exponents that doubles have.
* `ofParts`: what the sign, the exponent and the mantissa in the bits of a double stand for.
* `unpack_pack`: a canonical mantissa and exponent are those of the double that they pack to.
-/

namespace DataBinding.Double

open Float.Model Float.Model.UnpackedFloat

/-- The mantissa and the exponent of a double: 53 bits, or fewer with the least exponent. -/
structure Canonical (m : ℕ) (e : ℤ) : Prop where
  pos : 0 < m
  lt : m < 2 ^ 53
  ge : -1074 ≤ e
  le : e ≤ 971
  full : 2 ^ 52 ≤ m ∨ e = -1074

/-! ## Parts of the bits -/

theorem toNat_append {w n : ℕ} (x : BitVec w) (y : BitVec n) :
    (x ++ y).toNat = x.toNat * 2 ^ n + y.toNat := by
  rw [BitVec.toNat_append, ← Nat.shiftLeft_add_eq_or_of_lt y.isLt, Nat.shiftLeft_eq]

theorem toNat_packComponents (s : Sign) (e : BitVec 11) (m : BitVec 52) :
    (packComponents Format.binary64 s e m).toNat =
      s.toBitVec.toNat * 2 ^ 63 + e.toNat * 2 ^ 52 + m.toNat := by
  change (s.toBitVec ++ e ++ m).toNat = _
  rw [toNat_append, toNat_append]
  omega

/-- What the parts of the bits stand for. -/
def ofParts (s : Sign) (e : BitVec 11) (m : BitVec 52) : UnpackedFloat :=
  if e = -1#11 then if m = 0#52 then .infinity s else .notANumber
  else if e = 0#11 then
    if h : 0 < m.toNat then .finite s m.toNat (-1074) h else .zero s
  else .finite s (2 ^ 52 + m.toNat) (e.toNat - 1075) (by omega)

theorem unpack_packComponents (s : Sign) (e : BitVec 11) (m : BitVec 52) :
    UnpackedFloat.unpack Format.binary64 (packComponents Format.binary64 s e m) =
      ofParts s e m := by
  have himplicit : (1#1 ++ m).toNat = 2 ^ 52 + m.toNat := by
    rw [toNat_append]
    simp
  have hzero : m = 0#52 ↔ ¬ 0 < m.toNat := by
    rw [Nat.not_lt, Nat.le_zero, ← BitVec.toNat_inj]
    rfl
  rw [UnpackedFloat.unpack, ofParts]
  simp only [unpackMantissa_packComponents, unpackExponent_packComponents,
    unpackSign_packComponents, Sign.ofBitVec_toBitVec]
  split
  · rfl
  · split
    · rename_i he
      rw [he]
      by_cases hm : 0 < m.toNat
      · rw [dif_pos hm, dif_neg fun h => hzero.mp h hm]
        rfl
      · rw [dif_neg hm, dif_pos (hzero.mpr hm)]
    · congr 1

/-- **Packing finds the parts again**, where there is no NaN. -/
theorem pack_ofParts {s : Sign} {e : BitVec 11} {m : BitVec 52} (h : e = -1#11 → m = 0#52) :
    UnpackedFloat.pack Format.binary64 (ofParts s e m) = packComponents Format.binary64 s e m := by
  have hnan : isNaNBits (packComponents Format.binary64 s e m) = false := by
    rw [isNaNBits, unpackExponent_packComponents, unpackMantissa_packComponents]
    simpa using h
  rw [← unpack_packComponents, UnpackedFloat.pack_unpack, hnan]
  rfl

theorem canonical_of_ofParts {s s' : Sign} {E : BitVec 11} {M : BitVec 52} {m : ℕ} {e : ℤ}
    {hp : 0 < m} (h : ofParts s' E M = .finite s m e hp) : Canonical m e := by
  have hM := M.isLt
  have hE := E.isLt
  rw [ofParts] at h
  split at h
  · split at h <;> cases h
  · rename_i hlast
    split at h
    · split at h
      · cases h
        exact ⟨hp, by omega, le_rfl, by decide, .inr rfl⟩
      · cases h
    · rename_i hfirst
      cases h
      have hlt : E.toNat ≠ 2047 := fun h => hlast (BitVec.eq_of_toNat_eq h)
      have hne : E.toNat ≠ 0 := fun h => hfirst (BitVec.eq_of_toNat_eq h)
      exact ⟨hp, by omega, by omega, by omega, .inl (by omega)⟩

theorem exists_ofParts (s : Sign) {m : ℕ} {e : ℤ} (h : Canonical m e) :
    ∃ E M, ofParts s E M = .finite s m e h.pos ∧ E ≠ -1#11 := by
  obtain ⟨hpos, hlt, hge, hle, hfull⟩ := h
  by_cases hm : m < 2 ^ 52
  · obtain rfl := hfull.resolve_left (by omega)
    have hM : (BitVec.ofNat 52 m).toNat = m := by
      rw [BitVec.toNat_ofNat, Nat.mod_eq_of_lt hm]
    refine ⟨0#11, BitVec.ofNat 52 m, ?_, by decide⟩
    rw [ofParts, if_neg (by decide), if_pos rfl, dif_pos (by omega)]
    congr 1
  · have hE : (BitVec.ofNat 11 (e + 1075).toNat).toNat = (e + 1075).toNat := by
      rw [BitVec.toNat_ofNat, Nat.mod_eq_of_lt (by omega)]
    have hM : (BitVec.ofNat 52 m).toNat = m - 2 ^ 52 := by
      rw [BitVec.toNat_ofNat]
      omega
    have hlast : BitVec.ofNat 11 (e + 1075).toNat ≠ -1#11 := by
      rw [ne_eq, ← BitVec.toNat_inj, hE]
      change (e + 1075).toNat ≠ 2047
      omega
    have hfirst : BitVec.ofNat 11 (e + 1075).toNat ≠ 0#11 := by
      rw [ne_eq, ← BitVec.toNat_inj, hE]
      change (e + 1075).toNat ≠ 0
      omega
    refine ⟨_, BitVec.ofNat 52 m, ?_, hlast⟩
    rw [ofParts, if_neg hlast, if_neg hfirst]
    congr 1
    · omega
    · omega

/-! ## Packing and unpacking -/

section Model

variable {f : Float.Model} {s : Sign} {m : ℕ} {e : ℤ}

/-- The parts of a double. -/
theorem exists_parts (f : Float.Model) : ∃ s E M, f.toBits.toNat =
    s.toBitVec.toNat * 2 ^ 63 + E.toNat * 2 ^ 52 + M.toNat ∧ f.unpack = ofParts s E M := by
  obtain ⟨s, E, M, hbits⟩ : ∃ s E M, packComponents .binary64 s E M = f.toBits.toBitVec :=
    ⟨_, _, _, @packComponents_unpackSign_unpackExponent_unpackMantissa .binary64 f.toBits.toBitVec⟩
  refine ⟨s, E, M, ?_, ?_⟩
  · rw [← toNat_packComponents, hbits]
    rfl
  · rw [← unpack_packComponents, hbits]
    rfl

theorem bits_injective {f g : Float.Model} (h : f.toBits.toBitVec = g.toBits.toBitVec) :
    f = g := by
  obtain ⟨b, hb⟩ := f
  obtain ⟨b', hb'⟩ := g
  obtain rfl : b = b' := UInt64.toBitVec_inj.mp h
  rfl

theorem pack_unpack_model (f : Float.Model) : Float.Model.pack f.unpack = f :=
  bits_injective (UnpackedFloat.pack_unpack_of_valid f.valid)

theorem unpack_pack (s : Sign) (h : Canonical m e) :
    (Float.Model.pack (.finite s m e h.pos)).unpack = .finite s m e h.pos := by
  obtain ⟨E, M, hparts, hE⟩ := exists_ofParts s h
  rw [← hparts, Float.Model.unpack, Float.Model.pack, UInt64.toBitVec_ofBitVec,
    pack_ofParts fun h => absurd h hE, unpack_packComponents]

theorem canonical_of_unpack {hp : 0 < m} (h : f.unpack = .finite s m e hp) : Canonical m e := by
  obtain ⟨s', E, M, -, hparts⟩ := exists_parts f
  exact canonical_of_ofParts (hparts.symm.trans h)

end Model

end DataBinding.Double
