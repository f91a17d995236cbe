import OrcaOS.Construction.Rtc

/-!
The frequencies that the two routines of the clock accept, and the byte that the hardware one programs.
-/

namespace OrcaOS
open Foundation

/-- The powers of two that the hardware clock has rates for. -/
def IsFrequency (freq : BitVec 32) : Prop := freq.toNat.isPowerOfTwo ∧ 2 ≤ freq.toInt ∧ freq.toInt ≤ 1024

instance (freq : BitVec 32) : Decidable (IsFrequency freq) := inferInstanceAs (Decidable (_ ∧ _))

/-- Both routines accept exactly the frequencies of the clock. The programmed byte keeps the upper four bits of the
register, and its rate gives the frequency. -/
structure FrequencyAgrees (rtc : Rtc) (shown : Fin 3) (freq : BitVec 32) : Prop where
  hardware : (rtc.rtcSetFreq freq).1 = 0 ↔ IsFrequency freq
  virtualized : (rtc.rtcSetVirtualizedFreq shown freq.toInt).1 = 0 ↔ IsFrequency freq
  keeps : (rtc.rtcSetFreq freq).1 = 0 → (rtc.rtcSetFreq freq).2.registerA &&& 0xF0 = rtc.registerA &&& 0xF0
  programs : (rtc.rtcSetFreq freq).1 = 0 → ∃ rate, 1 ≤ rate ∧
    (rtc.rtcSetFreq freq).2.registerA &&& 0x0F = UInt8.ofNat rate ∧ rate < 16 ∧ (32768 >>> (rate - 1) : Nat) = freq.toInt

namespace Rtc
variable (rtc : Rtc) {freq : BitVec 32}

/-- The bit trick of the routine tests for a power of two. -/
theorem powerOfTwo_iff (freq : BitVec 32) : freq ≠ 0 ∧ freq &&& (freq - 1) = 0 ↔ freq.toNat.isPowerOfTwo := by
  rw [← Nat.ne_zero_and_sub_one_eq_zero_iff_isPowerOfTwo]
  have zero : freq ≠ 0 ↔ freq.toNat ≠ 0 := by
    rw [Ne, ← BitVec.toNat_inj]
    rfl
  rw [← zero]
  refine and_congr_right fun nonzero => ?_
  have positive : 1 ≤ freq.toNat := Nat.one_le_iff_ne_zero.mpr (zero.mp nonzero)
  rw [← BitVec.toNat_inj, BitVec.toNat_and, BitVec.toNat_sub_of_le positive]
  rfl

/-- The powers of two are 32 words. -/
theorem powerOfTwo_iff_word (freq : BitVec 32) :
    freq.toNat.isPowerOfTwo ↔ ∃ exponent : Fin 32, freq = BitVec.twoPow 32 exponent := by
  constructor
  · rintro ⟨exponent, same⟩
    have bound := freq.isLt
    rw [same] at bound
    refine ⟨⟨exponent, (Nat.pow_lt_pow_iff_right (by decide)).mp bound⟩, ?_⟩
    rw [← BitVec.toNat_inj, BitVec.toNat_twoPow, Nat.mod_eq_of_lt bound]
    exact same
  · rintro ⟨exponent, rfl⟩
    rw [BitVec.toNat_twoPow, Nat.mod_eq_of_lt (Nat.pow_lt_pow_right (by decide) exponent.isLt)]
    exact ⟨exponent, rfl⟩

/-- The rate that the hardware routine computes for an accepted word. -/
def rateOf (freq : BitVec 32) : UInt8 :=
  UInt8.ofNat (wrap32 (0x0F - (countShifts 32 (freq.sshiftRight 1).toNat - 1)))

/-- The hardware routine takes the powers of two up to 1024 as signed words. -/
theorem rtcSetFreq_eq (freq : BitVec 32) :
    rtc.rtcSetFreq freq = if freq.toNat.isPowerOfTwo ∧ freq.toInt ≤ 1024 then
      (0, { rtc with registerA := rtc.registerA &&& 0xF0 ||| rateOf freq }) else (-1, rtc) := by
  unfold rtcSetFreq
  dsimp only
  by_cases taken : freq.toNat.isPowerOfTwo ∧ freq.toInt ≤ 1024
  · have power := (powerOfTwo_iff freq).mpr taken.1
    have low : ¬1024 < freq.toInt := not_lt.mpr taken.2
    rw [if_pos taken, decide_eq_true power, decide_eq_false low]
    rfl
  · rw [if_neg taken, if_pos]
    rw [← powerOfTwo_iff] at taken
    rw [Bool.or_eq_true, Bool.not_eq_true', decide_eq_false_iff_not, decide_eq_true_eq]
    by_cases power : freq ≠ 0 ∧ freq &&& (freq - 1) = 0
    · exact .inr (not_le.mp fun low => taken ⟨power, low⟩)
    · exact .inl power

/-- The hardware routine accepts the frequencies of the clock, and in addition one and the least word. -/
theorem rtcSetFreq_accepts_iff (freq : BitVec 32) :
    (rtc.rtcSetFreq freq).1 = 0 ↔ IsFrequency freq ∨ freq = 1 ∨ freq = 0x80000000 := by
  have accepted : (rtc.rtcSetFreq freq).1 = 0 ↔ freq.toNat.isPowerOfTwo ∧ freq.toInt ≤ 1024 := by
    rw [rtcSetFreq_eq]
    split_ifs with taken
    · exact iff_of_true rfl taken
    · exact iff_of_false (show (-1 : Int) ≠ 0 by decide) taken
  have ends : ∀ exponent : Fin 32, (BitVec.twoPow 32 exponent).toInt ≤ 1024 ↔
      (2 ≤ (BitVec.twoPow 32 exponent).toInt ∧ (BitVec.twoPow 32 exponent).toInt ≤ 1024) ∨
        BitVec.twoPow 32 exponent = 1 ∨ BitVec.twoPow 32 exponent = 0x80000000 := by
    decide
  rw [accepted, IsFrequency]
  constructor
  · rintro ⟨power, low⟩
    obtain ⟨exponent, rfl⟩ := (powerOfTwo_iff_word freq).mp power
    exact ((ends exponent).mp low).imp_left fun between => ⟨power, between⟩
  · rintro (⟨power, _, low⟩ | rfl | rfl)
    · exact ⟨power, low⟩
    · exact ⟨⟨0, rfl⟩, by decide⟩
    · exact ⟨⟨31, rfl⟩, by decide⟩

/-- The virtualized routine accepts the frequencies of the clock without the highest one. -/
theorem rtcSetVirtualizedFreq_accepts_iff (shown : Fin 3) (freq : BitVec 32) :
    (rtc.rtcSetVirtualizedFreq shown freq.toInt).1 = 0 ↔ IsFrequency freq ∧ freq ≠ 1024 := by
  have accepted : (rtc.rtcSetVirtualizedFreq shown freq.toInt).1 = 0 ↔
      freq.toInt ∈ [512, 256, 128, 64, 32, 16, 8, 4, 2] := by
    unfold rtcSetVirtualizedFreq
    split_ifs with listed
    · exact iff_of_true rfl listed
    · exact iff_of_false (show (-1 : Int) ≠ 0 by decide) listed
  have listing : [512, 256, 128, 64, 32, 16, 8, 4, 2] =
      [9, 8, 7, 6, 5, 4, 3, 2, 1].map fun exponent : Fin 32 => (BitVec.twoPow 32 exponent).toInt := by
    decide
  have between : ∀ exponent : Fin 32, exponent ∈ [9, 8, 7, 6, 5, 4, 3, 2, 1] ↔
      (2 ≤ (BitVec.twoPow 32 exponent).toInt ∧ (BitVec.twoPow 32 exponent).toInt ≤ 1024) ∧
        BitVec.twoPow 32 exponent ≠ 1024 := by
    decide
  rw [accepted, listing, List.mem_map, IsFrequency, powerOfTwo_iff_word]
  constructor
  · rintro ⟨exponent, listed, same⟩
    obtain rfl := BitVec.eq_of_toInt_eq same
    obtain ⟨bounds, other⟩ := (between exponent).mp listed
    exact ⟨⟨⟨exponent, rfl⟩, bounds⟩, other⟩
  · rintro ⟨⟨⟨exponent, rfl⟩, bounds⟩, other⟩
    exact ⟨exponent, (between exponent).mpr ⟨bounds, other⟩, rfl⟩

/-- The rate of a frequency fits the lower four bits of the register and divides the base frequency down to it. -/
theorem rateOf_frequency (accepted : IsFrequency freq) :
    ∃ rate, 1 ≤ rate ∧ rateOf freq = UInt8.ofNat rate ∧ rate < 16 ∧ (32768 >>> (rate - 1) : Nat) = freq.toInt := by
  have rates : ∀ exponent : Fin 32, 2 ≤ (BitVec.twoPow 32 exponent).toInt →
      (BitVec.twoPow 32 exponent).toInt ≤ 1024 → 1 ≤ 16 - exponent.val ∧
        rateOf (BitVec.twoPow 32 exponent) = UInt8.ofNat (16 - exponent.val) ∧ 16 - exponent.val < 16 ∧
          (32768 >>> (16 - exponent.val - 1) : Nat) = (BitVec.twoPow 32 exponent).toInt := by
    decide
  obtain ⟨power, low, high⟩ := accepted
  obtain ⟨exponent, rfl⟩ := (powerOfTwo_iff_word freq).mp power
  exact ⟨_, rates exponent low high⟩

/-- A rate below 16 is stored beside the upper four bits of the register. -/
theorem nibbles (old : UInt8) {rate : Nat} (small : rate < 16) :
    (old &&& 0xF0 ||| UInt8.ofNat rate) &&& 0xF0 = old &&& 0xF0 ∧
      (old &&& 0xF0 ||| UInt8.ofNat rate) &&& 0x0F = UInt8.ofNat rate := by
  have apart : ∀ rate : Fin 16, UInt8.ofNat rate.val &&& 0xF0 = 0 ∧ UInt8.ofNat rate.val &&& 0x0F = UInt8.ofNat rate.val := by
    decide
  have distributes (left right mask : UInt8) : (left ||| right) &&& mask = left &&& mask ||| right &&& mask :=
    UInt8.toBitVec_inj.mp BitVec.and_or_distrib_right
  obtain ⟨upper, lower⟩ := apart ⟨rate, small⟩
  constructor
  · rw [distributes, upper, UInt8.and_assoc, UInt8.or_zero]
    rfl
  · rw [distributes, lower, UInt8.and_assoc]
    have cleared : old &&& (0xF0 &&& 0x0F) = 0 := UInt8.and_zero
    rw [cleared, UInt8.zero_or]

/-- For a frequency of the clock, the hardware routine keeps the upper four bits and programs its rate. -/
theorem rtcSetFreq_programs (accepted : IsFrequency freq) :
    (rtc.rtcSetFreq freq).2.registerA &&& 0xF0 = rtc.registerA &&& 0xF0 ∧ ∃ rate, 1 ≤ rate ∧
      (rtc.rtcSetFreq freq).2.registerA &&& 0x0F = UInt8.ofNat rate ∧ rate < 16 ∧
        (32768 >>> (rate - 1) : Nat) = freq.toInt := by
  obtain ⟨rate, positive, same, small, divides⟩ := rateOf_frequency accepted
  obtain ⟨keeps, programs⟩ := nibbles rtc.registerA small
  rw [rtcSetFreq_eq, if_pos ⟨accepted.1, accepted.2.2⟩, same]
  exact ⟨keeps, rate, positive, programs, small, divides⟩

end Rtc

/-- The two routines agree on every word other than one, 1024 and the least one. -/
theorem frequencies_agree_iff (rtc : Rtc) (shown : Fin 3) (freq : BitVec 32) :
    FrequencyAgrees rtc shown freq ↔ freq ≠ 1 ∧ freq ≠ 1024 ∧ freq ≠ 0x80000000 := by
  have outside : ¬IsFrequency 1 ∧ ¬IsFrequency 0x80000000 := by decide
  constructor
  · rintro ⟨hardware, virtualized, -, -⟩
    rw [rtc.rtcSetFreq_accepts_iff] at hardware
    rw [rtc.rtcSetVirtualizedFreq_accepts_iff] at virtualized
    refine ⟨?_, ?_, ?_⟩
    · rintro rfl
      exact outside.1 (hardware.mp (.inr (.inl rfl)))
    · rintro rfl
      exact (virtualized.mpr (by decide)).2 rfl
    · rintro rfl
      exact outside.2 (hardware.mp (.inr (.inr rfl)))
  · rintro ⟨one, highest, least⟩
    have hardware : (rtc.rtcSetFreq freq).1 = 0 ↔ IsFrequency freq := by
      rw [rtc.rtcSetFreq_accepts_iff, or_iff_left (not_or.mpr ⟨one, least⟩)]
    refine ⟨hardware, ?_, ?_, ?_⟩
    · rw [rtc.rtcSetVirtualizedFreq_accepts_iff, and_iff_left highest]
    · intro accepted
      exact (rtc.rtcSetFreq_programs (hardware.mp accepted)).1
    · intro accepted
      exact (rtc.rtcSetFreq_programs (hardware.mp accepted)).2

/-- The hardware routine accepts 1024, which the virtualized one refuses, and one, for which it has no rate: it changes
the upper bits of the register instead. -/
theorem frequencies_differ :
    let rtc : Rtc := ⟨0x26, 0x02, false, 0, fun _ => 512⟩
    ¬FrequencyAgrees rtc 0 1024 ∧ (rtc.rtcSetFreq 1024).1 = 0 ∧ (rtc.rtcSetVirtualizedFreq 0 1024).1 = -1 ∧
      (rtc.rtcSetFreq 1).1 = 0 ∧ (rtc.rtcSetFreq 1).2.registerA = 0x30 := by
  intro rtc
  have refused : (rtc.rtcSetVirtualizedFreq 0 1024).1 = -1 := by decide
  refine ⟨fun agrees => ?_, by decide, refused, by decide, by decide⟩
  have accepted : (rtc.rtcSetVirtualizedFreq 0 1024).1 = 0 := agrees.virtualized.mpr (by decide)
  rw [refused] at accepted
  exact absurd accepted (by decide)

end OrcaOS
