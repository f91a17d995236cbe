import OrcaOS.Construction.Printf
import OrcaOS.Foundation.Numeral
import OrcaOS.Foundation.Text

/-!
The numerals that `itoa` and `printf` write.
-/

namespace OrcaOS
open Foundation

/-- The digits are `0` to `9` and the upper-case letters. -/
def digitCharacter (digit : Nat) : UInt8 := UInt8.ofNat (if digit < 10 then 0x30 + digit else 0x41 + (digit - 10))

/-- The text is the canonical numeral of the value. -/
def IsNumeralText (radix value : Nat) (text : List UInt8) : Prop :=
  ∃ digits, IsNumeral radix value digits ∧ text = digits.map digitCharacter

/-- A negative value has a minus sign before the numeral of its magnitude. -/
def IsSignedText (value : Int) (text : List UInt8) : Prop :=
  if value < 0 then ∃ magnitude, text = 0x2D :: magnitude ∧ IsNumeralText 10 value.natAbs magnitude
  else IsNumeralText 10 value.natAbs text

/-- The text has exactly `count` digits of the radix, and its value is the given one. -/
def IsPaddedText (radix count value : Nat) (text : List UInt8) : Prop :=
  text.length = count ∧ ∃ digits, ReadsAs radix value digits ∧ text = digits.map digitCharacter

/-- The texts with these properties. -/
def numeralText (radix value : Nat) : List UInt8 := (numeralOf radix value).map digitCharacter

def signedText (value : Int) : List UInt8 :=
  if value < 0 then 0x2D :: numeralText 10 value.natAbs else numeralText 10 value.natAbs

def paddedText (radix count value : Nat) : List UInt8 :=
  List.replicate (count - (numeralOf radix value).length) 0x30 ++ numeralText radix value

theorem IsNumeralText.eq {radix value : Nat} {text : List UInt8} (numeral : IsNumeralText radix value text)
    (large : 1 < radix) : text = numeralText radix value := by
  obtain ⟨digits, own, rfl⟩ := numeral
  rw [own.eq large, numeralText]

theorem IsSignedText.eq {value : Int} {text : List UInt8} (signed : IsSignedText value text) : text = signedText value := by
  unfold IsSignedText at signed
  unfold signedText
  split_ifs at signed ⊢ with negative
  · obtain ⟨magnitude, rfl, numeral⟩ := signed
    rw [numeral.eq (by decide)]
  · exact signed.eq (by decide)

theorem IsPaddedText.eq {radix count value : Nat} {text : List UInt8} (padded : IsPaddedText radix count value text)
    (large : 1 < radix) (some : 0 < count) : text = paddedText radix count value := by
  obtain ⟨rfl, digits, reads, rfl⟩ := padded
  rw [List.length_map] at some
  rw [paddedText, numeralText, List.length_map]
  conv_lhs => rw [reads.eq_padded large some, List.map_append, List.map_replicate]
  rfl

/-- Where the format goes on with the directive, the text is printed for the next argument. -/
def PrintsWord (convBuf : Buffer) (directive : List UInt8) (value : UInt32) (text : List UInt8) : Prop :=
  ∀ (format : List UInt8) (index : Nat) (args : List Argument),
    printedCharacters (printfLoop convBuf (directive ++ format) index (.word value :: args)) =
      text ++ printedCharacters (printfLoop convBuf format (index + directive.length) args)

/-- The directives print the canonical numerals of a word, the alternate form prints eight digits, and `itoa` stores
the canonical numeral and its terminator. -/
structure PrintsExactly (convBuf buf : Buffer) (radix : Nat) (value : UInt32) : Prop where
  unsigned : ∃ text, IsNumeralText 10 value.toNat text ∧ PrintsWord convBuf [0x25, 0x75] value text
  signed : ∃ text, IsSignedText value.toInt32.toInt text ∧ PrintsWord convBuf [0x25, 0x64] value text
  hexadecimal : ∃ text, IsNumeralText 16 value.toNat text ∧ PrintsWord convBuf [0x25, 0x78] value text
  padded : ∃ text, IsPaddedText 16 8 value.toNat text ∧ PrintsWord convBuf [0x25, 0x23, 0x78] value text
  itoa : ∃ after text, OrcaOS.itoa value buf radix = some after ∧ IsNumeralText radix value.toNat text ∧ 0 ∉ text ∧
    Text.Held after text

end OrcaOS
