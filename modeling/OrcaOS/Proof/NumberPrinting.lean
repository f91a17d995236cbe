import OrcaOS.Specification.Numerals

/-!
The numbers that `itoa` writes and `printf` prints are exact.
-/

namespace OrcaOS
open Foundation

section Strings
variable {s : Buffer} {text : List UInt8}

theorem held_ne_zero (held : Text.Held s text) (nonzero : 0 ∉ text) {index : Nat} (inside : index < text.length) :
    s index ≠ 0 := by
  rw [held index (Nat.le_of_lt inside), List.getD_eq_getElem _ _ inside]
  intro zero
  exact nonzero (zero ▸ List.getElem_mem inside)

theorem held_end (held : Text.Held s text) : s text.length = 0 := by
  rw [held _ (Nat.le_refl _), List.getD_eq_default _ _ (Nat.le_refl _)]

/-- The length is that of the text before the terminator. -/
theorem strlen_of_held (held : Text.Held s text) (nonzero : 0 ∉ text) {size : Nat} (fits : text.length < size) :
    strlen s size = some text.length := by
  have searched (size len : Nat) (within : len ≤ text.length) (fits : text.length < len + size) :
      strlenFrom s size len = some text.length := by
    induction size generalizing len with
    | zero => omega
    | succ size ih =>
        rw [strlenFrom]
        obtain inside | rfl := Nat.lt_or_eq_of_le within
        · rw [if_pos (held_ne_zero held nonzero inside)]
          exact ih (len + 1) inside (by omega)
        · exact if_neg fun other => other (held_end held)
  exact searched size 0 (Nat.zero_le _) (by omega)

/-- The text is printed and nothing else happens. -/
theorem puts_of_held (held : Text.Held s text) (nonzero : 0 ∉ text) {size : Nat} (fits : text.length < size) :
    puts s size = ⟨some text.length, text.map .putc⟩ := by
  have printed (size index : Nat) (within : index ≤ text.length) (fits : text.length < index + size) :
      putsFrom s size index = ⟨some text.length, (text.drop index).map .putc⟩ := by
    induction size generalizing index with
    | zero => omega
    | succ size ih =>
        rw [putsFrom]
        obtain inside | rfl := Nat.lt_or_eq_of_le within
        · have character : s index = text[index] := by
            rw [held index within, List.getD_eq_getElem _ _ inside]
          rw [if_pos (held_ne_zero held nonzero inside), ih (index + 1) inside (by omega), List.drop_eq_getElem_cons inside,
            List.map_cons, character]
          rfl
        · rw [if_neg fun other => other (held_end held), List.drop_length]
          rfl
  exact printed size 0 (Nat.zero_le _) (by omega)

/-- The loop reverses the bytes between its ends. -/
theorem strrevFrom_apply (beg last : Nat) (s : Buffer) (index : Nat) :
    strrevFrom beg last s index = if beg ≤ index ∧ index ≤ last then s (beg + last - index) else s index := by
  induction last generalizing beg s with
  | zero =>
      rw [strrevFrom]
      split_ifs with inside
      · congr 1
        omega
      · rfl
  | succ last ih =>
      rw [strrevFrom]
      by_cases apart : beg < last + 1
      · rw [if_pos apart, ih]
        by_cases first : index = beg
        · rw [if_neg (by omega), if_pos (by omega), first, Function.update_self]
          congr 1
          omega
        by_cases final : index = last + 1
        · rw [if_neg (by omega), if_pos (by omega), Function.update_of_ne first, final, Function.update_self]
          congr 1
          omega
        by_cases inside : beg ≤ index ∧ index ≤ last + 1
        · rw [if_pos (by omega), if_pos inside, Function.update_of_ne (by omega), Function.update_of_ne (by omega)]
          congr 1
          omega
        · rw [if_neg (by omega), if_neg inside, Function.update_of_ne first, Function.update_of_ne final]
      · rw [if_neg apart]
        split_ifs with inside
        · congr 1
          omega
        · rfl

theorem strrev_of_held (held : Text.Held s text) (nonzero : 0 ∉ text) {size : Nat} (fits : text.length < size) :
    ∃ reversed, strrev s size = some reversed ∧ Text.Held reversed text.reverse := by
  refine ⟨strrevFrom 0 (text.length - 1) s, by rw [strrev, strlen_of_held held nonzero fits]; rfl, ?_⟩
  intro index within
  rw [List.length_reverse] at within
  rw [strrevFrom_apply, Nat.zero_add]
  obtain inside | rfl := Nat.lt_or_eq_of_le within
  · rw [if_pos ⟨Nat.zero_le _, by omega⟩, held _ (by omega), List.getD_eq_getElem _ _ (by omega),
      List.getD_eq_getElem _ _ (by rw [List.length_reverse]; exact inside), List.getElem_reverse]
  · rw [List.getD_eq_default _ _ (by rw [List.length_reverse])]
    split_ifs with empty
    · have same : text.length - 1 - text.length = text.length := by omega
      rw [same, held_end held]
    · exact held_end held

end Strings

/-- The digits of the literal are the digit characters. -/
theorem lookup_digit : ∀ digit < 36, lookup[digit]? = some (digitCharacter digit) ∧ digitCharacter digit ≠ 0 := by decide

/-- The characters of digits have no terminator among them. -/
theorem digitCharacters_nonzero {radix value : Nat} {digits : List Nat} (reads : ReadsAs radix value digits)
    (high : radix ≤ 36) : 0 ∉ digits.map digitCharacter := by
  intro member
  obtain ⟨digit, own, zero⟩ := List.mem_map.mp member
  exact (lookup_digit digit (Nat.lt_of_lt_of_le (reads.digit digit own) high)).2 zero

/-- A stored digit is followed by the other ones. -/
theorem storeBytes_cons (buf : Memory) (position : Nat) (byte : UInt8) (bytes : List UInt8) :
    Memory.storeBytes (Function.update buf position byte) (position + 1) bytes = buf.storeBytes position (byte :: bytes) := by
  rw [Memory.storeBytes, Memory.storeBytes, List.length_cons, Memory.overlay_succ]
  rfl

/-- A terminated store holds the text. -/
theorem held_storeBytes (buf : Memory) (text : List UInt8) :
    Text.Held (Function.update (buf.storeBytes 0 text) text.length 0) text := by
  intro index within
  obtain inside | rfl := Nat.lt_or_eq_of_le within
  · have stored := Memory.storeBytes_inside buf 0 text inside
    rw [Nat.zero_add] at stored
    rw [Function.update_of_ne (Nat.ne_of_lt inside), stored, List.getD_eq_getElem _ _ inside]
  · rw [Function.update_self, List.getD_eq_default _ _ (Nat.le_refl _)]

section Itoa
variable {radix : Nat} (low : 2 ≤ radix) (high : radix ≤ 36)
include low high

/-- The loop stores the digits from the lowest on. -/
theorem itoaDigits_eq (turns newval position : Nat) (buf : Buffer) (small : newval < 2 ^ turns) :
    itoaDigits radix turns newval position buf = some (position + (Nat.digits radix newval).length,
      Memory.storeBytes buf position ((Nat.digits radix newval).map digitCharacter)) := by
  induction turns generalizing newval position buf with
  | zero =>
      have zero : newval = 0 := by omega
      rw [itoaDigits, if_pos zero, zero, Nat.digits_zero]
      exact congrArg (fun buf => some (position, buf)) (Memory.overlay_zero buf position _).symm
  | succ turns ih =>
      rw [itoaDigits]
      split_ifs with zero none
      · rw [zero, Nat.digits_zero]
        exact congrArg (fun buf => some (position, buf)) (Memory.overlay_zero buf position _).symm
      · omega
      · have digit := lookup_digit (newval % radix) (Nat.lt_of_lt_of_le (Nat.mod_lt _ (by omega)) high)
        have smaller : newval / radix < 2 ^ turns := by
          have half : newval / radix ≤ newval / 2 := Nat.div_le_div_left low (by decide)
          rw [Nat.pow_succ] at small
          omega
        rw [digit.1, Option.bind_some, ih _ _ _ smaller, Nat.digits_eq_cons_digits_div (by omega) zero, List.map_cons,
          storeBytes_cons, List.length_cons]
        congr 2
        omega

/-- The buffer holds the canonical numeral and its terminator. -/
theorem itoa_eq (value : UInt32) (buf : Buffer) : ∃ after digits, itoa value buf radix = some after ∧
    IsNumeral radix value.toNat digits ∧ Text.Held after (digits.map digitCharacter) := by
  unfold itoa
  split_ifs with zero
  · refine ⟨_, [0], rfl, ?_, ?_⟩
    · rw [zero]
      exact isNumeral_zero (by omega)
    · intro index within
      obtain rfl | rfl : index = 0 ∨ index = 1 := by
        change index ≤ 1 at within
        omega
      · rfl
      · rfl
  · have nonzero : value.toNat ≠ 0 := fun same => zero (UInt32.toNat_inj.mp same)
    have numeral := isNumeral_digits (show 1 < radix by omega) nonzero
    have terminator : 0 ∉ (Nat.digits radix value.toNat).map digitCharacter := by
      have reversed := digitCharacters_nonzero numeral.toReadsAs high
      rwa [List.map_reverse, List.mem_reverse] at reversed
    have word : value.toNat < radix ^ 32 :=
      Nat.lt_of_lt_of_le value.toNat_lt (Nat.pow_le_pow_left low 32)
    have few : ((Nat.digits radix value.toNat).map digitCharacter).length < 33 := by
      rw [List.length_map]
      exact Nat.lt_succ_of_le ((Nat.digits_length_le_iff (by omega) _).mpr word)
    have stored := held_storeBytes buf ((Nat.digits radix value.toNat).map digitCharacter)
    rw [List.length_map] at stored
    obtain ⟨after, reversed, held⟩ := strrev_of_held stored terminator few
    refine ⟨after, _, ?_, numeral, ?_⟩
    · rw [itoaDigits_eq low high 32 value.toNat 0 buf value.toNat_lt, Option.bind_some, Nat.zero_add]
      exact reversed
    · rwa [List.map_reverse]

end Itoa

section Conversions
variable (convBuf : Buffer) (value : UInt32)

/-- The numeral of a word is no longer than the one of the largest word. -/
theorem itoa_held {radix : Nat} (low : 2 ≤ radix) (high : radix ≤ 36) {count : Nat} (positive : 0 < count)
    (enough : 4294967296 ≤ radix ^ count) (buf : Buffer) : ∃ number text, itoa value buf radix = some number ∧
      IsNumeralText radix value.toNat text ∧ 0 ∉ text ∧ text.length ≤ count ∧ Text.Held number text := by
  obtain ⟨number, digits, converted, numeral, held⟩ := itoa_eq low high value buf
  refine ⟨number, _, converted, ⟨digits, numeral, rfl⟩, digitCharacters_nonzero numeral.toReadsAs high, ?_, held⟩
  rw [List.length_map]
  exact numeral.length_le low positive (Nat.lt_of_lt_of_le value.toNat_lt enough)

/-- Zeros fill the places from the length of the number up to its start. -/
theorem held_padded {number : Buffer} {text : List UInt8} (held : Text.Held number text) (short : text.length ≤ 8) :
    Text.Held (pointerTo (Memory.fill (Memory.overlay convBuf 8 56 number) text.length (8 - text.length) 0x30) text.length)
      (List.replicate (8 - text.length) 0x30 ++ text) := by
  intro index within
  rw [List.length_append, List.length_replicate] at within
  rw [pointerTo, Memory.fill]
  by_cases padding : index < 8 - text.length
  · rw [Memory.overlay_inside _ _ _ _ padding, List.getD_append _ _ _ _ (by rw [List.length_replicate]; exact padding),
      List.getD_replicate _ padding]
  · have place : text.length + index = 8 + (index - (8 - text.length)) := by omega
    rw [Memory.overlay_outside _ _ _ _ (by omega), place, Memory.overlay_inside _ _ _ _ (by omega),
      held _ (by omega), List.getD_append_right _ _ _ _ (by rw [List.length_replicate]; omega), List.length_replicate]

/-- The alternate form has exactly eight digits. -/
theorem convertHex_alternate : ∃ s text, convertHex convBuf true value = some s ∧
    IsPaddedText 16 8 value.toNat text ∧ 0 ∉ text ∧ Text.Held s text := by
  obtain ⟨number, _, converted, ⟨digits, numeral, rfl⟩, nonzero, short, held⟩ :=
    itoa_held value (show 2 ≤ 16 by decide) (by decide) (show 0 < 8 by decide) (by decide) (pointerTo convBuf 8)
  have length := strlen_of_held held nonzero (show _ < 56 by omega)
  have padded := numeral.toReadsAs.pad (by decide) (8 - digits.length)
  have same : List.replicate (8 - (digits.map digitCharacter).length) 0x30 ++ digits.map digitCharacter =
      (List.replicate (8 - digits.length) 0 ++ digits).map digitCharacter := by
    rw [List.map_append, List.map_replicate, List.length_map]
    rfl
  have filled := held_padded convBuf held short
  rw [same] at filled
  refine ⟨_, _, ?_, ⟨?_, _, padded, rfl⟩, digitCharacters_nonzero padded (by decide), filled⟩
  · rw [convertHex, if_pos rfl, converted, Option.bind_some, length]
    rfl
  · rw [List.length_map] at short
    rw [List.length_map, List.length_append, List.length_replicate]
    omega

theorem word_toInt : value.toInt32.toInt =
    if value.toNat < 2147483648 then (value.toNat : Int) else value.toNat - 4294967296 := by
  have signed := BitVec.toInt_eq_toNat_cond value.toBitVec
  change value.toInt32.toInt = _ at signed
  rw [signed]
  change (if 2 * value.toNat < 4294967296 then (value.toNat : Int) else value.toNat - 4294967296) = _
  split_ifs <;> omega

/-- The negation of a negative word is its magnitude, also for the least one. -/
theorem word_negation (negative : value.toInt32.toInt < 0) : (-value).toNat = value.toInt32.toInt.natAbs := by
  have bound := value.toNat_lt
  have signed := word_toInt value
  rw [UInt32.toNat_neg]
  change (4294967296 - value.toNat) % 4294967296 = _
  split_ifs at signed <;> omega

/-- The sign of a negative word stands before the numeral of its negation. -/
theorem convertSigned_eq : ∃ s text, convertSigned convBuf value = some s ∧
    IsSignedText value.toInt32.toInt text ∧ 0 ∉ text ∧ text.length < 36 ∧ Text.Held s text := by
  unfold convertSigned IsSignedText
  have sign : value.toInt32 < 0 ↔ value.toInt32.toInt < 0 := Int32.lt_iff_toInt_lt
  simp only [sign]
  split_ifs with negative
  · obtain ⟨number, text, converted, numeral, nonzero, short, held⟩ := itoa_held (-value) (show 2 ≤ 10 by decide)
      (by decide) (show 0 < 10 by decide) (by decide) (pointerTo (Function.update convBuf 0 0x2D) 1)
    rw [word_negation value negative] at numeral
    refine ⟨_, 0x2D :: text, by rw [converted]; rfl, ⟨text, rfl, numeral⟩, ?_, ?_, ?_⟩
    · intro member
      obtain zero | own := List.mem_cons.mp member
      · exact absurd zero (by decide)
      · exact nonzero own
    · rw [List.length_cons]
      omega
    · intro index within
      rw [List.length_cons] at within
      cases index with
      | zero => rfl
      | succ index =>
          change Memory.overlay (Function.update convBuf 0 0x2D) 1 35 number (index + 1) = text.getD index 0
          rw [Nat.add_comm, Memory.overlay_inside _ _ _ _ (by omega)]
          exact held index (by omega)
  · obtain ⟨number, text, converted, numeral, nonzero, short, held⟩ := itoa_held value (show 2 ≤ 10 by decide)
      (by decide) (show 0 < 10 by decide) (by decide) convBuf
    have magnitude : value.toInt32.toInt.natAbs = value.toNat := by
      have signed := word_toInt value
      have bound := value.toNat_lt
      split_ifs at signed <;> omega
    rw [← magnitude] at numeral
    exact ⟨number, text, converted, numeral, nonzero, by omega, held⟩

/-- A converted number is printed and its argument is dropped. -/
theorem putsConverted_of_held {s : Buffer} {text : List UInt8} (held : Text.Held s text) (nonzero : 0 ∉ text) {size : Nat}
    (fits : text.length < size) {converted : Option Buffer} (found : converted = some s) (rest : List Argument) :
    putsConverted converted size rest = ⟨some rest, text.map .putc⟩ := by
  rw [found, putsConverted, puts_of_held held nonzero fits]
  exact congrArg (Traced.mk (some rest)) (List.append_nil _)

/-- The conversions of a word print its numerals. -/
theorem convert_unsigned : ∃ text, IsNumeralText 10 value.toNat text ∧ ∀ alternate rest,
    convert convBuf 0x75 alternate (.word value :: rest) = ⟨some rest, text.map .putc⟩ := by
  obtain ⟨number, text, converted, numeral, nonzero, short, held⟩ :=
    itoa_held value (show 2 ≤ 10 by decide) (by decide) (show 0 < 10 by decide) (by decide) convBuf
  exact ⟨text, numeral, fun _ rest => putsConverted_of_held held nonzero (show _ < 36 by omega) converted rest⟩

theorem convert_signed : ∃ text, IsSignedText value.toInt32.toInt text ∧ ∀ alternate rest,
    convert convBuf 0x64 alternate (.word value :: rest) = ⟨some rest, text.map .putc⟩ := by
  obtain ⟨s, text, converted, signed, nonzero, short, held⟩ := convertSigned_eq convBuf value
  exact ⟨text, signed, fun _ rest => putsConverted_of_held held nonzero short converted rest⟩

theorem convert_hex : ∃ text, IsNumeralText 16 value.toNat text ∧ ∀ rest,
    convert convBuf 0x78 false (.word value :: rest) = ⟨some rest, text.map .putc⟩ := by
  obtain ⟨number, text, converted, numeral, nonzero, short, held⟩ :=
    itoa_held value (show 2 ≤ 16 by decide) (by decide) (show 0 < 8 by decide) (by decide) convBuf
  exact ⟨text, numeral, putsConverted_of_held held nonzero (show _ < 64 by omega) converted⟩

theorem convert_padded : ∃ text, IsPaddedText 16 8 value.toNat text ∧ ∀ rest,
    convert convBuf 0x78 true (.word value :: rest) = ⟨some rest, text.map .putc⟩ := by
  obtain ⟨s, text, converted, padded, nonzero, held⟩ := convertHex_alternate convBuf value
  have short : text.length < 64 := by
    rw [padded.1]
    decide
  exact ⟨text, padded, putsConverted_of_held held nonzero short converted⟩

end Conversions

section Printed
variable {α β : Type}

theorem printedCharacters_bind (first : Traced PrintEvent α) (next : α → Traced PrintEvent β) :
    printedCharacters (first >>= next) = printedCharacters first ++ printedCharacters (next first.value) :=
  List.filterMap_append

theorem printedCharacters_putc (value : α) (text : List UInt8) :
    printedCharacters (⟨value, text.map .putc⟩ : Traced PrintEvent α) = text := by
  rw [printedCharacters, List.filterMap_map]
  exact List.filterMap_some

/-- Reading the format prints nothing. -/
theorem printedCharacters_read (index : Nat) (next : Unit → Traced PrintEvent β) :
    printedCharacters (Traced.access (PrintEvent.readFormat index) () >>= next) = printedCharacters (next ()) :=
  printedCharacters_bind _ _

variable (convBuf : Buffer) (format : List UInt8) (index : Nat) (args : List Argument)

/-- A percent sign leads to the switch, and the alternate form goes back to it. -/
theorem printed_percent : printedCharacters (printfLoop convBuf (0x25 :: format) index args) =
    printedCharacters (formatCharSwitch convBuf format (index + 1) args false) := by
  rw [printfLoop, printedCharacters_read]
  rfl

theorem printed_alternate (alternate : Bool) :
    printedCharacters (formatCharSwitch convBuf (0x23 :: format) index args alternate) =
      printedCharacters (formatCharSwitch convBuf format (index + 1) args true) := by
  rw [formatCharSwitch, printedCharacters_read]
  rfl

/-- Behind a conversion the outer loop goes on. -/
theorem printed_conversion {character : UInt8} (plain : character ≠ 0x23) {alternate : Bool} {left : List Argument}
    {text : List UInt8} (converted : convert convBuf character alternate args = ⟨some left, text.map .putc⟩) :
    printedCharacters (formatCharSwitch convBuf (character :: format) index args alternate) =
      text ++ printedCharacters (printfLoop convBuf format (index + 1) left) := by
  rw [formatCharSwitch, printedCharacters_read, if_neg plain, printedCharacters_bind, converted, printedCharacters_putc]

theorem printsWord_of_convert {character : UInt8} (plain : character ≠ 0x23) {value : UInt32} {text : List UInt8}
    (converted : ∀ rest, convert convBuf character false (.word value :: rest) = ⟨some rest, text.map .putc⟩) :
    PrintsWord convBuf [0x25, character] value text := by
  intro format index args
  exact (printed_percent convBuf (character :: format) index _).trans
    (printed_conversion convBuf format (index + 1) _ plain (converted args))

end Printed

/-- Every number is printed exactly, and `itoa` stores it exactly for every radix with enough digits. -/
theorem numbers_print_exactly (value : UInt32) (convBuf buf : Buffer) {radix : Nat} (low : 2 ≤ radix) (high : radix ≤ 36) :
    PrintsExactly convBuf buf radix value := by
  constructor
  · obtain ⟨text, numeral, converted⟩ := convert_unsigned convBuf value
    exact ⟨text, numeral, printsWord_of_convert convBuf (by decide) (converted false)⟩
  · obtain ⟨text, signed, converted⟩ := convert_signed convBuf value
    exact ⟨text, signed, printsWord_of_convert convBuf (by decide) (converted false)⟩
  · obtain ⟨text, numeral, converted⟩ := convert_hex convBuf value
    exact ⟨text, numeral, printsWord_of_convert convBuf (by decide) converted⟩
  · obtain ⟨text, padded, converted⟩ := convert_padded convBuf value
    refine ⟨text, padded, fun format index args => ?_⟩
    exact (printed_percent convBuf (0x23 :: 0x78 :: format) index _).trans
      ((printed_alternate convBuf (0x78 :: format) (index + 1) _ false).trans
        (printed_conversion convBuf format (index + 2) _ (by decide) (converted args)))
  · obtain ⟨after, digits, stored, numeral, held⟩ := itoa_eq low high value buf
    exact ⟨after, _, stored, ⟨digits, numeral, rfl⟩, digitCharacters_nonzero numeral.toReadsAs high, held⟩

/-- The least signed word is its own negation. -/
theorem numbers_print_exactly_least : PrintsExactly (fun _ => 0) (fun _ => 0) 36 2147483648 :=
  numbers_print_exactly 2147483648 _ _ (by decide) (by decide)

example : printedCharacters (printf (fun _ => 0) [0x25, 0x23, 0x78, 0] [.word 0xE]) =
    [0x30, 0x30, 0x30, 0x30, 0x30, 0x30, 0x30, 0x45] := by decide

end OrcaOS
