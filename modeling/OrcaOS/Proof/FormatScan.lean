import OrcaOS.Proof.NumberPrinting
import OrcaOS.Specification.Format

/-!
`printf` stops at the terminator of its format unless the format ends inside a conversion.
-/

namespace OrcaOS
open Foundation

section Steps
variable {limit : Nat}

/-- A byte of the format is read before the rest. -/
theorem staysWithin_read (index : Nat) (next : Unit → Traced PrintEvent (Option Nat)) :
    StaysWithin limit (Traced.access (PrintEvent.readFormat index) () >>= next) ↔ index ≤ limit ∧ StaysWithin limit (next ()) := by
  constructor
  · rintro ⟨returns, reads⟩
    exact ⟨reads index (List.mem_append_left _ List.mem_cons_self),
      returns, fun other member => reads other (List.mem_append_right _ member)⟩
  · rintro ⟨inside, returns, reads⟩
    refine ⟨returns, fun other member => ?_⟩
    obtain own | later := List.mem_append.mp member
    · obtain ⟨⟩ := List.mem_singleton.mp own
      exact inside
    · exact reads other later

/-- Printed characters read nothing of the format. -/
theorem staysWithin_putc {α : Type} (value : α) (characters : List UInt8) (next : α → Traced PrintEvent (Option Nat)) :
    StaysWithin limit ((⟨value, characters.map .putc⟩ : Traced PrintEvent α) >>= next) ↔ StaysWithin limit (next value) := by
  constructor
  · rintro ⟨returns, reads⟩
    exact ⟨returns, fun index member => reads index (List.mem_append_right _ member)⟩
  · rintro ⟨returns, reads⟩
    refine ⟨returns, fun index member => ?_⟩
    obtain own | later := List.mem_append.mp member
    · obtain ⟨_, _, other⟩ := List.mem_map.mp own
      cases other
    · exact reads index later

variable (convBuf : Buffer)

/-- Behind the limit the outer loop reads another byte, or there is none. -/
theorem not_staysWithin_past (stale : List UInt8) {index : Nat} (past : limit < index) (args : List Argument) :
    ¬StaysWithin limit (printfLoop convBuf stale index args) := by
  cases stale with
  | nil =>
      rintro ⟨returns, -⟩
      cases returns
  | cons character stale =>
      rw [printfLoop, staysWithin_read]
      rintro ⟨inside, -⟩
      omega

theorem word_characters {character : UInt8} (takes : character ∈ [0x78, 0x75, 0x64, 0x63]) :
    character = 0x78 ∨ character = 0x75 ∨ character = 0x64 ∨ character = 0x63 := by simpa using takes

/-- The conversion of a word prints its text. -/
theorem convert_word {character : UInt8} (takes : character ∈ [0x78, 0x75, 0x64, 0x63]) (alternate : Bool) (value : UInt32)
    (rest : List Argument) : convert convBuf character alternate (.word value :: rest) =
      ⟨some rest, (wordText character alternate value).map .putc⟩ := by
  obtain rfl | rfl | rfl | rfl := word_characters takes
  · cases alternate with
    | false =>
        obtain ⟨text, numeral, converted⟩ := convert_hex convBuf value
        rw [converted, numeral.eq (by decide)]
        rfl
    | true =>
        obtain ⟨text, padded, converted⟩ := convert_padded convBuf value
        rw [converted, padded.eq (by decide) (by decide)]
        rfl
  · obtain ⟨text, numeral, converted⟩ := convert_unsigned convBuf value
    rw [converted, numeral.eq (by decide)]
    rfl
  · obtain ⟨text, signed, converted⟩ := convert_signed convBuf value
    rw [converted, signed.eq]
    rfl
  · rfl

/-- Every conversion prints its text and leaves the later arguments, or it finds an argument of another kind. -/
theorem convert_eq (character : UInt8) (alternate : Bool) (args : List Argument) :
    convert convBuf character alternate args = (conversionText character alternate args).elim ⟨none, []⟩
      fun (text, rest) => ⟨some rest, text.map .putc⟩ := by
  unfold conversionText
  by_cases takesWord : character ∈ [0x78, 0x75, 0x64, 0x63]
  · rw [if_pos takesWord]
    cases args with
    | nil => obtain rfl | rfl | rfl | rfl := word_characters takesWord <;> rfl
    | cons argument rest =>
        cases argument with
        | word value => exact convert_word convBuf takesWord alternate value rest
        | string characters terminated => obtain rfl | rfl | rfl | rfl := word_characters takesWord <;> rfl
  · rw [if_neg takesWord]
    by_cases takesString : character = 0x73
    · subst takesString
      cases args with
      | nil => rfl
      | cons argument rest =>
          cases argument with
          | word value => rfl
          | string characters terminated =>
              exact putsConverted_of_held (fun _ _ => rfl) terminated (Nat.lt_succ_self _) rfl rest
    · rw [if_neg takesString]
      simp only [List.mem_cons, List.not_mem_nil, or_false, not_or] at takesWord
      obtain ⟨notHex, notUnsigned, notSigned, notCharacter⟩ := takesWord
      unfold convert
      rw [if_neg notHex, if_neg notUnsigned, if_neg notSigned, if_neg notCharacter, if_neg takesString]
      split_ifs
      · rfl
      · rfl

variable {kinds : List ArgumentKind}

/-- A word is the next argument. -/
theorem word_of_enough {args : List Argument} (enough : .word :: kinds <+: args.map Argument.kind) :
    ∃ value rest, args = .word value :: rest ∧ kinds <+: rest.map Argument.kind := by
  cases args with
  | nil => cases List.prefix_nil.mp enough
  | cons argument rest =>
      obtain ⟨same, later⟩ := List.cons_prefix_cons.mp enough
      cases argument with
      | word value => exact ⟨value, rest, rfl, later⟩
      | string => cases same

theorem string_of_enough {args : List Argument} (enough : .string :: kinds <+: args.map Argument.kind) :
    ∃ characters terminated rest, args = .string characters terminated :: rest ∧ kinds <+: rest.map Argument.kind := by
  cases args with
  | nil => cases List.prefix_nil.mp enough
  | cons argument rest =>
      obtain ⟨same, later⟩ := List.cons_prefix_cons.mp enough
      cases argument with
      | word => cases same
      | string characters terminated => exact ⟨characters, terminated, rest, rfl, later⟩

/-- With enough arguments a conversion only prints characters, and it leaves the later arguments. -/
theorem convert_of_enough (character : UInt8) (alternate : Bool) {args : List Argument}
    (enough : conversionKinds character ++ kinds <+: args.map Argument.kind) :
    ∃ (left : List Argument) (text : List UInt8), convert convBuf character alternate args = ⟨some left, text.map .putc⟩ ∧
      kinds <+: left.map Argument.kind := by
  rw [convert_eq]
  unfold conversionText
  by_cases takesWord : character ∈ [0x78, 0x75, 0x64, 0x63]
  · rw [conversionKinds, if_pos takesWord] at enough
    obtain ⟨value, rest, rfl, later⟩ := word_of_enough enough
    rw [if_pos takesWord]
    exact ⟨rest, _, rfl, later⟩
  · rw [conversionKinds, if_neg takesWord] at enough
    rw [if_neg takesWord]
    by_cases takesString : character = 0x73
    · rw [if_pos takesString] at enough
      obtain ⟨characters, terminated, rest, rfl, later⟩ := string_of_enough enough
      rw [if_pos takesString]
      exact ⟨rest, characters, rfl, later⟩
    · rw [if_neg takesString] at enough
      rw [if_neg takesString]
      exact ⟨args, _, rfl, enough⟩

end Steps

/-- The loop and the switch print the text of the format. -/
theorem scan_prints (convBuf : Buffer) (format : List UInt8) (index : Nat) (args : List Argument) :
    printedCharacters (printfLoop convBuf format index args) = formattedText none format args ∧
      ∀ alternate, printedCharacters (formatCharSwitch convBuf format index args alternate) =
        formattedText (some alternate) format args := by
  induction format generalizing index args with
  | nil => exact ⟨rfl, fun _ => rfl⟩
  | cons character format ih =>
      constructor
      · rw [printfLoop, printedCharacters_read, formattedText]
        split_ifs with ended percent
        · rfl
        · exact (ih (index + 1) args).2 false
        · rw [printedCharacters_bind, (ih (index + 1) args).1]
          rfl
      · intro alternate
        rw [formatCharSwitch, printedCharacters_read, formattedText]
        split_ifs with sign
        · exact (ih (index + 1) args).2 true
        · rw [printedCharacters_bind, convert_eq]
          cases conversionText character alternate args with
          | none => rfl
          | some converted =>
              dsimp only [Option.elim_some]
              rw [printedCharacters_putc, (ih (index + 1) converted.2).1]

/-- `printf` prints the text of its format for every content of its local arrays. -/
theorem printf_prints (convBuf : Buffer) (format : List UInt8) (args : List Argument) :
    printedCharacters (printf convBuf format args) = formattedText none format args :=
  (scan_prints convBuf format 0 args).1

/-- The loop and the switch stop at the terminator unless the text before it ends inside a conversion. -/
theorem scan_iff (convBuf : Buffer) (stale : List UInt8) {text : List UInt8} (nonzero : 0 ∉ text) (index : Nat)
    (args : List Argument) :
    (argumentKinds false text <+: args.map Argument.kind →
      (StaysWithin (index + text.length) (printfLoop convBuf (text ++ 0 :: stale) index args) ↔
        endsConverting false text = false)) ∧
    ∀ alternate, argumentKinds true text <+: args.map Argument.kind →
      (StaysWithin (index + text.length) (formatCharSwitch convBuf (text ++ 0 :: stale) index args alternate) ↔
        endsConverting true text = false) := by
  induction text generalizing index args with
  | nil =>
      constructor
      · intro _
        rw [List.nil_append, printfLoop, staysWithin_read]
        refine iff_of_true ⟨Nat.le_refl _, rfl, fun other member => ?_⟩ rfl
        cases member
      · intro alternate _
        rw [List.nil_append, formatCharSwitch, staysWithin_read]
        refine iff_of_false ?_ (by decide)
        rintro ⟨-, rest⟩
        exact not_staysWithin_past convBuf stale (Nat.lt_succ_self index) args ((staysWithin_putc (some args) [] _).mp rest)
  | cons character text ih =>
      obtain ⟨first, later⟩ := not_or.mp (fun zero => nonzero (List.mem_cons.mpr zero))
      have place : index + (character :: text).length = index + 1 + text.length := by
        rw [List.length_cons]
        omega
      have inside : index ≤ index + 1 + text.length := by omega
      rw [place, List.cons_append]
      constructor
      · intro enough
        rw [printfLoop, staysWithin_read, and_iff_right inside, if_neg (Ne.symm first)]
        by_cases percent : character = 0x25
        · rw [if_pos percent]
          rw [percent] at enough ⊢
          exact (ih later (index + 1) args).2 false enough
        · have plain : decide (character = 0x25) = false := decide_eq_false percent
          rw [argumentKinds, plain] at enough
          rw [if_neg percent, endsConverting, List.foldl_cons, if_neg (by decide), plain]
          exact (staysWithin_putc () [character] _).trans ((ih later (index + 1) args).1 enough)
      · intro alternate enough
        rw [formatCharSwitch, staysWithin_read, and_iff_right inside]
        by_cases sign : character = 0x23
        · rw [if_pos sign]
          rw [sign] at enough ⊢
          exact (ih later (index + 1) args).2 true enough
        · have plain : decide (character = 0x23) = false := decide_eq_false sign
          rw [argumentKinds, if_neg sign] at enough
          obtain ⟨left, printed, converted, rest⟩ := convert_of_enough convBuf character alternate enough
          rw [if_neg sign, converted, staysWithin_putc, endsConverting, List.foldl_cons, if_pos rfl, plain]
          exact (ih later (index + 1) left).1 rest

/-- With enough arguments of the right kinds, `printf` reads its format up to the terminator and returns its length,
unless the terminator stands inside a conversion. -/
theorem printf_reads_format_iff (convBuf : Buffer) (text : List UInt8) (nonzero : 0 ∉ text) (stale : List UInt8)
    (args : List Argument) (enough : argumentKinds false text <+: args.map Argument.kind) :
    StaysWithin text.length (printf convBuf (text ++ 0 :: stale) args) ↔ endsConverting false text = false := by
  have scanned := (scan_iff convBuf stale nonzero 0 args).1 enough
  rwa [Nat.zero_add] at scanned

/-- A number and a string are printed, and the terminator is the last byte that is read. -/
theorem printf_reads_format_message :
    StaysWithin 6 (printf (fun _ => 0) ([0x25, 0x23, 0x78, 0x20, 0x25, 0x73] ++ 0 :: [0x61])
      [.word 7, .string [0x61] (by decide)]) :=
  (printf_reads_format_iff (fun _ => 0) [0x25, 0x23, 0x78, 0x20, 0x25, 0x73] (by decide) [0x61]
    [.word 7, .string [0x61] (by decide)] (by decide)).mpr (by decide)

/-- A percent sign before the terminator makes `printf` print the byte behind it, and a number sign does as well. -/
theorem printf_reads_past_format :
    .putc 0x61 ∈ (printf (fun _ => 0) ([0x25] ++ 0 :: [0x61, 0]) []).accesses ∧
      (printf (fun _ => 0) ([0x25] ++ 0 :: [0x61, 0]) []).value = some 3 ∧
      ¬StaysWithin 1 (printf (fun _ => 0) ([0x25] ++ 0 :: [0x61, 0]) []) ∧
      ¬StaysWithin 2 (printf (fun _ => 0) ([0x25, 0x23] ++ 0 :: [0x61, 0]) []) := by
  refine ⟨by decide, by decide, fun stays => ?_, fun stays => ?_⟩
  · exact absurd stays.returns (by decide)
  · exact absurd stays.returns (by decide)

end OrcaOS
