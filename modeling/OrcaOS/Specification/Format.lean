import OrcaOS.Specification.Numerals

/-!
Which arguments a format takes, what it prints for them, and where its conversions end.
-/

namespace OrcaOS
open Foundation

/-- The value of an argument is a word or a pointer to a string. -/
inductive ArgumentKind where
  | word | string
  deriving DecidableEq, Repr

def Argument.kind : Argument → ArgumentKind
  | .word _ => .word
  | .string _ _ => .string

/-- The argument that a conversion character takes. -/
def conversionKinds (character : UInt8) : List ArgumentKind :=
  if character ∈ [0x78, 0x75, 0x64, 0x63] then [.word] else if character = 0x73 then [.string] else []

/-- The arguments that a format takes, where `converting` says that its start belongs to a conversion. -/
def argumentKinds : (converting : Bool) → List UInt8 → List ArgumentKind
  | _, [] => []
  | false, character :: format => argumentKinds (character = 0x25) format
  | true, character :: format =>
      if character = 0x23 then argumentKinds true format else conversionKinds character ++ argumentKinds false format

/-- The text of a word behind one of the characters that take one. -/
def wordText (character : UInt8) (alternate : Bool) (value : UInt32) : List UInt8 :=
  if character = 0x78 then if alternate then paddedText 16 8 value.toNat else numeralText 16 value.toNat
  else if character = 0x75 then numeralText 10 value.toNat
  else if character = 0x64 then signedText value.toInt32.toInt
  else [value.toUInt8]

/-- The text that a conversion prints, and the arguments that it leaves. An argument of the wrong kind gives none. -/
def conversionText (character : UInt8) (alternate : Bool) (args : List Argument) : Option (List UInt8 × List Argument) :=
  if character ∈ [0x78, 0x75, 0x64, 0x63] then
    match args with
    | .word value :: rest => some (wordText character alternate value, rest)
    | _ => none
  else if character = 0x73 then
    match args with
    | .string characters _ :: rest => some (characters, rest)
    | _ => none
  else some (if character = 0x25 then [0x25] else [], args)

/-- The text that a format prints up to the terminator that the loop finds. Inside a conversion the first argument
says whether a number sign stood there. -/
def formattedText : Option Bool → List UInt8 → List Argument → List UInt8
  | _, [], _ => []
  | none, character :: format, args =>
      if character = 0 then []
      else if character = 0x25 then formattedText (some false) format args
      else character :: formattedText none format args
  | some alternate, character :: format, args =>
      if character = 0x23 then formattedText (some true) format args
      else (conversionText character alternate args).elim [] fun (text, rest) => text ++ formattedText none format rest

/-- A percent sign starts a conversion, and every character but a number sign ends it. -/
def endsConverting (converting : Bool) (format : List UInt8) : Bool :=
  format.foldl (fun converting character => if converting then character = 0x23 else character = 0x25) converting

/-- The function returns the limit and reads no byte of the format behind it. -/
structure StaysWithin (limit : Nat) (run : Traced PrintEvent (Option Nat)) : Prop where
  returns : run.value = some limit
  reads : ∀ index, .readFormat index ∈ run.accesses → index ≤ limit

end OrcaOS
