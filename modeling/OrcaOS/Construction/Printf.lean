import OrcaOS.Construction.Screen
import OrcaOS.Foundation.Traced

/-!
The strings, the numbers and the formatted output of `lib.c`.
-/

namespace OrcaOS
open Foundation

/-- This function gives the buffer behind the first bytes, as the address of one of its bytes does. -/
def pointerTo (buf : Buffer) (index : Nat) : Buffer := fun offset => buf (index + offset)

/-- Only the `size` bytes of the object that holds the string may be read. -/
def strlenFrom (s : Buffer) : (size len : Nat) → Option Nat
  | 0, _ => none
  | size + 1, len => if s len ≠ 0 then strlenFrom s size (len + 1) else some len

def strlen (s : Buffer) (size : Nat) : Option Nat := strlenFrom s size 0

/-- The two ends are exchanged until they meet. -/
def strrevFrom : (beg last : Nat) → Buffer → Buffer
  | _, 0, s => s
  | beg, last + 1, s =>
      if beg < last + 1 then
        strrevFrom (beg + 1) last (Function.update (Function.update s (last + 1) (s beg)) beg (s (last + 1)))
      else s

def strrev (s : Buffer) (size : Nat) : Option Buffer := (strlen s size).map fun len => strrevFrom 0 (len - 1) s

/-- The digits and the terminator of the literal. -/
def lookup : List UInt8 := [
  0x30, 0x31, 0x32, 0x33, 0x34, 0x35, 0x36, 0x37, 0x38, 0x39, 0x41, 0x42, 0x43, 0x44, 0x45, 0x46, 0x47, 0x48,
  0x49, 0x4A, 0x4B, 0x4C, 0x4D, 0x4E, 0x4F, 0x50, 0x51, 0x52, 0x53, 0x54, 0x55, 0x56, 0x57, 0x58, 0x59, 0x5A, 0]

/-- The digits are stored from the lowest on. A word has no more than 32 of them, so a longer loop never ends. -/
def itoaDigits (radix : Nat) : (turns newval position : Nat) → Buffer → Option (Nat × Buffer)
  | 0, newval, position, buf => if newval = 0 then some (position, buf) else none
  | turns + 1, newval, position, buf =>
      if newval = 0 then some (position, buf)
      else if radix = 0 then none
      else lookup[newval % radix]?.bind fun digit =>
        itoaDigits radix turns (newval / radix) (position + 1) (Function.update buf position digit)

def itoa (value : UInt32) (buf : Buffer) (radix : Nat) : Option Buffer :=
  if value = 0 then some (Function.update (Function.update buf 0 0x30) 1 0)
  else (itoaDigits radix 32 value.toNat 0 buf).bind fun (last, buf) => strrev (Function.update buf last 0) 33

/-- What can be observed of an output function. -/
inductive PrintEvent where
  | readFormat (index : Nat)
  | putc (character : UInt8)
  deriving DecidableEq, Repr

def putc (character : UInt8) : Traced PrintEvent Unit := .access (.putc character) ()

def putsFrom (s : Buffer) : (size index : Nat) → Traced PrintEvent (Option Nat)
  | 0, _ => pure none
  | size + 1, index =>
      if s index ≠ 0 then do
        putc (s index)
        putsFrom s size (index + 1)
      else pure (some index)

/-- The result is the number of characters. -/
def puts (s : Buffer) (size : Nat) : Traced PrintEvent (Option Nat) := putsFrom s size 0

/-- An argument on the stack: a word, or a pointer to the characters before a terminator. -/
inductive Argument where
  | word (value : UInt32)
  | string (characters : List UInt8) (terminated : 0 ∉ characters)

/-- The alternate form is padded with zeros from the length of the number up to its start in the eighth byte. -/
def convertHex (convBuf : Buffer) (alternate : Bool) (value : UInt32) : Option Buffer :=
  if alternate then
    (itoa value (pointerTo convBuf 8) 16).bind fun number => (strlen number 56).map fun startingIndex =>
      let convBuf : Memory := Memory.overlay convBuf 8 56 number
      pointerTo (convBuf.fill startingIndex (8 - startingIndex) 0x30) startingIndex
  else itoa value convBuf 16

/-- A negative number is printed as a minus sign and its negation, which wraps around for the least one. -/
def convertSigned (convBuf : Buffer) (value : UInt32) : Option Buffer :=
  if value.toInt32 < 0 then
    let convBuf := Function.update convBuf 0 0x2D
    (itoa (-value) (pointerTo convBuf 1) 10).map fun number => Memory.overlay convBuf 1 35 number
  else itoa value convBuf 10

/-- This function prints a converted number and drops its argument. -/
def putsConverted (converted : Option Buffer) (size : Nat) (rest : List Argument) :
    Traced PrintEvent (Option (List Argument)) :=
  match converted with
  | none => pure none
  | some s => do
      let printed ← puts s size
      pure (printed.map fun _ => rest)

/-- The conversion of one character behind a percent sign; the result is the list of arguments that are left.
The local arrays are not initialized, so `convBuf` holds anything. -/
def convert (convBuf : Buffer) (character : UInt8) (alternate : Bool) (args : List Argument) :
    Traced PrintEvent (Option (List Argument)) :=
  if character = 0x25 then do
    putc 0x25
    pure (some args)
  else if character = 0x78 then
    match args with
    | .word value :: rest => putsConverted (convertHex convBuf alternate value) 64 rest
    | _ => pure none
  else if character = 0x75 then
    match args with
    | .word value :: rest => putsConverted (itoa value convBuf 10) 36 rest
    | _ => pure none
  else if character = 0x64 then
    match args with
    | .word value :: rest => putsConverted (convertSigned convBuf value) 36 rest
    | _ => pure none
  else if character = 0x63 then
    match args with
    | .word value :: rest => do
        putc value.toUInt8
        pure (some rest)
    | _ => pure none
  else if character = 0x73 then
    match args with
    | .string characters _ :: rest => putsConverted (some (cString characters)) (characters.length + 1) rest
    | _ => pure none
  else pure (some args)

mutual

/-- The outer loop. The list holds the bytes from the pointer on that may be read, and `index` is the distance of
the pointer from the start of the format. -/
def printfLoop (convBuf : Buffer) : (format : List UInt8) → (index : Nat) → (args : List Argument) →
    Traced PrintEvent (Option Nat)
  | [], _, _ => pure none
  | character :: format, index, args => do
      Traced.access (.readFormat index) ()
      if character = 0 then pure (some index)
      else if character = 0x25 then formatCharSwitch convBuf format (index + 1) args false
      else do
        putc character
        printfLoop convBuf format (index + 1) args

/-- The switch behind a percent sign, to which the alternate form goes back. -/
def formatCharSwitch (convBuf : Buffer) : (format : List UInt8) → (index : Nat) → (args : List Argument) →
    (alternate : Bool) → Traced PrintEvent (Option Nat)
  | [], _, _, _ => pure none
  | character :: format, index, args, alternate => do
      Traced.access (.readFormat index) ()
      if character = 0x23 then formatCharSwitch convBuf format (index + 1) args true
      else do
        let left ← convert convBuf character alternate args
        match left with
        | none => pure none
        | some args => printfLoop convBuf format (index + 1) args

end

def printf (convBuf : Buffer) (format : List UInt8) (args : List Argument) : Traced PrintEvent (Option Nat) :=
  printfLoop convBuf format 0 args

/-- The characters that are printed, in their order. -/
def printedCharacters {α : Type} (run : Traced PrintEvent α) : List UInt8 :=
  run.accesses.filterMap fun
    | .putc character => some character
    | .readFormat _ => none

/-- Every printed character goes to the screen. -/
def Console.print {α : Type} (c : Console) (run : Traced PrintEvent α) : Console :=
  (printedCharacters run).foldl Console.putc c

end OrcaOS
