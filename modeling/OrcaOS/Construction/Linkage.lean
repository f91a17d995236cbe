import OrcaOS.Foundation.Processor

/-!
The assembly code of `system_callASM.S`, `interruptASM.S` and `schedulingASM.S`, line by line.
-/

namespace OrcaOS
open Foundation

/-- The system calls in the order of their numbers, which start at one. -/
inductive SystemCall where
  | halt | execute | read | write | open | close | getargs | vidmap | setHandler | sigreturn
  deriving DecidableEq, Repr

namespace SystemCall

def all : List SystemCall :=
  [halt, execute, read, write, .open, close, getargs, vidmap, setHandler, sigreturn]

def number (call : SystemCall) : Nat := all.idxOf call + 1

/-- The number of words that the prototype in `system_call.h` declares. -/
def arity : SystemCall → Nat
  | halt | execute | .open | close | vidmap => 1
  | read | write => 3
  | getargs | setHandler => 2
  | sigreturn => 0

end SystemCall

/-- The addresses that the assembler and the linker choose. -/
structure Labels where
  systemCallLinkage : Word
  invalidEax : Word
  systemCallTable : Word
  validHalt : Word
  continueExecute : Word
  /-- The entry of the wrapper of each call, such as `system_halt`. -/
  wrapper : SystemCall → Word
  /-- The entry of the C function of each call, such as `sys_halt`. -/
  function : SystemCall → Word
  restoreEsp : Word
  saveEsp : Word
  checkProcessNum : Word
  startFirstShell : Word
  keyboardLinkage : Word
  keyboardHandler : Word
  rtcLinkage : Word
  rtcHandler : Word
  pitLinkage : Word
  pitHandler : Word
  saveRegistersEsp : Word
  restoreRegisterEsp : Word

def userDs : Word := 0x002B
def userCs : Word := 0x0023
def kernelCs : BitVec 16 := 0x0010
def userStack : Word := 0x083FFFFC

namespace Assembly
variable (labels : Labels)

def systemCallLinkage : List Line := [
  .op (.setFlag .interrupt false),
  .op (.compare .subtract (.immediate 0) .eax),
  .go (.jumpIf .lessOrEqual labels.invalidEax),
  .op (.compare .subtract (.immediate 10) .eax),
  .go (.jumpIf .greater labels.invalidEax),
  .op (.push (.register .ebp)),
  .op (.move (.register .esp) .ebp),
  .op (.push (.register .edi)),
  .op (.push (.register .esi)),
  .op (.push (.register .edx)),
  .op (.push (.register .ecx)),
  .op (.push (.register .ebx)),
  .go (.callIndirect (labels.systemCallTable - 4) .eax),
  .op (.pop .ebx),
  .op (.pop .ecx),
  .op (.pop .edx),
  .op (.pop .esi),
  .op (.pop .edi),
  .op (.pop .ebp),
  .op (.setFlag .interrupt true),
  .go .interruptReturn]

def invalidEax : List Line := [
  .op (.move (.immediate (-1)) .eax),
  .op (.setFlag .interrupt true),
  .go .interruptReturn]

/-- The halt wrapper up to the label `valid_halt`. -/
def systemHalt : List Line := [
  .op (.pop .edi),
  .go (.call labels.restoreEsp),
  .op (.move (.register .eax) .esp),
  .go (.call labels.checkProcessNum),
  .op (.compare .subtract (.immediate 3) .eax),
  .go (.jumpIf .greater labels.validHalt),
  .go (.call labels.startFirstShell)]

def validHalt : List Line := [
  .go (.call (labels.function .halt)),
  .op (.arithmetic .exclusive (.register .eax) .eax),
  .op (.moveLowByte .ebx .eax),
  .go (.jumpRegister .edi)]

/-- The execute wrapper up to the label `continue_execute`. -/
def systemExecute : List Line := [
  .op (.setFlag .interrupt true),
  .op (.pop .edi),
  .go (.call (labels.function .execute)),
  .op (.compare .subtract (.immediate (-1)) .eax),
  .go (.jumpIf .notEqual labels.continueExecute),
  .go (.jumpRegister .edi)]

def continueExecute : List Line := [
  .op (.push (.register .eax)),
  .op (.push (.register .esp)),
  .go (.call labels.saveEsp),
  .op (.pop .esp),
  .op (.pop .eax),
  .op (.push (.immediate userDs)),
  .op (.push (.immediate userStack)),
  .op .pushFlags,
  .op (.push (.immediate userCs)),
  .op (.push (.register .eax)),
  .op (.moveLowWord (userDs.setWidth 16) .ecx),
  .op (.writeSelector .ecx .ds),
  .op (.setFlag .interrupt true),
  .go .interruptReturn]

/-- Most wrappers call their function with the stack of the linkage as its arguments. -/
def plainWrapper (call : SystemCall) : List Line := [
  .op (.pop .edi),
  .go (.call (labels.function call)),
  .go (.jumpRegister .edi)]

def systemRead : List Line := .op (.setFlag .interrupt false) :: plainWrapper labels .read

def systemWrite : List Line := [
  .op (.setFlag .interrupt false),
  .op (.pop .edi),
  .go (.call (labels.function .write)),
  .op (.setFlag .interrupt true),
  .go (.jumpRegister .edi)]

def systemOpen : List Line := plainWrapper labels .open
def systemClose : List Line := plainWrapper labels .close
def systemGetargs : List Line := plainWrapper labels .getargs
def systemVidmap : List Line := plainWrapper labels .vidmap
def systemSetHandler : List Line := plainWrapper labels .setHandler
def systemSigreturn : List Line := plainWrapper labels .sigreturn

def wrapper : SystemCall → List Line
  | .halt => systemHalt labels
  | .execute => systemExecute labels
  | .read => systemRead labels
  | .write => systemWrite labels
  | .open => systemOpen labels
  | .close => systemClose labels
  | .getargs => systemGetargs labels
  | .vidmap => systemVidmap labels
  | .setHandler => systemSetHandler labels
  | .sigreturn => systemSigreturn labels

/-- The macro `INTR_LINK` gives every exception and device interrupt this code. -/
def interruptLink (handler : Word) : List Line := [
  .op .pushFlags,
  .op .pushAll,
  .go (.call handler),
  .op .popAll,
  .op .popFlags,
  .go .interruptReturn]

def pitLinkage : List Line := [
  .op (.setFlag .interrupt false),
  .op (.push (.register .ebp)),
  .op (.push (.register .edi)),
  .op (.push (.register .esi)),
  .op (.push (.register .edx)),
  .op (.push (.register .ecx)),
  .op (.push (.register .ebx)),
  .op .pushFlags,
  .op (.push (.register .esp)),
  .go (.call labels.saveRegistersEsp),
  .op (.arithmetic .add (.immediate 4) .esp),
  .go (.call labels.pitHandler),
  .go (.call labels.restoreRegisterEsp),
  .op (.move (.register .eax) .esp),
  .op .popFlags,
  .op (.pop .ebx),
  .op (.pop .ecx),
  .op (.pop .edx),
  .op (.pop .esi),
  .op (.pop .edi),
  .op (.pop .ebp),
  .op (.setFlag .interrupt true),
  .go .interruptReturn]

end Assembly

/-- Where the wrapper of a call ends: `system_halt` and `system_execute` go on with a label. -/
def Labels.wrapperEnd (labels : Labels) (call : SystemCall) (finish : Word) : Prop :=
  match call with
  | .halt => finish = labels.validHalt
  | .execute => finish = labels.continueExecute
  | _ => True

/-- The code holds the assembled system calls and device interrupts. -/
structure Linked {World : Type} (code : Code World) (labels : Labels) : Prop where
  linkage : Placed code labels.systemCallLinkage (Assembly.systemCallLinkage labels) labels.invalidEax
  invalidEax : ∃ finish, Placed code labels.invalidEax Assembly.invalidEax finish
  table : ∀ call : SystemCall,
    code.constant (labels.systemCallTable - 4 + 4 * BitVec.ofNat 32 call.number) = labels.wrapper call
  wrapper : ∀ call, ∃ finish, labels.wrapperEnd call finish ∧
    Placed code (labels.wrapper call) (Assembly.wrapper labels call) finish
  validHalt : ∃ finish, Placed code labels.validHalt (Assembly.validHalt labels) finish
  continueExecute : ∃ finish, Placed code labels.continueExecute (Assembly.continueExecute labels) finish
  keyboard : ∃ finish, Placed code labels.keyboardLinkage (Assembly.interruptLink labels.keyboardHandler) finish
  rtc : ∃ finish, Placed code labels.rtcLinkage (Assembly.interruptLink labels.rtcHandler) finish
  pit : ∃ finish, Placed code labels.pitLinkage (Assembly.pitLinkage labels) finish

end OrcaOS
