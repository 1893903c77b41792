/-!
The instruction set: every mnemonic a listing may use, grouped by the operands it takes.

The set is closed. Mnemonics that take the same operands form one family, so a decoded operation
can pair each family with exactly its operands.
-/

namespace Disassembly.Isa

/-- Arithmetic on two registers. -/
inductive Alu where
  | add | and | sub | xor | or | mul | sll | sra | srl | ror
  deriving DecidableEq, Repr

/-- Arithmetic on a register and an immediate. -/
inductive AluImmediate where
  | addi | andi | xori | ori | slli | srai | srli | rori
  deriving DecidableEq, Repr

/-- Control transfers whose target is part of the instruction. -/
inductive Branch where
  | bf | bnf | j | jal
  deriving DecidableEq, Repr

/-- Control transfers through a register. -/
inductive RegisterBranch where
  | jalr | jr
  deriving DecidableEq, Repr

inductive Load where
  | lbs | lbz | lhs | lhz | lwz
  deriving DecidableEq, Repr

inductive Store where
  | sb | sh | sw
  deriving DecidableEq, Repr

/-- Relations that set the condition flag; `u` compares unsigned and `s` signed values. -/
inductive Comparison where
  | eq | ne | gtu | geu | ltu | leu | gts | ges | lts | les
  deriving DecidableEq, Repr

/-- Instructions whose operand text is ignored. -/
inductive Bare where
  | nop | csync | msync | psync | rfe
  deriving DecidableEq, Repr

inductive Mnemonic where
  | alu (op : Alu)
  | aluImmediate (op : AluImmediate)
  | movhi
  | branch (op : Branch)
  | registerBranch (op : RegisterBranch)
  | load (op : Load)
  | store (op : Store)
  | mfspr
  | mtspr
  | compare (relation : Comparison)
  | compareImmediate (relation : Comparison)
  | bare (op : Bare)
  deriving DecidableEq, Repr

/-- How an instruction transfers control. Every such instruction has a delay slot. -/
inductive Control where
  | branch | jump | call | callRegister | jumpRegister
  deriving DecidableEq, Repr

def Control.hasImmediateTarget : Control → Bool
  | .branch | .jump | .call => true
  | .callRegister | .jumpRegister => false

/-- Width and signedness of a memory access. -/
inductive Access where
  | s8 | u8 | s16 | u16 | u32
  deriving DecidableEq, Repr

namespace Access

def name : Access → String
  | .s8 => "s8"
  | .u8 => "u8"
  | .s16 => "s16"
  | .u16 => "u16"
  | .u32 => "u32"

/-- The bits of a register that a store of this width writes. -/
def mask : Access → UInt32
  | .s8 | .u8 => 0xff
  | .s16 | .u16 => 0xffff
  | .u32 => 0xffffffff

end Access

def Load.access : Load → Access
  | .lbs => .s8
  | .lbz => .u8
  | .lhs => .s16
  | .lhz => .u16
  | .lwz => .u32

def Store.access : Store → Access
  | .sb => .u8
  | .sh => .u16
  | .sw => .u32

def Alu.all : List Alu :=
  [.add, .and, .sub, .xor, .or, .mul, .sll, .sra, .srl, .ror]

def AluImmediate.all : List AluImmediate :=
  [.addi, .andi, .xori, .ori, .slli, .srai, .srli, .rori]

def Branch.all : List Branch :=
  [.bf, .bnf, .j, .jal]

def RegisterBranch.all : List RegisterBranch :=
  [.jalr, .jr]

def Load.all : List Load :=
  [.lbs, .lbz, .lhs, .lhz, .lwz]

def Store.all : List Store :=
  [.sb, .sh, .sw]

def Comparison.all : List Comparison :=
  [.eq, .ne, .gtu, .geu, .ltu, .leu, .gts, .ges, .lts, .les]

def Bare.all : List Bare :=
  [.nop, .csync, .msync, .psync, .rfe]

def Alu.name : Alu → String
  | .add => "l.add"
  | .and => "l.and"
  | .sub => "l.sub"
  | .xor => "l.xor"
  | .or => "l.or"
  | .mul => "l.mul"
  | .sll => "l.sll"
  | .sra => "l.sra"
  | .srl => "l.srl"
  | .ror => "l.ror"

def AluImmediate.name : AluImmediate → String
  | .addi => "l.addi"
  | .andi => "l.andi"
  | .xori => "l.xori"
  | .ori => "l.ori"
  | .slli => "l.slli"
  | .srai => "l.srai"
  | .srli => "l.srli"
  | .rori => "l.rori"

def Branch.name : Branch → String
  | .bf => "l.bf"
  | .bnf => "l.bnf"
  | .j => "l.j"
  | .jal => "l.jal"

def RegisterBranch.name : RegisterBranch → String
  | .jalr => "l.jalr"
  | .jr => "l.jr"

def Load.name : Load → String
  | .lbs => "l.lbs"
  | .lbz => "l.lbz"
  | .lhs => "l.lhs"
  | .lhz => "l.lhz"
  | .lwz => "l.lwz"

def Store.name : Store → String
  | .sb => "l.sb"
  | .sh => "l.sh"
  | .sw => "l.sw"

/-- Name of the comparison of two registers. -/
def Comparison.name : Comparison → String
  | .eq => "l.sfeq"
  | .ne => "l.sfne"
  | .gtu => "l.sfgtu"
  | .geu => "l.sfgeu"
  | .ltu => "l.sfltu"
  | .leu => "l.sfleu"
  | .gts => "l.sfgts"
  | .ges => "l.sfges"
  | .lts => "l.sflts"
  | .les => "l.sfles"

def Bare.name : Bare → String
  | .nop => "l.nop"
  | .csync => "l.csync"
  | .msync => "l.msync"
  | .psync => "l.psync"
  | .rfe => "l.rfe"

namespace Mnemonic

/-- Every mnemonic, family by family. -/
def all : List Mnemonic :=
  Alu.all.map .alu ++ AluImmediate.all.map .aluImmediate ++ [.movhi] ++ Branch.all.map .branch ++
    RegisterBranch.all.map .registerBranch ++ Load.all.map .load ++ Store.all.map .store ++
    [.mfspr, .mtspr] ++ Comparison.all.map .compare ++ Comparison.all.map .compareImmediate ++
    Bare.all.map .bare

/-- The listing spelling. -/
def name : Mnemonic → String
  | .alu op => op.name
  | .aluImmediate op => op.name
  | .movhi => "l.movhi"
  | .branch op => op.name
  | .registerBranch op => op.name
  | .load op => op.name
  | .store op => op.name
  | .mfspr => "l.mfspr"
  | .mtspr => "l.mtspr"
  | .compare relation => relation.name
  | .compareImmediate relation => relation.name ++ "i"
  | .bare op => op.name

def ofName? (name : String) : Option Mnemonic :=
  all.find? (·.name == name)

/-- Number of comma-separated operands. -/
def arity : Mnemonic → Nat
  | .alu _ | .aluImmediate _ | .mfspr | .mtspr => 3
  | .movhi | .load _ | .store _ | .compare _ | .compareImmediate _ => 2
  | .branch _ | .registerBranch _ => 1
  | .bare _ => 0

def control? : Mnemonic → Option Control
  | .branch .bf | .branch .bnf => some .branch
  | .branch .j => some .jump
  | .branch .jal => some .call
  | .registerBranch .jalr => some .callRegister
  | .registerBranch .jr => some .jumpRegister
  | _ => none

def isControl (m : Mnemonic) : Bool :=
  m.control?.isSome

def isNop (m : Mnemonic) : Bool :=
  m = .bare .nop

def access? : Mnemonic → Option Access
  | .load op => some op.access
  | .store op => some op.access
  | _ => none

end Mnemonic

end Disassembly.Isa
