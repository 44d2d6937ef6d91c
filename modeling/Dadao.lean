import Dadao.Lib.Bits
import Dadao.Lib.Bytes
import Dadao.Lib.Clocked
import Dadao.Lib.Loop
import Dadao.Lib.Memory
import Dadao.Lib.Tcg
import Dadao.Lib.Thread
import Dadao.Opcodes.ParseOpcodes
import Dadao.Opcodes.Simrisc
import Dadao.Gas.Assemble
import Dadao.Gas.Disassemble
import Dadao.Gas.Layout
import Dadao.Gas.Printed
import Dadao.Gas.RoundTrip
import Dadao.Qemu.Translate
import Dadao.Qemu.Atomic
import Dadao.Qemu.Multiple
import Dadao.Qemu.ReturnStack
import Dadao.Qemu.Safety
import Dadao.Qemu.Sequence
import Dadao.Bfd.PcRelative
import Dadao.Bfd.Reloc
import Dadao.Bfd.FillAbs
import Dadao.Bfd.SetSymbol
import Dadao.Wuming.Scratchpad
import Dadao.Wuming.MasterAdapter
import Dadao.Wuming.Instructions
import Dadao.Wuming.Stage1
import Dadao.Wuming.CallStack
import Dadao.Wuming.Stage1Stack
import Dadao.Wuming.Stage1Timing
import Dadao.Wuming.Stage5
import Dadao.Wuming.Stage5Stack
import Dadao.Wuming.Stage5Hazard
import Dadao.Wuming.Stage5Order
import Dadao.Wuming.Stage5Fetch
import Dadao.Wuming.Stage5Precise
import Dadao.Wuming.Stage1Single
import Dadao.Wuming.Stage5Single
import Dadao.Wuming.Cores
import Dadao.Qemu.Execute
import Dadao.Wuming.SimulatorInsn
import Dadao.Wuming.SimulatorState
import Dadao.Wuming.Simulator
import Dadao.Wuming.Stage5Program
import Dadao.Wuming.Stage5Progress
import Dadao.Wuming.CoresProgram
import Dadao.Llvm.Lowering
import Dadao.Opcodes.Dasm
import Dadao.Gas.DasmAgree
import Dadao.Opcodes.UpperDict
import Dadao.Opcodes.Artefacts
import Dadao.Lib.Fields
import Dadao.Llvm.InstrInfo
import Dadao.Llvm.CodeEmitter
import Dadao.Llvm.Disassembler
import Dadao.Bfd.FinalLink
import Dadao.Llvm.ObjectWriter
import Dadao.Gas.Relocate
import Dadao.Lib.Trace
import Dadao.Qemu.Effects
import Dadao.Qemu.SpecialRegs
import Dadao.Qemu.Restart
import Dadao.Qemu.Blocks
import Dadao.Gas.SetImm
import Dadao.Linux.PageTable
import Dadao.Lib.Radix
import Dadao.Lib.Naming
import Dadao.Llvm.Registers
import Dadao.Lib.Object
import Dadao.Linux.Atomic64
import Dadao.Qemu.View
import Dadao.Qemu.Insns
import Dadao.Gcc.Statements
import Dadao.Gcc.Instructions
import Dadao.Gcc.Rtl
import Dadao.Gcc.IntInsns
import Dadao.Gcc.IntCorrect
import Dadao.Gcc.Branches
import Dadao.Lib.Banks
import Dadao.Llvm.CallingConv
import Dadao.Lib.Moves
import Dadao.Qemu.Reads
import Dadao.Qemu.BlockMove
import Dadao.Lib.Integers
import Dadao.Qemu.Integer
import Dadao.Lib.HostOps
import Dadao.Qemu.HostOps
import Dadao.Opcodes.Rows
import Dadao.Gas.AddrOffset
import Dadao.Qemu.Several
import Dadao.Qemu.Singles
import Dadao.Qemu.SameResult
import Dadao.Gas.Multiple
import Dadao.Lib.Cut
import Dadao.Bfd.DeleteBytes
import Dadao.Bfd.Relax
import Dadao.Llvm.ShiftParts
import Dadao.Linux.Pte
import Dadao.Llvm.AsmBackend
import Dadao.Llvm.Constants
import Dadao.Llvm.Words
import Dadao.Llvm.Immediates
import Dadao.Llvm.Memory
import Dadao.Llvm.Addresses
import Dadao.Llvm.FrameLowering
import Dadao.Llvm.FrameIndex
import Dadao.Llvm.BranchAnalysis
import Dadao.Qemu.Calls
import Dadao.Gcc.Transfers
import Dadao.Lib.KnownBits
import Dadao.Llvm.KnownBits
import Dadao.Gas.Search
import Dadao.Gas.Operands
import Dadao.Gcc.Frame
import Dadao.Gas.Accepts
import Dadao.Wuming.Stage1Access
import Dadao.Opcodes.Keys
import Dadao.Gas.Generated
import Dadao.Wuming.Stage5Progress
import Dadao.Wuming.CoresProgram
import Dadao.Newlib.Setjmp
