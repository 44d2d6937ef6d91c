import Dadao.Opcodes.Simrisc

set_option relaxedAutoImplicit false
set_option autoImplicit false

/-!
# The rows of the table

The rows the generator makes of `simrisc.opcodes`, as data: what is checked about the table is checked on
these, without another run of the generator.

## Main definitions

* `Dadao.Opcodes.opcRows` — the rows.
-/

namespace Dadao.Opcodes

/-- The rows of `dadao-insn.opc`. -/
def opcRows : List DadaoOpcode := [
  ⟨"ldbs", 3, 48, 0, .rd, .rb, .imms12, .none, .dref⟩, ⟨"ldws", 3, 49, 0, .rd, .rb, .imms12, .none, .dref⟩,
  ⟨"ldts", 3, 50, 0, .rd, .rb, .imms12, .none, .dref⟩, ⟨"ldo", 3, 51, 0, .rd, .rb, .imms12, .none, .dref⟩,
  ⟨"ldbu", 3, 64, 0, .rd, .rb, .imms12, .none, .dref⟩, ⟨"ldwu", 3, 65, 0, .rd, .rb, .imms12, .none, .dref⟩,
  ⟨"ldtu", 3, 66, 0, .rd, .rb, .imms12, .none, .dref⟩, ⟨"stb", 3, 56, 0, .rd, .rb, .imms12, .none, .dref⟩,
  ⟨"stw", 3, 57, 0, .rd, .rb, .imms12, .none, .dref⟩, ⟨"stt", 3, 58, 0, .rd, .rb, .imms12, .none, .dref⟩,
  ⟨"sto", 3, 59, 0, .rd, .rb, .imms12, .none, .dref⟩, ⟨"ldo", 3, 67, 0, .rb, .rb, .imms12, .none, .dref⟩,
  ⟨"sto", 3, 75, 0, .rb, .rb, .imms12, .none, .dref⟩, ⟨"ldt", 3, 82, 0, .rf, .rb, .imms12, .none, .dref⟩,
  ⟨"ldo", 3, 83, 0, .rf, .rb, .imms12, .none, .dref⟩, ⟨"stt", 3, 90, 0, .rf, .rb, .imms12, .none, .dref⟩,
  ⟨"sto", 3, 91, 0, .rf, .rb, .imms12, .none, .dref⟩, ⟨"ldmbs", 4, 52, 0, .rd, .rb, .rd, .immu6, .dref⟩,
  ⟨"ldmws", 4, 53, 0, .rd, .rb, .rd, .immu6, .dref⟩, ⟨"ldmts", 4, 54, 0, .rd, .rb, .rd, .immu6, .dref⟩,
  ⟨"ldmo", 4, 55, 0, .rd, .rb, .rd, .immu6, .dref⟩, ⟨"ldmbu", 4, 68, 0, .rd, .rb, .rd, .immu6, .dref⟩,
  ⟨"ldmwu", 4, 69, 0, .rd, .rb, .rd, .immu6, .dref⟩, ⟨"ldmtu", 4, 70, 0, .rd, .rb, .rd, .immu6, .dref⟩,
  ⟨"stmb", 4, 60, 0, .rd, .rb, .rd, .immu6, .dref⟩, ⟨"stmw", 4, 61, 0, .rd, .rb, .rd, .immu6, .dref⟩,
  ⟨"stmt", 4, 62, 0, .rd, .rb, .rd, .immu6, .dref⟩, ⟨"stmo", 4, 63, 0, .rd, .rb, .rd, .immu6, .dref⟩,
  ⟨"ldmo", 4, 71, 0, .rb, .rb, .rd, .immu6, .dref⟩, ⟨"stmo", 4, 79, 0, .rb, .rb, .rd, .immu6, .dref⟩,
  ⟨"ldmt", 4, 86, 0, .rf, .rb, .rd, .immu6, .dref⟩, ⟨"ldmo", 4, 87, 0, .rf, .rb, .rd, .immu6, .dref⟩,
  ⟨"stmt", 4, 94, 0, .rf, .rb, .rd, .immu6, .dref⟩, ⟨"stmo", 4, 95, 0, .rf, .rb, .rd, .immu6, .dref⟩,
  ⟨"ldmo", 4, 103, 0, .ra, .rb, .rd, .immu6, .dref⟩, ⟨"stmo", 4, 111, 0, .ra, .rb, .rd, .immu6, .dref⟩,
  ⟨"rd2rd", 3, 16, 40, .op, .rd, .rd, .immu6, .normal⟩,
  ⟨"rd2rb", 3, 16, 41, .op, .rb, .rd, .immu6, .normal⟩,
  ⟨"rb2rd", 3, 16, 42, .op, .rd, .rb, .immu6, .normal⟩,
  ⟨"rb2rb", 3, 16, 43, .op, .rb, .rb, .immu6, .normal⟩,
  ⟨"rd2rf", 3, 16, 49, .op, .rf, .rd, .immu6, .normal⟩,
  ⟨"rf2rd", 3, 16, 50, .op, .rd, .rf, .immu6, .normal⟩,
  ⟨"rf2rf", 3, 16, 51, .op, .rf, .rf, .immu6, .normal⟩,
  ⟨"rd2ra", 3, 16, 57, .op, .ra, .rd, .immu6, .normal⟩,
  ⟨"ra2rd", 3, 16, 58, .op, .rd, .ra, .immu6, .normal⟩, ⟨"csp1", 3, 16, 54, .op, .rd, .rf, .rf, .normal⟩,
  ⟨"csnp1", 3, 16, 55, .op, .rd, .rf, .rf, .normal⟩, ⟨"csn", 4, 32, 0, .rd, .rd, .rd, .rd, .normal⟩,
  ⟨"csz", 4, 34, 0, .rd, .rd, .rd, .rd, .normal⟩, ⟨"csp", 4, 36, 0, .rd, .rd, .rd, .rd, .normal⟩,
  ⟨"cseq", 4, 38, 0, .rd, .rd, .rd, .rd, .normal⟩, ⟨"csne", 4, 39, 0, .rd, .rd, .rd, .rd, .normal⟩,
  ⟨"csn", 4, 33, 0, .rd, .rf, .rf, .rf, .normal⟩, ⟨"csz", 4, 35, 0, .rd, .rf, .rf, .rf, .normal⟩,
  ⟨"csp", 4, 37, 0, .rd, .rf, .rf, .rf, .normal⟩, ⟨"orw", 3, 20, 0, .rd, .ww, .immu16, .none, .normal⟩,
  ⟨"andnw", 3, 21, 0, .rd, .ww, .immu16, .none, .normal⟩,
  ⟨"setzw", 3, 22, 0, .rd, .ww, .immu16, .none, .normal⟩,
  ⟨"setow", 3, 23, 0, .rd, .ww, .immu16, .none, .normal⟩,
  ⟨"orw", 3, 76, 0, .rb, .ww, .immu16, .none, .normal⟩,
  ⟨"andnw", 3, 77, 0, .rb, .ww, .immu16, .none, .normal⟩,
  ⟨"setzw", 3, 78, 0, .rb, .ww, .immu16, .none, .normal⟩,
  ⟨"setw", 3, 84, 0, .rf, .ww, .immu16, .none, .normal⟩, ⟨"add", 4, 26, 0, .rd, .rd, .rd, .rd, .normal⟩,
  ⟨"sub", 4, 27, 0, .rd, .rd, .rd, .rd, .normal⟩, ⟨"muls", 4, 28, 0, .rd, .rd, .rd, .rd, .normal⟩,
  ⟨"mulu", 4, 29, 0, .rd, .rd, .rd, .rd, .normal⟩, ⟨"divs", 4, 30, 0, .rd, .rd, .rd, .rd, .normal⟩,
  ⟨"divu", 4, 31, 0, .rd, .rd, .rd, .rd, .normal⟩, ⟨"adrp", 2, 72, 0, .rb, .imms18, .none, .none, .normal⟩,
  ⟨"addi", 3, 25, 0, .rd, .rd, .imms12, .none, .normal⟩,
  ⟨"addi", 3, 73, 0, .rb, .rb, .imms12, .none, .normal⟩,
  ⟨"cmps", 3, 18, 0, .rd, .rd, .imms12, .none, .normal⟩,
  ⟨"andi", 3, 24, 0, .rd, .rd, .immu12, .none, .normal⟩,
  ⟨"cmpu", 3, 19, 0, .rd, .rd, .immu12, .none, .normal⟩, ⟨"add", 3, 16, 46, .op, .rb, .rb, .rd, .normal⟩,
  ⟨"sub", 3, 16, 47, .op, .rb, .rb, .rd, .normal⟩, ⟨"cmps", 3, 16, 36, .op, .rd, .rd, .rd, .normal⟩,
  ⟨"cmpu", 3, 16, 37, .op, .rd, .rd, .rd, .normal⟩, ⟨"cmp", 3, 16, 45, .op, .rd, .rb, .rb, .normal⟩,
  ⟨"and", 3, 16, 8, .op, .rd, .rd, .rd, .normal⟩, ⟨"orr", 3, 16, 9, .op, .rd, .rd, .rd, .normal⟩,
  ⟨"xor", 3, 16, 10, .op, .rd, .rd, .rd, .normal⟩, ⟨"xnor", 3, 16, 11, .op, .rd, .rd, .rd, .normal⟩,
  ⟨"shlu", 3, 16, 17, .op, .rd, .rd, .rd, .normal⟩, ⟨"shrs", 3, 16, 18, .op, .rd, .rd, .rd, .normal⟩,
  ⟨"shru", 3, 16, 19, .op, .rd, .rd, .rd, .normal⟩, ⟨"exts", 3, 16, 20, .op, .rd, .rd, .rd, .normal⟩,
  ⟨"extz", 3, 16, 21, .op, .rd, .rd, .rd, .normal⟩, ⟨"shlu", 3, 16, 25, .op, .rd, .rd, .immu6, .normal⟩,
  ⟨"shrs", 3, 16, 26, .op, .rd, .rd, .immu6, .normal⟩, ⟨"shru", 3, 16, 27, .op, .rd, .rd, .immu6, .normal⟩,
  ⟨"exts", 3, 16, 28, .op, .rd, .rd, .immu6, .normal⟩, ⟨"extz", 3, 16, 29, .op, .rd, .rd, .immu6, .normal⟩,
  ⟨"ftcls", 3, 80, 0, .op, .rd, .rf, .immu6, .normal⟩, ⟨"focls", 3, 80, 8, .op, .rd, .rf, .immu6, .normal⟩,
  ⟨"ft2fo", 3, 80, 1, .op, .rf, .rf, .immu6, .normal⟩, ⟨"fo2ft", 3, 80, 9, .op, .rf, .rf, .immu6, .normal⟩,
  ⟨"ft2it", 3, 80, 48, .op, .rd, .rf, .immu6, .normal⟩,
  ⟨"ft2io", 3, 80, 49, .op, .rd, .rf, .immu6, .normal⟩,
  ⟨"ft2ut", 3, 80, 50, .op, .rd, .rf, .immu6, .normal⟩,
  ⟨"ft2uo", 3, 80, 51, .op, .rd, .rf, .immu6, .normal⟩,
  ⟨"fo2it", 3, 80, 56, .op, .rd, .rf, .immu6, .normal⟩,
  ⟨"fo2io", 3, 80, 57, .op, .rd, .rf, .immu6, .normal⟩,
  ⟨"fo2ut", 3, 80, 58, .op, .rd, .rf, .immu6, .normal⟩,
  ⟨"fo2uo", 3, 80, 59, .op, .rd, .rf, .immu6, .normal⟩,
  ⟨"it2ft", 3, 80, 52, .op, .rf, .rd, .immu6, .normal⟩,
  ⟨"io2ft", 3, 80, 53, .op, .rf, .rd, .immu6, .normal⟩,
  ⟨"ut2ft", 3, 80, 54, .op, .rf, .rd, .immu6, .normal⟩,
  ⟨"uo2ft", 3, 80, 55, .op, .rf, .rd, .immu6, .normal⟩,
  ⟨"it2fo", 3, 80, 60, .op, .rf, .rd, .immu6, .normal⟩,
  ⟨"io2fo", 3, 80, 61, .op, .rf, .rd, .immu6, .normal⟩,
  ⟨"ut2fo", 3, 80, 62, .op, .rf, .rd, .immu6, .normal⟩,
  ⟨"uo2fo", 3, 80, 63, .op, .rf, .rd, .immu6, .normal⟩,
  ⟨"ftroot", 3, 80, 6, .op, .rf, .rf, .immu6, .normal⟩,
  ⟨"foroot", 3, 80, 14, .op, .rf, .rf, .immu6, .normal⟩,
  ⟨"ftlog", 3, 80, 7, .op, .rf, .rf, .immu6, .normal⟩,
  ⟨"folog", 3, 80, 15, .op, .rf, .rf, .immu6, .normal⟩, ⟨"ftadd", 3, 80, 16, .op, .rf, .rf, .rf, .normal⟩,
  ⟨"ftsub", 3, 80, 17, .op, .rf, .rf, .rf, .normal⟩, ⟨"ftmul", 3, 80, 18, .op, .rf, .rf, .rf, .normal⟩,
  ⟨"ftdiv", 3, 80, 19, .op, .rf, .rf, .rf, .normal⟩, ⟨"ftrem", 3, 80, 20, .op, .rf, .rf, .rf, .normal⟩,
  ⟨"foadd", 3, 80, 24, .op, .rf, .rf, .rf, .normal⟩, ⟨"fosub", 3, 80, 25, .op, .rf, .rf, .rf, .normal⟩,
  ⟨"fomul", 3, 80, 26, .op, .rf, .rf, .rf, .normal⟩, ⟨"fodiv", 3, 80, 27, .op, .rf, .rf, .rf, .normal⟩,
  ⟨"forem", 3, 80, 28, .op, .rf, .rf, .rf, .normal⟩, ⟨"ftsgnn", 3, 80, 22, .op, .rf, .rf, .rf, .normal⟩,
  ⟨"ftsgnj", 3, 80, 23, .op, .rf, .rf, .rf, .normal⟩, ⟨"fosgnn", 3, 80, 30, .op, .rf, .rf, .rf, .normal⟩,
  ⟨"fosgnj", 3, 80, 31, .op, .rf, .rf, .rf, .normal⟩, ⟨"ftqcmp", 3, 80, 32, .op, .rd, .rf, .rf, .normal⟩,
  ⟨"ftscmp", 3, 80, 33, .op, .rd, .rf, .rf, .normal⟩, ⟨"foqcmp", 3, 80, 40, .op, .rd, .rf, .rf, .normal⟩,
  ⟨"foscmp", 3, 80, 41, .op, .rd, .rf, .rf, .normal⟩, ⟨"ftmadd", 4, 88, 0, .rf, .rf, .rf, .rf, .normal⟩,
  ⟨"fomadd", 4, 89, 0, .rf, .rf, .rf, .rf, .normal⟩,
  ⟨"swym", 1, 16, 0, .op, .immu18, .none, .none, .normal⟩,
  ⟨"unimp", 1, 16, 63, .op, .immu18, .none, .none, .normal⟩,
  ⟨"brn", 2, 40, 0, .rd, .imms18, .none, .none, .condbranch⟩,
  ⟨"brnn", 2, 41, 0, .rd, .imms18, .none, .none, .condbranch⟩,
  ⟨"brz", 2, 42, 0, .rd, .imms18, .none, .none, .condbranch⟩,
  ⟨"brnz", 2, 43, 0, .rd, .imms18, .none, .none, .condbranch⟩,
  ⟨"brp", 2, 44, 0, .rd, .imms18, .none, .none, .condbranch⟩,
  ⟨"brnp", 2, 45, 0, .rd, .imms18, .none, .none, .condbranch⟩,
  ⟨"ret", 2, 110, 0, .rd, .imms18, .none, .none, .jsr⟩,
  ⟨"breq", 3, 46, 0, .rd, .rd, .imms12, .none, .condbranch12⟩,
  ⟨"brne", 3, 47, 0, .rd, .rd, .imms12, .none, .condbranch12⟩,
  ⟨"jump", 1, 100, 0, .imms24, .none, .none, .none, .branch⟩,
  ⟨"call", 1, 108, 0, .imms24, .none, .none, .none, .jsr⟩,
  ⟨"jump", 3, 101, 0, .rb, .rd, .imms12, .none, .branch⟩,
  ⟨"call", 3, 109, 0, .rb, .rd, .imms12, .none, .jsr⟩,
  ⟨"cpco", 2, 113, 0, .cp, .immu18, .none, .none, .normal⟩,
  ⟨"trap", 2, 118, 0, .cp, .immu18, .none, .none, .branch⟩,
  ⟨"escape", 2, 119, 0, .cp, .immu18, .none, .none, .branch⟩,
  ⟨"cpld", 3, 116, 0, .cp, .rb, .immu12, .none, .dref⟩,
  ⟨"cpst", 3, 117, 0, .cp, .rb, .immu12, .none, .dref⟩, ⟨"cprd", 4, 114, 0, .cp, .cr, .cr, .rd, .normal⟩,
  ⟨"cpwr", 4, 115, 0, .cp, .cr, .cr, .rd, .normal⟩,
  ⟨"fence", 1, 112, 0, .op, .immu18, .none, .none, .normal⟩,
  ⟨"lro_nn", 3, 112, 32, .op, .rd, .rd, .rb, .normal⟩, ⟨"lro_nr", 3, 112, 33, .op, .rd, .rd, .rb, .normal⟩,
  ⟨"lro_an", 3, 112, 34, .op, .rd, .rd, .rb, .normal⟩, ⟨"lro_ar", 3, 112, 35, .op, .rd, .rd, .rb, .normal⟩,
  ⟨"sco_nn", 3, 112, 40, .op, .rd, .rd, .rb, .normal⟩, ⟨"sco_nr", 3, 112, 41, .op, .rd, .rd, .rb, .normal⟩,
  ⟨"sco_an", 3, 112, 42, .op, .rd, .rd, .rb, .normal⟩, ⟨"sco_ar", 3, 112, 43, .op, .rd, .rd, .rb, .normal⟩]
end Dadao.Opcodes
