import Dadao.Opcodes.ParseOpcodes

set_option relaxedAutoImplicit false
set_option autoImplicit false

/-!
# The instruction table `simrisc.opcodes`

The text of `DADAO-opcodes/simrisc.opcodes`, line by line, and the tables the generator makes of
it. The tables are computed by the generator's model, never transcribed.

## Main definitions

* `Dadao.Opcodes.simriscOpcodes` — the lines of the file.
* `Dadao.Opcodes.insts`, `Dadao.Opcodes.opcTable`, `Dadao.Opcodes.disassembleTable` — the
  dictionary of `read_opcodes`, the assembler's rows and the disassembler's rows.
-/

namespace Dadao.Opcodes

/-- The lines of `simrisc.opcodes`. -/
def simriscOpcodes : List String := [
    "# DADAO instructions opcodes\n",
    "\n",
    "#\n",
    "# Load Store Instructions\n",
    "#\n",
    "\n",
    "[ rrii\top:8\tha:6\thb:6\timms:12 ]\n",
    "& @mem\trd@ha rb@hb (ha!=000000)\n",
    "ldbs\t00110000\n",
    "ldws\t00110001\n",
    "ldts\t00110010\n",
    "ldo\t00110011\n",
    "ldbu\t01000000\n",
    "ldwu\t01000001\n",
    "ldtu\t01000010\n",
    "\n",
    "& @mem rd@ha rb@hb\n",
    "stb\t00111000\n",
    "stw\t00111001\n",
    "stt\t00111010\n",
    "sto\t00111011\n",
    "\n",
    "& @mem rb@ha rb@hb\n",
    "ldo\t01000011\t\t&& (ha!=000000)\n",
    "sto\t01001011\n",
    "\n",
    "& @mem rf@ha rb@hb\n",
    "ldt\t01010010\n",
    "ldo\t01010011\n",
    "stt\t01011010\n",
    "sto\t01011011\n",
    "\n",
    "[ rrri\top:8\tha:6\thb:6\thc:6\timmu:6 ]\n",
    "& @mem @reg rd@ha rb@hb rd@hc (ha!=000000) (ha+immu<111111)\n",
    "ldmbs\t00110100\n",
    "ldmws\t00110101\n",
    "ldmts\t00110110\n",
    "ldmo\t00110111\n",
    "ldmbu\t01000100\n",
    "ldmwu\t01000101\n",
    "ldmtu\t01000110\n",
    "\n",
    "& @mem @reg rd@ha rb@hb rd@hc (ha+immu<=111111)\n",
    "stmb\t00111100\n",
    "stmw\t00111101\n",
    "stmt\t00111110\n",
    "stmo\t00111111\n",
    "\n",
    "& @mem @reg rb@ha rb@hb rd@hc\n",
    "ldmo\t01000111\t\t&& (ha!=000000) (ha+immu<111111)\n",
    "stmo\t01001111\n",
    "\n",
    "& @mem @reg rf@ha rb@hb rd@hc (ha+immu<=111111)\n",
    "ldmt\t01010110\n",
    "ldmo\t01010111\n",
    "stmt\t01011110\n",
    "stmo\t01011111\n",
    "\n",
    "& @mem @reg ra@ha rb@hb rd@hc (ha+immu<=111111)\n",
    "ldmo\t01100111\n",
    "stmo\t01101111\n",
    "\n",
    "#\n",
    "# Register Assignment Instructions\n",
    "#\n",
    "\n",
    "[ orri\top:14\thb:6\thc:6\timmu:6 ]\n",
    "& @reg\n",
    "rd2rd\t00010000 101000\t\t&& rd@hb rd@hc\n",
    "rd2rb\t00010000 101001\t\t&& rb@hb rd@hc\n",
    "rb2rd\t00010000 101010\t\t&& rd@hb rb@hc\n",
    "rb2rb\t00010000 101011\t\t&& rb@hb rb@hc\n",
    "rd2rf\t00010000 110001\t\t&& rf@hb rd@hc\n",
    "rf2rd\t00010000 110010\t\t&& rd@hb rf@hc\n",
    "rf2rf\t00010000 110011\t\t&& rf@hb rf@hc\n",
    "rd2ra\t00010000 111001\t\t&& ra@hb rd@hc\n",
    "ra2rd\t00010000 111010\t\t&& rd@hb ra@hc\n",
    "\n",
    "[ orrr\top:14\thb:6\thc:6\thd:6 ]\n",
    "& rd@hb rf@hc rf@hd\n",
    "csp1\t00010000 110110\n",
    "csnp1\t00010000 110111\n",
    "\n",
    "[ rrrr\top:8\tha:6\thb:6\thc:6\thd:6 ]\n",
    "& rd@ha rd@hb rd@hc rd@hd\n",
    "csn\t00100000\n",
    "csz\t00100010\n",
    "csp\t00100100\n",
    "cseq\t00100110\n",
    "csne\t00100111\n",
    "\n",
    "& rd@ha rf@hb rf@hc rf@hd\n",
    "csn\t00100001\n",
    "csz\t00100011\n",
    "csp\t00100101\n",
    "\n",
    "[ rwii\top:8\tha:6\tww:2\timmu:16 ]\n",
    "& rd@ha (ha!=000000)\n",
    "orw\t00010100\n",
    "andnw\t00010101\n",
    "setzw\t00010110\n",
    "setow\t00010111\n",
    "\n",
    "& rb@ha (ha!=000000)\n",
    "orw\t01001100\n",
    "andnw\t01001101\n",
    "setzw\t01001110\n",
    "\n",
    "& rf@ha\n",
    "setw\t01010100\n",
    "\n",
    "#\n",
    "# Arithmetic Instructions\n",
    "#\n",
    "[ rrrr\top:8\tha:6\thb:6\thc:6\thd:6 ]\n",
    "& rd@ha rd@hb rd@hc rd@hd\n",
    "add\t00011010\n",
    "sub\t00011011\n",
    "muls\t00011100\n",
    "mulu\t00011101\n",
    "divs\t00011110\n",
    "divu\t00011111\n",
    "\n",
    "[ riii\top:8\tha:6\timms:18 ]\n",
    "& (ha!=000000)\n",
    "adrp\t01001000\t\t&& rb@ha\n",
    "\n",
    "[ rrii\top:8\tha:6\thb:6\timms:12 ]\n",
    "& (ha!=000000)\n",
    "addi    00011001                && rd@ha rd@hb\n",
    "addi    01001001                && rb@ha rb@hb\n",
    "cmps\t00010010\t\t&& rd@ha rd@hb\n",
    "\n",
    "[ rrii\top:8\tha:6\thb:6\timmu:12 ]\n",
    "andi\t00011000\t\t&& rd@ha rd@hb\n",
    "cmpu\t00010011\t\t&& rd@ha rd@hb\n",
    "\n",
    "[ orrr\top:14\thb:6\thc:6\thd:6 ]\n",
    "& (hb!=000000)\n",
    "add\t00010000 101110\t\t&& rb@hb rb@hc rd@hd\n",
    "sub\t00010000 101111\t\t&& rb@hb rb@hc rd@hd\n",
    "\n",
    "cmps\t00010000 100100\t\t&& rd@hb rd@hc rd@hd\n",
    "cmpu\t00010000 100101\t\t&& rd@hb rd@hc rd@hd\n",
    "cmp\t00010000 101101\t\t&& rd@hb rb@hc rb@hd\n",
    "\n",
    "& rd@hb rd@hc rd@hd (hb!=000000)\n",
    "and\t00010000 001000\n",
    "orr\t00010000 001001\n",
    "xor\t00010000 001010\n",
    "xnor\t00010000 001011\n",
    "\n",
    "shlu\t00010000 010001\n",
    "shrs\t00010000 010010\n",
    "shru\t00010000 010011\n",
    "exts\t00010000 010100\n",
    "extz\t00010000 010101\n",
    "\n",
    "[ orri\top:14\thb:6\thc:6\timmu:6 ]\n",
    "& rd@hb rd@hc (hb!=000000)\n",
    "shlu\t00010000 011001\n",
    "shrs\t00010000 011010\n",
    "shru\t00010000 011011\n",
    "exts\t00010000 011100\n",
    "extz\t00010000 011101\n",
    "\n",
    "#\n",
    "# Floating Point Instructions\n",
    "#\n",
    "[ orri\top:14\thb:6\thc:6\timmu:6 ]\n",
    "& @reg rd@hb rf@hc (hb!=000000)\n",
    "ftcls\t01010000 000000\n",
    "focls\t01010000 001000\n",
    "\n",
    "& @reg rf@hb rf@hc\n",
    "ft2fo\t01010000 000001\n",
    "fo2ft\t01010000 001001\n",
    "\n",
    "& @reg rd@hb rf@hc (hb!=000000)\n",
    "ft2it\t01010000 110000\n",
    "ft2io\t01010000 110001\n",
    "ft2ut\t01010000 110010\n",
    "ft2uo\t01010000 110011\n",
    "\n",
    "fo2it\t01010000 111000\n",
    "fo2io\t01010000 111001\n",
    "fo2ut\t01010000 111010\n",
    "fo2uo\t01010000 111011\n",
    "\n",
    "& @reg rf@hb rd@hc (hb!=000000)\n",
    "it2ft\t01010000 110100\n",
    "io2ft\t01010000 110101\n",
    "ut2ft\t01010000 110110\n",
    "uo2ft\t01010000 110111\n",
    "\n",
    "it2fo\t01010000 111100\n",
    "io2fo\t01010000 111101\n",
    "ut2fo\t01010000 111110\n",
    "uo2fo\t01010000 111111\n",
    "\n",
    "[ orri\top:14\thb:6\thc:6\timmu:6 ]\n",
    "& @reg rf@hb rf@hc\n",
    "ftroot\t01010000 000110\n",
    "foroot\t01010000 001110\n",
    "\n",
    "ftlog\t01010000 000111\n",
    "folog\t01010000 001111\n",
    "\n",
    "[ orrr\top:14\thb:6\thc:6\thd:6 ]\n",
    "& rf@hb rf@hc rf@hd\n",
    "ftadd\t01010000 010000\n",
    "ftsub\t01010000 010001\n",
    "ftmul\t01010000 010010\n",
    "ftdiv\t01010000 010011\n",
    "ftrem\t01010000 010100\n",
    "foadd\t01010000 011000\n",
    "fosub\t01010000 011001\n",
    "fomul\t01010000 011010\n",
    "fodiv\t01010000 011011\n",
    "forem\t01010000 011100\n",
    "\n",
    "ftsgnn\t01010000 010110\n",
    "ftsgnj\t01010000 010111\n",
    "fosgnn\t01010000 011110\n",
    "fosgnj\t01010000 011111\n",
    "\n",
    "[ orrr\top:14\thb:6\thc:6\thd:6 ]\n",
    "& rd@hb rf@hc rf@hd (hb!=000000)\n",
    "ftqcmp\t01010000 100000\n",
    "ftscmp\t01010000 100001\n",
    "\n",
    "foqcmp\t01010000 101000\n",
    "foscmp\t01010000 101001\n",
    "\n",
    "[ rrrr\top:8\tha:6\thb:6\thc:6\thd:6 ]\n",
    "& rf@ha rf@hb rf@hc rf@hd\n",
    "ftmadd\t01011000\n",
    "fomadd\t01011001\n",
    "\n",
    "#\n",
    "# Control Flow Instructions\n",
    "#\n",
    "[ oiii\top:14\timmu:18 ]\n",
    "swym\t00010000 000000\n",
    "unimp\t00010000 111111\n",
    "\n",
    "[ riii\top:8\tha:6\timms:18 ]\n",
    "& @jmp @bpd rd@ha\n",
    "brn\t00101000\n",
    "brnn\t00101001\n",
    "brz\t00101010\n",
    "brnz\t00101011\n",
    "brp\t00101100\n",
    "brnp\t00101101\n",
    "\n",
    "& @jmp @mem rd@ha\n",
    "ret\t01101110\n",
    "\n",
    "[ rrii\top:8\tha:6\thb:6\timms:12 ]\n",
    "& @jmp @bpd rd@ha rd@hb\n",
    "breq\t00101110\n",
    "brne\t00101111\n",
    "\n",
    "[ iiii\top:8\timms:24 ]\n",
    "& @jmp\n",
    "jump\t01100100\n",
    "call\t01101100\t\t&& @mem\n",
    "\n",
    "[ rrii\top:8\tha:6\thb:6\timms:12 ]\n",
    "& @jmp rb@ha rd@hb\n",
    "jump\t01100101\n",
    "call\t01101101\t\t&& @mem\n",
    "\n",
    "#\n",
    "# System Instructions\n",
    "#\n",
    "[ riii\top:8\tha:6\timmu:18 ]\n",
    "& @rmu cp@ha\n",
    "cpco\t01110001\n",
    "trap\t01110110\t\t&& @jmp\n",
    "escape\t01110111\t\t&& @jmp\n",
    "\n",
    "[ rrii\top:8\tha:6\thb:6\timmu:12 ]\n",
    "& @rmu cp@ha rb@hb\n",
    "cpld\t01110100\t\t&& @mem\n",
    "cpst\t01110101\t\t&& @mem\n",
    "\n",
    "[ rrrr\top:8\tha:6\thb:6\thc:6\thd:6 ]\n",
    "& @rmu cp@ha cr@hb cr@hc rd@hd\n",
    "cprd\t01110010\n",
    "cpwr\t01110011\n",
    "\n",
    "[ oiii\top:14\timmu:18 ]\n",
    "& @amo\n",
    "fence\t01110000 000000\n",
    "\n",
    "[ orrr\top:14\thb:6\thc:6\thd:6 ]\n",
    "& @amo rd@hb rd@hc rb@hd (hd!=000000)\n",
    "lro_nn\t01110000 100000 # (hb==000000)\n",
    "lro_nr\t01110000 100001 # (hb==000000)\n",
    "lro_an\t01110000 100010 # (hb==000000)\n",
    "lro_ar\t01110000 100011 # (hb==000000)\n",
    "sco_nn\t01110000 101000\t&& (hb!=000000)\n",
    "sco_nr\t01110000 101001\t&& (hb!=000000)\n",
    "sco_an\t01110000 101010\t&& (hb!=000000)\n",
    "sco_ar\t01110000 101011\t&& (hb!=000000)\n"]

/-- The dictionary `read_opcodes` builds from the file. -/
def insts : List Inst := (readOpcodes simriscOpcodes).getD []

/-- The rows of `dadao-insn.opc`. -/
def opcTable : List DadaoOpcode := (genOpcFile insts).getD []

/-- The rows of `dadao_disassemble_opcodes`. -/
def disassembleTable : List DadaoDisassemble := (genDisassembleFile insts).getD []

/-- The `MATCH_` macro of the encoding file. -/
def matchOf (name : String) : Option (BitVec 32) :=
  ((getUpperInstsDict insts).map genEncodingFile).bind fun l =>
    (l.lookup name).map Prod.fst

end Dadao.Opcodes
