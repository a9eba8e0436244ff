import GrpcCore.Hpack.BinEncoder
import GrpcCore.Lib.PrefixTree

/-!
# The Huffman decoder with tables

The branch of `ParseHuff` without the experiment `new_hpack_huffman_decoder`: an automaton that
takes half a byte at a time. Its 256 states are the inner nodes of the tree of the 257 codes;
`huffTree` has the number of the state at each of them. Every row of the tables does what the walk
in the tree does (`huffTree_checked`), and less than a byte of ones, with which the encoder fills up
its output, never reaches a leaf.

An index outside a table and a failing assertion are `none`.
-/

namespace GrpcCore

open List Option Bits PrefixTree

/-! ## Tables -/

namespace ParseHuff

/-- `next_tbl`, in rows of 16. -/
def nextRows : List (List Nat) :=
  [[0,1,2,3,4,1,2,5,6,1,7,8,1,3,3,9],
   [10,11,1,1,1,12,1,2,13,1,1,1,1,1,1,1],
   [1,1,1,1,1,1,1,2,14,1,15,16,1,17,1,15],
   [2,7,3,18,19,1,1,1,1,20,1,1,1,1,1,1],
   [1,1,1,1,15,2,2,7,21,1,22,1,1,1,1,1],
   [1,1,1,15,2,2,2,2,2,2,23,24,25,1,1,1],
   [1,2,2,2,26,3,3,27,10,28,1,1,1,1,1,1],
   [2,3,29,10,30,1,1,1,1,1,1,1,1,1,1,1],
   [1,1,1,31,1,1,1,1,1,1,1,2,2,2,2,2],
   [2,2,2,32,1,1,15,33,1,34,35,9,36,1,1,1],
   [1,1,1,1,37,1,1,1,1,1,1,2,2,2,2,2],
   [2,2,26,9,38,1,1,1,1,1,1,1,15,2,2,2],
   [2,26,3,3,39,1,1,1,1,1,1,1,1,1,1,1],
   [2,2,2,2,2,2,7,3,3,3,40,2,41,1,1,1],
   [42,43,1,1,44,1,1,1,1,15,2,2,2,2,2,2],
   [3,3,3,45,46,1,1,2,2,2,35,3,3,18,47,2]]

def nextTbl : List Nat := nextRows.flatten

/-- `next_sub_tbl`, in rows of 16. -/
def nextSubRows : List (List Nat) :=
  [[1,204,205,206,207,208,209,210,211,212,213,214,215,216,217,218],
   [2,6,10,13,14,15,16,17,2,6,10,13,14,15,16,17],
   [3,7,11,24,3,7,11,24,3,7,11,24,3,7,11,24],
   [4,8,4,8,4,8,4,8,4,8,4,8,4,8,4,8],
   [0,0,0,0,0,0,0,0,0,0,5,199,200,201,202,203],
   [4,8,4,8,0,0,0,0,0,0,0,0,0,0,0,0],
   [9,133,134,135,136,137,138,139,140,141,142,143,144,145,146,147],
   [3,7,11,24,3,7,11,24,4,8,4,8,4,8,4,8],
   [0,0,0,0,0,0,0,0,0,0,0,0,0,0,12,132],
   [4,8,4,8,4,8,4,8,4,8,4,8,0,0,0,0],
   [0,0,0,0,0,0,0,0,0,0,0,0,0,0,0,0],
   [0,0,0,0,0,0,0,0,0,0,0,0,18,19,20,21],
   [4,8,4,8,4,8,4,8,4,8,0,0,0,22,23,91],
   [25,26,27,28,29,30,31,32,33,34,35,36,37,38,39,40],
   [3,7,11,24,3,7,11,24,0,0,0,0,0,41,42,43],
   [2,6,10,13,14,15,16,17,3,7,11,24,3,7,11,24],
   [4,8,4,8,4,8,4,8,4,8,4,8,0,0,44,45],
   [2,6,10,13,14,15,16,17,46,47,48,49,50,51,52,57],
   [4,8,0,0,0,0,0,0,0,0,0,0,0,0,0,0],
   [0,0,0,0,0,0,0,0,0,0,0,0,53,54,55,56],
   [58,59,60,61,62,63,64,65,66,67,68,69,70,71,72,74],
   [0,0,0,0,0,0,0,0,0,0,0,0,0,0,0,73],
   [75,76,77,78,79,80,81,82,83,84,85,86,87,88,89,90],
   [3,7,11,24,3,7,11,24,3,7,11,24,0,0,0,0],
   [3,7,11,24,3,7,11,24,4,8,4,8,0,0,0,92],
   [0,0,0,93,94,95,96,97,98,99,100,101,102,103,104,105],
   [3,7,11,24,4,8,4,8,4,8,4,8,4,8,4,8],
   [4,8,4,8,4,8,4,8,0,0,0,0,0,0,0,0],
   [0,0,0,0,0,106,107,108,109,110,111,112,113,114,115,116],
   [4,8,4,8,4,8,4,8,4,8,4,8,4,8,0,0],
   [0,117,118,119,120,121,122,123,124,125,126,127,128,129,130,131],
   [2,6,10,13,14,15,16,17,4,8,4,8,4,8,4,8],
   [4,8,4,8,4,8,4,8,4,8,4,8,148,149,150,151],
   [3,7,11,24,4,8,4,8,0,0,0,0,0,0,152,153],
   [3,7,11,24,3,7,11,24,3,7,11,24,154,155,156,164],
   [3,7,11,24,3,7,11,24,3,7,11,24,4,8,4,8],
   [0,0,0,0,0,0,0,0,0,157,158,159,160,161,162,163],
   [165,166,167,168,169,170,171,172,173,174,175,176,177,178,179,180],
   [181,182,183,184,185,186,187,188,189,190,191,192,193,194,195,196],
   [4,8,4,8,4,8,4,8,4,8,4,8,4,8,197,198],
   [4,8,4,8,4,8,4,8,0,0,0,0,0,0,219,220],
   [3,7,11,24,4,8,4,8,4,8,0,0,221,222,223,224],
   [3,7,11,24,3,7,11,24,4,8,4,8,4,8,225,228],
   [4,8,4,8,4,8,0,0,0,0,0,0,0,0,226,227],
   [229,230,231,232,233,234,235,236,237,238,239,240,241,242,243,244],
   [4,8,4,8,4,8,4,8,4,8,0,0,0,0,0,0],
   [0,0,0,0,0,0,245,246,247,248,249,250,251,252,253,254],
   [0,0,0,0,0,0,0,0,0,0,0,0,0,0,0,255]]

def nextSubTbl : List Nat := nextSubRows.flatten

/-- `emit_tbl`, in rows of 16. -/
def emitRows : List (List Nat) :=
  [[0,1,2,3,4,5,6,7,0,8,9,10,11,12,13,14],
   [15,16,17,18,19,20,21,22,0,23,24,25,26,27,28,29],
   [30,31,32,33,34,35,36,37,38,39,40,41,42,43,44,45],
   [46,47,48,49,50,51,52,53,54,0,55,56,57,58,59,60],
   [61,62,63,64,65,66,67,68,69,70,0,71,72,73,74,75],
   [76,77,78,79,80,81,82,83,84,85,86,87,88,89,90,91],
   [92,93,94,95,96,97,98,99,100,101,102,103,104,105,106,107],
   [108,109,110,111,112,113,114,115,116,117,118,119,120,121,122,123],
   [124,125,126,127,128,129,130,131,132,133,134,135,136,137,138,139],
   [140,141,142,143,144,145,146,147,148,149,150,151,152,153,154,155],
   [156,157,158,159,0,160,161,162,163,164,165,166,167,168,169,170],
   [171,172,173,174,0,175,176,177,178,179,180,181,182,183,184,185],
   [186,187,188,189,190,191,192,193,194,195,196,197,198,199,200,201],
   [202,203,204,205,206,207,208,209,210,211,212,213,214,215,216,217],
   [218,219,220,221,0,222,223,224,225,226,227,228,229,230,231,232],
   [233,234,235,236,237,238,239,240,241,242,243,244,245,246,247,248]]

def emitTbl : List Nat := emitRows.flatten

/-- The entry -1 of `emit_sub_tbl`: no symbol. -/
def no : Int := -1

/-- The first third of `emit_sub_tbl`, in rows of 16. -/
def emitSubRowsFirst : List (List Int) :=
  [each 16 [no], each 8 [48,49], each 4 [48,49,50,97], each 2 [48,49,50,97,99,101,105,111],
   [48,49,50,97,99,101,105,111,115,116,no,no,no,no,no,no], each 8 [32,37], each 4 [99,101,105,111],
   [115,115,116,116,32,37,45,46,47,51,52,53,54,55,56,57], each 8 [61,65],
   each 2 [115,115,116,116,32,37,45,46],
   [61,65,95,98,100,102,103,104,108,109,110,112,114,117,no,no], each 8 [58,66],
   each 2 [47,51,52,53,54,55,56,57], each 2 [61,65,95,98,100,102,103,104],
   [108,108,109,109,110,110,112,112,114,114,117,117,58,66,67,68],
   [69,70,71,72,73,74,75,76,77,78,79,80,81,82,83,84],
   [85,86,87,89,106,107,113,118,119,120,121,122,no,no,no,no], each 8 [38,42], each 8 [44,59],
   each 8 [88,90], [33,33,34,34,40,40,41,41,63,63,39,43,124,no,no,no], each 8 [35,62],
   each 4 [0,36,64,91], each 8 [69,70], each 8 [71,72], each 8 [73,74], each 8 [75,76],
   each 8 [77,78], each 8 [79,80], each 8 [81,82], each 8 [83,84], each 8 [85,86], each 8 [87,89],
   each 8 [106,107], each 8 [113,118], each 8 [119,120], each 8 [121,122], each 4 [38,42,44,59],
   [88,88,88,88,90,90,90,90,33,34,40,41,63,no,no,no], each 8 [39,43], each 4 [124,124,35,62],
   [0,0,36,36,64,64,91,91,93,93,126,126,94,125,no,no], each 8 [60,96], each 8 [123,no],
   each 8 [92,195], each 4 [208,208,128,130], each 4 [131,162,184,194],
   each 2 [224,224,226,226,153,161,167,172], each 2 [176,177,179,209,216,217,227,229],
   [230,230,129,132,133,134,136,146,154,156,160,163,164,169,170,173],
   [178,181,185,186,187,189,190,196,198,228,232,233,no,no,no,no], each 8 [1,135], each 8 [137,138],
   each 8 [139,140], each 8 [141,143], each 8 [147,149], each 8 [150,151], each 8 [152,155],
   each 8 [157,158], each 8 [165,166], each 8 [168,174], each 8 [175,180], each 8 [182,183],
   each 8 [188,191], each 8 [197,231], each 4 [239,239,9,142], each 4 [144,145,148,159],
   each 4 [171,206,215,225], each 2 [236,236,237,237,199,207,234,235],
   [192,193,200,201,202,205,210,213,218,219,238,240,242,243,255,no], each 8 [203,204],
   each 8 [211,212], each 8 [214,221], each 8 [222,223], each 8 [241,244], each 8 [245,246],
   each 8 [247,248], each 8 [250,251], each 8 [252,253], each 4 [254,254,2,3], each 4 [4,5,6,7],
   each 4 [8,11,12,14], each 4 [15,16,17,18]]

/-- The second third of `emit_sub_tbl`, in rows of 16. -/
def emitSubRowsSecond : List (List Int) :=
  [each 4 [19,20,21,23], each 4 [24,25,26,27], each 4 [28,29,30,31],
   [127,127,127,127,220,220,220,220,249,249,249,249,10,13,22,256],
   [93,93,93,93,126,126,126,126,94,94,125,125,60,96,123,no],
   [92,195,208,no,no,no,no,no,no,no,no,no,no,no,no,no], each 8 [128,130], each 8 [131,162],
   each 8 [184,194], each 8 [224,226], each 4 [153,161,167,172], each 4 [176,177,179,209],
   each 4 [216,217,227,229], each 2 [230,230,129,132,133,134,136,146],
   each 2 [154,156,160,163,164,169,170,173], each 2 [178,181,185,186,187,189,190,196],
   [198,198,228,228,232,232,233,233,1,135,137,138,139,140,141,143],
   [147,149,150,151,152,155,157,158,165,166,168,174,175,180,182,183],
   [188,191,197,231,239,no,no,no,no,no,no,no,no,no,no,no], each 8 [9,142], each 8 [144,145],
   each 8 [148,159], each 8 [171,206], each 8 [215,225], each 8 [236,237],
   each 4 [199,207,234,235], each 2 [192,193,200,201,202,205,210,213],
   [218,218,219,219,238,238,240,240,242,242,243,243,255,255,203,204],
   [211,212,214,221,222,223,241,244,245,246,247,248,250,251,252,253],
   [254,no,no,no,no,no,no,no,no,no,no,no,no,no,no,no], each 8 [2,3], each 8 [4,5], each 8 [6,7],
   each 8 [8,11], each 8 [12,14], each 8 [15,16], each 8 [17,18], each 8 [19,20], each 8 [21,23],
   each 8 [24,25], each 8 [26,27], each 8 [28,29], each 8 [30,31], each 8 [127,220],
   each 2 [249,249,249,249,10,13,22,256], each 8 [67,68], each 8 [95,98], each 8 [100,102],
   each 8 [103,104], each 8 [108,109], each 8 [110,112], each 8 [114,117], each 4 [58,66,67,68],
   each 4 [69,70,71,72], each 4 [73,74,75,76], each 4 [77,78,79,80], each 4 [81,82,83,84],
   each 4 [85,86,87,89], each 4 [106,107,113,118], each 4 [119,120,121,122],
   each 2 [38,42,44,59,88,90,no,no], each 8 [33,34], each 8 [40,41], each 4 [63,63,39,43],
   [124,124,124,124,35,35,62,62,0,36,64,91,93,126,no,no], each 8 [94,125], each 4 [60,96,123,no],
   each 2 [92,92,195,195,208,208,128,130],
   [131,131,162,162,184,184,194,194,224,224,226,226,153,161,167,172],
   [176,177,179,209,216,217,227,229,230,no,no,no,no,no,no,no], each 8 [129,132], each 8 [133,134],
   each 8 [136,146], each 8 [154,156], each 8 [160,163], each 8 [164,169], each 8 [170,173],
   each 8 [178,181], each 8 [185,186], each 8 [187,189], each 8 [190,196], each 8 [198,228],
   each 8 [232,233]]

/-- The last third of `emit_sub_tbl`, in rows of 16. -/
def emitSubRowsThird : List (List Int) :=
  [each 4 [1,135,137,138], each 4 [139,140,141,143], each 4 [147,149,150,151],
   each 4 [152,155,157,158], each 4 [165,166,168,174], each 4 [175,180,182,183],
   each 4 [188,191,197,231], each 2 [239,239,9,142,144,145,148,159],
   [171,171,206,206,215,215,225,225,236,236,237,237,199,207,234,235], each 8 [192,193],
   each 8 [200,201], each 8 [202,205], each 8 [210,213], each 8 [218,219], each 8 [238,240],
   each 8 [242,243], each 4 [255,255,203,204], each 4 [211,212,214,221], each 4 [222,223,241,244],
   each 4 [245,246,247,248], each 4 [250,251,252,253], each 2 [254,254,2,3,4,5,6,7],
   each 2 [8,11,12,14,15,16,17,18], each 2 [19,20,21,23,24,25,26,27],
   each 2 [28,29,30,31,127,220,249,no], each 8 [10,13], each 8 [22,256], each 8 [45,46],
   each 8 [47,51], each 8 [52,53], each 8 [54,55], each 8 [56,57], each 8 [50,97], each 8 [99,101],
   each 8 [105,111], each 8 [115,116], each 4 [32,37,45,46], each 4 [47,51,52,53],
   each 4 [54,55,56,57], each 4 [61,65,95,98], each 4 [100,102,103,104], each 4 [108,109,110,112],
   each 2 [114,114,117,117,58,66,67,68], each 2 [69,70,71,72,73,74,75,76],
   each 2 [77,78,79,80,81,82,83,84], each 2 [85,86,87,89,106,107,113,118],
   [119,119,120,120,121,121,122,122,38,42,44,59,88,90,no,no], each 4 [33,34,40,41],
   [63,63,63,63,39,39,43,43,124,124,35,62,no,no,no,no], each 8 [0,36], each 8 [64,91],
   each 8 [93,126], each 2 [94,94,125,125,60,96,123,no],
   [92,92,195,195,208,208,128,130,131,162,184,194,224,226,no,no], each 8 [153,161],
   each 8 [167,172], each 8 [176,177], each 8 [179,209], each 8 [216,217], each 8 [227,229],
   each 4 [230,230,129,132], each 4 [133,134,136,146], each 4 [154,156,160,163],
   each 4 [164,169,170,173], each 4 [178,181,185,186], each 4 [187,189,190,196],
   each 4 [198,228,232,233], each 2 [1,135,137,138,139,140,141,143],
   each 2 [147,149,150,151,152,155,157,158], each 2 [165,166,168,174,175,180,182,183],
   [188,188,191,191,197,197,231,231,239,239,9,142,144,145,148,159],
   [171,206,215,225,236,237,no,no,no,no,no,no,no,no,no,no], each 8 [199,207], each 8 [234,235],
   each 4 [192,193,200,201], each 4 [202,205,210,213], each 4 [218,219,238,240],
   each 2 [242,242,243,243,255,255,203,204], each 2 [211,212,214,221,222,223,241,244],
   each 2 [245,246,247,248,250,251,252,253], [254,254,2,3,4,5,6,7,8,11,12,14,15,16,17,18],
   [19,20,21,23,24,25,26,27,28,29,30,31,127,220,249,no], each 4 [10,13,22,256]]

/-- `emit_sub_tbl`, in three parts. -/
def emitSubParts : List (List (List Int)) := [emitSubRowsFirst, emitSubRowsSecond, emitSubRowsThird]

def emitSubTbl : List Int := emitSubParts.flatten.flatten

/-! ## The automaton -/

/-- What an entry of `emit_sub_tbl` passes to `output`: nothing for -1 and for 256, the end of the
string. -/
def emitted (emit : Int) : Option Bytes :=
  if emit = no then some []
  else if 0 ≤ emit ∧ emit < 256 then some [UInt8.ofNat emit.toNat]
  else if emit = 256 then some []
  else none

/-- `nibble`: what is passed to `output`, and the next state. -/
def nibble (state nibble : Nat) : Option (Bytes × Nat) := do
  let emit ← emitSubTbl[16 * (← emitTbl[state]?) + nibble]?
  let next ← nextSubTbl[16 * (← nextTbl[state]?) + nibble]?
  some (← emitted emit, next)

def loop : Nat → Bytes → Option Bytes
  | _, [] => some []
  | state, p :: rest => do
    let high ← nibble state (p >>> 4).toNat
    let low ← nibble high.2 (p &&& 0xf).toNat
    let out ← loop low.2 rest
    some (high.1 ++ (low.1 ++ out))

end ParseHuff

/-- `ParseHuff` with the tables. -/
def parseHuffTables (bytes : Bytes) : Option Bytes := ParseHuff.loop 0 bytes

/-! ## Rows -/

theorem getElem?_flatten_rows {α : Type} {rows : List (List α)} {w n : Nat}
    (h : ∀ r ∈ rows, r.length = w) (hn : n < w) (i : Nat) :
    rows.flatten[w * i + n]? = rows[i]?.bind (·[n]?) := by
  induction rows generalizing i with
  | nil => rfl
  | cons r rows ih =>
    have hr : r.length = w := h r mem_cons_self
    rw [flatten_cons]
    cases i with
    | zero => rw [Nat.mul_zero, Nat.zero_add, getElem?_append_left (hr ▸ hn)]; rfl
    | succ i =>
      have hindex : w * (i + 1) + n - r.length = w * i + n := by
        rw [hr, Nat.mul_succ]
        omega
      rw [getElem?_append_right (by rw [hr, Nat.mul_succ]; omega), hindex,
        ih (fun r hr => h r (mem_cons_of_mem _ hr)) i]
      rfl

theorem getElem?_flatten_div {α : Type} {rows : List (List α)} {w : Nat}
    (h : ∀ r ∈ rows, r.length = w)
    (hw : 0 < w) (i : Nat) : rows.flatten[i]? = rows[i / w]?.bind (·[i % w]?) := by
  rw [← getElem?_flatten_rows h (Nat.mod_lt i hw), Nat.div_add_mod]

namespace ParseHuff

theorem length_rows : (∀ r ∈ nextRows, r.length = 16) ∧ (∀ r ∈ nextSubRows, r.length = 16) ∧
    (∀ r ∈ emitRows, r.length = 16) ∧ (∀ rows ∈ emitSubParts, rows.length = 83) ∧
    ∀ r ∈ emitSubParts.flatten, r.length = 16 := by
  decide +kernel

/-- The symbols of an entry of `emit_sub_tbl`. -/
def symbols (emit : Int) : Option (List Nat) :=
  if emit = no then some [] else if 0 ≤ emit ∧ emit ≤ 256 then some [emit.toNat] else none

/-- What is passed to `output` for a symbol. -/
def output (symbol : Nat) : Bytes := if symbol < 256 then [UInt8.ofNat symbol] else []

theorem emitted_eq {emit : Int} {out : List Nat} (h : symbols emit = some out) :
    emitted emit = some (out.flatMap output) := by
  unfold symbols at h
  unfold emitted
  split at h
  · next hno =>
    cases h
    rw [if_pos hno]
    rfl
  · next hno =>
    split at h
    · next hrange =>
      cases h
      rw [if_neg hno, flatMap_singleton, output]
      by_cases hbyte : emit < 256
      · rw [if_pos ⟨hrange.1, hbyte⟩, if_pos (by omega)]
      · rw [if_neg (fun hc => hbyte hc.2), if_pos (by omega), if_neg (by omega)]
    · cases h

/-- The entries for a state, found by rows and columns. -/
def row (state : Nat) : Option (List (Option (List Nat × Nat))) := do
  let emit ← (← emitRows[state / 16]?)[state % 16]?
  let emits ← (← emitSubParts[emit / 83]?)[emit % 83]?
  let next ← (← nextRows[state / 16]?)[state % 16]?
  let nexts ← nextSubRows[next]?
  some (zipWith (fun emit next => (symbols emit).map fun out => (out, next)) emits nexts)

theorem nibble_eq {state n next : Nat} {r : List (Option (List Nat × Nat))} {out : List Nat}
    (hr : row state = some r) (hn : n < 16) (he : r[n]? = some (some (out, next))) :
    nibble state n = some (out.flatMap output, next) := by
  unfold row at hr
  simp only [bind_eq_bind, bind_eq_some_iff, some.injEq] at hr
  obtain ⟨_, hi, i, hi', _, hemits, emits, hemits', _, hj, j, hj', nexts, hnexts, rfl⟩ := hr
  obtain ⟨emit, next', hemit, hnext, hentry⟩ := getElem?_zipWith_eq_some.1 he
  obtain ⟨out', hout, heq⟩ := map_eq_some_iff.1 hentry
  cases heq
  obtain ⟨hnextRows, hnextSubRows, hemitRows, hemitSubParts, hemitSubRows⟩ := length_rows
  unfold nibble emitSubTbl nextSubTbl emitTbl nextTbl
  simp only [getElem?_flatten_div hemitRows (by decide), getElem?_flatten_div hnextRows (by decide),
    getElem?_flatten_rows hemitSubRows hn, getElem?_flatten_rows hnextSubRows hn,
    getElem?_flatten_div hemitSubParts (by decide), bind_eq_bind, bind_some, hi, hi',
    hemits, hemits', hemit, hj, hj', hnexts, hnext, emitted_eq hout]

end ParseHuff

/-! ## The tree -/

/-- The state after the `d` low bits of `v`. So many codes of five zeros come before them that the
bits are whole chunks. -/
def ParseHuff.stateAfter (d v : Nat) : Nat :=
  let k := (5 * ((4 - d % 4) % 4) + d) / 4
  let chunks := (List.range k).map fun i => v >>> (4 * (k - 1 - i)) % 16
  ((runChunks row 0 chunks).map Prod.snd).getD 0

/-- The tree of codes that begin with the `d` low bits of `v`, with the states of the automaton. -/
def huffTreeBelow : Nat → Nat → Nat → List ((Nat × Nat) × Nat) → PrefixTree Nat Nat
  | _, _, _, [code] => .leaf code.2
  | 0, _, _, _ => .leaf 256
  | n + 1, d, v, codes =>
    .node (ParseHuff.stateAfter d v)
      (huffTreeBelow n (d + 1) (2 * v) (codes.filter fun e => !e.1.1.testBit (e.1.2 - 1 - d)))
      (huffTreeBelow n (d + 1) (2 * v + 1) (codes.filter fun e => e.1.1.testBit (e.1.2 - 1 - d)))

def huffTree : PrefixTree Nat Nat := huffTreeBelow 30 0 0 huffsyms.zipIdx

/-- The automaton does what the walk does, the codes lead to their symbols, and less than a byte of
ones emits nothing. -/
theorem huffTree_checked : huffTree.all (huffTree.agreesAt 4 ParseHuff.row) = true ∧
    (∀ e ∈ huffsyms.zipIdx, huffTree.lookup (bits e.1.2 e.1.1) = some e.2) ∧
    huffsyms.length = 257 ∧
    ∀ k < 8, (huffTree.run huffTree (List.replicate k true)).1 = [] := by
  decide +kernel

theorem huffTree_lookup (sym : UInt8) : huffTree.lookup (huffCode sym) = some sym.toNat := by
  obtain ⟨-, hlookup, hlength, -⟩ := huffTree_checked
  have hlt : sym.toNat < huffsyms.length := by
    have hbyte := sym.toNat_lt
    omega
  have hmem : (huffsym sym.toNat, sym.toNat) ∈ huffsyms.zipIdx := by
    rw [mem_zipIdx_iff_getElem?, huffsym, getD_eq_getElem?_getD]
    simp [hlt]
  exact hlookup _ hmem

/-! ## Messages -/

/-- The two halves of each byte. -/
def nibbles (bytes : Bytes) : List Nat :=
  bytes.flatMap fun p : UInt8 => [(p >>> 4).toNat, (p &&& 0xf).toNat]

theorem toNat_shiftRight_four (p : UInt8) : (p >>> 4).toNat = p.toNat >>> 4 := rfl

theorem toNat_and_0xf (p : UInt8) : (p &&& 0xf).toNat = p.toNat % 2 ^ 4 :=
  Nat.and_two_pow_sub_one_eq_mod _ 4

theorem bits_nibbles (bytes : Bytes) : (nibbles bytes).flatMap (bits 4) = unpack bytes := by
  induction bytes with
  | nil => rfl
  | cons p bytes ih =>
    have hlow : bits 4 (p &&& 0xf).toNat = bits 4 p.toNat := by
      rw [toNat_and_0xf]
      exact bits_mod (Nat.le_refl 4) _
    rw [unpack_cons, bits_add 4 4, ← ih, ← hlow, ← toNat_shiftRight_four, append_assoc]
    rfl

theorem nibbles_lt (bytes : Bytes) : ∀ n ∈ nibbles bytes, n < 2 ^ 4 := by
  intro n hn
  obtain ⟨p, -, hn⟩ := mem_flatMap.1 hn
  rcases mem_cons.1 hn with rfl | hn
  · have hp := p.toNat_lt
    rw [toNat_shiftRight_four, Nat.shiftRight_eq_div_pow]
    omega
  · rw [mem_singleton.1 hn, toNat_and_0xf]
    omega

theorem ParseHuff.loop_eq {bytes : Bytes} {state q : Nat} {out : List Nat}
    (h : runChunks row state (nibbles bytes) = some (out, q)) :
    loop state bytes = some (out.flatMap output) := by
  have hlt := nibbles_lt bytes
  induction bytes generalizing state out with
  | nil =>
    cases h
    rfl
  | cons p bytes ih =>
    change runChunks row state ((p >>> 4).toNat :: (p &&& 0xf).toNat :: nibbles bytes) =
      some (out, q) at h
    have hhigh : (p >>> 4).toNat < 16 := hlt _ mem_cons_self
    have hlow : (p &&& 0xf).toNat < 16 := hlt _ (mem_cons_of_mem _ mem_cons_self)
    obtain ⟨_, high, state₁, out₁, hrow, hentry, h₁, rfl⟩ := runChunks_cons_eq_some h
    obtain ⟨_, low, state₂, out₂, hrow', hentry', h₂, rfl⟩ := runChunks_cons_eq_some h₁
    have hrest := ih h₂ fun n hn => hlt n (mem_cons_of_mem _ (mem_cons_of_mem _ hn))
    rw [loop, nibble_eq hrow hhigh hentry, bind_eq_bind, bind_some,
      nibble_eq hrow' hlow hentry', bind_eq_bind, bind_some, hrest,
      flatMap_append, flatMap_append]
    rfl

/-- The automaton reads back what the encoder wrote, and every index lies in its table. -/
theorem parseHuffTables_huffmanCompress (s : Bytes) :
    ∃ out, huffmanCompress s = some out ∧ parseHuffTables out = some s := by
  obtain ⟨out, hout, k, hk, hunpack⟩ := huffmanCompress_isPadded s
  refine ⟨out, hout, ?_⟩
  obtain ⟨hagrees, -, -, hpadding⟩ := huffTree_checked
  have hroot : huffTree.label? = some 0 := rfl
  obtain ⟨q, hrun⟩ := runChunks_eq hagrees hagrees hroot (nibbles_lt out)
  rw [bits_nibbles, hunpack, run_flatMap rfl huffTree_lookup, hpadding k hk,
    append_nil] at hrun
  have houtput (sym : UInt8) : ParseHuff.output sym.toNat = [sym] := by
    rw [ParseHuff.output, if_pos sym.toNat_lt, UInt8.ofNat_toNat]
  rw [parseHuffTables, ParseHuff.loop_eq hrun, flatMap_map]
  simp [houtput]

end GrpcCore
