import GrpcCore.Hpack.Basic

/-!
# The Huffman decoder of header strings

`HuffDecoderCommon` and `HuffDecoder` (`decode_huff.h`, `decode_huff.cc`). The decoder looks at the
next 8 bits, at 7 more if they do not decide the symbol, then at 8 and at up to 5 more; the
functions `Done…` look at what is left where the input ends. All lookups are the generated ones:
an operation holds the number of bits a symbol takes, which step comes next and where the symbol
stands in the table of symbols. A table that begins with another one is written so.

`HuffDecoder.loop` is the loop of `Run` with a bound on its rounds; every round takes a bit or ends
the loop (`HuffDecoder.loop_done`), so the bound of `HuffDecoder.run` is never reached.
-/

namespace GrpcCore

/-! ## Tables -/

namespace HuffDecoderCommon

def table2_0_emit : List Nat :=
  [0x30,0x31,0x32,0x61,0x63,0x65,0x69,0x6f,0x73,0x74]

def table2_0_ops : List Nat :=
  [0x02,0x06,0x0a,0x0e,0x12,0x16,0x1a,0x1e,0x22,0x26] ++ each 21 [0x01] ++ [0x00]

def table3_0_emit : List Nat :=
  table2_0_emit ++ [0x20,0x25,0x2d,0x2e,0x2f,0x33,0x34,0x35,0x36,0x37,0x38,0x39,0x3d,0x41,0x5f,
   0x62,0x64,0x66,0x67,0x68,0x6c,0x6d,0x6e,0x70,0x72,0x75]

def table3_0_ops : List Nat :=
  [0x01,0x02,0x01,0x06,0x01,0x0a,0x01,0x0e,0x01,0x12,0x01,0x16,0x01,0x1a,0x01,0x1e,0x01,0x22,0x01,
   0x26,0x2a,0x2e,0x32,0x36,0x3a,0x3e,0x42,0x46,0x4a,0x4e,0x52,0x56,0x5a,0x5e,0x62,0x66,0x6a,0x6e,
   0x72,0x76,0x7a,0x7e,0x82,0x86,0x8a,0x8e] ++ each 17 [0x01] ++ [0x00]

def table4_0_emit : List Nat :=
  [0x30,0x31,0x32,0x61,0x63,0x65,0x69,0x6f,0x73,0x74,0x20,0x25,0x2d,0x2e,0x2f,0x33,0x34,0x35,0x36,
   0x37,0x38,0x39]

def table4_0_ops : List Nat :=
  [0x01,0x01,0x01,0x02,0x01,0x01,0x01,0x06,0x01,0x01,0x01,0x0a,0x01,0x01,0x01,0x0e,0x01,0x01,0x01,
   0x12,0x01,0x01,0x01,0x16,0x01,0x01,0x01,0x1a,0x01,0x01,0x01,0x1e,0x01,0x01,0x01,0x22,0x01,0x01,
   0x01,0x26,0x01,0x2a,0x01,0x2e,0x01,0x32,0x01,0x36,0x01,0x3a,0x01,0x3e,0x01,0x42,0x01,0x46,0x01,
   0x4a,0x01,0x4e,0x01,0x52,0x01,0x56]

def table4_1_emit : List Nat :=
  [0x3d,0x41,0x5f,0x62,0x64,0x66,0x67,0x68,0x6c,0x6d,0x6e,0x70,0x72,0x75,0x3a,0x42,0x43,0x44,0x45,
   0x46,0x47,0x48,0x49,0x4a,0x4b,0x4c,0x4d,0x4e,0x4f,0x50,0x51,0x52,0x53,0x54,0x55,0x56,0x57,0x59,
   0x6a,0x6b,0x71,0x76,0x77,0x78,0x79,0x7a]

def table4_1_ops : List Nat :=
  [0x01,0x02,0x01,0x06,0x01,0x0a,0x01,0x0e,0x01,0x12,0x01,0x16,0x01,0x1a,0x01,0x1e,0x01,0x22,0x01,
   0x26,0x01,0x2a,0x01,0x2e,0x01,0x32,0x01,0x36,0x3a,0x3e,0x42,0x46,0x4a,0x4e,0x52,0x56,0x5a,0x5e,
   0x62,0x66,0x6a,0x6e,0x72,0x76,0x7a,0x7e,0x82,0x86,0x8a,0x8e,0x92,0x96,0x9a,0x9e,0xa2,0xa6,0xaa,
   0xae,0xb2,0xb6,0x01,0x01,0x01,0x00]

def table1_0_emit : List Nat :=
  [0x30,0x31,0x32,0x61,0x63,0x65,0x69,0x6f,0x73,0x74,0x20,0x25,0x2d,0x2e,0x2f,0x33,0x34,0x35,0x36,
   0x37,0x38,0x39,0x3d,0x41,0x5f,0x62,0x64,0x66,0x67,0x68,0x6c,0x6d,0x6e,0x70,0x72,0x75,0x3a,0x42,
   0x43,0x44,0x45,0x46,0x47,0x48,0x49,0x4a,0x4b,0x4c,0x4d,0x4e,0x4f,0x50,0x51,0x52,0x53,0x54,0x55,
   0x56,0x57,0x59,0x6a,0x6b,0x71,0x76,0x77,0x78,0x79,0x7a,0x26,0x2a,0x2c,0x3b,0x58,0x5a]

def table1_0_inner : List Nat :=
  [0x0005,0x0045,0x0085,0x00c5,0x0105,0x0145,0x0185,0x01c5,0x0205,0x0245,0x0286,0x02c6,0x0306,
   0x0346,0x0386,0x03c6,0x0406,0x0446,0x0486,0x04c6,0x0506,0x0546,0x0586,0x05c6,0x0606,0x0646,
   0x0686,0x06c6,0x0706,0x0746,0x0786,0x07c6,0x0806,0x0846,0x0886,0x08c6,0x0907,0x0947,0x0987,
   0x09c7,0x0a07,0x0a47,0x0a87,0x0ac7,0x0b07,0x0b47,0x0b87,0x0bc7,0x0c07,0x0c47,0x0c87,0x0cc7,
   0x0d07,0x0d47,0x0d87,0x0dc7,0x0e07,0x0e47,0x0e87,0x0ec7,0x0f07,0x0f47,0x0f87,0x0fc7,0x1007,
   0x1047,0x1087,0x10c7,0x1108,0x1148,0x1188,0x11c8,0x1208,0x1248,0x0018,0x0028]

def table1_0_outer : List Nat :=
  each 8 (List.range' 0 10) ++ each 4 (List.range' 10 26) ++ each 2 (List.range' 36 32) ++
    List.range' 68 8

def table8_0_inner : List Nat :=
  [0x01,0x02,0x06,0x0a,0x0e,0x00]

def table8_0_outer : List Nat :=
  [0,1,2,3,4,0,0,5]

def table9_0_emit : List Nat :=
  [0x3f,0x27,0x2b,0x7c,0x23,0x3e]

def table9_0_inner : List Nat :=
  [0x01,0x02,0x06,0x0a,0x0e,0x12,0x16,0x00]

def table9_0_outer : List Nat :=
  [0,0,0,1,0,2,0,3,0,4,5,6,0,0,0,7]

def table10_0_emit : List Nat :=
  [0x3f,0x27,0x2b,0x7c,0x23,0x3e,0x00,0x24,0x40,0x5b,0x5d,0x7e]

def table10_0_ops : List Nat :=
  [0x01,0x01,0x01,0x01,0x01,0x01,0x01,0x02,0x01,0x01,0x01,0x06,0x01,0x01,0x01,0x0a,0x01,0x01,0x01,
   0x0e,0x01,0x12,0x01,0x16,0x1a,0x1e,0x22,0x26,0x2a,0x2e,0x01,0x00]

def table11_0_emit : List Nat :=
  table10_0_emit ++ [0x5e,0x7d]

def table11_0_ops : List Nat :=
  each 15 [0x01] ++ [0x02] ++ each 7 [0x01] ++ [0x06] ++ each 7 [0x01] ++ [0x0a] ++
    each 7 [0x01] ++ [0x0e] ++ each 3 [0x01] ++ [0x12] ++ each 3 [0x01] ++ [0x16,0x01,0x1a,0x01,
   0x1e,0x01,0x22,0x01,0x26,0x01,0x2a,0x01,0x2e,0x32,0x36,0x01,0x00]

def table6_0_emit : List Nat :=
  [0x3f,0x27,0x2b]

def table6_0_ops : List Nat :=
  each 32 [0x02] ++ each 16 [0x13,0x23]

def table6_1_emit : List Nat :=
  [0x7c,0x23,0x3e,0x00,0x24,0x40,0x5b,0x5d,0x7e,0x5e,0x7d,0x3c,0x60,0x7b]

def table6_1_ops : List Nat :=
  each 16 [0x03] ++ each 8 [0x14,0x24] ++ each 4 [0x35,0x45,0x55,0x65,0x75,0x85] ++
    each 2 [0x96,0xa6] ++ [0xb7,0xc7,0xd7,0x0f]

def table13_0_inner : List Nat :=
  [0x02,0x06,0x0a,0x01,0x00]

def table14_0_emit : List Nat :=
  [0x5c,0xc3,0xd0,0x80,0x82,0x83,0xa2,0xb8,0xc2,0xe0,0xe2]

def table14_0_ops : List Nat :=
  [0x01,0x02,0x01,0x06,0x01,0x0a,0x0e,0x12,0x16,0x1a,0x1e,0x22,0x26,0x2a] ++ each 17 [0x01] ++ [
   0x00]

def table15_0_emit : List Nat :=
  table14_0_emit ++ [0x99,0xa1,0xa7,0xac,0xb0,0xb1,0xb3,0xd1,0xd8,0xd9,0xe3,0xe5,0xe6]

def table15_0_ops : List Nat :=
  [0x01,0x01,0x01,0x02,0x01,0x01,0x01,0x06,0x01,0x01,0x01,0x0a,0x01,0x0e,0x01,0x12,0x01,0x16,0x01,
   0x1a,0x01,0x1e,0x01,0x22,0x01,0x26,0x01,0x2a,0x2e,0x32,0x36,0x3a,0x3e,0x42,0x46,0x4a,0x4e,0x52,
   0x56,0x5a,0x5e] ++ each 22 [0x01] ++ [0x00]

def table16_0_emit : List Nat :=
  table15_0_emit ++ [0x81,0x84,0x85,0x86,0x88,0x92,0x9a,0x9c,0xa0,0xa3,0xa4,0xa9,0xaa,0xad,0xb2,
   0xb5,0xb9,0xba,0xbb,0xbd,0xbe,0xc4,0xc6,0xe4,0xe8,0xe9]

def table16_0_ops : List Nat :=
  [0x01,0x01,0x01,0x01,0x01,0x01,0x01,0x02,0x01,0x01,0x01,0x01,0x01,0x01,0x01,0x06,0x01,0x01,0x01,
   0x01,0x01,0x01,0x01,0x0a,0x01,0x01,0x01,0x0e,0x01,0x01,0x01,0x12,0x01,0x01,0x01,0x16,0x01,0x01,
   0x01,0x1a,0x01,0x01,0x01,0x1e,0x01,0x01,0x01,0x22,0x01,0x01,0x01,0x26,0x01,0x01,0x01,0x2a,0x01,
   0x2e,0x01,0x32,0x01,0x36,0x01,0x3a,0x01,0x3e,0x01,0x42,0x01,0x46,0x01,0x4a,0x01,0x4e,0x01,0x52,
   0x01,0x56,0x01,0x5a,0x01,0x5e,0x62,0x66,0x6a,0x6e,0x72,0x76,0x7a,0x7e,0x82,0x86,0x8a,0x8e,0x92,
   0x96,0x9a,0x9e,0xa2,0xa6,0xaa,0xae,0xb2,0xb6,0xba,0xbe,0xc2,0xc6] ++ each 19 [0x01] ++ [0x00]

def table12_0_emit : List Nat :=
  table16_0_emit ++ [0x01,0x87,0x89,0x8a,0x8b,0x8c,0x8d,0x8f,0x93,0x95,0x96,0x97,0x98,0x9b,0x9d,
   0x9e,0xa5,0xa6,0xa8,0xae,0xaf,0xb4,0xb6,0xb7,0xbc,0xbf,0xc5,0xe7,0xef]

def table12_0_inner : List Nat :=
  [0x0004,0x0104,0x0204,0x0305,0x0405,0x0505,0x0605,0x0705,0x0805,0x0905,0x0a05,0x0b06,0x0c06,
   0x0d06,0x0e06,0x0f06,0x1006,0x1106,0x1206,0x1306,0x1406,0x1506,0x1606,0x1706,0x1807,0x1907,
   0x1a07,0x1b07,0x1c07,0x1d07,0x1e07,0x1f07,0x2007,0x2107,0x2207,0x2307,0x2407,0x2507,0x2607,
   0x2707,0x2807,0x2907,0x2a07,0x2b07,0x2c07,0x2d07,0x2e07,0x2f07,0x3007,0x3107,0x3208,0x3308,
   0x3408,0x3508,0x3608,0x3708,0x3808,0x3908,0x3a08,0x3b08,0x3c08,0x3d08,0x3e08,0x3f08,0x4008,
   0x4108,0x4208,0x4308,0x4408,0x4508,0x4608,0x4708,0x4808,0x4908,0x4a08,0x4b08,0x4c08,0x4d08,
   0x4e08,0x0018,0x0028,0x0038,0x0048,0x0058,0x0068,0x0078,0x0088,0x0098,0x00a8,0x00b8]

def table12_0_outer : List Nat :=
  each 16 (List.range' 0 3) ++ each 8 (List.range' 3 8) ++ each 4 (List.range' 11 13) ++
    each 2 (List.range' 24 26) ++ List.range' 50 40

def table24_0_emit : List Nat :=
  [0xc0,0xc1,0xc8,0xc9,0xca,0xcd,0xd2,0xd5]

def table24_0_inner : List Nat :=
  [0x03,0x07,0x0b,0x0f,0x13,0x17,0x1b,0x1f]

def table25_0_emit : List Nat :=
  [0xd3,0xd4,0xd6,0xdd,0xde,0xdf,0xf1,0xf4,0xf5,0xf6,0xf7,0xf8,0xfa,0xfb,0xfc,0xfd]

def table25_0_inner : List Nat :=
  [0x04,0x0c,0x14,0x1c,0x24,0x2c,0x34,0x3c,0x44,0x4c,0x54,0x5c,0x64,0x6c,0x74,0x7c]

def table26_0_emit : List Nat :=
  [0xfe,0x02,0x03,0x04,0x05,0x06,0x07,0x08,0x0b,0x0c,0x0e,0x0f,0x10,0x11,0x12,0x13,0x14,0x15,0x17,
   0x18,0x19,0x1a,0x1b,0x1c,0x1d,0x1e,0x1f,0x7f,0xdc,0xf9]

def table26_0_inner : List Nat :=
  [0x0004,0x0015,0x0025,0x0035,0x0045,0x0055,0x0065,0x0075,0x0085,0x0095,0x00a5,0x00b5,0x00c5,
   0x00d5,0x00e5,0x00f5,0x0105,0x0115,0x0125,0x0135,0x0145,0x0155,0x0165,0x0175,0x0185,0x0195,
   0x01a5,0x01b5,0x01c5,0x01d5,0x000d]

def table30_0_emit : List Nat :=
  [0xda,0xdb,0xee,0xf0,0xf2,0xf3,0xff]

def table30_0_inner : List Nat :=
  [0x02,0x06,0x0a,0x0e,0x12,0x16,0x1a,0x01]

def table29_0_emit : List Nat :=
  table30_0_emit ++ [0xcb,0xcc]

def table29_0_inner : List Nat :=
  [0x03,0x0b,0x13,0x1b,0x23,0x2b,0x33,0x3c,0x44]

def getOp2 (i : Nat) : Nat := table2_0_ops.getD i 0

def getEmit2 (_ emit : Nat) : Nat := table2_0_emit.getD emit 0

def getOp3 (i : Nat) : Nat := table3_0_ops.getD i 0

def getEmit3 (_ emit : Nat) : Nat := table3_0_emit.getD emit 0

def getOp4 (i : Nat) : Nat :=
  (if i >>> 6 = 0 then table4_0_ops else table4_1_ops).getD (i &&& 0x3f) 0

def getEmit4 (i emit : Nat) : Nat :=
  (if i >>> 6 = 0 then table4_0_emit else table4_1_emit).getD emit 0

def getOp1 (i : Nat) : Nat := table1_0_inner.getD (table1_0_outer.getD i 0) 0

def getEmit1 (_ emit : Nat) : Nat := table1_0_emit.getD emit 0

def getOp5 (i : Nat) : Nat :=
  if i < 2 then (if i ≠ 0 then 6 else 2) else (if i - 2 ≠ 0 then 14 else 10)

def getEmit5 (_ emit : Nat) : Nat := if emit < 2 then emit + 33 else emit - 2 + 40

def getOp7 (i : Nat) : Nat :=
  let j := if i < 2 then i else i - 2 + 1
  if j < 1 then 2 else if j - 1 ≠ 0 then 0 else 1

def getEmit7 (_ _ : Nat) : Nat := 63

def getOp8 (i : Nat) : Nat := table8_0_inner.getD (table8_0_outer.getD i 0) 0

def getEmit8 (_ emit : Nat) : Nat :=
  if emit < 2 then (if emit ≠ 0 then 39 else 63) else (if emit - 2 ≠ 0 then 124 else 43)

def getOp9 (i : Nat) : Nat := table9_0_inner.getD (table9_0_outer.getD i 0) 0

def getEmit9 (_ emit : Nat) : Nat := table9_0_emit.getD emit 0

def getOp10 (i : Nat) : Nat := table10_0_ops.getD i 0

def getEmit10 (_ emit : Nat) : Nat := table10_0_emit.getD emit 0

def getOp11 (i : Nat) : Nat := table11_0_ops.getD i 0

def getEmit11 (_ emit : Nat) : Nat := table11_0_emit.getD emit 0

def getOp6 (i : Nat) : Nat :=
  (if i >>> 6 = 0 then table6_0_ops else table6_1_ops).getD (i &&& 0x3f) 0

def getEmit6 (i emit : Nat) : Nat :=
  (if i >>> 6 = 0 then table6_0_emit else table6_1_emit).getD emit 0

def getOp13 (i : Nat) : Nat :=
  table13_0_inner.getD (if i < 3 then i else (i - 3) / 12 + 3) 0

def getEmit13 (_ emit : Nat) : Nat :=
  if emit < 1 then 92 else if emit - 1 ≠ 0 then 208 else 195

def getOp14 (i : Nat) : Nat := table14_0_ops.getD i 0

def getEmit14 (_ emit : Nat) : Nat := table14_0_emit.getD emit 0

def getOp15 (i : Nat) : Nat := table15_0_ops.getD i 0

def getEmit15 (_ emit : Nat) : Nat := table15_0_emit.getD emit 0

def getOp16 (i : Nat) : Nat := table16_0_ops.getD i 0

def getEmit16 (_ emit : Nat) : Nat := table16_0_emit.getD emit 0

def getOp12 (i : Nat) : Nat := table12_0_inner.getD (table12_0_outer.getD i 0) 0

def getEmit12 (_ emit : Nat) : Nat := table12_0_emit.getD emit 0

/-- `GetOp17` to `GetOp22`, which are the same. -/
def getOpBit (i : Nat) : Nat := if i ≠ 0 then 3 else 1

def getEmit17 (_ emit : Nat) : Nat := if emit ≠ 0 then 142 else 9

def getEmit18 (_ emit : Nat) : Nat := emit + 144

def getEmit19 (_ emit : Nat) : Nat := if emit ≠ 0 then 159 else 148

def getEmit20 (_ emit : Nat) : Nat := if emit ≠ 0 then 206 else 171

def getEmit21 (_ emit : Nat) : Nat := if emit ≠ 0 then 225 else 215

def getEmit22 (_ emit : Nat) : Nat := emit + 236

def getOp23 (i : Nat) : Nat :=
  if i < 2 then (if i ≠ 0 then 6 else 2) else (if i - 2 ≠ 0 then 14 else 10)

def getEmit23 (_ emit : Nat) : Nat :=
  if emit < 2 then (if emit ≠ 0 then 207 else 199) else emit - 2 + 234

def getOp24 (i : Nat) : Nat := table24_0_inner.getD i 0

def getEmit24 (_ emit : Nat) : Nat := table24_0_emit.getD emit 0

def getOp25 (i : Nat) : Nat := table25_0_inner.getD i 0

def getEmit25 (_ emit : Nat) : Nat := table25_0_emit.getD emit 0

def getOp27 (i : Nat) : Nat :=
  let j := if i < 1 then 0 else (i - 1) / 14 + 1
  if j < 1 then 2 else if j - 1 ≠ 0 then 0 else 1

def getEmit27 (_ _ : Nat) : Nat := 254

def getOp26 (i : Nat) : Nat := table26_0_inner.getD (if i < 1 then 0 else i - 1) 0

def getEmit26 (_ emit : Nat) : Nat := table26_0_emit.getD emit 0

def getOp28 (i : Nat) : Nat :=
  if i < 2 then (if i ≠ 0 then 10 else 2) else (if i - 2 ≠ 0 then 6 else 18)

def getEmit28 (_ emit : Nat) : Nat :=
  if emit < 1 then 10 else if emit - 1 ≠ 0 then 22 else 13

def getOp30 (i : Nat) : Nat := table30_0_inner.getD i 0

def getEmit30 (_ emit : Nat) : Nat := table30_0_emit.getD emit 0

def getOp29 (i : Nat) : Nat := table29_0_inner.getD (if i < 13 then i / 2 + 0 else i - 13 + 6) 0

def getEmit29 (_ emit : Nat) : Nat := table29_0_emit.getD emit 0

end HuffDecoderCommon

/-! ## The decoder -/

/-- `HuffDecoder`, with the bytes from `begin_` to `end_` and the bytes passed to the sink. -/
structure HuffDecoder where
  begin : Bytes
  buffer : Nat := 0
  bufferLen : Nat := 0
  ok : Bool := true
  done : Bool := false
  sink : Bytes := []

namespace HuffDecoder

open HuffDecoderCommon

/-- `Read1`, `none` when it returns false. The buffer is a 64-bit word. -/
def read1 (d : HuffDecoder) : Option HuffDecoder :=
  match d.begin with
  | [] => none
  | b :: rest =>
    some { d with
      begin := rest
      buffer := d.buffer <<< 8 % 2 ^ 64 ||| b.toNat
      bufferLen := d.bufferLen + 8 }

/-- `RefillTo1` to `RefillTo8`. -/
def refillTo (n : Nat) (d : HuffDecoder) : Option HuffDecoder :=
  if d.bufferLen < n then d.read1 else some d

/-- `sink_(b)`. -/
def emit (d : HuffDecoder) (b : Nat) : HuffDecoder := { d with sink := d.sink ++ [UInt8.ofNat b] }

/-- `buffer_len_ -= consumed`. -/
def consume (d : HuffDecoder) (consumed : Nat) : HuffDecoder :=
  { d with bufferLen := d.bufferLen - consumed }

/-- A case of a function `Done…` that looks at the last `n` bits. -/
def finish (n : Nat) (getOp : Nat → Nat) (getEmit : Nat → Nat → Nat) (d : HuffDecoder) :
    HuffDecoder :=
  let index := d.buffer &&& (2 ^ n - 1)
  let op := getOp index
  match op &&& 3 with
  | 1 => { d with ok := false }
  | 2 => d.emit (getEmit index (op >>> 2))
  | _ => d

/-- A case of a function `Done…` in which only padding is left. -/
def padding (d : HuffDecoder) : HuffDecoder :=
  { d with ok := d.buffer &&& (1 <<< d.bufferLen - 1) == 1 <<< d.bufferLen - 1 }

/-- The functions `Done…` inside a symbol: what is left cannot be padding. -/
def truncated (d : HuffDecoder) : HuffDecoder := { d with done := true, ok := false }

def done0 (d : HuffDecoder) : HuffDecoder :=
  let d := { d with done := true }
  match d.bufferLen with
  | 7 => d.finish 7 getOp4 getEmit4
  | 5 => d.finish 5 getOp2 getEmit2
  | 6 => d.finish 6 getOp3 getEmit3
  | 1 | 2 | 3 | 4 => d.padding
  | _ => d

def done2 (d : HuffDecoder) : HuffDecoder :=
  let d := { d with done := true }
  match d.bufferLen with
  | 4 => d.finish 4 getOp9 getEmit9
  | 5 => d.finish 5 getOp10 getEmit10
  | 2 => d.finish 2 getOp7 getEmit7
  | 6 => d.finish 6 getOp11 getEmit11
  | 3 => d.finish 3 getOp8 getEmit8
  | 1 => d.padding
  | _ => d

def done3 (d : HuffDecoder) : HuffDecoder :=
  let d := { d with done := true }
  match d.bufferLen with
  | 7 => d.finish 7 getOp16 getEmit16
  | 4 => d.finish 4 getOp13 getEmit13
  | 5 => d.finish 5 getOp14 getEmit14
  | 6 => d.finish 6 getOp15 getEmit15
  | 1 | 2 | 3 => d.padding
  | _ => d

def done13 (d : HuffDecoder) : HuffDecoder :=
  let d := { d with done := true }
  match d.bufferLen with
  | 4 => d.finish 4 getOp27 getEmit27
  | 1 | 2 | 3 => d.padding
  | _ => d

def done14 (d : HuffDecoder) : HuffDecoder :=
  let d := { d with done := true }
  match d.bufferLen with
  | 1 => d.padding
  | _ => d

def done15 (d : HuffDecoder) : HuffDecoder :=
  match d.bufferLen with
  | 3 => { d with done := true }.finish 3 getOp30 getEmit30
  | _ => d.truncated

/-- The beginning of every step: `n` bits are refilled and looked up, or the input ends. -/
def lookUp (n : Nat) (atEnd : HuffDecoder → HuffDecoder) (getOp : Nat → Nat)
    (next : Nat → Nat → HuffDecoder → HuffDecoder) (d : HuffDecoder) : HuffDecoder :=
  match d.refillTo n with
  | none => atEnd d
  | some d =>
    let index := d.buffer >>> (d.bufferLen - n) &&& (2 ^ n - 1)
    next index (getOp index) d

/-- A step whose operations always give a symbol, and hold its length in `w` bits. -/
def symbol (n w : Nat) (atEnd : HuffDecoder → HuffDecoder) (getOp : Nat → Nat)
    (getEmit : Nat → Nat → Nat) : HuffDecoder → HuffDecoder :=
  lookUp n atEnd getOp fun index op d =>
    (d.consume (op &&& (2 ^ w - 1))).emit (getEmit index (op >>> w))

def decodeStep0 : HuffDecoder → HuffDecoder := symbol 2 2 truncated getOp5 getEmit5

def decodeStep3 : HuffDecoder → HuffDecoder := symbol 1 1 truncated getOpBit getEmit17

def decodeStep4 : HuffDecoder → HuffDecoder := symbol 1 1 truncated getOpBit getEmit18

def decodeStep5 : HuffDecoder → HuffDecoder := symbol 1 1 truncated getOpBit getEmit19

def decodeStep6 : HuffDecoder → HuffDecoder := symbol 1 1 truncated getOpBit getEmit20

def decodeStep7 : HuffDecoder → HuffDecoder := symbol 1 1 truncated getOpBit getEmit21

def decodeStep8 : HuffDecoder → HuffDecoder := symbol 1 1 truncated getOpBit getEmit22

def decodeStep9 : HuffDecoder → HuffDecoder := symbol 2 2 truncated getOp23 getEmit23

def decodeStep10 : HuffDecoder → HuffDecoder := symbol 3 2 truncated getOp24 getEmit24

def decodeStep11 : HuffDecoder → HuffDecoder := symbol 4 3 truncated getOp25 getEmit25

def decodeStep14 : HuffDecoder → HuffDecoder := symbol 4 3 done15 getOp29 getEmit29

/-- `DecodeStep13`: the code of the end of the string drops the rest of the input. -/
def decodeStep13 : HuffDecoder → HuffDecoder :=
  lookUp 2 done14 getOp28 fun index op d =>
    let d := d.consume (op &&& 3)
    match (op >>> 2) &&& 1 with
    | 1 => { d with begin := [], bufferLen := 0 }
    | _ => d.emit (getEmit28 index (op >>> 3))

def decodeStep12 : HuffDecoder → HuffDecoder :=
  lookUp 5 done13 getOp26 fun index op d =>
    let d := d.consume (op &&& 7)
    match (op >>> 3) &&& 1 with
    | 1 => d.decodeStep13
    | _ => d.emit (getEmit26 index (op >>> 4))

def decodeStep2 : HuffDecoder → HuffDecoder :=
  lookUp 8 done3 getOp12 fun index op d =>
    let d := d.consume (op &&& 15)
    match (op >>> 4) &&& 15 with
    | 8 => d.decodeStep10
    | 10 => d.decodeStep11
    | 11 => d.decodeStep12
    | 9 => d.decodeStep14
    | 1 => d.decodeStep3
    | 2 => d.decodeStep4
    | 3 => d.decodeStep5
    | 4 => d.decodeStep6
    | 5 => d.decodeStep7
    | 6 => d.decodeStep8
    | 7 => d.decodeStep9
    | 0 => d.emit (getEmit12 index (op >>> 8))
    | _ => d

def decodeStep1 : HuffDecoder → HuffDecoder :=
  lookUp 7 done2 getOp6 fun index op d =>
    let d := d.consume (op &&& 7)
    match (op >>> 3) &&& 1 with
    | 1 => d.decodeStep2
    | _ => d.emit (getEmit6 index (op >>> 4))

def round : HuffDecoder → HuffDecoder :=
  lookUp 8 done0 getOp1 fun index op d =>
    let d := d.consume (op &&& 15)
    match (op >>> 4) &&& 3 with
    | 1 => d.decodeStep0
    | 2 => d.decodeStep1
    | 0 => d.emit (getEmit1 index (op >>> 6))
    | _ => d

/-- `while (!done_)`, for at most as many rounds as `fuel`. -/
def loop : Nat → HuffDecoder → HuffDecoder
  | 0, d => d
  | fuel + 1, d => if d.done then d else loop fuel d.round

def bitsLeft (d : HuffDecoder) : Nat := 8 * d.begin.length + d.bufferLen

/-- `Run`, in a decoder that has not run yet. -/
def run (d : HuffDecoder) : HuffDecoder := d.loop (d.bitsLeft + 1)

end HuffDecoder

/-- `HuffDecoder(sink, p, p + length).Run()`: the bytes passed to the sink, or `none` when `Run`
returns false. -/
def huffDecode (bytes : Bytes) : Option Bytes :=
  let d := HuffDecoder.run { begin := bytes }
  if d.ok then some d.sink else none

/-! ## Every round of the loop ends it or takes a bit -/

namespace HuffDecoder

open HuffDecoderCommon

variable {d d' : HuffDecoder} {n : Nat}

theorem bitsLeft_finish (n : Nat) (getOp : Nat → Nat) (getEmit : Nat → Nat → Nat)
    (d : HuffDecoder) : (d.finish n getOp getEmit).bitsLeft = d.bitsLeft := by
  unfold finish
  simp only
  split <;> rfl

theorem bitsLeft_consume_le (d : HuffDecoder) (k : Nat) :
    (d.consume k).bitsLeft ≤ d.bitsLeft := by
  simp only [consume, bitsLeft]
  omega

theorem bitsLeft_refillTo (h : d.refillTo n = some d') : d'.bitsLeft = d.bitsLeft := by
  unfold refillTo read1 at h
  split at h
  · split at h
    · cases h
    · next heq =>
      cases h
      simp only [bitsLeft, heq, List.length_cons]
      omega
  · cases h
    rfl

theorem le_bufferLen_refillTo (h : d.refillTo n = some d') (hn : n ≤ 8) : n ≤ d'.bufferLen := by
  unfold refillTo read1 at h
  split at h
  · split at h
    · cases h
    · cases h
      simp only
      omega
  · cases h
    omega

/-- The functions that take nothing but what is left of the input. -/
def Shrinks (f : HuffDecoder → HuffDecoder) : Prop := ∀ d, (f d).bitsLeft ≤ d.bitsLeft

variable {atEnd : HuffDecoder → HuffDecoder}

theorem Shrinks.lookUp {getOp : Nat → Nat}
    {next : Nat → Nat → HuffDecoder → HuffDecoder} (hEnd : Shrinks atEnd)
    (hnext : ∀ index, Shrinks (next index (getOp index))) :
    Shrinks (lookUp n atEnd getOp next) := by
  intro d
  unfold HuffDecoder.lookUp
  split
  · exact hEnd d
  · next d' h =>
    rw [← bitsLeft_refillTo h]
    exact hnext _ d'

theorem Shrinks.symbol {w : Nat} (hEnd : Shrinks atEnd)
    (getOp : Nat → Nat) (getEmit : Nat → Nat → Nat) :
    Shrinks (symbol n w atEnd getOp getEmit) :=
  lookUp hEnd fun _ d => bitsLeft_consume_le d _

theorem shrinks_truncated : Shrinks truncated := fun _ => Nat.le_refl _

theorem shrinks_done : Shrinks done2 ∧ Shrinks done3 ∧ Shrinks done13 ∧ Shrinks done14 ∧
    Shrinks done15 := by
  refine ⟨?_, ?_, ?_, ?_, ?_⟩ <;> intro d <;> simp only [done2, done3, done13, done14, done15] <;>
    split <;> first | exact Nat.le_of_eq (bitsLeft_finish ..) | exact Nat.le_refl _

theorem shrinks_decodeStep0 : Shrinks decodeStep0 := .symbol shrinks_truncated _ _

theorem shrinks_decodeStep13 : Shrinks decodeStep13 := by
  refine .lookUp shrinks_done.2.2.2.1 fun index d => ?_
  simp only
  split
  · simp [bitsLeft]
  · exact bitsLeft_consume_le d _

theorem shrinks_decodeStep12 : Shrinks decodeStep12 := by
  refine .lookUp shrinks_done.2.2.1 fun index d => ?_
  simp only
  split
  · exact Nat.le_trans (shrinks_decodeStep13 _) (bitsLeft_consume_le d _)
  · exact bitsLeft_consume_le d _

theorem shrinks_decodeStep2 : Shrinks decodeStep2 := by
  refine .lookUp shrinks_done.2.1 fun index d => ?_
  have hsymbol {n w : Nat} {getOp : Nat → Nat} {getEmit : Nat → Nat → Nat} :
      Shrinks (symbol n w truncated getOp getEmit) := .symbol shrinks_truncated _ _
  have h14 : Shrinks decodeStep14 := .symbol shrinks_done.2.2.2.2 _ _
  have hle := bitsLeft_consume_le d (getOp12 index &&& 15)
  simp only
  split
  case h_3 => exact Nat.le_trans (shrinks_decodeStep12 _) hle
  case h_4 => exact Nat.le_trans (h14 _) hle
  case h_12 => exact hle
  case h_13 => exact hle
  all_goals exact Nat.le_trans (hsymbol _) hle

theorem shrinks_decodeStep1 : Shrinks decodeStep1 := by
  refine .lookUp shrinks_done.1 fun index d => ?_
  simp only
  split
  · exact Nat.le_trans (shrinks_decodeStep2 _) (bitsLeft_consume_le d _)
  · exact bitsLeft_consume_le d _

theorem getOp1_pos : ∀ i < 256, 0 < getOp1 i &&& 15 := by
  decide +kernel

theorem done0_done (d : HuffDecoder) : d.done0.done = true := by
  unfold done0
  simp only
  split
  case h_8 => rfl
  all_goals (first | rfl | (unfold finish; simp only; split <;> rfl))

theorem round_lt (d : HuffDecoder) : d.round.done = true ∨ d.round.bitsLeft < d.bitsLeft := by
  unfold round lookUp
  split
  · exact .inl (done0_done d)
  · next d' h =>
    right
    have hlen := le_bufferLen_refillTo h (Nat.le_refl 8)
    generalize hi : d'.buffer >>> (d'.bufferLen - 8) &&& (2 ^ 8 - 1) = index
    have hpos : 0 < getOp1 index &&& 15 :=
      getOp1_pos index (by rw [← hi]; exact Nat.and_lt_two_pow (n := 8) _ (by decide))
    have hlt : (d'.consume (getOp1 index &&& 15)).bitsLeft < d.bitsLeft := by
      rw [← bitsLeft_refillTo h]
      simp only [consume, bitsLeft]
      omega
    simp only
    split
    · exact Nat.lt_of_le_of_lt (shrinks_decodeStep0 _) hlt
    · exact Nat.lt_of_le_of_lt (shrinks_decodeStep1 _) hlt
    · exact hlt
    · exact hlt

theorem loop_of_done (h : d.done = true) (fuel : Nat) : d.loop fuel = d := by
  cases fuel with
  | zero => rfl
  | succ fuel => rw [loop, if_pos h]

/-- With a round for every bit, and one for the end of the input, the loop runs to its end. -/
theorem loop_done {m : Nat} (h : d.bitsLeft < m) :
    (d.loop m).done = true ∧ ∀ fuel, d.loop (m + fuel) = d.loop m := by
  induction m generalizing d with
  | zero => omega
  | succ m ih =>
    simp only [Nat.succ_add, loop]
    split
    · next hd => exact ⟨hd, fun _ => rfl⟩
    · rcases round_lt d with hd | hlt
      · rw [loop_of_done hd]
        exact ⟨hd, fun _ => loop_of_done hd _⟩
      · exact ih (by omega)

/-- The loop of `Run` ends on every input. More rounds than `run` makes change nothing. -/
theorem run_ends (d : HuffDecoder) :
    d.run.done = true ∧ ∀ fuel, d.loop (d.bitsLeft + 1 + fuel) = d.run :=
  loop_done (Nat.lt_succ_self _)

end HuffDecoder

end GrpcCore
