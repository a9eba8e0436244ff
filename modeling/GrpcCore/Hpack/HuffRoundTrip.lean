import GrpcCore.Hpack.DecodeHuff
import GrpcCore.Hpack.HuffmanTables

/-!
# The Huffman decoder reads back what the encoder writes

`HuffDecoder` looks at up to eight bits at a time, and so at bits behind the code that it reads. A
running decoder is described by the bits that it still has to read (`Reads`). A step belongs to the
bits that were taken before it, and reads the rest of every code that begins with them (`Decodes`).
The entries of its table are compared with the codes of the encoder (`TablesFit`); the code is
prefix free, so that an entry that fits the bits is the one of the symbol. Where the input ends
inside a lookup, one of the functions `Done…` sees the rest of the last code and the padding; no
lookup is so long that a second code could stand there.
-/

namespace GrpcCore

open List Bits

theorem huffCode_prefixFree {a b : UInt8} {x y : List Bool}
    (h : huffCode a ++ x = huffCode b ++ y) : a = b := by
  have hrun (c : UInt8) (z : List Bool) :
      (huffTree.run huffTree (huffCode c ++ z)).1.head? = some c.toNat := by
    rw [PrefixTree.run_append, PrefixTree.run_of_lookup rfl (huffTree_lookup c)]
    rfl
  have hhead := hrun a x
  rw [h, hrun b y] at hhead
  exact (UInt8.toNat_inj.1 (Option.some.inj hhead)).symm

namespace HuffDecoder

open HuffDecoderCommon

/-- The decoder is running; the bits `s` are before it and it has passed `out` to the sink. -/
structure Reads (d : HuffDecoder) (s : List Bool) (out : Bytes) : Prop where
  stream_eq : bits d.bufferLen d.buffer ++ unpack d.begin = s
  bufferLen_lt : d.bufferLen < 16
  ok_eq : d.ok = true
  done_eq : d.done = false
  sink_eq : d.sink = out

variable {d : HuffDecoder} {s : List Bool} {out : Bytes} {n : Nat}

theorem Reads.refillTo (h : d.Reads s out) (hn : n ≤ 8) (hs : n ≤ s.length) :
    ∃ d', d.refillTo n = some d' ∧ d'.Reads s out ∧ n ≤ d'.bufferLen := by
  have hlt := h.bufferLen_lt
  unfold HuffDecoder.refillTo
  split
  · next hfew =>
    obtain ⟨hstream, -, hok, hdone, hsink⟩ := h
    cases hbegin : d.begin with
    | nil =>
      have hlen := congrArg List.length hstream
      rw [hbegin] at hlen
      simp [unpack] at hlen
      omega
    | cons b rest =>
      rw [hbegin, unpack_cons, ← append_assoc, ← bits_shiftLeft_or b.toNat_lt] at hstream
      rw [read1, hbegin]
      refine ⟨_, rfl, ⟨?_, ?_, hok, hdone, hsink⟩, ?_⟩
      · rw [← hstream]
        congr 1
        refine bits_congr fun i hi => ?_
        simp only [Nat.testBit_or, Nat.testBit_mod_two_pow]
        rw [decide_eq_true (by simp only at hi; omega), Bool.true_and]
      · show d.bufferLen + 8 < 16
        omega
      · show n ≤ d.bufferLen + 8
        omega
  · next henough => exact ⟨d, rfl, h, by omega⟩

theorem Reads.refillTo_none (h : d.Reads s out) (hs : s.length < n) (hn : n ≤ 8) :
    d.refillTo n = none ∧ bits d.bufferLen d.buffer = s ∧ d.bufferLen = s.length := by
  have hlen := congrArg List.length h.stream_eq
  rw [length_append, length_bits, length_unpack] at hlen
  have hbegin : d.begin = [] := length_eq_zero_iff.1 (by omega)
  have hstream := h.stream_eq
  rw [hbegin] at hstream hlen
  refine ⟨?_, by simpa [unpack] using hstream, by simpa using hlen⟩
  rw [HuffDecoder.refillTo, if_pos (by simp at hlen; omega), read1, hbegin]

theorem Reads.index (h : d.Reads s out) (hn : n ≤ d.bufferLen) :
    bits n (d.buffer >>> (d.bufferLen - n) &&& (2 ^ n - 1)) = s.take n := by
  rw [Nat.and_two_pow_sub_one_eq_mod, bits_mod (Nat.le_refl n)]
  have hcut := bits_add n (d.bufferLen - n) d.buffer
  rw [Nat.add_sub_cancel' hn] at hcut
  rw [← h.stream_eq, hcut, append_assoc, take_left' (length_bits _ _)]

theorem Reads.consume (h : d.Reads s out) {k : Nat} (hk : k ≤ d.bufferLen) :
    (d.consume k).Reads (s.drop k) out := by
  have hcut := bits_add k (d.bufferLen - k) d.buffer
  rw [Nat.add_sub_cancel' hk] at hcut
  obtain ⟨hstream, hlt, hok, hdone, hsink⟩ := h
  refine ⟨?_, Nat.lt_of_le_of_lt (Nat.sub_le _ _) hlt, hok, hdone, hsink⟩
  rw [← hstream, hcut, append_assoc, drop_left' (length_bits _ _)]
  rfl

theorem Reads.emit (h : d.Reads s out) (sym : UInt8) :
    (d.emit sym.toNat).Reads s (out ++ [sym]) := by
  obtain ⟨hstream, hlt, hok, hdone, rfl⟩ := h
  exact ⟨hstream, hlt, hok, hdone, by rw [HuffDecoder.emit, UInt8.ofNat_toNat]⟩

/-! ## The end of the input -/

/-- The decoder has ended and has passed `out` to the sink. -/
def Ended (d : HuffDecoder) (out : Bytes) : Prop := d.done = true ∧ d.ok = true ∧ d.sink = out

instance (d : HuffDecoder) (out : Bytes) : Decidable (d.Ended out) :=
  inferInstanceAs (Decidable (_ ∧ _))

/-- The same decoder with other bytes before it, another buffer and `sink` already in the sink. -/
def within (d : HuffDecoder) (b : Bytes) (buffer : Nat) (sink : Bytes) : HuffDecoder :=
  { d with begin := b, buffer, sink := sink ++ d.sink }

/-- What is done at the end of the input depends on the bits that are left, here those of `v`. -/
def DependsOnBits (atEnd : HuffDecoder → HuffDecoder) : Prop :=
  ∀ b buffer v len sink, bits len buffer = bits len v →
    atEnd ⟨b, buffer, len, true, false, sink⟩ =
      (atEnd ⟨[], v, len, true, false, []⟩).within b buffer sink

section
variable {buffer v : Nat} (b sink : Bytes)

theorem and_allOnes_congr (h : bits n buffer = bits n v) :
    buffer &&& (2 ^ n - 1) = v &&& (2 ^ n - 1) := by
  refine Nat.eq_of_testBit_eq fun i => ?_
  by_cases hi : i < n
  · simp [testBit_of_bits_eq h i hi]
  · simp [hi]

theorem finish_of_bits (h : bits n buffer = bits n v) (getOp : Nat → Nat)
    (getEmit : Nat → Nat → Nat) : finish n getOp getEmit ⟨b, buffer, n, true, true, sink⟩ =
      (finish n getOp getEmit ⟨[], v, n, true, true, []⟩).within b buffer sink := by
  simp only [finish, and_allOnes_congr h]
  split <;> simp [emit, within]

theorem padding_of_bits (h : bits n buffer = bits n v) :
    padding ⟨b, buffer, n, true, true, sink⟩ =
      (padding ⟨[], v, n, true, true, []⟩).within b buffer sink := by
  have hand := and_allOnes_congr h
  rw [← Nat.one_shiftLeft] at hand
  simp only [padding, within, hand, append_nil]

theorem within_done : (⟨b, buffer, n, true, true, sink⟩ : HuffDecoder) =
    (⟨[], v, n, true, true, []⟩ : HuffDecoder).within b buffer sink := by
  simp [within]

end

theorem dependsOnBits_truncated : DependsOnBits truncated := by
  intro b buffer v len sink _
  simp [truncated, within]

theorem dependsOnBits_done : DependsOnBits done0 ∧ DependsOnBits done2 ∧ DependsOnBits done3 ∧
    DependsOnBits done13 ∧ DependsOnBits done14 ∧ DependsOnBits done15 := by
  refine ⟨?_, ?_, ?_, ?_, ?_, ?_⟩ <;> intro b buffer v len sink h <;>
    simp only [done0, done2, done3, done13, done14, done15] <;> split <;>
    first
      | exact finish_of_bits b sink h _ _
      | exact padding_of_bits b sink h
      | exact within_done b sink
      | exact dependsOnBits_truncated b buffer v _ sink h

/-! ## Steps -/

/-- `f` reads the rest of every code that begins with `p`, or ends the input where the last code and
the padding are left. -/
def Decodes (f : HuffDecoder → HuffDecoder) (p : List Bool) : Prop :=
  ∀ {d c sym message k out}, huffCode sym = p ++ c → k < 8 →
    d.Reads (c ++ (message.flatMap huffCode ++ List.replicate k true)) out →
    (f d).Reads (message.flatMap huffCode ++ List.replicate k true) (out ++ [sym]) ∨
      message = [] ∧ (f d).Ended (out ++ [sym])

/-- Where `n` bits are looked up, the rest of a code that begins with the `l` bits of `v` is
followed by less than a code, and is found at the end of the input if only padding follows it. -/
def endsOn (n l v : Nat) (atEnd : HuffDecoder → HuffDecoder) : Bool :=
  huffsyms.zipIdx.all fun ((code, length), sym) =>
    code >>> (length - l) != v || length < l || sym == 256 || decide (n + l ≤ length + 5) &&
      (List.range (n + l - length)).all fun k => decide ((atEnd ⟨[], code <<< k ||| (2 ^ k - 1),
        length - l + k, true, false, []⟩).Ended [UInt8.ofNat sym])

theorem mem_huffsyms (sym : UInt8) : (huffsym sym.toNat, sym.toNat) ∈ huffsyms.zipIdx := by
  have hlt : sym.toNat < huffsyms.length := by
    have hbyte := sym.toNat_lt
    rw [huffTree_checked.2.2.1]
    omega
  rw [mem_zipIdx_iff_getElem?, huffsym, getD_eq_getElem?_getD]
  simp [hlt]

/-- The first `k` bits of `w` end the code of `b`. -/
def fits (p w : List Bool) (k b : Nat) : Bool :=
  decide (k ≤ w.length) && decide (huffCode (UInt8.ofNat b) = p ++ w.take k)

/-- The operations of a step hold a length in `a` bits and a kind in `b` bits. Those of kind zero
take the rest of a code; `others` lists those with a step after them, each with a symbol that is
still possible there. -/
def tableFits (n l v a b : Nat) (atEnd : HuffDecoder → HuffDecoder) (getOp : Nat → Nat)
    (getEmit : Nat → Nat → Nat) (others : List (Nat × UInt8)) : Bool :=
  decide (n ≤ 8 ∧ v < 2 ^ l) && (endsOn n l v atEnd &&
    (others.all (fun o => (bits l v ++ bits n o.1).isPrefixOf (huffCode o.2)) &&
      (List.range (2 ^ n)).all fun i => (others.any fun o => o.1 == i) ||
        (getOp i >>> a &&& (2 ^ b - 1) == 0 &&
          fits (bits l v) (bits n i) (getOp i &&& (2 ^ a - 1)) (getEmit i (getOp i >>> (a + b))) ||
        bits l v ++ bits n i == bits 30 (2 ^ 30 - 1))))

/-- What is evaluated: the tables of the decoder against that of the encoder. -/
structure TablesFit : Prop where
  lengths : ∀ e ∈ huffsyms.zipIdx, 5 ≤ e.1.2
  endOfString : ∀ e ∈ huffsyms.zipIdx, e.2 = 256 ∨ ¬ bits e.1.2 e.1.1 <+: bits 30 (2 ^ 30 - 1)
  padding : ∀ k < 8, (done0 ⟨[], 2 ^ k - 1, k, true, false, []⟩).Ended []
  round : tableFits 8 0 0 4 2 done0 getOp1 getEmit1 [(254, 33), (255, 63)] = true
  step0 : tableFits 2 8 254 2 0 truncated getOp5 getEmit5 [] = true
  step1 : tableFits 7 8 255 3 1 done2 getOp6 getEmit6 [(127, 92)] = true
  step2 : tableFits 8 15 (2 ^ 15 - 1) 4 4 done3 getOp12 getEmit12
    [(245, 9), (246, 144), (247, 148), (248, 171), (249, 215), (250, 236), (251, 199), (252, 192),
      (253, 218), (254, 211), (255, 254)] = true
  step3 : tableFits 1 23 (2 ^ 23 - 11) 1 0 truncated getOpBit getEmit17 [] = true
  step4 : tableFits 1 23 (2 ^ 23 - 10) 1 0 truncated getOpBit getEmit18 [] = true
  step5 : tableFits 1 23 (2 ^ 23 - 9) 1 0 truncated getOpBit getEmit19 [] = true
  step6 : tableFits 1 23 (2 ^ 23 - 8) 1 0 truncated getOpBit getEmit20 [] = true
  step7 : tableFits 1 23 (2 ^ 23 - 7) 1 0 truncated getOpBit getEmit21 [] = true
  step8 : tableFits 1 23 (2 ^ 23 - 6) 1 0 truncated getOpBit getEmit22 [] = true
  step9 : tableFits 2 23 (2 ^ 23 - 5) 2 0 truncated getOp23 getEmit23 [] = true
  step10 : tableFits 3 23 (2 ^ 23 - 4) 2 0 truncated getOp24 getEmit24 [] = true
  step14 : tableFits 4 23 (2 ^ 23 - 3) 3 0 done15 getOp29 getEmit29 [] = true
  step11 : tableFits 4 23 (2 ^ 23 - 2) 3 0 truncated getOp25 getEmit25 [] = true
  step12 : tableFits 5 23 (2 ^ 23 - 1) 3 1 done13 getOp26 getEmit26 [(31, 10)] = true
  step13 : tableFits 2 28 (2 ^ 28 - 1) 2 1 done14 getOp28 getEmit28 [] = true

theorem tablesFit : TablesFit := by
  constructor <;> decide +kernel

/-- What a step does with a decoder after it has looked up `w`: it takes a whole code or goes on
with another step; no code begins with the code of the end of the string. -/
inductive Continues (p w : List Bool) (g : HuffDecoder → HuffDecoder) : Prop where
  | symbol (k : Nat) (e : UInt8) (hk : k ≤ w.length) (he : huffCode e = p ++ w.take k)
      (hg : ∀ d, g d = (d.consume k).emit e.toNat)
  | step (f : HuffDecoder → HuffDecoder) (e : UInt8) (he : p ++ w <+: huffCode e)
      (hf : Decodes f (p ++ w)) (hg : ∀ d, g d = f (d.consume w.length))
  | endOfString (hw : ∀ e x y, huffCode e ++ x ≠ p ++ w ++ y)

theorem le_length_huffCode (sym : UInt8) : 5 ≤ (huffCode sym).length := by
  rw [huffCode, length_bits]
  exact tablesFit.lengths _ (mem_huffsyms sym)

/-- No code begins the thirty ones that end a string. -/
theorem not_prefix_endOfString (e : UInt8) (x y : List Bool) :
    huffCode e ++ x ≠ bits 30 (2 ^ 30 - 1) ++ y := by
  intro h
  have hlen : (huffCode e).length ≤ (bits 30 (2 ^ 30 - 1)).length := by
    rw [huffCode, length_bits, length_bits]
    exact (huffsym_valid e.toNat).2
  refine (tablesFit.endOfString _ (mem_huffsyms e)).resolve_left (Nat.ne_of_lt e.toNat_lt) ?_
  exact prefix_of_prefix_length_le ⟨x, h⟩ (prefix_append _ y) hlen

variable {l v k : Nat} {c : List Bool} {sym : UInt8} {message : Bytes} {getOp : Nat → Nat}
  {atEnd : HuffDecoder → HuffDecoder} {next : Nat → Nat → HuffDecoder → HuffDecoder}

/-- At the end of the input the rest of the last code and the padding are left. -/
theorem ended_of_endsOn (hv : v < 2 ^ l) (hdep : DependsOnBits atEnd)
    (hend : endsOn n l v atEnd = true) (hsym : huffCode sym = bits l v ++ c)
    (hd : d.Reads (c ++ (message.flatMap huffCode ++ List.replicate k true)) out)
    (hbits : bits d.bufferLen d.buffer = c ++ (message.flatMap huffCode ++ List.replicate k true))
    (hlt : d.bufferLen < n) : message = [] ∧ (atEnd d).Ended (out ++ [sym]) := by
  have hlen := congrArg List.length hbits
  rw [length_bits, length_append, length_append, length_replicate] at hlen
  have hcode := congrArg List.length hsym
  rw [huffCode, length_bits, length_append, length_bits] at hcode
  obtain ⟨hhigh, hlow⟩ : (huffsym sym.toNat).1 >>> c.length = v ∧
      bits c.length (huffsym sym.toNat).1 = c := by
    have hcut := bits_add l c.length (huffsym sym.toNat).1
    rw [← hcode, ← huffCode, hsym] at hcut
    obtain ⟨hhigh, hlow⟩ := append_inj hcut (by rw [length_bits, length_bits])
    have hbound := (huffsym_valid sym.toNat).1
    rw [hcode, Nat.add_comm, pow_add] at hbound
    refine ⟨eq_of_bits_eq ?_ hv hhigh.symm, hlow.symm⟩
    rw [Nat.shiftRight_eq_div_pow]
    exact Nat.div_lt_of_lt_mul hbound
  have hall := all_eq_true.1 hend _ (mem_huffsyms sym)
  have hm : (huffsym sym.toNat).2 - l = c.length := by omega
  have hle : ¬ (huffsym sym.toNat).2 < l := by omega
  have hsymbol : (sym.toNat == 256) = false := beq_false_of_ne (Nat.ne_of_lt sym.toNat_lt)
  simp only [hm, hhigh, hle, hsymbol, decide_false, bne_self_eq_false, Bool.false_or,
    Bool.and_eq_true, decide_eq_true_eq, all_eq_true, mem_range, UInt8.ofNat_toNat] at hall
  obtain ⟨hnext, hall⟩ := hall
  obtain rfl : message = [] := by
    cases message with
    | nil => rfl
    | cons a message =>
      have := le_length_huffCode a
      rw [flatMap_cons, length_append] at hlen
      omega
  refine ⟨rfl, ?_⟩
  obtain ⟨b, buffer, len, _, _, _⟩ := d
  obtain ⟨-, -, rfl, rfl, rfl⟩ := hd
  simp only [flatMap_nil, nil_append, length_nil, Nat.zero_add] at hbits hlen hlt ⊢
  obtain ⟨hdone, hok, hsink⟩ := hall k (by omega)
  have hleft : bits (c.length + k) ((huffsym sym.toNat).1 <<< k ||| (2 ^ k - 1)) =
      c ++ List.replicate k true := by
    rw [bits_shiftLeft_or (Nat.sub_lt (Nat.two_pow_pos k) Nat.one_pos), bits_allOnes, hlow]
  rw [← hlen] at hleft hdone hok hsink
  rw [hdep b buffer _ len _ (hbits.trans hleft.symm)]
  exact ⟨hdone, hok, congrArg _ hsink⟩

/-- A step whose entries fit the codes reads the rest of a code. -/
theorem decodes_lookUp (hn : n ≤ 8) (hv : v < 2 ^ l) (hdep : DependsOnBits atEnd)
    (hend : endsOn n l v atEnd = true)
    (hentry : ∀ i < 2 ^ n, Continues (bits l v) (bits n i) (next i (getOp i))) :
    Decodes (lookUp n atEnd getOp next) (bits l v) := by
  intro d c sym message k out hsym hk hd
  by_cases hlong : n ≤ (c ++ (message.flatMap huffCode ++ List.replicate k true)).length
  · generalize hrest : message.flatMap huffCode ++ List.replicate k true = rest at hd hlong ⊢
    obtain ⟨d', hrefill, hd', hlen⟩ := hd.refillTo hn hlong
    have hindex := hd'.index hlen
    have hlt : d'.buffer >>> (d'.bufferLen - n) &&& (2 ^ n - 1) < 2 ^ n :=
      Nat.and_lt_two_pow _ (Nat.sub_lt (Nat.two_pow_pos n) Nat.one_pos)
    rw [lookUp, hrefill]
    dsimp only
    generalize d'.buffer >>> (d'.bufferLen - n) &&& (2 ^ n - 1) = i at hindex hlt
    have hlen' : (bits n i).length = n := length_bits n i
    cases hentry i hlt with
    | symbol m e hm he hg =>
      rw [hindex, take_take, Nat.min_eq_left (by omega)] at he
      obtain rfl : e = sym := by
        refine huffCode_prefixFree (x := (c ++ rest).drop m) (y := rest) ?_
        rw [he, hsym, append_assoc, append_assoc, take_append_drop]
      have hc := congrArg List.length (append_cancel_left (hsym.symm.trans he))
      rw [length_take, Nat.min_eq_left (by omega)] at hc
      have hstep := (hd'.consume (k := m) (by omega)).emit e
      rw [drop_left' hc] at hstep
      rw [hg]
      exact .inl hstep
    | step f e he hf hg =>
      rw [hindex] at he hf
      have hn' : n ≤ c.length := by
        by_contra hshort
        have hle := he.length_le
        rw [length_append, length_take, Nat.min_eq_left hlong] at hle
        rw [take_append, take_of_length_le (by omega), ← append_assoc, ← hsym] at he
        obtain ⟨t, ht⟩ := he
        rw [append_assoc] at ht
        obtain rfl : sym = e := huffCode_prefixFree (y := []) (ht.trans (append_nil _).symm)
        rw [hsym, length_append] at hle
        omega
      rw [take_append_of_le_length hn'] at hf
      have hstep := hd'.consume hlen
      rw [drop_append_of_le_length hn'] at hstep
      rw [hg, hlen']
      subst hrest
      exact hf (by rw [hsym, append_assoc, take_append_drop]) hk hstep
    | endOfString hw =>
      rw [hindex] at hw
      refine absurd ?_ (hw sym rest ((c ++ rest).drop n))
      rw [hsym, append_assoc, append_assoc, take_append_drop]
  · rw [not_le] at hlong
    obtain ⟨hrefill, hbits, hlen⟩ := hd.refillTo_none hlong hn
    rw [lookUp, hrefill]
    exact .inr (ended_of_endsOn hv hdep hend hsym hd hbits (by omega))

theorem Continues.of_fits {p w : List Bool} {g : HuffDecoder → HuffDecoder} {b : Nat}
    (h : fits p w k b = true) (hg : ∀ d, g d = (d.consume k).emit b) : Continues p w g := by
  rw [fits, Bool.and_eq_true, decide_eq_true_eq, decide_eq_true_eq] at h
  refine .symbol k (UInt8.ofNat b) h.1 h.2 fun d => ?_
  rw [hg, emit, emit, UInt8.ofNat_toNat]

/-- A step whose table fits reads the rest of a code, if the steps after it do. -/
theorem decodes_table {a b : Nat} {getEmit : Nat → Nat → Nat} {others : List (Nat × UInt8)}
    (hfit : tableFits n l v a b atEnd getOp getEmit others = true) (hdep : DependsOnBits atEnd)
    (hnext : ∀ i, getOp i >>> a &&& (2 ^ b - 1) = 0 → ∀ d, next i (getOp i) d =
      (d.consume (getOp i &&& (2 ^ a - 1))).emit (getEmit i (getOp i >>> (a + b))))
    (hothers : ∀ o ∈ others, ∃ f, Decodes f (bits l v ++ bits n o.1) ∧
      ∀ d, next o.1 (getOp o.1) d = f (d.consume n)) :
    Decodes (lookUp n atEnd getOp next) (bits l v) := by
  simp only [tableFits, Bool.and_eq_true, Bool.or_eq_true, all_eq_true, mem_range,
    any_eq_true, beq_iff_eq, decide_eq_true_eq, isPrefixOf_iff_prefix] at hfit
  obtain ⟨⟨hn, hv⟩, hend, hlonger, hfit⟩ := hfit
  refine decodes_lookUp hn hv hdep hend fun i hi => ?_
  rcases hfit i hi with ⟨o, ho, rfl⟩ | ⟨hkind, h⟩ | h
  · obtain ⟨f, hf, hg⟩ := hothers o ho
    exact .step f o.2 (hlonger o ho) hf (by simpa using hg)
  · exact .of_fits h (hnext i hkind)
  · exact .endOfString fun e x y => h ▸ not_prefix_endOfString e x y

theorem decodes_symbol {a : Nat} {getEmit : Nat → Nat → Nat}
    (hfit : tableFits n l v a 0 atEnd getOp getEmit [] = true) (hdep : DependsOnBits atEnd) :
    Decodes (symbol n a atEnd getOp getEmit) (bits l v) :=
  decodes_table hfit hdep (fun _ _ _ => rfl) (by simp)

theorem decodes_decodeStep13 : Decodes decodeStep13 (bits 28 (2 ^ 28 - 1)) :=
  decodes_table tablesFit.step13 dependsOnBits_done.2.2.2.2.1
    (fun i h d => by simp_all only [Nat.reducePow, Nat.reduceSub, Nat.reduceAdd]) (by simp)

theorem decodes_decodeStep12 : Decodes decodeStep12 (bits 23 (2 ^ 23 - 1)) :=
  decodes_table tablesFit.step12 dependsOnBits_done.2.2.2.1
    (fun i h d => by simp_all only [Nat.reducePow, Nat.reduceSub, Nat.reduceAdd])
    (forall_mem_singleton.2 ⟨_, decodes_decodeStep13, fun _ => rfl⟩)

theorem decodes_decodeStep2 : Decodes decodeStep2 (bits 15 (2 ^ 15 - 1)) := by
  refine decodes_table tablesFit.step2 dependsOnBits_done.2.2.1
    (fun i h d => by simp_all only [Nat.reducePow, Nat.reduceSub, Nat.reduceAdd]) ?_
  have h := dependsOnBits_truncated
  simp only [forall_mem_cons]
  exact ⟨⟨_, decodes_symbol tablesFit.step3 h, fun _ => rfl⟩,
    ⟨_, decodes_symbol tablesFit.step4 h, fun _ => rfl⟩,
    ⟨_, decodes_symbol tablesFit.step5 h, fun _ => rfl⟩,
    ⟨_, decodes_symbol tablesFit.step6 h, fun _ => rfl⟩,
    ⟨_, decodes_symbol tablesFit.step7 h, fun _ => rfl⟩,
    ⟨_, decodes_symbol tablesFit.step8 h, fun _ => rfl⟩,
    ⟨_, decodes_symbol tablesFit.step9 h, fun _ => rfl⟩,
    ⟨_, decodes_symbol tablesFit.step10 h, fun _ => rfl⟩,
    ⟨_, decodes_symbol tablesFit.step14 dependsOnBits_done.2.2.2.2.2, fun _ => rfl⟩,
    ⟨_, decodes_symbol tablesFit.step11 h, fun _ => rfl⟩,
    ⟨_, decodes_decodeStep12, fun _ => rfl⟩, by simp⟩

theorem decodes_decodeStep1 : Decodes decodeStep1 (bits 8 255) :=
  decodes_table tablesFit.step1 dependsOnBits_done.2.1
    (fun i h d => by simp_all only [Nat.reducePow, Nat.reduceSub, Nat.reduceAdd])
    (forall_mem_singleton.2 ⟨_, decodes_decodeStep2, fun _ => rfl⟩)

theorem decodes_decodeStep0 : Decodes decodeStep0 (bits 8 254) :=
  decodes_symbol tablesFit.step0 dependsOnBits_truncated

theorem decodes_round : Decodes round (bits 0 0) :=
  decodes_table tablesFit.round dependsOnBits_done.1
    (fun i h d => by simp_all only [Nat.reducePow, Nat.reduceSub, Nat.reduceAdd])
    (forall_mem_cons.2 ⟨⟨_, decodes_decodeStep0, fun _ => rfl⟩,
      forall_mem_singleton.2 ⟨_, decodes_decodeStep1, fun _ => rfl⟩⟩)

/-! ## Messages -/

/-- The padding at the end of the input is accepted. -/
theorem round_padding (hk : k < 8) (h : d.Reads (List.replicate k true) out) :
    d.round.Ended out := by
  obtain ⟨hrefill, hbits, hlen⟩ := h.refillTo_none (n := 8) (by simpa using hk) (Nat.le_refl 8)
  rw [round, lookUp, hrefill]
  obtain ⟨b, buffer, len, _, _, _⟩ := d
  obtain ⟨-, -, rfl, rfl, rfl⟩ := h
  simp only [length_replicate] at hlen hbits
  subst hlen
  rw [dependsOnBits_done.1 b buffer (2 ^ len - 1) len _ (hbits.trans (bits_allOnes len).symm)]
  obtain ⟨hdone, hok, hsink⟩ := tablesFit.padding len hk
  exact ⟨hdone, hok, by rw [within, hsink, append_nil]⟩

/-- A round for every symbol and one for the padding read a message. -/
theorem loop_reads {fuel : Nat} (hk : k < 8) (hfuel : message.length < fuel)
    (h : d.Reads (message.flatMap huffCode ++ List.replicate k true) out) :
    (d.loop fuel).Ended (out ++ message) := by
  induction message generalizing d out fuel with
  | nil =>
    obtain ⟨fuel, rfl⟩ := Nat.exists_eq_succ_of_ne_zero (Nat.ne_of_gt hfuel)
    have hround := round_padding hk h
    rw [loop, if_neg (by simp [h.done_eq]), loop_of_done hround.1, append_nil]
    exact hround
  | cons sym message ih =>
    obtain ⟨fuel, rfl⟩ := Nat.exists_eq_succ_of_ne_zero (Nat.ne_zero_of_lt hfuel)
    rw [flatMap_cons, append_assoc] at h
    rw [loop, if_neg (by simp [h.done_eq])]
    rcases decodes_round (nil_append _).symm hk h with hround | ⟨rfl, hround⟩
    · have hloop := ih (Nat.lt_of_succ_lt_succ hfuel) hround
      rwa [append_assoc] at hloop
    · rw [loop_of_done hround.1]
      exact hround

end HuffDecoder

theorem length_le_length_codes (s : Bytes) : s.length ≤ (s.flatMap huffCode).length := by
  induction s with
  | nil => exact Nat.le_refl 0
  | cons sym s ih =>
    have hcode := HuffDecoder.le_length_huffCode sym
    rw [flatMap_cons, length_append, length_cons]
    omega

/-- Bytes that hold the codes of a string, filled up with ones, are decoded to the string. -/
theorem huffDecode_of_isPadded {s bytes : Bytes} (h : IsPadded (s.flatMap huffCode) bytes) :
    huffDecode bytes = some s := by
  obtain ⟨k, hk, hunpack⟩ := h
  have hreads :
      HuffDecoder.Reads { begin := bytes } (s.flatMap huffCode ++ List.replicate k true) [] :=
    ⟨hunpack, Nat.succ_pos 15, rfl, rfl, rfl⟩
  have hfuel : s.length < HuffDecoder.bitsLeft { begin := bytes } + 1 := by
    have hlen := congrArg List.length hunpack
    have hle := length_le_length_codes s
    rw [length_unpack, length_append] at hlen
    exact Nat.lt_succ_of_le (Nat.le_trans hle (by simp only [HuffDecoder.bitsLeft]; omega))
  obtain ⟨-, hok, hsink⟩ := HuffDecoder.loop_reads hk hfuel hreads
  rw [huffDecode, HuffDecoder.run, if_pos hok, hsink, nil_append]

/-- The decoder that is used by default reads back what the encoder wrote. -/
theorem huffDecode_huffmanCompress (s : Bytes) :
    ∃ out, huffmanCompress s = some out ∧ huffDecode out = some s := by
  obtain ⟨out, hout, hpadded⟩ := huffmanCompress_isPadded s
  exact ⟨out, hout, huffDecode_of_isPadded hpadded⟩

end GrpcCore
