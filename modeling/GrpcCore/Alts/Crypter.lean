import Mathlib.Data.List.Nodup
import GrpcCore.Lib.LittleEndian

/-!
# ALTS crypters

`alts_counter.cc`, `alts_record_protocol_crypter_common.cc` and the seal and unseal crypters. A
crypter of the ALTS record protocol encrypts (or decrypts) with an AEAD whose nonce is a counter.
The low `overflow_size` bytes of the counter count, the first byte least significant, and the
highest bit of the last byte is the direction. An increment that wraps the low bytes to zero is
reported as an error, after the frame has been encrypted; the crypter does not keep the report, and
the next frame is encrypted with the counter at zero.

The AEAD is a parameter, with its nonce and tag lengths and with any results.
-/

namespace GrpcCore.Alts

open List LittleEndian

/-- The codes of `grpc_status_code` that the crypters return. -/
inductive StatusCode where
  | invalidArgument
  | failedPrecondition
  | internal

/-- A status that is not `GRPC_STATUS_OK`, with the error details. -/
structure Failure where
  code : StatusCode
  details : Option String := none

/-- `gsec_aead_crypter`. `room` is the size of the output buffer. -/
structure AeadCrypter where
  nonceLength : Nat
  tagLength : Nat
  encrypt (nonce aad plaintext : List UInt8) (room : Nat) : Except Failure (List UInt8)
  decrypt (nonce aad ciphertextAndTag : List UInt8) (room : Nat) : Except Failure (List UInt8)

/-! ## Counters -/

/-- `alts_counter`. -/
structure Counter where
  size : Nat
  overflowSize : Nat
  counter : List UInt8
  length_counter : counter.length = size
  overflowSize_pos : 0 < overflowSize
  overflowSize_lt : overflowSize < size

namespace Counter

/-- A zeroed array of `n` bytes, with the direction in its last byte. -/
def initial (isClient : Bool) (n : Nat) : List UInt8 :=
  if isClient then (List.replicate n 0).set (n - 1) 0x80 else List.replicate n 0

theorem length_initial (isClient : Bool) (n : Nat) : (initial isClient n).length = n := by
  cases isClient <;> simp [initial]

/-- `alts_counter_create`. -/
def create (isClient : Bool) (counterSize overflowSize : Nat) : Except Failure Counter :=
  if counterSize = 0 then .error ⟨.invalidArgument, "counter_size is invalid."⟩
  else if h : overflowSize = 0 ∨ counterSize ≤ overflowSize then
    .error ⟨.invalidArgument, "overflow_size is invalid."⟩
  else
    .ok {
      size := counterSize
      overflowSize := overflowSize
      counter := initial isClient counterSize
      length_counter := length_initial isClient counterSize
      overflowSize_pos := by omega
      overflowSize_lt := by omega }

/-- The loop of `alts_counter_increment`, and whether it went through all the bytes. -/
def incrementBytes : Nat → List UInt8 → List UInt8 × Bool
  | 0, bytes => (bytes, true)
  | _ + 1, [] => ([], true)
  | n + 1, b :: bytes =>
    if b + 1 ≠ 0 then ((b + 1) :: bytes, false)
    else
      let r := incrementBytes n bytes
      ((b + 1) :: r.1, r.2)

theorem length_incrementBytes (n : Nat) (bytes : List UInt8) :
    (incrementBytes n bytes).1.length = bytes.length := by
  fun_induction incrementBytes n bytes with
  | case1 => rfl
  | case2 => rfl
  | case3 => rfl
  | case4 n b bytes h r ih => rw [length_cons, ih, length_cons]

/-- `alts_counter_increment`: the counter, `is_overflow` and the status. -/
def increment (c : Counter) : Counter × Bool × Except Failure Unit :=
  let r := incrementBytes c.overflowSize c.counter
  ({ c with
      counter := r.1
      length_counter := (length_incrementBytes _ _).trans c.length_counter },
    r.2, if r.2 then .error ⟨.failedPrecondition, none⟩ else .ok ())

end Counter

/-! ## Crypters -/

/-- `alts_record_protocol_crypter`. -/
structure Crypter where
  aead : AeadCrypter
  ctr : Counter

/-- `increment_counter`. The counter has returned an error when it is wrapped, so that the second
error is never reached. -/
def incrementCounter (c : Crypter) : Crypter × Except Failure Unit :=
  match c.ctr.increment with
  | (ctr, _, .error e) => ({ c with ctr }, .error e)
  | (ctr, true, .ok _) =>
    ({ c with ctr }, .error ⟨.internal, "crypter counter is wrapped. The connection" ++
      "should be closed and the key should be deleted."⟩)
  | (ctr, false, .ok _) => ({ c with ctr }, .ok ())

/-- `alts_crypter_create_common`. -/
def createCommon (aead : AeadCrypter) (isClient : Bool) (overflowSize : Nat) :
    Except Failure Crypter :=
  match Counter.create isClient aead.nonceLength overflowSize with
  | .ok ctr => .ok { aead, ctr }
  | .error e => .error ⟨.failedPrecondition, e.details⟩

/-- `alts_seal_crypter_create`. -/
def sealCreate (aead : AeadCrypter) (isClient : Bool) (overflowSize : Nat) :
    Except Failure Crypter :=
  createCommon aead (!isClient) overflowSize

/-- `alts_unseal_crypter_create`. -/
def unsealCreate (aead : AeadCrypter) (isClient : Bool) (overflowSize : Nat) :
    Except Failure Crypter :=
  createCommon aead isClient overflowSize

/-- The arguments of `alts_crypter_process_in_place`: the buffer, of `data_allocated_size` bytes,
and how many of them are data. A null pointer is a `none` or `false`. -/
structure Call where
  data : Option (List UInt8)
  dataSize : Nat
  outputSize : Bool := true

/-- What a call leaves: the crypter, the status, and the bytes written to the buffer. -/
structure Processed where
  crypter : Crypter
  status : Except Failure Unit
  output : List UInt8 := []

namespace Crypter

/-- `input_sanity_check`, with the buffer when it is there. -/
def inputSanityCheck (call : Call) : Except Failure (List UInt8) :=
  match call.data with
  | none => .error ⟨.invalidArgument, "data is nullptr."⟩
  | some data =>
    if call.outputSize then .ok data else .error ⟨.invalidArgument, "output_size is nullptr."⟩

/-- `seal_check`, with the buffer. -/
def sealCheck (c : Crypter) (call : Call) : Except Failure (List UInt8) :=
  match inputSanityCheck call with
  | .error e => .error e
  | .ok data =>
    if call.dataSize = 0 then .error ⟨.invalidArgument, "data_size is zero."⟩
    else if data.length < call.dataSize + c.aead.tagLength then
      .error ⟨.invalidArgument, "data_allocated_size is smaller than sum of data_size and " ++
        "num_overhead_bytes."⟩
    else .ok data

/-- `unseal_check`, with the buffer. -/
def unsealCheck (c : Crypter) (call : Call) : Except Failure (List UInt8) :=
  match inputSanityCheck call with
  | .error e => .error e
  | .ok data =>
    if call.dataSize < c.aead.tagLength then
      .error ⟨.invalidArgument, "data_size is smaller than num_overhead_bytes."⟩
    else .ok data

/-- The part of `process_in_place` after the check and the AEAD, the same for both crypters. -/
def finish (c : Crypter) : Except Failure (List UInt8) → Processed
  | .error e => { crypter := c, status := .error e }
  | .ok output =>
    let r := incrementCounter c
    { crypter := r.1, status := r.2, output }

/-- `alts_seal_crypter_process_in_place`. -/
def sealInPlace (c : Crypter) (call : Call) : Processed :=
  match c.sealCheck call with
  | .error e => { crypter := c, status := .error e }
  | .ok data =>
    c.finish (c.aead.encrypt c.ctr.counter [] (data.take call.dataSize) data.length)

/-- `alts_unseal_crypter_process_in_place`. -/
def unsealInPlace (c : Crypter) (call : Call) : Processed :=
  match c.unsealCheck call with
  | .error e => { crypter := c, status := .error e }
  | .ok data =>
    c.finish (c.aead.decrypt c.ctr.counter [] (data.take call.dataSize) data.length)

/-! ## Nonces -/

/-- The AEAD is asked to encrypt, with the counter as its nonce. -/
def usesNonce (c : Crypter) (call : Call) : Bool := (c.sealCheck call).isOk

def encrypts (c : Crypter) (call : Call) : Bool :=
  match c.sealCheck call with
  | .error _ => false
  | .ok data => (c.aead.encrypt c.ctr.counter [] (data.take call.dataSize) data.length).isOk

def encryptions : Crypter → List Call → Nat
  | _, [] => 0
  | c, call :: calls =>
    (if c.encrypts call then 1 else 0) + encryptions (c.sealInPlace call).crypter calls

def okNonces : Crypter → List Call → List (List UInt8)
  | _, [] => []
  | c, call :: calls =>
    let r := c.sealInPlace call
    (if r.status.isOk then [c.ctr.counter] else []) ++ okNonces r.crypter calls

/-- The nonces that the calls use, whatever they return. -/
def usedNonces : Crypter → List Call → List (List UInt8)
  | _, [] => []
  | c, call :: calls =>
    (if c.usesNonce call then [c.ctr.counter] else []) ++
      usedNonces (c.sealInPlace call).crypter calls

end Crypter

namespace Counter

/-- The low bytes of the counter have counted to `j`; the bytes after them never change. -/
structure Counts (c : Counter) (k : Nat) (suffix : List UInt8) (j : Nat) : Prop where
  overflowSize_eq : c.overflowSize = k
  counter_eq : c.counter = bytes k j ++ suffix

theorem incrementBytes_bytes (n m : Nat) (suffix : List UInt8) :
    incrementBytes n (bytes n m ++ suffix) =
      (bytes n (m + 1) ++ suffix, decide ((m + 1) % 256 ^ n = 0)) := by
  induction n generalizing m with
  | zero => simp [bytes, incrementBytes, Nat.mod_one]
  | succ n ih =>
    have hlow : UInt8.ofNat m + 1 = UInt8.ofNat (m + 1) := (UInt8.ofNat_add m 1).symm
    have hzero : UInt8.ofNat (m + 1) = 0 ↔ (m + 1) % 256 = 0 := by
      rw [← UInt8.toNat_inj]
      rfl
    have hmod : (m + 1) % 256 ^ (n + 1) =
        (m + 1) % 256 + 256 * ((m + 1) / 256 % 256 ^ n) := by rw [pow_succ', Nat.mod_mul]
    rw [bytes, cons_append, incrementBytes, hlow, bytes, cons_append]
    by_cases h : (m + 1) % 256 = 0
    · -- the carry goes on to the next byte
      have hdiv : (m + 1) / 256 = m / 256 + 1 := by omega
      rw [if_neg (by rw [ne_eq, not_not, hzero]; exact h), ih, hdiv]
      simp only [Prod.mk.injEq, true_and, decide_eq_decide]
      rw [hmod, hdiv]
      omega
    · have hdiv : (m + 1) / 256 = m / 256 := by omega
      rw [if_pos (by rw [ne_eq, hzero]; exact h), hdiv]
      simp only [Prod.mk.injEq, true_and]
      exact (decide_eq_false (by omega)).symm

variable {c : Counter} {k : Nat}

theorem Counts.increment {j : Nat} {suffix : List UInt8} (h : c.Counts k suffix j) :
    c.increment.1.Counts k suffix (j + 1) ∧ c.increment.2.1 = decide ((j + 1) % 256 ^ k = 0) := by
  have heq := incrementBytes_bytes k j suffix
  rw [← h.counter_eq] at heq
  obtain ⟨rfl, -⟩ := h
  exact ⟨⟨rfl, congrArg Prod.fst heq⟩, congrArg Prod.snd heq⟩

theorem initial_add (isClient : Bool) {d : Nat} (hd : 0 < d) :
    initial isClient (k + d) = bytes k 0 ++ initial isClient d := by
  rw [bytes_zero]
  cases isClient with
  | false => exact replicate_add k d 0
  | true =>
    have hlast : (List.replicate k (0 : UInt8)).length ≤ k + d - 1 := by
      rw [length_replicate]
      omega
    have hsub : k + d - 1 - k = d - 1 := by omega
    rw [initial, if_pos rfl, replicate_add, set_append_right _ _ hlast,
      length_replicate, hsub]
    rfl

theorem getLast?_initial (isClient : Bool) {n : Nat} (h : 0 < n) :
    (initial isClient n).getLast? = some (if isClient then 0x80 else 0) := by
  obtain ⟨n, rfl⟩ := Nat.exists_eq_succ_of_ne_zero (Nat.ne_of_gt h)
  cases isClient <;> simp [initial, getLast?_eq_getElem?]

/-- A new counter stands at zero; the bytes that do not count end with the direction. -/
theorem create_counts {isClient : Bool} {size : Nat} (h : create isClient size k = .ok c) :
    c.Counts k (initial isClient (size - k)) 0 ∧ 0 < k ∧ k < size := by
  unfold create at h
  split_ifs at h with h₁ h₂
  obtain rfl := Except.ok.inj h
  obtain ⟨d, rfl⟩ : ∃ d, size = k + d := ⟨size - k, by omega⟩
  refine ⟨⟨rfl, ?_⟩, by omega, by omega⟩
  rw [Nat.add_sub_cancel_left]
  exact initial_add isClient (by omega)

end Counter

variable {c : Crypter} {k j : Nat} {suffix : List UInt8} {call : Call}

theorem incrementCounter_counts (h : c.ctr.Counts k suffix j) :
    (incrementCounter c).1.ctr.Counts k suffix (j + 1) ∧
      ((incrementCounter c).2.isOk = true ↔ (j + 1) % 256 ^ k ≠ 0) := by
  obtain ⟨hcounts, hflag⟩ := h.increment
  have hinc : c.ctr.increment = (c.ctr.increment.1, c.ctr.increment.2.1,
    if c.ctr.increment.2.1 then .error ⟨.failedPrecondition, none⟩ else .ok ()) := rfl
  by_cases hwrap : (j + 1) % 256 ^ k = 0
  · rw [hflag, decide_eq_true hwrap, if_pos rfl] at hinc
    rw [incrementCounter, hinc]
    exact ⟨hcounts, iff_of_false Bool.false_ne_true (not_not_intro hwrap)⟩
  · rw [hflag, decide_eq_false hwrap, if_neg Bool.false_ne_true] at hinc
    rw [incrementCounter, hinc]
    exact ⟨hcounts, iff_of_true rfl hwrap⟩

theorem Crypter.sealInPlace_of_not_encrypts (h : c.encrypts call = false) :
    (c.sealInPlace call).crypter = c ∧ (c.sealInPlace call).status.isOk = false := by
  unfold Crypter.encrypts at h
  unfold Crypter.sealInPlace
  cases hcheck : c.sealCheck call with
  | error e => exact ⟨rfl, rfl⟩
  | ok data =>
    rw [hcheck] at h
    dsimp only at h ⊢
    cases henc : c.aead.encrypt c.ctr.counter [] (data.take call.dataSize) data.length with
    | error e => exact ⟨rfl, rfl⟩
    | ok output =>
      rw [henc] at h
      cases h

theorem Crypter.sealInPlace_of_encrypts (h : c.encrypts call = true) :
    (c.sealInPlace call).crypter = (incrementCounter c).1 ∧
      (c.sealInPlace call).status = (incrementCounter c).2 := by
  unfold Crypter.encrypts at h
  unfold Crypter.sealInPlace
  cases hcheck : c.sealCheck call with
  | error e =>
    rw [hcheck] at h
    cases h
  | ok data =>
    rw [hcheck] at h
    dsimp only at h ⊢
    cases henc : c.aead.encrypt c.ctr.counter [] (data.take call.dataSize) data.length with
    | error e =>
      rw [henc] at h
      cases h
    | ok output => exact ⟨rfl, rfl⟩

/-- The encryptions count on from `j`. Those that return `GRPC_STATUS_OK` are all but the ones that
wrap the counter. -/
theorem Crypter.okNonces_eq (h : c.ctr.Counts k suffix j) (calls : List Call) :
    c.okNonces calls = ((List.range (c.encryptions calls)).filter
      fun i => (j + i + 1) % 256 ^ k ≠ 0).map fun i => bytes k (j + i) ++ suffix := by
  induction calls generalizing c j with
  | nil => rfl
  | cons call calls ih =>
    rw [okNonces, encryptions]
    cases henc : c.encrypts call with
    | false =>
      obtain ⟨hcrypter, hstatus⟩ := sealInPlace_of_not_encrypts henc
      rw [hcrypter, hstatus, ih h, if_neg Bool.false_ne_true, if_neg Bool.false_ne_true,
        Nat.zero_add, nil_append]
    | true =>
      obtain ⟨hcrypter, hstatus⟩ := sealInPlace_of_encrypts henc
      obtain ⟨hcounts, hok⟩ := incrementCounter_counts h
      rw [hcrypter, hstatus, ih hcounts, if_pos rfl, Nat.add_comm 1, range_succ_eq_map,
        filter_cons, filter_map, h.counter_eq]
      have hshift (i : Nat) : j + 1 + i = j + (i + 1) := by omega
      by_cases hwrap : (j + 1) % 256 ^ k = 0
      · rw [if_neg (by rw [hok]; exact not_not_intro hwrap), if_neg (by simpa using hwrap)]
        simp [Function.comp_def, hshift]
      · rw [if_pos (hok.2 hwrap), if_pos (by simpa using hwrap)]
        simp [Function.comp_def, hshift]

theorem Crypter.okNonces_nodup_iff (h : c.ctr.Counts k suffix 0) (hk : 0 < k) (calls : List Call) :
    (c.okNonces calls).Nodup ↔ c.encryptions calls ≤ 256 ^ k := by
  have hN : 1 < 256 ^ k := Nat.one_lt_pow (Nat.ne_of_gt hk) (by decide)
  have hnonce (i i' : Nat) : bytes k (0 + i) ++ suffix = bytes k (0 + i') ++ suffix ↔
      i % 256 ^ k = i' % 256 ^ k := by
    rw [append_left_inj, bytes_eq_iff, Nat.zero_add, Nat.zero_add]
  rw [okNonces_eq h]
  constructor
  · -- the first call and the one after the wrap have the same nonce
    intro hnodup
    by_contra hlt
    have hzero : 0 ∈ (List.range (c.encryptions calls)).filter
        fun i => (0 + i + 1) % 256 ^ k ≠ 0 := by
      rw [mem_filter, mem_range]
      exact ⟨by omega, by simp [Nat.mod_eq_of_lt hN]⟩
    have hwrap : 256 ^ k ∈ (List.range (c.encryptions calls)).filter
        fun i => (0 + i + 1) % 256 ^ k ≠ 0 := by
      rw [mem_filter, mem_range]
      exact ⟨by omega, by simp [Nat.mod_eq_of_lt hN]⟩
    have heq := inj_on_of_nodup_map hnodup hzero hwrap
      ((hnonce _ _).2 (by rw [Nat.zero_mod, Nat.mod_self]))
    omega
  · intro hle
    refine List.Nodup.map_on ?_ (nodup_range.filter _)
    intro i hi i' hi' heq
    rw [mem_filter, mem_range] at hi hi'
    rw [hnonce, Nat.mod_eq_of_lt (by omega), Nat.mod_eq_of_lt (by omega)] at heq
    exact heq

variable {nonce : List UInt8} {calls : List Call} {aead : AeadCrypter} {isClient : Bool}

theorem Crypter.mem_usedNonces (h : c.ctr.Counts k suffix j) (hmem : nonce ∈ c.usedNonces calls) :
    ∃ i, nonce = bytes k i ++ suffix := by
  induction calls generalizing c j with
  | nil => cases hmem
  | cons call calls ih =>
    rw [usedNonces, mem_append] at hmem
    rcases hmem with hmem | hmem
    · split_ifs at hmem
      · rw [mem_singleton.1 hmem]
        exact ⟨j, h.counter_eq⟩
      · cases hmem
    · cases henc : c.encrypts call with
      | false =>
        rw [(sealInPlace_of_not_encrypts henc).1] at hmem
        exact ih h hmem
      | true =>
        rw [(sealInPlace_of_encrypts henc).1] at hmem
        exact ih (incrementCounter_counts h).1 hmem

theorem sealCreate_counts (h : sealCreate aead isClient k = .ok c) :
    c.ctr.Counts k (Counter.initial (!isClient) (aead.nonceLength - k)) 0 ∧
      0 < k ∧ k < aead.nonceLength := by
  unfold sealCreate createCommon at h
  cases hctr : Counter.create (!isClient) aead.nonceLength k with
  | error e =>
    rw [hctr] at h
    cases h
  | ok ctr =>
    rw [hctr] at h
    obtain rfl := Except.ok.inj h
    exact Counter.create_counts hctr

theorem Crypter.getLast?_of_mem_usedNonces (h : sealCreate aead isClient k = .ok c)
    (hmem : nonce ∈ c.usedNonces calls) :
    nonce.getLast? = some (if isClient then 0 else 0x80) := by
  obtain ⟨hcounts, -, hlt⟩ := sealCreate_counts h
  obtain ⟨i, rfl⟩ := mem_usedNonces hcounts hmem
  have hlast := Counter.getLast?_initial (!isClient) (Nat.sub_pos_of_lt hlt)
  rw [getLast?_append, hlast]
  cases isClient <;> rfl

/-- The calls of a seal crypter that return `GRPC_STATUS_OK` have different nonces exactly when the
AEAD encrypts at most as many of them as the counting bytes can count. A client and a server that
seal under the same key never use the same nonce. -/
theorem seal_nonces_unique_iff (aead : AeadCrypter) :
    (∀ isClient k c, sealCreate aead isClient k = .ok c → ∀ calls,
      (c.okNonces calls).Nodup ↔ c.encryptions calls ≤ 2 ^ (8 * k)) ∧
    ∀ k k' client server, sealCreate aead true k = .ok client →
      sealCreate aead false k' = .ok server → ∀ calls calls',
      ∀ nonce ∈ client.usedNonces calls, nonce ∉ server.usedNonces calls' := by
  constructor
  · intro isClient k c hc calls
    obtain ⟨hcounts, hk, -⟩ := sealCreate_counts hc
    rw [pow_mul]
    exact Crypter.okNonces_nodup_iff hcounts hk calls
  · intro k k' client server hclient hserver calls calls' nonce hmem hmem'
    have hc := Crypter.getLast?_of_mem_usedNonces hclient hmem
    have hs := Crypter.getLast?_of_mem_usedNonces hserver hmem'
    rw [hc] at hs
    exact absurd hs (by decide)

/-- An AEAD that leaves the data as it is. -/
def plainAead (nonceLength : Nat) : AeadCrypter where
  nonceLength := nonceLength
  tagLength := 0
  encrypt _ _ plaintext _ := .ok plaintext
  decrypt _ _ ciphertext _ := .ok ciphertext

/-- With one counting byte, the 256th call wraps the counter and fails, and the 257th call encrypts
with the nonce of the first one and returns `GRPC_STATUS_OK`. -/
theorem seal_nonces_repeat : ∃ c, sealCreate (plainAead 12) true 1 = .ok c ∧
    (c.okNonces (List.replicate 257 ⟨some [7], 1, true⟩))[0]? = some (List.replicate 12 0) ∧
    (c.okNonces (List.replicate 257 ⟨some [7], 1, true⟩))[255]? = some (List.replicate 12 0) :=
  ⟨_, rfl, by decide +kernel, by decide +kernel⟩

end GrpcCore.Alts
