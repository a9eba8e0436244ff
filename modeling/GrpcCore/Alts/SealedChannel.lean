import GrpcCore.Alts.Crypter

/-!
# A sealed channel

The seal crypter of one side and the unseal crypter of the other, with a network between them that
is in the hands of an attacker: frames are lost, repeated, reordered and changed, and any bytes may
arrive. The attacker may even know the frames before they are sealed, so that it does not matter how
the calls of the two sides are interleaved. Only the counters keep the sides in step; that of the
unseal crypter moves when the AEAD accepts a frame, so that what it rejects does no harm.

Assumed is that decryption inverts encryption, that the AEAD accepts under a nonce only a frame that
was sealed under it, and that the connection is closed before the counter wraps.
-/

namespace GrpcCore.Alts

open List Option LittleEndian

/-- The data of a call. -/
def Call.bytes (call : Call) : List UInt8 := (call.data.getD []).take call.dataSize

/-- What a successful call has sealed. -/
structure Sealed where
  nonce : List UInt8
  data : List UInt8
  frame : List UInt8

namespace Crypter

/-- The calls of the seal crypter that return `GRPC_STATUS_OK`. -/
def sealAll : Crypter → List Call → List Sealed
  | _, [] => []
  | c, call :: calls =>
    let r := c.sealInPlace call
    (if r.status.isOk then [⟨c.ctr.counter, call.bytes, r.output⟩] else []) ++
      sealAll r.crypter calls

/-- What the calls of the unseal crypter that return `GRPC_STATUS_OK` give out. -/
def unsealAll : Crypter → List Call → List (List UInt8)
  | _, [] => []
  | c, call :: calls =>
    let r := c.unsealInPlace call
    (if r.status.isOk then [r.output] else []) ++ unsealAll r.crypter calls

/-- What the AEAD accepts was sealed under the nonce at which the unseal crypter stands. -/
def NoForgery (log : List Sealed) : Crypter → List Call → Prop
  | _, [] => True
  | c, call :: calls =>
    ((c.aead.decrypt c.ctr.counter [] call.bytes (call.data.getD []).length).isOk →
      ∃ e ∈ log, e.nonce = c.ctr.counter ∧ e.frame = call.bytes) ∧
    NoForgery log (c.unsealInPlace call).crypter calls

end Crypter

/-- Decryption inverts encryption, whatever the room in the two buffers. -/
def AeadCrypter.Inverts (aead : AeadCrypter) : Prop :=
  ∀ nonce data room frame, aead.encrypt nonce [] data room = .ok frame →
    aead.tagLength ≤ frame.length ∧
      ∀ room' ≥ frame.length, aead.decrypt nonce [] frame room' = .ok data

variable {c u : Crypter} {call : Call} {calls : List Call} {aead : AeadCrypter} {k j : Nat}
  {suffix data : List UInt8} {isClient : Bool} {pre rest : List Sealed}

theorem incrementCounter_aead (c : Crypter) : (incrementCounter c).1.aead = c.aead := by
  unfold incrementCounter
  split <;> rfl

namespace Crypter

theorem inputSanityCheck_eq_ok (h : inputSanityCheck call = .ok data) : call.data = some data := by
  unfold inputSanityCheck at h
  split at h
  · cases h
  · next hdata =>
    split_ifs at h
    rw [hdata, Except.ok.inj h]

theorem finish_cases (c : Crypter) (r : Except Failure (List UInt8)) :
    ((c.finish r).crypter = c ∧ (c.finish r).status.isOk = false) ∨
      ∃ out, r = .ok out ∧ c.finish r = ⟨(incrementCounter c).1, (incrementCounter c).2, out⟩ := by
  cases r with
  | error e => exact .inl ⟨rfl, rfl⟩
  | ok out => exact .inr ⟨out, rfl, rfl⟩

/-- A call leaves the crypter alone, or the AEAD has sealed its data. -/
theorem sealInPlace_cases (c : Crypter) (call : Call) :
    ((c.sealInPlace call).crypter = c ∧ (c.sealInPlace call).status.isOk = false) ∨
      ∃ frame, c.aead.encrypt c.ctr.counter [] call.bytes (call.data.getD []).length = .ok frame ∧
        c.sealInPlace call = ⟨(incrementCounter c).1, (incrementCounter c).2, frame⟩ := by
  unfold sealInPlace sealCheck
  cases hcheck : inputSanityCheck call with
  | error e => exact .inl ⟨rfl, rfl⟩
  | ok data =>
    rw [Call.bytes, inputSanityCheck_eq_ok hcheck]
    dsimp only
    split_ifs
    · exact .inl ⟨rfl, rfl⟩
    · exact .inl ⟨rfl, rfl⟩
    · exact finish_cases c _

theorem unsealInPlace_cases (c : Crypter) (call : Call) :
    ((c.unsealInPlace call).crypter = c ∧ (c.unsealInPlace call).status.isOk = false) ∨
      ∃ out, c.aead.decrypt c.ctr.counter [] call.bytes (call.data.getD []).length = .ok out ∧
        c.unsealInPlace call = ⟨(incrementCounter c).1, (incrementCounter c).2, out⟩ := by
  unfold unsealInPlace unsealCheck
  cases hcheck : inputSanityCheck call with
  | error e => exact .inl ⟨rfl, rfl⟩
  | ok data =>
    rw [Call.bytes, inputSanityCheck_eq_ok hcheck]
    split_ifs
    · exact .inl ⟨rfl, rfl⟩
    · exact finish_cases c _

theorem unsealInPlace_of_decrypt (hcall : call.data.isSome ∧ call.outputSize)
    (htag : c.aead.tagLength ≤ call.bytes.length)
    (hdec : c.aead.decrypt c.ctr.counter [] call.bytes (call.data.getD []).length = .ok data) :
    c.unsealInPlace call = ⟨(incrementCounter c).1, (incrementCounter c).2, data⟩ := by
  obtain ⟨buffer, hbuffer⟩ := isSome_iff_exists.1 hcall.1
  rw [Call.bytes, hbuffer] at htag hdec
  have hcheck : c.unsealCheck call = .ok buffer := by
    rw [unsealCheck, inputSanityCheck, hbuffer]
    dsimp only
    rw [if_pos hcall.2]
    exact if_neg (Nat.not_lt.2 (htag.trans (length_take_le ..)))
  rw [unsealInPlace, hcheck]
  exact congrArg c.finish hdec

theorem length_sealAll_le (c : Crypter) (calls : List Call) :
    (c.sealAll calls).length ≤ calls.length := by
  induction calls generalizing c with
  | nil => exact Nat.le_refl 0
  | cons call calls ih =>
    have := ih (c.sealInPlace call).crypter
    rw [sealAll]
    split_ifs <;> simp <;> omega

/-- What the calls have sealed, with the counter as the nonce. -/
theorem mem_sealAll (h : c.ctr.Counts k suffix j) (haead : c.aead = aead)
    (hwrap : j + calls.length < 256 ^ k) {i : Nat} {e : Sealed}
    (he : (c.sealAll calls)[i]? = some e) : e.nonce = bytes k (j + i) ++ suffix ∧
      ∃ room, aead.encrypt e.nonce [] e.data room = .ok e.frame := by
  induction calls generalizing c j i with
  | nil => cases he
  | cons call calls ih =>
    rw [length_cons] at hwrap
    rw [sealAll] at he
    rcases c.sealInPlace_cases call with ⟨hcrypter, hstatus⟩ | ⟨frame, henc, heq⟩
    · rw [hcrypter, hstatus] at he
      exact ih h haead (by omega) he
    · obtain ⟨hcounts, hok⟩ := incrementCounter_counts h
      have hstatus := hok.2 (by rw [Nat.mod_eq_of_lt (by omega)]; omega)
      rw [heq] at he
      rw [if_pos hstatus] at he
      cases i with
      | zero =>
        obtain rfl := some.inj he
        exact ⟨h.counter_eq, _, haead ▸ henc⟩
      | succ i =>
        have := ih hcounts ((incrementCounter_aead c).trans haead) (by omega) he
        rwa [Nat.add_right_comm] at this

/-- The log of a seal crypter whose counter has started at zero. -/
def IsLog (aead : AeadCrypter) (k : Nat) (suffix : List UInt8) (log : List Sealed) : Prop :=
  log.length < 256 ^ k ∧ ∀ i e, log[i]? = some e → e.nonce = bytes k i ++ suffix ∧
    ∃ room, aead.encrypt e.nonce [] e.data room = .ok e.frame

/-- The frame at which the unseal crypter stands is decrypted, and the counter does not wrap. -/
theorem decrypt_next (h : u.ctr.Counts k suffix pre.length) (hinv : aead.Inverts) {e : Sealed}
    (hlog : IsLog aead k suffix (pre ++ e :: rest)) (hframe : e.frame = call.bytes) :
    aead.decrypt u.ctr.counter [] call.bytes (call.data.getD []).length = .ok e.data ∧
      aead.tagLength ≤ call.bytes.length ∧ (incrementCounter u).2.isOk = true := by
  obtain ⟨hlen, hlog⟩ := hlog
  obtain ⟨hnonce, room, henc⟩ := hlog pre.length e (by simp)
  rw [length_append, length_cons] at hlen
  obtain ⟨htag, hdec⟩ := hinv _ _ _ _ henc
  rw [hframe, hnonce, ← h.counter_eq] at hdec
  refine ⟨hdec _ (length_take_le' ..), hframe ▸ htag, (incrementCounter_counts h).2.2 ?_⟩
  rw [Nat.mod_eq_of_lt (by omega)]
  omega

/-- Only the frame at which the unseal crypter stands is accepted. -/
theorem eq_cons_of_mem (h : u.ctr.Counts k suffix pre.length)
    (hlog : IsLog aead k suffix (pre ++ rest)) {e : Sealed} (he : e ∈ pre ++ rest)
    (hnonce : e.nonce = u.ctr.counter) : ∃ rest', rest = e :: rest' := by
  obtain ⟨hlen, hlog⟩ := hlog
  obtain ⟨i, hi, rfl⟩ := mem_iff_getElem.1 he
  have hle : (pre ++ rest).length = pre.length + rest.length := length_append
  rw [(hlog i _ (getElem?_eq_getElem hi)).1, h.counter_eq, append_left_inj, bytes_eq_iff,
    Nat.mod_eq_of_lt (by omega), Nat.mod_eq_of_lt (by omega)] at hnonce
  subst hnonce
  cases rest with
  | nil => simp at hi
  | cons e rest => exact ⟨rest, by simp⟩

theorem unsealAll_spec (h : u.ctr.Counts k suffix pre.length) (haead : u.aead = aead)
    (hinv : aead.Inverts) (hlog : IsLog aead k suffix (pre ++ rest))
    (hforge : NoForgery (pre ++ rest) u calls) :
    u.unsealAll calls <+: rest.map Sealed.data ∧
      ((∀ call ∈ calls, call.data.isSome ∧ call.outputSize) →
        (rest.map Sealed.frame).Sublist (calls.map Call.bytes) →
        u.unsealAll calls = rest.map Sealed.data) := by
  induction calls generalizing u pre rest with
  | nil =>
    refine ⟨ nil_prefix, fun _ hsub => ?_⟩
    rw [map_nil, sublist_nil, map_eq_nil_iff] at hsub
    rw [hsub]
    rfl
  | cons call calls ih =>
    obtain ⟨hauth, hforge⟩ := hforge
    rw [unsealAll]
    rcases u.unsealInPlace_cases call with ⟨hcrypter, hstatus⟩ | ⟨out, hdec, heq⟩
    · rw [hcrypter] at hforge ⊢
      rw [hstatus]
      obtain ⟨hfirst, hall⟩ := ih h haead hlog hforge
      refine ⟨hfirst, fun hcalls hsub => hall (fun c hc => hcalls c (mem_cons_of_mem _ hc)) ?_⟩
      -- The frame that is next would have been accepted.
      rw [map_cons, sublist_cons_iff] at hsub
      rcases hsub with hsub | ⟨frames, hframes, -⟩
      · exact hsub
      · obtain ⟨e, rest, rfl, hframe, -⟩ := map_eq_cons_iff.1 hframes
        obtain ⟨hdec, htag, hok⟩ := decrypt_next h hinv hlog hframe
        rw [← haead] at hdec htag
        rw [unsealInPlace_of_decrypt (hcalls call mem_cons_self) htag hdec] at hstatus
        cases hok.symm.trans hstatus
    · obtain ⟨e, hmem, hnonce, hframe⟩ := hauth (by rw [hdec]; rfl)
      obtain ⟨rest, rfl⟩ := eq_cons_of_mem h hlog hmem hnonce
      obtain ⟨hdec', -, hok⟩ := decrypt_next h hinv hlog hframe
      rw [haead, hdec'] at hdec
      obtain rfl := Except.ok.inj hdec
      rw [heq] at hforge ⊢
      have hcounts := (incrementCounter_counts h).1
      rw [show pre.length + 1 = (pre ++ [e]).length by simp] at hcounts
      rw [append_cons] at hlog hforge
      obtain ⟨hfirst, hall⟩ := ih hcounts ((incrementCounter_aead u).trans haead) hlog hforge
      rw [if_pos hok]
      refine ⟨cons_prefix_cons.2 ⟨rfl, hfirst⟩, fun hcalls hsub => congrArg (e.data :: ·) ?_⟩
      exact hall (fun c hc => hcalls c (mem_cons_of_mem _ hc)) hsub.of_cons_cons

end Crypter

/-- Whatever arrives and in whatever order, an unseal crypter gives out a first part of what the
seal crypter of the other side has sealed: unchanged, in its order, nothing twice and nothing left
out in between. If the frames arrive in their order, with anything before, between and after them,
it gives out everything. -/
theorem unsealAll_sealAll (hinv : aead.Inverts) (hc : sealCreate aead isClient k = .ok c)
    (hu : unsealCreate aead (!isClient) k = .ok u) (sends arrivals : List Call)
    (hwrap : sends.length < 256 ^ k) (hforge : u.NoForgery (c.sealAll sends) arrivals) :
    u.unsealAll arrivals <+: (c.sealAll sends).map Sealed.data ∧
      ((∀ call ∈ arrivals, call.data.isSome ∧ call.outputSize) →
        ((c.sealAll sends).map Sealed.frame).Sublist (arrivals.map Call.bytes) →
        u.unsealAll arrivals = (c.sealAll sends).map Sealed.data) := by
  obtain ⟨hcounts, -⟩ := sealCreate_counts hc
  -- Both crypters start with the same counter.
  obtain rfl : c = u := Except.ok.inj (hc.symm.trans hu)
  have haead : c.aead = aead := by
    unfold sealCreate createCommon at hc
    split at hc
    · rw [← Except.ok.inj hc]
    · cases hc
  have hlog : Crypter.IsLog aead k _ ([] ++ c.sealAll sends) :=
    ⟨(c.length_sealAll_le sends).trans_lt hwrap, fun i e he =>
      Nat.zero_add i ▸ Crypter.mem_sealAll hcounts haead (by omega) he⟩
  refine Crypter.unsealAll_spec ?_ haead hinv hlog hforge
  exact hcounts

/-- An AEAD whose tag is the first byte of the nonce. -/
def taggingAead : AeadCrypter where
  nonceLength := 12
  tagLength := 1
  encrypt nonce _ plaintext _ := .ok (nonce.headD 0 :: plaintext)
  decrypt nonce _ ciphertextAndTag _ :=
    if ciphertextAndTag.head? = some (nonce.headD 0) then .ok ciphertextAndTag.tail
    else .error ⟨.failedPrecondition, none⟩

/-- The second of two frames arrives first, then the first one twice, then the second one again. -/
theorem unsealAll_sealAll_reordered : ∃ c u, sealCreate taggingAead true 5 = .ok c ∧
    unsealCreate taggingAead false 5 = .ok u ∧
    u.unsealAll [⟨some [1, 8], 2, true⟩, ⟨some [0, 7], 2, true⟩, ⟨some [0, 7], 2, true⟩,
      ⟨some [1, 8], 2, true⟩] =
    (c.sealAll [⟨some [7, 0], 1, true⟩, ⟨some [8, 0], 1, true⟩]).map Sealed.data := by
  have hinv : taggingAead.Inverts := by
    rintro nonce data room _ ⟨⟩
    exact ⟨by simp [taggingAead], fun _ _ => if_pos rfl⟩
  have hc : sealCreate taggingAead true 5 = .ok _ := rfl
  refine ⟨_, _, hc, hc, (unsealAll_sealAll hinv hc hc _ _ (by decide) ?_).2 (by decide)
    (by decide +kernel)⟩
  exact ⟨by decide +kernel, by decide +kernel, by decide +kernel, by decide +kernel, trivial⟩

end GrpcCore.Alts
