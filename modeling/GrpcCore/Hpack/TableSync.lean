import GrpcCore.Hpack.EncoderTable
import GrpcCore.Hpack.ParserTable

/-!
# The two tables of a connection

`HPackEncoderTable` and `HPackTable` driven in step: every `AllocateIndex` with the `Add` of an
entry of that size, every `SetMaxSize` with the `SetCurrentTableSize` of that size. `TaggedTable`
is the queue that both of them keep, with every entry under the number of its insertion, so that
one can say of an earlier insertion whether it has been evicted. `PairState.Synced` relates the
three, and its part `Indexed` ties the indices that `AllocateIndex` handed out to the queue.
-/

namespace GrpcCore

open List Option HpackConstants SizedFifo

/-- A pair of calls, one for each end. -/
inductive PairOp where
  | insert (md : Memento)
  | resize (n : Nat)

/-- What the callers keep to: entries of at least the per-entry overhead whose size the encoder's
table can store, and sizes that both ends agreed on at the start. -/
def PairOp.Allowed : PairOp → Prop
  | .insert md => 32 ≤ md.transportSize ∧ md.transportSize ≤ 65535
  | .resize n => n ≤ 4096

/-- The number of insertions that an operation makes. -/
def PairOp.insertions : PairOp → Nat
  | .insert _ => 1
  | .resize _ => 0

/-- The two ends, and what every `AllocateIndex` returned, with the entry it was called for. -/
structure PairState where
  enc : HPackEncoderTable := {}
  dec : HPackTable := {}
  issued : List (Nat × Memento) := []

/-- Both ends perform their call. A failing assertion of either is `none`, and so is an error
status of the decoder. -/
def PairState.step (s : PairState) : PairOp → Option PairState
  | .insert md =>
    (s.enc.allocateIndex md.transportSize).bind fun (index, enc) =>
      (s.dec.add md).bind fun
        | .ok dec => some ⟨enc, dec, s.issued ++ [(index, md)]⟩
        | .error _ => none
  | .resize n =>
    (s.enc.setMaxSize n).bind fun (_, enc) =>
      (s.dec.setCurrentTableSize n).bind fun
        | .ok dec => some ⟨enc, dec, s.issued⟩
        | .error _ => none

/-- The queue of a table of `cap` bytes, the newest entry first, each with the number of its
insertion. -/
structure TaggedTable where
  cap : Nat := kInitialTableSize
  inserted : Nat := 0
  live : List (Nat × Memento) := []

namespace TaggedTable

def entrySize (e : Nat × Memento) : Nat := e.2.transportSize

def step (q : TaggedTable) : PairOp → TaggedTable
  | .insert md =>
    { q with
      inserted := q.inserted + 1
      live := fit entrySize q.cap ((q.inserted, md) :: q.live) }
  | .resize n => { q with cap := n, live := fit entrySize n q.live }

/-- The entry of the `j`-th insertion, counted from 0, has not been evicted. -/
def Keeps (q : TaggedTable) (j : Nat) : Prop := ∃ md, (j, md) ∈ q.live

end TaggedTable

/-! ## Indices -/

/-- Of `n` entries ever added the queue `live` is left, and the indices in `issued` count them:
the `k`-th newest entry has index `n - k`, and an index other than 0 that is not of this form
belongs to an entry below all that are left. -/
structure Indexed (n : Nat) (live issued : List (Nat × Memento)) : Prop where
  of_issued : ∀ j i md, issued[j]? = some (i, md) → i ≠ 0 →
    i + live.length ≤ n ∨ ∃ k, live[k]? = some (j, md) ∧ i + k = n
  of_live : ∀ k j md, live[k]? = some (j, md) → ∃ i, issued[j]? = some (i, md) ∧ i + k = n

namespace Indexed

variable {n : Nat} {live live' issued : List (Nat × Memento)} {md : Memento}

theorem nil : Indexed 0 [] [] := ⟨nofun, nofun⟩

theorem evict (h : Indexed n live issued) (hp : live' <+: live) : Indexed n live' issued where
  of_issued j i md hj hi := by
    obtain ⟨t, rfl⟩ := hp
    obtain hle | ⟨k, hk, hn⟩ := h.of_issued j i md hj hi
    · exact .inl (by rw [length_append] at hle; omega)
    · by_cases hk' : k < live'.length
      · exact .inr ⟨k, by rw [← hk, getElem?_append_left hk'], hn⟩
      · exact .inl (by omega)
  of_live k j md hk := by
    obtain ⟨t, rfl⟩ := hp
    have hk' : k < live'.length := (List.getElem?_eq_some_iff.1 hk).1
    exact h.of_live k j md (by rw [getElem?_append_left hk', hk])

theorem push (h : Indexed n live issued) (md : Memento) :
    Indexed (n + 1) ((issued.length, md) :: live) (issued ++ [(n + 1, md)]) where
  of_issued j i md' hj hi := by
    by_cases hlt : j < issued.length
    · rw [getElem?_append_left hlt] at hj
      obtain hle | ⟨k, hk, hn⟩ := h.of_issued j i md' hj hi
      · exact .inl (by simp only [length_cons]; omega)
      · exact .inr ⟨k + 1, by rw [getElem?_cons_succ, hk], by omega⟩
    · obtain ⟨rfl, heq⟩ : j = issued.length ∧ (n + 1, md) = (i, md') := by
        rw [getElem?_append_right (Nat.not_lt.1 hlt)] at hj
        obtain ⟨hz, hval⟩ := List.getElem?_eq_some_iff.1 hj
        simp only [length_cons, length_nil] at hz
        exact ⟨by omega, by simpa using hval⟩
      cases heq
      exact .inr ⟨0, rfl, rfl⟩
  of_live k j md' hk := by
    cases k with
    | zero =>
      cases hk
      exact ⟨n + 1, by rw [getElem?_append_right (Nat.le_refl _), Nat.sub_self]; rfl, rfl⟩
    | succ k =>
      rw [getElem?_cons_succ] at hk
      obtain ⟨i, hi, hn⟩ := h.of_live k j md' hk
      have hlt : j < issued.length := (List.getElem?_eq_some_iff.1 hi).1
      exact ⟨i, by rw [getElem?_append_left hlt, hi], by omega⟩

/-- An insertion that empties the queue and is given index 0. -/
theorem skip (h : Indexed n live issued) : Indexed n [] (issued ++ [(0, md)]) where
  of_issued j i md' hj hi := by
    by_cases hlt : j < issued.length
    · rw [getElem?_append_left hlt] at hj
      obtain hle | ⟨k, -, hn⟩ := h.of_issued j i md' hj hi
      · exact .inl (by simp only [length_nil]; omega)
      · exact .inl (by simp only [length_nil]; omega)
    · rw [getElem?_append_right (Nat.not_lt.1 hlt)] at hj
      obtain ⟨hz, hval⟩ := List.getElem?_eq_some_iff.1 hj
      simp only [length_cons, length_nil] at hz
      have : (0, md) = (i, md') := by simpa using hval
      cases this
      exact absurd rfl hi
  of_live := nofun

/-- An index other than 0 is above the evicted ones exactly when its insertion is still in the
queue, and then it says where. -/
theorem lt_iff (h : Indexed n live issued) (hlen : live.length ≤ n) {j i : Nat}
    (hj : issued[j]? = some (i, md)) (hi : i ≠ 0) :
    (n - live.length < i ↔ ∃ md, (j, md) ∈ live) ∧
      (n - live.length < i → live[n - i]? = some (j, md) ∧ i ≤ n) := by
  have hleft : n - live.length < i → live[n - i]? = some (j, md) ∧ i ≤ n := by
    intro hlt
    obtain hle | ⟨k, hk, rfl⟩ := h.of_issued j i md hj hi
    · omega
    · exact ⟨by rwa [Nat.add_sub_cancel_left], Nat.le_add_right i k⟩
  refine ⟨⟨fun hlt => ⟨md, mem_of_getElem? (hleft hlt).1⟩, ?_⟩, hleft⟩
  rintro ⟨md', hmem⟩
  obtain ⟨k, hk⟩ := mem_iff_getElem?.1 hmem
  obtain ⟨i', hi', rfl⟩ := h.of_live k j md' hk
  have hk' : k < live.length := (List.getElem?_eq_some_iff.1 hk).1
  cases hj.symm.trans hi'
  omega

end Indexed

/-! ## The two ends in step -/

/-- Both tables keep the queue, and its indices are those that were handed out. -/
structure PairState.Synced (s : PairState) (q : TaggedTable) : Prop where
  enc : s.enc.Live (q.live.map TaggedTable.entrySize)
  dec : s.dec.Live ⟨kInitialTableSize, q.cap, q.live.map Prod.snd⟩
  maxTableSize : s.enc.maxTableSize = q.cap
  cap_le : q.cap ≤ kInitialTableSize
  issued : s.issued.length = q.inserted
  le_inserted : s.enc.tailRemoteIndex + s.enc.tableElems ≤ q.inserted
  indexed : Indexed (s.enc.tailRemoteIndex + s.enc.tableElems) q.live s.issued

namespace PairState

variable {s : PairState} {q : TaggedTable} {md : Memento}

theorem Synced.init : Synced {} {} where
  enc := HPackEncoderTable.Live.init
  dec := HPackTable.Live.init
  maxTableSize := rfl
  cap_le := Nat.le_refl _
  issued := rfl
  le_inserted := Nat.le_refl _
  indexed := Indexed.nil

theorem map_entrySize_fit (cap : Nat) (l : List (Nat × Memento)) :
    (fit TaggedTable.entrySize cap l).map TaggedTable.entrySize =
      fit id cap (l.map TaggedTable.entrySize) := by
  rw [fit_map TaggedTable.entrySize]
  exact fun _ => rfl

theorem map_snd_fit (cap : Nat) (l : List (Nat × Memento)) :
    (fit TaggedTable.entrySize cap l).map Prod.snd = fitBytes cap (l.map Prod.snd) := by
  rw [fitBytes, fit_map TaggedTable.entrySize]
  exact fun _ => rfl

theorem Synced.dec_add (h : s.Synced q) (hmd : 32 ≤ md.transportSize) :
    ∃ dec, s.dec.add md = some (.ok dec) ∧
      dec.Live ⟨kInitialTableSize, q.cap, (q.step (.insert md)).live.map Prod.snd⟩ := by
  have hfull : ¬ s.dec.RingFull md := by
    refine h.dec.not_ringFull ?_ hmd (Nat.lt_of_le_of_lt h.cap_le (by decide))
    intro m hm
    obtain ⟨e, he, rfl⟩ := mem_map.1 hm
    exact h.enc.entries _ (mem_map_of_mem he)
  obtain ⟨r, hr, hlive⟩ := h.dec.add hfull
  rw [DynTable.add, if_neg (Nat.not_lt.2 h.cap_le)] at hlive
  cases r with
  | error e => exact hlive.elim
  | ok dec => exact ⟨dec, hr, by rw [TaggedTable.step, map_snd_fit]; exact hlive⟩

theorem Synced.enc_insert (h : s.Synced q) (h32 : 32 ≤ md.transportSize)
    (hmax : md.transportSize ≤ HPackEncoderTable.maxEntrySize) (hcount : q.inserted + 1 < 2 ^ 31) :
    ∃ i enc, s.enc.allocateIndex md.transportSize = some (i, enc) ∧
      enc.Live ((q.step (.insert md)).live.map TaggedTable.entrySize) ∧ enc.maxTableSize = q.cap ∧
      enc.tailRemoteIndex + enc.tableElems ≤ q.inserted + 1 ∧
      Indexed (enc.tailRemoteIndex + enc.tableElems) (q.step (.insert md)).live
        (s.issued ++ [(i, md)]) := by
  have hcap := h.maxTableSize
  have hins := h.le_inserted
  have hlive := map_entrySize_fit q.cap ((q.inserted, md) :: q.live)
  rw [map_cons, ← hcap] at hlive
  rw [TaggedTable.step, ← hcap]
  by_cases hfits : md.transportSize ≤ s.enc.maxTableSize
  · obtain ⟨enc, halloc, henc, hmts, hsum⟩ := h.enc.allocateIndex h32 hmax hfits (by omega)
    have hpush := h.indexed.push md
    rw [h.issued] at hpush
    refine ⟨_, enc, halloc, hlive ▸ henc, hmts, by omega, ?_⟩
    rw [hsum]
    exact hpush.evict (fit_newest _ _ _)
  · obtain ⟨enc, halloc, henc, hmts, hsum⟩ := h.enc.allocateIndex_zero (Nat.not_le.1 hfits)
    have hnil : fit TaggedTable.entrySize s.enc.maxTableSize
        ((q.inserted, md) :: q.live) = [] := by
      rw [fit, if_neg (by exact hfits)]
    refine ⟨0, enc, halloc, hlive ▸ henc, hmts, by omega, ?_⟩
    rw [hsum, hnil]
    exact h.indexed.skip

theorem Synced.dec_resize (h : s.Synced q) {n : Nat} (hn : n ≤ kInitialTableSize) :
    ∃ dec, s.dec.setCurrentTableSize n = some (.ok dec) ∧
      dec.Live ⟨kInitialTableSize, n, (q.step (.resize n)).live.map Prod.snd⟩ := by
  obtain ⟨r, hr, hlive⟩ := h.dec.setCurrentTableSize (b := n)
    (Nat.lt_of_le_of_lt hn (by decide))
  rw [DynTable.setCurrentTableSize] at hlive
  split at hlive
  · next heq =>
    have heq : q.cap = n := heq
    have hfit : fitBytes n (q.live.map Prod.snd) = q.live.map Prod.snd :=
      fit_eq_self _ (by rw [← heq]; exact h.dec.le_current)
    cases r with
    | error e => exact hlive.elim
    | ok dec =>
      refine ⟨dec, hr, ?_⟩
      rw [TaggedTable.step, map_snd_fit, hfit, ← heq]
      exact hlive
  · rw [if_neg (Nat.not_lt.2 hn)] at hlive
    cases r with
    | error e => exact hlive.elim
    | ok dec => exact ⟨dec, hr, by rw [TaggedTable.step, map_snd_fit]; exact hlive⟩

theorem Synced.step (h : s.Synced q) {op : PairOp} (hop : op.Allowed)
    (hcount : q.inserted + op.insertions < 2 ^ 31) :
    ∃ s', s.step op = some s' ∧ s'.Synced (q.step op) := by
  have hins := h.le_inserted
  cases op with
  | insert md =>
    obtain ⟨h32, hmax⟩ := hop
    have hcount : q.inserted + 1 < 2 ^ 31 := hcount
    obtain ⟨dec, hadd, hdec⟩ := h.dec_add h32
    obtain ⟨i, enc, halloc, henc, hmts, hle, hindexed⟩ := h.enc_insert h32 hmax hcount
    refine ⟨_, by rw [PairState.step, halloc, bind_some, hadd]; rfl, ?_⟩
    exact {
      enc := henc
      dec := hdec
      maxTableSize := hmts
      cap_le := h.cap_le
      issued := by simp [TaggedTable.step, h.issued]
      le_inserted := hle
      indexed := hindexed }
  | resize n =>
    have hn : n ≤ kInitialTableSize := hop
    obtain ⟨dec, hset, hdec⟩ := h.dec_resize hn
    obtain ⟨enc, hsize, henc, hmts, hsum⟩ :=
      h.enc.setMaxSize (n := n) (by rw [kInitialTableSize] at hn; omega)
    refine ⟨_, by rw [PairState.step, hsize, bind_some, hset]; rfl, ?_⟩
    exact {
      enc := by rw [TaggedTable.step, map_entrySize_fit]; exact henc
      dec := hdec
      maxTableSize := hmts
      cap_le := hn
      issued := h.issued
      le_inserted := by simp only [TaggedTable.step]; omega
      indexed := by
        rw [hsum]
        exact h.indexed.evict (fit_newest _ _ _) }

theorem Synced.run {ops : List PairOp} (h : s.Synced q) (hops : ∀ op ∈ ops, op.Allowed)
    (hcount : q.inserted + (ops.map PairOp.insertions).sum < 2 ^ 31) :
    ∃ s', Run.run PairState.step s ops = some s' ∧ s'.Synced (ops.foldl TaggedTable.step q) := by
  induction ops generalizing s q with
  | nil => exact ⟨s, rfl, h⟩
  | cons op ops ih =>
    rw [map_cons, sum_cons] at hcount
    obtain ⟨s₁, hstep, h₁⟩ := h.step (hops op (mem_cons_self ..)) (by omega)
    have hins : (q.step op).inserted = q.inserted + op.insertions := by cases op <;> rfl
    obtain ⟨s₂, hrun, h₂⟩ := ih h₁ (fun o ho => hops o (mem_cons_of_mem op ho)) (by omega)
    exact ⟨s₂, by rw [Run.run_cons, hstep]; exact hrun, h₂⟩

theorem Synced.tail_eq (h : s.Synced q) :
    s.enc.tailRemoteIndex = s.enc.tailRemoteIndex + s.enc.tableElems - q.live.length := by
  rw [h.enc.tableElems, length_map, Nat.add_sub_cancel]

/-- `DynamicIndex` of the `k`-th newest entry is `62 + k`, where the decoder finds it. -/
theorem Synced.lookup_dynamicIndex (h : s.Synced q) {i j : Nat}
    (hi : i ≤ s.enc.tailRemoteIndex + s.enc.tableElems)
    (hk : q.live[s.enc.tailRemoteIndex + s.enc.tableElems - i]? = some (j, md)) :
    s.dec.lookup (s.enc.dynamicIndex i) = some md := by
  have hlen : s.enc.tailRemoteIndex + s.enc.tableElems - i < q.live.length :=
    (List.getElem?_eq_some_iff.1 hk).1
  have hmul := mul_length_le_total id h.enc.entries
  have htot := h.enc.le_max
  have hcap := h.cap_le
  rw [h.maxTableSize] at htot
  rw [length_map] at hmul
  rw [kInitialTableSize] at hcap
  have hdyn : s.enc.dynamicIndex i =
      kLastStaticEntry + 1 + (s.enc.tailRemoteIndex + s.enc.tableElems - i) := by
    simp only [HPackEncoderTable.dynamicIndex, u32, kLastStaticEntry]
    omega
  rw [hdyn, HPackTable.lookup, if_neg (by omega), h.dec.lookupDynamic, getElem?_map, hk]
  rfl

/-- In a run of paired operations with fewer than `2 ^ 31` insertions no assertion fails and no
status is an error. Every insertion was given an index; an index other than 0 is convertible
exactly while the insertion has not been evicted, and the decoder then finds the entry that was
added with it. The queue that says what is evicted is the content of the decoder's table. -/
theorem run_indices (ops : List PairOp) (hops : ∀ op ∈ ops, op.Allowed)
    (hcount : (ops.map PairOp.insertions).sum < 2 ^ 31) :
    ∃ s, Run.run PairState.step {} ops = some s ∧
      (∀ k, s.dec.lookupDynamic (62 + k) = (ops.foldl TaggedTable.step {}).live[k]?.map Prod.snd) ∧
      ∀ j i md, s.issued[j]? = some (i, md) → i ≠ 0 →
        (s.enc.convertableToDynamicIndex i = true ↔ (ops.foldl TaggedTable.step {}).Keeps j) ∧
        (s.enc.convertableToDynamicIndex i = true →
          s.dec.lookup (s.enc.dynamicIndex i) = some md) := by
  obtain ⟨s, hrun, h⟩ := Synced.init.run hops (by simpa using hcount)
  refine ⟨s, hrun, fun k => ?_, fun j i md hj hi => ?_⟩
  · rw [← getElem?_map]
    exact h.dec.lookupDynamic k
  · have htail := h.tail_eq
    have hlen : (ops.foldl TaggedTable.step {}).live.length ≤
        s.enc.tailRemoteIndex + s.enc.tableElems := by
      rw [h.enc.tableElems, length_map]
      exact Nat.le_add_left _ _
    obtain ⟨hiff, hfind⟩ := h.indexed.lt_iff hlen hj hi
    rw [← htail] at hiff hfind
    rw [HPackEncoderTable.convertableToDynamicIndex, decide_eq_true_iff]
    refine ⟨hiff, fun hlt => ?_⟩
    obtain ⟨hk, hle⟩ := hfind hlt
    exact h.lookup_dynamicIndex hle hk

/-- Three insertions into a table that holds two of them, and a resize that leaves one. -/
def threeInserts : List PairOp :=
  [.insert ⟨[], [], 1396⟩, .insert ⟨[], [], 1397⟩, .insert ⟨[], [], 1500⟩, .resize 2000]

/-- After `threeInserts` only the last index is convertible, and the decoder has its entry. -/
theorem run_indices_threeInserts :
    ∃ s, Run.run PairState.step {} threeInserts = some s ∧
      s.issued = [(1, ⟨[], [], 1396⟩), (2, ⟨[], [], 1397⟩), (3, ⟨[], [], 1500⟩)] ∧
      s.enc.convertableToDynamicIndex 2 = false ∧
      s.dec.lookup (s.enc.dynamicIndex 3) = some ⟨[], [], 1500⟩ := by
  obtain ⟨s, hrun, -, hidx⟩ := run_indices threeInserts
    (by simp [threeInserts, PairOp.Allowed]) (by decide)
  have heval : (Run.run PairState.step {} threeInserts).map
      (fun s => (s.issued, s.enc.convertableToDynamicIndex 2, s.enc.convertableToDynamicIndex 3)) =
      some ([(1, ⟨[], [], 1396⟩), (2, ⟨[], [], 1397⟩), (3, ⟨[], [], 1500⟩)], false, true) := by
    decide +kernel
  rw [hrun, map_some, Option.some_inj, Prod.mk.injEq, Prod.mk.injEq] at heval
  obtain ⟨hissued, htwo, hthree⟩ := heval
  exact ⟨s, hrun, hissued, htwo, (hidx 2 3 _ (by rw [hissued]; rfl) (by decide)).2 hthree⟩

/-- Entries without the overhead are not allowed for: 128 of size 0 fill the encoder's vector,
and the next `AllocateIndex` fails its assertion. -/
theorem run_insert_zero_none :
    (Run.run PairState.step {} (List.replicate 128 (.insert ⟨[], [], 0⟩))).map
      (fun s => s.enc.allocateIndex 0) = some none := by
  decide +kernel

end PairState

end GrpcCore
