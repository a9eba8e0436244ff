import GrpcCore.Lib.Linked
import GrpcCore.Lib.Run

/-!
# The stream lists of a transport

`stream_lists.cc` threads five doubly linked lists through the streams of a transport: a stream has
a pair of links and a bit for each list. Every sequence of the three operations that the wrappers
use goes through without a failing assertion and does to each list what it does to a queue
(`run_refines_queues`). The links of streams that are in no list are never read, so they may hold
anything at the start.
-/

namespace GrpcCore.StreamLists

open Option List
open Function hiding mt

/-! ## The operations -/

/-- `grpc_chttp2_stream_list_id`. -/
inductive ListId where
  | writable
  | writing
  | stalledByTransport
  | stalledByStream
  | waitingForConcurrency
  deriving DecidableEq

/-- `grpc_chttp2_stream_link`; streams are named by numbers. -/
structure StreamLink where
  next : Option Nat
  prev : Option Nat

/-- `grpc_chttp2_stream_list`. -/
structure StreamList where
  head : Option Nat := none
  tail : Option Nat := none

/-- The fields of `grpc_chttp2_stream` that belong to the lists. -/
structure Stream where
  links : ListId → StreamLink
  included : ListId → Bool := fun _ => false

/-- The lists of `grpc_chttp2_transport` and its streams. -/
structure Transport where
  lists : ListId → StreamList := fun _ => {}
  streams : Nat → Stream

namespace Transport

/-- `t->lists[id] = l`. -/
def setList (t : Transport) (id : ListId) (l : StreamList) : Transport :=
  { t with lists := update t.lists id l }

def setStream (t : Transport) (s : Nat) (stream : Stream) : Transport :=
  { t with streams := update t.streams s stream }

/-- `s->links[id] = link`. -/
def setLink (t : Transport) (s : Nat) (id : ListId) (link : StreamLink) : Transport :=
  t.setStream s { t.streams s with links := update (t.streams s).links id link }

/-- `s->included.set(id, b)`. -/
def setIncluded (t : Transport) (s : Nat) (id : ListId) (b : Bool) : Transport :=
  t.setStream s { t.streams s with included := update (t.streams s).included id b }

/-- `s->links[id]`. -/
def link (t : Transport) (s : Nat) (id : ListId) : StreamLink := (t.streams s).links id

/-- `s->links[id].next = next`. -/
def setNext (t : Transport) (s : Nat) (id : ListId) (next : Option Nat) : Transport :=
  t.setLink s id { t.link s id with next := next }

/-- `s->links[id].prev = prev`. -/
def setPrev (t : Transport) (s : Nat) (id : ListId) (prev : Option Nat) : Transport :=
  t.setLink s id { t.link s id with prev := prev }

/-- `stream_list_pop`, with the stream that it stores in `*stream`. -/
def streamListPop (t : Transport) (id : ListId) : Option (Transport × Option Nat) :=
  match (t.lists id).head with
  | none => some (t, none)
  | some s =>
    if (t.streams s).included id then
      let t' := match (t.link s id).next with
        | some newHead =>
          (t.setList id { t.lists id with head := some newHead }).setPrev newHead id none
        | none => t.setList id { head := none, tail := none }
      some (t'.setIncluded s id false, some s)
    else none

def streamListRemove (t : Transport) (s : Nat) (id : ListId) : Option Transport :=
  if (t.streams s).included id then
    let t := t.setIncluded s id false
    let unlinked := match (t.link s id).prev with
      | some p => some (t.setNext p id (t.link s id).next)
      | none =>
        if (t.lists id).head = some s then
          some (t.setList id { t.lists id with head := (t.link s id).next })
        else none
    unlinked.map fun t =>
      match (t.link s id).next with
      | some n => t.setPrev n id (t.link s id).prev
      | none => t.setList id { t.lists id with tail := (t.link s id).prev }
  else none

def streamListMaybeRemove (t : Transport) (s : Nat) (id : ListId) : Option (Transport × Bool) :=
  if (t.streams s).included id then (t.streamListRemove s id).map (·, true) else some (t, false)

def streamListAddTail (t : Transport) (s : Nat) (id : ListId) : Option Transport :=
  if (t.streams s).included id then none
  else
    let oldTail := (t.lists id).tail
    let t := (t.setNext s id none).setPrev s id oldTail
    let t := match oldTail with
      | some old => t.setNext old id (some s)
      | none => t.setList id { t.lists id with head := some s }
    some ((t.setList id { t.lists id with tail := some s }).setIncluded s id true)

def streamListAdd (t : Transport) (s : Nat) (id : ListId) : Option (Transport × Bool) :=
  if (t.streams s).included id then some (t, false) else (t.streamListAddTail s id).map (·, true)

end Transport

inductive Op where
  | add (s : Nat) (id : ListId)
  | pop (id : ListId)
  | maybeRemove (s : Nat) (id : ListId)

inductive Returned where
  | added (b : Bool)
  | popped (s : Option Nat)
  | removed (b : Bool)

/-- A transport, and what the calls returned so far. -/
structure Calls where
  transport : Transport
  returned : List Returned := []

def Calls.step (c : Calls) : Op → Option Calls
  | .add s id => (c.transport.streamListAdd s id).map fun r => ⟨r.1, c.returned ++ [.added r.2]⟩
  | .pop id => (c.transport.streamListPop id).map fun r => ⟨r.1, c.returned ++ [.popped r.2]⟩
  | .maybeRemove s id =>
    (c.transport.streamListMaybeRemove s id).map fun r => ⟨r.1, c.returned ++ [.removed r.2]⟩

/-! ## Queues -/

/-- One queue of streams for each list, and what the calls return. -/
structure Queues where
  queue : ListId → List Nat := fun _ => []
  returned : List Returned := []

/-- The same calls on queues: a stream is added at the end unless it is in the queue, and popped
from the front. -/
def Queues.step (q : Queues) : Op → Queues
  | .add s id =>
    if s ∈ q.queue id then { q with returned := q.returned ++ [.added false] }
    else ⟨update q.queue id (q.queue id ++ [s]), q.returned ++ [.added true]⟩
  | .pop id =>
    ⟨update q.queue id (q.queue id).tail, q.returned ++ [.popped (q.queue id).head?]⟩
  | .maybeRemove s id =>
    ⟨update q.queue id ((q.queue id).erase s),
      q.returned ++ [.removed (decide (s ∈ q.queue id))]⟩

/-! ## One list among the five -/

namespace Transport

variable {t : Transport} {id id' : ListId} {s : Nat}

/-- The ends and the links of one of the lists. -/
def linksOf (t : Transport) (id : ListId) : Linked.Links Nat where
  head := (t.lists id).head
  tail := (t.lists id).tail
  next s := (t.link s id).next
  prev s := (t.link s id).prev

def includedIn (t : Transport) (id : ListId) (s : Nat) : Bool := (t.streams s).included id

@[simp] theorem lists_head : (t.lists id).head = (t.linksOf id).head := rfl

@[simp] theorem lists_tail : (t.lists id).tail = (t.linksOf id).tail := rfl

@[simp] theorem link_next : (t.link s id).next = (t.linksOf id).next s := rfl

@[simp] theorem link_prev : (t.link s id).prev = (t.linksOf id).prev s := rfl

@[simp] theorem streams_included : (t.streams s).included id = t.includedIn id s := rfl

@[simp] theorem linksOf_setList (t : Transport) (id : ListId) (l : StreamList) :
    (t.setList id l).linksOf =
      update t.linksOf id { t.linksOf id with head := l.head, tail := l.tail } := by
  funext id'
  simp only [linksOf, setList, link, update_apply]
  split <;> simp_all

theorem linksOf_setLink (t : Transport) (s : Nat) (id : ListId) (l : StreamLink) :
    (t.setLink s id l).linksOf = update t.linksOf id { t.linksOf id with
      next := update (t.linksOf id).next s l.next
      prev := update (t.linksOf id).prev s l.prev } := by
  funext id'
  simp only [linksOf, setLink, setStream, link, update_apply]
  split_ifs with hid
  · subst hid
    congr 1 <;> funext s' <;> simp only [update_apply] <;> split_ifs with hs <;> simp_all
  · congr 1 <;> funext s' <;> split_ifs with hs <;> simp_all

@[simp] theorem linksOf_setNext (t : Transport) (s : Nat) (id : ListId) (v : Option Nat) :
    (t.setNext s id v).linksOf = update t.linksOf id
      { t.linksOf id with next := update (t.linksOf id).next s v } := by
  rw [setNext, linksOf_setLink, link_prev, update_eq_self]

@[simp] theorem linksOf_setPrev (t : Transport) (s : Nat) (id : ListId) (v : Option Nat) :
    (t.setPrev s id v).linksOf = update t.linksOf id
      { t.linksOf id with prev := update (t.linksOf id).prev s v } := by
  rw [setPrev, linksOf_setLink, link_next, update_eq_self]

@[simp] theorem linksOf_setIncluded (t : Transport) (s : Nat) (id : ListId) (b : Bool) :
    (t.setIncluded s id b).linksOf = t.linksOf := by
  funext id'
  simp only [linksOf, setIncluded, setStream, link, update_apply]
  congr 1 <;> funext s' <;> split_ifs with hs <;> simp_all

@[simp] theorem includedIn_setList (t : Transport) (id : ListId) (l : StreamList) :
    (t.setList id l).includedIn = t.includedIn := rfl

theorem includedIn_setLink (t : Transport) (s : Nat) (id : ListId) (l : StreamLink) :
    (t.setLink s id l).includedIn = t.includedIn := by
  funext id' s'
  simp only [includedIn, setLink, setStream, update_apply]
  split_ifs with hs <;> simp_all

@[simp] theorem includedIn_setNext (t : Transport) (s : Nat) (id : ListId) (v : Option Nat) :
    (t.setNext s id v).includedIn = t.includedIn := includedIn_setLink t s id _

@[simp] theorem includedIn_setPrev (t : Transport) (s : Nat) (id : ListId) (v : Option Nat) :
    (t.setPrev s id v).includedIn = t.includedIn := includedIn_setLink t s id _

@[simp] theorem includedIn_setIncluded (t : Transport) (s : Nat) (id : ListId) (b : Bool) :
    (t.setIncluded s id b).includedIn =
      update t.includedIn id (update (t.includedIn id) s b) := by
  funext id' s'
  simp only [includedIn, setIncluded, setStream, update_apply]
  split_ifs with hs hid hid <;> simp_all

/-- What a call writes: the ends and the links of one list, and the bit of one stream. -/
structure Writes (t t' : Transport) (id : ListId) (L : Linked.Links Nat) (s : Nat) (b : Bool) :
    Prop where
  links : t'.linksOf = update t.linksOf id L
  included : t'.includedIn = update t.includedIn id (update (t.includedIn id) s b)

theorem streamListPop_writes (hhead : (t.linksOf id).head = some s)
    (hin : t.includedIn id s = true) :
    ∃ t', t.streamListPop id = some (t', some s) ∧
      t.Writes t' id ((t.linksOf id).popFront s) s false := by
  rw [streamListPop, lists_head, hhead, Linked.Links.popFront]
  simp only [streams_included, hin, if_true, link_next]
  cases (t.linksOf id).next s with
  | none => exact ⟨_, rfl, by simp, by simp⟩
  | some newHead => exact ⟨_, rfl, by simp, by simp⟩

/-- `stream_list_remove` on links is `remove`. -/
theorem streamListRemove_writes (hin : t.includedIn id s = true)
    (hhead : (t.linksOf id).prev s = none → (t.linksOf id).head = some s) :
    ∃ t', t.streamListRemove s id = some t' ∧
      t.Writes t' id ((t.linksOf id).remove s) s false := by
  rw [streamListRemove, streams_included, if_pos hin, Linked.Links.remove]
  simp only [link_prev, link_next, lists_head, linksOf_setIncluded]
  cases hprev : (t.linksOf id).prev s with
  | none =>
    rw [if_pos (hhead hprev), map_some]
    simp only [linksOf_setList, update_self, linksOf_setIncluded]
    cases (t.linksOf id).next s with
    | none => exact ⟨_, rfl, by simp, by simp⟩
    | some n => exact ⟨_, rfl, by simp, by simp⟩
  | some p =>
    rw [map_some]
    simp only [linksOf_setNext, update_self, linksOf_setIncluded]
    cases hnext : update (t.linksOf id).next p ((t.linksOf id).next s) s with
    | none => exact ⟨_, rfl, by simp, by simp⟩
    | some n => exact ⟨_, rfl, by simp, by simp⟩

theorem streamListAddTail_writes (hout : t.includedIn id s = false) :
    ∃ t', t.streamListAddTail s id = some t' ∧
      t.Writes t' id ((t.linksOf id).pushBack s) s true := by
  rw [streamListAddTail, streams_included, hout, if_neg Bool.false_ne_true, Linked.Links.pushBack,
    lists_tail]
  cases (t.linksOf id).tail with
  | none => exact ⟨_, rfl, by simp, by simp⟩
  | some old => exact ⟨_, rfl, by simp, by simp⟩

/-! ## The invariant -/

/-- The bits and the links in both directions describe the queue. -/
structure Holds (t : Transport) (id : ListId) (queue : List Nat) : Prop where
  links : (t.linksOf id).Holds queue
  included : ∀ s, t.includedIn id s = true ↔ s ∈ queue

variable {t' : Transport} {L : Linked.Links Nat} {b : Bool}
  {queue : ListId → List Nat} {l : List Nat}

/-- A call that writes one list and one bit leaves the other lists as they are. -/
theorem Writes.holds (hw : t.Writes t' id L s b) (h : ∀ id, t.Holds id (queue id))
    (hL : L.Holds l) (hs : b = true ↔ s ∈ l) (hother : ∀ s', s' ≠ s → (s' ∈ l ↔ s' ∈ queue id)) :
    ∀ id', t'.Holds id' (update queue id l id') := by
  intro id'
  by_cases hid : id' = id
  · subst hid
    rw [update_self]
    refine ⟨?_, fun s' => ?_⟩
    · rw [hw.links, update_self]
      exact hL
    · rw [hw.included, update_self]
      by_cases hs' : s' = s
      · subst hs'
        rw [update_self]
        exact hs
      · rw [update_of_ne hs', hother s' hs']
        exact (h id').included s'
  · rw [update_of_ne hid]
    refine ⟨?_, fun s' => ?_⟩
    · rw [hw.links, update_of_ne hid]
      exact (h id').links
    · rw [hw.included, update_of_ne hid]
      exact (h id').included s'

/-- A stream that is not in the list is put at its end. -/
theorem streamListAdd_holds (h : ∀ id, t.Holds id (queue id)) (s : Nat) (id : ListId) :
    if s ∈ queue id then t.streamListAdd s id = some (t, false)
    else ∃ t', t.streamListAdd s id = some (t', true) ∧
      ∀ id', t'.Holds id' (update queue id (queue id ++ [s]) id') := by
  split
  · next hmem => rw [streamListAdd, streams_included, if_pos (((h id).included s).2 hmem)]
  · next hmem =>
    have hout := mt ((h id).included s).1 hmem
    obtain ⟨t', hadd, hw⟩ := streamListAddTail_writes (Bool.eq_false_iff.2 hout)
    refine ⟨t', by rw [streamListAdd, streams_included, if_neg hout, hadd, map_some], ?_⟩
    refine hw.holds h ((h id).links.pushBack hmem) (by simp) fun s' hs' => ?_
    simp [hs']

/-- The first stream of the list is popped, if there is one. -/
theorem streamListPop_holds (h : ∀ id, t.Holds id (queue id)) (id : ListId) :
    ∃ t', t.streamListPop id = some (t', (queue id).head?) ∧
      ∀ id', t'.Holds id' (update queue id (queue id).tail id') := by
  have hlinks := (h id).links
  cases hq : queue id with
  | nil =>
    rw [hq] at hlinks
    refine ⟨t, by rw [streamListPop, lists_head, hlinks.head]; rfl, ?_⟩
    rw [tail_nil, ← hq, update_eq_self]
    exact h
  | cons s l =>
    rw [hq] at hlinks
    have hin : t.includedIn id s = true := ((h id).included s).2 (by simp [hq])
    obtain ⟨t', hpop, hw⟩ := streamListPop_writes hlinks.head hin
    have hnot : s ∉ l := (nodup_cons.1 hlinks.nodup).1
    refine ⟨t', hpop, hw.holds h hlinks.popFront (by simp [hnot]) fun s' hs' => ?_⟩
    simp [hq, hs']

/-- A stream is removed wherever it stands. -/
theorem streamListMaybeRemove_holds (h : ∀ id, t.Holds id (queue id)) (s : Nat) (id : ListId) :
    ∃ t', t.streamListMaybeRemove s id = some (t', decide (s ∈ queue id)) ∧
      ∀ id', t'.Holds id' (update queue id ((queue id).erase s) id') := by
  have hlinks := (h id).links
  by_cases hmem : s ∈ queue id
  · obtain ⟨pre, post, hq⟩ := append_of_mem hmem
    have hnodup := hlinks.nodup
    rw [hq] at hlinks
    have hin : t.includedIn id s = true := ((h id).included s).2 hmem
    have hhead : (t.linksOf id).prev s = none → (t.linksOf id).head = some s := by
      rw [hlinks.prev_eq, hlinks.head, getLast?_eq_none_iff]
      rintro rfl
      rfl
    obtain ⟨t', hremove, hw⟩ := streamListRemove_writes hin hhead
    have herase : (queue id).erase s = pre ++ post := by
      have hpre : s ∉ pre := fun hs =>
        (nodup_append.1 hlinks.nodup).2.2 s hs s mem_cons_self rfl
      rw [hq, erase_append_right _ hpre, erase_cons_head]
    refine ⟨t', ?_, hw.holds h (herase ▸ hlinks.remove) ?_ fun s' hs' => ?_⟩
    · rw [streamListMaybeRemove, streams_included, if_pos hin, hremove, map_some,
        decide_eq_true hmem]
    · simp [hnodup.mem_erase_iff]
    · simp [hnodup.mem_erase_iff, hs']
  · have hout := mt ((h id).included s).1 hmem
    rw [streamListMaybeRemove, streams_included, if_neg hout, erase_of_not_mem hmem,
      update_eq_self]
    exact ⟨t, by rw [decide_eq_false hmem], h⟩

end Transport

/-! ## Runs -/

/-- The transport holds the queues, and the calls returned the same. -/
structure Refines (c : Calls) (q : Queues) : Prop where
  holds : ∀ id, c.transport.Holds id (q.queue id)
  returned : c.returned = q.returned

/-- Every call goes through and does to the queues what it does to the lists. -/
theorem Refines.step {c : Calls} {q : Queues} (h : Refines c q) (op : Op) :
    ∃ c', c.step op = some c' ∧ Refines c' (q.step op) := by
  cases op with
  | add s id =>
    have hadd := Transport.streamListAdd_holds h.holds s id
    rw [Queues.step]
    split at hadd
    · next hmem =>
      rw [if_pos hmem]
      exact ⟨⟨c.transport, c.returned ++ [.added false]⟩, by rw [Calls.step, hadd]; rfl, h.holds,
        by rw [h.returned]⟩
    · next hmem =>
      rw [if_neg hmem]
      obtain ⟨t', hadd, hholds⟩ := hadd
      exact ⟨_, by rw [Calls.step, hadd]; rfl, hholds, by rw [h.returned]⟩
  | pop id =>
    obtain ⟨t', hpop, hholds⟩ := Transport.streamListPop_holds h.holds id
    exact ⟨_, by rw [Calls.step, hpop]; rfl, hholds, by rw [h.returned]; rfl⟩
  | maybeRemove s id =>
    obtain ⟨t', hremove, hholds⟩ := Transport.streamListMaybeRemove_holds h.holds s id
    exact ⟨_, by rw [Calls.step, hremove]; rfl, hholds, by rw [h.returned]; rfl⟩

/-- Whatever the links hold at the start, every sequence of calls goes through, returns what the
same calls on queues return, and leaves each list with the streams of its queue: their bits are set
and no others, and both directions of the links are the queue. -/
theorem run_refines_queues (streams : Nat → ListId → StreamLink) (ops : List Op) :
    ∃ c, Run.run Calls.step { transport := { streams := fun s => { links := streams s } } } ops =
        some c ∧ Refines c (ops.foldl Queues.step {}) := by
  refine Run.run_simulates (G := fun _ _ => True) (fun _ _ _ _ _ _ => trivial)
    (fun c q op h _ => h.step op) ⟨fun id => ⟨⟨nodup_nil, rfl, rfl, trivial, trivial⟩, ?_⟩,
      rfl⟩
  intro s
  simp [Transport.includedIn]

end GrpcCore.StreamLists
