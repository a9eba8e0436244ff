import GrpcCore.Lib.Linked
import GrpcCore.Lib.SizedFifo
import GrpcCore.Slice.SliceBuffer

/-!
# The trace of a channel

`channelz::ChannelTrace` (`channel_trace.cc`) keeps the newest events of a channel in a singly
linked list and frees the oldest while their memory is above `max_event_memory`. Events live in
`memory` under the number of their creation; one that was freed is `none`, and following a pointer
to it is a failure, as is a null pointer. When the list runs empty `tail_trace_` keeps pointing at a
freed event.

The retained events are the longest run of newest events that fits exactly as long as no addition to
the `size_t` of their memory, or to the `uint64_t` of their number, wraps (`keeps_iff`). The
references that an event holds are not counted.
-/

namespace GrpcCore

open List Function Option SizedFifo

/-- `grpc_slice_memory_usage`. -/
def Slice.memoryUsage : Slice → Nat
  | inlined _ => 0
  | refcounted .noop _ _ => 0
  | refcounted (.counted _) _ n => n

namespace Channelz

inductive Severity where
  | unset
  | info
  | warning
  | error

/-- What the constructors of `TraceEvent` are given. -/
structure Event where
  severity : Severity
  data : Slice
  referencedEntity : Option Nat := none

/-- `sizeof(TraceEvent)`, for pointers of eight bytes. -/
def sizeofTraceEvent : Nat := 80

/-- `memory_usage_`, as the constructors compute it. -/
def Event.memoryUsage (e : Event) : Nat := (sizeofTraceEvent + e.data.memoryUsage) % 2 ^ 64

/-- `ChannelTrace::TraceEvent`. Only `next_` is written after the constructor. -/
structure TraceEvent where
  event : Event
  memoryUsage : Nat
  usage : memoryUsage = event.memoryUsage
  next : Option Nat

/-- The constructors of `TraceEvent`. -/
def TraceEvent.new (e : Event) : TraceEvent := ⟨e, e.memoryUsage, rfl, none⟩

/-- The ends of the list, and the events in memory. -/
structure EventList where
  headTrace : Option Nat := none
  tailTrace : Option Nat := none
  memory : Nat → Option TraceEvent := fun _ => none
  created : Nat := 0

namespace EventList

def newTraceEvent (l : EventList) (e : Event) : EventList :=
  { l with
    memory := update l.memory l.created (some (.new e))
    created := l.created + 1 }

/-- The event is linked in after the last one. -/
def link (l : EventList) (newTraceEvent : Nat) : Option EventList :=
  match l.headTrace with
  | none => some { l with headTrace := some newTraceEvent, tailTrace := some newTraceEvent }
  | some _ => l.tailTrace.bind fun tail => (l.memory tail).map fun last =>
    { l with
      memory := update l.memory tail (some { last with next := some newTraceEvent })
      tailTrace := some newTraceEvent }

/-- The first event is taken out of the list and deleted. -/
def popHead (l : EventList) : Option (TraceEvent × EventList) :=
  l.headTrace.bind fun toFree => (l.memory toFree).map fun e =>
    (e, { l with headTrace := e.next, memory := update l.memory toFree none })

/-- The events that a loop over the list sees, `for (it = head_trace_; it != nullptr; it =
next)`. -/
def iterate (l : EventList) : Nat → Option Nat → Option (List Nat)
  | _, none => some []
  | 0, some _ => none
  | n + 1, some it => (l.memory it).bind fun e => (l.iterate n e.next).map (it :: ·)

def eventAt (l : EventList) (it : Nat) : Option Event := (l.memory it).map (·.event)

end EventList

structure ChannelTrace where
  numEventsLogged : Nat := 0
  eventListMemoryUsage : Nat := 0
  maxEventMemory : Nat
  list : EventList := {}

namespace ChannelTrace

/-- The loop of `AddTraceEventHelper`, at most `n` times. -/
def collect : Nat → ChannelTrace → Option ChannelTrace
  | 0, t => if t.eventListMemoryUsage > t.maxEventMemory then none else some t
  | n + 1, t =>
    if t.eventListMemoryUsage > t.maxEventMemory then
      t.list.popHead.bind fun r => collect n
        { t with
          eventListMemoryUsage := (t.eventListMemoryUsage + 2 ^ 64 - r.1.memoryUsage) % 2 ^ 64
          list := r.2 }
    else some t

/-- The counters with a new event: a `uint64_t` and a `size_t`. -/
def count (t : ChannelTrace) (memoryUsage : Nat) : ChannelTrace :=
  { t with
    numEventsLogged := (t.numEventsLogged + 1) % 2 ^ 64
    eventListMemoryUsage := (t.eventListMemoryUsage + memoryUsage) % 2 ^ 64 }

/-- `AddTraceEventHelper`. No more events can be freed than were created. -/
def addTraceEventHelper (t : ChannelTrace) (newTraceEvent : Nat) : Option ChannelTrace :=
  (t.list.link newTraceEvent).bind fun list => (list.memory newTraceEvent).bind fun e =>
    collect list.created ({ t with list := list }.count e.memoryUsage)

def addTraceEvent (t : ChannelTrace) (severity : Severity) (data : Slice) : Option ChannelTrace :=
  if t.maxEventMemory = 0 then some t
  else { t with list := t.list.newTraceEvent ⟨severity, data, none⟩ }.addTraceEventHelper
    t.list.created

def addTraceEventWithReference (t : ChannelTrace) (severity : Severity) (data : Slice)
    (referencedEntity : Option Nat) : Option ChannelTrace :=
  if t.maxEventMemory = 0 then some t
  else
    addTraceEventHelper { t with list := t.list.newTraceEvent ⟨severity, data, referencedEntity⟩ }
      t.list.created

end ChannelTrace

inductive TraceCall where
  | addTraceEvent (severity : Severity) (data : Slice)
  | addTraceEventWithReference (severity : Severity) (data : Slice) (referencedEntity : Option Nat)

def TraceCall.event : TraceCall → Event
  | .addTraceEvent severity data => ⟨severity, data, none⟩
  | .addTraceEventWithReference severity data entity => ⟨severity, data, entity⟩

/-- A trace, and all events that were added to it. -/
structure Traced where
  trace : ChannelTrace
  added : List Event := []

def Traced.step (x : Traced) (c : TraceCall) : Option Traced :=
  (match c with
    | .addTraceEvent severity data => x.trace.addTraceEvent severity data
    | .addTraceEventWithReference severity data entity =>
      x.trace.addTraceEventWithReference severity data entity).map
    fun t => ⟨t, x.added ++ [c.event]⟩

/-! ## The longest run of newest events that fits -/

abbrev usageOf (l : List Event) : Nat := total Event.memoryUsage l

/-- The events kept are the newest ones, they fit, and no more of the newest would. -/
structure IsLongest (max : Nat) (all kept : List Event) : Prop where
  newest : kept <:+ all
  fits : usageOf kept ≤ max
  longest : ∀ s, s <:+ all → usageOf s ≤ max → s.length ≤ kept.length

/-- Drop the oldest events until the rest fits. -/
def newestFitting (max : Nat) (l : List Event) : List Event :=
  (fit Event.memoryUsage max l.reverse).reverse

section

variable {max : Nat} {all kept l : List Event} {e : Event}

theorem usageOf_reverse (l : List Event) : usageOf l.reverse = usageOf l := by
  simp [total, sum_reverse]

theorem isLongest_newestFitting (max : Nat) (all : List Event) :
    IsLongest max all (newestFitting max all) where
  newest := by
    rw [newestFitting, ← reverse_prefix, reverse_reverse]
    exact fit_newest ..
  fits := by
    rw [newestFitting, usageOf_reverse]
    exact total_fit_le ..
  longest s hs hfits := by
    have := le_fit_of_total_le Event.memoryUsage ( reverse_prefix.2 hs)
      ((usageOf_reverse s).trans_le hfits)
    simpa [newestFitting] using this.length_le

theorem newestFitting_of_le (h : usageOf l ≤ max) : newestFitting max l = l := by
  rw [newestFitting, fit_eq_self _ ((usageOf_reverse l).trans_le h), reverse_reverse]

theorem newestFitting_cons (h : max < usageOf (e :: l)) :
    newestFitting max (e :: l) = newestFitting max l := by
  rw [newestFitting, newestFitting,
    ← fit_dropLast _ (h.trans_eq (usageOf_reverse (e :: l)).symm), reverse_cons,
    dropLast_concat]

theorem newestFitting_concat (max : Nat) (all : List Event) (e : Event) :
    newestFitting max (newestFitting max all ++ [e]) = newestFitting max (all ++ [e]) := by
  simp only [newestFitting, reverse_append, reverse_reverse, reverse_singleton,
    singleton_append, fit_cons, fit_fit _ (Nat.sub_le max _)]

end

/-! ## The list -/

namespace EventList

variable {l : EventList} {its : List Nat} {kept : List Event} {e : Event} {it : Nat}

/-- The link of the event at an address. -/
def nextOf (l : EventList) (it : Nat) : Option Nat := (l.memory it).bind (·.next)

/-- The list consists of the events at the addresses `its`. The last one is only known while there
is one. -/
structure Holds (l : EventList) (its : List Nat) (kept : List Event) : Prop where
  nodup : its.Nodup
  head : l.headTrace = its.head?
  tail : its ≠ [] → l.tailTrace = its.getLast?
  next : Linked.Follows l.nextOf its
  events : its.map l.eventAt = kept.map some
  created : ∀ it ∈ its, it < l.created

theorem Holds.memory_eq (h : l.Holds its kept) (hit : it ∈ its) : ∃ e, l.memory it = some e := by
  have hmem : l.eventAt it ∈ kept.map some := h.events ▸ mem_map_of_mem hit
  obtain ⟨e, -, he⟩ := mem_map.1 hmem
  obtain ⟨ev, hev, -⟩ := map_eq_some_iff.1 he.symm
  exact ⟨ev, hev⟩

theorem Holds.iterate_eq (h : l.Holds its kept) : l.iterate l.created l.headTrace = some its := by
  have hloop : ∀ (n : Nat) (its' : List Nat), its' ⊆ its → Linked.Follows l.nextOf its' →
      its'.length ≤ n → l.iterate n its'.head? = some its' := by
    intro n its'
    induction its' generalizing n with
    | nil =>
      intro _ _ _
      cases n <;> rfl
    | cons it its' ih =>
      intro hsub hnext hn
      obtain ⟨n, rfl⟩ : ∃ m, n = m + 1 := ⟨n - 1, by simp only [length_cons] at hn; omega⟩
      obtain ⟨ev, hev⟩ := h.memory_eq (hsub mem_cons_self)
      have hlink : ev.next = its'.head? := by
        have := hnext.1
        rwa [nextOf, hev] at this
      rw [head?_cons, iterate, hev, bind_some, hlink,
        ih n (fun _ hit => hsub (mem_cons_of_mem it hit)) hnext.2 (Nat.le_of_succ_le_succ hn),
        map_some]
  rw [h.head]
  exact hloop _ its (List.Subset.refl its) h.next (Linked.length_le_of_lt h.nodup h.created)

theorem eventAt_newTraceEvent (l : EventList) (e : Event) :
    (l.newTraceEvent e).eventAt = update l.eventAt l.created (some e) :=
  comp_update ..

theorem nextOf_newTraceEvent (l : EventList) (e : Event) :
    (l.newTraceEvent e).nextOf = update l.nextOf l.created none :=
  comp_update (fun o => Option.bind o TraceEvent.next) _ _ _

theorem link_of_last {first last : Nat} {ev : TraceEvent} (hhead : l.headTrace = some first)
    (htail : l.tailTrace = some last) (hev : l.memory last = some ev) (new : Nat) :
    l.link new = some { l with
      memory := update l.memory last (some { ev with next := some new })
      tailTrace := some new } := by
  rw [link, hhead]
  simp only [htail, bind_some, hev, map_some]

/-- What is written for a new event: its own memory, the link of the last event and the ends. -/
theorem Holds.link_writes (h : l.Holds its kept) (e : Event) :
    ∃ l', (l.newTraceEvent e).link l.created = some l' ∧
      l'.memory l.created = some (.new e) ∧
      l'.headTrace = (its ++ [l.created]).head? ∧ l'.tailTrace = some l.created ∧
      l'.created = l.created + 1 ∧ l'.eventAt = update l.eventAt l.created (some e) ∧
      l'.nextOf =
        update (Linked.writeLast l.nextOf its (some l.created)) l.created none := by
  rcases its.eq_nil_or_concat' with rfl | ⟨its, last, rfl⟩
  · refine ⟨_, by rw [EventList.link, newTraceEvent, h.head]; rfl, ?_, rfl, rfl, rfl, ?_, ?_⟩
    · exact update_self ..
    · exact eventAt_newTraceEvent l e
    · exact nextOf_newTraceEvent l e
  · have hlast : last ∈ its ++ [last] := mem_concat_self
    have hne : last ≠ l.created := (h.created last hlast).ne
    obtain ⟨ev, hev⟩ := h.memory_eq hlast
    have htail : l.tailTrace = some last := (h.tail (by simp)).trans getLast?_concat
    have hhead := h.head.trans (head?_eq_some_head (append_ne_nil_of_right_ne_nil its
      (cons_ne_nil last [])))
    have hold : (l.newTraceEvent e).memory last = some ev := (update_of_ne hne ..).trans hev
    refine ⟨_, link_of_last (l := l.newTraceEvent e) hhead htail hold _, ?_, ?_, rfl, rfl, ?_, ?_⟩
    · exact (update_of_ne hne.symm ..).trans (update_self ..)
    · rw [head?_append_of_ne_nil _ (by simp)]
      exact h.head
    · rw [← eventAt_newTraceEvent]
      refine (comp_update ..).trans (Function.update_eq_self_iff.2 ?_)
      exact (congrArg (Option.map TraceEvent.event) hold).symm
    · refine (comp_update (fun o => Option.bind o TraceEvent.next) _ _ _).trans ?_
      rw [Linked.writeLast, getLast?_concat]
      show update (l.newTraceEvent e).nextOf last (some l.created) = _
      rw [nextOf_newTraceEvent, update_comm hne]

theorem Holds.link (h : l.Holds its kept) (e : Event) :
    ∃ l', (l.newTraceEvent e).link l.created = some l' ∧
      l'.memory l.created = some (.new e) ∧
      l'.Holds (its ++ [l.created]) (kept ++ [e]) := by
  obtain ⟨l', hlink, hmemory, hhead, htail, hcreated, hevent, hnext⟩ := h.link_writes e
  have hnew : l.created ∉ its := fun hmem => Nat.lt_irrefl _ (h.created _ hmem)
  refine ⟨l', hlink, hmemory, ?_, hhead, fun _ => ?_, ?_, ?_, fun it hit => ?_⟩
  · exact nodup_append.2 ⟨h.nodup, nodup_singleton _,
      fun a ha b hb hab => hnew (mem_singleton.1 hb ▸ hab ▸ ha)⟩
  · rw [htail, getLast?_concat]
  · rw [hnext]
    exact h.next.concat h.nodup hnew
  · have hold : its.map (update l.eventAt l.created (some e)) = its.map l.eventAt :=
      map_congr_left fun it hit =>
        update_of_ne (ne_of_mem_of_not_mem hit hnew) (some e) l.eventAt
    rw [hevent, map_append, map_append, hold, h.events, map_singleton,
      map_singleton, update_self]
  · rw [hcreated]
    rcases mem_append.1 hit with hit | hit
    · exact Nat.lt_succ_of_lt (h.created it hit)
    · rw [mem_singleton.1 hit]
      exact Nat.lt_succ_self _

theorem Holds.popHead (h : l.Holds (it :: its) (e :: kept)) :
    ∃ ev l', l.popHead = some (ev, l') ∧ ev.event = e ∧ l'.Holds its kept := by
  obtain ⟨ev, hev⟩ := h.memory_eq mem_cons_self
  obtain ⟨hnot, hnodup⟩ := nodup_cons.1 h.nodup
  obtain ⟨he, hevents⟩ := List.cons.inj h.events
  have hlink : ev.next = its.head? := by
    have := h.next.1
    rwa [nextOf, hev] at this
  have hother : ∀ it' ∈ its, update l.memory it none it' = l.memory it' := fun it' hit' =>
    update_of_ne (ne_of_mem_of_not_mem hit' hnot) _ _
  refine ⟨ev, _, by rw [EventList.popHead, h.head, head?_cons, bind_some, hev]; rfl, ?_,
    hnodup, hlink, fun hne => ?_, h.next.2.congr fun it' hit' => ?_, ?_, fun it' hit' => ?_⟩
  · rw [eventAt, hev] at he
    exact some.inj he
  · obtain ⟨it', its, rfl⟩ := exists_cons_of_ne_nil hne
    exact h.tail (cons_ne_nil _ _)
  · exact congrArg (Option.bind · TraceEvent.next) (hother it' hit')
  · rw [← hevents]
    exact map_congr_left fun it' hit' => congrArg (Option.map _) (hother it' hit')
  · exact h.created it' (mem_cons_of_mem it hit')

end EventList

/-! ## Runs -/

/-- The trace keeps the longest run of newest events that fits: a loop over the list sees them, the
counters count them and all events, and `tail_trace_` is the last one if there is one. -/
structure Keeps (max : Nat) (x : Traced) (its : List Nat) (kept : List Event) : Prop where
  list : x.trace.list.iterate x.trace.list.created x.trace.list.headTrace = some its
  events : its.map x.trace.list.eventAt = kept.map some
  longest : IsLongest max x.added kept
  usage : x.trace.eventListMemoryUsage = usageOf kept
  logged : x.trace.numEventsLogged = x.added.length
  tail : its ≠ [] → x.trace.list.tailTrace = its.getLast?

/-- Neither the memory nor the number of the events wraps when the next one is added. -/
def NoWrap (x : Traced) (c : TraceCall) : Prop :=
  x.trace.eventListMemoryUsage + c.event.memoryUsage < 2 ^ 64 ∧ x.trace.numEventsLogged + 1 < 2 ^ 64

instance (x : Traced) (c : TraceCall) : Decidable (NoWrap x c) :=
  inferInstanceAs (Decidable (_ ∧ _))

variable {max : Nat} {t : ChannelTrace} {x : Traced} {c : TraceCall} {its : List Nat}
  {kept : List Event}

theorem ChannelTrace.collect_of_le (h : t.eventListMemoryUsage ≤ t.maxEventMemory) (n : Nat) :
    t.collect n = some t := by
  cases n <;> rw [collect, if_neg (Nat.not_lt.2 h)]

theorem ChannelTrace.collect_eq (h : t.list.Holds its kept)
    (husage : t.eventListMemoryUsage = usageOf kept) (hword : usageOf kept < 2 ^ 64) {n : Nat}
    (hn : its.length ≤ n) :
    ∃ its' list, t.collect n = some { t with
        eventListMemoryUsage := usageOf (newestFitting t.maxEventMemory kept)
        list := list } ∧ list.Holds its' (newestFitting t.maxEventMemory kept) := by
  induction kept generalizing n t its with
  | nil =>
    refine ⟨its, t.list, ?_, h⟩
    rw [collect_of_le (husage.trans_le (Nat.zero_le _))]
    exact congrArg (fun u => some { t with eventListMemoryUsage := u }) husage
  | cons e kept ih =>
    rcases Nat.lt_or_ge t.maxEventMemory (usageOf (e :: kept)) with hlarge | hfits
    · obtain ⟨it, its, rfl⟩ : ∃ it its', its = it :: its' := by
        cases its with
        | nil => cases h.events
        | cons it its => exact ⟨it, its, rfl⟩
      obtain ⟨ev, list, hpop, hev, hlist⟩ := h.popHead
      obtain ⟨n, rfl⟩ : ∃ m, n = m + 1 := ⟨n - 1, by simp only [length_cons] at hn; omega⟩
      have hfreed : (t.eventListMemoryUsage + 2 ^ 64 - ev.memoryUsage) % 2 ^ 64 = usageOf kept := by
        rw [husage, ev.usage, hev]
        simp only [usageOf, total_cons] at hword ⊢
        omega
      rw [newestFitting_cons hlarge, collect, if_pos (by rwa [husage]), hpop, bind_some]
      simp only [hfreed]
      exact ih (t := { t with eventListMemoryUsage := usageOf kept, list := list }) hlist rfl
        (by simp only [usageOf, total_cons] at hword ⊢; omega) (Nat.le_of_succ_le_succ hn)
    · rw [newestFitting_of_le hfits, collect_of_le (husage.trans_le hfits)]
      exact ⟨its, t.list, congrArg (fun u => some { t with eventListMemoryUsage := u }) husage, h⟩

/-- The list holds the longest run of newest events that fits, and the counters count. -/
structure Inv (max : Nat) (x : Traced) (its : List Nat) : Prop where
  limit : x.trace.maxEventMemory = max
  list : x.trace.list.Holds its (newestFitting max x.added)
  usage : x.trace.eventListMemoryUsage = usageOf (newestFitting max x.added)
  logged : x.trace.numEventsLogged = x.added.length

theorem inv_init (max : Nat) : Inv max { trace := { maxEventMemory := max } } [] where
  limit := rfl
  list := ⟨nodup_nil, rfl, fun _ => rfl, trivial, rfl, by simp⟩
  usage := rfl
  logged := rfl

theorem Inv.keeps (h : Inv max x its) : Keeps max x its (newestFitting max x.added) where
  list := h.list.iterate_eq
  events := h.list.events
  longest := isLongest_newestFitting max x.added
  usage := h.usage
  logged := h.logged
  tail := h.list.tail

theorem Inv.step_collect (h : Inv max x its) (hmax : 0 < max) (c : TraceCall) :
    ∃ list : EventList, list.Holds (its ++ [x.trace.list.created])
        (newestFitting max x.added ++ [c.event]) ∧
      x.step c = (ChannelTrace.collect list.created
        ({ x.trace with list := list }.count c.event.memoryUsage)).map
          fun t => ⟨t, x.added ++ [c.event]⟩ := by
  obtain ⟨list, hlink, hmemory, hlist⟩ := h.list.link c.event
  have hne : x.trace.maxEventMemory ≠ 0 := h.limit.symm ▸ hmax.ne'
  have hhelper : { x.trace with list := x.trace.list.newTraceEvent c.event }.addTraceEventHelper
      x.trace.list.created = ChannelTrace.collect list.created
        ({ x.trace with list := list }.count c.event.memoryUsage) := by
    rw [ChannelTrace.addTraceEventHelper, hlink, bind_some, hmemory]
    rfl
  refine ⟨list, hlist, ?_⟩
  rw [← hhelper]
  cases c with
  | addTraceEvent severity data =>
    rw [Traced.step, ChannelTrace.addTraceEvent, if_neg hne]
    rfl
  | addTraceEventWithReference severity data entity =>
    rw [Traced.step, ChannelTrace.addTraceEventWithReference, if_neg hne]
    rfl

theorem usageOf_concat (kept : List Event) (e : Event) :
    usageOf (kept ++ [e]) = usageOf kept + e.memoryUsage := by
  rw [usageOf, total_append]
  rfl

theorem Inv.step (h : Inv max x its) (hmax : 0 < max)
    (hadd : x.trace.eventListMemoryUsage + c.event.memoryUsage < 2 ^ 64) :
    ∃ x' its', x.step c = some x' ∧ x'.added = x.added ++ [c.event] ∧
      x'.trace.numEventsLogged = (x.trace.numEventsLogged + 1) % 2 ^ 64 ∧
      (x'.trace.numEventsLogged = x'.added.length → Inv max x' its') := by
  obtain ⟨list, hlist, hstep⟩ := h.step_collect hmax c
  have husage := usageOf_concat (newestFitting max x.added) c.event
  rw [← h.usage] at husage
  obtain ⟨its', list', hcollect, hlist'⟩ := ChannelTrace.collect_eq
    (t := { x.trace with list := list }.count c.event.memoryUsage) hlist
    ((Nat.mod_eq_of_lt hadd).trans husage.symm) (husage.trans_lt hadd)
    (Linked.length_le_of_lt hlist.nodup hlist.created)
  have hlimit : ({ x.trace with list := list }.count c.event.memoryUsage).maxEventMemory = max :=
    h.limit
  rw [hcollect] at hstep
  rw [hlimit, newestFitting_concat] at hlist' hstep
  exact ⟨_, its', hstep, rfl, rfl, fun hlogged => ⟨rfl, hlist', rfl, hlogged⟩⟩

theorem Inv.step_keeps (h : Inv max x its) (hmax : 0 < max) (hc : NoWrap x c) :
    ∃ x' its', x.step c = some x' ∧ Inv max x' its' := by
  obtain ⟨x', its', hstep, hadded, hlogged, hinv⟩ := h.step hmax hc.1
  refine ⟨x', its', hstep, hinv ?_⟩
  rw [hlogged, hadded, Nat.mod_eq_of_lt hc.2, h.logged, length_append, length_singleton]

/-- A call that wraps one of the counters leaves a trace that does not keep what it should: a memory
that wraps is below the limit again, so that nothing is freed. -/
theorem Inv.step_wraps (h : Inv max x its) (hmax : 0 < max) (hword : max < 2 ^ 64)
    (hc : ¬ NoWrap x c) :
    ∃ x', x.step c = some x' ∧ ¬ ∃ its' kept, Keeps max x' its' kept := by
  have hfits := (isLongest_newestFitting max x.added).fits
  have hnew : c.event.memoryUsage < 2 ^ 64 := Nat.mod_lt _ (by simp)
  rw [← h.usage] at hfits
  rcases Nat.lt_or_ge (x.trace.eventListMemoryUsage + c.event.memoryUsage) (2 ^ 64) with hadd | hadd
  · obtain ⟨x', its', hstep, hadded, hlogged, -⟩ := h.step hmax hadd
    refine ⟨x', hstep, ?_⟩
    rintro ⟨its', kept, hk⟩
    have hcount := hk.logged
    rw [hlogged, hadded, length_append, ← h.logged] at hcount
    exact hc ⟨hadd, hcount ▸ Nat.mod_lt _ (by simp)⟩
  · obtain ⟨list, hlist, hstep⟩ := h.step_collect hmax c
    rw [ChannelTrace.collect_of_le] at hstep
    · refine ⟨_, hstep, ?_⟩
      rintro ⟨its', kept, hk⟩
      have hits := some.inj (hk.list.symm.trans hlist.iterate_eq)
      have hkept : kept = newestFitting max x.added ++ [c.event] := by
        refine map_injective_iff.2 (fun _ _ => some.inj) ?_
        rw [← hk.events, hits]
        exact hlist.events
      have hle := hk.longest.fits
      rw [hkept, usageOf_concat, ← h.usage] at hle
      omega
    · show (x.trace.eventListMemoryUsage + c.event.memoryUsage) % 2 ^ 64 ≤ x.trace.maxEventMemory
      rw [h.limit]
      omega

/-- The trace keeps the longest run of newest events that fits, through every sequence of calls,
exactly when no addition to its counters wraps. -/
theorem keeps_iff (max : Nat) (hmax : 0 < max) (hword : max < 2 ^ 64) (calls : List TraceCall) :
    (∀ pre, pre <+: calls → ∃ x its kept,
      Run.run Traced.step { trace := { maxEventMemory := max } } pre = some x ∧
        Keeps max x its kept) ↔
      Run.Along Traced.step NoWrap { trace := { maxEventMemory := max } } calls := by
  constructor
  · intro h
    refine Run.along_of_property (I := fun x => ∃ its, Inv max x its)
      (P := fun x => ∃ its kept, Keeps max x its kept) (fun pre x hpre hrun => ?_) ?_ ?_
      ⟨[], inv_init max⟩
    · obtain ⟨x', its, kept, hrun', hk⟩ := h pre hpre
      obtain rfl := some.inj (hrun.symm.trans hrun')
      exact ⟨its, kept, hk⟩
    · rintro x c x' ⟨its, hx⟩ hc hstep
      obtain ⟨x₁, its', hstep', hinv⟩ := hx.step_keeps hmax hc
      obtain rfl := some.inj (hstep.symm.trans hstep')
      exact ⟨its', hinv⟩
    · rintro x c ⟨its, hx⟩ hc
      exact hx.step_wraps hmax hword hc
  · intro h pre hpre
    obtain ⟨x, hrun, its, hinv⟩ := (h.mono hpre).exists_run (I := fun x => ∃ its, Inv max x its)
      (fun x c ⟨its, hx⟩ hc => by
        obtain ⟨x', its', hstep, hinv⟩ := hx.step_keeps hmax hc
        exact ⟨x', hstep, its', hinv⟩) ⟨[], inv_init max⟩
    exact ⟨x, its, _, hrun, hinv.keeps⟩

theorem keeps_iff_freed :
    let calls := [.addTraceEvent .info (.refcounted (.counted 0) 0 40),
      .addTraceEvent .error (.refcounted (.counted 1) 0 200),
      .addTraceEventWithReference .info (.refcounted .noop 0 100) (some 3),
      .addTraceEvent .warning (.refcounted (.counted 2) 0 30)]
    ∃ x its kept, Run.run Traced.step { trace := { maxEventMemory := 200 } } calls = some x ∧
      Keeps 200 x its kept := by
  intro calls
  exact (keeps_iff 200 (by decide) (by decide) calls).2 (by decide) calls (prefix_refl calls)

/-- An event of half the range of `size_t`. -/
def halfRange : TraceCall := .addTraceEvent .info (.refcounted (.counted 0) 0 (2 ^ 63 - 80))

/-- Two events that wrap the memory are both kept although the limit is below their memory. -/
theorem wrapped_usage_keeps_both :
    ∃ x, Run.run Traced.step { trace := { maxEventMemory := 2 ^ 64 - 1 } } [halfRange, halfRange] =
        some x ∧ x.trace.eventListMemoryUsage = 0 ∧
      x.trace.list.iterate x.trace.list.created x.trace.list.headTrace = some [0, 1] ∧
      ¬ ∃ its kept, Keeps (2 ^ 64 - 1) x its kept := by
  refine ⟨_, rfl, rfl, rfl, ?_⟩
  rintro ⟨its, kept, hk⟩
  have hits : its = [0, 1] := some.inj hk.list.symm
  have hkept : kept = [halfRange.event, halfRange.event] := by
    refine map_injective_iff.2 (fun _ _ => some.inj) ?_
    rw [← hk.events, hits]
    rfl
  have hfits := hk.longest.fits
  rw [hkept] at hfits
  exact absurd hfits (by decide)

end Channelz

end GrpcCore
