import GrpcCore.Chttp2.SettingsAgreement

/-!
# Starting the streams of a client transport

A client stream gets its id when it is started (`maybe_start_some_streams`, `chttp2_transport.cc`),
which needs a free id and fewer live streams than the peer's MAX_CONCURRENT_STREAMS. Streams that
cannot be started wait in a list. The function is called when a stream asks to be started
(`perform_stream_op_locked` with `send_initial_metadata`) and when one is removed (`remove_stream`);
a GOAWAY frame and the closing of the transport cancel the waiting streams.

It is not called when a SETTINGS frame raises the limit: then streams wait although the peer would
take them (`ClientState.Raises`). `ClientState.run_waits_iff` says that this is the only way.

`streamMap` is the list of the entries of `stream_map`. A read is modelled by the frames in it that
matter here, one step for each.
-/

namespace GrpcCore

open List Function

def MAX_CLIENT_STREAM_ID : Nat := 0x7fffffff

/-- A stream of the client: `initialMetadata` says whether its `send_initial_metadata` op was
performed. -/
structure ClientStream where
  id : Nat := 0
  initialMetadata : Bool := false
  readClosed : Bool := false
  writeClosed : Bool := false

/-- The record of a stream that was started: its id, and the live streams before and the limit at
that time. -/
structure StreamStart where
  id : Nat
  live : Nat
  limit : Nat

/-- A client transport. Streams are numbered; `streamMap` holds pairs of an id and a number. -/
structure ClientState where
  nextStreamId : Nat
  streams : Nat → ClientStream := fun _ => {}
  streamMap : List (Nat × Nat) := []
  waitingForConcurrency : List Nat := []
  settings : SettingsState := {}
  goawayReceived : Bool := false
  finalGoawaySent : Bool := false
  writing : Bool := false
  closeTransportOnWritesFinished : Bool := false
  closedWithError : Bool := false
  starts : List StreamStart := []

namespace ClientState

/-- The constructor and `read_channel_args`, where `GRPC_ARG_HTTP2_INITIAL_SEQUENCE_NUMBER` is the
argument (-1 when it is not given). -/
def init (initialSequenceNumber : Int32) : ClientState :=
  { nextStreamId :=
      if 0 < initialSequenceNumber.toInt ∧ initialSequenceNumber.toInt % 2 = 1 then
        initialSequenceNumber.toInt.toNat
      else 1 }

def limit (t : ClientState) : Nat := t.settings.peerSettings .maxConcurrentStreams

/-- `grpc_chttp2_stream_map_size`. -/
def live (t : ClientState) : Nat := t.streamMap.length

/-- `grpc_chttp2_initiate_write`. -/
def initiateWrite (t : ClientState) : ClientState := { t with writing := true }

/-- `cancel_unstarted_streams`, and the loop at the end of `maybe_start_some_streams`. The streams
have no id yet, so that they are only marked as closed. -/
def cancelUnstartedStreams (t : ClientState) : ClientState :=
  { t with
    streams := fun s =>
      if s ∈ t.waitingForConcurrency then
        { t.streams s with readClosed := true, writeClosed := true }
      else t.streams s
    waitingForConcurrency := [] }

/-- The body of the loop of `maybe_start_some_streams`, with the assertions on the id of the stream
and on the order of the ids in the map. -/
def startStream (t : ClientState) (s : Nat) (rest : List Nat) : Option ClientState :=
  if (t.streams s).id = 0 ∧ ∀ e ∈ t.streamMap, e.1 < t.nextStreamId then
    some (initiateWrite { t with
      nextStreamId := u32 (t.nextStreamId + 2)
      streams := update t.streams s { t.streams s with id := t.nextStreamId }
      streamMap := t.streamMap ++ [(t.nextStreamId, s)]
      waitingForConcurrency := rest
      starts := t.starts ++ [⟨t.nextStreamId, t.live, t.limit⟩] })
  else none

/-- The loop of `maybe_start_some_streams` over the waiting streams. -/
def startLoop (t : ClientState) : List Nat → Option ClientState
  | [] => some t
  | s :: rest =>
    if t.nextStreamId ≤ MAX_CLIENT_STREAM_ID ∧ t.live < t.limit then do
      let t ← t.startStream s rest
      t.startLoop rest
    else some t

def maybeStartSomeStreams (t : ClientState) : Option ClientState :=
  if t.goawayReceived then some t.cancelUnstartedStreams
  else do
    let t ← t.startLoop t.waitingForConcurrency
    some (if MAX_CLIENT_STREAM_ID ≤ t.nextStreamId then t.cancelUnstartedStreams else t)

/-- The part of `close_transport_locked` after `end_all_the_calls`. -/
def finishClosing (t : ClientState) : ClientState :=
  if t.closedWithError then t
  else if t.writing then { t with closeTransportOnWritesFinished := true }
  else { t with closedWithError := true }

/-- `remove_stream`. When it closes the transport no stream is live, so that `end_all_the_calls`
finds only the waiting ones. -/
def removeStream (t : ClientState) (id : Nat) : Option ClientState :=
  let t := { t with streamMap := t.streamMap.filter (·.1 ≠ id) }
  let t := if t.streamMap = [] ∧ t.finalGoawaySent then
    t.cancelUnstartedStreams.finishClosing else t
  t.maybeStartSomeStreams

/-- The two flags of a stream after `grpc_chttp2_mark_stream_closed`. -/
def setClosed (t : ClientState) (s : Nat) (reads writes : Bool) : ClientState :=
  let stream := { t.streams s with
    readClosed := (t.streams s).readClosed || reads
    writeClosed := (t.streams s).writeClosed || writes }
  { t with streams := update t.streams s stream }

/-- `grpc_chttp2_mark_stream_closed`. -/
def markStreamClosed (t : ClientState) (s : Nat) (reads writes : Bool) : Option ClientState :=
  if (t.streams s).readClosed ∧ (t.streams s).writeClosed then some t
  else
    let t := t.setClosed s reads writes
    if (t.streams s).readClosed ∧ (t.streams s).writeClosed then
      if (t.streams s).id ≠ 0 then t.removeStream (t.streams s).id
      else some { t with waitingForConcurrency := t.waitingForConcurrency.erase s }
    else some t

/-- `grpc_chttp2_cancel_stream` of a client. -/
def cancelStream (t : ClientState) (s : Nat) : Option ClientState :=
  let t := if ((t.streams s).readClosed = false ∨ (t.streams s).writeClosed = false) ∧
    (t.streams s).id ≠ 0 then t.initiateWrite else t
  t.markStreamClosed s true true

/-- `grpc_chttp2_stream_map_for_each` with a function that cancels the streams it is for. -/
def cancelStreams (t : ClientState) (entries : List (Nat × Nat)) : Option ClientState :=
  entries.foldlM (fun t e => t.cancelStream e.2) t

/-- `close_transport_locked`, with `end_all_the_calls`. -/
def closeTransport (t : ClientState) : Option ClientState := do
  let t := t.cancelUnstartedStreams
  let t ← t.cancelStreams t.streamMap
  some t.finishClosing

def setInitialMetadata (t : ClientState) (s : Nat) : ClientState :=
  let stream := { t.streams s with initialMetadata := true }
  { t with streams := update t.streams s stream }

/-- `perform_stream_op_locked` with `send_initial_metadata`, which a stream has once. -/
def sendInitialMetadata (t : ClientState) (s : Nat) : Option ClientState :=
  if (t.streams s).initialMetadata then none
  else
    let t := t.setInitialMetadata s
    if (t.streams s).writeClosed then some t
    else if t.closedWithError then t.cancelStream s
    else if (t.streams s).id = 0 then
      maybeStartSomeStreams { t with waitingForConcurrency := t.waitingForConcurrency ++ [s] }
    else none

/-- A SETTINGS frame. An error of its parser closes the transport. -/
def settingsFrame (t : ClientState) (h : FrameHeader) (pieces : List Bytes) : Option ClientState :=
  match t.settings.receiveFrame h pieces with
  | .ok settings => some (initiateWrite { t with settings })
  | .error (_, settings) => closeTransport { t with settings }

/-- `grpc_chttp2_add_incoming_goaway`. -/
def addIncomingGoaway (t : ClientState) (lastStreamId : Nat) : Option ClientState :=
  let t := cancelUnstartedStreams { t with goawayReceived := true }
  t.cancelStreams (t.streamMap.filter (lastStreamId < ·.1))

/-- The end of all writes, in `set_write_state`. -/
def writesFinished (t : ClientState) : Option ClientState :=
  let t := { t with writing := false }
  if t.closeTransportOnWritesFinished then
    closeTransport { t with closeTransportOnWritesFinished := false }
  else some t

/-- The last GOAWAY frame of this side has been written (`write_action_end_locked`). -/
def goawaySent (t : ClientState) : Option ClientState :=
  let t := { t with finalGoawaySent := true }
  if t.streamMap = [] then t.closeTransport else some t

/-- What happens on a client transport: ops on streams, streams that are closed by frames or by the
end of what they send, frames of the peer, and the writes. -/
inductive Op where
  | sendInitialMetadata (s : Nat)
  | cancelStream (s : Nat)
  | markStreamClosed (s : Nat) (reads writes : Bool)
  | settingsFrame (h : FrameHeader) (pieces : List Bytes)
  | goawayFrame (lastStreamId : Nat)
  | initiateWrite
  | writesFinished
  | goawaySent
  | closeTransport

/-- One step; `none` for a second `send_initial_metadata` op on a stream, and where an assertion
fails. A closed transport does not look at what it reads. -/
def step (t : ClientState) : Op → Option ClientState
  | .sendInitialMetadata s => t.sendInitialMetadata s
  | .cancelStream s => t.cancelStream s
  | .markStreamClosed s reads writes => t.markStreamClosed s reads writes
  | .settingsFrame h pieces => if t.closedWithError then some t else t.settingsFrame h pieces
  | .goawayFrame lastStreamId =>
    if t.closedWithError then some t else t.addIncomingGoaway lastStreamId
  | .initiateWrite => some t.initiateWrite
  | .writesFinished => t.writesFinished
  | .goawaySent => t.goawaySent
  | .closeTransport => t.closeTransport

variable {t t' : ClientState} {s : Nat}

/-! ## Starting streams -/

/-- What holds whenever no function is running, the reason for waiting apart. -/
structure Inv (t : ClientState) : Prop where
  odd : t.nextStreamId % 2 = 1
  le_max : t.nextStreamId ≤ MAX_CLIENT_STREAM_ID + 2
  map_lt : ∀ e ∈ t.streamMap, e.1 < t.nextStreamId
  nodup : t.waitingForConcurrency.Nodup
  waiting_id : ∀ s ∈ t.waitingForConcurrency, (t.streams s).id = 0
  fresh : ∀ s, (t.streams s).initialMetadata = false →
    (t.streams s).id = 0 ∧ s ∉ t.waitingForConcurrency
  starts_lt : ∀ x ∈ t.starts, x.id < t.nextStreamId
  starts_ok : ∀ x ∈ t.starts, x.id % 2 = 1 ∧ x.id ≤ MAX_CLIENT_STREAM_ID ∧ x.live + 1 ≤ x.limit
  increasing : t.starts.Pairwise (·.id < ·.id)

/-- The two states agree on the streams, their ids and the settings. -/
structure SameStreams (t t' : ClientState) : Prop where
  next : t'.nextStreamId = t.nextStreamId
  streams : t'.streams = t.streams
  map : t'.streamMap = t.streamMap
  waiting : t'.waitingForConcurrency = t.waitingForConcurrency
  starts : t'.starts = t.starts
  settings : t'.settings = t.settings

theorem SameStreams.refl (t : ClientState) : SameStreams t t := ⟨rfl, rfl, rfl, rfl, rfl, rfl⟩

/-- Streams wait only while the peer takes no more of them, or no id is left. -/
def Waits (t : ClientState) : Prop :=
  t.waitingForConcurrency ≠ [] → t.limit ≤ t.live ∨ MAX_CLIENT_STREAM_ID < t.nextStreamId

instance (t : ClientState) : Decidable t.Waits :=
  inferInstanceAs (Decidable (_ → _))

theorem inv_init (initialSequenceNumber : Int32) : Inv (init initialSequenceNumber) := by
  have hid : (init initialSequenceNumber).nextStreamId % 2 = 1 ∧
      (init initialSequenceNumber).nextStreamId ≤ MAX_CLIENT_STREAM_ID + 2 := by
    have hlt := initialSequenceNumber.toInt_lt
    rw [init]
    dsimp only
    split
    · unfold MAX_CLIENT_STREAM_ID
      omega
    · decide
  exact ⟨hid.1, hid.2, fun _ h => absurd h not_mem_nil, nodup_nil,
    fun _ h => absurd h not_mem_nil, fun _ _ => ⟨rfl, not_mem_nil⟩,
    fun _ h => absurd h not_mem_nil, fun _ h => absurd h not_mem_nil, List.Pairwise.nil⟩

theorem Inv.of_same (h : Inv t) (hsame : SameStreams t t') : Inv t' := by
  obtain ⟨hnext, hstreams, hmap, hwaiting, hstarts, -⟩ := hsame
  constructor
  · rw [hnext]; exact h.odd
  · rw [hnext]; exact h.le_max
  · rw [hnext, hmap]; exact h.map_lt
  · rw [hwaiting]; exact h.nodup
  · rw [hwaiting, hstreams]; exact h.waiting_id
  · rw [hwaiting, hstreams]; exact h.fresh
  · rw [hstarts, hnext]; exact h.starts_lt
  · rw [hstarts]; exact h.starts_ok
  · rw [hstarts]; exact h.increasing

theorem Inv.cancelUnstartedStreams (h : Inv t) : Inv t.cancelUnstartedStreams := by
  have hid : ∀ s, (t.cancelUnstartedStreams.streams s).id = (t.streams s).id ∧
      (t.cancelUnstartedStreams.streams s).initialMetadata = (t.streams s).initialMetadata := by
    intro s
    dsimp only [ClientState.cancelUnstartedStreams]
    split <;> exact ⟨rfl, rfl⟩
  refine ⟨h.odd, h.le_max, h.map_lt, nodup_nil, fun _ hs => absurd hs not_mem_nil,
    fun s hs => ⟨?_, not_mem_nil⟩, h.starts_lt, h.starts_ok, h.increasing⟩
  rw [(hid s).1]
  exact (h.fresh s ((hid s).2 ▸ hs)).1

theorem Inv.startStream (h : Inv t) {rest : List Nat} (hw : t.waitingForConcurrency = s :: rest)
    (hid : t.nextStreamId ≤ MAX_CLIENT_STREAM_ID) (hlive : t.live < t.limit) :
    ∃ t', t.startStream s rest = some t' ∧ Inv t' ∧ t'.waitingForConcurrency = rest ∧
      t'.settings = t.settings := by
  have hnodup := h.nodup
  rw [hw] at hnodup
  obtain ⟨hs, hrest⟩ := nodup_cons.1 hnodup
  have hnext : u32 (t.nextStreamId + 2) = t.nextStreamId + 2 :=
    u32_of_lt (by unfold MAX_CLIENT_STREAM_ID at hid; omega)
  have hzero := h.waiting_id s (hw ▸ mem_cons_self)
  have hodd := h.odd
  unfold ClientState.startStream
  rw [if_pos ⟨hzero, h.map_lt⟩]
  refine ⟨_, rfl, ?_, rfl, rfl⟩
  constructor
  case odd =>
    change u32 _ % 2 = 1
    omega
  case le_max =>
    change u32 _ ≤ _
    omega
  case map_lt =>
    intro e he
    change _ < u32 _
    rcases mem_append.1 he with he | he
    · have := h.map_lt e he
      omega
    · rw [mem_singleton.1 he]
      dsimp only
      omega
  case nodup => exact hrest
  case waiting_id =>
    intro s' hs'
    have hne : s' ≠ s := fun heq => hs (heq ▸ hs')
    change (update t.streams s _ s').id = 0
    rw [update_of_ne hne]
    exact h.waiting_id s' (hw ▸ mem_cons_of_mem _ hs')
  case fresh =>
    intro s' hs'
    have hne : s' ≠ s := by
      rintro rfl
      change (update t.streams s' _ s').initialMetadata = false at hs'
      rw [update_self] at hs'
      exact (h.fresh s' hs').2 (hw ▸ mem_cons_self)
    change (update t.streams s _ s').initialMetadata = false at hs'
    change (update t.streams s _ s').id = 0 ∧ s' ∉ rest
    rw [update_of_ne hne] at hs' ⊢
    have hfresh := h.fresh s' hs'
    rw [hw] at hfresh
    exact ⟨hfresh.1, fun hmem => hfresh.2 (mem_cons_of_mem _ hmem)⟩
  case starts_lt =>
    intro x hx
    change _ < u32 _
    rcases mem_append.1 hx with hx | hx
    · have := h.starts_lt x hx
      omega
    · rw [mem_singleton.1 hx]
      dsimp only
      omega
  case starts_ok =>
    intro x hx
    rcases mem_append.1 hx with hx | hx
    · exact h.starts_ok x hx
    · rw [mem_singleton.1 hx]
      exact ⟨h.odd, hid, hlive⟩
  case increasing =>
    refine pairwise_append.2 ⟨h.increasing, pairwise_singleton _ _, fun x hx y hy => ?_⟩
    rw [mem_singleton.1 hy]
    exact h.starts_lt x hx

theorem Inv.startLoop (ws : List Nat) : ∀ {t : ClientState}, Inv t →
    t.waitingForConcurrency = ws → ∃ t', t.startLoop ws = some t' ∧ Inv t' ∧ Waits t' := by
  induction ws with
  | nil => exact fun {t} h hw => ⟨t, rfl, h, fun hne => absurd hw hne⟩
  | cons s rest ih =>
    intro t h hw
    rw [ClientState.startLoop]
    split
    case isTrue hroom =>
      obtain ⟨t₁, ht₁, h₁, hw₁, _⟩ := h.startStream hw hroom.1 hroom.2
      obtain ⟨t', ht', h', hwaits⟩ := ih h₁ hw₁
      exact ⟨t', by rw [ht₁]; exact ht', h', hwaits⟩
    case isFalse hfull =>
      refine ⟨t, rfl, h, fun _ => ?_⟩
      omega

/-- The invariant of the steps: no stream waits without a reason, and the reason is not that the
ids are used up, for then the waiting streams are cancelled. -/
structure Good (t : ClientState) : Prop extends Inv t where
  waits : Waits t
  id_left : t.waitingForConcurrency ≠ [] → t.nextStreamId < MAX_CLIENT_STREAM_ID

theorem Inv.good_of_nil (h : Inv t) (hnil : t.waitingForConcurrency = []) : Good t :=
  ⟨h, fun hne => absurd hnil hne, fun hne => absurd hnil hne⟩

theorem Good.of_same (h : Good t) (hsame : SameStreams t t') : Good t' := by
  refine ⟨h.toInv.of_same hsame, ?_, ?_⟩
  · rw [Waits, hsame.waiting, limit, hsame.settings, live, hsame.map, hsame.next]
    exact h.waits
  · rw [hsame.waiting, hsame.next]
    exact h.id_left

theorem Good.finishClosing (h : Good t) : Good t.finishClosing := by
  refine h.of_same ?_
  unfold ClientState.finishClosing
  split
  · exact .refl t
  · split <;> exact ⟨rfl, rfl, rfl, rfl, rfl, rfl⟩

theorem Inv.maybeStartSomeStreams (h : Inv t) :
    ∃ t', t.maybeStartSomeStreams = some t' ∧ Good t' := by
  unfold ClientState.maybeStartSomeStreams
  split
  · exact ⟨_, rfl, h.cancelUnstartedStreams.good_of_nil rfl⟩
  · obtain ⟨t₁, ht₁, h₁, hwaits⟩ := Inv.startLoop _ h rfl
    rw [ht₁]
    refine ⟨_, rfl, ?_⟩
    split
    case isTrue => exact h₁.cancelUnstartedStreams.good_of_nil rfl
    case isFalse hid => exact ⟨h₁, hwaits, fun _ => Nat.lt_of_not_le hid⟩

/-! ## Removing streams -/

theorem Inv.removeStream (h : Inv t) (id : Nat) :
    ∃ t', t.removeStream id = some t' ∧ Good t' := by
  have hfilter : Inv { t with streamMap := t.streamMap.filter (·.1 ≠ id) } :=
    ⟨h.odd, h.le_max, fun e he => h.map_lt e (mem_filter.1 he).1, h.nodup, h.waiting_id,
      h.fresh, h.starts_lt, h.starts_ok, h.increasing⟩
  dsimp only [ClientState.removeStream]
  split
  · have hcancel := hfilter.cancelUnstartedStreams.good_of_nil rfl
    exact hcancel.finishClosing.toInv.maybeStartSomeStreams
  · exact hfilter.maybeStartSomeStreams

theorem Inv.update_stream (h : Inv t) (stream : ClientStream) (hid : stream.id = (t.streams s).id)
    (hinitial : stream.initialMetadata = false → (t.streams s).initialMetadata = false) :
    Inv { t with streams := update t.streams s stream } := by
  refine ⟨h.odd, h.le_max, h.map_lt, h.nodup, fun s' hs' => ?_, fun s' hs' => ?_, h.starts_lt,
    h.starts_ok, h.increasing⟩
  · by_cases heq : s' = s
    · subst heq
      change (update t.streams s' stream s').id = 0
      rw [update_self, hid]
      exact h.waiting_id s' hs'
    · change (update t.streams s stream s').id = 0
      rw [update_of_ne heq]
      exact h.waiting_id s' hs'
  · by_cases heq : s' = s
    · subst heq
      change (update t.streams s' stream s').initialMetadata = false at hs'
      change (update t.streams s' stream s').id = 0 ∧ _
      rw [update_self] at hs' ⊢
      rw [hid]
      exact h.fresh s' (hinitial hs')
    · change (update t.streams s stream s').initialMetadata = false at hs'
      change (update t.streams s stream s').id = 0 ∧ _
      rw [update_of_ne heq] at hs' ⊢
      exact h.fresh s' hs'

theorem Good.markStreamClosed (h : Good t) (s : Nat) (reads writes : Bool) :
    ∃ t', t.markStreamClosed s reads writes = some t' ∧ Good t' := by
  have hset : Inv (t.setClosed s reads writes) := h.toInv.update_stream _ rfl id
  dsimp only [ClientState.markStreamClosed]
  split
  · exact ⟨t, rfl, h⟩
  split
  · split
    · exact hset.removeStream _
    · have hwaiting : t.waitingForConcurrency.erase s ≠ [] → t.waitingForConcurrency ≠ [] := by
        intro hne hnil
        rw [hnil] at hne
        exact hne rfl
      refine ⟨_, rfl, ⟨hset.odd, hset.le_max, hset.map_lt, hset.nodup.erase s, ?_, ?_,
        hset.starts_lt, hset.starts_ok, hset.increasing⟩, fun hne => h.waits (hwaiting hne),
        fun hne => h.id_left (hwaiting hne)⟩
      · exact fun s' hs' => hset.waiting_id s' (mem_of_mem_erase hs')
      · intro s' hs'
        exact ⟨(hset.fresh s' hs').1, fun hmem => (hset.fresh s' hs').2 (mem_of_mem_erase hmem)⟩
  · exact ⟨_, rfl, hset, h.waits, h.id_left⟩

theorem Good.initiateWrite (h : Good t) : Good t.initiateWrite :=
  h.of_same ⟨rfl, rfl, rfl, rfl, rfl, rfl⟩

theorem Good.cancelStream (h : Good t) (s : Nat) : ∃ t', t.cancelStream s = some t' ∧ Good t' := by
  dsimp only [ClientState.cancelStream]
  split
  · exact h.initiateWrite.markStreamClosed s true true
  · exact h.markStreamClosed s true true

theorem Good.cancelStreams (entries : List (Nat × Nat)) : ∀ {t : ClientState}, Good t →
    ∃ t', t.cancelStreams entries = some t' ∧ Good t' := by
  induction entries with
  | nil => exact fun {t} h => ⟨t, rfl, h⟩
  | cons e entries ih =>
    intro t h
    obtain ⟨t₁, ht₁, h₁⟩ := h.cancelStream e.2
    obtain ⟨t', ht', h'⟩ := ih h₁
    refine ⟨t', ?_, h'⟩
    rw [ClientState.cancelStreams, foldlM_cons, ht₁]
    exact ht'

theorem Inv.closeTransport (h : Inv t) : ∃ t', t.closeTransport = some t' ∧ Good t' := by
  obtain ⟨t', ht', h'⟩ :=
    Good.cancelStreams t.streamMap (h.cancelUnstartedStreams.good_of_nil rfl)
  refine ⟨t'.finishClosing, ?_, h'.finishClosing⟩
  have hmap : t.cancelUnstartedStreams.streamMap = t.streamMap := rfl
  rw [ClientState.closeTransport, hmap, ht']
  rfl

/-! ## Runs -/

theorem Good.sendInitialMetadata (h : Good t) (hfirst : (t.streams s).initialMetadata = false) :
    ∃ t', t.sendInitialMetadata s = some t' ∧ Good t' := by
  have hset : Inv (t.setInitialMetadata s) :=
    h.toInv.update_stream _ rfl fun hinitial => nomatch hinitial
  have hgood : Good (t.setInitialMetadata s) := ⟨hset, h.waits, h.id_left⟩
  obtain ⟨hzero, hnew⟩ := h.fresh s hfirst
  have hid : ((t.setInitialMetadata s).streams s).id = 0 := by
    change (update t.streams s _ s).id = 0
    rw [update_self]
    exact hzero
  unfold ClientState.sendInitialMetadata
  rw [if_neg (by simp [hfirst])]
  dsimp only
  split
  · exact ⟨_, rfl, hgood⟩
  split
  · exact hgood.cancelStream s
  refine Inv.maybeStartSomeStreams ⟨hset.odd, hset.le_max, hset.map_lt, ?_, ?_, ?_, hset.starts_lt,
    hset.starts_ok, hset.increasing⟩
  · exact nodup_append.2 ⟨hset.nodup, pairwise_singleton _ s, fun a ha b hb hab =>
      hnew (by rw [← mem_singleton.1 hb, ← hab]; exact ha)⟩
  · intro s' hs'
    rcases mem_append.1 hs' with hs' | hs'
    · exact hset.waiting_id s' hs'
    · rw [mem_singleton.1 hs']
      exact hid
  · intro s' hs'
    refine ⟨(hset.fresh s' hs').1, fun hmem => ?_⟩
    rcases mem_append.1 hmem with hmem | hmem
    · exact (hset.fresh s' hs').2 hmem
    · rw [mem_singleton.1 hmem] at hs'
      change (update t.streams s _ s).initialMetadata = false at hs'
      rw [update_self] at hs'
      cases hs'

/-- A SETTINGS frame raises the limit above the number of live streams while a stream waits. -/
def Raises (t : ClientState) : Op → Prop
  | .settingsFrame h pieces => t.closedWithError = false ∧ t.waitingForConcurrency ≠ [] ∧
      ∃ settings, t.settings.receiveFrame h pieces = .ok settings ∧
        t.live < settings.peerSettings .maxConcurrentStreams
  | _ => False

/-- No stream is asked to send its initial metadata twice. -/
def FirstMetadata (t : ClientState) : Op → Prop
  | .sendInitialMetadata s => (t.streams s).initialMetadata = false
  | _ => True

variable {op : Op}

theorem Good.step (h : Good t) (hfirst : t.FirstMetadata op) (hraise : ¬ t.Raises op) :
    ∃ t', t.step op = some t' ∧ Good t' := by
  cases op with
  | sendInitialMetadata s => exact h.sendInitialMetadata hfirst
  | cancelStream s => exact h.cancelStream s
  | markStreamClosed s reads writes => exact h.markStreamClosed s reads writes
  | settingsFrame hdr pieces =>
    rw [ClientState.step]
    split
    case isTrue => exact ⟨t, rfl, h⟩
    case isFalse hopen =>
      unfold ClientState.settingsFrame
      split
      case h_1 settings hok =>
        refine ⟨_, rfl, Good.initiateWrite ⟨⟨h.odd, h.le_max, h.map_lt, h.nodup, h.waiting_id,
          h.fresh, h.starts_lt, h.starts_ok, h.increasing⟩, fun hne => ?_, h.id_left⟩⟩
        refine .inl (Nat.le_of_not_lt fun hlt => hraise ⟨by simpa using hopen, hne, settings, ?_⟩)
        exact ⟨hok, hlt⟩
      case h_2 settings _ =>
        exact Inv.closeTransport ⟨h.odd, h.le_max, h.map_lt, h.nodup, h.waiting_id, h.fresh,
          h.starts_lt, h.starts_ok, h.increasing⟩
  | goawayFrame lastStreamId =>
    rw [ClientState.step]
    split
    · exact ⟨t, rfl, h⟩
    · refine Good.cancelStreams _ (Inv.good_of_nil (Inv.cancelUnstartedStreams ?_) rfl)
      exact h.toInv.of_same ⟨rfl, rfl, rfl, rfl, rfl, rfl⟩
  | initiateWrite => exact ⟨_, rfl, h.initiateWrite⟩
  | writesFinished =>
    dsimp only [ClientState.step, ClientState.writesFinished]
    split
    · refine Inv.closeTransport (h.toInv.of_same ?_)
      exact ⟨rfl, rfl, rfl, rfl, rfl, rfl⟩
    · exact ⟨_, rfl, h.of_same ⟨rfl, rfl, rfl, rfl, rfl, rfl⟩⟩
  | goawaySent =>
    have hsent : Good { t with finalGoawaySent := true } :=
      h.of_same ⟨rfl, rfl, rfl, rfl, rfl, rfl⟩
    dsimp only [ClientState.step, ClientState.goawaySent]
    split
    · exact hsent.toInv.closeTransport
    · exact ⟨_, rfl, hsent⟩
  | closeTransport => exact h.toInv.closeTransport

/-- A step that raises the limit goes through and leaves a stream waiting without a reason. -/
theorem Good.not_waits_of_raises (h : Good t) (hraise : t.Raises op) :
    ∃ t', t.step op = some t' ∧ ¬ Waits t' := by
  cases op with
  | settingsFrame hdr pieces =>
    obtain ⟨hopen, hne, settings, hok, hlt⟩ := hraise
    refine ⟨ClientState.initiateWrite { t with settings := settings }, ?_, fun hwaits => ?_⟩
    · rw [ClientState.step, if_neg (by simp [hopen]), ClientState.settingsFrame, hok]
    · have hid := h.id_left hne
      rcases hwaits hne with hle | hle
      · exact Nat.not_le_of_lt hlt hle
      · exact Nat.lt_asymm hid hle
  | sendInitialMetadata _ | cancelStream _ | markStreamClosed _ _ _ | goawayFrame _ | initiateWrite
  | writesFinished | goawaySent | closeTransport => exact hraise.elim

/-- The ids that were assigned are odd, increase and stay below 2^31, and a stream was started only
when the peer's limit had room for one more. -/
def StartsInOrder (t : ClientState) : Prop :=
  t.starts.Pairwise (·.id < ·.id) ∧
    ∀ x ∈ t.starts, x.id % 2 = 1 ∧ x.id ≤ 2 ^ 31 - 1 ∧ x.live + 1 ≤ x.limit

theorem Inv.startsInOrder (h : Inv t) : StartsInOrder t := ⟨h.increasing, h.starts_ok⟩

theorem Good.of_step (h : Good t) (hraise : ¬ t.Raises op) (hstep : t.step op = some t') :
    Good t' := by
  have hfirst : t.FirstMetadata op := by
    cases op with
    | sendInitialMetadata s =>
      by_contra hsecond
      rw [ClientState.step, ClientState.sendInitialMetadata,
        if_pos (by simpa [FirstMetadata] using hsecond)] at hstep
      cases hstep
    | _ => trivial
  obtain ⟨t₁, ht₁, h₁⟩ := h.step hfirst hraise
  exact Option.some.inj (ht₁.symm.trans hstep) ▸ h₁

/-- In a run of a client transport no stream waits without a reason, exactly if no SETTINGS frame
raises the limit while one waits. -/
theorem run_waits_iff (initialSequenceNumber : Int32) (ops : List Op) :
    (∀ pre t, pre <+: ops → Run.run step (init initialSequenceNumber) pre = some t →
      t.Waits ∧ t.StartsInOrder) ↔
      Run.Along step (fun t op => ¬ t.Raises op) (init initialSequenceNumber) ops := by
  have hinit : Good (init initialSequenceNumber) := (inv_init initialSequenceNumber).good_of_nil rfl
  constructor
  · intro h
    refine Run.along_of_property h (fun _ _ _ hs hop hstep => hs.of_step hop hstep) ?_ hinit
    intro t op ht hop
    obtain ⟨t', ht', hwaits⟩ := ht.not_waits_of_raises (not_not.1 hop)
    exact ⟨t', ht', fun hP => hwaits hP.1⟩
  · intro h pre t hp hrun
    have hgood : Good t := Run.run_invariant (h.mono hp) hrun
      (fun _ _ _ hs hop hstep => hs.of_step hop hstep) hinit
    exact ⟨hgood.waits, hgood.toInv.startsInOrder⟩

/-- A SETTINGS frame that sets MAX_CONCURRENT_STREAMS. -/
def maxConcurrentStreams (n : UInt8) : Op :=
  .settingsFrame ⟨6, 4, 0, 0⟩ [[0, 3, 0, 0, 0, n]]

/-- The peer allows one stream, two are asked for, and the peer allows two: the second one waits
although one stream is live and the limit is two. -/
theorem run_waits_after_raise :
    ∃ t, Run.run step (init (-1)) [maxConcurrentStreams 1, .sendInitialMetadata 0,
        .sendInitialMetadata 1, maxConcurrentStreams 2] = some t ∧
      t.waitingForConcurrency = [1] ∧ t.live = 1 ∧ t.limit = 2 ∧ t.nextStreamId = 3 ∧ ¬ t.Waits :=
  ⟨_, rfl, by decide⟩

end ClientState

end GrpcCore
