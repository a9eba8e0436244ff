import GrpcCore.Chttp2.Settings

/-!
# Agreement on settings

Two endpoints, one of which changes its settings while the other one receives them. The frames are
in flight for any time, and so are the acknowledgements; a frame arrives in any pieces. A frame only
says what has changed, so that the two agree only if none is lost or applied twice, and a sender
waits for the acknowledgement of one frame before it builds the next.

`SettingsLink.run_agrees`: the receiver accepts every frame as it is, its view of the sender's
settings after a frame is what the sender had when it built the frame, and what the sender takes as
acknowledged is what the receiver had applied.
-/

namespace GrpcCore

open List Function Option Word

namespace SettingsState

variable {t t' : SettingsState} {x y : Bytes}

/-! ## The parser -/

/-- What the bytes of a payload leave alone. -/
structure ParsesTo (t t' : SettingsState) : Prop where
  peerSettings : t'.peerSettings = t.peerSettings
  isAck : t'.parser.isAck = t.parser.isAck
  window : t'.initialWindowUpdate - t'.parser.incomingSettings .initialWindowSize =
    t.initialWindowUpdate - t.parser.incomingSettings .initialWindowSize
  inRange : ∀ id : SettingId, id.InRange (t.parser.incomingSettings id) →
    id.InRange (t'.parser.incomingSettings id)

theorem ParsesTo.refl (t : SettingsState) : ParsesTo t t := ⟨rfl, rfl, rfl, fun _ => id⟩

theorem ParsesTo.trans {t'' : SettingsState} (h : ParsesTo t t') (h' : ParsesTo t' t'') :
    ParsesTo t t'' :=
  ⟨h'.peerSettings.trans h.peerSettings, h'.isAck.trans h.isAck, h'.window.trans h.window,
    fun id hid => h'.inRange id (h.inRange id hid)⟩

variable {id : SettingId} {value : Nat} {pieces : List Bytes} {h : FrameHeader}

theorem storeSetting_parsesTo (t : SettingsState)
    (hvalue : id.InRange value) : ParsesTo t (t.storeSetting id value) := by
  refine ⟨rfl, rfl, ?_, fun j hj => ?_⟩
  swap
  · by_cases hid : j = id
    · subst hid
      simpa [storeSetting] using hvalue
    · simpa [storeSetting, hid] using hj
  dsimp only [storeSetting]
  by_cases hid : id = .initialWindowSize
  · subst hid
    rw [update_self]
    split
    · omega
    · next h =>
      have : t.parser.incomingSettings .initialWindowSize = value := by
        by_contra hne
        exact h ⟨rfl, hne⟩
      rw [this]
  · rw [update_of_ne (Ne.symm hid), if_neg (fun h => hid h.1)]

theorem applySetting_parsesTo (h : t.applySetting = .ok t') :
    ParsesTo t t' ∧ t'.parser.state = t.parser.state := by
  unfold applySetting at h
  cases hid : SettingId.ofWireId t.parser.id with
  | none =>
    rw [hid] at h
    cases h
    exact ⟨.refl t, rfl⟩
  | some id =>
    rw [hid] at h
    dsimp only at h
    split at h
    · next hvalue =>
      cases h
      exact ⟨storeSetting_parsesTo t hvalue, rfl⟩
    · cases hb : id.parameters.invalidValueBehavior with
      | clampInvalidValue =>
        rw [hb] at h
        cases h
        have hst := storeSetting_parsesTo t (id.inRange_clamp t.parser.value)
        exact ⟨⟨hst.1, hst.2, hst.3, hst.4⟩, rfl⟩
      | disconnectOnInvalidValue =>
        rw [hb] at h
        cases h

theorem parseByte_parsesTo {cur : UInt8} (h : t.parseByte cur = .ok t') :
    ParsesTo t t' ∧ t'.parser.state = t.parser.state.next := by
  unfold parseByte at h
  cases hstate : t.parser.state with
  | val3 =>
    simp only [hstate] at h
    obtain ⟨hp, hs⟩ := applySetting_parsesTo h
    exact ⟨⟨hp.1, hp.2, hp.3, hp.4⟩, hs⟩
  | id0 | id1 | val0 | val1 | val2 =>
    simp only [hstate] at h
    cases h
    exact ⟨⟨rfl, rfl, rfl, fun _ => id⟩, rfl⟩

theorem foldlM_parsesTo (h : x.foldlM parseByte t = .ok t') :
    ParsesTo t t' ∧ t'.parser.state = SettingsParseState.next^[x.length] t.parser.state := by
  induction x generalizing t with
  | nil =>
    cases h
    exact ⟨.refl _, rfl⟩
  | cons cur x ih =>
    rw [foldlM_cons] at h
    cases hcur : t.parseByte cur with
    | error e =>
      rw [hcur] at h
      cases h
    | ok t₁ =>
      rw [hcur] at h
      obtain ⟨hp, hs⟩ := parseByte_parsesTo hcur
      obtain ⟨hp', hs'⟩ := ih h
      refine ⟨hp.trans hp', ?_⟩
      rw [hs', hs, length_cons, iterate_succ_apply]

theorem next_iterate {n : Nat} (h : n % 6 = 0) (s : SettingsParseState) :
    SettingsParseState.next^[n] s = s := by
  obtain ⟨k, rfl⟩ := Nat.dvd_of_mod_eq_zero h
  have hsix : SettingsParseState.next^[6] = id := by
    funext s
    cases s <;> rfl
  rw [iterate_mul, hsix, iterate_id]
  rfl

/-! ## Pieces -/

theorem settingsParserParse_append (t : SettingsState) (x y : Bytes) (isLast : Bool) :
    t.settingsParserParse (x ++ y) isLast =
      (t.settingsParserParse x false).bind fun t => t.settingsParserParse y isLast := by
  unfold settingsParserParse
  cases hack : t.parser.isAck with
  | true => simp [Except.bind, hack]
  | false =>
    rw [foldlM_append]
    cases hx : x.foldlM parseByte t with
    | error e => simp [Bind.bind, Except.bind]
    | ok t₁ =>
      have hack₁ := (foldlM_parsesTo hx).1.isAck.trans hack
      simp [hack₁, Bind.bind, Except.bind]

theorem parsePieces_eq (t : SettingsState) (h : pieces ≠ []) :
    t.parsePieces pieces = t.settingsParserParse pieces.flatten true := by
  induction pieces generalizing t with
  | nil => exact absurd rfl h
  | cons piece pieces ih =>
    cases pieces with
    | nil => simp [parsePieces]
    | cons piece' pieces =>
      rw [flatten_cons, settingsParserParse_append]
      show Except.bind _ _ = _
      congr 1
      funext t
      exact ih t (cons_ne_nil _ _)

theorem initSettingsFrameParser_ok (ht : t.initSettingsFrameParser h = .ok t') :
    t'.peerSettings = t.peerSettings ∧ t'.initialWindowUpdate = t.initialWindowUpdate ∧
      t'.parser.incomingSettings = t.peerSettings ∧ t'.parser.state = .id0 ∧
      (t'.parser.isAck = false → h.size % 6 = 0) := by
  unfold initSettingsFrameParser parserBeginFrame at ht
  split at ht
  · cases ht
  · split at ht
    · next hack =>
      split at ht
      · cases ht
      · simp only [hack] at ht
        cases ht
        exact ⟨rfl, rfl, rfl, rfl, nofun⟩
    · split at ht
      · cases ht
      · next hflags =>
        split at ht
        · cases ht
        · next hsix =>
          simp only [not_not.1 hflags] at ht
          cases ht
          exact ⟨rfl, rfl, rfl, rfl, fun _ => not_not.1 hsix⟩

/-- A frame that is accepted: an acknowledgement, or a payload that is parsed from the settings of
the peer and stored when it ends with a setting. -/
theorem receiveFrame_ok (hne : pieces ≠ []) (ht : t.receiveFrame h pieces = .ok t') :
    t'.peerSettings = t.peerSettings ∧ t'.initialWindowUpdate = t.initialWindowUpdate ∨
      h.size % 6 = 0 ∧ ∃ t₁ t₂ : SettingsState, ParsesTo t₁ t₂ ∧
        t₁.initialWindowUpdate = t.initialWindowUpdate ∧ t₁.peerSettings = t.peerSettings ∧
        t₁.parser.incomingSettings = t.peerSettings ∧
        t₂.parser.state = SettingsParseState.next^[pieces.flatten.length] .id0 ∧
        t' = if t₂.parser.state = .id0 then t₂.applyFrame else t₂ := by
  unfold receiveFrame at ht
  cases hinit : t.initSettingsFrameParser h with
  | error e =>
    rw [hinit] at ht
    cases ht
  | ok t₁ =>
    obtain ⟨hpeer, hwindow, hincoming, hstate, hsix⟩ := initSettingsFrameParser_ok hinit
    rw [hinit] at ht
    change t₁.parsePieces pieces = .ok t' at ht
    rw [parsePieces_eq t₁ hne, settingsParserParse] at ht
    cases hack : t₁.parser.isAck with
    | true =>
      rw [if_pos hack] at ht
      cases ht
      exact .inl ⟨hpeer, hwindow⟩
    | false =>
      rw [if_neg (by simp [hack])] at ht
      cases hfold : pieces.flatten.foldlM parseByte t₁ with
      | error e =>
        rw [hfold] at ht
        cases ht
      | ok t₂ =>
        obtain ⟨hparse, hstate₂⟩ := foldlM_parsesTo hfold
        rw [hstate] at hstate₂
        refine .inr ⟨hsix hack, t₁, t₂, hparse, hwindow, hpeer, hincoming, hstate₂, ?_⟩
        rw [hfold] at ht
        by_cases hend : t₂.parser.state = .id0
        · simp only [Bind.bind, Except.bind, hend] at ht
          cases ht
          rw [if_pos hend]
        · simp only [Bind.bind, Except.bind, hend] at ht
          cases ht
          rw [if_neg hend]

/-- Whatever the frame says, and however often, the window update grows by the change of the
setting. -/
theorem receiveFrame_window (hne : pieces ≠ [])
    (hsize : pieces.flatten.length = h.size) (ht : t.receiveFrame h pieces = .ok t') :
    t'.initialWindowUpdate - t.initialWindowUpdate =
      (t'.peerSettings .initialWindowSize : Int) - t.peerSettings .initialWindowSize := by
  rcases receiveFrame_ok hne ht with ⟨hpeer, hwindow⟩ |
    ⟨hsix, t₁, t₂, hparse, hwindow, -, hincoming, hstate, rfl⟩
  · rw [hpeer, hwindow]
    omega
  · rw [hsize, next_iterate hsix] at hstate
    have hdelta := hparse.window
    rw [hwindow, hincoming] at hdelta
    rw [if_pos hstate]
    show t₂.initialWindowUpdate - t.initialWindowUpdate =
      (t₂.parser.incomingSettings .initialWindowSize : Int) - t.peerSettings .initialWindowSize
    omega

theorem receiveFrame_inRange (hne : pieces ≠ []) (hid : id.InRange (t.peerSettings id))
    (ht : t.receiveFrame h pieces = .ok t') : id.InRange (t'.peerSettings id) := by
  rcases receiveFrame_ok hne ht with ⟨hpeer, -⟩ |
    ⟨-, t₁, t₂, hparse, -, hpeer, hincoming, -, rfl⟩
  · rwa [hpeer]
  · split
    · exact hparse.inRange id (by rwa [hincoming])
    · rwa [hparse.peerSettings, hpeer]

/-- After any frames that were accepted, in any pieces, the settings of the peer are valid, but for
the one of which zero means that it is off, and the window update is what the initial window has
changed. -/
theorem receiveFrames_valid (frames : List (FrameHeader × List Bytes))
    (hframes : ∀ f ∈ frames, f.2 ≠ [] ∧ f.2.flatten.length = f.1.size)
    (ht : (frames.foldlM (fun t f => t.receiveFrame f.1 f.2) {} : SettingsResult) = .ok t) :
    (∀ id ≠ .grpcPreferredReceiveCryptoFrameSize, SettingId.InRange id (t.peerSettings id)) ∧
      t.initialWindowUpdate = (t.peerSettings .initialWindowSize : Int) - 65535 := by
  have hstart (id : SettingId) (hid : id ≠ .grpcPreferredReceiveCryptoFrameSize) :
      id.InRange (({} : SettingsState).peerSettings id) := SettingId.inRange_default hid
  have hwindow : ({} : SettingsState).initialWindowUpdate =
      (({} : SettingsState).peerSettings .initialWindowSize : Int) - 65535 := rfl
  generalize ({} : SettingsState) = t₀ at ht hstart hwindow
  induction frames generalizing t₀ with
  | nil =>
    cases ht
    exact ⟨hstart, hwindow⟩
  | cons f frames ih =>
    obtain ⟨⟨hne, hsize⟩, hframes⟩ := forall_mem_cons.1 hframes
    rw [foldlM_cons] at ht
    cases hrecv : t₀.receiveFrame f.1 f.2 with
    | error e =>
      rw [hrecv] at ht
      cases ht
    | ok t₁ =>
      rw [hrecv] at ht
      have hchange := receiveFrame_window hne hsize hrecv
      exact ih hframes t₁ ht (fun id hid => receiveFrame_inRange hne (hstart id hid) hrecv)
        (by omega)

/-- A frame with INITIAL_WINDOW_SIZE, in two pieces. -/
theorem receiveFrames_valid_two_pieces : ∃ t,
    ([(⟨6, 4, 0, 0⟩, [[0, 4, 0], [0, 0, 100]])].foldlM (fun t f => t.receiveFrame f.1 f.2) {} :
      SettingsResult) = .ok t ∧
    SettingId.InRange .initialWindowSize (t.peerSettings .initialWindowSize) ∧
    t.initialWindowUpdate = (t.peerSettings .initialWindowSize : Int) - 65535 := by
  have h := receiveFrames_valid [(⟨6, 4, 0, 0⟩, [[0, 4, 0], [0, 0, 100]])] (by decide) rfl
  exact ⟨_, rfl, h.1 _ (by decide), h.2⟩

/-! ## Frames that `settingsCreate` builds -/

theorem foldlM_settingEntry (hstate : t.parser.state = .id0) (hv : id.InRange value) :
    (settingEntry id value).foldlM parseByte t =
      .ok ({ t with
        parser := { t.parser with id := id.toWireId, value } }.storeSetting id value) := by
  have hid : (byteAt id.toWireId 8).toNat <<< 8 ||| (byteAt id.toWireId 0).toNat =
      id.toWireId := be16_byteAt id.toWireId_lt
  have hvalue : (byteAt value 24).toNat <<< 24 ||| (byteAt value 16).toNat <<< 16 |||
      (byteAt value 8).toNat <<< 8 ||| (byteAt value 0).toNat = value :=
    be32_byteAt hv.lt
  simp only [settingEntry, foldlM_cons, foldlM_nil, parseByte, hstate, Bind.bind,
    Except.bind, hid, hvalue, applySetting, SettingId.ofWireId_toWireId, if_pos hv]
  rfl

theorem foldlM_entries (ids : List SettingId) (newSettings : Settings)
    (hstate : t.parser.state = .id0) (hids : ∀ id ∈ ids, id.InRange (newSettings id)) :
    ∃ t', (ids.flatMap fun id => settingEntry id (newSettings id)).foldlM parseByte t = .ok t' ∧
      t'.clamps = t.clamps ∧ t'.qbuf = t.qbuf ∧
      t'.parser.incomingSettings =
        fun id => if id ∈ ids then newSettings id else t.parser.incomingSettings id := by
  induction ids generalizing t with
  | nil => exact ⟨t, rfl, rfl, rfl, by simp⟩
  | cons id ids ih =>
    obtain ⟨hid, hids⟩ := forall_mem_cons.1 hids
    have hentry := foldlM_settingEntry hstate hid
    generalize ht₁ : storeSetting _ id (newSettings id) = t₁ at hentry
    have hstate₁ : t₁.parser.state = .id0 := by
      rw [← ht₁]
      exact hstate
    obtain ⟨t', hfold, hclamps, hqbuf, hincoming⟩ := ih hstate₁ hids
    refine ⟨t', ?_, ?_, ?_, ?_⟩
    · rw [flatMap_cons, foldlM_append, hentry]
      exact hfold
    · rw [hclamps, ← ht₁]
      rfl
    · rw [hqbuf, ← ht₁]
      rfl
    · rw [hincoming, ← ht₁]
      funext j
      by_cases hj : j = id
      · subst hj
        simp [storeSetting]
      · simp [storeSetting, hj]

end SettingsState

theorem settingsCreate_snd (oldSettings newSettings : Settings) (forceMask : Nat) :
    (settingsCreate oldSettings newSettings forceMask).2 = newSettings := by
  funext id
  show (if oldSettings.sends newSettings forceMask id then newSettings id else oldSettings id) = _
  split
  · rfl
  · next h =>
    simp only [Settings.sends, Bool.or_eq_true, bne_iff_ne, ne_eq, not_or, not_not] at h
    exact h.1.symm

theorem FrameHeader.ofBytes_fillHeader {n : Nat} (hn : n < 2 ^ 24) (flags : UInt8)
    (payload : Bytes) :
    FrameHeader.ofBytes (fillHeader n flags ++ payload) =
      some (⟨n, frameSettings, flags, 0⟩, payload) := by
  simp only [fillHeader, cons_append, nil_append, FrameHeader.ofBytes,
    be24_byteAt hn]
  rfl

/-- Cut a payload at the given distances. -/
def slices : List Nat → Bytes → List Bytes
  | [], x => [x]
  | n :: cuts, x => x.take n :: slices cuts (x.drop n)

theorem slices_ne_nil (cuts : List Nat) (x : Bytes) : slices cuts x ≠ [] := by
  cases cuts <;> exact cons_ne_nil _ _

theorem flatten_slices (cuts : List Nat) (x : Bytes) : (slices cuts x).flatten = x := by
  induction cuts generalizing x with
  | nil => simp [slices]
  | cons n cuts ih => rw [slices, flatten_cons, ih, take_append_drop]

def sentIds (oldSettings newSettings : Settings) (forceMask : Nat) : List SettingId :=
  SettingId.all.filter (oldSettings.sends newSettings forceMask)

theorem ofBytes_settingsCreate (oldSettings newSettings : Settings) (forceMask : Nat) :
    ∃ size payload,
      FrameHeader.ofBytes (settingsCreate oldSettings newSettings forceMask).1 =
        some (⟨size, frameSettings, 0, 0⟩, payload) ∧
      payload.length = size ∧ size % 6 = 0 ∧
      payload = (sentIds oldSettings newSettings forceMask).flatMap
        fun id => settingEntry id (newSettings id) := by
  have hle : (sentIds oldSettings newSettings forceMask).length ≤ 8 := length_filter_le _ _
  refine ⟨_, _, FrameHeader.ofBytes_fillHeader ?_ 0 _, ?_, Nat.mul_mod_right 6 _, rfl⟩
  · rw [← sentIds]
    omega
  · rw [← sentIds, length_flatMap]
    simp [settingEntry, Nat.mul_comm]

namespace SettingsState

variable {t t' : SettingsState}

/-- A SETTINGS frame from the wire, with its payload cut into pieces; `none` is a connection
error. -/
def receive (t : SettingsState) (bytes : Bytes) (cuts : List Nat) : Option SettingsState := do
  let (h, payload) ← FrameHeader.ofBytes bytes
  (t.receiveFrame h (slices cuts payload)).toOption

theorem initSettingsFrameParser_settings {size : Nat} (type : UInt8) (h : size % 6 = 0) :
    t.initSettingsFrameParser ⟨size, type, 0, 0⟩ = .ok (t.resetParser false) := by
  simp [initSettingsFrameParser, parserBeginFrame, h, Bind.bind, Except.bind]

theorem initSettingsFrameParser_ack (type : UInt8) :
    t.initSettingsFrameParser ⟨0, type, 1, 0⟩ = .ok (t.resetParser true).settingsAcked := by
  simp [initSettingsFrameParser, parserBeginFrame, Bind.bind, Except.bind]

theorem receive_settingsCreate {newSettings : Settings} {forceMask : Nat}
    (hids : ∀ id, t.peerSettings.sends newSettings forceMask id → id.InRange (newSettings id))
    (cuts : List Nat) :
    ∃ t', t.receive (settingsCreate t.peerSettings newSettings forceMask).1 cuts = some t' ∧
      t'.peerSettings = newSettings ∧ t'.clamps = t.clamps ∧
      t'.qbuf = t.qbuf ++ [.settingsAck] ∧
      t'.initialWindowUpdate - t.initialWindowUpdate =
        (newSettings .initialWindowSize : Int) - t.peerSettings .initialWindowSize := by
  obtain ⟨size, payload, hbytes, hlen, hsix, hpayload⟩ :=
    ofBytes_settingsCreate t.peerSettings newSettings forceMask
  obtain ⟨t₂, hfold, hclamps, hqbuf, hincoming⟩ := foldlM_entries
    (sentIds t.peerSettings newSettings forceMask) newSettings (t := t.resetParser false) rfl
    (fun id hid => hids id (mem_filter.1 hid).2)
  obtain ⟨hparse, hstate₂⟩ := foldlM_parsesTo hfold
  rw [← hpayload] at hfold hstate₂
  rw [hlen, next_iterate hsix] at hstate₂
  have hrecv : t.receiveFrame ⟨size, frameSettings, 0, 0⟩ (slices cuts payload) =
      .ok t₂.applyFrame := by
    unfold receiveFrame
    rw [initSettingsFrameParser_settings _ hsix]
    show (t.resetParser false).parsePieces _ = _
    rw [parsePieces_eq _ (slices_ne_nil cuts payload), flatten_slices, settingsParserParse,
      if_neg (by simp [resetParser]), hfold]
    simp [Bind.bind, Except.bind, hstate₂, resetParser]
  have hnew : t₂.applyFrame.peerSettings = newSettings := by
    show t₂.parser.incomingSettings = newSettings
    refine hincoming.trans (Eq.trans ?_ (settingsCreate_snd t.peerSettings newSettings forceMask))
    funext id
    simp [sentIds, settingsCreate, SettingId.mem_all, resetParser]
  have hwindow := receiveFrame_window (slices_ne_nil cuts payload)
    (by rw [flatten_slices, hlen]) hrecv
  rw [hnew] at hwindow
  refine ⟨t₂.applyFrame, ?_, hnew, ?_, ?_, hwindow⟩
  · rw [receive, hbytes]
    show (t.receiveFrame _ _).toOption = _
    rw [hrecv]
    rfl
  · exact hclamps
  · exact congrArg (· ++ [.settingsAck]) hqbuf

theorem receive_settingsAckCreate (t : SettingsState) (cuts : List Nat) :
    t.receive settingsAckCreate cuts = some (t.resetParser true).settingsAcked := by
  have hbytes : FrameHeader.ofBytes settingsAckCreate = some (⟨0, frameSettings, 1, 0⟩, []) := rfl
  rw [receive, hbytes]
  show (t.receiveFrame _ _).toOption = _
  unfold receiveFrame
  rw [initSettingsFrameParser_ack]
  show ((t.resetParser true).settingsAcked.parsePieces _).toOption = _
  rw [parsePieces_eq _ (slices_ne_nil cuts []), settingsParserParse,
    if_pos (by rfl)]
  rfl

end SettingsState

/-! ## Two endpoints -/

/-- A frame in flight. `settings` is for the statements only: for a SETTINGS frame what the sender
had in `GRPC_SENT_SETTINGS` when it built the frame, for an acknowledgement what the receiver had
applied when it sent it. -/
structure InFlight where
  bytes : Bytes
  settings : Settings

/-- The endpoint whose settings change, the one that is told, and what is on its way between
them. -/
structure SettingsLink where
  sender : SettingsState := {}
  receiver : SettingsState := {}
  frames : List InFlight := []
  acks : List InFlight := []

/-- The steps of the two endpoints. The cuts say in which pieces the payload of a frame arrives. -/
inductive SettingsOp where
  | queueSettingUpdate (id : SettingId) (value : Nat)
  | flushSettings
  | deliverSettings (cuts : List Nat)
  /-- `WriteContext::FlushQueuedBuffers` of the receiver. -/
  | flushQueuedBuffers
  | deliverAck (cuts : List Nat)

namespace SettingsLink

/-- One step; `none` is a connection error. -/
def step (s : SettingsLink) : SettingsOp → Option SettingsLink
  | .queueSettingUpdate id value => some { s with sender := s.sender.queueSettingUpdate id value }
  | .flushSettings =>
    let (sender, frame) := s.sender.flushSettings
    some { s with sender, frames := s.frames ++ frame.toList.map (⟨·, sender.sentSettings⟩) }
  | .deliverSettings cuts =>
    match s.frames with
    | [] => some s
    | frame :: frames => do
      let receiver ← s.receiver.receive frame.bytes cuts
      some { s with receiver, frames }
  | .flushQueuedBuffers =>
    let acks := s.receiver.qbuf.filter (· = .settingsAck)
    some { s with
      receiver := { s.receiver with qbuf := [], numPendingInducedFrames := 0 }
      acks := s.acks ++ acks.map fun _ => ⟨settingsAckCreate, s.receiver.peerSettings⟩ }
  | .deliverAck cuts =>
    match s.acks with
    | [] => some s
    | ack :: acks => do
      let sender ← s.sender.receive ack.bytes cuts
      some { s with sender, acks }

/-- What a step that leads from `s` to `s'` says about the settings. -/
def Agrees (s : SettingsLink) (op : SettingsOp) (s' : SettingsLink) : Prop :=
  match op with
  | .deliverSettings _ => ∀ frame frames, s.frames = frame :: frames →
      s'.receiver.peerSettings = frame.settings ∧
      s'.receiver.initialWindowUpdate - s.receiver.initialWindowUpdate =
        (frame.settings .initialWindowSize : Int) - s.receiver.peerSettings .initialWindowSize
  | .deliverAck _ => ∀ ack acks, s.acks = ack :: acks → s'.sender.ackedSettings = ack.settings
  | .queueSettingUpdate _ _ | .flushSettings | .flushQueuedBuffers => True

/-- Where the one SETTINGS frame is that may be under way. -/
inductive Exchange (s : SettingsLink) : Prop
  | idle : s.frames = [] → s.receiver.qbuf = [] → s.acks = [] →
      s.sender.sentLocalSettings = false → s.receiver.peerSettings = s.sender.sentSettings →
      Exchange s
  | sent (forceMask : Nat) :
      s.frames = [⟨(settingsCreate s.receiver.peerSettings s.sender.sentSettings forceMask).1,
        s.sender.sentSettings⟩] →
      (∀ id, s.receiver.peerSettings.sends s.sender.sentSettings forceMask id →
        id.InRange (s.sender.sentSettings id)) →
      s.receiver.qbuf = [] → s.acks = [] → s.sender.sentLocalSettings = true → Exchange s
  | applied : s.frames = [] → s.receiver.qbuf = [.settingsAck] → s.acks = [] →
      s.sender.sentLocalSettings = true → s.receiver.peerSettings = s.sender.sentSettings →
      Exchange s
  | acked : s.frames = [] → s.receiver.qbuf = [] →
      s.acks = [⟨settingsAckCreate, s.sender.sentSettings⟩] →
      s.sender.sentLocalSettings = true → s.receiver.peerSettings = s.sender.sentSettings →
      Exchange s

/-- The invariant. A setting that the sender has never changed may have a default that is not
valid, but then it is not sent: only the initial window is sent unchanged. -/
structure Inv (s : SettingsLink) : Prop where
  valid : ∀ id, id.InRange (s.sender.localSettings id) ∨
    s.sender.localSettings id = s.sender.sentSettings id ∧ id ≠ .initialWindowSize
  forced : ∀ id : SettingId, s.sender.forceSendSettings.testBit id.index → id = .initialWindowSize
  clamps : s.receiver.clamps = 0
  exchange : Exchange s

theorem inv_start : Inv {} where
  valid id := by
    by_cases hid : id = .grpcPreferredReceiveCryptoFrameSize
    · subst hid
      exact .inr ⟨rfl, nofun⟩
    · exact .inl (SettingId.inRange_default hid)
  forced id := by cases id <;> decide
  clamps := rfl
  exchange := .idle rfl rfl rfl rfl rfl

variable {s : SettingsLink}

/-! ## The steps -/

theorem Inv.queueSettingUpdate (h : Inv s) (id : SettingId) (value : Nat) :
    Inv { s with sender := s.sender.queueSettingUpdate id value } := by
  unfold SettingsState.queueSettingUpdate
  dsimp only
  split
  · refine ⟨fun j => ?_, h.forced, h.clamps, ?_⟩
    · by_cases hj : j = id
      · subst hj
        simp only [update_self]
        exact .inl (j.inRange_clamp value)
      · simp only [update_of_ne hj]
        exact h.valid j
    · cases h.exchange with
      | idle h₁ h₂ h₃ h₄ h₅ => exact .idle h₁ h₂ h₃ h₄ h₅
      | sent mask h₁ h₂ h₃ h₄ h₅ => exact .sent mask h₁ h₂ h₃ h₄ h₅
      | applied h₁ h₂ h₃ h₄ h₅ => exact .applied h₁ h₂ h₃ h₄ h₅
      | acked h₁ h₂ h₃ h₄ h₅ => exact .acked h₁ h₂ h₃ h₄ h₅
  · exact h

theorem Inv.inRange_of_sends (h : Inv s) {id : SettingId}
    (hid : s.sender.sentSettings.sends s.sender.localSettings s.sender.forceSendSettings id) :
    id.InRange (s.sender.localSettings id) := by
  rcases h.valid id with hvalid | ⟨hsame, hne⟩
  · exact hvalid
  · rcases Bool.or_eq_true_iff.1 hid with hdiff | hforced
    · exact absurd hsame (bne_iff_ne.1 hdiff)
    · exact absurd (h.forced id hforced) hne

theorem Inv.flushSettings (h : Inv s) : ∃ s', s.step .flushSettings = some s' ∧ Inv s' := by
  rw [step]
  by_cases hflush : (s.sender.dirtiedLocalSettings && !s.sender.sentLocalSettings) = true
  · have hsent : s.sender.sentLocalSettings = false := by simp_all
    have hnew : s.sender.settingsFrame.2 = s.sender.localSettings := settingsCreate_snd _ _ _
    rw [SettingsState.flushSettings, if_pos hflush]
    refine ⟨_, rfl, fun id => ?_, by simp, h.clamps, ?_⟩
    · rcases h.valid id with hvalid | ⟨-, hne⟩
      · exact .inl hvalid
      · exact .inr ⟨(congrFun hnew id).symm, hne⟩
    · cases h.exchange with
      | idle h₁ h₂ h₃ h₄ h₅ =>
        refine .sent s.sender.forceSendSettings ?_ ?_ h₂ h₃ rfl
        · simp only [h₁, h₅, hnew]
          rfl
        · simp only [hnew, h₅]
          exact fun id => h.inRange_of_sends
      | sent mask h₁ h₂ h₃ h₄ h₅ => exact absurd (hsent.symm.trans h₅) nofun
      | applied h₁ h₂ h₃ h₄ h₅ | acked h₁ h₂ h₃ h₄ h₅ => exact absurd (hsent.symm.trans h₄) nofun
  · rw [SettingsState.flushSettings, if_neg hflush]
    exact ⟨s, by simp, h⟩

theorem Inv.deliverSettings (h : Inv s) (cuts : List Nat) :
    ∃ s', s.step (.deliverSettings cuts) = some s' ∧ s.Agrees (.deliverSettings cuts) s' ∧
      Inv s' := by
  cases h.exchange with
  | sent mask hframes hrange hqbuf hacks hsent =>
    obtain ⟨t', hrecv, hpeer, hclamps, hqbuf', hwindow⟩ :=
      SettingsState.receive_settingsCreate hrange cuts
    refine ⟨{ s with receiver := t', frames := [] }, ?_, ?_, ?_⟩
    · rw [step, hframes]
      simp only [hrecv, bind_eq_bind, bind_some]
    · intro frame frames hf
      rw [hframes] at hf
      cases hf
      exact ⟨hpeer, hwindow⟩
    · exact ⟨h.valid, h.forced, hclamps.trans h.clamps,
        .applied rfl (by rw [hqbuf', hqbuf]; rfl) hacks hsent hpeer⟩
  | idle h₁ | applied h₁ | acked h₁ =>
    refine ⟨s, by rw [step, h₁], fun frame frames hf => ?_, h⟩
    rw [h₁] at hf
    cases hf

theorem Inv.flushQueuedBuffers (h : Inv s) :
    ∃ s', s.step .flushQueuedBuffers = some s' ∧ Inv s' := by
  refine ⟨_, rfl, h.valid, h.forced, h.clamps, ?_⟩
  cases h.exchange with
  | idle h₁ h₂ h₃ h₄ h₅ => exact .idle h₁ rfl (by simp [h₂, h₃]) h₄ h₅
  | sent mask h₁ h₂ h₃ h₄ h₅ => exact .sent mask h₁ h₂ rfl (by simp [h₃, h₄]) h₅
  | applied h₁ h₂ h₃ h₄ h₅ => exact .acked h₁ rfl (by simp [h₂, h₃, h₅]) h₄ h₅
  | acked h₁ h₂ h₃ h₄ h₅ => exact .acked h₁ rfl (by simp [h₂, h₃]) h₄ h₅

theorem Inv.deliverAck (h : Inv s) (cuts : List Nat) :
    ∃ s', s.step (.deliverAck cuts) = some s' ∧ s.Agrees (.deliverAck cuts) s' ∧ Inv s' := by
  cases h.exchange with
  | acked hframes hqbuf hacks hsent hpeer =>
    have hrecv := SettingsState.receive_settingsAckCreate s.sender cuts
    refine ⟨{ s with sender := (s.sender.resetParser true).settingsAcked, acks := [] }, ?_, ?_, ?_⟩
    · rw [step, hacks]
      simp only [hrecv, bind_eq_bind, bind_some]
    · intro ack acks hf
      rw [hacks] at hf
      cases hf
      rfl
    · exact ⟨h.valid, h.forced, h.clamps, .idle hframes hqbuf rfl rfl hpeer⟩
  | idle _ _ h₃ | applied _ _ h₃ | sent _ _ _ _ h₃ =>
    refine ⟨s, by rw [step, h₃], fun ack acks hf => ?_, h⟩
    rw [h₃] at hf
    cases hf

theorem Inv.step (h : Inv s) (op : SettingsOp) :
    ∃ s', s.step op = some s' ∧ s.Agrees op s' ∧ Inv s' := by
  cases op with
  | queueSettingUpdate id value => exact ⟨_, rfl, trivial, h.queueSettingUpdate id value⟩
  | flushSettings =>
    obtain ⟨s', hs', h'⟩ := h.flushSettings
    exact ⟨s', hs', trivial, h'⟩
  | deliverSettings cuts => exact h.deliverSettings cuts
  | flushQueuedBuffers =>
    obtain ⟨s', hs', h'⟩ := h.flushQueuedBuffers
    exact ⟨s', hs', trivial, h'⟩
  | deliverAck cuts => exact h.deliverAck cuts

/-- In every run of the two endpoints from the default settings no frame ends the connection and no
value is clamped, the receiver's view after a frame is what the sender had when it built it, the
acknowledged settings are those that the receiver had applied, and the window update grows by the
change of the initial window. The latter holds for every frame that a receiver accepts, also when
the frame sets the initial window more than once. -/
theorem run_agrees :
    (∀ ops, ∃ s, Run.run SettingsLink.step {} ops = some s ∧ s.receiver.clamps = 0 ∧
      ∀ op, ∃ s', s.step op = some s' ∧ s.Agrees op s') ∧
    ∀ (t t' : SettingsState) (h : FrameHeader) (pieces : List Bytes), pieces ≠ [] →
      pieces.flatten.length = h.size → t.receiveFrame h pieces = .ok t' →
      t'.initialWindowUpdate - t.initialWindowUpdate =
        (t'.peerSettings .initialWindowSize : Int) - t.peerSettings .initialWindowSize := by
  refine ⟨fun ops => ?_, fun t t' h pieces => SettingsState.receiveFrame_window⟩
  have hstep : ∀ s op, Inv s → ∃ s', s.step op = some s' ∧ Inv s' := by
    intro s op hs
    obtain ⟨s', hs', -, h'⟩ := hs.step op
    exact ⟨s', hs', h'⟩
  obtain ⟨s, hrun, hs⟩ := Run.run_total hstep inv_start ops
  refine ⟨s, hrun, hs.clamps, fun op => ?_⟩
  obtain ⟨s', hs', hagrees, -⟩ := hs.step op
  exact ⟨s', hs', hagrees⟩

/-- A payload that sets the initial window twice, in two pieces. -/
def twoWindows : List Bytes :=
  [(settingEntry .initialWindowSize 70000).take 5,
    (settingEntry .initialWindowSize 70000).drop 5 ++ settingEntry .initialWindowSize 1000]

/-- The initial window is changed, and the frame that says so arrives in three pieces. -/
def changedWindow : List SettingsOp :=
  [.queueSettingUpdate .initialWindowSize 70000, .flushSettings, .deliverSettings [2, 3],
    .flushQueuedBuffers]

theorem run_agrees_twoWindows :
    (∃ s s', Run.run SettingsLink.step {} changedWindow = some s ∧ s.receiver.clamps = 0 ∧
      s.receiver.peerSettings .initialWindowSize = 70000 ∧
      s.sender.ackedSettings .initialWindowSize = 65535 ∧
      s.step (.deliverAck []) = some s' ∧ s.Agrees (.deliverAck []) s' ∧
      s'.sender.ackedSettings .initialWindowSize = 70000) ∧
    ∃ t', ({} : SettingsState).receiveFrame ⟨12, frameSettings, 0, 0⟩ twoWindows = .ok t' ∧
      t'.peerSettings .initialWindowSize = 1000 ∧
      t'.initialWindowUpdate - 0 = (1000 : Int) - 65535 := by
  obtain ⟨s, hrun, hclamps, hstep⟩ := run_agrees.1 changedWindow
  obtain ⟨s', hs', hagrees⟩ := hstep (.deliverAck [])
  have hsettings : ((Run.run SettingsLink.step {} changedWindow).map fun s =>
      (s.receiver.peerSettings .initialWindowSize, s.sender.ackedSettings .initialWindowSize,
        (s.step (.deliverAck [])).map (·.sender.ackedSettings .initialWindowSize))) =
      some (70000, 65535, some 70000) := rfl
  rw [hrun, map_some, hs', map_some] at hsettings
  simp only [some.injEq, Prod.mk.injEq] at hsettings
  obtain ⟨hpeer, hbefore, hacked⟩ := hsettings
  exact ⟨⟨s, s', hrun, hclamps, hpeer, hbefore, hs', hagrees, hacked⟩, _, rfl, rfl,
    run_agrees.2 {} _ ⟨12, frameSettings, 0, 0⟩ twoWindows nofun rfl rfl⟩

end SettingsLink

end GrpcCore
