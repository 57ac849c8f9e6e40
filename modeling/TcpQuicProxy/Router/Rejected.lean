import TcpQuicProxy.Router.Running

/-!
# Requests that are answered with failure

A request can fail before it has touched anything, and then nothing has changed.
The one other way to fail is the last step, the writing of the files: by then the
peers have been stopped and started, the configuration has been replaced and the
first of the two files may have been written, and nothing of that is undone.

`AnswersTruly` says which requests are free of that: those that are refused
early, those whose writes succeed, and those that find everything as they ask
for it.
-/

namespace TcpQuicProxy.Router.RouterRuntime

open Platform Config

variable {io : Io} {s : RouterRuntime} {config : RouterConfig} {peerId : Bytes}

/-- The configuration, the recorded peers, the runtimes with their connections
and the files are the same. -/
structure Same (s t : RouterRuntime) : Prop where
  config : t.config = s.config
  running : t.running = s.running
  manager : t.manager = s.manager
  files : t.files = s.files

theorem Same.refl (s : RouterRuntime) : Same s s := ⟨rfl, rfl, rfl, rfl⟩

/-! ### The files -/

/-- Every file that a request has to write can be written. -/
def WritesOk (io : Io) (s : RouterRuntime) : Prop :=
  s.runtimeConfig.mode ≠ .client ∨
    (s.runtimeConfig.configPath.isEmpty = true ∨ io.writeConfigOk = true) ∧
      (s.runtimeConfig.clientConfigPath.isEmpty = true ∨ io.writeClientConfigOk = true)

/-- What a write of the files leaves when it fails: the first file is there if
its own write did not. -/
def filesOfFailure (io : Io) (s : RouterRuntime) (config : RouterConfig) : Files :=
  let path := s.runtimeConfig.configPath
  if path.isEmpty || !io.writeConfigOk then s.files
  else Function.update s.files path (some (configWithPeers s.runtimeConfig config (s.files path)))

theorem writeFile_eq (path : Bytes) (body : FileBody) (writeOk : Bool) :
    s.writeFile path body writeOk =
      (if path.isEmpty || writeOk then .ok () else .error writeError,
        if path.isEmpty || !writeOk then s
        else { s with files := Function.update s.files path (some body) }) := by
  unfold writeFile
  cases path.isEmpty <;> cases writeOk <;> rfl

theorem persistConfig_ok (h : s.WritesOk io) : (s.persistConfig io).1 = .ok () := by
  unfold persistConfig
  rcases h with hmode | ⟨hconfig, hclient⟩
  · rw [if_pos hmode]
  · split
    · rfl
    · have hfirst : (s.runtimeConfig.configPath.isEmpty || io.writeConfigOk) = true := by
        simpa using hconfig
      have hsecond : (s.runtimeConfig.clientConfigPath.isEmpty || io.writeClientConfigOk) =
          true := by simpa using hclient
      rw [writeFile_eq, if_pos hfirst]
      split
      · rename_i heq
        cases heq
      · rename_i t heq
        obtain ⟨-, rfl⟩ := Prod.mk.inj heq
        rw [writeFile_eq]
        dsimp only
        rw [if_pos]
        split
        · exact hsecond
        · exact hsecond

theorem persistConfig_failed (h : ¬ s.WritesOk io) :
    (s.persistConfig io).1 = .error writeError ∧
      (s.persistConfig io).2 = { s with files := s.filesOfFailure io s.config } := by
  have hmode : s.runtimeConfig.mode = .client := Decidable.by_contra fun hne => h (.inl hne)
  unfold persistConfig filesOfFailure
  rw [if_neg (fun hne => hne hmode), writeFile_eq]
  cases hfirst : (s.runtimeConfig.configPath.isEmpty || io.writeConfigOk) with
  | false =>
    have hempty : s.runtimeConfig.configPath.isEmpty = false := (Bool.or_eq_false_iff.mp hfirst).1
    have hwrite : io.writeConfigOk = false := (Bool.or_eq_false_iff.mp hfirst).2
    simp [hempty, hwrite]
  | true =>
    have hsecond :
        s.runtimeConfig.clientConfigPath.isEmpty = false ∧ io.writeClientConfigOk = false := by
      rw [← Bool.or_eq_false_iff]
      refine Bool.eq_false_iff.mpr fun hsecond => h (.inr ⟨?_, ?_⟩)
      · simpa using hfirst
      · simpa using hsecond
    simp only [if_true]
    rw [writeFile_eq]
    split <;> simp [hsecond.1, hsecond.2]

theorem persistConfig_error_iff :
    (∃ err, (s.persistConfig io).1 = .error err) ↔ ¬ s.WritesOk io := by
  constructor
  · rintro ⟨err, herr⟩ hok
    rw [persistConfig_ok hok] at herr
    cases herr
  · intro h
    exact ⟨_, (persistConfig_failed h).1⟩

/-! ### Applies that change nothing -/

/-- A recorded peer is asked for as it is; one that is not recorded is not
enabled or cannot be started. -/
def QuietSlot (io : Io) (peer : PeerConfig) (slot : Slot peer.peerId) : Prop :=
  (∀ recorded, slot.1 = some recorded →
    peer.enabled = true ∧ peerDataPlaneChanged recorded.val peer = false) ∧
    (slot.1 = none → canStart io peer slot.2 = false)

theorem peerDataPlaneChanged_self (peer : PeerConfig) : peerDataPlaneChanged peer peer = false := by
  simp [peerDataPlaneChanged]

variable {peer : PeerConfig} {runtime : PeerRuntime} {connectionId : Bytes}

theorem applySlot_eq_self_iff {base : ProxyConfig} {slot : Slot peer.peerId} :
    applySlot io base peer slot = slot ↔ QuietSlot io peer slot := by
  obtain ⟨record, runtime⟩ := slot
  cases record with
  | none =>
    simp only [applySlot, changedSlot, stopSlot, startSlot, QuietSlot]
    cases hstart : canStart io peer runtime with
    | false => simp [hstart]
    | true =>
      have henabled : peer.enabled = true := by
        simp only [canStart, Bool.and_eq_true] at hstart
        exact hstart.1.1.1
      simp [henabled, hstart]
  | some recorded =>
    cases henabled : peer.enabled with
    | false => simp [applySlot, stopSlot, QuietSlot, henabled]
    | true =>
      cases hchanged : peerDataPlaneChanged recorded.val peer with
      | false => simp [applySlot, changedSlot, QuietSlot, henabled, hchanged]
      | true =>
        have happly : applySlot io base peer (some recorded, runtime) =
            if canStart io peer none then (some (recordOf peer), some (startRuntime base peer))
            else (none, none) := by
          simp [applySlot, changedSlot, stopSlot, startSlot, henabled, hchanged]
        constructor
        · -- the peer that is started is another one than the recorded one
          intro h
          rw [happly] at h
          split at h
          · have heq : recordOf peer = recorded := Option.some.inj (Prod.mk.inj h).1
            rw [← heq, recordOf, peerDataPlaneChanged_self] at hchanged
            cases hchanged
          · cases (Prod.mk.inj h).1
        · intro h
          rw [(h.1 recorded rfl).2] at hchanged
          cases hchanged

theorem stopSlot_eq_self_iff {slot : Slot peerId} : stopSlot slot = slot ↔ slot.1 = none := by
  obtain ⟨record, runtime⟩ := slot
  cases record <;> simp [stopSlot]

/-- The configuration is the one that the router has, each of its peers is as it
is asked for, and no other peer is recorded. -/
structure Settled (io : Io) (s : RouterRuntime) (config : RouterConfig) : Prop where
  unchanged : config = s.config
  peers : ∀ peer ∈ config.peers, QuietSlot io peer (s.slot peer.peerId)
  others : ∀ peerId ∈ s.metrics, peerId ∉ peerIds config → s.running peerId = none

theorem slots_eq_iff {t : RouterRuntime} :
    (∀ peerId, t.slot peerId = s.slot peerId) ↔ t.running = s.running ∧ t.manager = s.manager := by
  constructor
  · intro h
    exact ⟨funext fun id => congrArg Prod.fst (h id), funext fun id => congrArg Prod.snd (h id)⟩
  · rintro ⟨hrunning, hmanager⟩ id
    rw [slot, hrunning, hmanager, slot]

theorem applyPeers_slots_iff (hvalid : validateRouterConfig config = .ok ()) :
    (∀ peerId, (s.applyPeers io config).slot peerId = s.slot peerId) ↔
      (∀ peer ∈ config.peers, QuietSlot io peer (s.slot peer.peerId)) ∧
        ∀ peerId ∈ s.metrics, peerId ∉ peerIds config → s.running peerId = none := by
  constructor
  · intro h
    refine ⟨fun peer hmem => ?_, fun id hknown habsent => ?_⟩
    · have hslot := h peer.peerId
      rwa [applyPeers_slot_of_mem hvalid hmem, applySlot_eq_self_iff] at hslot
    · have hslot := h id
      rwa [applyPeers_slot_of_not_mem habsent, if_pos hknown, stopSlot_eq_self_iff] at hslot
  · rintro ⟨hpeers, hothers⟩ id
    by_cases hpresent : id ∈ peerIds config
    · obtain ⟨peer, hmem, rfl⟩ := List.mem_map.mp hpresent
      rw [applyPeers_slot_of_mem hvalid hmem, applySlot_eq_self_iff]
      exact hpeers peer hmem
    · rw [applyPeers_slot_of_not_mem hpresent]
      split
      · rename_i hknown
        rw [stopSlot_eq_self_iff]
        exact hothers id hknown hpresent
      · rfl

/-- A failed write leaves the files as they were if the first file has not been
written or was written as it is. -/
def FilesKept (io : Io) (s : RouterRuntime) (config : RouterConfig) : Prop :=
  let path := s.runtimeConfig.configPath
  path.isEmpty = true ∨ io.writeConfigOk = false ∨
    s.files path = some (configWithPeers s.runtimeConfig config (s.files path))

theorem filesOfFailure_eq_iff : s.filesOfFailure io config = s.files ↔ s.FilesKept io config := by
  unfold filesOfFailure FilesKept
  dsimp only
  cases hempty : s.runtimeConfig.configPath.isEmpty with
  | true => simp
  | false =>
    cases hwrite : io.writeConfigOk with
    | false => simp
    | true => simp [eq_comm]

/-- An apply that is answered with failure leaves everything the same if and
only if the configuration is invalid, no write fails, or there was nothing to do. -/
theorem applyConfig_same_iff :
    ((∃ err, (s.applyConfig io config).1 = .error err) → Same s (s.applyConfig io config).2) ↔
      (validateRouterConfig config = .ok () →
        s.WritesOk io ∨ s.Settled io config ∧ s.FilesKept io config) := by
  cases hvalid : validateRouterConfig config with
  | error err =>
    simp only [applyConfig, hvalid]
    exact ⟨fun _ h => (by cases h), fun _ _ => Same.refl s⟩
  | ok u =>
    have hframe : (s.applyPeers io config).frame = s.frame := applyPeers_frame
    have hruntime : (s.applyPeers io config).runtimeConfig = s.runtimeConfig :=
      congrArg (·.2.1) hframe
    have hfiles : (s.applyPeers io config).files = s.files := congrArg (·.2.2) hframe
    have hwrites : (s.applyPeers io config).WritesOk io ↔ s.WritesOk io := by
      rw [WritesOk, hruntime, WritesOk]
    have hfailure :
        (s.applyPeers io config).filesOfFailure io config = s.filesOfFailure io config := by
      rw [filesOfFailure, hruntime, hfiles, filesOfFailure]
    simp only [applyConfig, hvalid, persistConfig_error_iff, hwrites, forall_const]
    by_cases hok : s.WritesOk io
    · simp [hok]
    · have hleft := (persistConfig_failed (fun h => hok (hwrites.mp h))).2
      rw [hleft]
      constructor
      · intro h
        obtain ⟨hconfig, hrunning, hmanager, hsame⟩ := h hok
        have hquiet := (applyPeers_slots_iff hvalid).mp (slots_eq_iff.mpr ⟨hrunning, hmanager⟩)
        refine .inr ⟨⟨hconfig, hquiet.1, hquiet.2⟩, ?_⟩
        rw [← filesOfFailure_eq_iff, ← hfailure]
        exact hsame
      · rintro (h | ⟨hsettled, hkept⟩) _
        · exact absurd h hok
        · have htables :=
            slots_eq_iff.mp ((applyPeers_slots_iff hvalid).mpr ⟨hsettled.peers, hsettled.others⟩)
          refine ⟨hsettled.unchanged, htables.1, htables.2, ?_⟩
          exact hfailure.trans (filesOfFailure_eq_iff.mpr hkept)

/-! ### Connections -/

theorem updatePeer_of_find {peers : List PeerConfig} (change : PeerConfig → PeerConfig)
    (h : peers.find? (fun p => p.peerId = peerId) = some peer) :
    ∃ peers', updatePeer peerId change peers = some peers' := by
  induction peers with
  | nil => cases h
  | cons first peers ih =>
    rw [updatePeer]
    split
    · exact ⟨_, rfl⟩
    · rename_i hne
      rw [List.find?_cons_of_neg (by simpa using hne)] at h
      obtain ⟨peers', hpeers'⟩ := ih h
      exact ⟨first :: peers', by rw [hpeers']; rfl⟩

theorem persistConfig_manager (t : RouterRuntime) : (t.persistConfig io).2.manager = t.manager :=
  funext fun _ => congrArg Prod.snd persistConfig_slot

/-- The router with another runtime for a peer. -/
def withRuntime (s : RouterRuntime) (peerId : Bytes) (runtime : PeerRuntime) : RouterRuntime :=
  { s with manager := Function.update s.manager peerId (some runtime) }

/-- Once the manager has changed something, a failure leaves it changed. -/
theorem recordConnections_same_iff {old new : PeerRuntime} {desired : UInt32}
    (hfind : findPeerConfig s.config peerId = some peer) (hold : s.manager peerId = some old)
    (hslots : new.slots ≠ old.slots) :
    ((∃ err, ((s.withRuntime peerId new).recordConnections io peerId desired).1 = .error err) →
      Same s ((s.withRuntime peerId new).recordConnections io peerId desired).2) ↔
        s.WritesOk io := by
  obtain ⟨peers, hpeers⟩ :=
    updatePeer_of_find (fun p => { p with quicConnections := desired }) hfind
  have hsome : ((s.withRuntime peerId new).setConnections peerId desired).isSome = true := by
    simp [setConnections, withRuntime, hpeers]
  obtain ⟨t, ht⟩ := Option.isSome_iff_exists.mp hsome
  obtain ⟨hmanager, hruntime⟩ :
      t.manager peerId = some new ∧ t.runtimeConfig = s.runtimeConfig := by
    obtain ⟨peers, rfl⟩ := setConnections_eq_some ht
    exact ⟨Function.update_self .., rfl⟩
  have hwrites : t.WritesOk io ↔ s.WritesOk io := by rw [WritesOk, hruntime, WritesOk]
  simp only [recordConnections, ht, persistConfig_error_iff, hwrites]
  by_cases hok : s.WritesOk io
  · exact ⟨fun _ => hok, fun _ h => absurd hok h⟩
  · refine ⟨fun h => ?_, fun h => absurd h hok⟩
    have hkept := congrFun (h hok).manager peerId
    rw [persistConfig_manager, hmanager, hold] at hkept
    exact absurd (congrArg PeerRuntime.slots (Option.some.inj hkept)) hslots

/-- The checks that a request for another connection has to pass. -/
structure AddAccepted (io : Io) (s : RouterRuntime) (peerId : Bytes) (peer : PeerConfig)
    (runtime : PeerRuntime) : Prop where
  configured : findPeerConfig s.config peerId = some peer
  range : s.currentConnections peer < kMaxQuicConnections
  held : s.manager peerId = some runtime
  noPaths : runtime.config.quicPaths = []
  grows : runtime.slots ≤ (s.currentConnections peer + 1).toNat
  slotPaths : io.slotPathsError = none

/-- The checks that a request to remove a connection has to pass. -/
structure DeleteAccepted (s : RouterRuntime) (peerId connectionId : Bytes) (peer : PeerConfig)
    (runtime : PeerRuntime) :
    Prop where
  configured : findPeerConfig s.config peerId = some peer
  notLast : 1 < s.currentConnections peer
  held : s.manager peerId = some runtime
  noPaths : runtime.config.quicPaths = []
  running : runtime.slots ≠ 0
  highest : Manager.parseConnectionId connectionId = some (runtime.slots - 1)

theorem findPeerConfig_peerId (h : findPeerConfig config peerId = some peer) :
    peer.peerId = peerId := by
  simpa using List.find?_some h

/-- The manager never has as many slots as a request for another connection asks for. -/
theorem AddAccepted.slots_ne (h : AddAccepted io s peerId peer runtime) :
    (s.currentConnections peer + 1).toNat ≠ runtime.slots := by
  have hlive : s.manager.liveConnections peer.peerId = runtime.slots := by
    rw [findPeerConfig_peerId h.configured, Manager.liveConnections, h.held]
    rfl
  have hrange : (s.currentConnections peer).toNat < 128 := by
    have hlt := UInt32.lt_iff_toNat_lt.mp h.range
    simpa [kMaxQuicConnections] using hlt
  have hsucc : (s.currentConnections peer + 1).toNat = (s.currentConnections peer).toNat + 1 := by
    rw [UInt32.toNat_add]
    have hone : (1 : UInt32).toNat = 1 := rfl
    rw [hone]
    omega
  rw [hsucc]
  intro heq
  have hcurrent : s.currentConnections peer = UInt32.ofNat runtime.slots := by
    have hne : runtime.slots ≠ 0 := by omega
    simp [currentConnections, hlive, hne]
  rw [hcurrent, UInt32.toNat_ofNat'] at heq hrange
  omega

theorem addConnection_accepted (h : AddAccepted io s peerId peer runtime) :
    s.addConnection io peerId =
      (s.withRuntime peerId
        (runtime.resize (s.currentConnections peer + 1).toNat)).recordConnections io peerId
          (s.currentConnections peer + 1) := by
  have hnonzero : s.currentConnections peer + 1 ≠ 0 := by
    have hlt := UInt32.lt_iff_toNat_lt.mp h.range
    have hmax : kMaxQuicConnections.toNat = 128 := rfl
    intro hzero
    have hnat := congrArg UInt32.toNat hzero
    rw [UInt32.toNat_add] at hnat
    have hone : (1 : UInt32).toNat = 1 := rfl
    have hzeroNat : (0 : UInt32).toNat = 0 := rfl
    omega
  have hset :=
    Manager.setDesired_ok.mpr ⟨runtime, h.held, hnonzero, h.noPaths, h.grows, h.slotPaths, rfl⟩
  simp only [addConnection, h.configured, UInt32.not_le.mpr h.range, if_false, hset, withRuntime]

theorem addConnection_refused (h : ∀ peer runtime, ¬ AddAccepted io s peerId peer runtime) :
    (s.addConnection io peerId).2 = s := by
  unfold addConnection
  split
  · rfl
  · rename_i peer hpeer
    dsimp only
    split
    · rfl
    · rename_i hrange
      split
      · rfl
      · rename_i manager hmanager
        obtain ⟨runtime, hruntime, -, hpaths, hgrows, herror, -⟩ :=
          Manager.setDesired_ok.mp hmanager
        exact absurd ⟨hpeer, UInt32.not_le.mp hrange, hruntime, hpaths, hgrows, herror⟩
          (h peer runtime)

theorem addConnection_same_iff :
    ((∃ err, (s.addConnection io peerId).1 = .error err) → Same s (s.addConnection io peerId).2) ↔
      ∀ peer runtime, AddAccepted io s peerId peer runtime → s.WritesOk io := by
  by_cases haccepted : ∃ peer runtime, AddAccepted io s peerId peer runtime
  · obtain ⟨peer, runtime, h⟩ := haccepted
    rw [addConnection_accepted h, recordConnections_same_iff h.configured h.held h.slots_ne]
    exact ⟨fun hok _ _ _ => hok, fun hok => hok peer runtime h⟩
  · have hnone (peer : PeerConfig) (runtime : PeerRuntime) :
        ¬ AddAccepted io s peerId peer runtime :=
      fun h => haccepted ⟨peer, runtime, h⟩
    rw [addConnection_refused hnone]
    exact ⟨fun _ peer runtime h => absurd h (hnone peer runtime), fun _ _ => Same.refl s⟩

theorem deleteConnection_accepted (h : DeleteAccepted s peerId connectionId peer runtime) :
    s.deleteConnection io peerId connectionId =
      (s.withRuntime peerId (runtime.resize (runtime.slots - 1))).recordConnections io peerId
        (s.currentConnections peer - 1) := by
  have hstop := Manager.stopHighest_ok.mpr ⟨runtime, h.held, h.noPaths, h.running, h.highest, rfl⟩
  simp only [deleteConnection, h.configured, UInt32.not_le.mpr h.notLast, if_false, hstop,
    withRuntime]

theorem deleteConnection_refused
    (h : ∀ peer runtime, ¬ DeleteAccepted s peerId connectionId peer runtime) :
    (s.deleteConnection io peerId connectionId).2 = s := by
  unfold deleteConnection
  split
  · rfl
  · rename_i peer hpeer
    dsimp only
    split
    · rfl
    · rename_i hlast
      split
      · rfl
      · rename_i manager hmanager
        obtain ⟨runtime, hruntime, hpaths, hslots, hindex, -⟩ := Manager.stopHighest_ok.mp hmanager
        exact absurd ⟨hpeer, UInt32.not_le.mp hlast, hruntime, hpaths, hslots, hindex⟩
          (h peer runtime)

theorem deleteConnection_same_iff :
    ((∃ err, (s.deleteConnection io peerId connectionId).1 = .error err) →
      Same s (s.deleteConnection io peerId connectionId).2) ↔
      ∀ peer runtime, DeleteAccepted s peerId connectionId peer runtime → s.WritesOk io := by
  by_cases haccepted : ∃ peer runtime, DeleteAccepted s peerId connectionId peer runtime
  · obtain ⟨peer, runtime, h⟩ := haccepted
    have hslots : (runtime.resize (runtime.slots - 1)).slots ≠ runtime.slots := by
      have hpositive := h.running
      show runtime.slots - 1 ≠ runtime.slots
      omega
    rw [deleteConnection_accepted h, recordConnections_same_iff h.configured h.held hslots]
    exact ⟨fun hok _ _ _ => hok, fun hok => hok peer runtime h⟩
  · have hnone (peer : PeerConfig) (runtime : PeerRuntime) :
        ¬ DeleteAccepted s peerId connectionId peer runtime :=
      fun h => haccepted ⟨peer, runtime, h⟩
    rw [deleteConnection_refused hnone]
    exact ⟨fun _ peer runtime h => absurd h (hnone peer runtime), fun _ _ => Same.refl s⟩

/-! ### Every request -/

/-- The request is refused by one of its checks, none of its writes fails, or it
asks for a configuration that is there already and whose files it leaves alone. -/
def AnswersTruly (io : Io) (s : RouterRuntime) : Request → Prop
  | .edit e => ∀ config, e.result s.config = .ok config → validateRouterConfig config = .ok () →
      s.WritesOk io ∨ s.Settled io config ∧ s.FilesKept io config
  | .drain _ => True
  | .abortTunnels _ => True
  | .addConnection peerId => ∀ peer runtime, AddAccepted io s peerId peer runtime → s.WritesOk io
  | .deleteConnection peerId connectionId =>
      ∀ peer runtime, DeleteAccepted s peerId connectionId peer runtime → s.WritesOk io

theorem withPeer_same {change : RouterRuntime → RouterRuntime} :
    (∃ err, (s.withPeer peerId change).1 = .error err) → Same s (s.withPeer peerId change).2 := by
  unfold withPeer
  split
  · rintro ⟨err, herr⟩
    cases herr
  · exact fun _ => Same.refl s

/-- A request that is answered with failure changes nothing if and only if it is
one of those that answer truly. -/
theorem rejected_changes_nothing_iff (io : Io) (s : RouterRuntime) (request : Request) :
    ((∃ err, (s.handle io request).1 = .error err) → Same s (s.handle io request).2) ↔
      s.AnswersTruly io request := by
  cases request with
  | edit e =>
    simp only [handle, AnswersTruly]
    cases hresult : e.result s.config with
    | error err => exact ⟨fun _ _ h => (by cases h), fun _ _ => Same.refl s⟩
    | ok config =>
      dsimp only
      rw [applyConfig_same_iff]
      constructor
      · rintro h config' hconfig'
        cases hconfig'
        exact h
      · exact fun h => h config rfl
  | drain peerId | abortTunnels peerId => exact ⟨fun _ => trivial, fun _ => withPeer_same⟩
  | addConnection peerId => exact addConnection_same_iff
  | deleteConnection peerId connectionId => exact deleteConnection_same_iff

/-- A client that keeps its peers in a file. -/
def filedClient : ProxyConfig := { mode := .client, clientConfigPath := ascii "peers" }

/-- A peer is created and its file cannot be written: the answer is a failure,
and the peer is in the configuration and runs. -/
theorem rejected_create_leaves_peer_running :
    ∃ s : RouterRuntime, ∃ io : Io,
      (∃ err, (s.handle io (.edit (.create westPeer))).1 = .error err) ∧
      (s.handle io (.edit (.create westPeer))).2.config ≠ s.config ∧
      ((s.handle io (.edit (.create westPeer))).2.running (ascii "west")).isSome = true ∧
      (s.running (ascii "west")).isSome = false ∧
      ¬ Same s (s.handle io (.edit (.create westPeer))).2 := by
  have hanswer : (((new filedClient fun _ => none).handle { writeClientConfigOk := false }
        (.edit (.create westPeer))).1.isOk,
      ((new filedClient fun _ => none).handle { writeClientConfigOk := false }
        (.edit (.create westPeer))).2.config,
      (((new filedClient fun _ => none).handle { writeClientConfigOk := false }
        (.edit (.create westPeer))).2.running
        (ascii "west")).isSome) = (false, ({ peers := [westPeer] } : RouterConfig), true) := by
          decide +kernel
  simp only [Prod.mk.injEq] at hanswer
  obtain ⟨hfailed, hconfig, hrunning⟩ := hanswer
  have hchanged : ((new filedClient fun _ => none).handle { writeClientConfigOk := false }
      (.edit (.create westPeer))).2.config ≠ (new filedClient fun _ => none).config := by
    rw [hconfig]
    decide
  refine ⟨new filedClient fun _ => none, { writeClientConfigOk := false }, ?_, hchanged,
    hrunning, rfl,
    fun hsame => hchanged hsame.config⟩
  cases hreply :
    ((new filedClient fun _ => none).handle { writeClientConfigOk := false }
      (.edit (.create westPeer))).1 with
  | error err => exact ⟨err, rfl⟩
  | ok u =>
    rw [hreply] at hfailed
    cases hfailed

end TcpQuicProxy.Router.RouterRuntime
