import TcpQuicProxy.Router.Runtime

/-!
# The peers that run

The router and the manager have a table each. `Slot` is what the two tables have
under one name, and every step of a request changes the slot of the peer that it
is about and no other one. With that, applying a configuration has a closed
form: `applySlot` for the peers of the configuration and `stopSlot` for those
that have left it.

The tables agree as long as no request drains a peer that runs: draining takes
the runtime from the manager and leaves the record with the router, which from
then on takes the peer for one that runs and does not start it again.
-/

namespace TcpQuicProxy.Router

open Platform Config List

/-- What the router and the manager have under a name. -/
abbrev Slot (peerId : Bytes) :=
  Option { peer : PeerConfig // peer.peerId = peerId } × Option PeerRuntime

def RouterRuntime.slot (s : RouterRuntime) (peerId : Bytes) : Slot peerId :=
  (s.running peerId, s.manager peerId)

def stopSlot {peerId : Bytes} (slot : Slot peerId) : Slot peerId :=
  if slot.1.isSome then (none, none) else slot

def canStart (io : Io) (peer : PeerConfig) (runtime : Option PeerRuntime) : Bool :=
  peer.enabled && io.ingressOk && runtime.isNone && (io.startError peer.peerId).isNone

def startSlot (io : Io) (base : ProxyConfig) (peer : PeerConfig) (slot : Slot peer.peerId) :
    Slot peer.peerId :=
  if canStart io peer slot.2 then (some (recordOf peer), some (startRuntime base peer)) else slot

/-- The recorded peer has other listeners, forwards, paths or connections. -/
def changedSlot (peer : PeerConfig) (slot : Slot peer.peerId) : Bool :=
  slot.1.any fun recorded => peerDataPlaneChanged recorded.val peer

def applySlot (io : Io) (base : ProxyConfig) (peer : PeerConfig) (slot : Slot peer.peerId) :
    Slot peer.peerId :=
  let stopped := if !peer.enabled || changedSlot peer slot then stopSlot slot else slot
  if peer.enabled && (slot.1.isNone || changedSlot peer slot) then startSlot io base peer stopped
  else stopped

namespace RouterRuntime

/-! ### One peer -/

section Peer

variable {io : Io} {s : RouterRuntime} {peer : PeerConfig} {peerId other : Bytes}

/-- What no step of an apply touches. -/
def frame (s : RouterRuntime) : ProxyConfig × ProxyConfig × Files :=
  (s.base, s.runtimeConfig, s.files)

theorem stopPeer_frame : (s.stopPeer peerId).frame = s.frame := by
  unfold stopPeer
  split <;> rfl

theorem stopPeer_slot_self : (s.stopPeer peerId).slot peerId = stopSlot (s.slot peerId) := by
  unfold stopPeer
  split
  · rename_i hnone
    simp [slot, stopSlot, hnone]
  · rename_i recorded hsome
    obtain ⟨recorded, rfl⟩ := recorded
    simp [slot, stopSlot, hsome, Manager.drainPeer]

theorem stopPeer_slot_of_ne (hne : other ≠ peerId) :
    (s.stopPeer peerId).slot other = s.slot other := by
  unfold stopPeer
  split
  · rfl
  · rename_i recorded _
    obtain ⟨recorded, rfl⟩ := recorded
    simp [slot, Manager.drainPeer, hne]

theorem startPeer_eq : s.startPeer io peer =
    if canStart io peer (s.manager peer.peerId) then
      { s with
        manager := Function.update s.manager peer.peerId (some (startRuntime s.base peer))
        running := Function.update s.running peer.peerId (some (recordOf peer)) }
    else s := by
  unfold startPeer Manager.startPeer canStart
  cases peer.enabled with
  | false => simp
  | true =>
    cases io.ingressOk with
    | false => simp
    | true =>
      cases s.manager peer.peerId with
      | some runtime => simp
      | none => cases io.startError peer.peerId <;> simp

theorem startPeer_frame : (s.startPeer io peer).frame = s.frame := by
  rw [startPeer_eq]
  split <;> rfl

theorem startPeer_slot_self :
    (s.startPeer io peer).slot peer.peerId = startSlot io s.base peer (s.slot peer.peerId) := by
  cases hstart : canStart io peer (s.manager peer.peerId) with
  | false | true => simp [startPeer_eq, startSlot, slot, hstart]

theorem startPeer_slot_of_ne (hne : other ≠ peer.peerId) :
    (s.startPeer io peer).slot other = s.slot other := by
  rw [startPeer_eq]
  split
  · simp only [slot, Function.update_of_ne hne]
  · rfl

theorem noteMetrics_slot : (s.noteMetrics peerId).slot other = s.slot other := by
  unfold noteMetrics
  split <;> rfl

/-- A peer that is not recorded is not stopped, as there is nothing to stop. -/
theorem applyPeer_eq : s.applyPeer io peer =
    (let stopped := if !peer.enabled ||
      changedSlot peer (s.slot peer.peerId) then s.stopPeer peer.peerId else s
    if peer.enabled && ((s.slot peer.peerId).1.isNone || changedSlot peer (s.slot peer.peerId)) then
      stopped.startPeer io peer
    else stopped).noteMetrics peer.peerId := by
  unfold applyPeer isNewPeer isChangedPeer changedSlot slot
  cases hrunning : s.running peer.peerId with
  | none =>
    have hstop : s.stopPeer peer.peerId = s := by rw [stopPeer, hrunning]
    simp [hstop]
  | some recorded => simp

theorem applyPeer_slot_self :
    (s.applyPeer io peer).slot peer.peerId = applySlot io s.base peer (s.slot peer.peerId) := by
  rw [applyPeer_eq, noteMetrics_slot, applySlot]
  dsimp only
  have hbase : (s.stopPeer peer.peerId).base = s.base := congrArg Prod.fst stopPeer_frame
  split <;> split <;> simp only [startPeer_slot_self, stopPeer_slot_self, hbase]

theorem applyPeer_slot_of_ne (hne : other ≠ peer.peerId) :
    (s.applyPeer io peer).slot other = s.slot other := by
  rw [applyPeer_eq, noteMetrics_slot]
  dsimp only
  split <;> split <;> simp only [startPeer_slot_of_ne hne, stopPeer_slot_of_ne hne]

theorem applyPeer_frame : (s.applyPeer io peer).frame = s.frame := by
  have hnote (t : RouterRuntime) : (t.noteMetrics peer.peerId).frame = t.frame := by
    unfold noteMetrics
    split <;> rfl
  rw [applyPeer_eq, hnote]
  dsimp only
  split <;> split <;> simp only [startPeer_frame, stopPeer_frame]

theorem mem_applyPeer_metrics :
    other ∈ (s.applyPeer io peer).metrics ↔ other ∈ s.metrics ∨ other = peer.peerId := by
  have hnote (t : RouterRuntime) : other ∈ (t.noteMetrics peer.peerId).metrics ↔
      other ∈ t.metrics ∨ other = peer.peerId := by
    unfold noteMetrics
    split
    · rename_i hmem
      exact ⟨.inl, fun h => h.elim id fun heq => heq ▸ contains_iff_mem.mp hmem⟩
    · simp
  have hstop : (s.stopPeer peer.peerId).metrics = s.metrics := by
    unfold stopPeer
    split <;> rfl
  have hstart (t : RouterRuntime) : (t.startPeer io peer).metrics = t.metrics := by
    rw [startPeer_eq]
    split <;> rfl
  rw [applyPeer_eq, hnote]
  dsimp only
  split <;> split <;> simp only [hstart, hstop]

end Peer

/-! ### A whole configuration -/

section Config

variable {io : Io} {s : RouterRuntime} {peers : List PeerConfig} {peerId : Bytes}

theorem foldl_applyPeer_slot_of_not_mem (h : peerId ∉ peers.map PeerConfig.peerId) :
    (peers.foldl (applyPeer io) s).slot peerId = s.slot peerId := by
  induction peers generalizing s with
  | nil => rfl
  | cons peer peers ih =>
    rw [map_cons, mem_cons, not_or] at h
    rw [foldl_cons, ih h.2, applyPeer_slot_of_ne h.1]

variable {peer : PeerConfig}

/-- With different names, each peer finds its slot as it was before. -/
theorem foldl_applyPeer_slot_of_mem (hnodup : (peers.map PeerConfig.peerId).Nodup)
    (hmem : peer ∈ peers) :
    (peers.foldl (applyPeer io) s).slot peer.peerId =
      applySlot io s.base peer (s.slot peer.peerId) := by
  induction peers generalizing s with
  | nil => cases hmem
  | cons first peers ih =>
    obtain ⟨hfirst, hrest⟩ := nodup_cons.mp hnodup
    rw [foldl_cons]
    rcases mem_cons.mp hmem with rfl | hmem
    · rw [foldl_applyPeer_slot_of_not_mem hfirst, applyPeer_slot_self]
    · have hne : peer.peerId ≠ first.peerId := fun heq => hfirst (heq ▸ mem_map_of_mem hmem)
      have hbase : (s.applyPeer io first).base = s.base := congrArg Prod.fst applyPeer_frame
      rw [ih hrest hmem, hbase, applyPeer_slot_of_ne hne]

theorem mem_foldl_applyPeer_metrics :
    peerId ∈ (peers.foldl (applyPeer io) s).metrics ↔
      peerId ∈ s.metrics ∨ peerId ∈ peers.map PeerConfig.peerId := by
  induction peers generalizing s with
  | nil => simp
  | cons peer peers ih => rw [foldl_cons, ih, mem_applyPeer_metrics, map_cons, mem_cons, or_assoc]

theorem stopSlot_stopSlot (slot : Slot peerId) : stopSlot (stopSlot slot) = stopSlot slot := by
  unfold stopSlot
  split <;> simp_all

theorem foldl_stopPeer_slot (ids : List Bytes) :
    (ids.foldl stopPeer s).slot peerId =
      if peerId ∈ ids then stopSlot (s.slot peerId) else s.slot peerId := by
  induction ids generalizing s with
  | nil => rfl
  | cons first ids ih =>
    rw [foldl_cons, ih]
    by_cases hfirst : peerId = first
    · subst hfirst
      simp [stopPeer_slot_self, stopSlot_stopSlot]
    · simp [stopPeer_slot_of_ne hfirst, hfirst]

theorem foldl_frame {α : Type} {change : RouterRuntime → α → RouterRuntime}
    (h : ∀ t a, (change t a).frame = t.frame) (l : List α) :
    (l.foldl change s).frame = s.frame := by
  induction l generalizing s with
  | nil => rfl
  | cons a l ih => rw [foldl_cons, ih, h]

variable {config : RouterConfig}

theorem applyPeers_frame : (s.applyPeers io config).frame = s.frame := by
  have hframe : (s.applyPeers io config).frame =
      ((config.peers.foldl (applyPeer io) s).dropAbsent config).frame := rfl
  rw [hframe, dropAbsent, foldl_frame fun _ _ => stopPeer_frame,
    foldl_frame fun _ _ => applyPeer_frame]

/-- A peer of the configuration is stopped and started as it asks. -/
theorem applyPeers_slot_of_mem (hvalid : validateRouterConfig config = .ok ())
    (hmem : peer ∈ config.peers) :
    (s.applyPeers io config).slot peer.peerId = applySlot io s.base peer (s.slot peer.peerId) := by
  have hpresent : peer.peerId ∈ peerIds config := mem_map_of_mem hmem
  have hslot : (s.applyPeers io config).slot peer.peerId =
      ((config.peers.foldl (applyPeer io) s).dropAbsent config).slot peer.peerId := rfl
  rw [hslot, dropAbsent, foldl_stopPeer_slot, if_neg (by simp [hpresent]),
    foldl_applyPeer_slot_of_mem (nodup_of_validate hvalid) hmem]

/-- A peer that is not in the configuration is stopped if it is known. -/
theorem applyPeers_slot_of_not_mem (habsent : peerId ∉ peerIds config) :
    (s.applyPeers io config).slot peerId =
      if peerId ∈ s.metrics then stopSlot (s.slot peerId) else s.slot peerId := by
  have hslot : (s.applyPeers io config).slot peerId =
      ((config.peers.foldl (applyPeer io) s).dropAbsent config).slot peerId := rfl
  have hknown :
    (peerId ∈ (config.peers.foldl (applyPeer io) s).metrics.filter fun id =>
    !(peerIds config).contains id) ↔
      peerId ∈ s.metrics := by
    rw [mem_filter, mem_foldl_applyPeer_metrics]
    exact ⟨fun h => h.1.resolve_right habsent, fun h => ⟨.inl h, by simpa using habsent⟩⟩
  rw [hslot, dropAbsent, foldl_stopPeer_slot, foldl_applyPeer_slot_of_not_mem habsent]
  simp only [hknown]

theorem writeFile_slot {path : Bytes} {body : FileBody} {writeOk : Bool} :
    (s.writeFile path body writeOk).2.slot peerId = s.slot peerId := by
  unfold writeFile
  split
  · rfl
  · split <;> rfl

theorem persistConfig_slot : (s.persistConfig io).2.slot peerId = s.slot peerId := by
  unfold persistConfig
  split
  · rfl
  · split
    · rename_i err t hwrite
      rw [← congrArg (fun reply : Reply => reply.2.slot peerId) hwrite, writeFile_slot]
    · rename_i t hwrite
      rw [writeFile_slot, ← congrArg (fun reply : Reply => reply.2.slot peerId) hwrite,
        writeFile_slot]

end Config
end RouterRuntime

/-! ### Agreement of the two tables -/

/-- A peer is recorded if and only if there is a runtime for it. -/
def Agrees {peerId : Bytes} (slot : Slot peerId) : Prop := slot.1.isSome = slot.2.isSome

variable {peerId : Bytes} {io : Io}

theorem agrees_stopSlot {slot : Slot peerId} (h : Agrees slot) : Agrees (stopSlot slot) := by
  unfold stopSlot
  split
  · rfl
  · exact h

variable {base : ProxyConfig} {peer : PeerConfig} {slot : Slot peer.peerId}

theorem agrees_applySlot (h : Agrees slot) :
    Agrees (applySlot io base peer slot) := by
  have hstart (t : Slot peer.peerId) (ht : Agrees t) : Agrees (startSlot io base peer t) := by
    unfold startSlot
    split
    · rfl
    · exact ht
  unfold applySlot
  dsimp only
  split <;> split
  · exact hstart _ (agrees_stopSlot h)
  · exact hstart _ h
  · exact agrees_stopSlot h
  · exact h

/-- A peer that is enabled and does not run is started. -/
theorem applySlot_of_not_running
    (henabled : peer.enabled = true) (hrecord : slot.1 = none) (hruntime : slot.2 = none) :
    applySlot io base peer slot =
      if io.ingressOk = true ∧ io.startError peer.peerId = none then
        (some (recordOf peer), some (startRuntime base peer))
      else (none, none) := by
  obtain ⟨record, runtime⟩ := slot
  subst hrecord hruntime
  simp only [applySlot, changedSlot, startSlot, canStart, henabled]
  cases io.ingressOk <;> cases io.startError peer.peerId <;> simp

/-! ### Numbers of connections -/

theorem Manager.setDesired_ok {m m' : Manager} {desired : UInt32} :
    m.setDesiredConnectionCount io peerId desired = .ok m' ↔
      ∃ runtime, m peerId = some runtime ∧ desired ≠ 0 ∧ runtime.config.quicPaths = [] ∧
        runtime.slots ≤ desired.toNat ∧ io.slotPathsError = none ∧
        m' = Function.update m peerId (some (runtime.resize desired.toNat)) := by
  constructor
  · intro h
    unfold setDesiredConnectionCount at h
    split at h
    · cases h
    · rename_i runtime hruntime
      split at h
      · cases h
      · rename_i hzero
        split at h
        · cases h
        · rename_i hpaths
          split at h
          · cases h
          · rename_i hle
            split at h
            · cases h
            · rename_i herror
              exact ⟨runtime, hruntime, hzero, by simpa using hpaths, Nat.not_lt.mp hle, herror,
                (Except.ok.inj h).symm⟩
  · rintro ⟨runtime, hruntime, hzero, hpaths, hle, herror, rfl⟩
    simp [setDesiredConnectionCount, hruntime, hzero, hpaths, Nat.not_lt.mpr hle, herror]

theorem Manager.stopHighest_ok {m m' : Manager} {connectionId : Bytes} :
    m.stopHighestConnection peerId connectionId = .ok m' ↔
      ∃ runtime, m peerId = some runtime ∧ runtime.config.quicPaths = [] ∧ runtime.slots ≠ 0 ∧
        parseConnectionId connectionId = some (runtime.slots - 1) ∧
        m' = Function.update m peerId (some (runtime.resize (runtime.slots - 1))) := by
  constructor
  · intro h
    unfold stopHighestConnection at h
    split at h
    · cases h
    · rename_i runtime hruntime
      split at h
      · cases h
      · rename_i hpaths
        split at h
        · cases h
        · rename_i index hindex
          split at h
          · cases h
          · rename_i hslots
            split at h
            · cases h
            · rename_i hhighest
              refine ⟨runtime, hruntime, by simpa using hpaths, hslots, ?_, (Except.ok.inj h).symm⟩
              rw [hindex, Decidable.not_not.mp hhighest]
  · rintro ⟨runtime, hruntime, hpaths, hslots, hindex, rfl⟩
    simp [stopHighestConnection, hruntime, hpaths, hslots, hindex]

namespace RouterRuntime

variable {io : Io} {s t : RouterRuntime}

theorem setConnections_eq_some {desired : UInt32} (h : s.setConnections peerId desired = some t) :
    ∃ peers, t = { s with
      config := { s.config with peers := peers }
      running := Function.update s.running peerId
        ((s.running peerId).map fun peer =>
          ⟨{ peer.val with quicConnections := desired }, peer.property⟩) } := by
  obtain ⟨peers, -, rfl⟩ := Option.map_eq_some_iff.mp h
  exact ⟨peers, rfl⟩

/-- The tables agree under every name. -/
def TablesAgree (s : RouterRuntime) : Prop := ∀ peerId, Agrees (s.slot peerId)

section

variable (h : s.TablesAgree)
include h

theorem tablesAgree_applyConfig {config : RouterConfig} :
    (s.applyConfig io config).2.TablesAgree := by
  unfold applyConfig
  split
  · exact h
  · rename_i hvalid
    intro peerId
    rw [persistConfig_slot]
    by_cases hpresent : peerId ∈ peerIds config
    · obtain ⟨peer, hmem, rfl⟩ := mem_map.mp hpresent
      rw [applyPeers_slot_of_mem hvalid hmem]
      exact agrees_applySlot (h peer.peerId)
    · rw [applyPeers_slot_of_not_mem hpresent]
      split
      · exact agrees_stopSlot (h peerId)
      · exact h peerId

/-- A runtime that takes the place of another one, and the record of it, change
nothing about whether there are any. -/
theorem tablesAgree_recordConnections {manager : Manager} {desired : UInt32} {old new : PeerRuntime}
    (hold : s.manager peerId = some old)
    (hmanager : manager = Function.update s.manager peerId (some new)) :
    (({ s with manager := manager } : RouterRuntime).recordConnections io peerId
      desired).2.TablesAgree := by
  have hruntime (id : Bytes) : (manager id).isSome = (s.manager id).isSome := by
    rw [hmanager]
    by_cases hid : id = peerId
    · subst hid
      simp [hold]
    · rw [Function.update_of_ne hid]
  unfold recordConnections
  intro id
  split
  · exact (h id).trans (hruntime id).symm
  · rename_i t ht
    obtain ⟨peers, rfl⟩ := setConnections_eq_some ht
    rw [persistConfig_slot]
    refine Eq.trans ?_ ((h id).trans (hruntime id).symm)
    by_cases hid : id = peerId
    · subst hid
      simp [slot]
    · simp [slot, hid]

theorem tablesAgree_addConnection : (s.addConnection io peerId).2.TablesAgree := by
  unfold addConnection
  split
  · exact h
  · dsimp only
    split
    · exact h
    · split
      · exact h
      · rename_i manager hmanager
        obtain ⟨runtime, hruntime, -, -, -, -, hupdate⟩ := Manager.setDesired_ok.mp hmanager
        exact tablesAgree_recordConnections h hruntime hupdate

theorem tablesAgree_deleteConnection {connectionId : Bytes} :
    (s.deleteConnection io peerId connectionId).2.TablesAgree := by
  unfold deleteConnection
  split
  · exact h
  · dsimp only
    split
    · exact h
    · split
      · exact h
      · rename_i manager hmanager
        obtain ⟨runtime, hruntime, -, -, -, hupdate⟩ := Manager.stopHighest_ok.mp hmanager
        exact tablesAgree_recordConnections h hruntime hupdate

end

/-- The request drains no peer that the manager has a runtime for. -/
def DrainsNothing (s : RouterRuntime) : Io × Request → Prop
  | (_, .drain peerId) => (s.manager peerId).isNone = true
  | _ => True

instance (s : RouterRuntime) : (action : Io × Request) → Decidable (s.DrainsNothing action)
  | (_, .drain peerId) => inferInstanceAs (Decidable ((s.manager peerId).isNone = true))
  | (_, .edit _) => .isTrue trivial
  | (_, .abortTunnels _) => .isTrue trivial
  | (_, .addConnection _) => .isTrue trivial
  | (_, .deleteConnection _ _) => .isTrue trivial

theorem tablesAgree_step {action : Io × Request} (h : s.TablesAgree)
    (hdrains : s.DrainsNothing action) (hstep : s.step action = some t) : t.TablesAgree := by
  obtain ⟨io, request⟩ := action
  cases hstep
  cases request with
  | edit e =>
    simp only [handle]
    split
    · exact h
    · exact tablesAgree_applyConfig h
  | drain peerId =>
    have hnone : s.manager peerId = none := Option.isNone_iff_eq_none.mp hdrains
    have hsame : s.manager.drainPeer peerId = s.manager := by
      rw [Manager.drainPeer, ← hnone, Function.update_eq_self]
    simp only [handle, withPeer, hsame]
    split
    · exact h
    · exact h
  | abortTunnels peerId =>
    simp only [handle, withPeer]
    split
    · exact h
    · exact h
  | addConnection peerId => exact tablesAgree_addConnection h
  | deleteConnection peerId connectionId => exact tablesAgree_deleteConnection h

/-- In every run in which no request drains a peer that runs, and in every state
of it: a peer is recorded as running if and only if the manager has a runtime
for it, and whenever a configuration is applied that has an enabled peer without
one, the peer runs afterwards if and only if its start does not fail. -/
theorem running_iff_runtime {cfg : ProxyConfig} {files : Files} {actions : List (Io × Request)}
    (hdrains : Machine.Meets step DrainsNothing (new cfg files) actions)
    (hrun : Machine.run step (new cfg files) actions = some s) :
    (∀ peerId, (s.running peerId).isSome ↔ (s.manager peerId).isSome) ∧
    ∀ io config peer, validateRouterConfig config = .ok () → peer ∈ config.peers →
      peer.enabled = true →
      s.manager peer.peerId = none →
      ((s.applyConfig io config).2.slot peer.peerId =
        if io.ingressOk = true ∧ io.startError peer.peerId = none then
          (some (recordOf peer), some (startRuntime s.base peer))
        else (none, none)) := by
  have hnew : (new cfg files).TablesAgree := fun _ => rfl
  have hagree : s.TablesAgree :=
    Machine.invariant_of_meets (fun _ _ _ h hcond hstep => tablesAgree_step h hcond hstep)
      hnew hdrains hrun
  refine ⟨fun peerId => Bool.eq_iff_iff.mp (hagree peerId),
    fun io config peer hvalid hmem henabled hnone => ?_⟩
  have hrecord : s.running peer.peerId = none := by
    have heq : (s.running peer.peerId).isSome = (s.manager peer.peerId).isSome := hagree peer.peerId
    rw [hnone] at heq
    exact Option.not_isSome_iff_eq_none.mp (by simp [heq])
  simp only [applyConfig, hvalid]
  rw [persistConfig_slot, applyPeers_slot_of_mem hvalid hmem,
    applySlot_of_not_running henabled hrecord hnone]

/-- A client with one peer. -/
def westPeer : PeerConfig :=
  { peerId := ascii "west", quicPeer := ascii "10.0.0.1:443",
    socksListen := ascii "127.0.0.1:1080" }

def idleClient : ProxyConfig := { mode := .client }

theorem running_iff_runtime_after_create :
    ∃ s : RouterRuntime,
      Machine.run step (new idleClient fun _ => none) [({}, .edit (.create westPeer))] = some s ∧
      (s.running (ascii "west")).isSome = true ∧ (s.manager (ascii "west")).isSome = true := by
  refine Machine.run_observed (f := fun s => (s.running (ascii "west")).isSome)
    (o := true) (by decide +kernel) fun s hs hrunning => ?_
  have hdrains : Machine.Meets step DrainsNothing (new idleClient fun _ => none)
      [({}, .edit (.create westPeer))] := by
    decide +kernel
  exact ⟨hrunning, ((running_iff_runtime hdrains hs).1 (ascii "west")).mp hrunning⟩

/-- A peer that is drained stays recorded without a runtime, and neither a
configuration that contains it nor enabling it starts it again. -/
theorem drained_peer_stays_recorded :
    ∃ s t : RouterRuntime,
      Machine.run step (new idleClient fun _ => none)
        [({}, .edit (.create westPeer)), ({}, .drain (ascii "west"))] = some s ∧
      (s.running (ascii "west")).isSome = true ∧ (s.manager (ascii "west")).isSome = false ∧
      Machine.run step s [({}, .edit (.replaceConfig { peers := [westPeer] })),
        ({}, .edit (.enable (ascii "west")))] = some t ∧
      (t.running (ascii "west")).isSome = true ∧ (t.manager (ascii "west")).isSome = false := by
  have hrun : (Machine.run step (new idleClient fun _ => none)
      [({}, .edit (.create westPeer)), ({}, .drain (ascii "west"))]).map (fun s =>
        ((s.running (ascii "west")).isSome, (s.manager (ascii "west")).isSome,
          (Machine.run step s [({}, .edit (.replaceConfig { peers := [westPeer] })),
            ({}, .edit (.enable (ascii "west")))]).map (fun t =>
              ((t.running (ascii "west")).isSome, (t.manager (ascii "west")).isSome)))) =
      some (true, false, some (true, false)) := by decide +kernel
  obtain ⟨s, hs, hsummary⟩ := Option.map_eq_some_iff.mp hrun
  simp only [Prod.mk.injEq] at hsummary
  obtain ⟨hrecord, hruntime, hlater⟩ := hsummary
  obtain ⟨t, ht, hsummary⟩ := Option.map_eq_some_iff.mp hlater
  simp only [Prod.mk.injEq] at hsummary
  exact ⟨s, t, hs, hrecord, hruntime, ht, hsummary.1, hsummary.2⟩

end RouterRuntime
end TcpQuicProxy.Router
