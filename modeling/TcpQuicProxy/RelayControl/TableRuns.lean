import TcpQuicProxy.RelayControl.Tables

/-!
# Whole histories of the relay tables

Every operation on the tables is described once, by what it does to the two
tables, to the relay objects and to the closing marks; `Tables.Sound` follows
from these descriptions. The machine `World` runs registrations, removals,
purges, terminal handoffs and epoll events in any order: a tag may reach the
worker long after its relay was removed, since epoll hands events over in
batches.
-/

namespace TcpQuicProxy.RelayControl

open Machine List Option Indexed Tables

namespace Tables

/-! ### What the operations on one relay leave alone -/

/-- `t'` has the tables and the relay objects of `t`, each object has its stop
control, and a relay that was closing still is. -/
structure Quiet (t t' : Tables) : Prop where
  relays : t'.relays = t.relays
  retired : t'.retired = t.retired
  objects : t'.objects = t.objects
  closing : ∀ o, (t.states o).closing = true → (t'.states o).closing = true
  stopControl : ∀ o, (t'.states o).stopControl = (t.states o).stopControl

variable {t u v : Tables} {o : Nat} {s : RelayState} {controls : Controls} {r : RelayRef}

theorem Quiet.refl (t : Tables) : Quiet t t := ⟨rfl, rfl, rfl, fun _ h => h, fun _ => rfl⟩

theorem Quiet.trans (h : Quiet t u) (h' : Quiet u v) : Quiet t v :=
  ⟨h'.relays.trans h.relays, h'.retired.trans h.retired, h'.objects.trans h.objects,
    fun o ho => h'.closing o (h.closing o ho), fun o => (h'.stopControl o).trans (h.stopControl o)⟩

theorem quiet_setState (h : (t.states o).closing = true → s.closing = true)
    (hcontrol : s.stopControl = (t.states o).stopControl) : Quiet t (t.setState o s) := by
  refine ⟨rfl, rfl, rfl, fun p hp => ?_, fun p => ?_⟩
  · by_cases hpo : p = o
    · subst hpo
      simpa [setState] using h hp
    · simpa [setState, Function.update_of_ne hpo] using hp
  · by_cases hpo : p = o
    · subst hpo
      simpa [setState] using hcontrol
    · simp [setState, Function.update_of_ne hpo]

theorem quiet_closeSocket : Quiet t (t.closeSocket o) := by
  unfold closeSocket
  split
  · exact Quiet.refl t
  · have h :=
      quiet_setState (t := t) (o := o) (s := { t.states o with tcpFd := none }) (fun h => h) rfl
    exact ⟨rfl, rfl, rfl, h.closing, h.stopControl⟩

/-- Closing the socket leaves every closing mark as it is. -/
theorem closing_closeSocket (p : Nat) :
    ((t.closeSocket o).states p).closing = (t.states p).closing := by
  unfold closeSocket
  split
  · rfl
  · by_cases hpo : p = o
    · subst hpo
      simp [setState]
    · simp [setState, Function.update_of_ne hpo]

theorem quiet_abortRelayAndRelease : Quiet t (t.abortRelayAndRelease controls r).1 := by
  have h :=
    (quiet_setState (t := t) (o := r.object) (s := { t.states r.object with closing := true })
      (fun _ => rfl) rfl).trans
    (quiet_closeSocket (o := r.object))
  unfold abortRelayAndRelease
  dsimp only
  split
  · exact h.trans (quiet_setState (fun h => h) rfl)
  · exact h

theorem quiet_beginTerminalHandoff {ledger sink : Bool} :
    Quiet t (t.beginTerminalHandoff controls r ledger sink).1 := by
  unfold beginTerminalHandoff
  split
  · exact quiet_abortRelayAndRelease
  · split
    · exact quiet_abortRelayAndRelease
    · split
      · exact quiet_abortRelayAndRelease
      · split
        · exact quiet_abortRelayAndRelease
        · refine Quiet.trans ?_ quiet_abortRelayAndRelease
          exact ⟨rfl, rfl, rfl, fun _ h => h, fun _ => rfl⟩

variable {relayId : Nat} {e : TcpEvents} {socketError : Bool}

theorem quiet_late :
    Quiet t (if e.late then { t with lateTcpErrors := t.lateTcpErrors + 1 } else t) := by
  split
  · exact ⟨rfl, rfl, rfl, fun _ h => h, fun _ => rfl⟩
  · exact Quiet.refl t

theorem quiet_processTcpEvents : Quiet t (t.processTcpEvents relayId e socketError).1 := by
  unfold processTcpEvents
  dsimp only
  split
  · exact quiet_late
  · split
    · exact Quiet.refl t
    · split
      · exact quiet_late
      · split <;> exact Quiet.refl t

theorem quiet_dispatch {value : Nat} :
    Quiet t (t.dispatchEncodedEpollEvent value e socketError).1 := by
  unfold dispatchEncodedEpollEvent
  split
  · exact Quiet.refl t
  · dsimp only
    split
    · exact quiet_late
    · split
      · exact quiet_late
      · exact quiet_processTcpEvents

/-! ### Sound tables -/

/-- List and index agree in both pairs, an id is in one pair at most, and the
objects have ids and generations that fit a tag, each generation once. -/
structure Sound (t : Tables) : Prop where
  relays : t.relays.Agrees RelayRef.id
  retired : t.retired.Agrees RelayRef.id
  apart : ∀ r ∈ t.relays.entries, ∀ s ∈ t.retired.entries, r.id ≠ s.id
  relaysMade : ∀ r ∈ t.relays.entries, r ∈ t.objects
  retiredMade : ∀ r ∈ t.retired.entries, r ∈ t.objects
  numbered : t.objects.map RelayRef.object = List.range t.objects.length
  ids : ∀ r ∈ t.objects, 0 < r.id ∧ r.id ≤ epollRelayMask
  generations : ∀ r ∈ t.objects, 0 < r.controlGeneration ∧ r.controlGeneration ≤ epollGenerationMask
  distinct : (t.objects.map RelayRef.controlGeneration).Nodup
  closing : ∀ r ∈ t.retired.entries, (t.states r.object).closing = true

theorem sound_empty : Sound {} where
  relays := agrees_empty
  retired := agrees_empty
  apart := by simp [Indexed.empty]
  relaysMade := by simp [Indexed.empty]
  retiredMade := by simp [Indexed.empty]
  numbered := by simp
  ids := by simp
  generations := by simp
  distinct := by simp
  closing := by simp [Indexed.empty]

theorem Sound.of_quiet (h : Sound t) (hq : Quiet t u) : Sound u where
  relays := hq.relays ▸ h.relays
  retired := hq.retired ▸ h.retired
  apart := by rw [hq.relays, hq.retired]; exact h.apart
  relaysMade := by rw [hq.relays, hq.objects]; exact h.relaysMade
  retiredMade := by rw [hq.retired, hq.objects]; exact h.retiredMade
  numbered := by rw [hq.objects]; exact h.numbered
  ids := by rw [hq.objects]; exact h.ids
  generations := by rw [hq.objects]; exact h.generations
  distinct := by rw [hq.objects]; exact h.distinct
  closing := by
    rw [hq.retired]
    intro r hr
    exact hq.closing _ (h.closing r hr)

theorem Sound.object_lt (h : Sound t) {r : RelayRef} (hr : r ∈ t.objects) :
    r.object < t.objects.length := by
  have hmem : r.object ∈ range t.objects.length := h.numbered ▸ List.mem_map_of_mem hr
  exact mem_range.mp hmem

theorem Sound.eq_of_generation (h : Sound t) {r s : RelayRef} (hr : r ∈ t.objects)
    (hs : s ∈ t.objects) (heq : r.controlGeneration = s.controlGeneration) : r = s :=
  inj_on_of_nodup_map h.distinct hr hs heq

theorem findRelayById_eq_some (h : t.findRelayById relayId = some r) :
    t.relays.find relayId = some r ∨ t.retired.find relayId = some r := by
  unfold findRelayById at h
  split at h
  · rename_i hfind
    exact .inl (hfind.trans h)
  · exact .inr h

theorem findRelayById_eq_none (h : t.findRelayById relayId = none) :
    t.relays.find relayId = none ∧ t.retired.find relayId = none := by
  unfold findRelayById at h
  split at h
  · cases h
  · rename_i hfind
    exact ⟨hfind, h⟩

/-- A relay that is found was made and has the id it was looked up by. -/
theorem Sound.of_find (h : Sound t) (hfind : t.findRelayById relayId = some r) :
    r ∈ t.objects ∧ r.id = relayId := by
  rcases findRelayById_eq_some hfind with hfind | hfind
  · obtain ⟨hmem, hid⟩ := (Indexed.find_eq_some h.relays).mp hfind
    exact ⟨h.relaysMade r hmem, hid⟩
  · obtain ⟨hmem, hid⟩ := (Indexed.find_eq_some h.retired).mp hfind
    exact ⟨h.retiredMade r hmem, hid⟩

/-! ### Allocation -/

theorem idAfter_range {candidate : Nat} (h : candidate ≤ epollRelayMask) :
    0 < idAfter candidate ∧ idAfter candidate ≤ epollRelayMask := by
  unfold idAfter
  split
  · exact ⟨by decide, by decide⟩
  · omega

/-- The loop turns while it meets ids in use, and stops at a free one or at the start. -/
theorem allocateTurn_cases (first candidate : Nat) :
    (t.findRelayById candidate = none ∧
      t.allocateTurn first candidate = .inr (candidate, idAfter candidate)) ∨
      t.allocateTurn first candidate = .inr (0, idAfter candidate) ∨
      t.allocateTurn first candidate = .inl (idAfter candidate) := by
  unfold allocateTurn
  split
  · rename_i hfree
    exact .inl ⟨isNone_iff_eq_none.mp hfree, rfl⟩
  · split
    · exact .inr (.inl rfl)
    · exact .inr (.inr rfl)

/-- An allocated id is in range and no relay has it. -/
theorem allocateRelayId_spec : t.allocateRelayId.1 ≠ 0 →
    (0 < t.allocateRelayId.1 ∧ t.allocateRelayId.1 ≤ epollRelayMask) ∧
      t.findRelayById t.allocateRelayId.1 = none := by
  refine Machine.loop_rule (fun next => 0 < next ∧ next ≤ epollRelayMask)
    (fun p : Nat × Nat => p.1 ≠ 0 → (0 < p.1 ∧ p.1 ≤ epollRelayMask) ∧ t.findRelayById p.1 = none)
    ?_ ?_ ?_ _ ?_
  · intro next next' hnext hbody
    rcases t.allocateTurn_cases _ next with ⟨-, h⟩ | h | h <;> rw [h] at hbody
    · cases hbody
    · cases hbody
    · exact Sum.inl.inj hbody ▸ idAfter_range hnext.2
  · intro next p hnext hbody hp
    rcases t.allocateTurn_cases _ next with ⟨hfree, h⟩ | h | h <;> rw [h] at hbody
    · obtain rfl := Sum.inr.inj hbody
      exact ⟨hnext, hfree⟩
    · obtain rfl := Sum.inr.inj hbody
      exact absurd rfl hp
    · cases hbody
  · intro next _ hp
    exact absurd rfl hp
  · split
    · exact ⟨by decide, by decide⟩
    · rename_i hrange
      omega

/-! ### Registration -/

theorem Quiet.leave (h : Quiet t u) (relayId : Nat) : Quiet (t.leave relayId) (u.leave relayId) :=
  ⟨congrArg (remove RelayRef.id · relayId) h.relays, h.retired, h.objects, h.closing, h.stopControl⟩

/-- A registration that has entered its relay either fails and takes it out again, or commits it. -/
theorem commitRegistration_cases (reg : Registration) (ans : Answers) :
    ((t.commitRegistration controls reg ans r).2.2.ok = false ∧
        Quiet (t.leave r.id) (t.commitRegistration controls reg ans r).1) ∨
      ((t.commitRegistration controls reg ans r).2.2.ok = true ∧
        (t.commitRegistration controls reg ans r).2.2.relayId = r.id ∧
        Quiet t (t.commitRegistration controls reg ans r).1) := by
  have hclose : ∀ (u : Tables) (b : Bool), Quiet u (if b then u.closeSocket r.object else u) := by
    intro u b
    cases b
    · exact Quiet.refl u
    · exact quiet_closeSocket
  unfold commitRegistration
  split
  · exact .inl ⟨rfl, Quiet.refl _⟩
  · split
    · exact .inl ⟨rfl, Quiet.refl _⟩
    · dsimp only
      split
      · exact .inl ⟨rfl, (hclose t _).leave r.id⟩
      · split
        · refine .inl ⟨rfl, Quiet.trans (Quiet.leave ?_ r.id) (hclose _ _)⟩
          split
          · exact quiet_beginTerminalHandoff
          · exact Quiet.refl t
        · exact .inr ⟨rfl, rfl, quiet_setState (fun h => h) rfl⟩

/-- What a registration can do to the tables: nothing, or one new relay object
that is in them exactly when the registration succeeds. -/
theorem registerRelayWithIdLocal_cases (h : Sound t) (reg : Registration) (ans : Answers) :
    ((t.registerRelayWithIdLocal controls reg ans).2.2.ok = false ∧
        Quiet t (t.registerRelayWithIdLocal controls reg ans).1) ∨
      ∃ r s, r.object = t.objects.length ∧ (0 < r.id ∧ r.id ≤ epollRelayMask) ∧
        t.findRelayById r.id = none ∧
        r.controlGeneration = reg.generation controls ∧ r.controlGeneration ≤ epollGenerationMask ∧
        (((t.registerRelayWithIdLocal controls reg ans).2.2.ok = false ∧
            Quiet { t.enter r s with relays := t.relays }
            (t.registerRelayWithIdLocal controls reg ans).1) ∨
          ((t.registerRelayWithIdLocal controls reg ans).2.2.ok = true ∧
            (t.registerRelayWithIdLocal controls reg ans).2.2.relayId = r.id ∧
            Quiet (t.enter r s) (t.registerRelayWithIdLocal controls reg ans).1)) := by
  have hspec := t.allocateRelayId_spec
  unfold registerRelayWithIdLocal
  split
  · exact .inl ⟨rfl, Quiet.refl t⟩
  split
  · exact .inl ⟨rfl, Quiet.refl t⟩
  dsimp only
  split
  · exact .inl ⟨rfl, Quiet.refl t⟩
  rename_i hgeneration
  split
  · exact .inl ⟨rfl, Quiet.refl t⟩
  split
  · exact .inl ⟨rfl, ⟨rfl, rfl, rfl, fun _ h => h, fun _ => rfl⟩⟩
  rename_i hid
  obtain ⟨hrange, hfree⟩ := hspec hid
  refine .inr ⟨⟨t.objects.length, t.allocateRelayId.1, reg.generation controls⟩,
    { tcpFd := reg.tcpFd, stopControl := reg.stopControl, streamOwner := reg.streamOwner,
      streamBinding := reg.stream },
    rfl, hrange, hfree, rfl, not_lt.mp hgeneration, ?_⟩
  rcases commitRegistration_cases reg ans with ⟨hok, hq⟩ | ⟨hok, hrelayId, hq⟩
  · refine .inl ⟨hok, Quiet.trans ?_ hq⟩
    exact ⟨remove_insert h.relays (findRelayById_eq_none hfree).1, rfl, rfl, fun _ h => h,
      fun _ => rfl⟩
  · refine .inr ⟨hok, hrelayId, Quiet.trans ?_ hq⟩
    exact ⟨rfl, rfl, rfl, fun _ h => h, fun _ => rfl⟩

/-- A failed registration leaves the tables as they were. -/
theorem registerRelayWithIdLocal_failed (h : Sound t) {reg : Registration} {ans : Answers}
    (hok : (t.registerRelayWithIdLocal controls reg ans).2.2.ok = false) :
    (t.registerRelayWithIdLocal controls reg ans).1.relays = t.relays ∧
      (t.registerRelayWithIdLocal controls reg ans).1.retired = t.retired := by
  rcases registerRelayWithIdLocal_cases h reg
    ans with ⟨-, hq⟩ | ⟨r, s, -, -, -, -, -, ⟨-, hq⟩ | ⟨hsome, -, -⟩⟩
  · exact ⟨hq.relays, hq.retired⟩
  · exact ⟨hq.relays, hq.retired⟩
  · rw [hok] at hsome
    cases hsome

/-- A new object keeps the tables sound, whether or not it enters them. -/
theorem Sound.enter (h : Sound t) (s : RelayState) (hobject : r.object = t.objects.length)
    (hid : 0 < r.id ∧ r.id ≤ epollRelayMask) (hfree : t.findRelayById r.id = none)
    (hgeneration : 0 < r.controlGeneration ∧ r.controlGeneration ≤ epollGenerationMask)
    (hnew : ∀ r' ∈ t.objects, r'.controlGeneration ≠ r.controlGeneration) :
    Sound (t.enter r s) ∧ Sound { t.enter r s with relays := t.relays } := by
  obtain ⟨hrelays, hretired⟩ := findRelayById_eq_none hfree
  have hnumbered : (t.objects ++ [r]).map RelayRef.object = range (t.objects ++ [r]).length := by
    rw [map_append, h.numbered, length_append, map_cons, map_nil, hobject]
    exact range_succ.symm
  have hids : ∀ r' ∈ t.objects ++ [r], 0 < r'.id ∧ r'.id ≤ epollRelayMask :=
    forall_mem_append.mpr ⟨h.ids, forall_mem_singleton.mpr hid⟩
  have hgenerations : ∀ r' ∈ t.objects ++ [r], 0 < r'.controlGeneration ∧
      r'.controlGeneration ≤ epollGenerationMask :=
    forall_mem_append.mpr ⟨h.generations, forall_mem_singleton.mpr hgeneration⟩
  have hdistinct : ((t.objects ++ [r]).map RelayRef.controlGeneration).Nodup := by
    rw [map_append, nodup_append]
    refine ⟨h.distinct, nodup_singleton _, ?_⟩
    intro a ha b hb
    obtain ⟨r', hr', rfl⟩ := List.mem_map.mp ha
    obtain rfl := mem_singleton.mp hb
    exact hnew r' hr'
  have hclosing : ∀ r' ∈ t.retired.entries, ((t.enter r s).states r'.object).closing = true := by
    intro r' hr'
    have hlt := h.object_lt (h.retiredMade r' hr')
    simpa only [Tables.enter, Function.update_of_ne (show r'.object ≠ r.object by omega)]
      using h.closing r' hr'
  constructor
  · refine ⟨agrees_insert h.relays hrelays, h.retired, ?_, ?_, ?_, hnumbered, hids,
      hgenerations, hdistinct,
      hclosing⟩
    · intro r' hr' s' hs'
      rcases mem_append.mp hr' with hr' | hr'
      · exact h.apart r' hr' s' hs'
      · obtain rfl := mem_singleton.mp hr'
        exact fun heq => (find_eq_none h.retired).mp hretired s' hs' heq.symm
    · intro r' hr'
      rcases mem_append.mp hr' with hr' | hr'
      · exact mem_append_left _ (h.relaysMade r' hr')
      · exact mem_append_right _ hr'
    · exact fun r' hr' => mem_append_left _ (h.retiredMade r' hr')
  · exact ⟨h.relays, h.retired, h.apart, fun r' hr' => mem_append_left _ (h.relaysMade r' hr'),
      fun r' hr' => mem_append_left _ (h.retiredMade r' hr'), hnumbered, hids, hgenerations,
        hdistinct, hclosing⟩

/-- A registration under a generation that no relay has keeps the tables sound. -/
theorem Sound.register (h : Sound t) (reg : Registration) (ans : Answers)
    (hpos : 0 < reg.generation controls)
    (hnew : ∀ r ∈ t.objects, r.controlGeneration ≠ reg.generation controls) :
    Sound (t.registerRelayWithIdLocal controls reg ans).1 := by
  rcases registerRelayWithIdLocal_cases h reg
    ans with ⟨-, hq⟩ | ⟨r, s, hobject, hid, hfree, hgeneration, hle, hcases⟩
  · exact h.of_quiet hq
  · have hsound := h.enter s hobject hid hfree ⟨hgeneration ▸ hpos, hle⟩ (hgeneration ▸ hnew)
    rcases hcases with ⟨-, hq⟩ | ⟨-, -, hq⟩
    · exact hsound.2.of_quiet hq
    · exact hsound.1.of_quiet hq

/-! ### Removal -/

/-- A removal moves the relay of that id, if there is one, to the retired table and marks it
closing. -/
theorem unregisterRelayLocal_cases (relayId : Nat) :
    (t.relays.find relayId = none ∧ t.unregisterRelayLocal relayId = t) ∨
      ∃ r, t.relays.find relayId = some r ∧
        ((t.unregisterRelayLocal relayId).states r.object).closing = true ∧
        (t.unregisterRelayLocal relayId).retired = t.retired.insert RelayRef.id r ∧
        Quiet { t.leave relayId with retired := t.retired.insert RelayRef.id r }
        (t.unregisterRelayLocal relayId) := by
  unfold unregisterRelayLocal
  split
  · rename_i hfind
    exact .inl ⟨hfind, rfl⟩
  · rename_i removed hfind
    refine .inr ⟨removed, hfind, ?_⟩
    dsimp only
    set u := (((t.leave relayId).setState removed.object
      { (t.leave relayId).states removed.object with
        closing := true }).closeSocket removed.object) with hu
    have hquiet : Quiet (t.leave relayId) u :=
      Quiet.trans (quiet_setState (fun _ => rfl) (by rfl)) quiet_closeSocket
    have hclosing : (u.states removed.object).closing = true := by
      rw [hu, closing_closeSocket]
      simp [setState]
    split
    · have hq := hquiet.trans (quiet_setState (o := removed.object)
        (s := { u.states removed.object with streamBinding := false }) (fun h => h) rfl)
      exact ⟨by simpa [setState] using hclosing,
        congrArg (Indexed.insert RelayRef.id · removed) hquiet.retired,
        hq.relays, congrArg (Indexed.insert RelayRef.id · removed) hquiet.retired, hq.objects,
          hq.closing, hq.stopControl⟩
    · exact ⟨hclosing, congrArg (Indexed.insert RelayRef.id · removed) hquiet.retired,
        hquiet.relays, congrArg (Indexed.insert RelayRef.id · removed) hquiet.retired,
          hquiet.objects, hquiet.closing,
        hquiet.stopControl⟩

theorem Sound.unregister (h : Sound t) (relayId : Nat) :
    Sound (t.unregisterRelayLocal relayId) := by
  rcases t.unregisterRelayLocal_cases relayId with ⟨-, heq⟩ | ⟨r, hfind, hclosing, hretired, hq⟩
  · rw [heq]
    exact h
  · obtain ⟨hmem, hid⟩ := (Indexed.find_eq_some h.relays).mp hfind
    have hfree : t.retired.find r.id = none :=
      (find_eq_none h.retired).mpr fun s hs heq => h.apart r hmem s hs heq.symm
    refine ⟨?_, ?_, ?_, ?_, ?_, ?_, ?_, ?_, ?_, ?_⟩
    · rw [hq.relays]
      exact agrees_remove h.relays
    · rw [hretired]
      exact agrees_insert h.retired hfree
    · rw [hq.relays, hretired]
      intro r' hr' s' hs'
      obtain ⟨hr', hne⟩ := (mem_entries_remove h.relays).mp hr'
      rcases mem_append.mp hs' with hs' | hs'
      · exact h.apart r' hr' s' hs'
      · obtain rfl := mem_singleton.mp hs'
        rw [hid]
        exact hne
    · rw [hq.relays, hq.objects]
      exact fun r' hr' => h.relaysMade r' ((mem_entries_remove h.relays).mp hr').1
    · rw [hretired, hq.objects]
      exact forall_mem_append.mpr
        ⟨h.retiredMade, forall_mem_singleton.mpr (h.relaysMade r hmem)⟩
    · rw [hq.objects]
      exact h.numbered
    · rw [hq.objects]
      exact h.ids
    · rw [hq.objects]
      exact h.generations
    · rw [hq.objects]
      exact h.distinct
    · rw [hretired]
      exact forall_mem_append.mpr
        ⟨fun s' hs' => hq.closing _ (h.closing s' hs'), forall_mem_singleton.mpr hclosing⟩

theorem Sound.purge (h : Sound t) (queueEmpty : Bool) :
    Sound (t.purgeRetiredRelaysIfIdle queueEmpty) := by
  unfold purgeRetiredRelaysIfIdle
  split
  · exact h
  · have hmem : ∀ {s : RelayRef}, s ∈ (t.retired.purge RelayRef.id t.idle).entries →
        s ∈ t.retired.entries :=
      fun hs => (Indexed.mem_entries_purge.mp hs).1
    exact ⟨h.relays, agrees_purge h.retired, fun r hr s hs => h.apart r hr s (hmem hs),
      h.relaysMade,
      fun r hr => h.retiredMade r (hmem hr), h.numbered, h.ids, h.generations, h.distinct,
        fun r hr => h.closing r (hmem hr)⟩

/-! ### Epoll events -/

theorem processTcpEvents_some {p : RelayRef × List TcpAct}
    (h : (t.processTcpEvents relayId e socketError).2 = some p) :
    t.findRelayById relayId = some p.1 ∧ (t.states p.1.object).closing = false := by
  unfold processTcpEvents at h
  dsimp only at h
  split at h
  · cases h
  · rename_i r hfind
    split at h
    · cases h
    · split at h
      · cases h
      · split at h
        · cases h
        · rename_i hclosing
          cases h
          exact ⟨hfind, by simpa using hclosing⟩

/-- The tag of a relay that was ever made can only make the worker act on that
relay, and only while the relay is in the tables. -/
theorem Sound.dispatch (h : Sound t) {p : RelayRef × List TcpAct} (hr : r ∈ t.objects)
    (hact : (t.dispatchEncodedEpollEvent r.tag e socketError).2 = some p) :
    p.1 = r ∧ r ∈ t.relays.entries := by
  obtain ⟨hpos, hle⟩ := h.ids r hr
  obtain ⟨hgpos, hgle⟩ := h.generations r hr
  have hmask :
      ∀ r' ∈ t.objects, r'.controlGeneration &&& epollGenerationMask = r'.controlGeneration := by
    intro r' hr'
    have hle := (h.generations r' hr').2
    rw [epollGenerationMask] at hle ⊢
    rw [Nat.and_two_pow_sub_one_eq_mod, Nat.mod_eq_of_lt (by omega)]
  unfold dispatchEncodedEpollEvent at hact
  rw [RelayRef.tag, decode_encode hpos hle, hmask r hr] at hact
  dsimp only at hact
  split at hact
  · cases hact
  · rename_i found hfind
    split at hact
    · cases hact
    · rename_i hmatch
      obtain ⟨hfind', hclosing⟩ := processTcpEvents_some hact
      obtain rfl : found = p.1 := some.inj (hfind.symm.trans hfind')
      obtain ⟨hmade, -⟩ := h.of_find hfind
      have heq : p.1.controlGeneration = r.controlGeneration := by
        by_contra hne
        exact hmatch ⟨by omega, by rwa [hmask _ hmade]⟩
      obtain rfl := h.eq_of_generation hmade hr heq
      refine ⟨rfl, ?_⟩
      rcases findRelayById_eq_some hfind with hfind | hfind
      · exact ((Indexed.find_eq_some h.relays).mp hfind).1
      · have := h.closing _ ((Indexed.find_eq_some h.retired).mp hfind).1
        rw [this] at hclosing
        cases hclosing

/-! ### What the operations leave of the stop controls -/

/-- `controls'` has the controls of `controls`, with the same values of `f`. -/
def Same {α : Type} (f : StopControl → α) (controls controls' : Controls) : Prop :=
  controls'.map f = controls.map f

section

variable {α : Type} {f : StopControl → α} {controls' : Controls}

section

variable (h : Same f controls controls')
include h

theorem Same.trans {controls'' : Controls} (h' : Same f controls' controls'') :
    Same f controls controls'' := Eq.trans h' h

theorem Same.getElem? (c : Nat) : controls'[c]?.map f = controls[c]?.map f := by
  rw [← getElem?_map, ← getElem?_map, h]

theorem Same.length : controls'.length = controls.length := by
  simpa using congrArg List.length h

end

theorem same_modify (c : Nat) {g : StopControl → StopControl} (hg : ∀ x, f (g x) = f x) :
    Same f controls (controls.modify c g) := map_modify_eq controls c hg

/-- Stop signals are all that a handoff or a commit does to the controls. -/
def Blind (f : StopControl → α) : Prop := ∀ x expected, f (StopControl.signalStop x expected) = f x

theorem same_signalStop (hf : Blind f) (control : Option Nat) (generation : Nat) :
    Same f controls (controls.signalStop control generation) := by
  unfold Controls.signalStop
  split
  · exact rfl
  · exact same_modify _ fun x => hf x _

theorem same_abortRelayAndRelease (hf : Blind f) :
    Same f controls (t.abortRelayAndRelease controls r).2 := by
  unfold abortRelayAndRelease
  dsimp only
  split <;> exact same_signalStop hf _ _

theorem same_beginTerminalHandoff (hf : Blind f) {ledger sink : Bool} :
    Same f controls (t.beginTerminalHandoff controls r ledger sink).2 := by
  unfold beginTerminalHandoff
  split
  · exact same_abortRelayAndRelease hf
  · split
    · exact same_abortRelayAndRelease hf
    · split
      · exact same_abortRelayAndRelease hf
      · split <;> exact same_abortRelayAndRelease hf

theorem same_commitRegistration (hf : Blind f) (reg : Registration) (ans : Answers) :
    Same f controls (t.commitRegistration controls reg ans r).2.1 := by
  unfold commitRegistration
  split
  · exact rfl
  · split
    · exact rfl
    · dsimp only
      split
      · exact rfl
      · split
        · change Same f controls (if reg.stream && reg.tcpFd.isSome && reg.streamOwner then
            t.beginTerminalHandoff controls r ans.ledger ans.sink else (t, controls)).2
          split
          · exact same_beginTerminalHandoff hf
          · exact rfl
        · exact rfl

/-- A registration fails and leaves the controls alone, or it has published the handoff control. -/
theorem same_register (t : Tables) (controls : Controls) (hf : Blind f) (reg : Registration)
    (ans : Answers) :
    ((t.registerRelayWithIdLocal controls reg ans).2.2.ok = false ∧
        (t.registerRelayWithIdLocal controls reg ans).2.1 = controls) ∨
      Same f (publishHandoff controls reg (reg.generation controls))
        (t.registerRelayWithIdLocal controls reg ans).2.1 := by
  unfold registerRelayWithIdLocal
  split
  · exact .inl ⟨rfl, rfl⟩
  split
  · exact .inl ⟨rfl, rfl⟩
  dsimp only
  split
  · exact .inl ⟨rfl, rfl⟩
  split
  · exact .inl ⟨rfl, rfl⟩
  split
  · exact .inr rfl
  · exact .inr (same_commitRegistration hf reg ans)

variable (hhandoff : ∀ x handoff, f { x with terminalHandoff := handoff } = f x)
include hhandoff

theorem same_publishHandoff (reg : Registration) (generation : Nat) :
    Same f controls (publishHandoff controls reg generation) := by
  unfold publishHandoff
  split
  · exact rfl
  · split
    · exact same_modify _ fun x => hhandoff x _
    · exact rfl

theorem same_registered (hf : Blind f) (reg : Registration) (ans : Answers) :
    Same f controls (t.registerRelayWithIdLocal controls reg ans).2.1 := by
  rcases same_register t controls hf reg ans with ⟨-, heq⟩ | hsame
  · rw [heq]
    exact rfl
  · exact (same_publishHandoff hhandoff reg _).trans hsame

end

/-- `controls'` has the controls of `controls`, under their generations. -/
def SameControls (controls controls' : Controls) : Prop :=
  controls'.map StopControl.generation = controls.map StopControl.generation

theorem blind_generation : Blind StopControl.generation := by
  intro x expected
  unfold StopControl.signalStop
  split <;> rfl

theorem sameControls_beginTerminalHandoff {ledger sink : Bool} :
    SameControls controls (t.beginTerminalHandoff controls r ledger sink).2 :=
  same_beginTerminalHandoff blind_generation

end Tables

/-! ### Histories -/

/-- Work on a relay that an epoll event led to. -/
structure Acted where
  tag : Nat
  relay : RelayRef
  acts : List Tables.TcpAct

/-- A worker's tables with the stop controls; `waiting` are the controls of starts
whose registration has not run yet, and `acted` is the work that events led to. -/
structure World where
  controls : Controls := []
  /-- 64 bits wide in the source, for fewer than 2^64 controls. -/
  nextControlGeneration : Nat := 1
  waiting : List Nat := []
  tables : Tables := {}
  acted : List Acted := []

inductive TableAction where
  /-- A start makes its stop control. -/
  | makeControl
  /-- The worker runs the registration of the start that waits at place `i`. -/
  | register (i : Nat) (tcpFd : Option Nat) (stream streamOwner sinkQuicReceives : Bool)
      (ans : Tables.Answers)
  /-- That start gives its registration up. -/
  | giveUp (i : Nat)
  | unregister (relayId : Nat)
  | purge (queueEmpty : Bool)
  /-- A terminal handoff of the relay with that object number. -/
  | handoff (object : Nat) (ledger sink : Bool)
  | event (value : Nat) (events : Tables.TcpEvents) (socketError : Bool)
  /-- Other work changes the fields of one relay; a closing relay stays so, and a
  relay keeps its stop control. -/
  | work (object : Nat) (after : RelayState)
  /-- The worker closes its epoll descriptor. -/
  | closeEpoll

namespace World

/-- Epoll reports the wake tag and tags of relays that were made. -/
def reported (w : World) (value : Nat) : Bool :=
  isEpollWake value || w.tables.objects.any fun r => r.tag == value

def step (w : World) : TableAction → Option World
  | .makeControl =>
    some { w with
      controls := w.controls ++ [{ generation := w.nextControlGeneration }]
      nextControlGeneration := w.nextControlGeneration + 1
      waiting := w.waiting ++ [w.controls.length] }
  | .register i tcpFd stream streamOwner sinkQuicReceives ans =>
    match w.waiting[i]? with
    | none => none
    | some c =>
      let reg : Tables.Registration :=
        { tcpFd, stream, streamOwner, stopControl := some c,
          controlGeneration := w.controls.generation c, sinkQuicReceives }
      let p := w.tables.registerRelayWithIdLocal w.controls reg ans
      some { w with waiting := w.waiting.eraseIdx i, tables := p.1, controls := p.2.1 }
  | .giveUp i => some { w with waiting := w.waiting.eraseIdx i }
  | .unregister relayId => some { w with tables := w.tables.unregisterRelayLocal relayId }
  | .purge queueEmpty => some { w with tables := w.tables.purgeRetiredRelaysIfIdle queueEmpty }
  | .handoff object ledger sink =>
    match w.tables.objects[object]? with
    | none => none
    | some r =>
      let p := w.tables.beginTerminalHandoff w.controls r ledger sink
      some { w with tables := p.1, controls := p.2 }
  | .event value events socketError =>
    if !w.reported value then none
    else if isEpollWake value then some w
    else
      let p := w.tables.dispatchEncodedEpollEvent value events socketError
      some { w with
        tables := p.1
        acted := w.acted ++ (p.2.map fun q => Acted.mk value q.1 q.2).toList }
  | .work object after =>
    let closing := (w.tables.states object).closing || after.closing
    let stopControl := (w.tables.states object).stopControl
    some { w with tables := w.tables.setState object { after with closing, stopControl } }
  | .closeEpoll => some { w with tables := { w.tables with epollFd := false } }

/-- The tables are sound, controls are numbered by their generations, each control
registers once, and an event acted on the relay that its tag was made from. -/
structure Sound (w : World) : Prop where
  tables : w.tables.Sound
  numbered : w.controls.map StopControl.generation = (List.range w.controls.length).map (· + 1)
  next : w.nextControlGeneration = w.controls.length + 1
  nodup : w.waiting.Nodup
  made : ∀ c ∈ w.waiting, c < w.controls.length
  unused : ∀ c ∈ w.waiting, ∀ r ∈ w.tables.objects, r.controlGeneration ≠ c + 1
  used : ∀ r ∈ w.tables.objects, r.controlGeneration ≤ w.controls.length
  acted : ∀ a ∈ w.acted, a.relay ∈ w.tables.objects ∧ a.tag = a.relay.tag

theorem sound_start : Sound {} where
  tables := sound_empty
  numbered := by simp
  next := rfl
  nodup := nodup_nil
  made := by simp
  unused := by simp
  used := by simp
  acted := by simp

variable {w w' : World}

section

variable (h : Sound w)
include h

theorem Sound.generation {c : Nat} (hc : c < w.controls.length) :
    w.controls.generation c = c + 1 := by
  have hget : (w.controls.map StopControl.generation)[c]? = some (c + 1) := by
    rw [h.numbered, getElem?_map, getElem?_range hc, map_some]
  rw [getElem?_map] at hget
  rw [Controls.generation, hget, getD_some]

/-- Work that keeps the tables' shape and the generations of the controls keeps everything. -/
theorem Sound.of_quiet {t : Tables} {controls : Controls} (hq : Tables.Quiet w.tables t)
    (hcontrols : Tables.SameControls w.controls controls) :
    Sound { w with tables := t, controls := controls } := by
  have hlength : controls.length = w.controls.length := by
    simpa using congrArg List.length hcontrols
  refine ⟨h.tables.of_quiet hq, ?_, ?_, h.nodup, ?_, ?_, ?_, ?_⟩
  · rw [hlength]
    exact hcontrols.trans h.numbered
  · rw [hlength]
    exact h.next
  · rw [hlength]
    exact h.made
  · rw [hq.objects]
    exact h.unused
  · rw [hq.objects, hlength]
    exact h.used
  · rw [hq.objects]
    exact h.acted

/-- Tables with the objects of before keep the bookkeeping of the controls. -/
theorem Sound.of_tables {t : Tables} (hsound : t.Sound) (hobjects : t.objects = w.tables.objects) :
    Sound { w with tables := t } :=
  ⟨hsound, h.numbered, h.next, h.nodup, h.made, hobjects ▸ h.unused, hobjects ▸ h.used,
    hobjects ▸ h.acted⟩

theorem Sound.makeControl :
    Sound { w with
      controls := w.controls ++ [{ generation := w.nextControlGeneration }]
      nextControlGeneration := w.nextControlGeneration + 1
      waiting := w.waiting ++ [w.controls.length] } := by
  refine ⟨h.tables, ?_, ?_, ?_, ?_, ?_, ?_, h.acted⟩
  · simp [h.numbered, h.next, range_succ]
  · simp [h.next]
  · rw [nodup_append]
    refine ⟨h.nodup, nodup_singleton _, ?_⟩
    intro a ha b hb
    obtain rfl := mem_singleton.mp hb
    exact (h.made a ha).ne
  · rw [length_append, length_singleton]
    exact forall_mem_append.mpr ⟨fun c hc => Nat.lt_succ_of_lt (h.made c hc),
      forall_mem_singleton.mpr (Nat.lt_succ_self _)⟩
  · refine forall_mem_append.mpr ⟨h.unused, forall_mem_singleton.mpr fun r hr => ?_⟩
    have := h.used r hr
    omega
  · intro r hr
    rw [length_append, length_singleton]
    exact Nat.le_succ_of_le (h.used r hr)

theorem Sound.register {i c : Nat} (hi : w.waiting[i]? = some c) {reg : Tables.Registration}
    (hgeneration : reg.controlGeneration = w.controls.generation c) (ans : Tables.Answers) :
    Sound { w with
      waiting := w.waiting.eraseIdx i
      tables := (w.tables.registerRelayWithIdLocal w.controls reg ans).1
      controls := (w.tables.registerRelayWithIdLocal w.controls reg ans).2.1 } := by
  have hc : c ∈ w.waiting := mem_of_getElem? hi
  have hcontrol := h.generation (h.made c hc)
  have hreg : reg.generation w.controls = c + 1 := by
    rw [Tables.Registration.generation, hgeneration, hcontrol, if_pos (Nat.succ_ne_zero c)]
  have hsame :
      Tables.SameControls w.controls (w.tables.registerRelayWithIdLocal w.controls reg ans).2.1 :=
    same_registered (fun _ _ => rfl) blind_generation reg ans
  have hlength :
      (w.tables.registerRelayWithIdLocal w.controls reg ans).2.1.length = w.controls.length := by
    simpa using congrArg List.length hsame
  -- The relay object that the registration adds, if any, has the generation of the control.
  have hobjects : ∀ r ∈ (w.tables.registerRelayWithIdLocal w.controls reg ans).1.objects,
      r ∈ w.tables.objects ∨ r.controlGeneration = c + 1 := by
    intro r hr
    rcases registerRelayWithIdLocal_cases h.tables reg ans with
      ⟨-, hq⟩ | ⟨r', s, -, -, -, hr', -, ⟨-, hq⟩ | ⟨-, -, hq⟩⟩
    · exact .inl (hq.objects ▸ hr)
    all_goals
      rw [hq.objects] at hr
      rcases mem_append.mp hr with hr | hr
      · exact .inl hr
      · obtain rfl := mem_singleton.mp hr
        exact .inr (hr'.trans hreg)
  have hkept : ∀ r ∈ w.tables.objects,
      r ∈ (w.tables.registerRelayWithIdLocal w.controls reg ans).1.objects := by
    intro r hr
    rcases registerRelayWithIdLocal_cases h.tables reg ans with
      ⟨-, hq⟩ | ⟨r', s, -, -, -, -, -, ⟨-, hq⟩ | ⟨-, -, hq⟩⟩
    · exact hq.objects ▸ hr
    all_goals
      rw [hq.objects]
      exact mem_append_left _ hr
  refine ⟨?_, ?_, ?_, h.nodup.sublist (eraseIdx_sublist ..), ?_, ?_, ?_, ?_⟩
  · refine h.tables.register reg ans (hreg ▸ Nat.succ_pos c) ?_
    rw [hreg]
    exact h.unused c hc
  · rw [hlength]
    exact hsame.trans h.numbered
  · rw [hlength]
    exact h.next
  · intro c' hc'
    rw [hlength]
    exact h.made c' (mem_of_mem_eraseIdx hc')
  · intro c' hc' r hr
    rcases hobjects r hr with hr | hr
    · exact h.unused c' (mem_of_mem_eraseIdx hc') r hr
    · rw [hr]
      rintro heq
      obtain rfl : c = c' := Nat.succ.inj heq
      obtain ⟨hlt, hget⟩ := List.getElem?_eq_some_iff.mp hi
      obtain ⟨j, hj, hne, hget'⟩ := mem_eraseIdx_iff_getElem.mp hc'
      exact hne (h.nodup.getElem_inj_iff.mp (hget'.trans hget.symm))
  · intro r hr
    rw [hlength]
    rcases hobjects r hr with hr | hr
    · exact h.used r hr
    · have := h.made c hc
      omega
  · intro a ha
    exact ⟨hkept _ (h.acted a ha).1, (h.acted a ha).2⟩

theorem Sound.event {value : Nat} {events : Tables.TcpEvents} {socketError : Bool}
    (hreported : w.reported value = true) (hwake : isEpollWake value = false) :
    Sound { w with
      tables := (w.tables.dispatchEncodedEpollEvent value events socketError).1
      acted := w.acted ++
        ((w.tables.dispatchEncodedEpollEvent value events socketError).2.map fun q =>
          Acted.mk value q.1 q.2).toList } := by
  have hq : Tables.Quiet w.tables (w.tables.dispatchEncodedEpollEvent value events socketError).1 :=
    quiet_dispatch
  refine ⟨h.tables.of_quiet hq, h.numbered, h.next, h.nodup, h.made, hq.objects ▸ h.unused,
    hq.objects ▸ h.used, ?_⟩
  intro a ha
  rw [hq.objects]
  rcases mem_append.mp ha with ha | ha
  · exact h.acted a ha
  · rw [mem_toList, map_eq_some_iff] at ha
    obtain ⟨p, hp, rfl⟩ := ha
    simp only [reported, hwake, Bool.false_or, List.any_eq_true, beq_iff_eq] at hreported
    obtain ⟨r, hr, rfl⟩ := hreported
    obtain ⟨heq, -⟩ := h.tables.dispatch hr hp
    exact ⟨heq ▸ hr, heq ▸ rfl⟩

theorem sound_step {a : TableAction} (hstep : w.step a = some w') : Sound w' := by
  cases a with
  | makeControl =>
    cases hstep
    exact h.makeControl
  | register i tcpFd stream streamOwner sinkQuicReceives ans =>
    simp only [step] at hstep
    split at hstep
    · cases hstep
    · rename_i c hi
      cases hstep
      exact h.register hi rfl ans
  | giveUp i =>
    cases hstep
    exact ⟨h.tables, h.numbered, h.next, h.nodup.sublist (eraseIdx_sublist ..),
      fun c hc => h.made c (mem_of_mem_eraseIdx hc),
        fun c hc => h.unused c (mem_of_mem_eraseIdx hc),
      h.used, h.acted⟩
  | unregister relayId =>
    cases hstep
    refine h.of_tables (h.tables.unregister relayId) ?_
    rcases w.tables.unregisterRelayLocal_cases relayId with ⟨-, heq⟩ | ⟨r, -, -, -, hq⟩
    · rw [heq]
    · exact hq.objects
  | purge queueEmpty =>
    cases hstep
    refine h.of_tables (h.tables.purge queueEmpty) ?_
    unfold purgeRetiredRelaysIfIdle
    split <;> rfl
  | handoff object ledger sink =>
    simp only [step] at hstep
    split at hstep
    · cases hstep
    · cases hstep
      exact h.of_quiet quiet_beginTerminalHandoff sameControls_beginTerminalHandoff
  | event value events socketError =>
    simp only [step] at hstep
    split at hstep
    · cases hstep
    · rename_i hreported
      split at hstep
      · cases hstep
        exact h
      · rename_i hwake
        cases hstep
        exact h.event (by simpa using hreported) (by simpa using hwake)
  | work object after =>
    cases hstep
    exact h.of_tables (h.tables.of_quiet (quiet_setState (fun hc => by simp [hc]) rfl)) rfl
  | closeEpoll =>
    cases hstep
    exact h.of_tables (h.tables.of_quiet ⟨rfl, rfl, rfl, fun _ hc => hc, fun _ => rfl⟩) rfl

end

theorem sound_run {as : List TableAction} (hrun : Machine.run step {} as = some w) : Sound w :=
  Machine.invariant (fun _ _ _ h hstep => sound_step h hstep) sound_start hrun

/-- After every history of registrations, removals and epoll events: list and
index of the active relays hold the same relays, no two relays that are still
known have one id, a registration that fails leaves the tables as they are, a
relay's tag decodes to its id and its masked generation and is not the wake tag,
the tag of a relay that is not in the tables makes the worker act on no relay,
and whatever an event acted on was the one relay its tag was made from. -/
theorem tables_and_tags_consistent {as : List TableAction}
    (hrun : Machine.run step {} as = some w) :
    (∀ k r, (k, r) ∈ w.tables.relays.index ↔ r ∈ w.tables.relays.entries ∧ r.id = k) ∧
      w.tables.relays.entries.length = w.tables.relays.index.length ∧
      ((w.tables.relays.entries ++ w.tables.retired.entries).map RelayRef.id).Nodup ∧
      (∀ reg ans, (w.tables.registerRelayWithIdLocal w.controls reg ans).2.2.ok = false →
        (w.tables.registerRelayWithIdLocal w.controls reg ans).1.relays = w.tables.relays ∧
          (w.tables.registerRelayWithIdLocal w.controls reg ans).1.retired = w.tables.retired) ∧
      (∀ r ∈ w.tables.objects, isEpollWake r.tag = false ∧
        decodeEpollRelay r.tag = some (r.id, r.controlGeneration &&& epollGenerationMask)) ∧
      (∀ r ∈ w.tables.objects, r ∉ w.tables.relays.entries → ∀ events socketError,
        (w.tables.dispatchEncodedEpollEvent r.tag events socketError).2 = none) ∧
      ∀ a ∈ w.acted, ∀ r ∈ w.tables.objects, r.tag = a.tag → a.relay = r := by
  have h := sound_run hrun
  have ht := h.tables
  refine ⟨ht.relays.mem_index, length_eq ht.relays, ?_, ?_, ?_, ?_, ?_⟩
  · rw [map_append, nodup_append]
    refine ⟨ht.relays.nodup_entries, ht.retired.nodup_entries, ?_⟩
    intro a ha b hb
    obtain ⟨r, hr, rfl⟩ := List.mem_map.mp ha
    obtain ⟨s, hs, rfl⟩ := List.mem_map.mp hb
    exact ht.apart r hr s hs
  · intro reg ans hok
    exact registerRelayWithIdLocal_failed ht hok
  · intro r hr
    exact ⟨isEpollWake_encode r.id r.controlGeneration,
      decode_encode (ht.ids r hr).1 (ht.ids r hr).2⟩
  · intro r hr hout events socketError
    by_contra hsome
    obtain ⟨p, hp⟩ := ne_none_iff_exists'.mp hsome
    exact hout (ht.dispatch hr hp).2
  · intro a ha r hr htag
    obtain ⟨hmade, hat⟩ := h.acted a ha
    have hdecode : (a.relay.id, a.relay.controlGeneration &&& epollGenerationMask) =
        (r.id, r.controlGeneration &&& epollGenerationMask) := by
      apply some.inj
      rw [← decode_encode (ht.ids _ hmade).1 (ht.ids _ hmade).2,
        ← decode_encode (ht.ids r hr).1 (ht.ids r hr).2]
      exact congrArg decodeEpollRelay (hat.symm.trans htag.symm)
    refine ht.eq_of_generation hmade hr ?_
    have hgeneration := (Prod.mk.inj hdecode).2
    have hle := (ht.generations _ hmade).2
    have hle' := (ht.generations r hr).2
    rw [epollGenerationMask] at hle hle' hgeneration
    rwa [Nat.and_two_pow_sub_one_eq_mod, Nat.and_two_pow_sub_one_eq_mod,
      Nat.mod_eq_of_lt (by omega),
      Nat.mod_eq_of_lt (by omega)] at hgeneration

/-- A relay registers, is removed, and a late event of its socket arrives. -/
theorem lateEvent_acts_on_nothing :
    ∃ w, Machine.run step {} [.makeControl, .register 0 (some 5) true true false {}, .unregister 1,
      .event (encodeEpollRelay 1 1) ⟨true, false, false, false, false⟩ false] = some w ∧
      w.tables.closed = [5] ∧ w.acted.length = 0 ∧
        ((w.tables.relays.entries ++ w.tables.retired.entries).map RelayRef.id).Nodup := by
  refine run_observed (f := fun w => (w.tables.closed, w.acted.length))
    (o := ([5], 0)) (by decide +kernel) fun w hw heq => ?_
  obtain ⟨hclosed, hacted⟩ := Prod.mk.inj heq
  exact ⟨hclosed, hacted, (tables_and_tags_consistent hw).2.2.1⟩

end World
end TcpQuicProxy.RelayControl
