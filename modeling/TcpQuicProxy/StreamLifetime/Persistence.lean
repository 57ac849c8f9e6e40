import TcpQuicProxy.StreamLifetime.Terminal

/-!
# A terminal shutdown does not go silent

What a shutdown that has begun leaves behind: an accepted call, a task, a frame that
goes on, an escalation, or a scheduler that was stopped.
-/

namespace TcpQuicProxy.StreamLifetime.Terminal

open List Option Machine

/-- The frame works towards the end of the stream. -/
def TerminalPc.works : TerminalPc → Bool
  | .upgrading _ _ | .upgraded _ _ _ | .timingOut => false
  | _ => true

/-- A graceful call of `Shutdown` succeeds, and a refused call or an escalation has an
escalation object. -/
def loudPc (s : Terminal) (answer : TerminalAnswer) : TerminalPc → Bool
  | .calling _ .gracefulComplete => answer = .ok || s.owner.terminalPhase = .terminalObserved
  | .refused escalation => escalation
  | .escalating escalation due times =>
    escalation || !s.escalates (.escalating escalation due times)
  | _ => true

def loud (s : Terminal) : Action → Bool
  | .advance index answer => s.frames[index]?.all (s.loudPc answer ·.pc)
  | _ => true

/-- `RequestConnectionShutdown` was called. -/
def requested (s : Terminal) : Bool := s.marks.any (·.requests)

/-- A graceful call goes on only if it was accepted. -/
def TerminalPc.Accepted (accepted : Bool) : TerminalPc → Prop
  | .settled _ .gracefulComplete submitted | .recorded _ .gracefulComplete submitted =>
    submitted = true ∧ accepted = true
  | _ => True

theorem TerminalPc.Accepted.mono {pc : TerminalPc} {before after : Bool}
    (h : TerminalPc.Accepted before pc) (hle : before = true → after = true) :
    TerminalPc.Accepted after pc := by
  unfold TerminalPc.Accepted at h ⊢
  split at h
  · exact ⟨h.1, hle h.2⟩
  · exact ⟨h.1, hle h.2⟩
  · trivial

def Heard (s : Terminal) : Prop :=
  s.everStopped = true ∨ s.requested = true ∨ s.accepted = true ∨
    s.owner.terminalPhase = .terminalObserved ∨ ∃ task ∈ s.tasks, task ≠ .timeout

theorem Heard.of_task {s t : Terminal} {task : TerminalTask} (ht : t.tasks = s.tasks ++ [task])
    (htask : task ≠ .timeout) : t.Heard :=
  .inr (.inr
    (.inr (.inr ⟨task, by rw [ht]; exact mem_append_right _ (mem_singleton.mpr rfl), htask⟩)))

/-- What the owner and the ledger say about the past. -/
structure Sane (s : Terminal) : Prop where
  submitted : s.owner.terminalPhase = .shutdownSubmitted → s.accepted = true
  canceled : s.ledger.watchdog = .canceled →
    s.everStopped = true ∨ s.owner.terminalPhase = .terminalObserved
  marked : s.ledger.watchdog = .escalated ∨ s.ledger.watchdog = .terminalTimeout →
    s.ledger.connectionEscalated = true
  escalated : s.ledger.connectionEscalated = true → s.requested = true
  observed : s.ledger.phase = .terminalObserved → s.owner.terminalPhase = .terminalObserved
  stopped : s.stopped = true → s.everStopped = true

structure Audible (s : Terminal) : Prop where
  sane : s.Sane
  heard : s.begun = true → s.Heard ∨ ∃ f ∈ s.frames, TerminalPc.works f.pc = true
  reserved : s.owner.terminalPhase = .shutdownReserved →
    ∃ f ∈ s.frames, ∃ attempt intent, f.pc = .calling attempt intent
  accepted : ∀ f ∈ s.frames, TerminalPc.Accepted s.accepted f.pc

variable {s t : Terminal} {a : Action} {answer : TerminalAnswer} {onWorker : Bool} {pc : TerminalPc}

theorem Sane.of_advances (h : s.Sane) (hloud : s.loudPc answer pc = true) (ht : Advances s pc t) :
    t.Sane := by
  have hcanceled (hphase : s.owner.terminalPhase ≠ .terminalObserved)
      (hw : s.ledger.watchdog = .canceled) : s.everStopped = true :=
    (h.canceled hw).resolve_right hphase
  have hrequested (late early : Bool) :
      (s.marks ++ [TerminalMark.mk true late early]).any (·.requests) = true := by simp
  cases ht with
  | quiet => exact ⟨h.submitted, h.canceled, h.marked, h.escalated, h.observed, h.stopped⟩
  | refused =>
    exact ⟨h.submitted, nofun, fun _ => rfl, fun _ => hrequested _ _, h.observed, h.stopped⟩
  | @escalated escalation due times tasks hmay =>
    obtain rfl : escalation = true := by simpa [loudPc, hmay] using hloud
    exact ⟨h.submitted, nofun, fun _ => rfl, fun _ => hrequested _ _, h.observed, h.stopped⟩
  | reserved retryCalls attempt hactive =>
    exact ⟨nofun, fun hw => .inl (hcanceled (by simp [hactive]) hw), h.marked, h.escalated, nofun,
      h.stopped⟩
  | accepted abortAccepted hphase =>
    exact ⟨fun _ => rfl, fun hw => .inl (hcanceled hphase hw), h.marked, h.escalated,
      fun hl => absurd (h.observed hl) hphase, h.stopped⟩
  | failed hphase =>
    refine ⟨fun hs => h.submitted ?_, fun hw => .inl (hcanceled hphase hw), h.marked, h.escalated,
      fun hl => absurd (h.observed hl) hphase, h.stopped⟩
    dsimp only at hs
    split at hs
    · cases hs
    · exact hs
  | recorded =>
    refine ⟨h.submitted, h.canceled, h.marked, h.escalated, fun hp => h.observed ?_, h.stopped⟩
    dsimp only at hp
    split at hp
    · exact hp
    · split at hp <;> cases hp
  | armed => exact ⟨h.submitted, nofun, by simp, h.escalated, h.observed, h.stopped⟩
  | upgradeSettled applied accepted abortAccepted haccepted =>
    exact ⟨fun hs => haccepted (h.submitted hs), h.canceled, h.marked, h.escalated, h.observed,
      h.stopped⟩
  | upgradeRecorded phase hnot hphase =>
    exact ⟨h.submitted, h.canceled, h.marked, h.escalated, fun hp => h.observed (hphase hp),
      h.stopped⟩
  | upgradeEscalated =>
    exact ⟨h.submitted, nofun, fun _ => rfl, fun _ => hrequested _ _, nofun, h.stopped⟩
  | timedOut hescalated =>
    refine ⟨h.submitted, nofun, fun _ => h.marked (.inl hescalated), fun he => ?_, h.observed,
      h.stopped⟩
    simpa [requested] using h.escalated he

attribute [local grind =] Terminal.advance settle recordShutdown enqueue armWatchdog scheduleRetry
  escalateTask escalate settleUpgrade recordUpgrade reserve timeOut TerminalPc.works
  TerminalPc.Accepted Heard loudPc requested escalates any_append any_cons any_nil

/-- A frame that works goes on, or leaves something behind, or finds another call in progress. -/
theorem heard_advance (onWorker : Bool) (h : s.Sane) (hworks : TerminalPc.works pc = true)
    (hloud : s.loudPc answer pc = true) (haccepted : TerminalPc.Accepted s.accepted pc) :
    (∃ pc', (s.advance answer onWorker pc).2 = some pc' ∧ TerminalPc.works pc' = true) ∨
      (s.advance answer onWorker pc).1.Heard ∨
      (s.owner.terminalPhase = .shutdownReserved ∧
        ∀ attempt intent, pc ≠ .calling attempt intent) := by
  obtain ⟨h1, h2, h3, h4, h5, h6⟩ := h
  cases pc with
  | recorded attempt intent submitted =>
    cases intent <;> cases submitted <;>
      grind [Heard.of_task (s := s)]
  | settled attempt intent submitted => exact .inl ⟨_, rfl, rfl⟩
  | beginning sink escalation intent =>
    cases hp : s.owner.terminalPhase <;> grind
  | upgrading attempt escalation | upgraded attempt escalation submitted | timingOut => cases hworks
  | _ => grind

/-- A frame that does not work leaves behind what there was. -/
theorem heard_advance_of_idle (onWorker : Bool) (hidle : TerminalPc.works pc = false)
    (hheard : s.Heard) : (s.advance answer onWorker pc).1.Heard := by
  cases pc with
  | upgrading attempt escalation | upgraded attempt escalation submitted | timingOut => grind
  | _ => cases hidle

theorem accepted_advance (onWorker : Bool) (hloud : s.loudPc answer pc = true)
    (haccepted : TerminalPc.Accepted s.accepted pc) :
    (s.accepted = true → (s.advance answer onWorker pc).1.accepted = true) ∧
      ∀ pc', (s.advance answer onWorker pc).2 = some pc' →
        TerminalPc.Accepted (s.advance answer onWorker pc).1.accepted pc' := by
  cases pc with
  | recorded attempt intent submitted => cases intent <;> cases submitted <;> grind
  | calling attempt intent => cases intent <;> cases answer <;> grind
  | settled attempt intent submitted => cases intent <;> grind
  | _ => grind

/-- A reservation is that of the frame, or of another one. -/
theorem reserved_advance (onWorker : Bool)
    (hreserved : (s.advance answer onWorker pc).1.owner.terminalPhase = .shutdownReserved) :
    (∃ attempt intent, (s.advance answer onWorker pc).2 = some (.calling attempt intent)) ∨
      (s.owner.terminalPhase = .shutdownReserved ∧
        ∀ attempt intent, pc ≠ .calling attempt intent) := by
  cases pc with
  | calling attempt intent => cases hp : s.owner.terminalPhase <;> cases answer <;> grind
  | recorded attempt intent submitted => cases intent <;> cases submitted <;> grind
  | beginning sink escalation intent => cases hp : s.owner.terminalPhase <;> grind
  | _ => grind

variable {index : Nat} {f g : TerminalFrame} {next : Option TerminalPc}

theorem mem_beside {l : List TerminalFrame} (hf : l[index]? = some f) (hg : g ∈ l) (hne : g ≠ f) :
    g ∈ l.eraseIdx index ∧ ∀ x, g ∈ l.set index x := by
  obtain ⟨j, hj⟩ := mem_iff_getElem?.mp hg
  have hij : index ≠ j := by
    rintro rfl
    exact hne (some.inj (hj.symm.trans hf))
  exact ⟨mem_eraseIdx_iff_getElem?.mpr ⟨j, hij.symm, hj⟩,
    fun x => mem_iff_getElem?.mpr ⟨j, (getElem?_set_ne hij).trans hj⟩⟩

theorem mem_replace (hf : s.frames[index]? = some f) :
    (g ∈ s.frames → g ≠ f → g ∈ (s.replace index f next).frames) ∧
      (∀ pc, next = some pc → { f with pc } ∈ (s.replace index f next).frames) ∧
      (g ∈ (s.replace index f next).frames → g ∈ s.frames ∨ ∃ pc, next = some pc ∧ g.pc = pc) := by
  cases next with
  | none =>
    exact ⟨fun hg hne => (mem_beside hf hg hne).1, fun pc h => (by cases h),
      fun hg => .inl (mem_of_mem_eraseIdx hg)⟩
  | some pc =>
    refine ⟨fun hg hne => (mem_beside hf hg hne).2 _, ?_,
      fun hg => (mem_or_eq_of_mem_set hg).imp_right ?_⟩
    · intro pc' hpc
      obtain rfl : pc = pc' := some.inj hpc
      exact mem_set (List.getElem?_eq_some_iff.mp hf).1 _
    · rintro rfl
      exact ⟨pc, rfl, rfl⟩

theorem replace_sane (h : s.Sane) : (s.replace index f next).Sane := by
  cases next <;> exact ⟨h.submitted, h.canceled, h.marked, h.escalated, h.observed, h.stopped⟩

theorem replace_heard (h : s.Heard) : (s.replace index f next).Heard := by
  cases next <;> exact h

theorem replace_owner :
    (s.replace index f next).owner = s.owner ∧ (s.replace index f next).accepted = s.accepted ∧
      (s.replace index f next).begun = s.begun := by
  cases next <;> exact ⟨rfl, rfl, rfl⟩

/-- A shutdown begins with a frame. -/
theorem begun_advance (h : (s.advance answer onWorker pc).1.begun = true) :
    s.begun = true ∨ TerminalPc.works pc = true := by
  cases pc with
  | recorded attempt intent submitted => exact .inr rfl
  | upgrading attempt escalation | upgraded attempt escalation submitted | timingOut =>
    exact .inl (by grind)
  | _ => exact .inr rfl

theorem Audible.advance (h : s.Audible) (hloud : s.loud (.advance index answer) = true)
    (hs : s.step (.advance index answer) = some t) : t.Audible := by
  obtain ⟨f, hf, rfl⟩ := map_eq_some_iff.mp hs
  have hloud : s.loudPc answer f.pc = true := by simpa [loud, hf] using hloud
  have haccepted : TerminalPc.Accepted s.accepted f.pc := h.accepted f (mem_of_getElem? hf)
  obtain ⟨haccepts, hnext⟩ := accepted_advance f.onWorker hloud haccepted
  have hframes : (s.advance answer f.onWorker f.pc).1.frames = s.frames :=
    advance_frames answer f.onWorker f.pc
  have hf' : (s.advance answer f.onWorker f.pc).1.frames[index]? = some f := by rw [hframes, hf]
  -- the frame that is in `Shutdown` for a reservation is another one than a frame that is not
  have hother (hp : s.owner.terminalPhase = .shutdownReserved)
      (hpc : ∀ attempt intent, f.pc ≠ .calling attempt intent) :
      ∃ g ∈ ((s.advance answer f.onWorker f.pc).1.replace index f
        (s.advance answer f.onWorker f.pc).2).frames,
        ∃ attempt intent, g.pc = .calling attempt intent := by
    obtain ⟨g, hg, attempt, intent, hgpc⟩ := h.reserved hp
    have hne : g ≠ f := fun hgf => hpc attempt intent (hgf ▸ hgpc)
    exact ⟨g, (mem_replace hf').1 (hframes ▸ hg) hne, attempt, intent, hgpc⟩
  refine ⟨replace_sane (h.sane.of_advances hloud (s.advances_advance answer f.onWorker f.pc)),
    fun hb => ?_, fun hp => ?_, fun g hg => ?_⟩
  · by_cases hw : TerminalPc.works f.pc = true
    · obtain ⟨pc', hpc', hworks⟩ | hheard | ⟨hp, hpc⟩ :=
        heard_advance f.onWorker h.sane hw hloud haccepted
      · exact .inr ⟨_, (mem_replace (g := f) hf').2.1 pc' hpc', hworks⟩
      · exact .inl (replace_heard hheard)
      · obtain ⟨g, hg, attempt, intent, hgpc⟩ := hother hp hpc
        exact .inr ⟨g, hg, by rw [hgpc]; rfl⟩
    · have hb : s.begun = true := (begun_advance (replace_owner.2.2 ▸ hb)).resolve_right hw
      refine (h.heard hb).imp (fun hh => replace_heard ?_) ?_
      · exact heard_advance_of_idle f.onWorker (Bool.eq_false_iff.mpr hw) hh
      rintro ⟨g, hg, hgw⟩
      have hne : g ≠ f := fun hgf => hw (hgf ▸ hgw)
      exact ⟨g, (mem_replace hf').1 (hframes ▸ hg) hne, hgw⟩
  · obtain ⟨attempt, intent, hpc⟩ | ⟨hp, hpc⟩ :=
      reserved_advance f.onWorker (replace_owner.1 ▸ hp)
    · exact ⟨_, (mem_replace (g := f) hf').2.1 _ hpc, attempt, intent, rfl⟩
    · exact hother hp hpc
  · rw [replace_owner.2.1]
    obtain hg | ⟨pc', hpc', hgpc⟩ := (mem_replace hf').2.2 hg
    · exact (h.accepted g (hframes ▸ hg)).mono haccepts
    · rw [hgpc]
      exact hnext pc' hpc'

theorem mem_of_append {l : List TerminalFrame} (h : g ∈ l ++ [f]) : g ∈ l ∨ g = f :=
  (mem_append.mp h).imp_right mem_singleton.mp

section

variable (h : s.Audible)
include h

/-- A frame is added to what is there. -/
theorem Audible.push (hsane : t.Sane) (hframes : t.frames = s.frames ++ [f])
    (haccepted : t.accepted = s.accepted) (hf : TerminalPc.Accepted s.accepted f.pc)
    (hreserved : t.owner.terminalPhase = .shutdownReserved →
      s.owner.terminalPhase = .shutdownReserved ∨ ∃ attempt intent, f.pc = .calling attempt intent)
    (hheard : t.begun = true →
      (s.begun = true ∧ (s.Heard → t.Heard)) ∨ TerminalPc.works f.pc = true) : t.Audible := by
  have hf' : f ∈ t.frames := hframes ▸ mem_append_right _ (mem_singleton.mpr rfl)
  have hold : ∀ g ∈ s.frames, g ∈ t.frames := fun g hg => hframes ▸ mem_append_left _ hg
  refine ⟨hsane, fun hb => ?_, fun hp => ?_, fun g hg => ?_⟩
  · obtain ⟨hb, hmono⟩ | hworks := hheard hb
    · exact (h.heard hb).imp hmono (fun ⟨g, hg, hw⟩ => ⟨g, hold g hg, hw⟩)
    · exact .inr ⟨f, hf', hworks⟩
  · obtain hp | hcalling := hreserved hp
    · obtain ⟨g, hg, hpc⟩ := h.reserved hp
      exact ⟨g, hold g hg, hpc⟩
    · exact ⟨f, hf', hcalling⟩
  · rw [haccepted]
    rw [hframes] at hg
    obtain hg | rfl := mem_of_append hg
    · exact h.accepted g hg
    · exact hf

theorem Audible.begin {sink escalation : Bool} {intent : TerminalIntent}
    (hs : s.step (.beginTerminalShutdown sink escalation intent) = some t) : t.Audible := by
  obtain rfl : _ = t := some.inj hs
  have hloud : s.loudPc .ok (.beginning sink escalation intent) = true := rfl
  have hsane : (s.reserve sink escalation intent false).1.Sane :=
    h.sane.of_advances hloud (s.advances_advance .ok false (.beginning sink escalation intent))
  rcases hr : s.reserve sink escalation intent false with ⟨u, none | pc⟩
  · have hu : u = s := by simpa only [hr] using reserve_none (congrArg Prod.snd hr)
    exact hu ▸ h
  · rw [hr] at hsane
    have hpc : TerminalPc.works pc = true ∧ TerminalPc.Accepted s.accepted pc ∧
        u.frames = s.frames ∧ u.accepted = s.accepted ∧
        (u.owner.terminalPhase = .shutdownReserved →
          ∃ attempt intent, pc = .calling attempt intent) := by
      grind
    obtain ⟨hworks, hf, hframes, haccepted, hcalling⟩ := hpc
    refine h.push ⟨hsane.submitted, hsane.canceled, hsane.marked, hsane.escalated, hsane.observed,
        hsane.stopped⟩
      (congrArg (· ++ [TerminalFrame.mk pc false]) hframes) haccepted hf
      (fun hp => .inr (hcalling hp)) (fun _ => .inr hworks)

theorem Audible.upgrade (escalation : Bool) : (s.upgrade escalation).Audible := by
  unfold Terminal.upgrade
  split
  · exact h
  · obtain ⟨h1, h2, h3, h4, h5, h6⟩ := h.sane
    exact h.push ⟨h1, h2, h3, h4, h5, h6⟩ rfl rfl trivial .inl
      (fun hb => .inl ⟨hb, id⟩)

/-- A task becomes a frame. -/
theorem Audible.runTask (hs : s.step (.runTask index) = some t) : t.Audible := by
  obtain ⟨task, htask, rfl⟩ := map_eq_some_iff.mp hs
  obtain ⟨h1, h2, h3, h4, h5, h6⟩ := h.sane
  refine h.push ⟨h1, h2, h3, h4, h5, h6⟩ rfl rfl ?_ .inl fun hb => ?_
  · cases task <;> trivial
  · by_cases hw : TerminalPc.works (TerminalTask.pc task) = true
    · exact .inr hw
    · have htimeout : task = .timeout := by cases task <;> grind [TerminalTask.pc]
      refine .inl ⟨hb, fun hh => hh.imp_right (.imp_right (.imp_right (.imp_right ?_)))⟩
      rintro ⟨other, hother, hne⟩
      obtain ⟨j, hj⟩ := mem_iff_getElem?.mp hother
      have hij : j ≠ index := by
        rintro rfl
        exact hne ((some.inj (hj.symm.trans htask)).trans htimeout)
      exact ⟨other, mem_eraseIdx_iff_getElem?.mpr ⟨j, hij, hj⟩, hne⟩

/-- A step of the scheduler or of MsQuic leaves the frames. -/
theorem Audible.of_frames (hsane : t.Sane) (hframes : t.frames = s.frames)
    (haccepted : t.accepted = s.accepted) (hbegun : t.begun = s.begun)
    (hreserved : t.owner.terminalPhase = .shutdownReserved →
      s.owner.terminalPhase = .shutdownReserved) (hheard : s.Heard → t.Heard) : t.Audible :=
  ⟨hsane, fun hb => hframes ▸ (h.heard (hbegun ▸ hb)).imp_left hheard,
    fun hp => hframes ▸ h.reserved (hreserved hp),
    hframes ▸ haccepted ▸ h.accepted⟩

theorem Audible.step (hloud : s.loud a = true) (hs : s.step a = some t) : t.Audible := by
  obtain ⟨hsubmitted, hcanceled, hmarked, hescalated, hobserved, hstopped⟩ := h.sane
  cases a with
  | beginTerminalShutdown sink escalation intent => exact h.begin hs
  | upgradeTerminalShutdownToAbort escalation =>
    obtain rfl : s.upgrade escalation = t := some.inj hs
    exact h.upgrade escalation
  | advance index answer => exact h.advance hloud hs
  | runTask index => exact h.runTask hs
  | shutdownComplete =>
    obtain rfl : s.shutdownComplete = t := some.inj hs
    unfold Terminal.shutdownComplete
    split
    · exact h.of_frames (by constructor <;> grind) rfl rfl rfl (fun hp => by cases hp)
        (fun _ => .inr (.inr (.inr (.inl rfl))))
    · exact h
  | cancel indexed =>
    obtain ⟨hp, rfl⟩ : s.owner.terminalPhase = .terminalObserved ∧
        { s.cancelWatchdog indexed with tasks := [] } = t := by
      grind [Terminal.step]
    refine h.of_frames (by constructor <;> grind [cancelWatchdog]) ?_ ?_ ?_ ?_ ?_ <;>
      grind [cancelWatchdog]
  | stop indexed =>
    cases hs
    refine h.of_frames (by constructor <;> grind [cancelWatchdog]) ?_ ?_ ?_ ?_
      (fun _ => .inl rfl) <;> grind [cancelWatchdog]
  | start =>
    cases hs
    exact h.of_frames ⟨hsubmitted, hcanceled, hmarked, hescalated, hobserved, fun hf => by cases hf⟩
      rfl rfl rfl id id
  | startFailed =>
    cases hs
    exact h.of_frames ⟨hsubmitted, hcanceled, hmarked, hescalated, hobserved, hstopped⟩
      rfl rfl rfl id id

end

theorem audible_start : Audible {} :=
  ⟨⟨by decide, by decide, by decide, by decide, by decide, by decide⟩, fun hb => (by cases hb),
    fun hp => (by cases hp), fun f hf => (by cases hf)⟩

/-! ### Retries -/

/-- The calls of a retry that a task or a frame can still lead to before the next attempt. -/
def TerminalTask.retries : TerminalTask → Nat
  | .retry => 1
  | _ => 0

def TerminalPc.retries : TerminalPc → Nat
  | .retrying | .beginning _ _ _ => 1
  | .calling attempt _ | .settled attempt _ _ | .recorded attempt _ _ =>
    if attempt ≤ 3 then 1 else 0
  | _ => 0

/-- An attempt up to the third pays for one retry. -/
def Bounded (s : Terminal) : Prop :=
  s.retryCalls + total TerminalTask.retries s.tasks + total (TerminalPc.retries ·.pc) s.frames ≤
    min s.owner.terminalShutdownAttempt 3

attribute [local grind =] TerminalPc.retries TerminalTask.retries total_append total_cons total_nil

theorem retries_advance (s : Terminal) (answer : TerminalAnswer) (onWorker : Bool)
    (pc : TerminalPc) :
    (s.advance answer onWorker pc).1.retryCalls +
      total TerminalTask.retries (s.advance answer onWorker pc).1.tasks +
        (s.advance answer onWorker pc).2.elim 0 TerminalPc.retries +
          min s.owner.terminalShutdownAttempt 3 ≤
      s.retryCalls + total TerminalTask.retries s.tasks + TerminalPc.retries pc +
        min (s.advance answer onWorker pc).1.owner.terminalShutdownAttempt 3 := by
  cases pc with
  | recorded attempt intent submitted => cases intent <;> cases submitted <;> cases answer <;> grind
  | escalating escalation due times => cases answer <;> grind
  | _ => grind

theorem total_replace (next : Option TerminalPc) (hf : s.frames[index]? = some f) :
    total (TerminalPc.retries ·.pc) (s.replace index f next).frames + TerminalPc.retries f.pc =
      total (TerminalPc.retries ·.pc) s.frames + next.elim 0 TerminalPc.retries := by
  cases next with
  | none =>
    have h := total_eraseIdx (f := fun g : TerminalFrame => TerminalPc.retries g.pc) hf
    simp only [replace, elim_none]
    omega
  | some pc => exact total_set _ hf

theorem bounded_start : Bounded {} := Nat.le_refl 0

theorem Bounded.step (h : s.Bounded) (hs : s.step a = some t) : t.Bounded := by
  unfold Bounded at h ⊢
  cases a with
  | beginTerminalShutdown sink escalation intent =>
    obtain rfl : _ = t := some.inj hs
    rcases hr : s.reserve sink escalation intent false with ⟨u, none | pc⟩
    · have hu : u = s := by simpa only [hr] using reserve_none (congrArg Prod.snd hr)
      exact hu ▸ h
    · have hu : u.retryCalls = s.retryCalls ∧ u.tasks = s.tasks ∧ u.frames = s.frames ∧
          TerminalPc.retries pc + min s.owner.terminalShutdownAttempt 3 ≤
            min u.owner.terminalShutdownAttempt 3 := by
        grind
      obtain ⟨hcalls, htasks, hframes, hattempt⟩ := hu
      simp only [hcalls, htasks, hframes, total_append, total_cons, total_nil]
      omega
  | upgradeTerminalShutdownToAbort escalation =>
    obtain rfl : s.upgrade escalation = t := some.inj hs
    unfold upgrade
    split
    · exact h
    · have hpc :
          TerminalPc.retries
          (.upgrading (s.owner.terminalShutdownAttempt + 1) (escalation || s.owner.escalation)) =
          0 := rfl
      simp only [total_append, total_cons, total_nil, hpc]
      omega
  | advance index answer =>
    obtain ⟨f, hf, rfl⟩ := map_eq_some_iff.mp hs
    have hadvance := retries_advance s answer f.onWorker f.pc
    have hframes := advance_frames (s := s) answer f.onWorker f.pc
    have hreplace := total_replace (s.advance answer f.onWorker f.pc).2 (hframes ▸ hf)
    rw [hframes] at hreplace
    have hrest : ∀ next, ((s.advance answer f.onWorker f.pc).1.replace index f next).retryCalls =
        (s.advance answer f.onWorker f.pc).1.retryCalls ∧
        ((s.advance answer f.onWorker f.pc).1.replace index f next).tasks =
          (s.advance answer f.onWorker f.pc).1.tasks := by
      intro next
      cases next <;> exact ⟨rfl, rfl⟩
    simp only [(hrest _).1, (hrest _).2, replace_owner.1]
    omega
  | runTask index =>
    obtain ⟨task, htask, rfl⟩ := map_eq_some_iff.mp hs
    have herase := total_eraseIdx (f := TerminalTask.retries) htask
    have hpc : TerminalPc.retries (TerminalTask.pc task) = TerminalTask.retries task := by
      cases task <;> rfl
    simp only [total_append, total_cons, total_nil, hpc]
    omega
  | shutdownComplete =>
    obtain rfl : s.shutdownComplete = t := some.inj hs
    unfold shutdownComplete
    split <;> exact h
  | cancel indexed =>
    obtain ⟨-, rfl⟩ : s.owner.terminalPhase = .terminalObserved ∧
        { s.cancelWatchdog indexed with tasks := [] } = t := by
      grind [Terminal.step]
    unfold cancelWatchdog
    split <;> simp only [total_nil] <;> omega
  | stop indexed =>
    cases hs
    unfold cancelWatchdog
    split <;> simp only [total_nil] <;> omega
  | start | startFailed =>
    cases hs
    exact h

/-! ### After `BeginTerminalShutdown` -/

/-- No call of `BeginTerminalShutdown` by a client is in progress. -/
def returned (s : Terminal) : Bool :=
  s.frames.all fun f => f.onWorker || !TerminalPc.works f.pc

/-- A retry or the watchdog is queued or runs. -/
def tasked (s : Terminal) : Bool :=
  s.tasks.any (· != .timeout) || s.frames.any fun f => f.onWorker && TerminalPc.works f.pc

theorem Audible.persists (h : s.Audible) (hbegun : s.begun = true) (hreturned : s.returned = true)
    (hp : s.owner.terminalPhase ≠ .terminalObserved) :
    s.accepted = true ∨ s.tasked = true ∨ s.requested = true ∨ s.everStopped = true := by
  obtain (hstopped | hescalated | haccepted | hobserved | ⟨task, htask, hne⟩) | ⟨f, hf, hworks⟩ :=
    h.heard hbegun
  · exact .inr (.inr (.inr hstopped))
  · exact .inr (.inr (.inl hescalated))
  · exact .inl haccepted
  · exact absurd hobserved hp
  · exact .inr
      (.inl (Bool.or_eq_true_iff.mpr (.inl (any_eq_true.mpr ⟨task, htask, bne_iff_ne.mpr hne⟩))))
  · have hworker : f.onWorker = true := by simpa [hworks] using all_eq_true.mp hreturned f hf
    exact .inr
      (.inl (Bool.or_eq_true_iff.mpr
      (.inr (any_eq_true.mpr ⟨f, hf, Bool.and_eq_true_iff.mpr ⟨hworker, hworks⟩⟩))))

/-- A shutdown that has begun and returned is accepted, or a task goes on with it, or the
connection was asked to shut down, or the scheduler was stopped, if no graceful call fails and no
refused call and no escalation is without an escalation object. The first call and its retries are
four calls at most. -/
theorem shutdown_persists (actions : List Action) (t : Terminal)
    (hrun : run step {} actions = some t) :
    (Meets step (loud · · = true) {} actions → t.begun = true → t.returned = true →
      t.owner.terminalPhase ≠ .terminalObserved →
      t.accepted = true ∨ t.tasked = true ∨ t.requested = true ∨ t.everStopped = true) ∧
    1 + t.retryCalls ≤ 4 := by
  constructor
  · intro hloud hbegun hreturned hp
    have haudible : t.Audible :=
      invariant_of_meets (fun _ _ _ h hl hs => h.step hl hs) audible_start hloud hrun
    exact haudible.persists hbegun hreturned hp
  · have hbounded : t.Bounded := invariant (fun _ _ _ h hs => h.step hs) bounded_start hrun
    unfold Bounded at hbounded
    omega

/-- An abort fails four times, with a retry after each of the first three, and is escalated. -/
def failingAbort : List Action :=
  [.beginTerminalShutdown true true .abortBothImmediate, .advance 0 .failed, .advance 0 .ok,
    .advance 0 .ok,
    .runTask 0, .advance 0 .ok, .advance 0 .ok, .advance 0 .failed, .advance 0 .ok, .advance 0 .ok,
    .runTask 0, .advance 0 .ok, .advance 0 .ok, .advance 0 .failed, .advance 0 .ok, .advance 0 .ok,
    .runTask 0, .advance 0 .ok, .advance 0 .ok, .advance 0 .failed, .advance 0 .ok, .advance 0 .ok,
      .advance 0 .ok]

theorem failingAbort_persists :
    ∃ t, run step {} failingAbort = some t ∧ t.retryCalls = 3 ∧ t.accepted = false ∧
      (t.accepted = true ∨ t.tasked = true ∨ t.requested = true ∨ t.everStopped = true) ∧
        1 + t.retryCalls ≤ 4 :=
  have hpersists := shutdown_persists failingAbort _ rfl
  ⟨_, rfl, by decide, by decide, hpersists.1 (by decide) (by decide) (by decide) (by decide),
    hpersists.2⟩

/-- A graceful call fails: the owner holds a retry that nobody runs. -/
theorem failedGraceful_silent :
    ¬∀ actions t, run step {} actions = some t → t.begun = true → t.returned = true →
      t.owner.terminalPhase ≠ .terminalObserved →
      t.accepted = true ∨ t.tasked = true ∨ t.requested = true ∨ t.everStopped = true := by
  intro h
  have hsilent :=
    h [.beginTerminalShutdown true true .gracefulComplete, .advance 0 .failed, .advance 0 .ok,
      .advance 0 .ok] _ rfl
    (by decide) (by decide) (by decide)
  revert hsilent
  decide

end TcpQuicProxy.StreamLifetime.Terminal
