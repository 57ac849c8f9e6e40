import Mathlib.Data.Fintype.Basic
import TcpQuicProxy.Dial.Reactor
import TcpQuicProxy.Platform.InetText

/-!
# Cancelling a dial

A dial lives in the pending table, then in the ready list, then in the batch of
a thread that drains the list; its callback can only start from there. Inside
the reactor a dial only moves along this way or is dropped. `Cancel` drops it
from the pending table and looks nowhere else, so that a dial whose completion
is already waiting survives its cancellation.
-/

namespace TcpQuicProxy.Dial

open Platform Acl List Reactor

/-! ### What the log says about cancelled dials -/

/-- Reading a log: the dials in order of submission, those whose `Cancel` has returned, and
those whose callback has started after that. -/
structure Watch where
  issued : List (UInt64 × Nat)
  cancelled : List Nat
  late : List Nat

/-- A token names the last dial that was submitted under it. -/
def Watch.note (w : Watch) : Effect → Watch
  | .submitted token dial => { w with issued := (token, dial) :: w.issued }
  | .cancelReturned token =>
    match w.issued.find? (·.1 = token) with
    | some (_, dial) => { w with cancelled := dial :: w.cancelled }
    | none => w
  | .callbackStarted dial _ => if dial ∈ w.cancelled then { w with late := dial :: w.late } else w
  | .socketOpened _ | .connecting _ _ | .socketClosed _ => w

def watch (log : List Effect) : Watch := log.foldl Watch.note ⟨[], [], []⟩

/-- No callback has started after the `Cancel` of its dial had returned. -/
def CancelIsFinal (log : List Effect) : Prop := (watch log).late = []

instance (log : List Effect) : Decidable (CancelIsFinal log) := inferInstanceAs (Decidable (_ = _))

def Effect.aboutSocket : Effect → Bool
  | .socketOpened _ | .connecting _ _ | .socketClosed _ => true
  | .submitted _ _ | .cancelReturned _ | .callbackStarted _ _ => false

theorem watch_concat (log : List Effect) (e : Effect) :
    watch (log ++ [e]) = (watch log).note e := by
  simp [watch]

theorem watch_append_sockets {es : List Effect} (h : ∀ e ∈ es, e.aboutSocket = true)
    (log : List Effect) :
    watch (log ++ es) = watch log := by
  have hnote : ∀ w : Watch, es.foldl Watch.note w = w := by
    induction es with
    | nil => exact fun _ => rfl
    | cons e es ih =>
      obtain ⟨he, hes⟩ := forall_mem_cons.mp h
      intro w
      have hw : w.note e = w := by cases e <;> first | rfl | cases he
      rw [foldl_cons, hw, ih hes]
  rw [watch, foldl_append, hnote]
  rfl

/-! ### Where a dial is -/

namespace Reactor

/-- The dial is pending or its completion is ready. -/
def Holds (r : Reactor) (token : UInt64) (dial : Nat) : Prop :=
  (∃ s ∈ r.pending, s.token = token ∧ s.request.complete = some dial) ∨
    ∃ c ∈ r.readyCompletions, c.token = token ∧ c.complete = some dial

/-- The reactor after some of its work: no dial has come in, and the log has only spoken of
sockets. -/
structure Within (r r' : Reactor) : Prop where
  holds : ∀ {token dial}, r'.Holds token dial → r.Holds token dial
  dials : r'.dials = r.dials
  log : ∃ es, r'.log = r.log ++ es ∧ ∀ e ∈ es, e.aboutSocket = true

variable {r r' r'' : Reactor} {token : UInt64}

theorem Within.refl (r : Reactor) : Within r r := ⟨id, rfl, [], by simp, by simp⟩

theorem Within.trans (h : Within r r') (h' : Within r' r'') : Within r r'' := by
  obtain ⟨es, hes, hsockets⟩ := h.log
  obtain ⟨es', hes', hsockets'⟩ := h'.log
  refine ⟨fun hh => h.holds (h'.holds hh), h'.dials.trans h.dials, es ++ es', ?_, ?_⟩
  · rw [hes', hes, append_assoc]
  · exact forall_mem_append.mpr ⟨hsockets, hsockets'⟩

/-- The tables and the log are the same. -/
theorem within_of_eq (hpending : r'.pending = r.pending)
    (hready : r'.readyCompletions = r.readyCompletions) (hdials : r'.dials = r.dials)
    (hlog : r'.log = r.log) : Within r r' := by
  refine ⟨fun {token dial} hh => ?_, hdials, [], by simp [hlog], by simp⟩
  unfold Holds at hh ⊢
  rwa [hpending, hready] at hh

theorem within_emit {e : Effect} (he : e.aboutSocket = true) (r : Reactor) : Within r (r.emit e) :=
  ⟨id, rfl, [e], rfl, by simpa using he⟩

/-- An update may drop the callback of a dial but not change its name. -/
theorem within_update (r : Reactor) (token : UInt64) {f : DialState → DialState}
    (hf : ∀ s, (f s).token = s.token ∧ ∀ dial, (f s).request.complete = some dial →
      s.request.complete = some dial) :
    Within r (r.update token f) := by
  refine ⟨?_, rfl, [], by simp [update], by simp⟩
  rintro t dial (⟨s', hs', hname, hc⟩ | hready)
  · obtain ⟨s, hs, rfl⟩ := mem_map.mp hs'
    refine .inl ⟨s, hs, ?_⟩
    split at hname
    · rw [if_pos ‹_›] at hc
      exact ⟨(hf s).1.symm.trans hname, (hf s).2 dial hc⟩
    · rw [if_neg ‹_›] at hc
      exact ⟨hname, hc⟩
  · exact .inr hready

theorem within_erase (r : Reactor) (token : UInt64) : Within r (r.erase token) := by
  refine ⟨?_, rfl, [], by simp [erase], by simp⟩
  rintro t dial (⟨s, hs, h⟩ | hready)
  · exact .inl ⟨s, (mem_filter.mp hs).1, h⟩
  · exact .inr hready

theorem find_eq_some {s : DialState} (h : r.find token = some s) :
    s ∈ r.pending ∧ s.token = token :=
  ⟨mem_of_find?_eq_some h, by simpa using find?_some h⟩

/-- A pending dial turns into a ready completion. -/
theorem within_ready {s : DialState} (h : r.find token = some s) (h' : Within r r')
    (result : DialResult) :
    Within r { r' with readyCompletions := r'.readyCompletions ++
      [{ token, complete := s.request.complete, result }] } := by
  refine ⟨?_, h'.dials, h'.log⟩
  rintro t dial (hpending | ⟨c, hc, hname, hcomplete⟩)
  · exact h'.holds (.inl hpending)
  · rcases mem_append.mp hc with hc | hc
    · exact h'.holds (.inr ⟨c, hc, hname, hcomplete⟩)
    · obtain rfl := mem_singleton.mp hc
      exact .inl ⟨s, (find_eq_some h).1, (find_eq_some h).2.trans hname, hcomplete⟩

/-! ### The work of the reactor -/

theorem within_unregister (r : Reactor) (token : UInt64) : Within r (r.unregister token) := by
  have hremove : ∀ fd, Within r (r.removeSocket fd) := fun fd => within_of_eq rfl rfl rfl rfl
  unfold unregister
  split
  · exact .refl r
  · split
    · split
      · exact (hremove _).trans (within_update _ token (by simp))
      · exact .refl r
    · exact .refl r

theorem within_closeOwnedSocket (r : Reactor) (token : UInt64) :
    Within r (r.closeOwnedSocket token) := by
  unfold closeOwnedSocket
  split
  · exact .refl r
  · exact (within_emit rfl r).trans (within_update _ token (by simp))

theorem within_cleanupConnect (r : Reactor) (token : UInt64) : Within r (r.cleanupConnect token) :=
  (within_unregister r token).trans (within_closeOwnedSocket _ token)

theorem within_cleanupState (r : Reactor) (token : UInt64) (suppress : Bool) :
    Within r (r.cleanupState token suppress) := by
  have hcancel : ∀ (q : Reactor) (id : UInt64), Within q (q.cancelResolve id) := by
    intro q id
    unfold cancelResolve
    split
    · exact .refl q
    · exact within_of_eq rfl rfl rfl rfl
  have hsuppress : Within r (if suppress then
      r.update token fun s =>
        { s with request := { s.request with complete := none } } else r) := by
    split
    · exact within_update r token (by simp)
    · exact .refl r
  unfold cleanupState
  split
  · exact .refl r
  · exact hsuppress.trans ((hcancel _ _).trans
      ((within_update _ token (by simp)).trans (within_cleanupConnect _ token)))

theorem within_complete (r : Reactor) (token : UInt64) (error : Protocol.OpenError) :
    Within r (r.complete token error) := by
  unfold complete
  split
  · exact .refl r
  next s hs =>
    have hgone : Within r ((r.cleanupState token false).erase token) :=
      (within_cleanupState r token false).trans (within_erase _ token)
    dsimp only
    split
    · exact within_ready hs hgone _
    · exact hgone

theorem within_completeConnected (r : Reactor) (token : UInt64) :
    Within r (r.completeConnected token) := by
  unfold completeConnected
  split
  · exact .refl r
  next s hs =>
    have hgone : Within r ((r.unregister token).erase token) :=
      (within_unregister r token).trans (within_erase _ token)
    dsimp only
    split
    · exact within_ready hs hgone _
    · split
      · exact hgone.trans (within_emit rfl _)
      · exact hgone

theorem within_recordInternalFailure (r : Reactor) (token : UInt64) :
    Within r (r.recordInternalFailure token) := by
  unfold recordInternalFailure
  exact within_update r token (by simp)

theorem within_recordConnectFailure (r : Reactor) (token : UInt64) (error : ConnectError) :
    Within r (r.recordConnectFailure token error) := by
  unfold recordConnectFailure
  cases error with
  | refused | timeoutLike => exact within_update r token (by simp)
  | other => exact within_recordInternalFailure r token

theorem within_takeAttempt (r : Reactor) : Within r r.takeAttempt.2 := by
  unfold takeAttempt
  split <;> exact within_of_eq rfl rfl rfl rfl

/-- By recursion on the candidates that are left: each attempt ends the loop or goes on with the
rest. -/
theorem within_attemptCandidates (token : UInt64) (addrs : List SockAddr) (r : Reactor) :
    Within r (attemptCandidates token addrs r) := by
  induction addrs generalizing r with
  | nil =>
    unfold attemptCandidates
    split
    · exact .refl r
    · exact within_complete r token _
  | cons addr rest ih =>
    have hnext :
        Within r (r.update token fun s => { s with nextCandidate := s.nextCandidate + 1 }) :=
      within_update r token (by simp)
    have hopened : ∀ (q : Reactor) (fd : Fd),
        Within q ((q.emit (.socketOpened fd)).emit (.connecting fd addr)) :=
      fun q fd => (within_emit rfl q).trans (within_emit rfl _)
    unfold attemptCandidates
    dsimp only
    split
    · exact hnext.trans (ih _)
    · refine hnext.trans ((within_takeAttempt _).trans ?_)
      split
      · exact (within_recordInternalFailure _ token).trans (ih _)
      · exact (within_emit rfl _).trans
          ((within_recordInternalFailure _ token).trans ((within_emit rfl _).trans (ih _)))
      · exact (hopened _ _).trans
          ((within_update _ token (by simp)).trans (within_completeConnected _ token))
      · exact (hopened _ _).trans
          ((within_recordConnectFailure _ token _).trans ((within_emit rfl _).trans (ih _)))
      · split
        · exact (hopened _ _).trans
            ((within_update _ token (by simp)).trans (within_of_eq rfl rfl rfl rfl))
        · exact (hopened _ _).trans ((within_update _ token (by simp)).trans
            ((within_emit rfl _).trans (within_complete _ token _)))

theorem within_startNextAttempt (r : Reactor) (token : UInt64) :
    Within r (r.startNextAttempt token) := by
  unfold startNextAttempt
  split
  · exact .refl r
  · exact (within_cleanupConnect r token).trans (within_attemptCandidates token _ _)

theorem within_onResolved (r : Reactor) (token : UInt64) (addresses : List SockAddr)
    (literal : Bool) :
    Within r (r.onResolved token addresses literal) := by
  unfold onResolved
  split
  · exact .refl r
  · split
    · exact within_complete r token _
    · exact (within_update r token (by simp)).trans (within_startNextAttempt _ token)

theorem within_onConnectReady (r : Reactor) (token : UInt64) (fd : Fd) (status : SocketStatus) :
    Within r (r.onConnectReady token fd status) := by
  unfold onConnectReady
  split
  · exact .refl r
  · split
    · exact .refl r
    · refine (within_unregister r token).trans ?_
      cases status with
      | unreadable =>
        exact (within_recordInternalFailure _ token).trans
          ((within_closeOwnedSocket _ token).trans (within_startNextAttempt _ token))
      | connected => exact within_completeConnected _ token
      | failed error =>
        exact (within_recordConnectFailure _ token error).trans
          ((within_closeOwnedSocket _ token).trans (within_startNextAttempt _ token))

theorem within_onDnsResult (r : Reactor) (token : UInt64) (result : DnsResult) :
    Within r (r.onDnsResult token result) := by
  have hran : Within r (r.update token fun s => { s with dnsCallbackRan := true, dnsId := 0 }) :=
    within_update r token (by simp)
  unfold onDnsResult
  split
  · exact .refl r
  · refine hran.trans ?_
    split
    · exact within_complete _ token _
    · exact within_onResolved _ token _ _

theorem within_foldl {α : Type} {f : Reactor → α → Reactor} (h : ∀ q a, Within q (f q a))
    (l : List α) (r : Reactor) :
    Within r (l.foldl f r) := by
  induction l generalizing r with
  | nil => exact .refl r
  | cons a l ih => exact (h r a).trans (ih _)

theorem within_expireAttempts (r : Reactor) (now : Nat) : Within r (r.expireAttempts now) := by
  refine (within_of_eq rfl rfl rfl rfl : Within r { r with now }).trans (within_foldl ?_ _ _)
  intro q token
  split
  · exact .refl q
  · exact (within_update q token (by simp)).trans
      ((within_cleanupConnect _ token).trans (within_startNextAttempt _ token))

theorem within_deliver (r : Reactor) (results : List (UInt64 × DnsResult)) :
    Within r (r.deliver results) := by
  refine within_foldl ?_ _ _
  intro q a
  have hquery : Within q { q with queries := q.queries.filter (·.1 ≠ a.1) } :=
    within_of_eq rfl rfl rfl rfl
  dsimp only
  split
  · exact .refl q
  · exact hquery.trans (within_onDnsResult _ _ _)

theorem within_dispatch (r : Reactor) (ready : List (Fd × SocketStatus)) :
    Within r (r.dispatch ready) := by
  refine within_foldl ?_ _ _
  intro q a
  dsimp only
  split
  · exact .refl q
  · exact within_onConnectReady q _ _ _

theorem within_runOnce (r : Reactor) (io : Io) : Within r (r.runOnce io) := by
  unfold runOnce
  split
  · exact (within_deliver _ _).trans ((within_expireAttempts _ _).trans
      ((within_dispatch _ _).trans ((within_deliver _ _).trans (within_expireAttempts _ _))))
  · exact .refl r

theorem within_stop (r : Reactor) : Within r r.stop := by
  have hclean := within_foldl (f := fun q s => q.cleanupState s.token true)
    (fun q s => within_cleanupState q s.token true) r.pending r
  refine hclean.trans ⟨?_, rfl, [], by simp [stop], by simp⟩
  rintro t dial (⟨s, hs, _⟩ | hready)
  · cases hs
  · exact .inr hready

/-! ### Submitting and cancelling -/

theorem readyCompletions_cleanupConnect (r : Reactor) (token : UInt64) :
    (r.cleanupConnect token).readyCompletions = r.readyCompletions := by
  have hunregister : (r.unregister token).readyCompletions = r.readyCompletions := by
    unfold unregister
    split
    · rfl
    · split
      · split <;> rfl
      · rfl
  unfold cleanupConnect closeOwnedSocket
  split <;> exact hunregister

theorem readyCompletions_cancel (r : Reactor) (token : UInt64) :
    (r.cancel token).readyCompletions = r.readyCompletions := by
  have hresolve :
      ∀ (q : Reactor) (id : UInt64),
      (q.cancelResolve id).readyCompletions = q.readyCompletions := by
    intro q id
    unfold cancelResolve
    split <;> rfl
  unfold cancel
  split
  · rfl
  next s hs =>
    show (r.cleanupState token true).readyCompletions = r.readyCompletions
    unfold cleanupState
    rw [hs]
    dsimp only
    rw [readyCompletions_cleanupConnect]
    exact hresolve _ _

theorem within_cancel (r : Reactor) (token : UInt64) : Within r (r.cancel token) := by
  unfold cancel
  split
  · exact .refl r
  · exact (within_cleanupState r token true).trans (within_erase _ token)

/-- A cancelled token is not pending any more. -/
theorem pending_cancel {s : DialState} (h : s ∈ (r.cancel token).pending) : s.token ≠ token := by
  unfold cancel at h
  split at h
  next hnone => simpa using find?_eq_none.mp hnone s h
  · simpa using (mem_filter.mp h).2

theorem within_submitResolved (r : Reactor) (token dnsId : UInt64) :
    Within r (r.submitResolved token dnsId).1 := by
  unfold submitResolved
  split
  · exact .refl r
  · split
    · exact .refl r
    · split
      · exact (within_cleanupState r token true).trans (within_erase _ token)
      · exact within_update r token (by simp)

end Reactor

/-! ### The threads -/

variable {θ : Type} [DecidableEq θ] {s s' : System θ}

/-- The call will run the callback of this dial. -/
def Call.Carries (token : UInt64) (dial : Nat) : Call → Prop
  | .runCompletion c => c.token = token ∧ c.complete = some dial
  | _ => False

/-- The dial is in the reactor or in the batch of a thread. -/
def Held (s : System θ) (token : UInt64) (dial : Nat) : Prop :=
  s.shared.Holds token dial ∨ s.Outstanding (Call.Carries token dial)

/-- The call will run a completion under this token. -/
def Call.isFor (token : UInt64) : Call → Bool
  | .runCompletion c => c.token = token
  | _ => false

/-- No completion under this token waits for its callback. -/
def NoneWaiting (s : System θ) (token : UInt64) : Prop :=
  (∀ c ∈ s.shared.readyCompletions, c.token ≠ token) ∧ s.All fun call => call.isFor token = false

instance [Fintype θ] (s : System θ) (token : UInt64) : Decidable (NoneWaiting s token) :=
  inferInstanceAs (Decidable ((∀ c ∈ s.shared.readyCompletions, c.token ≠ token) ∧
    ∀ t, ∀ call ∈ s.calls t, call.isFor token = false))

def Call.cancelled : Call → Option UInt64
  | .cancel token => some token
  | _ => none

/-- A `Cancel` is made only while no completion under its token waits. -/
def CancelsInTime (s : System θ) : Action θ → Prop
  | .enter _ _ => True
  | .call thread _ => ∀ token ∈ (s.calls thread).head?.bind Call.cancelled, NoneWaiting s token

instance [Fintype θ] (s : System θ) : (a : Action θ) → Decidable (CancelsInTime s a)
  | .enter _ _ => isTrue trivial
  | .call thread _ =>
    match h : (s.calls thread).head?.bind Call.cancelled with
    | none => isTrue (by simp [CancelsInTime, h])
    | some token => decidable_of_iff (NoneWaiting s token) (by simp [CancelsInTime, h])

/-- What one step does to the dials and to the log. -/
inductive Progress (s s' : System θ) : Prop where
  | quiet (es : List Effect) (hes : ∀ e ∈ es, e.aboutSocket = true)
      (hlog : s'.shared.log = s.shared.log ++ es)
      (hdials : s'.shared.dials = s.shared.dials)
      (hheld : ∀ token dial, Held s' token dial → Held s token dial)
  | submitted (token : UInt64) (es : List Effect) (hes : ∀ e ∈ es, e.aboutSocket = true)
      (hlog : s'.shared.log = s.shared.log ++ [.submitted token s.shared.dials] ++ es)
      (hdials : s'.shared.dials = s.shared.dials + 1)
      (hheld : ∀ t dial, Held s' t dial → Held s t dial ∨ t = token ∧ dial = s.shared.dials)
  | cancelled (token : UInt64) (es : List Effect) (hes : ∀ e ∈ es, e.aboutSocket = true)
      (hlog : s'.shared.log = s.shared.log ++ es ++ [.cancelReturned token])
      (hdials : s'.shared.dials = s.shared.dials)
      (hheld : ∀ t dial, Held s' t dial → Held s t dial)
      (hgone : ∀ dial, ¬ Held s' token dial)
  | called (token : UInt64) (dial : Nat) (result : DialResult) (hdial : Held s token dial)
      (hlog : s'.shared.log = s.shared.log ++ [.callbackStarted dial result])
      (hdials : s'.shared.dials = s.shared.dials)
      (hheld : ∀ t dial, Held s' t dial → Held s t dial)

variable {r : Reactor} {cs rest : List Call} {c : Call} {thread : θ}

section

variable (hcalls : s.calls thread = c :: rest)
include hcalls

theorem held_advance {token : UInt64} {dial : Nat}
    (h : Held ({ s with shared := r }.setCalls thread (cs ++ rest)) token dial) :
    r.Holds token dial ∨ (∃ c ∈ cs, c.Carries token dial) ∨
      s.Outstanding (Call.Carries token dial) := by
  rcases h with hr | hcall
  · exact .inl hr
  · refine .inr (hcall.of_setCalls fun c hc => ?_)
    rcases mem_append.mp hc with hnew | hold
    · exact .inl hnew
    · exact .inr (hcalls ▸ mem_cons_of_mem _ hold)

/-- A call that keeps to the dials of the reactor and is followed by calls without a callback. -/
theorem progress_of_within (h : Reactor.Within s.shared r)
    (hcs : ∀ c ∈ cs, ∀ token dial, ¬ c.Carries token dial) :
    Progress s ({ s with shared := r }.setCalls thread (cs ++ rest)) := by
  obtain ⟨es, hlog, hes⟩ := h.log
  refine .quiet es hes hlog h.dials fun token dial hheld => ?_
  rcases held_advance hcalls hheld with hr | ⟨c, hc, hcarries⟩ | hcall
  · exact .inl (h.holds hr)
  · exact absurd hcarries (hcs c hc token dial)
  · exact .inr hcall

/-- A submitted dial is the only one that comes in. -/
theorem progress_insertDial {r' : Reactor} {state : DialState} (hr : Reactor.Within s.shared r)
    (hlog : r.log = s.shared.log) (hstate : state.request.complete = some r.dials)
    (hr' : Reactor.Within (r.insertDial state) r')
    (hcs : ∀ c ∈ cs, ∀ token dial, ¬ c.Carries token dial) :
    Progress s ({ s with shared := r' }.setCalls thread (cs ++ rest)) := by
  obtain ⟨es, hlog', hes⟩ := hr'.log
  refine .submitted state.token es hes ?_ ?_ fun t dial hheld => ?_
  · rw [Machine.Pool.setCalls_shared, hlog', insertDial, hlog, hr.dials]
  · exact hr'.dials.trans (congrArg (· + 1) hr.dials)
  · rcases held_advance hcalls hheld with hh | ⟨c, hc, hcarries⟩ | hcall
    · rcases hr'.holds hh with ⟨d, hd, hname, hcomplete⟩ | hready
      · rcases mem_append.mp hd with hd | hd
        · exact .inl (.inl (hr.holds (.inl ⟨d, hd, hname, hcomplete⟩)))
        · obtain rfl := mem_singleton.mp hd
          exact .inr ⟨hname.symm, (Option.some.inj (hcomplete.symm.trans hstate)).trans hr.dials⟩
      · exact .inl (.inl (hr.holds (.inr hready)))
    · exact absurd hcarries (hcs c hc t dial)
    · exact .inl (.inr hcall)

end

attribute [local simp] Call.Carries Reactor.execute

theorem progress_submit (hcalls : s.calls thread = c :: rest) (io : Io)
    (host : Bytes) (port : UInt16) (bypass hasComplete : Bool) :
    Progress s ({ s with
      shared := (s.shared.execute io (.submit host port bypass hasComplete)).1 }.setCalls thread
        ((s.shared.execute io (.submit host port bypass hasComplete)).2 ++ rest)) := by
  have hbegin : Reactor.Within s.shared { s.shared with attempts := io.attempts, now := io.now } :=
    within_of_eq rfl rfl rfl rfl
  simp only [Reactor.execute, Reactor.submit]
  split
  · exact progress_of_within hcalls hbegin (by simp)
  · split
    · exact progress_insertDial hcalls hbegin rfl rfl (Reactor.Within.refl _) (by simp)
    · exact progress_insertDial hcalls hbegin rfl rfl (within_onResolved _ _ _ _) (by simp)

theorem progress_cancel {token : UInt64}
    (hcalls : s.calls thread = .cancel token :: rest) (hnone : NoneWaiting s token) (io : Io) :
    Progress s ({ s with shared := (s.shared.execute io (.cancel token)).1 }.setCalls thread
      ((s.shared.execute io (.cancel token)).2 ++ rest)) := by
  have hbegin : Reactor.Within s.shared { s.shared with attempts := io.attempts, now := io.now } :=
    within_of_eq rfl rfl rfl rfl
  have hwithin := hbegin.trans (within_cancel _ token)
  obtain ⟨es, hlog, hes⟩ := hwithin.log
  refine .cancelled token es hes (congrArg (fun l => l ++ [Effect.cancelReturned token]) hlog)
    hwithin.dials ?_ ?_
  · intro t dial hheld
    rcases held_advance hcalls hheld with hr | ⟨c, hc, _⟩ | hcall
    · exact .inl (hwithin.holds hr)
    · cases hc
    · exact .inr hcall
  · obtain ⟨hready, hbatch⟩ := hnone
    intro dial hheld
    rcases held_advance hcalls
      hheld with (⟨d, hd, hname, _⟩ | ⟨c, hc, hname, _⟩) | ⟨c, hc, _⟩ | ⟨u, c, hc, hcarries⟩
    · exact pending_cancel hd hname
    · have hmem : c ∈ s.shared.readyCompletions := by
        have hkeep :=
          readyCompletions_cancel { s.shared with attempts := io.attempts, now := io.now } token
        exact hkeep ▸ hc
      exact hready c hmem hname
    · cases hc
    · cases c with
      | runCompletion completion => exact absurd hcarries.1 (of_decide_eq_false (hbatch u _ hc))
      | _ => exact hcarries

theorem progress_drain (hcalls : s.calls thread = c :: rest) (io : Io) :
    Progress s ({ s with shared := (s.shared.execute io .drain).1 }.setCalls thread
      ((s.shared.execute io .drain).2 ++ rest)) := by
  simp only [Reactor.execute, drain]
  split
  · exact progress_of_within hcalls (within_of_eq rfl rfl rfl rfl) (by simp)
  · refine .quiet [] (by simp) (by simp) rfl fun token dial hheld => ?_
    rcases held_advance hcalls hheld with (hpending | ⟨c, hc, _⟩) | ⟨c, hc, hcarries⟩ | hcall
    · exact .inl (.inl hpending)
    · cases hc
    · rcases mem_append.mp hc with hc | hc
      · obtain ⟨completion, hmem, rfl⟩ := mem_map.mp hc
        exact .inl (.inr ⟨completion, hmem, hcarries⟩)
      · obtain rfl := mem_singleton.mp hc
        exact absurd hcarries (by simp)
    · exact .inr hcall

theorem progress_runCompletion {completion : ReadyCompletion}
    (hcalls : s.calls thread = .runCompletion completion :: rest) (io : Io) :
    Progress s
      ({ s with shared := (s.shared.execute io (.runCompletion completion)).1 }.setCalls thread
        ((s.shared.execute io (.runCompletion completion)).2 ++ rest)) := by
  have hbegin : Reactor.Within s.shared { s.shared with attempts := io.attempts, now := io.now } :=
    within_of_eq rfl rfl rfl rfl
  simp only [Reactor.execute, runCompletion]
  split
  next dial hdial =>
    have hhead : completion.token = completion.token ∧ completion.complete = some dial :=
      ⟨rfl, hdial⟩
    refine .called completion.token dial completion.result
      (.inr ⟨thread, .runCompletion completion, hcalls ▸ mem_cons_self, hhead⟩)
      rfl rfl fun t d hheld => ?_
    rcases held_advance hcalls hheld with hr | ⟨c, hc, _⟩ | hcall
    · exact .inl hr
    · cases hc
    · exact .inr hcall
  · split
    · exact progress_of_within hcalls (hbegin.trans (within_emit rfl _)) (by simp)
    · exact progress_of_within hcalls hbegin (by simp)

theorem progress_step {a : Action θ} (hcond : CancelsInTime s a) (h : step s a = some s') :
    Progress s s' := by
  cases a with
  | enter thread call =>
    simp only [step] at h
    split at h
    next hentry =>
      obtain ⟨_, rfl⟩ := Machine.Pool.enter_eq_some h
      refine .quiet [] (by simp) (by simp) rfl fun token dial hheld => ?_
      rcases hheld with hr | hcall
      · exact .inl hr
      · rcases hcall.of_setCalls fun c hc => .inl hc with ⟨c, hc, hcarries⟩ | hcall
        · obtain rfl := mem_singleton.mp hc
          cases c <;> first | exact absurd hcarries id | cases hentry
        · exact .inr hcall
    · cases h
  | call thread io =>
    simp only [step] at h
    obtain ⟨c, rest, hcalls, rfl⟩ := Machine.Pool.advance_eq_some h
    have hbegin :
        Reactor.Within s.shared { s.shared with attempts := io.attempts, now := io.now } :=
      within_of_eq rfl rfl rfl rfl
    cases c with
    | submit host port bypass hasComplete =>
      exact progress_submit hcalls io host port bypass hasComplete
    | resolve token =>
      simp only [Reactor.execute, resolve]
      split <;>
        exact progress_of_within hcalls (within_of_eq rfl rfl rfl rfl) (by simp)
    | submitResolved token dnsId =>
      refine progress_of_within hcalls (hbegin.trans (within_submitResolved _ token dnsId)) ?_
      simp only [Reactor.execute, submitResolved]
      repeat' split
      all_goals simp
    | cancel token =>
      refine progress_cancel hcalls (hcond token ?_) io
      rw [hcalls]
      rfl
    | runOnce =>
      exact progress_of_within hcalls (hbegin.trans (within_runOnce _ io))
        (by simp)
    | start => exact progress_of_within hcalls (within_of_eq rfl rfl rfl rfl) (by simp)
    | stop => exact progress_of_within hcalls (hbegin.trans (within_stop _)) (by simp)
    | updateAcl acl =>
      exact progress_of_within hcalls (within_of_eq rfl rfl rfl rfl) (by simp)
    | drain => exact progress_drain hcalls io
    | runCompletion completion => exact progress_runCompletion hcalls io

/-! ### Cancellation over whole runs -/

/-- The dials that are held and what the log says of them. -/
structure Tracks (w : Watch) (dials : Nat) (held : UInt64 → Nat → Prop) : Prop where
  issued : ∀ {token dial}, held token dial → (token, dial) ∈ w.issued
  fresh : ∀ {token dial}, (token, dial) ∈ w.issued → dial < dials
  unique : ∀ {token other dial}, (token, dial) ∈ w.issued → (other, dial) ∈ w.issued → token = other
  known : ∀ {dial}, dial ∈ w.cancelled → ∃ token, (token, dial) ∈ w.issued
  dead : ∀ {token dial}, held token dial → dial ∉ w.cancelled
  final : w.late = []

section Tracks

variable {w : Watch} {dials : Nat} {held held' : UInt64 → Nat → Prop}

section

variable (h : Tracks w dials held)
include h

theorem Tracks.mono (hheld : ∀ token dial, held' token dial → held token dial) :
    Tracks w dials held' :=
  ⟨fun hd => h.issued (hheld _ _ hd), h.fresh, h.unique, h.known,
    fun hd => h.dead (hheld _ _ hd), h.final⟩

/-- A new dial has a number of its own, so that nothing that is known speaks of it. -/
theorem Tracks.submit (token : UInt64) :
    Tracks (w.note (.submitted token dials)) (dials + 1) fun t dial => held t dial ∨
      t = token ∧ dial = dials := by
  constructor
  · rintro t dial (hd | ⟨rfl, rfl⟩)
    · exact mem_cons_of_mem _ (h.issued hd)
    · exact mem_cons_self
  · intro t dial hmem
    rcases mem_cons.mp hmem with heq | hmem
    · cases heq
      exact Nat.lt_succ_self _
    · exact Nat.lt_succ_of_lt (h.fresh hmem)
  · intro t other dial ht hother
    rcases mem_cons.mp ht with heq | ht <;> rcases mem_cons.mp hother with heq' | hother
    · exact (Prod.mk.inj heq).1.trans (Prod.mk.inj heq').1.symm
    · exact absurd (h.fresh hother) (by rw [(Prod.mk.inj heq).2]; exact Nat.lt_irrefl _)
    · exact absurd (h.fresh ht) (by rw [(Prod.mk.inj heq').2]; exact Nat.lt_irrefl _)
    · exact h.unique ht hother
  · intro dial hdial
    obtain ⟨t, ht⟩ := h.known hdial
    exact ⟨t, mem_cons_of_mem _ ht⟩
  · rintro t dial (hd | ⟨rfl, rfl⟩)
    · exact h.dead hd
    · intro hcancelled
      obtain ⟨t, ht⟩ := h.known hcancelled
      exact Nat.lt_irrefl _ (h.fresh ht)
  · exact h.final

/-- The dial that the token names may be counted as cancelled, since it is not held. -/
theorem Tracks.cancel {token : UInt64} (hgone : ∀ dial, ¬ held token dial) :
    Tracks (w.note (.cancelReturned token)) dials held := by
  cases hfind : w.issued.find? (·.1 = token) with
  | none =>
    have hw : w.note (.cancelReturned token) = w := by simp only [Watch.note, hfind]
    rwa [hw]
  | some entry =>
    obtain ⟨name, dial⟩ := entry
    have hname : name = token := by simpa using find?_some hfind
    have hentry : (token, dial) ∈ w.issued := hname ▸ mem_of_find?_eq_some hfind
    have hw : w.note (.cancelReturned token) = { w with cancelled := dial :: w.cancelled } := by
      simp only [Watch.note, hfind]
    rw [hw]
    refine ⟨h.issued, h.fresh, h.unique, ?_, ?_, h.final⟩
    · intro d hd
      rcases mem_cons.mp hd with rfl | hd
      · exact ⟨token, hentry⟩
      · exact h.known hd
    · intro t d hd hcancelled
      rcases mem_cons.mp hcancelled with rfl | hcancelled
      · obtain rfl := h.unique (h.issued hd) hentry
        exact hgone d hd
      · exact h.dead hd hcancelled

theorem Tracks.call {token : UInt64} {dial : Nat} (hdial : held token dial)
    (result : DialResult) : Tracks (w.note (.callbackStarted dial result)) dials held := by
  have hw : w.note (.callbackStarted dial result) = w := if_neg (h.dead hdial)
  rwa [hw]

end
end Tracks

def Tracked (s : System θ) : Prop := Tracks (watch s.shared.log) s.shared.dials (Held s)

theorem tracked_step {a : Action θ} (htracked : Tracked s) (hcond : CancelsInTime s a)
    (h : step s a = some s') :
    Tracked s' := by
  unfold Tracked at htracked ⊢
  cases progress_step hcond h with
  | quiet es hes hlog hdials hheld =>
    rw [hlog, hdials, watch_append_sockets hes]
    exact htracked.mono hheld
  | submitted token es hes hlog hdials hheld =>
    rw [hlog, hdials, watch_append_sockets hes, watch_concat]
    exact (htracked.submit token).mono hheld
  | cancelled token es hes hlog hdials hheld hgone =>
    rw [hlog, hdials, watch_concat, watch_append_sockets hes]
    exact (htracked.mono hheld).cancel hgone
  | called token dial result hdial hlog hdials hheld =>
    rw [hlog, hdials, watch_concat]
    exact (htracked.call hdial result).mono hheld

omit [DecidableEq θ] in
theorem tracked_start (inet : Inet) (acl : Rules) : Tracked (start θ inet acl) := by
  have hheld : ∀ token dial, ¬ Held (start θ inet acl) token dial := by
    rintro token dial ((⟨_, hd, _⟩ | ⟨_, hc, _⟩) | ⟨_, _, hc, _⟩)
    · cases hd
    · cases hc
    · cases hc
  exact ⟨fun h => absurd h (hheld _ _), nofun, nofun, nofun, fun h => absurd h (hheld _ _), rfl⟩

theorem cancel_is_final_in_time (θ : Type) [DecidableEq θ] (inet : Inet) (acl : Rules)
    (actions : List (Action θ)) (s : System θ)
    (hmeets : Machine.Meets step CancelsInTime (start θ inet acl) actions)
    (hrun : Machine.run step (start θ inet acl) actions = some s) : CancelIsFinal s.shared.log :=
  (Machine.invariant_of_meets (fun _ _ _ h hcond hstep => tracked_step h hcond hstep)
    (tracked_start inet acl)
    hmeets hrun).final

/-- A caller and the worker of the reactor: a connect to 127.0.0.1 is in progress. -/
def connectingDial : List (Action Bool) :=
  let io : Io :=
    { attempts := [.inProgress 7 true], now := 0, dns := [], ready := [], dnsLate := [],
      later := 0 }
  [.enter false .start, .call false io, .enter false (.submit (ascii "127.0.0.1") 80 false true),
    .call false io,
    .call false io]

def loopbackRules : Rules := { allowCidrs := [ascii "127.0.0.0/8"], denyCidrs := [] }

def idleIo : Io := { attempts := [], now := 0, dns := [], ready := [], dnsLate := [], later := 0 }

/-- The dial is cancelled, then its socket is reported ready. -/
def cancelledDial : List (Action Bool) :=
  connectingDial ++ [.enter false (.cancel 1), .call false idleIo, .enter true .runOnce,
    .call true { idleIo with ready := [(7, .connected)] }, .call true idleIo]

theorem cancelledDial_final :
    ∃ s, Machine.run step (start Bool plainInet.toInet loopbackRules) cancelledDial = some s ∧
      .cancelReturned 1 ∈ s.shared.log ∧ CancelIsFinal s.shared.log := by
  have hmeets :
      Machine.Meets step CancelsInTime (start Bool plainInet.toInet loopbackRules)
      cancelledDial := by
    decide +kernel
  refine Machine.run_observed (f := fun s => decide (.cancelReturned 1 ∈ s.shared.log))
    (o := true) (by decide +kernel) fun s hrun hs => ?_
  exact ⟨of_decide_eq_true hs, cancel_is_final_in_time Bool _ _ _ s hmeets hrun⟩

/-- The socket is reported ready, and the dial is cancelled before the worker drains the ready
list. -/
def lateDial : List (Action Bool) :=
  connectingDial ++ [.enter true .runOnce, .call true { idleIo with ready := [(7, .connected)] },
    .enter false (.cancel 1), .call false idleIo, .call true idleIo, .call true idleIo]

theorem lateDial_not_final :
    ¬ ∀ s, Machine.run step (start Bool plainInet.toInet loopbackRules) lateDial = some s →
      CancelIsFinal s.shared.log := by
  intro h
  have hlog : (Machine.run step (start Bool plainInet.toInet loopbackRules) lateDial).map
      (fun s => decide (CancelIsFinal s.shared.log)) = some false := by
    decide +kernel
  obtain ⟨s, hrun, hs⟩ := Option.map_eq_some_iff.mp hlog
  exact of_decide_eq_false hs (h s hrun)

end TcpQuicProxy.Dial
