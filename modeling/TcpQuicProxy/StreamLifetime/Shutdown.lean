import TcpQuicProxy.Machine.Run

/-!
# Shutdown requests of a stream owner

`TqStreamLifetime::RequestShutdown` merges a request into what is desired of the
stream, reserves what is neither submitted nor reserved yet, and calls MsQuic
without its lock. Between the two critical sections a call is in flight, and any
number of calls may be. A call that finds everything reserved by others returns
success at once.
-/

namespace TcpQuicProxy.StreamLifetime

open List Option

inductive ShutdownIntent where
  | gracefulSend
  | abortSend
  | abortReceive
  | abortBoth
  | abortBothImmediate
  deriving DecidableEq

/-- `QUIC_STREAM_SHUTDOWN_FLAGS`. -/
structure ShutdownFlags where
  graceful : Bool := false
  abortSend : Bool := false
  abortReceive : Bool := false
  immediate : Bool := false
  deriving DecidableEq

/-- The combinations that MsQuic takes. -/
def ShutdownFlags.legal (f : ShutdownFlags) : Bool :=
  (!f.graceful || !(f.abortSend || f.abortReceive || f.immediate)) &&
    (!f.immediate || f.abortSend && f.abortReceive)

/-- How far the two directions are to be shut down: a send direction is open (0),
to be closed gracefully (1) or to be aborted (2). -/
structure Strength where
  send : Nat := 0
  receive : Bool := false
  immediate : Bool := false
  deriving DecidableEq

def ShutdownIntent.strength : ShutdownIntent → Strength
  | .gracefulSend => { send := 1 }
  | .abortSend => { send := 2 }
  | .abortReceive => { receive := true }
  | .abortBoth => { send := 2, receive := true }
  | .abortBothImmediate => { send := 2, receive := true, immediate := true }

/-- A call of `RequestShutdown` between its critical sections: what it asks MsQuic
for, and which reservations are its own. -/
structure ShutdownCall where
  intent : ShutdownIntent
  request : Strength := {}
  ownsSendReservation : Bool := false
  ownsReceiveReservation : Bool := false
  ownsImmediateReservation : Bool := false
  deriving DecidableEq

def ShutdownCall.flags (c : ShutdownCall) : ShutdownFlags where
  graceful := c.request.send == 1
  abortSend := c.request.send == 2
  abortReceive := c.request.receive
  immediate := c.request.immediate

/-- The `Desired`, `Submitted` and `Reserved` members of the owner. -/
structure ShutdownLedger where
  desired : Strength := {}
  submitted : Strength := {}
  reserved : Strength := {}
  deriving DecidableEq

namespace ShutdownLedger

variable (l : ShutdownLedger)

def desire : ShutdownIntent → ShutdownLedger
  | .gracefulSend => { l with desired.send := if l.desired.send < 1 then 1 else l.desired.send }
  | .abortSend => { l with desired.send := 2 }
  | .abortReceive => { l with desired.receive := true }
  | .abortBothImmediate => { l with desired := { send := 2, receive := true, immediate := true } }
  | .abortBoth => { l with desired := { l.desired with send := 2, receive := true } }

def wantsSend : Bool := l.submitted.send < l.desired.send && l.reserved.send < l.desired.send

def wantsReceive : Bool := l.desired.receive && !l.submitted.receive && !l.reserved.receive

def wantsImmediate : Bool := l.desired.immediate && !l.submitted.immediate && !l.reserved.immediate

/-- The rest of the first critical section. An immediate abort carries both
directions whoever has reserved them. -/
def reserve (intent : ShutdownIntent) : ShutdownLedger × ShutdownCall :=
  let immediate := intent = .abortBothImmediate && l.wantsImmediate
  let reserved : Strength :=
    { send := if l.wantsSend then l.desired.send else l.reserved.send
      receive := l.wantsReceive || l.reserved.receive
      immediate := immediate || l.reserved.immediate }
  let request : Strength :=
    { send := if immediate then 2 else if l.wantsSend then l.desired.send else 0
      receive := immediate || l.wantsReceive
      immediate := immediate }
  ({ l with reserved },
    { intent, request, ownsSendReservation := l.wantsSend, ownsReceiveReservation := l.wantsReceive,
      ownsImmediateReservation := immediate })

/-- The second critical section, with the answer of MsQuic. -/
def settle (c : ShutdownCall) (succeeded : Bool) : ShutdownLedger :=
  let reserved : Strength :=
    { send := if c.ownsSendReservation &&
      l.reserved.send == c.request.send then 0 else l.reserved.send
      receive := !c.ownsReceiveReservation && l.reserved.receive
      immediate := !c.ownsImmediateReservation && l.reserved.immediate }
  let submitted : Strength :=
    if succeeded then
      { send := if l.submitted.send < c.request.send then c.request.send else l.submitted.send
        receive := c.request.receive || l.submitted.receive
        immediate := c.request.immediate || l.submitted.immediate }
    else l.submitted
  { l with reserved, submitted }

end ShutdownLedger

/-- The owner with the calls in flight, the flags passed to `Shutdown` and those it
accepted, and the intents of the calls that returned success. -/
structure ShutdownRun where
  ledger : ShutdownLedger := {}
  usable : Bool := true
  calls : List ShutdownCall := []
  passed : List ShutdownFlags := []
  accepted : List ShutdownFlags := []
  acknowledged : List ShutdownIntent := []
  deriving DecidableEq

inductive ShutdownRun.Action where
/-- The first part of `RequestShutdown`, up to the call of MsQuic; `CANCEL_ON_LOSS` makes one,
too. -/
  | requestShutdown (intent : ShutdownIntent)
  /-- A call in flight returns from MsQuic. -/
  | settle (index : Nat) (succeeded : Bool)
  | sendShutdownComplete (graceful : Bool)
  /-- The owner leaves the phases `Starting` and `Started`. -/
  | leave
  deriving DecidableEq

/-- All but the event with which MsQuic ends the send direction itself. -/
def ShutdownRun.Action.ofRequest : ShutdownRun.Action → Bool
  | .sendShutdownComplete _ => false
  | _ => true

namespace ShutdownRun

variable (s : ShutdownRun)

def requestShutdown (intent : ShutdownIntent) : ShutdownRun :=
  if !s.usable then s
  else
    let (ledger, call) := (s.ledger.desire intent).reserve intent
    if call.request.send = 0 && !call.request.receive then
      { s with ledger, acknowledged := s.acknowledged ++ [intent] }
    else { s with ledger, calls := s.calls ++ [call], passed := s.passed ++ [call.flags] }

def step (s : ShutdownRun) : Action → Option ShutdownRun
  | .requestShutdown intent => some (s.requestShutdown intent)
  | .settle index succeeded => s.calls[index]?.map fun call =>
      { s with
        ledger := s.ledger.settle call succeeded
        calls := s.calls.eraseIdx index
        accepted := if succeeded then s.accepted ++ [call.flags] else s.accepted
        acknowledged := if succeeded then s.acknowledged ++ [call.intent] else s.acknowledged }
  | .sendShutdownComplete graceful =>
    let level := if graceful then 1 else 2
    some { s with
      ledger.submitted.send :=
        if s.ledger.submitted.send < level then level else s.ledger.submitted.send }
  | .leave => some { s with usable := false }

/-- A request aborts receiving on top of a graceful close whose call has failed, or
closes gracefully on top of a receive abort whose call has failed. -/
def mixes : Action → Bool
  | .requestShutdown .abortReceive =>
    s.usable && s.ledger.desired.send == 1 && s.ledger.submitted.send == 0 &&
      s.ledger.reserved.send == 0 && !s.ledger.submitted.receive && !s.ledger.reserved.receive
  | .requestShutdown .gracefulSend =>
    s.usable && s.ledger.desired.send < 2 && s.ledger.submitted.send == 0 &&
      s.ledger.reserved.send == 0 && s.ledger.wantsReceive
  | _ => false

/-- Nothing beyond an abort is ever desired. -/
structure Bounded (s : ShutdownRun) : Prop where
  desired : s.ledger.desired.send ≤ 2

variable {s t : ShutdownRun} {a : Action}

theorem desired_step (h : s.step a = some t) :
    t.ledger.desired = s.ledger.desired ∨
      ∃ intent, t.ledger.desired = (s.ledger.desire intent).desired := by
  cases a with
  | requestShutdown intent =>
    cases h
    simp only [requestShutdown]
    split_ifs
    · exact .inl rfl
    · exact .inr ⟨intent, rfl⟩
    · exact .inr ⟨intent, rfl⟩
  | settle index succeeded =>
    obtain ⟨call, -, rfl⟩ := map_eq_some_iff.mp h
    exact .inl rfl
  | sendShutdownComplete graceful | leave => exact .inl (some.inj h ▸ rfl)

theorem desired_desire {l : ShutdownLedger} (h : l.desired.send ≤ 2) (intent : ShutdownIntent) :
    (l.desire intent).desired.send ≤ 2 := by
  cases intent <;> simp only [ShutdownLedger.desire] <;> first | omega | (split <;> omega)

theorem Bounded.step (hs : Bounded s) (h : s.step a = some t) : Bounded t := by
  rcases desired_step h with heq | ⟨intent, heq⟩
  · exact ⟨heq ▸ hs.desired⟩
  · exact ⟨heq ▸ desired_desire hs.desired intent⟩

variable {c : ShutdownCall} {accepted : List ShutdownFlags} {x : Strength}

theorem legal_flags (hsend : c.request.send ≤ 2)
    (himmediate : c.request.immediate = true → c.request.send = 2 ∧ c.request.receive = true) :
    c.flags.legal = true ↔ ¬(c.request.send = 1 ∧ c.request.receive = true) := by
  obtain ⟨intent, ⟨send, receive, immediate⟩, _, _, _⟩ := c
  have hlevel : send = 0 ∨ send = 1 ∨ send = 2 := by
    have : send ≤ 2 := hsend
    omega
  rcases hlevel with rfl | rfl | rfl <;> cases receive <;> cases immediate <;>
    simp_all [ShutdownCall.flags, ShutdownFlags.legal]

theorem request_reserve (l : ShutdownLedger) (intent : ShutdownIntent)
    (hdesired : l.desired.send ≤ 2) :
    (l.reserve intent).2.request.send ≤ 2 ∧ ((l.reserve intent).2.request.immediate = true →
      (l.reserve intent).2.request.send = 2 ∧ (l.reserve intent).2.request.receive = true) := by
  simp only [ShutdownLedger.reserve]
  constructor
  · split_ifs <;> omega
  · intro h
    simp only [h, ↓reduceIte, Bool.true_or, and_self]

/-- Only a graceful close and a receive abort that are both due are mixed. -/
theorem mixed_iff (hs : Bounded s) (husable : s.usable = true) (intent : ShutdownIntent) :
    (((s.ledger.desire intent).reserve intent).2.request.send = 1 ∧
      ((s.ledger.desire intent).reserve intent).2.request.receive = true) ↔
        s.mixes (.requestShutdown intent) = true := by
  have hdesired := hs.desired
  cases intent <;>
    simp only [ShutdownLedger.desire, ShutdownLedger.reserve, ShutdownLedger.wantsSend,
      ShutdownLedger.wantsReceive,
      ShutdownLedger.wantsImmediate, mixes, husable] <;> grind

/-- A request passes flags that are not empty, and legal ones unless it mixes. -/
theorem passed_step (hs : Bounded s) (h : s.step a = some t) :
    ∃ new, t.passed = s.passed ++ new ∧
      ((∀ f ∈ new, f.legal = true ∧ f ≠ {}) ↔ s.mixes a = false) := by
  have hnone (hpassed : t.passed = s.passed) (hmixes : s.mixes a = false) :
      ∃ new, t.passed = s.passed ++ new ∧
        ((∀ f ∈ new, f.legal = true ∧ f ≠ {}) ↔ s.mixes a = false) :=
    ⟨[], by simp [hpassed], by simp [hmixes]⟩
  cases a with
  | requestShutdown intent =>
    cases h
    by_cases husable : s.usable = true
    · have hmixed := mixed_iff hs husable intent
      have hdesired : (s.ledger.desire intent).desired.send ≤ 2 := desired_desire hs.desired intent
      obtain ⟨hsend, himmediate⟩ := request_reserve _ intent hdesired
      have hlegal := legal_flags hsend himmediate
      have hpassed : (s.requestShutdown intent).passed = s.passed ++
          if ((s.ledger.desire intent).reserve intent).2.request.send = 0 &&
            !((s.ledger.desire intent).reserve intent).2.request.receive then []
          else [((s.ledger.desire intent).reserve intent).2.flags] := by
        simp only [requestShutdown, husable, Bool.not_true, Bool.false_eq_true, ↓reduceIte]
        split <;> simp
      refine ⟨_, hpassed, ?_⟩
      generalize (s.ledger.desire intent).reserve intent = r at hmixed hlegal hsend
      split
      · rename_i hnothing
        simp only [Bool.and_eq_true, decide_eq_true_eq, Bool.not_eq_true'] at hnothing
        rw [← Bool.not_eq_true, ← hmixed, hnothing.1]
        simp
      · rename_i hsomething
        have hflags : r.2.flags ≠ {} := by
          intro hempty
          simp only [ShutdownCall.flags, ShutdownFlags.mk.injEq, beq_eq_false_iff_ne] at hempty
          simp only [Bool.and_eq_true, decide_eq_true_eq, Bool.not_eq_true'] at hsomething
          exact hsomething ⟨by omega, hempty.2.2.1⟩
        rw [forall_mem_singleton, hlegal, hmixed, Bool.not_eq_true]
        exact and_iff_left hflags
    · refine hnone ?_ ?_
      · simp [requestShutdown, husable]
      · cases intent <;> simp [mixes, husable]
  | settle index succeeded =>
    obtain ⟨call, -, rfl⟩ := map_eq_some_iff.mp h
    exact hnone rfl rfl
  | sendShutdownComplete graceful | leave => exact hnone (some.inj h ▸ rfl) rfl

/-- MsQuic gets legal flags only, and never none, exactly as long as no request mixes
the two directions. -/
theorem passed_flags_legal_iff (actions : List Action)
    (hrun : Machine.run step {} actions = some s) :
    (∀ f ∈ s.passed, f.legal = true ∧ f ≠ {}) ↔
      Machine.Meets step (fun s a => s.mixes a = false) {} actions := by
  have hgood {s t : ShutdownRun} {a : Action} (hs : Bounded s) (h : s.step a = some t) :
      (∀ f ∈ t.passed, f.legal = true ∧ f ≠ {}) ↔
        (∀ f ∈ s.passed, f.legal = true ∧ f ≠ {}) ∧ s.mixes a = false := by
    obtain ⟨new, hnew, hcond⟩ := passed_step hs h
    rw [hnew, forall_mem_append, hcond]
  rw [Machine.good_iff_meets Bounded _ (fun _ _ _ hs h => hs.step h) (fun _ _ _ hs h => hgood hs h)
    (s := {}) ⟨Nat.zero_le _⟩ hrun]
  exact and_iff_right (fun f hf => (not_mem_nil hf).elim)

/-- Both directions are aborted in turn, each with a call of its own. -/
theorem separateAborts_legal :
    ∃ s, Machine.run step {}
      [.requestShutdown .gracefulSend, .requestShutdown .abortReceive, .settle 0 true,
        .settle 0 true, .requestShutdown .abortBothImmediate] = some s ∧ s.passed.length = 3 ∧
    ∀ f ∈ s.passed, f.legal = true ∧ f ≠ {} := by
  refine Machine.run_observed (f := fun s => s.passed.length) rfl fun s hs hthree => ⟨hthree, ?_⟩
  refine (passed_flags_legal_iff _ hs).mpr ?_
  decide

/-- The graceful close fails and stays desired; the receive abort takes it along. -/
theorem failedGraceful_mixes :
    ∃ s f, Machine.run step {}
      [.requestShutdown .gracefulSend, .settle 0 false, .requestShutdown .abortReceive] = some s ∧
    f ∈ s.passed ∧ f = { graceful := true, abortReceive := true } ∧ f.legal = false :=
  ⟨_, _, rfl, mem_cons_of_mem _ mem_cons_self, rfl, rfl⟩

/-! ### Acknowledged requests -/

/-- The accepted flags shut the stream down at least as far as `x`. -/
def Carried (accepted : List ShutdownFlags) (x : Strength) : Prop :=
  (x.send = 0 ∨ ∃ f ∈ accepted, x.send ≤ if f.abortSend then 2 else if f.graceful then 1 else 0) ∧
    (x.receive = true → ∃ f ∈ accepted, f.abortReceive = true) ∧
      (x.immediate = true → ∃ f ∈ accepted, f.immediate = true)

/-- A request leaves a part of what it wants to a call of another thread. -/
def joins : Action → Bool
  | .requestShutdown .abortBothImmediate =>
    s.usable && !s.ledger.submitted.immediate && s.ledger.reserved.immediate
  | .requestShutdown intent => s.usable &&
      ((s.ledger.submitted.send < intent.strength.send &&
        max s.ledger.desired.send intent.strength.send ≤ s.ledger.reserved.send) ||
        (intent.strength.receive && !s.ledger.submitted.receive && s.ledger.reserved.receive))
  | _ => false

/-- `x` is asked for by a request or submitted. -/
def Backed (request submitted x : Strength) : Prop :=
  (x.send ≤ request.send ∨ x.send ≤ submitted.send) ∧
    (x.receive = true → request.receive = true ∨ submitted.receive = true) ∧
    (x.immediate = true → request.immediate = true ∨ submitted.immediate = true)

theorem Carried.append (h : Carried accepted x) (f : ShutdownFlags) :
    Carried (accepted ++ [f]) x := by
  have hmem : ∀ g ∈ accepted, g ∈ accepted ++ [f] := fun _ => mem_append_left _
  refine ⟨h.1.imp_right ?_, fun hx => ?_, fun hx => ?_⟩
  · rintro ⟨g, hg, hle⟩
    exact ⟨g, hmem g hg, hle⟩
  · obtain ⟨g, hg, hreceive⟩ := h.2.1 hx
    exact ⟨g, hmem g hg, hreceive⟩
  · obtain ⟨g, hg, himmediate⟩ := h.2.2 hx
    exact ⟨g, hmem g hg, himmediate⟩

theorem Carried.mono {y : Strength} (h : Carried accepted y) (hsend : x.send ≤ y.send)
    (hreceive : x.receive = true → y.receive = true)
    (himmediate : x.immediate = true → y.immediate = true) : Carried accepted x := by
  refine ⟨?_, fun hx => h.2.1 (hreceive hx), fun hx => h.2.2 (himmediate hx)⟩
  rcases h.1 with hzero | ⟨f, hf, hle⟩
  · exact .inl (by omega)
  · exact .inr ⟨f, hf, hsend.trans hle⟩

/-- What a call asked for joins what was carried before once MsQuic has accepted it. -/
theorem Carried.accept {submitted : Strength} (h : Carried accepted submitted)
    (hsend : c.request.send ≤ 2) (hx : Backed c.request submitted x) :
    Carried (accepted ++ [c.flags]) x := by
  have hflags : c.flags ∈ accepted ++ [c.flags] := mem_append_right _ mem_cons_self
  obtain ⟨hold, hreceive, himmediate⟩ := h.append c.flags
  refine ⟨?_, fun hr => (hx.2.1 hr).elim (fun hrequest => ⟨_, hflags, hrequest⟩) hreceive,
    fun hi => (hx.2.2 hi).elim (fun hrequest => ⟨_, hflags, hrequest⟩) himmediate⟩
  rcases hx.1 with hle | hle
  · refine .inr ⟨_, hflags, ?_⟩
    simp only [ShutdownCall.flags]
    grind
  · rcases hold with hzero | ⟨f, hf, hf'⟩
    · exact .inl (by omega)
    · exact .inr ⟨f, hf, hle.trans hf'⟩

/-- Everything submitted or acknowledged was accepted, and a call in flight asks for
whatever of its intent is not submitted. -/
structure Answered (s : ShutdownRun) : Prop where
  bounded : s.ledger.desired.send ≤ 2
  submitted : Carried s.accepted s.ledger.submitted
  whole : s.ledger.submitted.immediate = true →
    2 ≤ s.ledger.submitted.send ∧ s.ledger.submitted.receive = true
  calls : ∀ c ∈ s.calls, Backed c.request s.ledger.submitted c.intent.strength ∧
    c.request.send ≤ 2 ∧
    (c.request.immediate = true → c.request.send = 2 ∧ c.request.receive = true)
  acknowledged : ∀ intent ∈ s.acknowledged, Carried s.accepted intent.strength

/-- A request that leaves nothing to others asks for all of its intent that is not submitted. -/
theorem backed_reserve (hs : Answered s) (husable : s.usable = true) {intent : ShutdownIntent}
    (hjoins : s.joins (.requestShutdown intent) = false) :
    Backed ((s.ledger.desire intent).reserve intent).2.request s.ledger.submitted
      intent.strength := by
  have hbounded := hs.bounded
  have hwhole := hs.whole
  cases intent <;>
    simp only [joins, husable, Backed, ShutdownIntent.strength, ShutdownLedger.desire,
      ShutdownLedger.reserve,
      ShutdownLedger.wantsSend, ShutdownLedger.wantsReceive,
        ShutdownLedger.wantsImmediate] at hjoins ⊢ <;> grind

theorem Answered.step (hs : Answered s) (ha : a.ofRequest = true) (hjoins : s.joins a = false)
    (h : s.step a = some t) :
    Answered t := by
  have hbounded := (Bounded.step ⟨hs.bounded⟩ h).desired
  cases a with
  | requestShutdown intent =>
    cases h
    by_cases husable : s.usable = true
    · have hbacked := backed_reserve hs husable hjoins
      obtain ⟨hsend, himmediate⟩ := request_reserve _ intent (desired_desire hs.bounded intent)
      have hsubmitted : ((s.ledger.desire intent).reserve intent).1.submitted =
          s.ledger.submitted := by cases intent <;> rfl
      have hintent : ((s.ledger.desire intent).reserve intent).2.intent = intent := rfl
      simp only [requestShutdown, husable, Bool.not_true, Bool.false_eq_true,
        ↓reduceIte] at hbounded ⊢
      generalize (s.ledger.desire intent).reserve intent =
        r at hbacked hsend himmediate hsubmitted hintent hbounded
      split at hbounded
      · rename_i hnothing
        simp only [if_pos hnothing]
        simp only [Bool.and_eq_true, decide_eq_true_eq, Bool.not_eq_true'] at hnothing
        refine ⟨hbounded, hsubmitted ▸ hs.submitted, hsubmitted ▸ hs.whole,
          hsubmitted ▸ hs.calls, ?_⟩
        rw [forall_mem_append, forall_mem_singleton]
        refine ⟨hs.acknowledged, hs.submitted.mono ?_ ?_ ?_⟩
        · rcases hbacked.1 with hle | hle <;> omega
        · intro hr
          exact (hbacked.2.1 hr).resolve_left (by simp [hnothing.2])
        · intro hi
          refine (hbacked.2.2 hi).resolve_left fun hrequest => ?_
          have := (himmediate hrequest).1
          omega
      · rename_i hsomething
        simp only [if_neg hsomething]
        refine ⟨hbounded, hsubmitted ▸ hs.submitted, hsubmitted ▸ hs.whole, ?_, hs.acknowledged⟩
        rw [forall_mem_append, forall_mem_singleton, hsubmitted, hintent]
        exact ⟨hs.calls, hbacked, hsend, himmediate⟩
    · have hsame : s.requestShutdown intent = s := by simp [requestShutdown, husable]
      rw [hsame]
      exact hs
  | settle index succeeded =>
    obtain ⟨c, hc, rfl⟩ := map_eq_some_iff.mp h
    obtain ⟨hbacked, hsend, himmediate⟩ := hs.calls c (mem_of_getElem? hc)
    have hcalls : ∀ d ∈ s.calls.eraseIdx index, d ∈ s.calls := fun d hd => mem_of_mem_eraseIdx hd
    cases succeeded with
    | false =>
      exact ⟨hbounded, hs.submitted, hs.whole, fun d hd => hs.calls d (hcalls d hd),
        hs.acknowledged⟩
    | true =>
      refine ⟨hbounded, hs.submitted.accept hsend ?_, fun hi => ?_, fun d hd => ?_, ?_⟩
      · refine ⟨?_, fun hr => Bool.or_eq_true_iff.mp hr, fun hi => Bool.or_eq_true_iff.mp hi⟩
        simp only [ShutdownLedger.settle, ↓reduceIte]
        split <;> simp
      · have hwhole := hs.whole
        simp only [ShutdownLedger.settle, ↓reduceIte] at hi ⊢
        grind
      · obtain ⟨hd', hlevel⟩ := hs.calls d (hcalls d hd)
        refine ⟨⟨hd'.1.imp_right fun hle => ?_,
          fun hr => (hd'.2.1 hr).imp_right fun h => Bool.or_eq_true_iff.mpr (.inr h),
          fun hi => (hd'.2.2 hi).imp_right fun h => Bool.or_eq_true_iff.mpr (.inr h)⟩, hlevel⟩
        simp only [ShutdownLedger.settle, ↓reduceIte]
        split <;> omega
      · simp only [↓reduceIte]
        rw [forall_mem_append, forall_mem_singleton]
        exact ⟨fun intent hi => (hs.acknowledged intent hi).append c.flags,
          hs.submitted.accept hsend hbacked⟩
  | sendShutdownComplete graceful => cases ha
  | leave =>
    cases h
    exact ⟨hbounded, hs.submitted, hs.whole, hs.calls, hs.acknowledged⟩

/-- If no request leaves a part of its intent to a call of another thread, a shutdown at
least as strong as each acknowledged intent has been accepted. -/
theorem acknowledged_requests_carried (actions : List Action)
    (hrequests : ∀ a ∈ actions, a.ofRequest = true)
    (hjoins : Machine.Meets step (fun s a => s.joins a = false) {} actions)
    (hrun : Machine.run step {} actions = some s) :
    s.calls = [] → ∀ intent ∈ s.acknowledged, Carried s.accepted intent.strength := by
  have hstart : Answered {} :=
    ⟨Nat.zero_le _, ⟨.inl rfl, by simp, by simp⟩, by simp, by simp, by simp⟩
  have hanswered :=
    Machine.invariant_of_meets (fun _ _ _ hs ha h => Answered.step hs ha.1 ha.2 h) hstart
    (hjoins.and_forall_mem hrequests) hrun
  exact fun _ => hanswered.acknowledged

/-- A failed receive abort is repeated, and a graceful close is upgraded. -/
theorem repeatedAbort_carried :
    ∃ s, Machine.run step {}
      [.requestShutdown .abortReceive, .requestShutdown .gracefulSend, .settle 0 false,
        .settle 0 true, .requestShutdown .abortBoth, .settle 0 true] = some s ∧
    s.acknowledged = [.gracefulSend, .abortBoth] ∧
    ∀ intent ∈ s.acknowledged, Carried s.accepted intent.strength := by
  refine Machine.run_observed (f := fun s => (s.acknowledged, s.calls)) rfl fun s hs hend => ?_
  obtain ⟨hacknowledged, hcalls⟩ := Prod.mk.inj hend
  refine ⟨hacknowledged, acknowledged_requests_carried _ ?_ ?_ hs hcalls⟩ <;> decide

/-- The second of two graceful closes is acknowledged because the first one is in
flight, which then fails. -/
theorem joinedGraceful_lost :
    ∃ s, Machine.run step {}
      [.requestShutdown .gracefulSend, .requestShutdown .gracefulSend, .settle 0 false] = some s ∧
    s.calls = [] ∧ s.acknowledged = [.gracefulSend] ∧ s.accepted = [] ∧
    ¬ ∀ intent ∈ s.acknowledged, Carried s.accepted intent.strength := by
  refine ⟨_, rfl, rfl, rfl, rfl, fun hcarried => ?_⟩
  rcases (hcarried .gracefulSend mem_cons_self).1 with hzero | ⟨f, hf, -⟩
  · cases hzero
  · exact not_mem_nil hf

end ShutdownRun
end TcpQuicProxy.StreamLifetime
