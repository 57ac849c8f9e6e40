import TcpQuicProxy.RelayControl.Handles

/-!
# The count of active relays

A start reserves a place in the global count before it does anything else. The
place is given up by a failing exit of the start or by the stop of the started
relay. A tunnel's books say where its place is at any moment: with the start,
with the published state in the handle, or with the stop that has taken that
state. A stop that finds nothing published but still reads the old backend
releases the place a second time; the books hold as long as no stop reads the
backend while another one stands between its exchange and its clearing of it.
-/

namespace TcpQuicProxy.RelayControl

open Machine List Option

/-! ### Where the place of a tunnel's relay is -/

/-- The start holds the place from its reservation to the publication or the failing exit. -/
def StartPc.token : StartPc → Nat
  | .reserve | .setBackend | .enterRelay | .inlineStop | .registerReaper => 0
  | _ => 1

/-- The start has not published anything yet. -/
def StartPc.early : StartPc → Bool
  | .setBackend | .enterRelay | .inlineStop | .registerReaper => false
  | _ => true

/-- A stop that takes the branch of a started relay holds its place to the release. -/
def StopPc.token : StopPc → Nat
  | .exchange | .readBackend | .noRelay => 0
  | _ => 1

/-- The stop stands between its exchange and its clearing of the backend. -/
def StopPc.window : StopPc → Bool
  | .capture _ | .clear _ => true
  | _ => false

/-- What the stop has captured comes from the published state. -/
def StopPc.filled : StopPc → Bool
  | .capture committed => committed.isSome
  | .clear c | .signal c | .testAlive c | .callRuntime c | .callLegacy c => c.committed.isSome
  | _ => true

def stopToken (pc : Option StopPc) : Nat := (pc.map StopPc.token).getD 0

namespace Tunnel

def stopTokens (t : Tunnel) : Nat :=
  stopToken (t.stops .inline) + stopToken (t.stops .abort) + stopToken (t.stops .reaper)

def startTokens (t : Tunnel) : Nat := (t.starter.map StartPc.token).getD 0

def published (t : Tunnel) : Nat := if t.linuxCommitted.isSome then 1 else 0

variable {t t' : Tunnel} {n : Nat} {role : StopRole} {pc : StopPc} {q : Option StopPc}

theorem stops_setStop_of_ne {role' : StopRole} (h : role' ≠ role) :
    (t.setStop role q).stops role' = t.stops role' := by
  simp [setStop, h]

@[simp] theorem stops_setStop_self : (t.setStop role q).stops role = q := by
  simp [setStop]

/-- One stop changes its place: the other two keep theirs. -/
theorem stopTokens_of_update (hstops : t'.stops = Function.update t.stops role q) :
    t'.stopTokens + stopToken (t.stops role) = t.stopTokens + stopToken q := by
  cases role <;> simp [stopTokens, hstops, Function.update] <;> omega

theorem stopTokens_eq_zero (h : ∀ role, t.stops role = none) : t.stopTokens = 0 := by
  simp [stopTokens, stopToken, h]

/-! ### Which threads can be at work on a tunnel -/

structure Phases (t : Tunnel) : Prop where
  /-- A start that has published nothing is alone with the handle. -/
  early : ∀ spc, t.starter = some spc → spc.early = true →
    t.linuxCommitted = none ∧ (∀ role, t.stops role = none) ∧ t.relayStarted = false
  publishing : ∀ spc, t.starter = some spc → spc = .setBackend ∨ spc = .enterRelay →
    (∀ role, t.stops role = none) ∧ t.relayStarted = false
  setBackend : t.starter = some .setBackend → t.linuxCommitted.isSome
  /-- The start's own stop runs inside the start. -/
  inlineStop : t.starter = some .inlineStop →
    t.relayStarted = false ∧ (t.linuxCommitted = none ∨ t.stops .inline = some .exchange)
  inlineOnly : t.stops .inline ≠ none → t.starter = some .inlineStop
  notStarted : t.relayStarted = false →
    t.stops .abort = none ∧ t.stops .reaper = none ∧ t.inReaper = false
  idle : t.starter = none → t.relayStarted = false → t.linuxCommitted = none
  registering : t.starter = some .registerReaper → t.relayStarted = true

/-- No stop runs while the start has not finished its part. -/
theorem Phases.stops_none (hp : Phases t) {spc : StartPc} (hs : t.starter = some spc)
    (hspc : spc ≠ .inlineStop ∧ spc ≠ .registerReaper) (role : StopRole) : t.stops role = none := by
  cases hearly : spc.early with
  | true => exact (hp.early spc hs hearly).2.1 role
  | false =>
    refine (hp.publishing spc hs ?_).1 role
    cases spc with
    | setBackend => exact .inl rfl
    | enterRelay => exact .inr rfl
    | inlineStop => exact absurd rfl hspc.1
    | registerReaper => exact absurd rfl hspc.2
    | _ => cases hearly

theorem stops_of_ne {role' : StopRole} (hstops : t'.stops = Function.update t.stops role q)
    (hne : role' ≠ role) :
    t'.stops role' = t.stops role' := by
  rw [hstops, Function.update_of_ne hne]

/-- A step of a stop that leaves nothing published keeps the phases. -/
theorem Phases.of_stop (hp : Phases t) (hrole : t.stops role = some pc)
    (hstarter : t'.starter = t.starter) (hstarted : t'.relayStarted = t.relayStarted)
    (hin : t'.inReaper = t.inReaper) (hnone : t'.linuxCommitted = none)
    (hstops : t'.stops = Function.update t.stops role q) : Phases t' := by
  have hbusy : ∀ {spc : StartPc}, t.starter = some spc →
      spc ≠ .inlineStop ∧ spc ≠ .registerReaper → False := by
    intro spc hs hspc
    have := hp.stops_none hs hspc role
    rw [hrole] at this
    cases this
  refine ⟨?_, ?_, ?_, ?_, ?_, ?_, fun _ _ => hnone,
    fun hs => hstarted ▸ hp.registering (hstarter ▸ hs)⟩
  · intro spc hs hearly
    refine (hbusy (hstarter ▸ hs) ⟨?_, ?_⟩).elim <;> rintro rfl <;> cases hearly
  · intro spc hs hspc
    refine (hbusy (hstarter ▸ hs) ⟨?_, ?_⟩).elim <;> rintro rfl <;>
      rcases hspc with hspc | hspc <;> cases hspc
  · intro hs
    exact (hbusy (hstarter ▸ hs) ⟨by simp, by simp⟩).elim
  · intro hs
    rw [hstarted]
    exact ⟨(hp.inlineStop (hstarter ▸ hs)).1, .inl hnone⟩
  · intro hinline
    rw [hstarter]
    by_cases hr : StopRole.inline = role
    · exact hp.inlineOnly (by rw [hr, hrole]; simp)
    · exact hp.inlineOnly (by rwa [stops_of_ne hstops hr] at hinline)
  · rw [hstarted, hin]
    intro hfalse
    obtain ⟨habort, hreaper, hnot⟩ := hp.notStarted hfalse
    have ha : StopRole.abort ≠ role := by
      rintro rfl
      rw [hrole] at habort
      cases habort
    have hr : StopRole.reaper ≠ role := by
      rintro rfl
      rw [hrole] at hreaper
      cases hreaper
    exact ⟨(stops_of_ne hstops ha).trans habort, (stops_of_ne hstops hr).trans hreaper, hnot⟩

/-! ### The books of a tunnel -/

/-- The relay of the tunnel is counted `n` times: by its start, by what is
published, or by the stop that took it. A backend that still names a worker
belongs to a published relay or to one that a stop is about to clear. -/
structure Books (t : Tunnel) (n : Nat) : Prop where
  phases : Phases t
  tokens : t.startTokens + t.published + t.stopTokens = n
  taken : ∀ role pc, t.stops role = some pc → pc ≠ .exchange → t.linuxCommitted = none
  backend : t.backend = .linuxWorker →
    t.linuxCommitted.isSome ∨ ∃ role pc, t.stops role = some pc ∧ pc.window = true
  filled : ∀ role pc, t.stops role = some pc → pc.filled = true
  counted : t.succeeded + (if t.starter = some .setBackend then 1 else 0) =
    t.released + t.published + t.stopTokens

/-- A step of a stop, by what it does to the place it holds: `k` places are
released, and what was published is now in the stop's hands. -/
theorem Books.of_stop {k : Nat} (hb : Books t n) (hrole : t.stops role = some pc)
    (hstarter : t'.starter = t.starter) (hstarted : t'.relayStarted = t.relayStarted)
    (hin : t'.inReaper = t.inReaper) (hnone : t'.linuxCommitted = none)
    (hstops : t'.stops = Function.update t.stops role q) (hsucceeded : t'.succeeded = t.succeeded)
    (hreleased : t'.released = t.released + k)
    (hplace : stopToken q + k = stopToken (some pc) + t.published)
    (hfilled : ∀ pc', q = some pc' → pc'.filled = true)
    (hbackend : t'.backend = .linuxWorker → ∃ role pc, t'.stops role = some pc ∧ pc.window = true) :
    Books t' (n - k) ∧ k ≤ n := by
  have htokens := stopTokens_of_update hstops
  rw [hrole] at htokens
  have hstart : t'.startTokens = t.startTokens := by rw [startTokens, startTokens, hstarter]
  have hpublished : t'.published = 0 := by simp [published, hnone]
  have hn := hb.tokens
  have hcounted := hb.counted
  have hself : t'.stops role = q := by rw [hstops, Function.update_self]
  refine ⟨⟨hb.phases.of_stop hrole hstarter hstarted hin hnone hstops, by omega,
    fun _ _ _ _ => hnone,
    fun h => .inr (hbackend h), ?_, ?_⟩, by omega⟩
  · intro role' pc' hrole'
    by_cases hr : role' = role
    · subst hr
      exact hfilled pc' (hself.symm.trans hrole')
    · exact hb.filled role' pc' ((stops_of_ne hstops hr).symm.trans hrole')
  · rw [hsucceeded, hstarter, hreleased, hpublished]
    omega

/-- A start that has published nothing moves on; the books change by the place it takes or gives
up. -/
theorem Books.of_early {n' : Nat} {spc : StartPc} (hb : Books t n) (hs : t.starter = some spc)
    (hearly : spc.early = true) (hearly' : ∀ spc', t'.starter = some spc' → spc'.early = true)
    (hstops : t'.stops = t.stops) (hstarted : t'.relayStarted = t.relayStarted)
    (hin : t'.inReaper = t.inReaper) (hcommitted : t'.linuxCommitted = t.linuxCommitted)
    (hbackend : t'.backend = t.backend) (hsucceeded : t'.succeeded = t.succeeded)
    (hreleased : t'.released = t.released) (hplace : n' + t.startTokens = n + t'.startTokens) :
    Books t' n' := by
  obtain ⟨hnone, hstopsNone, hnot⟩ := hb.phases.early spc hs hearly
  have hnone' : t'.linuxCommitted = none := hcommitted.trans hnone
  have hstopsNone' : ∀ role, t'.stops role = none := fun role => by rw [hstops, hstopsNone]
  have hnot' : t'.relayStarted = false := hstarted.trans hnot
  have hlate : ∀ {spc'}, spc'.early = false → t'.starter ≠ some spc' := by
    intro spc' hfalse hs'
    rw [hearly' spc' hs'] at hfalse
    cases hfalse
  have htokens := hb.tokens
  have hcounted := hb.counted
  have hpublished : t.published = 0 := by simp [published, hnone]
  have hpublished' : t'.published = 0 := by simp [published, hnone']
  have hstopTokens := stopTokens_eq_zero hstopsNone
  have hstopTokens' := stopTokens_eq_zero hstopsNone'
  refine ⟨⟨fun _ _ _ => ⟨hnone', hstopsNone', hnot'⟩, fun _ _ _ => ⟨hstopsNone', hnot'⟩,
    fun hs' => ?_, fun hs' => ?_, ?_, ?_,
    fun _ _ => hnone', fun hs' => ?_⟩, by omega, fun _ _ _ _ => hnone', ?_, ?_, ?_⟩
  · exact absurd hs' (hlate rfl)
  · exact absurd hs' (hlate rfl)
  · intro hinline
    exact absurd (hstopsNone' .inline) hinline
  · intro _
    exact ⟨hstopsNone' _, hstopsNone' _, hin.trans (hb.phases.notStarted hnot).2.2⟩
  · exact absurd hs' (hlate rfl)
  · intro hb'
    rcases hb.backend (hbackend ▸ hb') with hsome | ⟨role, pc, hrole, -⟩
    · rw [hnone] at hsome
      cases hsome
    · rw [hstopsNone role] at hrole
      cases hrole
  · intro role pc hrole
    rw [hstopsNone' role] at hrole
    cases hrole
  · have hne : spc ≠ .setBackend := by
      rintro rfl
      cases hearly
    rw [if_neg (by rw [hs]; simpa using hne)] at hcounted
    rw [if_neg (hlate rfl), hsucceeded, hreleased]
    omega

end Tunnel

/-! ### A step of a stop -/

namespace Plane

variable {p p' : Plane} {t : Tunnel} {h n : Nat} {role : StopRole} {out : Outside} {pc : StopPc}
  {spc : StartPc}

/-- The places that a step of a stop gives up. -/
def lost (pc : StopPc) : Nat := if pc = .release then 1 else 0

theorem stopStep_accounts (p : Plane) (h : Nat) (role : StopRole) (t : Tunnel) (out : Outside)
    (pc : StopPc) :
    (p.stopStep h role t out pc).1.activeRelays = p.activeRelays - lost pc ∧
      (p.stopStep h role t out pc).1.holders =
        (if pc = .release then p.holders.erase h else p.holders) ∧
      (p.stopStep h role t out pc).1.tunnels = p.tunnels ∧
        (p.stopStep h role t out pc).2.1.stops = t.stops := by
  cases pc with
  | callRuntime c =>
    simp only [stopStep]
    split
    · exact ⟨rfl, rfl, rfl, rfl⟩
    · split
      · exact ⟨rfl, rfl, rfl, rfl⟩
      · split <;> exact ⟨rfl, rfl, rfl, rfl⟩
  | callLegacy c =>
    simp only [stopStep]
    split <;> exact ⟨rfl, rfl, rfl, rfl⟩
  | _ => exact ⟨rfl, rfl, rfl, rfl⟩

/-- No other stop of the tunnel stands between its exchange and its clearing of the backend. -/
def alone (t : Tunnel) : Bool :=
  [StopRole.inline, StopRole.abort, StopRole.reaper].all fun role =>
    ((t.stops role).map StopPc.window).getD false == false

theorem alone_window (halone : alone t = true) (hrole : t.stops role = some pc) :
    pc.window = false := by
  simp only [alone, all_cons, all_nil, Bool.and_true, Bool.and_eq_true, beq_iff_eq] at halone
  obtain ⟨hinline, habort, hreaper⟩ := halone
  cases role with
  | inline => simpa [hrole] using hinline
  | abort => simpa [hrole] using habort
  | reaper => simpa [hrole] using hreaper

attribute [local simp] Tunnel.startTokens StopPc.window Tunnel.published

theorem books_stopStep (p : Plane) (h : Nat) (out : Outside) (hb : t.Books n)
    (hrole : t.stops role = some pc) (hcond : pc = .readBackend → alone t = true) :
    ((p.stopStep h role t out pc).2.1.setStop role (p.stopStep h role t out pc).2.2).Books
      (n - lost pc) ∧ lost pc ≤ n := by
  -- Past the exchange nothing is published, so the place is in the stop's hands.
  have hnone : pc ≠ .exchange → t.linuxCommitted = none ∧ t.published = 0 := by
    intro hpc
    have := hb.taken role pc hrole hpc
    exact ⟨this, by simp [this]⟩
  have hwindow : pc ≠ .exchange → t.backend = .linuxWorker → pc.window = true ∨
      ∃ role' pc', role' ≠ role ∧ t.stops role' = some pc' ∧ pc'.window = true := by
    intro hpc hbackend
    rcases hb.backend hbackend with hsome | ⟨role', pc', hrole', hwin⟩
    · rw [(hnone hpc).1] at hsome
      cases hsome
    · by_cases hr : role' = role
      · subst hr
        obtain rfl : pc = pc' := some.inj (hrole.symm.trans hrole')
        exact .inl hwin
      · exact .inr ⟨role', pc', hr, hrole', hwin⟩
  have hmove : ∀ {pc' : StopPc}, pc ≠ .exchange → pc'.token = pc.token → pc'.filled = true →
      (pc.window = true → pc'.window = true) → (t.setStop role (some pc')).Books n := by
    intro pc' hpc htoken hfilled hwin
    obtain ⟨hcommitted, hpublished⟩ := hnone hpc
    refine And.left (hb.of_stop (k := 0) hrole rfl rfl rfl hcommitted rfl rfl rfl ?_ ?_ ?_)
    · rw [hpublished]
      exact htoken
    · rintro _ ⟨⟩
      exact hfilled
    · intro hbackend
      rcases hwindow hpc hbackend with hself | ⟨role', pc'', hr, hrole', hwin'⟩
      · exact ⟨role, pc', Tunnel.stops_setStop_self, hwin hself⟩
      · exact ⟨role', pc'', (Tunnel.stops_setStop_of_ne hr).trans hrole', hwin'⟩
  have hgone : pc ≠ .exchange → pc.window = false → t.backend = .linuxWorker →
      ∃ role' pc', (t.setStop role none).stops role' = some pc' ∧ pc'.window = true := by
    intro hpc hnot hbackend
    rcases hwindow hpc hbackend with hself | ⟨role', pc', hr, hrole', hwin⟩
    · cases hnot.symm.trans hself
    · exact ⟨role', pc', (Tunnel.stops_setStop_of_ne hr).trans hrole', hwin⟩
  have hlost : ∀ {t' : Tunnel}, pc ≠ .release → t'.Books n →
      t'.Books (n - lost pc) ∧ lost pc ≤ n := by
    intro t' hpc hb'
    rw [lost, if_neg hpc]
    exact ⟨hb', Nat.zero_le n⟩
  have hfull : pc.filled = true := hb.filled role pc hrole
  cases pc with
  | exchange =>
    refine hlost (by simp) ?_
    cases hk : t.linuxCommitted with
    | none =>
      simp only [stopStep, hk]
      refine And.left (hb.of_stop (k := 0) hrole rfl rfl rfl rfl rfl rfl rfl ?_ ?_ ?_)
      · simp [stopToken, StopPc.token, hk]
      · rintro _ ⟨⟩
        rfl
      · intro hbackend
        rcases hb.backend hbackend with hsome | ⟨role', pc', hrole', hwin⟩
        · rw [hk] at hsome
          cases hsome
        · have hr : role' ≠ role := by
            rintro rfl
            obtain rfl : StopPc.exchange = pc' := some.inj (hrole.symm.trans hrole')
            cases hwin
          exact ⟨role', pc', (Tunnel.stops_setStop_of_ne hr).trans hrole', hwin⟩
    | some k =>
      simp only [stopStep, hk]
      refine And.left (hb.of_stop (k := 0) hrole rfl rfl rfl rfl rfl rfl rfl ?_ ?_ ?_)
      · simp [stopToken, StopPc.token, hk]
      · rintro _ ⟨⟩
        rfl
      · intro _
        exact ⟨role, .capture (some k), Tunnel.stops_setStop_self, rfl⟩
  | readBackend =>
    -- Nothing is published and no other stop is about to clear the backend.
    have hbackend : t.backend ≠ .linuxWorker := by
      intro hbackend
      rcases hwindow (by simp) hbackend with hself | ⟨role', pc', -, hrole', hwin⟩
      · cases hself
      · rw [alone_window (hcond rfl) hrole'] at hwin
        cases hwin
    simp only [stopStep, if_neg hbackend]
    exact hlost (by simp) (hmove (by simp) rfl rfl (by simp))
  | capture committed =>
    obtain ⟨k, rfl⟩ := isSome_iff_exists.mp hfull
    exact hlost (by simp) (hmove (by simp) rfl rfl fun _ => rfl)
  | clear c =>
    refine hlost (by simp) ?_
    obtain ⟨hcommitted, hpublished⟩ := hnone (by simp)
    refine And.left (hb.of_stop (k := 0) hrole rfl rfl rfl hcommitted rfl rfl rfl ?_ ?_ ?_)
    · rw [hpublished]
      rfl
    · rintro _ ⟨⟩
      exact hfull
    · intro hbackend
      cases hbackend
  | signal c => exact hlost (by simp) (hmove (by simp) rfl hfull (by simp))
  | testAlive c =>
    refine hlost (by simp) ?_
    simp only [stopStep]
    split
    · exact hmove (by simp) rfl hfull (by simp)
    · split
      · exact hmove (by simp) rfl hfull (by simp)
      · exact hmove (by simp) rfl rfl (by simp)
  | callRuntime c =>
    refine hlost (by simp) ?_
    simp only [stopStep]
    split
    · exact hmove (by simp) rfl hfull (by simp)
    · split
      · exact hmove (by simp) rfl rfl (by simp)
      · split <;> exact hmove (by simp) rfl rfl (by simp)
  | inRuntime => exact hlost (by simp) (hmove (by simp) rfl rfl (by simp))
  | callLegacy c =>
    refine hlost (by simp) ?_
    simp only [stopStep]
    split <;> exact hmove (by simp) rfl rfl (by simp)
  | release =>
    obtain ⟨hcommitted, hpublished⟩ := hnone (by simp)
    refine hb.of_stop hrole rfl rfl rfl hcommitted rfl rfl rfl ?_ ?_ (hgone (by simp) rfl)
    · rw [hpublished]
      rfl
    · rintro _ ⟨⟩
  | noRelay =>
    refine hlost (by simp) ?_
    obtain ⟨hcommitted, hpublished⟩ := hnone (by simp)
    refine And.left
      (hb.of_stop (k := 0) hrole rfl rfl rfl hcommitted rfl rfl rfl ?_ ?_ (hgone (by simp) rfl))
    · rw [hpublished]
      rfl
    · rintro _ ⟨⟩

/-! ### A step of a start -/

/-- The start's first step takes a place, its failing exit gives it up, and no other step touches
the count. -/
theorem startStep_accounts (p : Plane) (h : Nat) (out : Outside)
    (hbackend : spc = .reserve → t.backend = .none) :
    (p.startStep h t out spc).1.tunnels = p.tunnels ∧
      (p.startStep h t out spc).1.workerCalls = p.workerCalls ∧
      ((spc = .reserve ∧ (p.startStep h t out spc).1.activeRelays = (p.activeRelays + 1) % 2 ^ 32 ∧
          (p.startStep h t out spc).1.holders = h :: p.holders) ∨
        (spc = .failed ∧ (p.startStep h t out spc).1.activeRelays = p.activeRelays - 1 ∧
          (p.startStep h t out spc).1.holders = p.holders.erase h) ∨
        ((spc ≠ .reserve ∧ spc ≠ .failed) ∧
          (p.startStep h t out spc).1.activeRelays = p.activeRelays ∧
          (p.startStep h t out spc).1.holders = p.holders)) := by
  cases spc with
  | reserve =>
    have hreserve : p.startStep h t out .reserve = (p.registerActive h, t, some .startRuntime) := by
      simp [startStep, hbackend rfl]
    rw [hreserve]
    exact ⟨rfl, rfl, .inl ⟨rfl, rfl, rfl⟩⟩
  | failed => exact ⟨rfl, rfl, .inr (.inl ⟨rfl, rfl, rfl⟩)⟩
  | startRuntime =>
    simp only [startStep]
    split
    · exact ⟨rfl, rfl, .inr (.inr ⟨by simp, rfl, rfl⟩)⟩
    · split
      · exact ⟨rfl, rfl, .inr (.inr ⟨by simp, rfl, rfl⟩)⟩
      · split
        · exact ⟨rfl, rfl, .inr (.inr ⟨by simp, rfl, rfl⟩)⟩
        · split
          · exact ⟨rfl, rfl, .inr (.inr ⟨by simp, rfl, rfl⟩)⟩
          · split <;> exact ⟨rfl, rfl, .inr (.inr ⟨by simp, rfl, rfl⟩)⟩
  | pickWorker =>
    simp only [startStep]
    split
    · exact ⟨rfl, rfl, .inr (.inr ⟨by simp, rfl, rfl⟩)⟩
    · split
      · exact ⟨rfl, rfl, .inr (.inr ⟨by simp, rfl, rfl⟩)⟩
      · split <;> exact ⟨rfl, rfl, .inr (.inr ⟨by simp, rfl, rfl⟩)⟩
  | register w c =>
    simp only [startStep, register]
    split
    · exact ⟨rfl, rfl, .inr (.inr ⟨by simp, rfl, rfl⟩)⟩
    · split <;> exact ⟨rfl, rfl, .inr (.inr ⟨by simp, rfl, rfl⟩)⟩
  | checkStop w c relayId | allocate w c relayId | enterRelay =>
    simp only [startStep]
    split <;> exact ⟨rfl, rfl, .inr (.inr ⟨by simp, rfl, rfl⟩)⟩
  | _ => exact ⟨rfl, rfl, .inr (.inr ⟨by simp, rfl, rfl⟩)⟩

section

variable (hb : t.Books n)
include hb

/-- Before the publication the backend names no worker. -/
theorem backend_of_early (hs : t.starter = some spc) (hearly : spc.early = true) :
    t.backend = .none := by
  obtain ⟨hnone, hstops, -⟩ := hb.phases.early spc hs hearly
  cases hbackend : t.backend with
  | none => rfl
  | linuxWorker =>
    rcases hb.backend hbackend with hsome | ⟨role, pc, hrole, -⟩
    · rw [hnone] at hsome
      cases hsome
    · rw [hstops role] at hrole
      cases hrole

/-- The start publishes: the place goes from the start to the handle. -/
theorem books_publish {w c relayId : Nat} (hs : t.starter = some (.publish w c relayId))
    (k : CommittedState) :
    ({ t with linuxCommitted := some k }.setStarter (some .setBackend)).Books n := by
  obtain ⟨hnone, hstops, hnot⟩ := hb.phases.early _ hs rfl
  have hzero := Tunnel.stopTokens_eq_zero hstops
  have htokens := hb.tokens
  have hcounted := hb.counted
  simp only [Tunnel.startTokens, Tunnel.published, hs, hnone, hzero, map_some, getD_some,
    StartPc.token,
    isSome_none, Bool.false_eq_true, ↓reduceIte, Nat.add_zero, some.injEq,
      reduceCtorEq] at htokens hcounted
  refine ⟨⟨?_, fun _ _ _ => ⟨hstops, hnot⟩, fun _ => rfl, ?_, ?_,
    fun _ => hb.phases.notStarted hnot, ?_, ?_⟩, ?_, ?_, fun _ => .inl rfl,
    hb.filled, ?_⟩
  · rintro _ ⟨⟩ hearly
    cases hearly
  · rintro ⟨⟩
  · intro hinline
    exact absurd (hstops .inline) hinline
  · rintro ⟨⟩
  · rintro ⟨⟩
  · change 0 + 1 + t.stopTokens = n
    omega
  · intro role pc hrole
    cases (hstops role).symm.trans hrole
  · change t.succeeded + 1 = t.released + 1 + t.stopTokens
    omega

/-- The start names the backend: it has succeeded. -/
theorem books_setBackend (hs : t.starter = some .setBackend) :
    ({ t with backend := .linuxWorker, succeeded := t.succeeded + 1 }.setStarter
      (some .enterRelay)).Books n := by
  obtain ⟨hstops, hnot⟩ := hb.phases.publishing _ hs (.inl rfl)
  have hsome := hb.phases.setBackend hs
  have hzero := Tunnel.stopTokens_eq_zero hstops
  have htokens := hb.tokens
  have hcounted := hb.counted
  simp only [Tunnel.startTokens, hs, map_some, getD_some, StartPc.token,
    ↓reduceIte] at htokens hcounted
  refine ⟨⟨?_, fun _ _ _ => ⟨hstops, hnot⟩, ?_, ?_, ?_, fun _ => hb.phases.notStarted hnot, ?_, ?_⟩,
    ?_, hb.taken, fun _ => .inl hsome,
    hb.filled, ?_⟩
  · rintro _ ⟨⟩ hearly
    cases hearly
  · rintro ⟨⟩
  · rintro ⟨⟩
  · intro hinline
    exact absurd (hstops .inline) hinline
  · rintro ⟨⟩
  · rintro ⟨⟩
  · change 0 + t.published + t.stopTokens = n
    omega
  · change t.succeeded + 1 + 0 = t.released + t.published + t.stopTokens
    omega

/-- The stream is gone: the start stops its own relay. -/
theorem books_inlineStop (hs : t.starter = some .enterRelay) :
    ((t.setStop .inline (some .exchange)).setStarter (some .inlineStop)).Books n := by
  obtain ⟨hstops, hnot⟩ := hb.phases.publishing _ hs (.inr rfl)
  have hzero := Tunnel.stopTokens_eq_zero hstops
  have htokens := hb.tokens
  have hcounted := hb.counted
  simp only [Tunnel.startTokens, hs, map_some, getD_some, StartPc.token, some.injEq, reduceCtorEq,
    ↓reduceIte, hzero, Nat.add_zero, Nat.zero_add] at htokens hcounted
  have hinline : ∀ role pc, (t.setStop .inline (some .exchange)).stops role = some pc →
      pc = .exchange := by
    intro role pc hrole
    by_cases hr : role = .inline
    · subst hr
      simpa [Tunnel.setStop, eq_comm] using hrole
    · rw [Tunnel.stops_setStop_of_ne hr, hstops role] at hrole
      cases hrole
  have hstopTokens : (t.setStop .inline (some .exchange)).stopTokens = 0 := by
    have hupdate : (t.setStop .inline (some .exchange)).stopTokens + stopToken (t.stops .inline) =
        t.stopTokens + stopToken (some .exchange) := Tunnel.stopTokens_of_update rfl
    rw [hstops, hzero] at hupdate
    simpa [stopToken, StopPc.token] using hupdate
  refine ⟨⟨?_, ?_, ?_, fun _ => ⟨hnot, .inr rfl⟩, fun _ => rfl,
    fun _ => ⟨hstops _, hstops _, (hb.phases.notStarted hnot).2.2⟩, ?_,
    ?_⟩, ?_, ?_, ?_, ?_, ?_⟩
  · rintro _ ⟨⟩ hearly
    cases hearly
  · rintro _ ⟨⟩ (h | h) <;> cases h
  · rintro ⟨⟩
  · rintro ⟨⟩
  · rintro ⟨⟩
  · change 0 + t.published + (t.setStop .inline (some .exchange)).stopTokens = n
    omega
  · intro role pc hrole hne
    exact absurd (hinline role pc hrole) hne
  · intro hbackend
    rcases hb.backend hbackend with hsome | ⟨role, pc, hrole, -⟩
    · exact .inl hsome
    · rw [hstops role] at hrole
      cases hrole
  · intro role pc hrole
    rw [hinline role pc hrole]
    rfl
  · change t.succeeded + 0 =
      t.released + t.published + (t.setStop .inline (some .exchange)).stopTokens
    omega

end

variable {t' : Tunnel} {a : HandleAction}

/-- A start that is past the publication moves on beside the stops. -/
theorem books_late (hb : t.Books n) {spc : StartPc} (hs : t.starter = some spc)
    (hlate : spc = .enterRelay ∨ spc = .registerReaper)
    (hstarter : t'.starter = none ∨ t'.starter = some .registerReaper) (hstops : t'.stops = t.stops)
    (hstarted : t'.relayStarted = true) (hcommitted : t'.linuxCommitted = t.linuxCommitted)
    (hbackend : t'.backend = t.backend) (hsucceeded : t'.succeeded = t.succeeded)
    (hreleased : t'.released = t.released) : t'.Books n := by
  have hinline : t'.stops .inline = none := by
    rw [hstops]
    by_contra hsome
    have := hb.phases.inlineOnly hsome
    rw [hs] at this
    rcases hlate with rfl | rfl <;> cases this
  have htokens := hb.tokens
  have hcounted := hb.counted
  have hzero : t.startTokens = 0 ∧ t.starter ≠ some .setBackend := by
    rcases hlate with rfl | rfl <;> simp [hs, StartPc.token]
  have hzero' : t'.startTokens = 0 ∧ t'.starter ≠ some .setBackend := by
    rcases hstarter with h | h <;> simp [h, StartPc.token]
  have hstopTokens : t'.stopTokens = t.stopTokens := by simp only [Tunnel.stopTokens, hstops]
  have hpublished : t'.published = t.published := by simp only [Tunnel.published, hcommitted]
  have hne : ∀ {spc'}, spc' ≠ .registerReaper → t'.starter ≠ some spc' := by
    intro spc' hne h
    rcases hstarter with h' | h' <;> rw [h'] at h <;> cases h
    exact hne rfl
  refine ⟨⟨?_, ?_, ?_, ?_, fun h => absurd hinline h, ?_, ?_, fun _ => hstarted⟩, ?_,
    ?_, ?_, ?_, ?_⟩
  · intro spc' hs' hearly
    refine absurd hs' (hne ?_)
    rintro rfl
    cases hearly
  · rintro spc' hs' (rfl | rfl)
    · exact absurd hs' (hne (by simp))
    · exact absurd hs' (hne (by simp))
  · intro hs'
    exact absurd hs' (hne (by simp))
  · intro hs'
    exact absurd hs' (hne (by simp))
  · intro hfalse
    rw [hstarted] at hfalse
    cases hfalse
  · intro _ hfalse
    rw [hstarted] at hfalse
    cases hfalse
  · omega
  · rw [hstops, hcommitted]
    exact hb.taken
  · rw [hstops, hcommitted, hbackend]
    exact hb.backend
  · rw [hstops]
    exact hb.filled
  · rw [if_neg hzero'.2, hsucceeded, hreleased, hpublished, hstopTokens]
    rw [if_neg hzero.2] at hcounted
    exact hcounted

/-- A start that returns from its own stop has nothing published any more. -/
theorem books_afterInline (hb : t.Books n) (hs : t.starter = some .inlineStop)
    (hinline : t.stops .inline = none) :
    (t.setStarter none).Books n := by
  obtain ⟨hnot, hnone⟩ := hb.phases.inlineStop hs
  have hcommitted : t.linuxCommitted = none := by
    rcases hnone with hnone | hexchange
    · exact hnone
    · rw [hinline] at hexchange
      cases hexchange
  have htokens := hb.tokens
  have hcounted := hb.counted
  simp only [Tunnel.startTokens, hs, map_some, getD_some, StartPc.token, some.injEq, reduceCtorEq,
    ↓reduceIte, Nat.add_zero, Nat.zero_add] at htokens hcounted
  refine ⟨⟨?_, ?_, ?_, ?_, fun h => absurd hinline h, fun _ => hb.phases.notStarted hnot,
    fun _ _ => hcommitted,
    ?_⟩, ?_, hb.taken, hb.backend, hb.filled, ?_⟩
  · rintro _ ⟨⟩
  · rintro _ ⟨⟩
  · rintro ⟨⟩
  · rintro ⟨⟩
  · rintro ⟨⟩
  · change 0 + t.published + t.stopTokens = n
    omega
  · change t.succeeded + 0 = t.released + t.published + t.stopTokens
    omega

/-- The books after a step of the start: one place more, one less, or as many as before. -/
theorem books_startStep (p : Plane) (h : Nat) (out : Outside) (hb : t.Books n)
    (hs : t.starter = some spc) :
    (spc = .reserve ∧ n = 0 ∧
      ((p.startStep h t out spc).2.1.setStarter (p.startStep h t out spc).2.2).Books 1) ∨
      (spc = .failed ∧ 1 ≤ n ∧
        ((p.startStep h t out spc).2.1.setStarter (p.startStep h t out spc).2.2).Books (n - 1)) ∨
      ((spc ≠ .reserve ∧ spc ≠ .failed) ∧
        ((p.startStep h t out spc).2.1.setStarter (p.startStep h t out spc).2.2).Books n) := by
  -- A step between two early places, with the tunnel as it was.
  have hkeep : ∀ {spc' : StartPc}, spc.early = true → spc'.early = true → spc'.token = spc.token →
      (t.setStarter (some spc')).Books n := by
    intro spc' hearly hearly' htoken
    refine hb.of_early hs hearly ?_ rfl rfl rfl rfl rfl rfl rfl ?_
    · rintro _ ⟨⟩
      exact hearly'
    · simp [hs, Tunnel.setStarter, htoken]
  cases spc with
  | reserve =>
    left
    obtain ⟨hnone, hstops, -⟩ := hb.phases.early _ hs rfl
    have hbackend := backend_of_early hb hs rfl
    have hn : n = 0 := by
      rw [← hb.tokens, Tunnel.stopTokens_eq_zero hstops]
      simp [hs, hnone, StartPc.token]
    refine ⟨rfl, hn, ?_⟩
    simp only [startStep, hbackend, ne_eq, not_true_eq_false, ↓reduceIte]
    refine hb.of_early hs rfl ?_ rfl rfl rfl rfl rfl rfl rfl ?_
    · rintro _ ⟨⟩
      rfl
    · simp [hs, hn, Tunnel.setStarter, StartPc.token]
  | failed =>
    right; left
    obtain ⟨hnone, hstops, -⟩ := hb.phases.early _ hs rfl
    have hn : n = 1 := by
      rw [← hb.tokens, Tunnel.stopTokens_eq_zero hstops]
      simp [hs, hnone, StartPc.token]
    refine ⟨rfl, by omega, ?_⟩
    refine hb.of_early hs rfl ?_ rfl rfl rfl rfl rfl rfl rfl ?_
    · rintro _ ⟨⟩
    · change n - 1 + t.startTokens = n + 0
      simp [hs, hn, StartPc.token]
  | startRuntime =>
    refine .inr (.inr ⟨by simp, ?_⟩)
    simp only [startStep]
    split
    · exact hkeep rfl rfl rfl
    · split
      · exact hkeep rfl rfl rfl
      · split
        · exact hkeep rfl rfl rfl
        · split
          · exact hkeep rfl rfl rfl
          · split <;> exact hkeep rfl rfl rfl
  | pickWorker =>
    refine .inr (.inr ⟨by simp, ?_⟩)
    simp only [startStep]
    split
    · exact hkeep rfl rfl rfl
    · split
      · exact hkeep rfl rfl rfl
      · split <;> exact hkeep rfl rfl rfl
  | makeControl w => exact .inr (.inr ⟨by simp, hkeep rfl rfl rfl⟩)
  | register w c | checkStop w c relayId | allocate w c relayId =>
    refine .inr (.inr ⟨by simp, ?_⟩)
    simp only [startStep]
    split <;> exact hkeep rfl rfl rfl
  | mirrors w c relayId =>
    refine .inr (.inr ⟨by simp, ?_⟩)
    refine hb.of_early hs rfl ?_ rfl rfl rfl rfl rfl rfl rfl ?_
    · rintro _ ⟨⟩
      rfl
    · simp [hs, Tunnel.setStarter, startStep, StartPc.token]
  | publish w c relayId => exact .inr (.inr ⟨by simp, books_publish hb hs _⟩)
  | setBackend => exact .inr (.inr ⟨by simp, books_setBackend hb hs⟩)
  | enterRelay =>
    refine .inr (.inr ⟨by simp, ?_⟩)
    simp only [startStep]
    split
    · exact books_inlineStop hb hs
    · exact books_late hb hs (.inl rfl) (.inr rfl) rfl rfl rfl rfl rfl rfl
  | inlineStop =>
    refine .inr (.inr ⟨by simp, ?_⟩)
    simp only [startStep]
    split
    · have hsame : t.setStarter (some .inlineStop) = t := by rw [Tunnel.setStarter, ← hs]
      rw [hsame]
      exact hb
    · rename_i hinline
      exact books_afterInline hb hs (by simpa using hinline)
  | registerReaper =>
    refine .inr (.inr ⟨by simp, ?_⟩)
    exact books_late hb hs (.inr rfl) (.inl rfl) rfl (hb.phases.registering hs) rfl rfl rfl rfl

/-! ### Entering a call -/

theorem books_new (control : Nat) (terminalEscalation : Option Nat) :
    Tunnel.Books { control, terminalEscalation } 0 := by
  refine ⟨⟨?_, ?_, ?_, ?_, ?_, fun _ => ⟨rfl, rfl, rfl⟩, fun _ _ => rfl, ?_⟩, rfl, ?_, ?_, ?_, rfl⟩
  · rintro _ ⟨⟩
  · rintro _ ⟨⟩
  · rintro ⟨⟩
  · rintro ⟨⟩
  · intro hinline
    exact absurd rfl hinline
  · rintro ⟨⟩
  · rintro _ _ ⟨⟩
  · rintro ⟨⟩
  · rintro _ _ ⟨⟩

theorem books_startRelay (hb : t.Books n) (hs : t.starter = none) (hnot : t.relayStarted = false) :
    (t.setStarter (some .reserve)).Books n := by
  have hcommitted := hb.phases.idle hs hnot
  obtain ⟨habort, hreaper, hin⟩ := hb.phases.notStarted hnot
  have hinline : t.stops .inline = none := by
    by_contra hsome
    have := hb.phases.inlineOnly hsome
    rw [hs] at this
    cases this
  have hstops : ∀ role, t.stops role = none := by
    intro role
    cases role <;> assumption
  have htokens := hb.tokens
  have hcounted := hb.counted
  simp only [Tunnel.startTokens, hs, map_none, getD_none, reduceCtorEq,
    ↓reduceIte] at htokens hcounted
  refine ⟨⟨fun _ _ _ => ⟨hcommitted, hstops, hnot⟩, fun _ _ _ => ⟨hstops, hnot⟩, ?_, ?_,
    fun h => absurd hinline h,
    fun _ => ⟨habort, hreaper, hin⟩, ?_, ?_⟩, htokens, hb.taken, hb.backend, hb.filled, hcounted⟩
  · rintro ⟨⟩
  · rintro ⟨⟩
  · rintro ⟨⟩
  · rintro ⟨⟩

/-- The abort path or the reaper begins a stop of a started relay. -/
theorem books_enterStop (hb : t.Books n) (hnone : t.stops role = none) (hrole : role ≠ .inline)
    (hstarted : t.relayStarted = true) (hstarter : t'.starter = t.starter)
    (hstarted' : t'.relayStarted = t.relayStarted)
    (hcommitted : t'.linuxCommitted = t.linuxCommitted) (hbackend : t'.backend = t.backend)
    (hsucceeded : t'.succeeded = t.succeeded) (hreleased : t'.released = t.released)
    (hstops : t'.stops = Function.update t.stops role (some .exchange)) : t'.Books n := by
  have hself : t'.stops role = some .exchange := by rw [hstops, Function.update_self]
  have hpc : ∀ {role' pc'}, t'.stops role' = some pc' →
      pc' = .exchange ∨ t.stops role' = some pc' := by
    intro role' pc' hrole'
    by_cases hr : role' = role
    · subst hr
      exact .inl (some.inj (hself.symm.trans hrole')).symm
    · exact .inr ((Tunnel.stops_of_ne hstops hr).symm.trans hrole')
  have hstopTokens : t'.stopTokens = t.stopTokens := by
    have h := Tunnel.stopTokens_of_update hstops
    rwa [hnone] at h
  have hpublished : t'.published = t.published := by simp only [Tunnel.published, hcommitted]
  have hbusy : ∀ {spc : StartPc}, t'.starter = some spc →
      spc ≠ .inlineStop ∧ spc ≠ .registerReaper → False := by
    intro spc hs hspc
    rw [hstarter] at hs
    cases hearly : spc.early with
    | true =>
      have := (hb.phases.early spc hs hearly).2.2
      rw [hstarted] at this
      cases this
    | false =>
      have := (hb.phases.publishing spc hs (by cases spc <;> simp_all [StartPc.early])).2
      rw [hstarted] at this
      cases this
  refine ⟨⟨?_, ?_, ?_, ?_, ?_, ?_, ?_, fun _ => hstarted'.trans hstarted⟩, ?_, ?_, ?_, ?_, ?_⟩
  · intro spc hs hearly
    refine (hbusy hs ⟨?_, ?_⟩).elim <;> rintro rfl <;> cases hearly
  · intro spc hs hspc
    refine (hbusy hs ⟨?_, ?_⟩).elim <;> rintro rfl <;> rcases hspc with hspc | hspc <;> cases hspc
  · intro hs
    exact (hbusy hs ⟨by simp, by simp⟩).elim
  · intro hs
    have := (hb.phases.inlineStop (hstarter ▸ hs)).1
    rw [hstarted] at this
    cases this
  · intro hinline
    rw [hstarter]
    exact hb.phases.inlineOnly (by rwa [Tunnel.stops_of_ne hstops (Ne.symm hrole)] at hinline)
  · intro hfalse
    rw [hstarted', hstarted] at hfalse
    cases hfalse
  · intro _ hfalse
    rw [hstarted', hstarted] at hfalse
    cases hfalse
  · rw [hstopTokens, hpublished, Tunnel.startTokens, hstarter]
    exact hb.tokens
  · intro role' pc' hrole' hne
    rw [hcommitted]
    rcases hpc hrole' with heq | hrole'
    · exact absurd heq hne
    · exact hb.taken role' pc' hrole' hne
  · rw [hbackend, hcommitted]
    intro h
    rcases hb.backend h with hsome | ⟨role', pc', hrole', hwin⟩
    · exact .inl hsome
    · refine .inr ⟨role', pc', (Tunnel.stops_of_ne hstops ?_).trans hrole', hwin⟩
      rintro rfl
      rw [hnone] at hrole'
      cases hrole'
  · intro role' pc' hrole'
    rcases hpc hrole' with rfl | hrole'
    · rfl
    · exact hb.filled role' pc' hrole'
  · rw [hstarter, hsucceeded, hreleased, hpublished, hstopTokens]
    exact hb.counted

/-! ### Whole runs -/

/-- A stop that found nothing published reads the backend only when no other stop
of the tunnel is about to clear it, and a start reserves only while the 32-bit
counter has room. -/
def undisturbed (p : Plane) : HandleAction → Bool
  | .stop h role _ =>
    match p.tunnels[h]? with
    | none => true
    | some t => if t.stops role = some .readBackend then alone t else true
  | .start h _ =>
    match p.tunnels[h]? with
    | none => true
    | some t => if t.starter = some .reserve then decide (p.activeRelays + 1 < 2 ^ 32) else true
  | _ => true

/-- The part of that condition that is about stops. -/
def exclusive (p : Plane) : HandleAction → Bool
  | .stop h role _ =>
    match p.tunnels[h]? with
    | none => true
    | some t => if t.stops role = some .readBackend then alone t else true
  | _ => true

theorem exclusive_of_undisturbed (hcond : p.undisturbed a = true) : p.exclusive a = true := by
  cases a with
  | stop h role out => exact hcond
  | _ => rfl

/-- What each step does, where it is possible. -/
inductive Takes (p : Plane) : HandleAction → Plane → Prop
  | newTunnel (terminalEscalation : Option Nat) : Takes p (.newTunnel terminalEscalation)
      { p.makeControl with
        tunnels := p.tunnels ++ [{ control := p.controls.length, terminalEscalation }] }
  | startRelay {h : Nat} {t : Tunnel} (tunnel : p.tunnels[h]? = some t) (starter : t.starter = none)
      (started : t.relayStarted = false) : Takes p (.startRelay h)
      ((p.modifyControl t.control fun x =>
        { x with terminalEscalation := t.terminalEscalation }).setTunnel h
        (t.setStarter (some .reserve)))
  | start {h : Nat} {t : Tunnel} {out : Outside} {spc : StartPc} (tunnel : p.tunnels[h]? = some t)
      (starter : t.starter = some spc) :
      Takes p (.start h out) ((p.startStep h t out spc).1.setTunnel h
        ((p.startStep h t out spc).2.1.setStarter (p.startStep h t out spc).2.2))
  | abort {h : Nat} {t : Tunnel} (tunnel : p.tunnels[h]? = some t) (idle : t.stops .abort = none)
      (started : t.relayStarted = true) :
      Takes p (.abort h) (p.setTunnel h (t.setStop .abort (some .exchange)))
  | abortUnstarted {h : Nat} : Takes p (.abort h) p
  | reap {h : Nat} {t : Tunnel} {ready : Bool} (tunnel : p.tunnels[h]? = some t)
      (inReaper : t.inReaper = true)
      (idle : t.stops .reaper = none) :
      Takes p (.reap h ready)
        (p.setTunnel h ({ t with inReaper := false }.setStop .reaper (some .exchange)))
  | stop {h : Nat} {t : Tunnel} {role : StopRole} {out : Outside} {pc : StopPc}
      (tunnel : p.tunnels[h]? = some t)
      (stops : t.stops role = some pc) :
        Takes p (.stop h role out) ((p.stopStep h role t out pc).1.setTunnel h
        ((p.stopStep h role t out pc).2.1.setStop role (p.stopStep h role t out pc).2.2))
  | stopRuntime (state : p.runtime.state = .running) :
      Takes p .stopRuntime
        { p with runtime := { p.runtime with state := .stopping, stop := some .waiting } }
  | runtime {ledger sink : Bool} {pc : RuntimeStop} {p' : Plane} (stop : p.runtime.stop = some pc)
      (step : p.runtimeStep ledger sink pc = some p') : Takes p (.runtime ledger sink) p'
  | worker {w : Nat} {task : WorkerTask} {p' : Plane} (step : p.workerTask w task = some p') :
      Takes p (.worker w task) p'

theorem takes_of_step (hstep : p.step a = some p') : Takes p a p' := by
  cases a
  case newTunnel => exact some.inj hstep ▸ .newTunnel _
  case worker => exact .worker hstep
  all_goals simp only [step] at hstep
  all_goals repeat' split at hstep
  all_goals first | cases hstep | exact .runtime (by assumption) hstep
  · rename_i ht hidle
    rw [not_or, not_isSome_iff_eq_none, Bool.not_eq_true] at hidle
    exact .startRelay ht hidle.1 hidle.2
  · rename_i ht _ _ hs
    exact .start ht hs
  · rename_i ht hnone hstarted
    exact .abort ht (not_isSome_iff_eq_none.mp hnone) hstarted
  · exact .abortUnstarted
  · rename_i ht hready
    simp only [not_or, Bool.not_eq_false, not_isSome_iff_eq_none] at hready
    exact .reap ht hready.1 hready.2.1
  · rename_i ht _ _ hrole
    exact .stop ht hrole
  · rename_i hidle
    exact .stopRuntime (not_not.mp fun hne => hidle (.inr (.inl hne)))

/-- Every relay is counted at most once, and every tunnel's books hold. With
`counting` the 32-bit counter is followed too: it is the number of counted relays. -/
structure Accounts (counting : Bool) (p : Plane) : Prop where
  books : ∀ (h : Nat) (t : Tunnel), p.tunnels[h]? = some t → t.Books (p.holders.count h)
  known : ∀ h ∈ p.holders, h < p.tunnels.length
  once : ∀ h, p.holders.count h ≤ 1
  active : counting = true → p.activeRelays = p.holders.length

variable {counting : Bool}

theorem accounts_start : Accounts counting {} := ⟨by simp, by simp, by simp, fun _ => rfl⟩

section

variable (ha : Accounts counting p)
include ha

/-- A step that changes one tunnel and no other tunnel's places. -/
theorem Accounts.update (htunnels : p'.tunnels = p.tunnels)
    (hactive : counting = true → p'.activeRelays = p'.holders.length)
    (hothers : ∀ h', h' ≠ h → p'.holders.count h' = p.holders.count h')
    (hknown : h ∈ p'.holders → h < p.tunnels.length) (honce : p'.holders.count h ≤ 1)
    (hb : t'.Books (p'.holders.count h)) : Accounts counting (p'.setTunnel h t') := by
  refine ⟨?_, ?_, ?_, hactive⟩
  · intro h' t'' ht''
    rw [Plane.setTunnel, htunnels] at ht''
    rcases Machine.getElem?_set_cases ht'' with ⟨rfl, rfl⟩ | ⟨hne, ht''⟩
    · exact hb
    · exact (hothers h' hne).symm ▸ ha.books h' t'' ht''
  · intro h' hh'
    simp only [Plane.setTunnel, htunnels, length_set] at hh' ⊢
    by_cases heq : h' = h
    · exact heq ▸ hknown (heq ▸ hh')
    · exact ha.known h' (count_pos_iff.mp (hothers h' heq ▸ count_pos_iff.mpr hh'))
  · intro h'
    by_cases heq : h' = h
    · exact heq ▸ honce
    · exact (hothers h' heq).symm ▸ ha.once h'

/-- A step that leaves the count alone and changes one tunnel. -/
theorem Accounts.setTunnel (htunnels : p'.tunnels = p.tunnels)
    (hactive : p'.activeRelays = p.activeRelays) (hholders : p'.holders = p.holders)
    (hb : t'.Books (p.holders.count h)) :
    Accounts counting (p'.setTunnel h t') := by
  rw [← hholders] at hb
  refine ha.update htunnels ?_ (fun _ _ => by rw [hholders]) ?_ (hholders ▸ ha.once h) hb
  · rw [hactive, hholders]
    exact ha.active
  · rw [hholders]
    exact ha.known h

/-- A step that takes a place for the tunnel. -/
theorem Accounts.reserve (ht : p.tunnels[h]? = some t) (htunnels : p'.tunnels = p.tunnels)
    (hroom : counting = true → p.activeRelays + 1 < 2 ^ 32)
    (hactive : p'.activeRelays = (p.activeRelays + 1) % 2 ^ 32)
    (hholders : p'.holders = h :: p.holders) (hzero : p.holders.count h = 0) (hb : t'.Books 1) :
    Accounts counting (p'.setTunnel h t') := by
  have hcount : p'.holders.count h = 1 := by rw [hholders, count_cons_self, hzero]
  refine ha.update htunnels (fun hcounting => ?_) (fun h' hne => ?_) (fun _ => ?_) hcount.le
    (hcount ▸ hb)
  · rw [hactive, hholders, length_cons, ← ha.active hcounting]
    exact Nat.mod_eq_of_lt (hroom hcounting)
  · rw [hholders, count_cons_of_ne (Ne.symm hne)]
  · exact (List.getElem?_eq_some_iff.mp ht).1

/-- A step that gives the tunnel's place up. -/
theorem Accounts.giveUp (htunnels : p'.tunnels = p.tunnels)
    (hactive : p'.activeRelays = p.activeRelays - 1) (hholders : p'.holders = p.holders.erase h)
    (hone : 1 ≤ p.holders.count h) (hb : t'.Books (p.holders.count h - 1)) :
    Accounts counting (p'.setTunnel h t') := by
  have hmem : h ∈ p.holders := count_pos_iff.mp hone
  have hcount : p'.holders.count h = p.holders.count h - 1 := by rw [hholders, count_erase_self]
  refine ha.update htunnels (fun hcounting => ?_) (fun h' hne => ?_) (fun _ => ha.known h hmem) ?_
    (hcount ▸ hb)
  · rw [hactive, hholders, length_erase_of_mem hmem, ha.active hcounting]
  · rw [hholders, count_erase_of_ne hne]
  · exact hcount.le.trans ((Nat.sub_le ..).trans (ha.once h))

/-- A step that does not touch tunnels or the count. -/
theorem Accounts.of_eq (htunnels : p'.tunnels = p.tunnels)
    (hactive : p'.activeRelays = p.activeRelays) (hholders : p'.holders = p.holders) :
    Accounts counting p' :=
  ⟨by rw [htunnels, hholders]; exact ha.books, by rw [htunnels, hholders]; exact ha.known, by
    rw [hholders]; exact ha.once,
    by rw [hactive, hholders]; exact ha.active⟩

end

theorem runtimeStep_keeps {ledger sink : Bool} {pc : RuntimeStop}
    (hstep : p.runtimeStep ledger sink pc = some p') :
    p'.tunnels = p.tunnels ∧ p'.activeRelays = p.activeRelays ∧ p'.holders = p.holders ∧
      p'.workerCalls = p.workerCalls := by
  rcases pc with _ | (_ | ⟨w, rest⟩) | ⟨w, _ | ⟨⟨r, active⟩, relays⟩, rest⟩
  · simp only [runtimeStep] at hstep
    split at hstep
    · cases hstep
    · cases hstep
      exact ⟨rfl, rfl, rfl, rfl⟩
  · cases hstep
    exact ⟨rfl, rfl, rfl, rfl⟩
  · simp only [runtimeStep] at hstep
    split at hstep
    · cases hstep
      exact ⟨rfl, rfl, rfl, rfl⟩
    · split at hstep <;> cases hstep <;> exact ⟨rfl, rfl, rfl, rfl⟩
  · cases hstep
    exact ⟨rfl, rfl, rfl, rfl⟩
  · simp only [runtimeStep] at hstep
    split at hstep
    · cases hstep
    · cases hstep
      exact ⟨rfl, rfl, rfl, rfl⟩

theorem workerTask_keeps {w : Nat} {task : WorkerTask} (hstep : p.workerTask w task = some p') :
    p'.tunnels = p.tunnels ∧ p'.activeRelays = p.activeRelays ∧ p'.holders = p.holders ∧
      p'.workerCalls = p.workerCalls := by
  unfold workerTask at hstep
  split at hstep
  · cases hstep
  · split at hstep
    · cases hstep
      exact ⟨rfl, rfl, rfl, rfl⟩
    · cases hstep
      exact ⟨rfl, rfl, rfl, rfl⟩
    · split at hstep
      · cases hstep
      · cases hstep
        exact ⟨rfl, rfl, rfl, rfl⟩

section

variable (ha : Accounts counting p)
include ha

theorem Accounts.start (ht : p.tunnels[h]? = some t) (hs : t.starter = some spc)
    (hroom : counting = true → spc = .reserve → p.activeRelays + 1 < 2 ^ 32) :
    Accounts counting ((p.startStep h t out spc).1.setTunnel h
      ((p.startStep h t out spc).2.1.setStarter (p.startStep h t out spc).2.2)) := by
  have hb := ha.books h t ht
  have hbackend : spc = .reserve → t.backend = .none := by
    rintro rfl
    exact backend_of_early hb hs rfl
  obtain ⟨htunnels, -, hcases⟩ := startStep_accounts p h out hbackend
  rcases books_startStep p h out hb hs with ⟨rfl, hn, hb'⟩ | ⟨rfl, hn, hb'⟩ | ⟨hne, hb'⟩
  · rcases hcases with ⟨-, hactive, hholders⟩ | ⟨hfailed, -, -⟩ | ⟨hne, -, -⟩
    · exact ha.reserve ht htunnels (fun hcounting => hroom hcounting rfl) hactive hholders hn hb'
    · cases hfailed
    · exact absurd rfl hne.1
  · rcases hcases with ⟨hreserve, -, -⟩ | ⟨-, hactive, hholders⟩ | ⟨hne, -, -⟩
    · cases hreserve
    · exact ha.giveUp htunnels hactive hholders hn hb'
    · exact absurd rfl hne.2
  · rcases hcases with ⟨hreserve, -, -⟩ | ⟨hfailed, -, -⟩ | ⟨-, hactive, hholders⟩
    · exact absurd hreserve hne.1
    · exact absurd hfailed hne.2
    · exact ha.setTunnel htunnels hactive hholders hb'

theorem Accounts.stop (ht : p.tunnels[h]? = some t) (hrole : t.stops role = some pc)
    (hcond : pc = .readBackend → alone t = true) :
    Accounts counting ((p.stopStep h role t out pc).1.setTunnel h
      ((p.stopStep h role t out pc).2.1.setStop role (p.stopStep h role t out pc).2.2)) := by
  obtain ⟨hactive, hholders, htunnels, -⟩ := p.stopStep_accounts h role t out pc
  obtain ⟨hb', hle⟩ := books_stopStep p h out (ha.books h t ht) hrole hcond
  by_cases hrelease : pc = .release
  · subst hrelease
    exact ha.giveUp htunnels hactive hholders hle hb'
  · rw [lost, if_neg hrelease] at hactive hb'
    rw [if_neg hrelease] at hholders
    exact ha.setTunnel htunnels hactive hholders hb'

theorem accounts_step (hcond : p.exclusive a = true)
    (hroom : counting = true → p.undisturbed a = true) (hstep : p.step a = some p') :
    Accounts counting p' := by
  cases takes_of_step hstep with
  | newTunnel terminalEscalation =>
    have hnew : p.holders.count p.tunnels.length = 0 := by
      rw [count_eq_zero]
      intro hmem
      exact Nat.lt_irrefl _ (ha.known _ hmem)
    refine ⟨?_, ?_, ha.once, ha.active⟩
    · intro h t ht
      simp only [getElem?_append] at ht
      split at ht
      · exact ha.books h t ht
      · rename_i hge
        obtain ⟨hlt, heq⟩ := List.getElem?_eq_some_iff.mp ht
        have hh : h = p.tunnels.length := by
          rw [length_singleton] at hlt
          omega
        subst hh
        simp only [Nat.sub_self, getElem_cons_zero] at heq
        subst heq
        have hcount : (Plane.makeControl p).holders.count p.tunnels.length = 0 := hnew
        rw [hcount]
        exact books_new _ _
    · intro h hh
      simpa using Nat.lt_succ_of_lt (ha.known h hh)
  | @startRelay h t tunnel starter started =>
    exact ha.setTunnel rfl rfl rfl (books_startRelay (ha.books h t tunnel) starter started)
  | start tunnel starter =>
    refine ha.start tunnel starter ?_
    rintro hcounting rfl
    simpa [undisturbed, tunnel, starter] using hroom hcounting
  | @abort h t tunnel idle started =>
    exact ha.setTunnel rfl rfl rfl
      (books_enterStop (ha.books h t tunnel) idle (by simp) started rfl rfl rfl rfl rfl rfl rfl)
  | abortUnstarted => exact ha
  | @reap h t _ tunnel inReaper idle =>
    have hstarted : t.relayStarted = true := by
      by_contra hfalse
      have := ((ha.books h t tunnel).phases.notStarted (by simpa using hfalse)).2.2
      rw [inReaper] at this
      cases this
    exact ha.setTunnel rfl rfl rfl
      (books_enterStop (ha.books h t tunnel) idle (by simp) hstarted rfl rfl rfl rfl rfl rfl rfl)
  | stop tunnel stops =>
    refine ha.stop tunnel stops ?_
    rintro rfl
    simpa [exclusive, tunnel, stops] using hcond
  | stopRuntime => exact ha.of_eq rfl rfl rfl
  | runtime _ step =>
    obtain ⟨htunnels, hactive, hholders, -⟩ := runtimeStep_keeps step
    exact ha.of_eq htunnels hactive hholders
  | worker step =>
    obtain ⟨htunnels, hactive, hholders, -⟩ := workerTask_keeps step
    exact ha.of_eq htunnels hactive hholders

end

theorem accounts_run {as : List HandleAction}
    (hmeets : Machine.Meets step (fun p a => p.undisturbed a = true) {} as)
    (hrun : Machine.run step {} as = some p) : Accounts true p :=
  Machine.invariant_of_meets
    (fun _ _ _ ha hcond hstep => accounts_step ha (exclusive_of_undisturbed hcond) (fun _ => hcond)
      hstep) accounts_start hmeets
    hrun

/-- In every run in which no stop reads the backend of a handle while another stop
of it is about to clear that backend, the count of active relays is at every
moment the number of relays that are reserved or started and not yet released by
their first stop, each counted once; a tunnel's stops have released no more relays
than its starts brought up, and as many once its relay is not counted any more. -/
theorem active_count_exact {as : List HandleAction}
    (hmeets : Machine.Meets step (fun p a => p.undisturbed a = true) {} as)
    (hrun : Machine.run step {} as = some p) :
    p.activeRelays = p.holders.length ∧
      ∀ (h : Nat) (t : Tunnel), p.tunnels[h]? = some t →
        p.holders.count h ≤ 1 ∧ t.released ≤ t.succeeded ∧
        (h ∉ p.holders → t.succeeded = t.released) := by
  have ha := accounts_run hmeets hrun
  refine ⟨ha.active rfl, fun h t ht => ⟨ha.once h, ?_, fun hout => ?_⟩⟩
  · have hcounted := (ha.books h t ht).counted
    have hpublished : t.starter = some .setBackend → t.published = 1 := by
      intro hs
      simp [(ha.books h t ht).phases.setBackend hs]
    split at hcounted
    · rename_i hs
      have := hpublished hs
      omega
    · omega
  · have hzero : p.holders.count h = 0 := count_eq_zero.mpr hout
    have hb := ha.books h t ht
    have htokens := hb.tokens
    have hcounted := hb.counted
    rw [hzero] at htokens
    have hs : t.starter ≠ some .setBackend := by
      intro hs
      have : t.published = 1 := by simp [hb.phases.setBackend hs]
      omega
    rw [if_neg hs] at hcounted
    omega

/-- A relay start that succeeds: twelve steps to the registration with the reaper. -/
def startOne (h : Nat) : List HandleAction := .startRelay h :: List.replicate 12 (.start h {})

/-- A stop that takes the published state: eight steps to the release. -/
def stopOne (h : Nat) (role : StopRole) : List HandleAction := List.replicate 8 (.stop h role {})

/-- A relay starts, its connection is aborted, and the reaper comes after the abort. -/
def abortThenReap : List HandleAction :=
  [.newTunnel none] ++ startOne 0 ++ [.abort 0] ++ stopOne 0 .abort ++ [.reap 0 true] ++
    List.replicate 3 (.stop 0 .reaper {})

theorem abortThenReap_counts :
    ∃ p, Machine.run step {} abortThenReap = some p ∧ p.activeRelays = 0 ∧
      (∀ (h : Nat) (t : Tunnel), p.tunnels[h]? = some t → t.released ≤ t.succeeded) ∧
        p.tunnels.map Tunnel.released = [1] := by
  have hmeets : Machine.Meets step (fun p a => p.undisturbed a = true) {} abortThenReap := by
    decide +kernel
  refine run_observed (f := fun p => (p.activeRelays, p.tunnels.map Tunnel.released))
    (o := (0, [1])) (by decide +kernel) fun p hp heq => ?_
  obtain ⟨hactive, hreleased⟩ := Prod.mk.inj heq
  exact ⟨hactive, fun h t ht => ((active_count_exact hmeets hp).2 h t ht).2.1, hreleased⟩

/-- Two relays are active. The abort of the first takes its published state; before
it clears the backend, the reaper's stop finds nothing published and still reads
the worker backend. Both release, and the count says that no relay is active. -/
def overlappingStops : List HandleAction :=
  [.newTunnel none, .newTunnel none] ++ startOne 0 ++ startOne 1 ++
    [.abort 0, .stop 0 .abort {}, .reap 0 true] ++
    List.replicate 2 (.stop 0 .reaper {}) ++ List.replicate 7 (.stop 0 .abort {}) ++
      List.replicate 5 (.stop 0 .reaper {})

theorem overlappingStops_release_twice :
    (Machine.run step {} overlappingStops).map
      (fun p => (p.activeRelays, p.holders, p.tunnels.map Tunnel.released)) =
        some (0, [1], [2, 0]) := by
  decide +kernel

end Plane
end TcpQuicProxy.RelayControl
