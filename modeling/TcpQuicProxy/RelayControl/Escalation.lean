import TcpQuicProxy.RelayControl.Custody

/-!
# The escalation object of a relay's handoff control

`StartRelay` binds the escalation object of the tunnel's stream to the control in
the relay handle. The start then makes another control, registers the relay with
that one and puts it into the handle. The handoff control of the relay is made
from the registered control, so it carries no escalation object, and neither does
any shutdown that a worker begins.
-/

namespace TcpQuicProxy.RelayControl

open List Option Tables

/-! ### Handoff controls and shutdowns without an escalation object -/

def Controls.Bare (controls : Controls) : Prop :=
  ∀ (c : Nat) (x : StopControl) (handoff : TerminalHandoff), controls[c]? = some x →
    x.terminalHandoff = some handoff →
    handoff.escalation = none

def Tables.Bare (t : Tables) : Prop := ∀ s ∈ t.shutdowns, s.escalation = none

theorem blind_handoff : Tables.Blind StopControl.terminalHandoff :=
  fun x expected => congrArg (fun face => face.2.1) (blind_face x expected)

theorem blind_escalation : Tables.Blind StopControl.terminalEscalation :=
  fun x expected => congrArg (fun face => face.2.2) (blind_face x expected)

variable {controls controls' : Controls} {x : StopControl}

/-- A control keeps the values that the operation does not change. -/
theorem Tables.Same.exists_of_some {α : Type} {f : StopControl → α}
    (h : Tables.Same f controls controls') {c : Nat} (hx : controls[c]? = some x) :
    ∃ x', controls'[c]? = some x' ∧ f x' = f x := by
  have hget : controls'[c]?.map f = some (f x) := by
    rw [h.getElem? c, hx]
    rfl
  exact map_eq_some_iff.mp hget

theorem Controls.Bare.of_same (hb : controls.Bare)
    (hsame : Tables.Same StopControl.terminalHandoff controls controls') : controls'.Bare := by
  intro c x' handoff hx' hhandoff
  obtain ⟨x, hx, heq⟩ := Tables.Same.exists_of_some hsame.symm hx'
  exact hb c x handoff hx (heq.trans hhandoff)

theorem Controls.Bare.append (hb : controls.Bare) (hx : x.terminalHandoff = none) :
    (controls ++ [x] : Controls).Bare := by
  intro c y handoff hy hhandoff
  rw [getElem?_append] at hy
  split at hy
  · exact hb c y handoff hy hhandoff
  · rw [mem_singleton.mp (mem_of_getElem? hy), hx] at hhandoff
    cases hhandoff

namespace Tables

variable {t : Tables} {controls : Controls} {r : RelayRef}

theorem shutdowns_abortRelayAndRelease :
    (t.abortRelayAndRelease controls r).1.shutdowns = t.shutdowns := by
  unfold abortRelayAndRelease
  dsimp only
  split <;> simp [setState]

/-- A shutdown carries the escalation object of the relay's handoff control. -/
theorem Bare.beginTerminalHandoff {ledger sink : Bool} (ht : t.Bare) (hc : controls.Bare) :
    (t.beginTerminalHandoff controls r ledger sink).1.Bare := by
  unfold Tables.Bare Tables.beginTerminalHandoff
  split
  · rw [shutdowns_abortRelayAndRelease]
    exact ht
  · rename_i c _
    split
    · rw [shutdowns_abortRelayAndRelease]
      exact ht
    · split
      · rw [shutdowns_abortRelayAndRelease]
        exact ht
      · rename_i handoff hhandoff
        split
        · rw [shutdowns_abortRelayAndRelease]
          exact ht
        · obtain ⟨x, hx, hterminal⟩ := bind_eq_some_iff.mp hhandoff
          rw [shutdowns_abortRelayAndRelease]
          exact forall_mem_append.mpr
            ⟨ht, forall_mem_singleton.mpr (hc c x handoff hx hterminal)⟩

theorem Bare.commitRegistration (reg : Registration) (ans : Answers) (ht : t.Bare)
    (hc : controls.Bare) :
    (t.commitRegistration controls reg ans r).1.Bare := by
  have hclose : ∀ (u : Tables) (b : Bool), u.Bare →
      (if b then u.closeSocket r.object else u).Bare := by
    intro u b hu
    cases b
    · exact hu
    · exact fun s hs => hu s (shutdowns_closeSocket (t := u) r.object ▸ hs)
  unfold Tables.commitRegistration
  split
  · exact ht
  split
  · exact ht
  dsimp only
  split
  · exact hclose t _ ht
  split
  · refine hclose _ _ ?_
    change (if reg.stream && reg.tcpFd.isSome && reg.streamOwner then
      t.beginTerminalHandoff controls r ans.ledger ans.sink else (t, controls)).1.Bare
    split
    · exact ht.beginTerminalHandoff hc
    · exact ht
  · exact ht

theorem Bare.register (reg : Registration) (ans : Answers) (ht : t.Bare)
    (hc : (publishHandoff controls reg (reg.generation controls)).Bare) :
    (t.registerRelayWithIdLocal controls reg ans).1.Bare := by
  unfold registerRelayWithIdLocal
  split
  · exact ht
  split
  · exact ht
  dsimp only
  split
  · exact ht
  split
  · exact ht
  split
  · exact ht
  · refine Bare.commitRegistration reg ans ?_ hc
    exact ht

end Tables

/-! ### The plane -/

namespace Plane

variable {p p' : Plane} {h : Nat} {t t' : Tunnel}

/-- The relay of control `c` has a handoff control. -/
def HandedOff (p : Plane) (c : Nat) : Prop :=
  ∃ x handoff, p.controls[c]? = some x ∧ x.terminalHandoff = some handoff

/-- The control has no escalation object, and no handle has the control. -/
def Unbound (p : Plane) (c : Nat) : Prop :=
  (∃ x, p.controls[c]? = some x ∧ x.terminalEscalation = none) ∧
    ∀ (h : Nat) (t : Tunnel), p.tunnels[h]? = some t → t.control ≠ c

structure Bare (p : Plane) : Prop where
  controls : p.controls.Bare
  workers : ∀ (w : Nat) (o : WorkerObject), p.workers[w]? = some o → o.tables.Bare
  own : ∀ (h : Nat) (t : Tunnel), p.tunnels[h]? = some t → t.control < p.controls.length
  entering : ∀ h w c, p.Entering h w c → p.Unbound c
  carried : ∀ (h : Nat) (t : Tunnel) (w c : Nat), p.tunnels[h]? = some t → t.carries = some (w, c) →
    p.homes c = some w ∧ p.HandedOff c
  committed : ∀ (h : Nat) (t : Tunnel) (k : CommittedState), p.tunnels[h]? = some t →
    t.linuxCommitted = some k →
    p.HandedOff k.control

theorem bare_start : Bare {} where
  controls := by simp [Controls.Bare]
  workers := by simp
  own := by simp
  entering := by simp [Entering]
  carried := by simp
  committed := by simp

/-- Handoff controls stay with their controls. -/
def KeepsHandoffs (p p' : Plane) : Prop :=
  ∀ (c : Nat) (x : StopControl), p.controls[c]? = some x →
    ∃ x', p'.controls[c]? = some x' ∧ x'.terminalHandoff = x.terminalHandoff

variable {c w : Nat}

theorem HandedOff.kept (hc : p.HandedOff c) (hkeeps : KeepsHandoffs p p') : p'.HandedOff c := by
  obtain ⟨x, handoff, hx, hhandoff⟩ := hc
  obtain ⟨x', hx', heq⟩ := hkeeps c x hx
  exact ⟨x', handoff, hx', heq.trans hhandoff⟩

theorem KeepsHandoffs.length_le (hkeeps : KeepsHandoffs p p') :
    p.controls.length ≤ p'.controls.length := by
  by_contra hlt
  have hx := getElem?_eq_getElem (Nat.lt_of_not_le hlt)
  obtain ⟨x', hx', -⟩ := hkeeps _ _ hx
  rw [getElem?_eq_none le_rfl] at hx'
  cases hx'

/-- A tunnel that has just been made. -/
structure Tunnel.New (p p' : Plane) (t' : Tunnel) : Prop where
  starter : t'.starter = none
  committed : t'.linuxCommitted = none
  lower : p.controls.length ≤ t'.control
  upper : t'.control < p'.controls.length

/-- A step that registers nothing, publishes nothing and makes no control for a start. -/
theorem Bare.of_follows (hb : Bare p) (hh : Homes p) (hkeeps : KeepsHandoffs p p')
    (hcontrols : p'.controls.Bare)
    (hworkers : ∀ (w : Nat) (o : WorkerObject), p'.workers[w]? = some o → o.tables.Bare)
    (hhomes : p'.homes = p.homes)
    (hunbound : ∀ c, p.Unbound c → ∃ x, p'.controls[c]? = some x ∧ x.terminalEscalation = none)
    (htunnels : ∀ (h : Nat) (t' : Tunnel), p'.tunnels[h]? = some t' →
      (∃ t, p.tunnels[h]? = some t ∧ t.Follows t') ∨ Tunnel.New p p' t') : Bare p' where
  controls := hcontrols
  workers := hworkers
  own h t' ht' := by
    rcases htunnels h t' ht' with ⟨t, ht, hf⟩ | hnew
    · rw [hf.control]
      exact (hb.own h t ht).trans_le hkeeps.length_le
    · exact hnew.upper
  entering h w c he := by
    obtain ⟨t', ht', hs⟩ := he
    rcases htunnels h t' ht' with ⟨t, ht, hf⟩ | hnew
    · have hold : p.Entering h w c := ⟨t, ht, hf.entering w c hs⟩
      have hfree := hb.entering h w c hold
      refine ⟨hunbound c hfree, fun h₂ t₂ ht₂ => ?_⟩
      rcases htunnels h₂ t₂ ht₂ with ⟨u, hu, hf₂⟩ | hnew
      · rw [hf₂.control]
        exact hfree.2 h₂ u hu
      · exact ((hh.fresh h w c hold).2.trans_le hnew.lower).ne'
    · rw [hnew.starter] at hs
      cases hs
  carried h t' w c ht' hc := by
    rcases htunnels h t' ht' with ⟨t, ht, hf⟩ | hnew
    · rcases hf.carries with hnone | hsame
      · rw [hnone] at hc
        cases hc
      · obtain ⟨hhome, hhanded⟩ := hb.carried h t w c ht (hsame ▸ hc)
        exact ⟨hhomes ▸ hhome, hhanded.kept hkeeps⟩
    · rw [Tunnel.carries, hnew.starter] at hc
      cases hc
  committed h t' k ht' hk := by
    rcases htunnels h t' ht' with ⟨t, ht, hf⟩ | hnew
    · rcases hf.committed with hnone | hsame
      · rw [hnone] at hk
        cases hk
      · exact (hb.committed h t k ht (hsame ▸ hk)).kept hkeeps
    · rw [hnew.committed] at hk
      cases hk

/-- The same for a step that changes neither handoffs nor escalation objects. -/
theorem Bare.of_same (hb : Bare p) (hh : Homes p)
    (hhandoff : Tables.Same StopControl.terminalHandoff p.controls p'.controls)
    (hescalation : Tables.Same StopControl.terminalEscalation p.controls p'.controls)
    (hworkers : ∀ (w : Nat) (o : WorkerObject), p'.workers[w]? = some o → o.tables.Bare)
    (hhomes : p'.homes = p.homes)
    (htunnels : ∀ (h : Nat) (t' : Tunnel), p'.tunnels[h]? = some t' →
      ∃ t, p.tunnels[h]? = some t ∧ t.Follows t') : Bare p' := by
  refine hb.of_follows hh (fun c x hx => hhandoff.exists_of_some hx) (hb.controls.of_same hhandoff)
    hworkers hhomes ?_
    fun h t' ht' => .inl (htunnels h t' ht')
  rintro c ⟨⟨x, hx, hnone⟩, -⟩
  obtain ⟨x', hx', heq⟩ := hescalation.exists_of_some hx
  exact ⟨x', hx', heq.trans hnone⟩

theorem follows_of_eq (htunnels : p'.tunnels = p.tunnels) :
    ∀ (h : Nat) (t' : Tunnel), p'.tunnels[h]? = some t' →
      ∃ t, p.tunnels[h]? = some t ∧ t.Follows t' :=
  fun _ t' ht' => ⟨t', htunnels ▸ ht', Tunnel.Follows.refl t'⟩

theorem follows_set (ht : p.tunnels[h]? = some t) (hf : t.Follows t')
    (htunnels : p'.tunnels = p.tunnels.set h t') :
    ∀ (h : Nat) (t' : Tunnel), p'.tunnels[h]? = some t' →
      ∃ t, p.tunnels[h]? = some t ∧ t.Follows t' := by
  intro h' u hu
  rw [htunnels] at hu
  rcases Machine.getElem?_set_cases hu with ⟨rfl, rfl⟩ | ⟨-, hu⟩
  · exact ⟨t, ht, hf⟩
  · exact ⟨u, hu, Tunnel.Follows.refl u⟩

variable {o : WorkerObject} {ok : Bool}

theorem bare_of_face {o' : WorkerObject} (hface : o'.face = o.face) (ho : o.tables.Bare) :
    o'.tables.Bare := by
  have hshutdowns : o'.tables.shutdowns = o.tables.shutdowns :=
    congrArg (fun face => face.2.2) hface
  intro s hs
  exact ho s (hshutdowns ▸ hs)

theorem workers_bare_of_faces (hb : Bare p)
    (hworkers : p'.workers.map WorkerObject.face = p.workers.map WorkerObject.face) :
    ∀ (w : Nat) (o : WorkerObject), p'.workers[w]? = some o → o.tables.Bare := by
  intro w o' ho'
  obtain ⟨o, ho, hface⟩ := faces_getElem? hworkers.symm ho'
  exact bare_of_face hface.symm (hb.workers w o ho)

theorem workers_bare_set (hb : Bare p) (ho : o.tables.Bare)
    (hworkers : p'.workers = p.workers.set w o) :
    ∀ (w : Nat) (o : WorkerObject), p'.workers[w]? = some o → o.tables.Bare := by
  intro w' o' ho'
  rw [hworkers] at ho'
  rcases Machine.getElem?_set_cases ho' with ⟨-, rfl⟩ | ⟨-, ho'⟩
  · exact ho
  · exact hb.workers w' o' ho'

theorem keepsHandoffs_append (p : Plane) (x : StopControl) {q : Plane}
    (hq : q.controls = p.controls ++ [x]) : KeepsHandoffs p q := by
  intro c y hy
  rw [hq, getElem?_append_left (List.getElem?_eq_some_iff.mp hy).1]
  exact ⟨y, hy, rfl⟩

theorem Bare.newTunnel (hb : Bare p) (hh : Homes p) (terminalEscalation : Option Nat) :
    Bare { p.makeControl with
      tunnels := p.tunnels ++ [{ control := p.controls.length, terminalEscalation }] } := by
  refine hb.of_follows hh (keepsHandoffs_append p _ rfl) (hb.controls.append rfl)
    hb.workers rfl ?_ fun h t' ht' => ?_
  · rintro c ⟨⟨x, hx, hnone⟩, -⟩
    refine ⟨x, ?_, hnone⟩
    simp only [makeControl]
    rw [getElem?_append_left (List.getElem?_eq_some_iff.mp hx).1]
    exact hx
  · rw [getElem?_append] at ht'
    split at ht'
    · exact .inl ⟨t', ht', Tunnel.Follows.refl t'⟩
    · rw [mem_singleton.mp (mem_of_getElem? ht')]
      exact .inr ⟨rfl, rfl, le_rfl, by simp [makeControl]⟩

theorem Bare.startRelay (hb : Bare p) (hh : Homes p) (ht : p.tunnels[h]? = some t) :
    Bare ((p.modifyControl t.control fun x =>
      { x with terminalEscalation := t.terminalEscalation }).setTunnel h
      (t.setStarter (some .reserve))) := by
  have hhandoff : Tables.Same StopControl.terminalHandoff p.controls
      (p.controls.modify t.control fun x =>
        { x with terminalEscalation := t.terminalEscalation }) := same_modify _ fun _ => rfl
  have hf : t.Follows (t.setStarter (some .reserve)) :=
    ⟨rfl, by simp [Tunnel.setStarter], .inl rfl, .inr rfl⟩
  refine hb.of_follows hh (fun c x hx => hhandoff.exists_of_some hx) (hb.controls.of_same hhandoff)
    hb.workers rfl ?_
    fun h' t' ht' => .inl (follows_set ht hf rfl h' t' ht')
  rintro c ⟨⟨x, hx, hnone⟩, hfree⟩
  refine ⟨x, ?_, hnone⟩
  simp only [setTunnel, modifyControl]
  rw [getElem?_modify, hx]
  simp [hfree h t ht]

theorem Bare.makeControl (hb : Bare p) (hh : Homes p) (ht : p.tunnels[h]? = some t) :
    Bare (p.makeControl.setTunnel h (t.setStarter (some (.register w p.controls.length)))) := by
  -- The step in two halves: the control is made, and the start enters with it.
  have hmade : Bare p.makeControl := by
    refine hb.of_follows hh (keepsHandoffs_append p _ rfl) (hb.controls.append rfl)
      hb.workers rfl ?_
      fun h' t' ht' => .inl ⟨t', ht', Tunnel.Follows.refl t'⟩
    rintro c ⟨⟨x, hx, hnone⟩, -⟩
    refine ⟨x, ?_, hnone⟩
    simp only [Plane.makeControl]
    rw [getElem?_append_left (List.getElem?_eq_some_iff.mp hx).1]
    exact hx
  have hcontrol : ∀ {h' : Nat} {u : Tunnel},
      (p.tunnels.set h (t.setStarter (some (.register w p.controls.length))))[h']? = some u →
      ∃ u₀, p.tunnels[h']? = some u₀ ∧ u.control = u₀.control ∧
        u.linuxCommitted = u₀.linuxCommitted ∧
        (u.carries = none ∨ u = u₀) := by
    intro h' u hu
    rcases Machine.getElem?_set_cases hu with ⟨rfl, rfl⟩ | ⟨-, hu⟩
    · exact ⟨t, ht, rfl, rfl, .inl rfl⟩
    · exact ⟨u, hu, rfl, rfl, .inr rfl⟩
  refine ⟨hmade.controls, hmade.workers, fun h' u hu => ?_, fun h' w' c he => ?_,
    fun h' u w' c hu hc => ?_, fun h' u k hu hk => ?_⟩
  · obtain ⟨u₀, hu₀, heq, -, -⟩ := hcontrol hu
    rw [heq]
    exact hmade.own h' u₀ hu₀
  · have hfree : p.makeControl.Unbound c := by
      rcases entering_set rfl he with ⟨-, hs⟩ | ⟨-, hold⟩
      · obtain ⟨rfl, rfl⟩ := StartPc.register.inj (some.inj hs)
        refine ⟨⟨{ generation := p.nextControlGeneration }, by simp [Plane.makeControl], rfl⟩,
          fun h₂ t₂ ht₂ => ?_⟩
        exact (hb.own h₂ t₂ ht₂).ne
      · exact hmade.entering h' w' c hold
    refine ⟨hfree.1, fun h₂ t₂ ht₂ => ?_⟩
    obtain ⟨u₀, hu₀, heq, -, -⟩ := hcontrol ht₂
    rw [heq]
    exact hfree.2 h₂ u₀ hu₀
  · obtain ⟨u₀, hu₀, -, -, hnone | rfl⟩ := hcontrol hu
    · rw [hnone] at hc
      cases hc
    · exact hmade.carried h' u w' c hu₀ hc
  · obtain ⟨u₀, hu₀, -, heq, -⟩ := hcontrol hu
    exact hmade.committed h' u₀ k hu₀ (heq ▸ hk)

/-- The handoff control of a registration has the escalation object of the registered control. -/
theorem getElem?_publishHandoff (p : Plane) (c d : Nat) (out : Outside) (generation : Nat) :
    (Tables.publishHandoff p.controls (p.registration c out) generation)[d]? =
      p.controls[d]?.map fun x => if c =
        d then { x with terminalHandoff := some ⟨generation, x.terminalEscalation⟩ } else x := by
  simp only [publishHandoff, registration, if_true]
  rw [getElem?_modify]
  rfl

theorem published_handoff {d : Nat} (out : Outside) (generation : Nat)
    (hx : p.controls[d]? = some x) (hhas : c = d ∨ ∃ handoff, x.terminalHandoff = some handoff) :
    ∃ y handoff, (Tables.publishHandoff p.controls (p.registration c out) generation)[d]? = some y ∧
      y.terminalHandoff = some handoff := by
  rw [getElem?_publishHandoff, hx]
  by_cases hcd : c = d
  · exact ⟨{ x with terminalHandoff := some ⟨generation, x.terminalEscalation⟩ },
      ⟨generation, x.terminalEscalation⟩, by simp [hcd], rfl⟩
  · obtain ⟨handoff, hhandoff⟩ := hhas.resolve_left hcd
    exact ⟨x, handoff, by simp [hcd], hhandoff⟩

theorem bare_publishHandoff (hb : Bare p)
    (hc : ∃ x, p.controls[c]? = some x ∧ x.terminalEscalation = none) (out : Outside)
    (generation : Nat) :
    (Tables.publishHandoff p.controls (p.registration c out) generation).Bare := by
  obtain ⟨y, hy, hnone⟩ := hc
  intro d x handoff hx hhandoff
  rw [getElem?_publishHandoff] at hx
  obtain ⟨x₀, hx₀, rfl⟩ := map_eq_some_iff.mp hx
  split at hhandoff
  · rename_i heq
    subst heq
    obtain rfl : y = x₀ := some.inj (hy.symm.trans hx₀)
    cases hhandoff
    exact hnone
  · exact hb.controls d x₀ handoff hx₀ hhandoff

/-- What a registration leaves in the controls: no escalation object moves, handoff
controls stay and carry nothing, and a registration that succeeds has made one. -/
structure Handed (p p' : Plane) (c : Nat) (ok : Bool) : Prop where
  bare : p'.controls.Bare
  escalation : Tables.Same StopControl.terminalEscalation p.controls p'.controls
  kept : ∀ d, p.HandedOff d → p'.HandedOff d
  made : ok = true → p'.HandedOff c

theorem handed_register (hb : Bare p)
    (hc : ∃ x, p.controls[c]? = some x ∧ x.terminalEscalation = none) (out : Outside)
    (tables : Tables)
    (hok : (tables.registerRelayWithIdLocal p.controls (p.registration c out) out.answers).2.2.ok =
      ok)
    (hcontrols : p'.controls =
      (tables.registerRelayWithIdLocal p.controls (p.registration c out) out.answers).2.1) :
    Handed p p' c ok := by
  have hpublished := bare_publishHandoff hb hc out ((p.registration c out).generation p.controls)
  rcases same_register tables p.controls blind_face (p.registration c out)
    out.answers with ⟨hfalse, heq⟩ | hsame
  · have hcontrols := hcontrols.trans heq
    refine ⟨hcontrols ▸ hb.controls, congrArg (List.map StopControl.terminalEscalation) hcontrols,
      fun d hd => ?_, fun htrue => ?_⟩
    · obtain ⟨x, handoff, hx, hhandoff⟩ := hd
      exact ⟨x, handoff, hcontrols ▸ hx, hhandoff⟩
    · rw [← hok, hfalse] at htrue
      cases htrue
  · rw [← hcontrols] at hsame
    have hproject : ∀ {α : Type} (g : Bool × Option TerminalHandoff × Option Nat → α),
        Tables.Same (g ∘ StopControl.face) (publishHandoff p.controls (p.registration c out)
          ((p.registration c out).generation p.controls)) p'.controls := by
      intro α g
      have := congrArg (List.map g) hsame
      rwa [List.map_map, List.map_map] at this
    have hhandoff :
      Tables.Same StopControl.terminalHandoff (publishHandoff p.controls (p.registration c out)
      ((p.registration c out).generation p.controls)) p'.controls := hproject fun face => face.2.1
    have hescalation :
      Tables.Same StopControl.terminalEscalation (publishHandoff p.controls (p.registration c out)
      ((p.registration c out).generation p.controls)) p'.controls := hproject fun face => face.2.2
    have hoff : ∀ {d : Nat} {x : StopControl}, p.controls[d]? = some x →
        (c = d ∨ ∃ handoff, x.terminalHandoff = some handoff) → p'.HandedOff d := by
      intro d x hx hhas
      obtain ⟨y, handoff, hy, hterminal⟩ := published_handoff out _ hx hhas
      obtain ⟨x', hx', heq⟩ := hhandoff.exists_of_some hy
      exact ⟨x', handoff, hx', heq.trans hterminal⟩
    refine ⟨hpublished.of_same hhandoff,
      (same_publishHandoff (fun _ _ => rfl) _ _).trans hescalation, fun d hd => ?_, fun _ => ?_⟩
    · obtain ⟨x, handoff, hx, hterminal⟩ := hd
      exact hoff hx (.inr ⟨handoff, hterminal⟩)
    · obtain ⟨x, hx, -⟩ := hc
      exact hoff hx (.inl rfl)

theorem Bare.registered (hb : Bare p) (hh : Homes p) {next : Option StartPc}
    (ht : p.tunnels[h]? = some t) (hs : t.starter = some (.register w c))
    (hhanded : Handed p p' c ok)
    (hworkers : ∀ (w : Nat) (o : WorkerObject), p'.workers[w]? = some o → o.tables.Bare)
    (hhomes : p'.homes = Function.update p.homes c (some w))
    (htunnels : p'.tunnels = p.tunnels.set h (t.setStarter next))
    (hnext : ∀ w c, next ≠ some (.register w c))
    (hcarries : ∀ w' c', next.bind StartPc.carries = some (w', c') → (w', c') =
    (w, c) ∧ ok = true) :
    Bare p' := by
  have hold : ∀ {h' : Nat} {u : Tunnel}, p'.tunnels[h']? = some u →
      ∃ u₀, p.tunnels[h']? = some u₀ ∧ u.control = u₀.control ∧
      u.linuxCommitted = u₀.linuxCommitted ∧ (u.carries = next.bind StartPc.carries ∨ u = u₀) := by
    intro h' u hu
    rw [htunnels] at hu
    rcases Machine.getElem?_set_cases hu with ⟨rfl, rfl⟩ | ⟨-, hu⟩
    · exact ⟨t, ht, rfl, rfl, .inl rfl⟩
    · exact ⟨u, hu, rfl, rfl, .inr rfl⟩
  have hnone := (hh.fresh h w c ⟨t, ht, hs⟩).1
  refine ⟨hhanded.bare, hworkers, fun h' u hu => ?_, fun h' w' c' he => ?_,
    fun h' u w' c' hu hc' => ?_, fun h' u k hu hk => ?_⟩
  · obtain ⟨u₀, hu₀, heq, -, -⟩ := hold hu
    rw [heq, hhanded.escalation.length]
    exact hb.own h' u₀ hu₀
  · obtain ⟨-, hentering⟩ := entering_of_set htunnels hnext he
    obtain ⟨⟨x, hx, hescalation⟩, hfree⟩ := hb.entering h' w' c' hentering
    obtain ⟨x', hx', heq⟩ := hhanded.escalation.exists_of_some hx
    refine ⟨⟨x', hx', heq.trans hescalation⟩, fun h₂ t₂ ht₂ => ?_⟩
    obtain ⟨u₀, hu₀, heq, -, -⟩ := hold ht₂
    rw [heq]
    exact hfree h₂ u₀ hu₀
  · obtain ⟨u₀, hu₀, -, -, hnow | rfl⟩ := hold hu
    · obtain ⟨hpair, hok⟩ := hcarries w' c' (hnow ▸ hc')
      cases hpair
      rw [hhomes, Function.update_self]
      exact ⟨rfl, hhanded.made hok⟩
    · obtain ⟨hhome, hhandoff⟩ := hb.carried h' u w' c' hu₀ hc'
      have hne : c' ≠ c := by
        rintro rfl
        rw [hnone] at hhome
        cases hhome
      rw [hhomes, Function.update_of_ne hne]
      exact ⟨hhome, hhanded.kept c' hhandoff⟩
  · obtain ⟨u₀, hu₀, -, heq, -⟩ := hold hu
    exact hhanded.kept _ (hb.committed h' u₀ k hu₀ (heq ▸ hk))

theorem Bare.register (hb : Bare p) (hh : Homes p) (out : Outside) (ht : p.tunnels[h]? = some t)
    (hs : t.starter = some (.register w c)) :
    Bare ((p.register w c out).1.setTunnel h
      (t.setStarter (if (p.register w c out).2.ok then
        some (.checkStop w c (p.register w c out).2.relayId) else some .failed))) := by
  obtain ⟨hfree, -⟩ := hb.entering h w c ⟨t, ht, hs⟩
  rcases p.register_cases w c out with ⟨heq, hok⟩ | ⟨o, q, ho, rfl, heq, hresult⟩
  · rw [heq, hok]
    have hf : t.Follows (t.setStarter (some .failed)) :=
      ⟨rfl, by simp [Tunnel.setStarter], .inl rfl, .inr rfl⟩
    exact hb.of_same hh rfl rfl hb.workers rfl (follows_set ht hf rfl)
  · have htables :
        (o.tables.registerRelayWithIdLocal p.controls (p.registration c out) out.answers).1.Bare :=
      Tables.Bare.register (p.registration c out) out.answers (hb.workers w o ho)
        (bare_publishHandoff hb hfree out ((p.registration c out).generation p.controls))
    rw [heq, hresult]
    refine hb.registered hh ht hs (handed_register hb hfree out o.tables rfl rfl)
      (workers_bare_set hb htables rfl) rfl rfl ?_ ?_
    · intro w' c'
      split <;> simp
    · intro w' c' hcarries
      split at hcarries
      · rename_i hok
        exact ⟨(some.inj hcarries).symm, hok⟩
      · cases hcarries

/-- A start takes a control that it has registered into the handle, or publishes it. -/
theorem Bare.setTunnel (hb : Bare p) (hh : Homes p) (ht : p.tunnels[h]? = some t)
    (hcarries : t.carries = some (w, c)) (hcontrol : t'.control = t.control ∨ t'.control = c)
    (hs' : ∀ w c, t'.starter ≠ some (.register w c))
    (hcarries' : t'.carries = none ∨ t'.carries = t.carries)
    (hcommitted : t'.linuxCommitted = t.linuxCommitted ∨
      ∃ k, t'.linuxCommitted = some k ∧ k.control = c) : Bare (p.setTunnel h t') := by
  obtain ⟨hhome, hhanded⟩ := hb.carried h t w c ht hcarries
  have hold : ∀ {h' : Nat} {u : Tunnel}, (p.setTunnel h t').tunnels[h']? = some u →
      (h' = h ∧ u = t') ∨ p.tunnels[h']? = some u :=
    fun hu => (Machine.getElem?_set_cases hu).imp_right And.right
  refine ⟨hb.controls, hb.workers, fun h' u hu => ?_, fun h' w' c' he => ?_,
    fun h' u w' c' hu hc' => ?_, fun h' u k hu hk => ?_⟩
  · rcases hold hu with ⟨-, rfl⟩ | hu
    · rcases hcontrol with heq | heq <;> rw [heq]
      · exact hb.own h t ht
      · exact hh.known c w hhome
    · exact hb.own h' u hu
  · obtain ⟨-, hentering⟩ := entering_of_set rfl hs' he
    obtain ⟨hescalation, hfree⟩ := hb.entering h' w' c' hentering
    refine ⟨hescalation, fun h₂ t₂ ht₂ => ?_⟩
    rcases hold ht₂ with ⟨-, rfl⟩ | ht₂
    · rcases hcontrol with heq | heq <;> rw [heq]
      · exact hfree h t ht
      · -- The start's own control has a home by now, one that is entering has none.
        rintro rfl
        rw [(hh.fresh h' w' c hentering).1] at hhome
        cases hhome
    · exact hfree h₂ t₂ ht₂
  · rcases hold hu with ⟨-, rfl⟩ | hu
    · rcases hcarries' with heq | heq <;> rw [heq] at hc'
      · cases hc'
      · exact hb.carried h t w' c' ht hc'
    · exact hb.carried h' u w' c' hu hc'
  · rcases hold hu with ⟨-, rfl⟩ | hu
    · rcases hcommitted with heq | ⟨k', heq, hk'⟩ <;> rw [heq] at hk
      · exact hb.committed h t k ht hk
      · cases hk
        rw [hk']
        exact hhanded
    · exact hb.committed h' u k hu hk

theorem same_handoff_endEndpoint (controls : Controls) (control : Option Nat) :
    Tables.Same StopControl.terminalHandoff controls (controls.endEndpoint control) ∧
      Tables.Same StopControl.terminalEscalation controls (controls.endEndpoint control) := by
  cases control with
  | none => exact ⟨rfl, rfl⟩
  | some c => exact ⟨same_modify _ fun _ => rfl, same_modify _ fun _ => rfl⟩

theorem Bare.runtime (hb : Bare p) (hh : Homes p) {ledger sink : Bool} {pc : RuntimeStop}
    (hstop : p.runtime.stop = some pc) (hstep : p.runtimeStep ledger sink pc = some p') :
    Bare p' := by
  have hfollows := follows_of_eq (runtimeStep_keeps hstep).1
  obtain ⟨hhomes, -, -, hcases⟩ := runtimeStep_cases hstop hstep (hh.stopping (by rw [hstop]; simp))
  rcases hcases with ⟨hcontrols, hworkers, -⟩ | ⟨w, o, relays, rest, ho, hcontrols, hworkers, -⟩ |
    ⟨w, o, r, active, relays, rest, q, -, ho, hq, hworkers, hcontrols, -⟩
  · exact hb.of_same hh (congrArg (List.map StopControl.terminalHandoff) hcontrols)
      (congrArg (List.map StopControl.terminalEscalation) hcontrols)
      (workers_bare_of_faces hb hworkers) hhomes hfollows
  · refine hb.of_same hh (congrArg (List.map StopControl.terminalHandoff) hcontrols)
      (congrArg (List.map StopControl.terminalEscalation) hcontrols) (fun w' o' ho' => ?_)
      hhomes hfollows
    rw [getElem?_stopWorker w' hworkers] at ho'
    obtain ⟨o₀, ho₀, rfl⟩ := map_eq_some_iff.mp ho'
    split <;> exact hb.workers w' o₀ ho₀
  · obtain ⟨hhandoff, hescalation⟩ :=
      same_handoff_endEndpoint p.controls (o.tables.states r.object).stopControl
    have hended := hb.controls.of_same hhandoff
    have hafter : Tables.Same StopControl.terminalHandoff
        (p.controls.endEndpoint (o.tables.states r.object).stopControl) q.2 ∧
        Tables.Same StopControl.terminalEscalation
          (p.controls.endEndpoint (o.tables.states r.object).stopControl) q.2 ∧ q.1.Bare := by
      subst hq
      cases active with
      | true =>
        exact ⟨same_beginTerminalHandoff blind_handoff, same_beginTerminalHandoff blind_escalation,
          (hb.workers w o ho).beginTerminalHandoff hended⟩
      | false => exact ⟨rfl, rfl, hb.workers w o ho⟩
    rw [← hcontrols] at hafter
    exact hb.of_same hh (hhandoff.trans hafter.1) (hescalation.trans hafter.2.1)
      (workers_bare_set hb hafter.2.2 hworkers) hhomes hfollows

theorem Bare.change (hb : Bare p) (hh : Homes p) (hchange : Change p p') : Bare p' := by
  cases hchange with
  | calm hview hcore hfollows =>
    have hface : Tables.Same StopControl.face p.controls p'.controls := congrArg Prod.fst hview
    have hproject : ∀ {α : Type} (g : Bool × Option TerminalHandoff × Option Nat → α),
        Tables.Same (g ∘ StopControl.face) p.controls p'.controls := by
      intro α g
      have := congrArg (List.map g) hface
      rwa [List.map_map, List.map_map] at this
    exact hb.of_same hh (hproject fun face => face.2.1) (hproject fun face => face.2.2)
      (workers_bare_of_faces hb (congrArg (fun view => view.2.1) hview))
      (congrArg (fun view => view.2.2) hview) hfollows
  | newTunnel terminalEscalation heq => exact heq ▸ hb.newTunnel hh terminalEscalation
  | startRelay h t ht heq => exact heq ▸ hb.startRelay hh ht
  | startWorkers h t count ht hstate heq =>
    subst heq
    have hf : t.Follows (t.setStarter (some .pickWorker)) :=
      ⟨rfl, by simp [Tunnel.setStarter], .inl rfl, .inr rfl⟩
    refine hb.of_same hh rfl rfl (fun w o ho => ?_) rfl (follows_set ht hf rfl)
    simp only [Plane.setTunnel, Plane.startWorkers, getElem?_append] at ho
    split at ho
    · exact hb.workers w o ho
    · obtain ⟨j, -, rfl⟩ := map_eq_some_iff.mp (getElem?_map ▸ ho)
      intro s hs
      cases hs
  | makeControl h t w ht heq => exact heq ▸ hb.makeControl hh ht
  | register h t w c out ht hs heq => exact heq ▸ hb.register hh out ht hs
  | mirrors h t w c relayId ht hs heq =>
    have hcarries : t.carries = some (w, c) := by simp [Tunnel.carries, hs, StartPc.carries]
    exact heq ▸ hb.setTunnel hh ht hcarries (.inr rfl) (by simp) (.inr hcarries.symm) (.inl rfl)
  | publish h t w c relayId ht hs heq =>
    have hcarries : t.carries = some (w, c) := by simp [Tunnel.carries, hs, StartPc.carries]
    exact heq ▸ hb.setTunnel hh ht hcarries (.inl rfl) (by simp) (.inl rfl) (.inr ⟨_, rfl, rfl⟩)
  | stopRuntime hstate heq => exact heq ▸ hb.of_same hh rfl rfl hb.workers rfl (follows_of_eq rfl)
  | runtime ledger sink pc hstop hstep => exact hb.runtime hh hstop hstep
  | handoff w o r ledger sink ho heq =>
    subst heq
    exact hb.of_same hh (same_beginTerminalHandoff blind_handoff)
      (same_beginTerminalHandoff blind_escalation)
      (workers_bare_set hb ((hb.workers w o ho).beginTerminalHandoff hb.controls) rfl) rfl
      (follows_of_eq rfl)

theorem bare_run {as : List HandleAction} (hrun : Machine.run step {} as = some p) :
    Bare p ∧ Homes p := by
  have hkept : ∀ (q : Plane) (a : HandleAction) (q' : Plane), Bare q ∧ Homes q →
      q.step a = some q' → Bare q' ∧ Homes q' := by
    rintro q a q' ⟨hb, hh⟩ hstep
    have hchange := step_change hstep
    exact ⟨hb.change hh hchange, hh.change hchange⟩
  exact Machine.invariant hkept ⟨bare_start, homes_start⟩ hrun

/-- In every run the relay that a tunnel has published has a handoff control. The
handoff control, and every shutdown that a worker began for the relay's control,
carry what the tunnel's stream was bound with only if that is nothing. -/
theorem handoff_carries_bound_iff {as : List HandleAction} {k : CommittedState}
    (hrun : Machine.run step {} as = some p) (ht : p.tunnels[h]? = some t)
    (hk : t.linuxCommitted = some k) :
    (∃ (x : StopControl) (handoff : TerminalHandoff), p.controls[k.control]? = some x ∧
      x.terminalHandoff = some handoff ∧
        (handoff.escalation = t.terminalEscalation ↔ t.terminalEscalation = none)) ∧
      ∀ (w : Nat) (o : WorkerObject), p.workers[w]? = some o →
        ∀ s ∈ o.tables.shutdowns, s.control = k.control →
        (s.escalation = t.terminalEscalation ↔ t.terminalEscalation = none) := by
  have hb := (bare_run hrun).1
  obtain ⟨x, handoff, hx, hhandoff⟩ := hb.committed h t k ht hk
  refine ⟨⟨x, handoff, hx, hhandoff, ?_⟩, fun w o ho s hs _ => ?_⟩
  · rw [hb.controls k.control x handoff hx hhandoff, eq_comm]
  · rw [hb.workers w o ho s hs, eq_comm]

/-- A tunnel whose stream is bound with escalation object 7 starts its relay, and the
worker begins the terminal shutdown of it. -/
def boundThenHandedOff : List HandleAction :=
  [.newTunnel (some 7)] ++ startOne 0 ++ [.worker 0 (.handoff 0 true true)]

theorem boundThenHandedOff_carries_nothing :
    (Machine.run step {} boundThenHandedOff).map
      (fun p =>
        (p.tunnels.map fun t => (t.terminalEscalation, t.linuxCommitted.map CommittedState.control),
        p.workers.map fun o => o.tables.shutdowns)) = some ([(some 7, some 1)], [[⟨1, none⟩]]) := by
  decide +kernel

theorem bound_start_carries_nothing :
    ∃ p t k, Machine.run step {} ([.newTunnel (some 7)] ++ startOne 0) = some p ∧
      p.tunnels[0]? = some t ∧ t.linuxCommitted = some k ∧
      ∃ (x : StopControl) (handoff : TerminalHandoff), p.controls[k.control]? = some x ∧
        x.terminalHandoff = some handoff ∧
        handoff.escalation ≠ some 7 := by
  have hrun : (Machine.run step {} ([.newTunnel (some 7)] ++ startOne 0)).bind
      (fun p => p.tunnels[0]?.bind fun t => t.linuxCommitted.map fun k =>
        (k.control, t.terminalEscalation)) = some (1, some 7) := by
    decide +kernel
  obtain ⟨p, hp, hrest⟩ := bind_eq_some_iff.mp hrun
  obtain ⟨t, ht, hrest⟩ := bind_eq_some_iff.mp hrest
  obtain ⟨k, hk, heq⟩ := map_eq_some_iff.mp hrest
  have hbound : t.terminalEscalation = some 7 := (Prod.mk.inj heq).2
  obtain ⟨⟨x, handoff, hx, hhandoff, hiff⟩, -⟩ := handoff_carries_bound_iff hp ht hk
  refine ⟨p, t, k, hp, ht, hk, x, handoff, hx, hhandoff, fun hcarried => ?_⟩
  have hnone := hiff.mp (hcarried.trans hbound.symm)
  rw [hbound] at hnone
  cases hnone

end Plane
end TcpQuicProxy.RelayControl
