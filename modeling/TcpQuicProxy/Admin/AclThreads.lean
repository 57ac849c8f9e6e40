import TcpQuicProxy.Admin.AclPatch
import TcpQuicProxy.Machine.Pool

/-!
# Patches from several admin threads

Each thread that handles a patch goes through the four steps of the request, and
the steps of several threads interleave. The lists that a thread writes, hands
over and commits are the ones that it built at the beginning.

As long as a request begins only when no other one is under way, the steps of a
request find what its build found, and the copies agree in between requests
(`Settled`). Nothing in the process makes requests wait for each other, and two
that overlap can lose one of the patches and leave copies that differ.
-/

namespace TcpQuicProxy.Admin

open Platform Config

/-- The steps of a request that are still to come. -/
inductive Call where
  | build (patch : ServerConfigPatch)
  | write (patch : ServerConfigPatch) (next : Next)
  | update (patch : ServerConfigPatch) (next : Next)
  | commit (patch : ServerConfigPatch) (next : Next)

def execute (inet : Inet) (writeOk : Bool) (s : Server) : Call → Server × List Call
  | .build patch =>
    match s.build inet patch with
    | .error _ => (s, [])
    | .ok next => (s, [.write patch next])
  | .write patch next =>
    match s.writeFile next writeOk with
    | .error _ => (s, [])
    | .ok s' => (s', [.update patch next])
  | .update patch next => (s.updateAcl next, [.commit patch next])
  | .commit patch next => (s.commit patch next, [])

abbrev Admins (θ : Type) := Machine.Pool θ Server Call

/-- A thread takes a request, or makes the next step of the one that it has. -/
inductive Action (θ : Type) where
  | request (t : θ) (body : FileBody)
  | advance (t : θ) (writeOk : Bool)

section

variable {θ : Type} [DecidableEq θ]

def step (inet : Inet) (p : Admins θ) : Action θ → Option (Admins θ)
  | .request t body =>
    match parseServerConfigPatch body with
    | .error _ => p.enter t []
    | .ok patch => p.enter t [.build patch]
  | .advance t writeOk => p.advance (execute inet writeOk) t

/-- No patch is in progress. -/
def Quiet (p : Admins θ) : Prop := ∀ t, p.calls t = []

/-- A request begins only when no patch is in progress. -/
def Alone (p : Admins θ) : Action θ → Prop
  | .request _ _ => Quiet p
  | .advance _ _ => True

instance [Fintype θ] (p : Admins θ) : Decidable (Quiet p) :=
  inferInstanceAs (Decidable (∀ t, p.calls t = []))

instance [Fintype θ] (p : Admins θ) : (a : Action θ) → Decidable (Alone p a)
  | .request _ _ => inferInstanceAs (Decidable (Quiet p))
  | .advance _ _ => .isTrue trivial

def startThreads (config : ProxyConfig) (file : Option FileBody) : Admins θ :=
  ⟨Server.start config file, fun _ => []⟩

end

/-- The lists that patches lead to, one after the other. -/
def applyAll (acl : Acl.Rules) (patches : List ServerConfigPatch) : Acl.Rules :=
  patches.foldl (fun acl patch => patch.applyTo acl) acl

/-- The configuration has the lists of the patches that were answered. -/
structure Recorded (initial : Acl.Rules) (s : Server) : Prop where
  state : s.stateAcl = s.config.acl
  history : s.config.acl = applyAll initial s.answered

/-- Between requests all copies agree; the file does so from the beginning or
from the first patch on. -/
structure Settled (initial : Acl.Rules) (agreed : Prop) (s : Server) :
    Prop extends Recorded initial s where
  reactor : s.reactorAcl = s.config.acl
  file : agreed ∨ s.answered ≠ [] → loadServerAcl s.config.configPath s.file = .ok s.config.acl

/-- What was built is what the patch makes of the lists in force. -/
structure Builds (s : Server) (patch : ServerConfigPatch) (next : Next) : Prop where
  acl : next.acl = patch.applyTo s.config.acl
  config : next.config.acl = next.acl
  path : next.config.configPath = s.config.configPath
  available : s.config.configPath.isEmpty = false

/-- A request that is under way, by the step that comes next. -/
def UnderWay (initial : Acl.Rules) (agreed : Prop) (s : Server) : List Call → Prop
  | [] => Settled initial agreed s
  | [.build _] => Settled initial agreed s
  | [.write patch next] => Settled initial agreed s ∧ Builds s patch next
  | [.update patch next] =>
    Recorded initial s ∧ Builds s patch next ∧
      loadServerAcl s.config.configPath s.file = .ok next.acl
  | [.commit patch next] =>
    Recorded initial s ∧ Builds s patch next ∧
      loadServerAcl s.config.configPath s.file = .ok next.acl ∧
      s.reactorAcl = next.acl
  | _ :: _ :: _ => False

section

variable {initial : Acl.Rules} {agreed : Prop} {s : Server} {patch : ServerConfigPatch}
  {next : Next}

theorem UnderWay.write {inet : Inet} (h : Settled initial agreed s)
    (hbuild : s.build inet patch = .ok next) :
    UnderWay initial agreed s [.write patch next] := by
  obtain ⟨hacl, hconfig, hpath, havailable⟩ := build_ok hbuild
  exact ⟨h, hacl, hconfig, hpath, havailable⟩

theorem UnderWay.update {s' : Server} {writeOk : Bool} (h : Settled initial agreed s)
    (hbuilds : Builds s patch next) (hwrite : s.writeFile next writeOk = .ok s') :
    UnderWay initial agreed s' [.update patch next] := by
  obtain ⟨root, server, -, -, rfl⟩ := writeFile_ok hwrite
  refine ⟨⟨h.state, h.history⟩, ⟨hbuilds.acl, hbuilds.config, hbuilds.path, hbuilds.available⟩, ?_⟩
  rw [hbuilds.config]
  exact loadServerAcl_withServerLists hbuilds.available root server next.acl

theorem applyAll_concat (acl : Acl.Rules) (patches : List ServerConfigPatch)
    (patch : ServerConfigPatch) :
    applyAll acl (patches ++ [patch]) = patch.applyTo (applyAll acl patches) := by
  rw [applyAll, List.foldl_append]
  rfl

theorem Settled.commit (h : Recorded initial s) (hbuilds : Builds s patch next)
    (hfile : loadServerAcl s.config.configPath s.file = .ok next.acl)
    (hreactor : s.reactorAcl = next.acl) :
    Settled initial agreed (s.commit patch next) := by
  constructor
  · constructor
    · exact hbuilds.config.symm
    · calc next.config.acl = patch.applyTo s.config.acl := hbuilds.config.trans hbuilds.acl
        _ = patch.applyTo (applyAll initial s.answered) := by rw [h.history]
        _ = applyAll initial (s.answered ++ [patch]) :=
          (applyAll_concat initial s.answered patch).symm
  · exact hreactor.trans hbuilds.config.symm
  · intro _
    show loadServerAcl next.config.configPath s.file = .ok next.config.acl
    rw [hbuilds.path, hbuilds.config]
    exact hfile

/-- Each step of a request leaves what the next one needs. -/
theorem UnderWay.execute {inet : Inet} {writeOk : Bool} {c : Call} {rest : List Call}
    (h : UnderWay initial agreed s (c :: rest)) :
    UnderWay initial agreed (execute inet writeOk s c).1
      ((execute inet writeOk s c).2 ++ rest) := by
  cases rest with
  | cons d rest => cases c <;> cases h
  | nil =>
    rw [List.append_nil]
    cases c with
    | build patch =>
      simp only [Admin.execute]
      cases hbuild : s.build inet patch with
      | error err => exact h
      | ok next => exact UnderWay.write h hbuild
    | write patch next =>
      obtain ⟨hsettled, hbuilds⟩ := h
      simp only [Admin.execute]
      cases hwrite : s.writeFile next writeOk with
      | error err => exact hsettled
      | ok s' => exact UnderWay.update hsettled hbuilds hwrite
    | update patch next =>
      obtain ⟨hrecorded, hbuilds, hfile⟩ := h
      exact ⟨⟨hrecorded.state, hrecorded.history⟩,
        ⟨hbuilds.acl, hbuilds.config, hbuilds.path, hbuilds.available⟩, hfile,
        rfl⟩
    | commit patch next =>
      obtain ⟨hrecorded, hbuilds, hfile, hreactor⟩ := h
      exact Settled.commit hrecorded hbuilds hfile hreactor

end

section

variable {θ : Type} [DecidableEq θ] {inet : Inet} {initial : Acl.Rules} {agreed : Prop}
  {p p' : Admins θ}

theorem underWay_step {a : Action θ} (h : p.Solo (UnderWay initial agreed)) (halone : Alone p a)
    (hstep : step inet p a = some p') : p'.Solo (UnderWay initial agreed) := by
  cases a with
  | request t body =>
    simp only [step] at hstep
    split at hstep
    · exact h.enter halone (fun hsettled => hsettled) hstep
    · rename_i patch _
      have hbegin : UnderWay initial agreed p.shared [] →
          UnderWay initial agreed p.shared [.build patch] :=
        fun hsettled => hsettled
      exact h.enter halone hbegin hstep
  | advance t writeOk => exact h.advance (fun _ _ _ => UnderWay.execute) hstep

/-- In every run in which a request begins only when no other one is in
progress, and in every state of it without one: the copies in the configuration,
in its state and in the reactor agree, the file agrees with them if it did at
the start or a patch was answered with success, and the lists are those that the
patches answered with success, in some order, make of the lists of the start. -/
theorem copies_agree_when_alone {config : ProxyConfig} {file : Option FileBody}
    {actions : List (Action θ)}
    (halone : Machine.Meets (step inet) Alone (startThreads config file) actions)
    (hrun : Machine.run (step inet) (startThreads config file) actions = some p)
    (hquiet : Quiet p) :
    p.shared.stateAcl = p.shared.config.acl ∧ p.shared.reactorAcl = p.shared.config.acl ∧
    (loadServerAcl config.configPath file = .ok config.acl ∨ p.shared.answered ≠ [] →
      loadServerAcl p.shared.config.configPath p.shared.file = .ok p.shared.config.acl) ∧
    ∃ order, order.Perm p.shared.answered ∧ p.shared.config.acl = applyAll config.acl order := by
  have hstart : (startThreads config file : Admins θ).Solo
      (UnderWay config.acl (loadServerAcl config.configPath file = .ok config.acl)) :=
    .inl ⟨fun _ => rfl, ⟨rfl, rfl⟩, rfl, fun h => h.resolve_right fun hne => hne rfl⟩
  have hsolo :=
    Machine.invariant_of_meets (fun q a q' hq ha hstep => underWay_step hq ha hstep)
      hstart halone hrun
  have hsettled := hsolo.quiet hquiet
  exact ⟨hsettled.state, hsettled.reactor, hsettled.file, _, List.Perm.refl _, hsettled.history⟩

end

def allowOther : FileBody :=
  .document (.object [(ascii "allow_targets", stringArrayJson [ascii "192.168.0.0/16"])])

def denyTenOne : FileBody :=
  .document (.object [(ascii "deny_targets", stringArrayJson [ascii "10.1.0.0/16"])])

/-- The request of a thread from its beginning to its end. -/
def wholeRequest (t : Bool) (body : FileBody) : List (Action Bool) :=
  [.request t body, .advance t true, .advance t true, .advance t true, .advance t true]

theorem copies_agree_after_two_requests :
    ∃ p : Admins Bool, Machine.run (step plainInet.toInet) (startThreads oneNetwork oneNetworkFile)
        (wholeRequest true allowOther ++ wholeRequest false denyTenOne) = some p ∧
      p.shared.answered.length = 2 ∧
      loadServerAcl p.shared.config.configPath p.shared.file = .ok p.shared.config.acl := by
  refine Machine.run_observed
    (f := fun p => (p.shared.answered.length, (p.calls true).length, (p.calls false).length))
    (o := (2, 0, 0)) (by decide) fun p hp hsummary => ?_
  simp only [Prod.mk.injEq, List.length_eq_zero_iff] at hsummary
  obtain ⟨hanswered, htrue, hfalse⟩ := hsummary
  refine ⟨hanswered, ?_⟩
  have halone : Machine.Meets (step plainInet.toInet) Alone (startThreads oneNetwork oneNetworkFile)
      (wholeRequest true allowOther ++ wholeRequest false denyTenOne) := by
    decide
  have hquiet : Quiet p := by
    intro t
    cases t
    · exact hfalse
    · exact htrue
  have hne : p.shared.answered ≠ [] := List.ne_nil_of_length_pos (by rw [hanswered]; decide)
  exact (copies_agree_when_alone halone hp hquiet).2.2.1 (.inr hne)

/-- Two requests that both build before either commits: the reactor has the one
patch, the configuration and the file have the other, and no order of the two
leads to either. -/
theorem overlapping_patches_lose_one :
    ∃ p : Admins Bool, Machine.run (step plainInet.toInet) (startThreads oneNetwork oneNetworkFile)
        [.request true allowOther, .request false denyTenOne, .advance true true,
          .advance false true,
          .advance true true, .advance false true, .advance false true, .advance true true,
            .advance true true,
          .advance false true] = some p ∧
      Quiet p ∧ p.shared.reactorAcl ≠ p.shared.config.acl ∧
      ∀ order, order.Perm p.shared.answered →
        p.shared.config.acl ≠ applyAll oneNetwork.acl order := by
  have hrun : (Machine.run (step plainInet.toInet) (startThreads oneNetwork oneNetworkFile)
      [.request true allowOther, .request false denyTenOne, .advance true true, .advance false true,
        .advance true true, .advance false true, .advance false true, .advance true true,
          .advance true true,
        .advance false true]).map
        (fun p =>
          (p.shared.answered, p.shared.reactorAcl, p.shared.config.acl, (p.calls true).length,
          (p.calls false).length)) =
      some ([{ hasAllowTargets := true, allowTargets := [ascii "192.168.0.0/16"] },
        { hasDenyTargets := true, denyTargets := [ascii "10.1.0.0/16"] }],
        ⟨[ascii "192.168.0.0/16"], []⟩, ⟨[ascii "10.0.0.0/8"], [ascii "10.1.0.0/16"]⟩, 0, 0) := by
    decide
  obtain ⟨p, hp, hsummary⟩ := Option.map_eq_some_iff.mp hrun
  simp only [Prod.mk.injEq, List.length_eq_zero_iff] at hsummary
  obtain ⟨hanswered, hreactor, hconfig, htrue, hfalse⟩ := hsummary
  refine ⟨p, hp, fun t => ?_, ?_, fun order horder => ?_⟩
  · cases t
    · exact hfalse
    · exact htrue
  · rw [hreactor, hconfig]
    decide
  · rw [hanswered] at horder
    have horders : ∀ order ∈
        [({ hasAllowTargets := true
            allowTargets := [ascii "192.168.0.0/16"] } : ServerConfigPatch),
          { hasDenyTargets := true, denyTargets := [ascii "10.1.0.0/16"] }].permutations',
        (⟨[ascii "10.0.0.0/8"], [ascii "10.1.0.0/16"]⟩ : Acl.Rules) ≠
          applyAll oneNetwork.acl order := by decide
    rw [hconfig]
    exact horders order (List.mem_permutations'.mpr horder)

end TcpQuicProxy.Admin
