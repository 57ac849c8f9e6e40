import TcpQuicProxy.Router.Running

/-!
# The proxy users across a restart

A client has its table of proxy users from the file of `--client-config` or from
a router configuration that stands in the file of `--config`. None of the three
writers of configuration files writes the table: the one of `TqParseArgs`, which
replaces a router configuration by a runtime configuration, and the two of the
router, which write the peers after every request and already when the client
starts. So once a client runs, its files have no users (`Clean`), and the next
start has an empty table.
-/

namespace TcpQuicProxy.Router

open Platform Wire Config List Option

/-! ### Files without users -/

def userKey : Bytes := ascii "proxy_auth"

/-- The document of the file has no member for the users. -/
def NoUsers (file : Option FileBody) : Prop :=
  ∀ root : Members, file = some (.document (.object root)) → ∀ m ∈ root, m.1 ≠ userKey

theorem noUsers_none : NoUsers none := fun _ h => nomatch h

variable {l : Members} {name : String} {value : Json} {file : Option FileBody}
  {router : RouterConfig} {legacy : Bool}

theorem mem_ofList {m : Bytes × Json} (h : m ∈ Members.ofList l) : m ∈ l := by
  have hfold : ∀ (l out : Members), m ∈ l.foldl (fun out m => out.set m.1 m.2) out →
      m ∈ out ∨ m ∈ l := by
    intro l
    induction l with
    | nil => exact fun out h => .inl h
    | cons n l ih =>
      intro out h
      rcases ih (out.set n.1 n.2) h with hset | hl
      · rcases Members.mem_set hset with rfl | hout
        · exact .inr mem_cons_self
        · exact .inl hout
      · exact .inr (mem_cons_of_mem n hl)
  exact (hfold l [] h).resolve_left not_mem_nil

theorem noUsers_ofList (h : ∀ m ∈ l, m.1 ≠ userKey) : NoUsers (some (.document (.ofList l))) := by
  intro root hroot m hm
  have hmembers : root = Members.ofList l := by simpa [Json.ofList] using hroot.symm
  exact h m (mem_ofList (hmembers ▸ hm))

/-! ### What is written -/

theorem member_key (h : ascii name ≠ userKey) : (member name value).1 ≠ userKey := h

theorem memberIf_key {cond : Bool} (h : ascii name ≠ userKey) :
    ∀ m ∈ memberIf cond name value, m.1 ≠ userKey := by
  unfold memberIf
  split
  · exact forall_mem_singleton.mpr h
  · exact forall_mem_nil _

theorem roleMembers_key (cfg : ProxyConfig) : ∀ m ∈ roleMembers cfg, m.1 ≠ userKey := by
  unfold roleMembers
  split
  · exact forall_mem_cons.mpr ⟨member_key (by decide), memberIf_key (by decide)⟩
  · exact forall_mem_singleton.mpr (member_key (by decide))

theorem noUsers_runtimeConfigJson (cfg : ProxyConfig) :
    NoUsers (some (.document (runtimeConfigJson cfg))) := by
  apply noUsers_ofList
  simp only [runtimeConfigMembers, forall_mem_append, forall_mem_cons, not_mem_nil, false_implies,
    implies_true, and_true]
  exact ⟨⟨⟨⟨⟨member_key (by decide), memberIf_key (by decide)⟩, member_key (by decide),
    member_key (by decide),
    member_key (by decide)⟩, memberIf_key (by decide)⟩, member_key (by decide)⟩,
      roleMembers_key cfg⟩

theorem noUsers_routerConfigJson (config : RouterConfig) :
    NoUsers (some (.document (routerConfigJson routerTargetText config))) := by
  apply noUsers_ofList
  simp only [forall_mem_cons, not_mem_nil, false_implies, implies_true, and_true]
  exact ⟨member_key (by decide), member_key (by decide)⟩

/-- Replacing the peers adds no users. -/
theorem noUsers_configWithPeers (runtimeConfig : ProxyConfig) (config : RouterConfig)
    (h : NoUsers file) : NoUsers (some (configWithPeers runtimeConfig config file)) := by
  unfold configWithPeers
  split
  · rename_i root
    intro root' hroot' m hm
    have hset : root' = Members.set (ascii "peers") (runtimePeersValue config) root := by
      simpa using hroot'.symm
    rcases Members.mem_set (hset ▸ hm) with rfl | hold
    · exact member_key (by decide)
    · exact h root rfl m hold
  · apply noUsers_ofList
    simp only [clientRuntimeConfigMembers, forall_mem_append, forall_mem_cons, not_mem_nil,
      false_implies,
      implies_true, and_true]
    exact ⟨⟨member_key (by decide), memberIf_key (by decide)⟩, member_key (by decide),
      member_key (by decide),
      member_key (by decide), member_key (by decide)⟩

/-! ### What is read -/

variable {body : FileBody} {cfg cfg' : ProxyConfig} {path : Bytes} {args : Args}
  {files files' : Files}
    {loaded : Loaded} {writeOk : Bool} {inet : Inet}

/-- A file that is read as a runtime configuration has no users. -/
theorem noUsers_of_parseRuntimeConfig (h : parseRuntimeConfig body cfg = .ok cfg') :
    NoUsers (some body) := by
  intro root hroot m hm hkey
  cases hroot
  simp only [parseRuntimeConfig] at h
  split at h
  · cases h
  · obtain ⟨s, s', hread⟩ := read_of_readMembers h m hm
    rw [hkey] at hread
    cases hread

theorem parseRouter_noUsers (h : parseRouter body = .ok router)
    (hfile : NoUsers (some body)) : router.proxyAuth = [] := by
  unfold parseRouter at h
  split at h
  · rename_i root
    split at h
    · cases h
    · rename_i read hread
      split at h
      · cases h
      · cases h
        refine readMembers_keeps (fun m hm => ?_) hread
        have hsteady : Steady RouterConfig.proxyAuth (fun _ : RouterConfig => ())
            (readField routerTable ignore m.1 m.2) := by
          refine steady_readField ?_ m.2
            ⟨fun _ _ h => by cases h; rfl, fun s t s' _ h => ⟨t, rfl, rfl⟩⟩
          simp only [routerTable, forall_mem_cons]
          exact ⟨fun _ _ => steady_into (fun _ _ => rfl) (fun _ _ _ => rfl) fun _ _ _ _ => rfl,
            fun _ _ => steady_into (fun _ _ => rfl) (fun _ _ _ => rfl) fun _ _ _ _ => rfl,
            fun heq => absurd heq.symm (hfile root rfl m hm), by simp⟩
        exact hsteady.keeps
  · cases h
  · cases h

theorem loadClientConfig_noUsers (h : loadClientConfig path file = .ok router)
    (hfile : NoUsers file) : router.proxyAuth = [] := by
  unfold loadClientConfig at h
  split at h
  · cases h
    rfl
  · cases h
  · cases h
    rfl
  · exact parseRouter_noUsers h hfile

/-- What a file without users leaves in the table, read either way. -/
theorem loadRuntimeConfigFile_noUsers
    (h : loadRuntimeConfigFile path body cfg = .ok (cfg', legacy)) (hfile : NoUsers (some body))
    (hcfg : cfg.proxyUsers = []) : cfg'.proxyUsers = [] := by
  unfold loadRuntimeConfigFile at h
  split at h
  · cases h
  · split at h
    · rename_i hparse
      cases h
      exact (congrArg Prod.fst (parseRuntimeConfig_apart hparse)).trans hcfg
    · split at h
      · split at h
        · rename_i hrouter
          cases h
          exact parseRouter_noUsers hrouter hfile
        · cases h
      · cases h

/-! ### A start -/

theorem loadRuntimeConfigFile_ok (h : loadRuntimeConfigFile path body cfg = .ok (cfg', legacy)) :
    cfg'.configPath = cfg.configPath ∧ cfg'.clientConfigPath = cfg.clientConfigPath ∧
      cfg'.mode = cfg.mode ∧
      (legacy = false → NoUsers (some body)) := by
  unfold loadRuntimeConfigFile at h
  split at h
  · cases h
  · split at h
    · rename_i hparse
      cases h
      have hapart := parseRuntimeConfig_apart hparse
      exact ⟨congrArg (·.2.1) hapart, congrArg (·.2.2.1) hapart, congrArg (·.2.2.2) hapart,
        fun _ => noUsers_of_parseRuntimeConfig hparse⟩
    · split at h
      · split at h
        · cases h
          exact ⟨rfl, rfl, rfl, fun hlegacy => (nomatch hlegacy)⟩
        · cases h
      · cases h

/-- What the file of `--config` leaves: its path, and users only if it is a
router configuration that has some. -/
structure FromConfig (args : Args) (files : Files) (loaded : Loaded) : Prop where
  configPath : loaded.cfg.configPath = args.configFile
  clientConfigPath : loaded.cfg.clientConfigPath = []
  mode : loaded.cfg.mode = args.mode
  users : NoUsers (files (args.configFile)) → loaded.cfg.proxyUsers = []
  clean : args.config.isSome = true → loaded.fileMissing = false →
    loaded.legacyRouterConfig = false →
    NoUsers (files (args.configFile))

theorem loadConfig_from (h : loadConfig args files = .ok loaded) :
    FromConfig args files loaded := by
  unfold loadConfig at h
  split at h
  · rename_i hnone
    cases h
    exact ⟨by rw [Args.configFile, hnone]; rfl, rfl, rfl, fun _ => rfl, fun hsome => by
      rw [hnone] at hsome; cases hsome⟩
  · rename_i path hpath
    have hfile : args.configFile = path := by rw [Args.configFile, hpath]; rfl
    split at h
    · cases h
      exact ⟨hfile.symm, rfl, rfl, fun _ => rfl, fun _ hmissing => (nomatch hmissing)⟩
    · rename_i body hbody
      split at h
      · cases h
      · rename_i cfg legacy hload
        cases h
        obtain ⟨hconfigPath, hclientPath, hmode, hclean⟩ := loadRuntimeConfigFile_ok hload
        refine ⟨hconfigPath.trans hfile.symm, hclientPath, hmode, fun hno => ?_,
          fun _ _ hlegacy => ?_⟩
        · rw [hfile, hbody] at hno
          exact loadRuntimeConfigFile_noUsers hload hno rfl
        · rw [hfile, hbody]
          exact hclean hlegacy

/-- The users of a file that `--client-config` names take the place of those
that the file of `--config` has. -/
structure ClientStart (args : Args) (files : Files) (loaded : Loaded)
    (cfg : ProxyConfig) : Prop where
  mode : cfg.mode = .client
  configPath : cfg.configPath = args.configFile
  named : ∀ path, namedClientConfig args.options = some path → cfg.clientConfigPath = path ∧
    ∃ router, loadClientConfig path (files path) = .ok router ∧ cfg.proxyUsers = router.proxyAuth
  unnamed : namedClientConfig args.options = none → cfg.proxyUsers = loaded.cfg.proxyUsers

theorem loadRouter_ok {p : Parsed} (hmode : args.mode = .client)
    (hfrom : FromConfig args files loaded)
    (hp : applyOptions { cfg := loaded.cfg } args.options = .ok p)
    (h : loadRouter p files (withDefaultClientConfig args p) = .ok cfg) :
    ClientStart args files loaded cfg := by
  obtain ⟨hpMode, hpRouter, hpPath⟩ := applyOptions_frame hp
  obtain ⟨hclientPath, hspecified⟩ := applyOptions_clientConfig hp
  have hdefault : (withDefaultClientConfig args p).mode = p.cfg.mode ∧
      (withDefaultClientConfig args p).configPath = p.cfg.configPath ∧
      (withDefaultClientConfig args p).router = p.cfg.router := by
    unfold withDefaultClientConfig
    split <;> exact ⟨rfl, rfl, rfl⟩
  have hcommon : (withDefaultClientConfig args p).mode = .client ∧
      (withDefaultClientConfig args p).configPath = args.configFile :=
    ⟨hdefault.1.trans (hpMode.trans (hfrom.mode.trans hmode)),
      hdefault.2.1.trans (hpPath.trans hfrom.configPath)⟩
  unfold loadRouter at h
  cases hnamed : namedClientConfig args.options with
  | some path =>
    have hspecified : p.clientConfigSpecified = true := by simp [hspecified, hnamed]
    have hkept : withDefaultClientConfig args p = p.cfg := by
      simp [withDefaultClientConfig, hspecified]
    have hpath : p.cfg.clientConfigPath = path := by rw [hclientPath, hnamed]; rfl
    rw [if_pos hspecified, hkept, hpath] at h
    split at h
    · cases h
    · rename_i router hrouter
      cases h
      rw [hkept] at hcommon
      refine ⟨hcommon.1, hcommon.2, fun path' hpath' => ?_,
        fun hnone => (nomatch hnone.symm.trans hnamed)⟩
      obtain rfl : path = path' := some.inj (hnamed.symm.trans hpath')
      exact ⟨rfl, router, hrouter, rfl⟩
  | none =>
    have hspecified : p.clientConfigSpecified = false := by simp [hspecified, hnamed]
    rw [hspecified, if_neg (by decide)] at h
    cases h
    refine ⟨hcommon.1, hcommon.2, fun path' hpath' => (nomatch hpath'.symm.trans hnamed),
      fun _ => ?_⟩
    exact congrArg RouterConfig.proxyAuth (hdefault.2.2.trans hpRouter)

theorem finishClient_ok (h : finishClient args loaded cfg files writeOk = .ok (cfg', files')) :
    cfg'.mode = cfg.mode ∧ cfg'.configPath = cfg.configPath ∧
      cfg'.clientConfigPath = cfg.clientConfigPath ∧
      cfg'.proxyUsers = cfg.proxyUsers ∧
      (files' = files ∧
        (args.config.isSome && (loaded.fileMissing || loaded.legacyRouterConfig)) = false ∨
        files' = Function.update files cfg.configPath
          (some (.document (runtimeConfigJson cfg')))) := by
  unfold finishClient at h
  split at h
  · obtain ⟨rfl, rfl⟩ := writeConfig_ok h
    split
    · exact ⟨rfl, rfl, rfl, rfl, .inr rfl⟩
    · exact ⟨rfl, rfl, rfl, rfl, .inr rfl⟩
  · rename_i hkept
    cases h
    exact ⟨rfl, rfl, rfl, rfl, .inl ⟨rfl, Bool.eq_false_iff.mpr hkept⟩⟩

section

variable (hmode : args.mode = .client)
include hmode

/-- A client that has been started, by its files and its users. -/
theorem client_start (h : parseArgs inet args files writeOk = .ok (cfg, files')) :
    ∃ loaded, loadConfig args files = .ok loaded ∧ FromConfig args files loaded ∧
      ClientStart args files loaded cfg ∧
      (files' = files ∧
        (args.config.isSome && (loaded.fileMissing || loaded.legacyRouterConfig)) = false ∨
        files' = Function.update files args.configFile
          (some (.document (runtimeConfigJson cfg)))) := by
  obtain ⟨loaded, p, routed, hloaded, hp, hrouted, hclient, -⟩ := parseArgs_ok h
  have hfrom := loadConfig_from hloaded
  have hstart := loadRouter_ok hmode hfrom hp hrouted
  obtain ⟨hcfgMode, hconfigPath, hclientPath, husers, hfiles⟩ := finishClient_ok (hclient hmode)
  rw [hstart.configPath] at hfiles
  refine ⟨loaded, hloaded, hfrom,
    ⟨hcfgMode.trans hstart.mode, hconfigPath.trans hstart.configPath, fun path hpath => ?_,
    fun hnone => husers.trans (hstart.unnamed hnone)⟩, hfiles⟩
  obtain ⟨hpath, router, hrouter, hroutedUsers⟩ := hstart.named path hpath
  exact ⟨hclientPath.trans hpath, router, hrouter, husers.trans hroutedUsers⟩

/-- A start from files without users has none. -/
theorem restart_proxyUsers (hconfig : NoUsers (files args.configFile))
    (hclient : ∀ path, namedClientConfig args.options = some path → NoUsers (files path))
    (h : parseArgs inet args files writeOk = .ok (cfg, files')) : cfg.proxyUsers = [] := by
  obtain ⟨loaded, -, hfrom, hstart, -⟩ := client_start hmode h
  cases hnamed : namedClientConfig args.options with
  | none => rw [hstart.unnamed hnamed, hfrom.users hconfig]
  | some path =>
    obtain ⟨-, router, hrouter, husers⟩ := hstart.named path hnamed
    rw [husers, loadClientConfig_noUsers hrouter (hclient path hnamed)]

/-- The configuration file has no users after a start, since a router
configuration is replaced. -/
theorem start_configFile_noUsers (hempty : files [] = none)
    (h : parseArgs inet args files writeOk = .ok (cfg, files')) :
    NoUsers (files' args.configFile) := by
  obtain ⟨loaded, -, hfrom, -, hfiles⟩ := client_start hmode h
  rcases hfiles with ⟨rfl, hkept⟩ | rfl
  · cases hconfig : args.config with
    | none =>
      rw [Args.configFile, hconfig, getD_none, hempty]
      exact noUsers_none
    | some path =>
      rw [hconfig, isSome_some, Bool.true_and, Bool.or_eq_false_iff] at hkept
      exact hfrom.clean (by rw [hconfig]; rfl) hkept.1 hkept.2
  · rw [Function.update_self]
    exact noUsers_runtimeConfigJson cfg

end

/-! ### A client that runs -/

def makeSinglePeerRouterConfig (cfg : ProxyConfig) : RouterConfig :=
  { proxyAuth := cfg.router.proxyAuth, peers := [primaryPeerFromConfig cfg] }

/-- `RunClient`, when it is not a speed test: the router applies what it was
started with. -/
def runClient (io : Io) (cfg : ProxyConfig) (files : Files) : Reply :=
  (RouterRuntime.new cfg files).applyConfig io
    (if cfg.router.peers.isEmpty &&
      !cfg.quicPeer.isEmpty then makeSinglePeerRouterConfig cfg else cfg.router)

namespace RouterRuntime

variable {io : Io} {s t : RouterRuntime}

/-- Neither file has users. -/
structure Clean (s : RouterRuntime) : Prop where
  config : NoUsers (s.files s.runtimeConfig.configPath)
  clientConfig : NoUsers (s.files s.runtimeConfig.clientConfigPath)

theorem writeFile_frame (path : Bytes) (body : FileBody) (writeOk : Bool) :
    (s.writeFile path body writeOk).2.runtimeConfig = s.runtimeConfig ∧
      (s.writeFile path body writeOk).2.config = s.config := by
  unfold writeFile
  split
  · exact ⟨rfl, rfl⟩
  · split <;> exact ⟨rfl, rfl⟩

/-- A write of a document without users leaves no file with more of them. -/
theorem writeFile_noUsers {other : Bytes} (hbody : NoUsers (some body))
    (h : NoUsers (s.files other)) : NoUsers ((s.writeFile path body writeOk).2.files other) := by
  unfold writeFile
  split
  · exact h
  · split
    · show NoUsers (Function.update s.files path (some body) other)
      by_cases hother : other = path
      · subst hother
        rw [Function.update_self]
        exact hbody
      · rw [Function.update_of_ne hother]
        exact h
    · exact h

theorem writeFile_written (hbody : NoUsers (some body))
    (hempty : path = [] → NoUsers (s.files path)) (h : (s.writeFile path body writeOk).1 = .ok ()) :
    NoUsers ((s.writeFile path body writeOk).2.files path) := by
  unfold writeFile at h ⊢
  split
  · rename_i hpath
    exact hempty (List.isEmpty_iff.mp hpath)
  · rename_i hpath
    rw [if_neg hpath] at h
    split
    · show NoUsers (Function.update s.files path (some body) path)
      rw [Function.update_self]
      exact hbody
    · rename_i hfailed
      rw [if_neg hfailed] at h
      cases h

theorem persistConfig_runtimeConfig : (s.persistConfig io).2.runtimeConfig = s.runtimeConfig := by
  unfold persistConfig
  split
  · rfl
  · split
    · rename_i err t hwrite
      exact (congrArg (fun reply : Reply => reply.2.runtimeConfig) hwrite).symm.trans
        (writeFile_frame ..).1
    · rename_i t hwrite
      exact (writeFile_frame ..).1.trans
        ((congrArg (fun reply : Reply => reply.2.runtimeConfig) hwrite).symm.trans
          (writeFile_frame ..).1)

theorem persistConfig_noUsers (hconfig : NoUsers (s.files s.runtimeConfig.configPath))
    (h : NoUsers (s.files path)) : NoUsers ((s.persistConfig io).2.files path) := by
  have hfirst :=
    @writeFile_noUsers
      (configWithPeers s.runtimeConfig s.config (s.files s.runtimeConfig.configPath))
    s.runtimeConfig.configPath io.writeConfigOk s path
    (noUsers_configWithPeers s.runtimeConfig s.config hconfig) h
  unfold persistConfig
  split
  · exact h
  · split
    · rename_i err t hwrite
      rwa [congrArg (fun reply : Reply => reply.2.files path) hwrite] at hfirst
    · rename_i t hwrite
      rw [congrArg (fun reply : Reply => reply.2.files path) hwrite] at hfirst
      exact writeFile_noUsers (noUsers_routerConfigJson t.config) hfirst

/-- What a client writes with success has no users in either file. -/
theorem clean_of_persistConfig (hmode : s.runtimeConfig.mode = .client)
    (hconfig : NoUsers (s.files s.runtimeConfig.configPath)) (hempty : NoUsers (s.files []))
    (h : (s.persistConfig io).1 = .ok ()) : (s.persistConfig io).2.Clean := by
  refine ⟨?_, ?_⟩
  · rw [persistConfig_runtimeConfig]
    exact persistConfig_noUsers hconfig hconfig
  · rw [persistConfig_runtimeConfig]
    have hfirst :=
      @writeFile_noUsers
        (configWithPeers s.runtimeConfig s.config (s.files s.runtimeConfig.configPath))
      s.runtimeConfig.configPath io.writeConfigOk s []
      (noUsers_configWithPeers s.runtimeConfig s.config hconfig) hempty
    unfold persistConfig at h ⊢
    rw [if_neg (fun hne => hne hmode)] at h ⊢
    revert h
    split
    · intro h
      cases h
    · rename_i t hwrite
      intro h
      have hruntime : t.runtimeConfig = s.runtimeConfig :=
        (congrArg (fun reply : Reply => reply.2.runtimeConfig) hwrite).symm.trans
        (writeFile_frame ..).1
      rw [congrArg (fun reply : Reply => reply.2.files []) hwrite] at hfirst
      rw [← hruntime]
      exact writeFile_written (noUsers_routerConfigJson t.config)
        (fun hpath => by rw [hpath]; exact hfirst) h

/-- A request leaves the files alone or writes them at the end. -/
def Touches (io : Io) (s t : RouterRuntime) : Prop :=
  t.files = s.files ∧ t.runtimeConfig = s.runtimeConfig ∨
    ∃ u : RouterRuntime, t = (u.persistConfig io).2 ∧ u.files = s.files ∧
      u.runtimeConfig = s.runtimeConfig

theorem touches_refl : Touches io s s := .inl ⟨rfl, rfl⟩

theorem touches_applyConfig (config : RouterConfig) : Touches io s (s.applyConfig io config).2 := by
  unfold applyConfig
  split
  · exact touches_refl
  · have hframe : (s.applyPeers io config).frame = s.frame := applyPeers_frame
    exact .inr ⟨_, rfl, congrArg (·.2.2) hframe, congrArg (·.2.1) hframe⟩

theorem touches_recordConnections {manager : Manager} {peerId : Bytes} {desired : UInt32} :
    Touches io s
      (({ s with manager := manager } : RouterRuntime).recordConnections io peerId desired).2 := by
  unfold recordConnections
  split
  · exact .inl ⟨rfl, rfl⟩
  · rename_i t ht
    obtain ⟨peers, rfl⟩ := setConnections_eq_some ht
    exact .inr ⟨_, rfl, rfl, rfl⟩

theorem touches_handle (request : Request) : Touches io s (s.handle io request).2 := by
  cases request with
  | edit e =>
    simp only [handle]
    split
    · exact touches_refl
    · exact touches_applyConfig _
  | drain peerId | abortTunnels peerId =>
    simp only [handle, withPeer]
    split <;> exact .inl ⟨rfl, rfl⟩
  | addConnection peerId =>
    simp only [handle, addConnection]
    repeat' split
    all_goals first | exact touches_refl | exact touches_recordConnections
  | deleteConnection peerId connectionId =>
    simp only [handle, deleteConnection]
    repeat' split
    all_goals first | exact touches_refl | exact touches_recordConnections

theorem Clean.touches (h : s.Clean) (ht : Touches io s t) :
    t.Clean ∧ t.runtimeConfig = s.runtimeConfig := by
  rcases ht with ⟨hfiles, hruntime⟩ | ⟨u, rfl, hfiles, hruntime⟩
  · refine ⟨⟨?_, ?_⟩, hruntime⟩
    · rw [hfiles, hruntime]
      exact h.config
    · rw [hfiles, hruntime]
      exact h.clientConfig
  · have hconfig : NoUsers (u.files u.runtimeConfig.configPath) := by
      rw [hfiles, hruntime]
      exact h.config
    refine ⟨⟨?_, ?_⟩, persistConfig_runtimeConfig.trans hruntime⟩
    · rw [persistConfig_runtimeConfig]
      exact persistConfig_noUsers hconfig hconfig
    · rw [persistConfig_runtimeConfig]
      apply persistConfig_noUsers hconfig
      rw [hfiles, hruntime]
      exact h.clientConfig

theorem clean_run {actions : List (Io × Request)} (h : s.Clean)
    (hrun : Machine.run step s actions = some t) :
    t.Clean ∧ t.runtimeConfig = s.runtimeConfig := by
  have hstep (u : RouterRuntime) (action : Io × Request) (u' : RouterRuntime)
      (hu : u.Clean ∧ u.runtimeConfig = s.runtimeConfig) (hu' : u.step action = some u') :
      u'.Clean ∧ u'.runtimeConfig = s.runtimeConfig := by
    cases hu'
    obtain ⟨hclean, hruntime⟩ := hu.1.touches (touches_handle action.2)
    exact ⟨hclean, hruntime.trans hu.2⟩
  exact Machine.invariant hstep ⟨h, rfl⟩ hrun

end RouterRuntime

/-- A client that has come up with its files written has no users in them. -/
theorem clean_of_runClient {io : Io} (hmode : args.mode = .client) (hempty : files [] = none)
    (hstart : parseArgs inet args files writeOk = .ok (cfg, files'))
    (h : (runClient io cfg files').1 = .ok ()) :
    (runClient io cfg files').2.Clean ∧ (runClient io cfg files').2.runtimeConfig = cfg := by
  have hconfig := start_configFile_noUsers hmode hempty hstart
  obtain ⟨loaded, -, -, hclient, hfiles⟩ := client_start hmode hstart
  have hnameless : NoUsers (files' []) := by
    rcases hfiles with ⟨rfl, -⟩ | rfl
    · rw [hempty]
      exact noUsers_none
    · by_cases hfile : [] = args.configFile
      · rw [hfile]
        exact hconfig
      · rw [Function.update_of_ne hfile, hempty]
        exact noUsers_none
  unfold runClient RouterRuntime.applyConfig at h ⊢
  revert h
  generalize (if cfg.router.peers.isEmpty &&
    !cfg.quicPeer.isEmpty then makeSinglePeerRouterConfig cfg
    else cfg.router) = config
  split
  · intro h
    cases h
  · intro h
    have hframe : ((RouterRuntime.new cfg files').applyPeers io config).frame =
        (RouterRuntime.new cfg files').frame :=
      RouterRuntime.applyPeers_frame
    have hruntime : ((RouterRuntime.new cfg files').applyPeers io config).runtimeConfig = cfg :=
      congrArg (·.2.1) hframe
    have hkept : ((RouterRuntime.new cfg files').applyPeers io config).files = files' :=
      congrArg (·.2.2) hframe
    refine ⟨RouterRuntime.clean_of_persistConfig ?_ ?_ ?_ h,
      RouterRuntime.persistConfig_runtimeConfig.trans hruntime⟩
    · rw [hruntime]
      exact hclient.mode
    · rw [hruntime, hkept, hclient.configPath]
      exact hconfig
    · rw [hkept]
      exact hnameless

/-- For every client that starts with proxy users: when it has come up, whatever
requests follow, a start from its files has no users; and when its users are
from a router configuration in the file of `--config`, that is so already after
the start has rewritten the file. -/
theorem restart_never_keeps_users {inet : Inet} {args : Args} {files files' : Files}
    {writeOk : Bool} {cfg : ProxyConfig} (hmode : args.mode = .client) (hempty : files [] = none)
    (hstart : parseArgs inet args files writeOk = .ok (cfg, files'))
    (husers : cfg.proxyUsers ≠ []) :
    (∀ io actions s, (runClient io cfg files').1 = .ok () →
      Machine.run RouterRuntime.step (runClient io cfg files').2 actions = some s →
      ∀ writeOk' cfg' files'', parseArgs inet args s.files writeOk' = .ok (cfg', files'') →
        cfg'.proxyUsers = [] ∧ cfg'.proxyUsers ≠ cfg.proxyUsers) ∧
    (namedClientConfig args.options = none →
      ∀ writeOk' cfg' files'', parseArgs inet args files' writeOk' = .ok (cfg', files'') →
        cfg'.proxyUsers = [] ∧ cfg'.proxyUsers ≠ cfg.proxyUsers) := by
  have hlost {cfg' : ProxyConfig} (h : cfg'.proxyUsers = []) :
      cfg'.proxyUsers = [] ∧ cfg'.proxyUsers ≠ cfg.proxyUsers :=
    ⟨h, fun heq => husers (heq.symm.trans h)⟩
  obtain ⟨loaded, -, -, hclient, -⟩ := client_start hmode hstart
  constructor
  · intro io actions s hup hrun writeOk' cfg' files'' hrestart
    obtain ⟨hclean, hruntime⟩ := clean_of_runClient hmode hempty hstart hup
    obtain ⟨hs, hkept⟩ := RouterRuntime.clean_run hclean hrun
    have hcfg : s.runtimeConfig = cfg := hkept.trans hruntime
    refine hlost (restart_proxyUsers hmode ?_ (fun path hpath => ?_) hrestart)
    · have hconfig := hs.config
      rwa [hcfg, hclient.configPath] at hconfig
    · have hclientConfig := hs.clientConfig
      rwa [hcfg, (hclient.named path hpath).1] at hclientConfig
  · intro hnone writeOk' cfg' files'' hrestart
    refine hlost (restart_proxyUsers hmode (start_configFile_noUsers hmode hempty hstart)
      (fun path hpath => ?_) hrestart)
    exact (nomatch hpath.symm.trans hnone)

/-- A router configuration with one peer and one user. -/
def aliceFile : FileBody := .document (.object [
  (ascii "peers", .array [peerJson routerShape routerTargetText RouterRuntime.westPeer]),
  (ascii "proxy_auth", .array [.object [
    (ascii "password", .string (ascii "secret")), (ascii "username", .string (ascii "alice"))]]),
  (ascii "version", .integer 1)])

def alice : Ingress.ProxyAuthUser := ⟨ascii "alice", ascii "secret"⟩

/-- The one file there is. -/
def oneFile (path : Bytes) (body : FileBody) : Files :=
  fun other => if other = path then some body else none

def mainArgs : Args :=
  { mode := .client, config := some (ascii "main"), options := [.ca (ascii "ca")] }

def peersArgs : Args :=
  { mode := .client, options := [.clientConfig (ascii "peers"), .ca (ascii "ca")] }

theorem restart_never_keeps_users_of_main_config :
    ∃ cfg files' cfg' files'',
      parseArgs plainInet.toInet mainArgs (oneFile (ascii "main") aliceFile) true =
        .ok (cfg, files') ∧
      cfg.proxyUsers = [alice] ∧
        parseArgs plainInet.toInet mainArgs files' true = .ok (cfg', files'') ∧
      cfg'.proxyUsers = [] := by
  have hstarts :
    (parseArgs plainInet.toInet mainArgs (oneFile (ascii "main") aliceFile) true).toOption.map
      (fun started => (started.1.proxyUsers,
        (parseArgs plainInet.toInet mainArgs started.2 true).toOption.isSome)) =
          some ([alice], true) := by
    decide +kernel
  obtain ⟨⟨cfg, files'⟩, hstart, hsummary⟩ := map_eq_some_iff.mp hstarts
  obtain ⟨husers, hrestart⟩ := Prod.mk.inj hsummary
  obtain ⟨⟨cfg', files''⟩, hrestart⟩ := isSome_iff_exists.mp hrestart
  have hne : cfg.proxyUsers ≠ [] := by
    rw [husers]
    decide
  refine ⟨cfg, files', cfg', files'', eq_ok_of_toOption hstart, husers,
    eq_ok_of_toOption hrestart, ?_⟩
  exact ((restart_never_keeps_users rfl (by decide) (eq_ok_of_toOption hstart) hne).2 rfl true
    cfg' files''
    (eq_ok_of_toOption hrestart)).1

/-- A client with one user disables its peer; the next start is open to everyone. -/
theorem restart_opens_proxy :
    ∃ cfg files', parseArgs plainInet.toInet peersArgs (oneFile (ascii "peers") aliceFile) true =
      .ok (cfg, files') ∧
      cfg.proxyUsers = [alice] ∧ (runClient {} cfg files').1.isOk = true ∧
      ∃ s, Machine.run RouterRuntime.step (runClient {} cfg files').2
        [({}, .edit (.disable (ascii "west")))] = some s ∧
      ∃ cfg' files'', parseArgs plainInet.toInet peersArgs s.files true = .ok (cfg', files'') ∧
        cfg'.proxyUsers = [] := by
  have hstarts :
    (parseArgs plainInet.toInet peersArgs (oneFile (ascii "peers") aliceFile) true).toOption.map
      (fun started => (started.1.proxyUsers, (runClient {} started.1 started.2).1.isOk,
        (parseArgs plainInet.toInet peersArgs ((runClient {} started.1 started.2).2.handle {}
          (.edit (.disable (ascii "west")))).2.files true).toOption.map
            (fun restarted => restarted.1.proxyUsers))) =
      some ([alice], true, some []) := by decide +kernel
  obtain ⟨⟨cfg, files'⟩, hstart, hsummary⟩ := map_eq_some_iff.mp hstarts
  simp only [Prod.mk.injEq] at hsummary
  obtain ⟨husers, hup, hrestart⟩ := hsummary
  obtain ⟨⟨cfg', files''⟩, hrestart, hlost⟩ := map_eq_some_iff.mp hrestart
  exact ⟨cfg, files', eq_ok_of_toOption hstart, husers, hup, _, rfl, cfg', files'',
    eq_ok_of_toOption hrestart, hlost⟩

end TcpQuicProxy.Router
