import TcpQuicProxy.Acl.Matcher
import TcpQuicProxy.Config.ConfigFile

/-!
# Starting from files and options

`parseArgs` takes the file that `--config` names, then the options in their
order, then the file that `--client-config` names, checks the result and, in
some cases, writes a configuration file itself. Of the options, those that
decide about the files, the peers and the access list are modelled one by one;
the other ones set fields that none of this looks at, and are given by what they
do to the configuration (`Setting`).

The second part says what a file can do to the access list and to the proxy
users: `steady_runtimeTable` for a section other than `server`, and
`parseRuntimeConfig_lists` for the lists of that section.
-/

namespace TcpQuicProxy.Config

open Platform Wire List ProxyConfig

/-- What the options that are not modelled one by one leave alone. -/
structure Assigned where
  mode : Mode
  router : RouterConfig
  allowTargets : List Bytes
  denyTargets : List Bytes
  configPath : Bytes
  clientConfigPath : Bytes
  deriving DecidableEq

def ProxyConfig.assigned (cfg : ProxyConfig) : Assigned :=
  ⟨cfg.mode, cfg.router, cfg.allowTargets, cfg.denyTargets, cfg.configPath, cfg.clientConfigPath⟩

/-- An option by its effect on the other fields. -/
structure Setting where
  apply : ProxyConfig → Except Bytes ProxyConfig
  keeps : Keeps ProxyConfig.assigned apply

inductive Opt where
  | socksListen (value : Bytes)
  | httpListen (value : Bytes)
  | peer (value : Bytes)
  | forward (value : Bytes)
  | clientConfig (path : Bytes)
  | listen (value : Bytes)
  | cert (value : Bytes)
  | certKey (value : Bytes)
  | ca (value : Bytes)
  | allowTargets (value : Bytes)
  | denyTargets (value : Bytes)
  | setting (s : Setting)

/-- The option names an access list. -/
def Opt.isAcl : Opt → Bool
  | .allowTargets _ => true
  | .denyTargets _ => true
  | _ => false

/-- The file that an option names for the peers. -/
def Opt.clientConfigPath : Opt → Option Bytes
  | .clientConfig path => some path
  | _ => none

/-- A command line, with what the process finds out about its host. -/
structure Args where
  mode : Mode
  config : Option Bytes := none
  options : List Opt := []
  defaultConfigPath : Bytes := ascii "/run/tcpquic-proxy/config.json"
  defaultClientName : Bytes := ascii "linux-unknown"

/-- The file that `--config` names. -/
def Args.configFile (args : Args) : Bytes := args.config.getD []

structure Parsed where
  cfg : ProxyConfig
  quicPeerSpecified : Bool := false
  clientConfigSpecified : Bool := false
  socksListenSpecified : Bool := false
  httpListenSpecified : Bool := false

def equalsByte : UInt8 := 0x3D

def parsePortForwardValue (value : Bytes) : Option PortForwardConfig :=
  match value.findIdx? (· = equalsByte) with
  | none => none
  | some equals =>
    if equals = 0 || value.length ≤ equals + 1 then none
    else if !isHostPort (value.take equals) then none
    else (splitHostPortValue (value.drop (equals + 1))).map fun target =>
      ⟨value.take equals, target.1, target.2⟩

def applyOption (p : Parsed) : Opt → Except Bytes Parsed
  | .socksListen value =>
    .ok { p with cfg := { p.cfg with socksListen := value }, socksListenSpecified := true }
  | .httpListen value =>
    .ok { p with cfg := { p.cfg with httpListen := value }, httpListenSpecified := true }
  | .peer value => .ok { p with cfg := { p.cfg with quicPeer := value }, quicPeerSpecified := true }
  | .forward value =>
    match parsePortForwardValue value with
    | none => .error (ascii "invalid value for --forward")
    | some forward =>
      .ok { p with cfg := { p.cfg with portForwards := p.cfg.portForwards ++ [forward] } }
  | .clientConfig path =>
    .ok { p with cfg := { p.cfg with clientConfigPath := path }, clientConfigSpecified := true }
  | .listen value => .ok { p with cfg := { p.cfg with quicListen := value } }
  | .cert value => .ok { p with cfg := { p.cfg with quicCert := value } }
  | .certKey value => .ok { p with cfg := { p.cfg with quicKey := value } }
  | .ca value => .ok { p with cfg := { p.cfg with quicCa := value } }
  | .allowTargets value => .ok { p with cfg := { p.cfg with allowTargets := splitCommaList value } }
  | .denyTargets value => .ok { p with cfg := { p.cfg with denyTargets := splitCommaList value } }
  | .setting s =>
    match s.apply p.cfg with
    | .error err => .error err
    | .ok cfg => .ok { p with cfg := cfg }

def applyOptions : Parsed → List Opt → Except Bytes Parsed
  | p, [] => .ok p
  | p, opt :: opts =>
    match applyOption p opt with
    | .error err => .error err
    | .ok p' => applyOptions p' opts

/-- The configuration after the file of `--config`. -/
structure Loaded where
  cfg : ProxyConfig
  fileMissing : Bool := false
  legacyRouterConfig : Bool := false

def loadConfig (args : Args) (files : Files) : Except Bytes Loaded :=
  match args.config with
  | none => .ok { cfg := { mode := args.mode } }
  | some path =>
    match files path with
    | none => .ok { cfg := { mode := args.mode, configPath := path }, fileMissing := true }
    | some body =>
      match loadRuntimeConfigFile path body { mode := args.mode, configPath := path } with
      | .error err => .error err
      | .ok (cfg, legacy) => .ok { cfg := cfg, legacyRouterConfig := legacy }

def checkModes (p : Parsed) : Except Bytes Unit :=
  if p.clientConfigSpecified && p.cfg.mode ≠ .client then
    .error (ascii "--client-config is valid only in client mode")
  else if !p.cfg.portForwards.isEmpty && p.cfg.mode ≠ .client then
    .error (ascii "--forward is valid only in client mode")
  else if p.clientConfigSpecified && (!p.cfg.quicPeer.isEmpty || p.quicPeerSpecified) then
    .error (ascii "--client-config and --peer are mutually exclusive")
  else if p.cfg.speedTestMode ≠ .none && p.cfg.mode ≠ .client then
    .error (ascii "speed-test options are valid only in client mode")
  else if p.cfg.speedTestMode ≠ .none && p.clientConfigSpecified then
    .error (ascii "speed-test options cannot be used with --client-config")
  else .ok ()

/-- A client without a file keeps one at the default place. -/
def withDefaultClientConfig (args : Args) (p : Parsed) : ProxyConfig :=
  if p.cfg.mode = .client && args.config.isNone && !p.clientConfigSpecified &&
    p.cfg.clientConfigPath.isEmpty then
    { p.cfg with clientConfigPath := args.defaultConfigPath }
  else p.cfg

def loadRouter (p : Parsed) (files : Files) (cfg : ProxyConfig) : Except Bytes ProxyConfig :=
  if p.clientConfigSpecified then
    match loadClientConfig cfg.clientConfigPath (files cfg.clientConfigPath) with
    | .error err => .error err
    | .ok router => .ok { cfg with router := router }
  else .ok cfg

def checkPeers (cfg : ProxyConfig) : Except Bytes Unit :=
  if cfg.router.peers.isEmpty then .ok () else validateRouterConfig cfg.router

def requireNonEmpty (value : Bytes) (flag : String) : Except Bytes Unit :=
  if value.isEmpty then .error (ascii ("missing required option: " ++ flag)) else .ok ()

def checkForwards : List PortForwardConfig → List Bytes → Except Bytes Unit
  | [], _ => .ok ()
  | forward :: forwards, listens =>
    if !isHostPort forward.listen then .error (ascii "invalid port_forward.listen")
    else if !isValidPortForwardTarget forward then .error (ascii "invalid port_forward.target")
    else do
      let listens ← insertNew listens forward.listen (ascii "duplicate listen: " ++ forward.listen)
      checkForwards forwards listens

def checkSinglePeer (p : Parsed) (cfg : ProxyConfig) : Except Bytes Unit :=
  let hasLegacyIngress :=
    p.socksListenSpecified || p.httpListenSpecified || !cfg.portForwards.isEmpty
  let hasLegacySinglePeer := p.quicPeerSpecified || !cfg.quicPeer.isEmpty || hasLegacyIngress ||
    cfg.speedTestMode ≠ .none
  if !cfg.router.peers.isEmpty || !hasLegacySinglePeer then .ok ()
  else do
    requireNonEmpty cfg.quicPeer "--peer"
    if cfg.socksListen.isEmpty && cfg.httpListen.isEmpty && cfg.portForwards.isEmpty then
      .error (ascii "at least one ingress is required")
    let listens ← validateListen [] cfg.socksListen (ascii "invalid socks listen")
    let listens ← validateListen listens cfg.httpListen (ascii "invalid http listen")
    checkForwards cfg.portForwards listens

def checkSpeedTestPeers (cfg : ProxyConfig) : Except Bytes Unit :=
  if cfg.speedTestMode ≠ .none && !cfg.router.peers.isEmpty &&
    (cfg.router.peers.filter (·.enabled)).length ≠ 1 then
    .error (ascii "speed-test options require exactly one enabled peer")
  else .ok ()

/-- `TqValidateCidrList`, only for a list that is not empty. -/
def validateDeny (inet : Inet) (deny : List Bytes) : Except Bytes Unit :=
  if deny.isEmpty then .ok () else Acl.validateCidrList inet deny

/-- The list that stands for no list. -/
def allowAnyIpv4 : List Bytes := [ascii "0.0.0.0/0"]

def withDefaultAllow (cfg : ProxyConfig) : ProxyConfig :=
  if cfg.allowTargets.isEmpty then { cfg with allowTargets := allowAnyIpv4 } else cfg

def writeConfig (cfg : ProxyConfig) (files : Files) (writeOk : Bool) :
    Except Bytes (ProxyConfig × Files) :=
  if writeOk then
    .ok (cfg, Function.update files cfg.configPath (some (.document (runtimeConfigJson cfg))))
  else .error (ascii "failed to publish config file: ")

def finishClient (args : Args) (loaded : Loaded) (cfg : ProxyConfig) (files : Files)
    (writeOk : Bool) :
    Except Bytes (ProxyConfig × Files) :=
  if args.config.isSome && (loaded.fileMissing || loaded.legacyRouterConfig) then
    writeConfig (if cfg.clientName.isEmpty then
      { cfg with clientName := args.defaultClientName } else cfg) files writeOk
  else .ok (cfg, files)

def finishServer (args : Args) (loaded : Loaded) (cfg : ProxyConfig) (files : Files)
    (writeOk : Bool) :
    Except Bytes (ProxyConfig × Files) :=
  let cfg :=
    if cfg.configPath.isEmpty then { cfg with configPath := args.defaultConfigPath } else cfg
  if args.config.isNone || loaded.fileMissing then writeConfig cfg files writeOk
  else .ok (cfg, files)

/-- `TqParseArgs`; `writeOk` says whether a file that it writes can be written. -/
def parseArgs (inet : Inet) (args : Args) (files : Files) (writeOk : Bool) :
    Except Bytes (ProxyConfig × Files) := do
  let loaded ← loadConfig args files
  let p ← applyOptions { cfg := loaded.cfg } args.options
  checkModes p
  let cfg ← loadRouter p files (withDefaultClientConfig args p)
  checkPeers cfg
  match args.mode with
  | .client =>
    checkSinglePeer p cfg
    requireNonEmpty cfg.quicCa "--ca"
    checkSpeedTestPeers cfg
    finishClient args loaded cfg files writeOk
  | .server =>
    requireNonEmpty cfg.quicListen "--listen"
    requireNonEmpty cfg.quicCert "--cert"
    requireNonEmpty cfg.quicKey "--key"
    let cfg := withDefaultAllow cfg
    Acl.validateCidrList inet cfg.allowTargets
    validateDeny inet cfg.denyTargets
    finishServer args loaded cfg files writeOk

/-! ### Readers that leave a part of the record alone -/

section Steady

variable {σ α β γ : Type} {get : σ → β} {view : σ → γ}

/-- A reader that leaves one part of the record alone and looks at nothing but
another one. -/
structure Steady (get : σ → β) (view : σ → γ) (f : σ → Except Bytes σ) : Prop where
  keeps : Keeps get f
  follows : Follows view f f

theorem into_eq_ok {read : σ → Json → Except Bytes α} {set : α → σ → σ} {value : Json} {s s' : σ} :
    into read set value s = .ok s' ↔ ∃ a, read s value = .ok a ∧ s' = set a s := by
  unfold into
  cases read s value with
  | error err => simp
  | ok a => simp [eq_comm]

theorem steady_into {read : σ → Json → Except Bytes α} {set : α → σ → σ} {value : Json}
    (hget : ∀ a s, get (set a s) = get s)
    (hread : ∀ s t, view t = view s → read t value = read s value)
    (hset : ∀ a s t, view t = view s → view (set a t) = view (set a s)) :
    Steady get view (into read set value) where
  keeps s s' h := by
    obtain ⟨a, -, rfl⟩ := into_eq_ok.mp h
    exact hget a s
  follows s t s' hview h := by
    obtain ⟨a, ha, rfl⟩ := into_eq_ok.mp h
    exact ⟨set a t, into_eq_ok.mpr ⟨a, (hread s t hview).trans ha, rfl⟩, hset a s t hview⟩

theorem steady_refuse {what : String} (name : Bytes) : Steady get view (refuse what name) where
  keeps _ _ h := nomatch h
  follows _ _ _ _ h := nomatch h

variable {table : Table σ}

/-- The reader that a table has for a name is one of its entries. -/
theorem mem_of_lookup {name : Bytes} {reader : Reader σ} (h : table.lookup name = some reader) :
    (name, reader) ∈ table := by
  obtain ⟨before, after, rfl, -⟩ := lookup_eq_some_iff.mp h
  simp

theorem steady_readField {unknown : Bytes → σ → Except Bytes σ} {name : Bytes}
    (htable : ∀ entry ∈ table, entry.1 = name → ∀ value, Steady get view (entry.2 value))
    (value : Json) (hunknown : Steady get view (unknown name)) :
    Steady get view (readField table unknown name value) := by
  cases hlookup : table.lookup name with
  | none =>
    have hread : readField table unknown name value = unknown name := by
      funext s
      rw [readField, hlookup]
    rwa [hread]
  | some reader =>
    have hread : readField table unknown name value = reader value := by
      funext s
      rw [readField, hlookup]
    rw [hread]
    exact htable _ (mem_of_lookup hlookup) rfl value

theorem steady_readObject {required what : String}
    (htable : ∀ entry ∈ table, ∀ value, Steady get view (entry.2 value)) (value : Json) :
    Steady get view (readObject required table (refuse what) value) := by
  have hfield (m : Bytes × Json) : Steady get view (readField table (refuse what) m.1 m.2) :=
    steady_readField (fun entry hentry _ => htable entry hentry) m.2 (steady_refuse _)
  cases value with
  | object members =>
    exact ⟨fun _ _ => readMembers_keeps fun m _ => (hfield m).keeps,
      readMembers_follows fun m _ => (hfield m).follows⟩
  | _ => exact ⟨fun _ _ h => (nomatch h), fun _ _ _ _ h => (nomatch h)⟩

theorem Steady.mono {β' : Type} {get' : σ → β'} {f : σ → Except Bytes σ} (h : Steady get view f)
    (hget : ∀ s s', get s' = get s → get' s' = get' s) : Steady get' view f :=
  ⟨fun s s' hf => hget s s' (h.keeps s s' hf), h.follows⟩

end Steady

/-- The access list that a server starts with. -/
def ProxyConfig.acl (cfg : ProxyConfig) : Acl.Rules := ⟨cfg.allowTargets, cfg.denyTargets⟩

/-- The users that a client asks for. -/
def ProxyConfig.proxyUsers (cfg : ProxyConfig) : List Ingress.ProxyAuthUser := cfg.router.proxyAuth

/-- What no section of a runtime configuration has to do with. -/
def ProxyConfig.apart (cfg : ProxyConfig) : List Ingress.ProxyAuthUser × Bytes × Bytes × Mode :=
  (cfg.proxyUsers, cfg.configPath, cfg.clientConfigPath, cfg.mode)

/-- What decides about the destinations and the clients of a process. -/
def ProxyConfig.secured (cfg : ProxyConfig) :
    Acl.Rules × List Ingress.ProxyAuthUser × Bytes × Bytes × Mode :=
  (cfg.acl, cfg.apart)

/-- What a reader may look at in the record that it fills. -/
def ProxyConfig.looks (cfg : ProxyConfig) : Mode × SpeedTestMode := (cfg.mode, cfg.speedTestMode)

/-- A section that has nothing to do with who may use the process and for what. -/
abbrev SteadySection (reader : Reader ProxyConfig) : Prop :=
  ∀ value, Steady ProxyConfig.secured ProxyConfig.looks (reader value)

theorem steady_tls : SteadySection parseTlsConfig := by
  apply steady_readObject
  simp only [tlsTable, forall_mem_cons]
  refine ⟨fun _ => ?_, fun _ => ?_, fun _ => ?_, by simp⟩ <;>
    exact steady_into (fun _ _ => rfl) (fun _ _ _ => rfl) fun _ _ _ h => h

theorem steady_admin : SteadySection parseAdminConfig := by
  apply steady_readObject
  simp only [adminTable, forall_mem_cons]
  refine ⟨fun _ => ?_, fun _ => ?_, fun _ => ?_, by simp⟩ <;>
    exact steady_into (fun _ _ => rfl) (fun _ _ _ => rfl) fun _ _ _ h => h

theorem steady_encryptionPolicy : SteadySection (into readEncryptionPolicy fun _ cfg => cfg) := by
  refine fun value => steady_into (fun _ _ => rfl) (fun s t h => ?_) fun _ _ _ h => h
  have hmode : t.mode = s.mode := congrArg Prod.fst h
  simp only [readEncryptionPolicy, hmode]

theorem steady_disable1Rtt :
    SteadySection (into (orError readBool "invalid proto.disable_1rtt_encryption") fun v cfg =>
    if cfg.mode ≠ .server then { cfg with quicDisable1RttEncryption := v } else cfg) := by
  have hkept (v : Bool) (cfg : ProxyConfig) :
      (if cfg.mode ≠ .server then { cfg with quicDisable1RttEncryption := v } else cfg).secured =
        cfg.secured ∧
      (if cfg.mode ≠ .server then { cfg with quicDisable1RttEncryption := v } else cfg).looks =
        cfg.looks := by
    split <;> exact ⟨rfl, rfl⟩
  refine fun value =>
    steady_into (fun v cfg => (hkept v cfg).1) (fun _ _ _ => rfl) fun v s t h => ?_
  rw [(hkept v t).2, (hkept v s).2, h]

theorem steady_proto : SteadySection parseProtoConfig := by
  apply steady_readObject
  simp only [protoTable, forall_mem_cons]
  refine ⟨fun _ => ?_, steady_encryptionPolicy, steady_disable1Rtt, fun _ => ?_, fun _ => ?_,
    fun _ => ?_, fun _ => ?_,
    fun _ => ?_, by simp⟩ <;> exact steady_into (fun _ _ => rfl) (fun _ _ _ => rfl) fun _ _ _ h => h

theorem steady_relay : SteadySection parseRelayConfig := by
  apply steady_readObject
  simp only [relayTable, forall_mem_cons]
  refine ⟨fun _ => steady_into (fun _ _ => rfl) (fun _ _ _ => rfl) fun _ _ _ h => h,
    steady_readObject ?_, steady_readObject ?_,
    steady_readObject ?_, by simp⟩
  · simp only [commonRelayTable, forall_mem_cons]
    refine ⟨fun _ => ?_, fun _ => ?_, fun _ => ?_, fun _ => ?_, fun _ => ?_, by simp⟩ <;>
      exact steady_into (fun _ _ => rfl) (fun _ _ _ => rfl) fun _ _ _ h => h
  · simp only [linuxRelayTable, forall_mem_cons]
    refine ⟨fun _ => ?_, fun _ => ?_, fun _ => ?_, fun _ => ?_, fun _ => ?_, fun _ => ?_,
      by simp⟩ <;>
      exact steady_into (fun _ _ => rfl) (fun _ _ _ => rfl) fun _ _ _ h => h
  · simp only [windowsRelayTable, forall_mem_cons]
    exact ⟨fun _ => steady_into (fun _ _ => rfl) (fun _ _ _ => rfl) fun _ _ _ h => h, by simp⟩

theorem steady_tuning : SteadySection parseTuningConfig := by
  apply steady_readObject
  simp only [tuningTable, forall_mem_cons]
  refine ⟨fun _ => ?_, fun _ => ?_, by simp⟩ <;>
    exact steady_into (fun _ _ => rfl) (fun _ _ _ => rfl) fun _ _ _ h => h

theorem steady_compression : SteadySection parseCompressionConfig := by
  apply steady_readObject
  simp only [compressionTable, forall_mem_cons]
  refine ⟨fun _ => ?_, fun _ => ?_, by simp⟩ <;>
    exact steady_into (fun _ _ => rfl) (fun _ _ _ => rfl) fun _ _ _ h => h

theorem steady_trace : SteadySection parseTraceConfig := by
  apply steady_readObject
  simp only [traceTable, forall_mem_cons]
  refine ⟨fun _ => ?_, fun _ => ?_, fun _ => ?_, by simp⟩ <;>
    exact steady_into (fun _ _ => rfl) (fun _ _ _ => rfl) fun _ _ _ h => h

theorem steady_speedTest (mode : SpeedTestMode) (name : String) :
    SteadySection (parseSpeedTest mode name) := by
  refine fun value => steady_into (fun _ _ => rfl) (fun s t h => ?_) fun _ _ _ h => ?_
  · have htest : t.speedTestMode = s.speedTestMode := congrArg Prod.snd h
    simp only [readSpeedTest, htest, orError]
  · exact congrArg (fun looks => (looks.1, mode)) h

theorem steady_client : SteadySection parseClientConfig := by
  apply steady_readObject
  simp only [clientTable, forall_mem_cons]
  refine ⟨steady_speedTest _ _, steady_speedTest _ _, steady_speedTest _ _, fun _ => ?_,
    fun _ => ?_, by simp⟩ <;>
    exact steady_into (fun _ _ => rfl) (fun _ _ _ => rfl) fun _ _ _ h => h

/-- Only the server section has to do with the access list, and none with the
proxy users. -/
theorem steady_runtimeTable :
    ∀ entry ∈ runtimeTable, entry.1 ≠ ascii "server" → SteadySection entry.2 := by
  simp only [runtimeTable, forall_mem_cons]
  exact ⟨fun _ => steady_tls, fun _ => steady_admin, fun _ => steady_proto, fun h => absurd rfl h,
    fun _ => steady_relay,
    fun _ => steady_tuning, fun _ => steady_compression, fun _ => steady_trace,
      fun _ => steady_client,
    fun _ _ => steady_into (fun _ _ => rfl) (fun _ _ _ => rfl) fun _ _ _ h => h, by simp⟩

/-- The server section sets the lists and the listen address. -/
theorem steady_server (value : Json) :
    Steady (fun cfg => (cfg.apart, cfg.looks)) ProxyConfig.looks (parseServerConfig value) := by
  apply steady_readObject
  simp only [serverTable, forall_mem_cons]
  refine ⟨fun _ => ?_, fun _ => ?_, fun _ => ?_, by simp⟩ <;>
    exact steady_into (fun _ _ => rfl) (fun _ _ _ => rfl) fun _ _ _ h => h

theorem steady_apart :
    ∀ entry ∈ runtimeTable, ∀ value,
      Steady ProxyConfig.apart ProxyConfig.looks (entry.2 value) := by
  have hsteady {reader : Reader ProxyConfig} (h : SteadySection reader) (v : Json) :
      Steady ProxyConfig.apart looks (reader v) := (h v).mono fun _ _ h => congrArg Prod.snd h
  simp only [runtimeTable, forall_mem_cons]
  exact ⟨hsteady steady_tls, hsteady steady_admin, hsteady steady_proto,
    fun v => (steady_server v).mono fun _ _ h => congrArg Prod.fst h, hsteady steady_relay,
      hsteady steady_tuning,
    hsteady steady_compression, hsteady steady_trace, hsteady steady_client,
    fun _ => steady_into (fun _ _ => rfl) (fun _ _ _ => rfl) fun _ _ _ h => h, by simp⟩

theorem steady_runtimeField (name : Bytes) (value : Json) :
    Steady ProxyConfig.apart ProxyConfig.looks
      (readField runtimeTable (refuse "unknown config key: ") name value) :=
  steady_readField (fun entry hentry _ => steady_apart entry hentry) value (steady_refuse _)

variable {cfg cfg' : ProxyConfig} {members : Members} {p p' : Parsed} {opts : List Opt}
  {args : Args}
    {files files' : Files} {writeOk : Bool}

/-- No section of a runtime configuration has proxy users or names a file. -/
theorem parseRuntimeConfig_apart {body : FileBody}
    (h : parseRuntimeConfig body cfg = .ok cfg') : cfg'.apart = cfg.apart := by
  unfold parseRuntimeConfig at h
  split at h
  · split at h
    · cases h
    · exact readMembers_keeps (fun m _ => (steady_runtimeField m.1 m.2).keeps) h
  · cases h
  · cases h

/-! ### The lists of the server section -/

theorem parseStringList_stringArrayJson (values : List Bytes) :
    parseStringList (stringArrayJson values) = some values := by
  simp only [stringArrayJson, parseStringList]
  induction values with
  | nil => rfl
  | cons v values ih => simp [mapM_cons, ih, readString]

theorem into_stringList (err : String) (set : List Bytes → ProxyConfig → ProxyConfig)
    (values : List Bytes) (s : ProxyConfig) :
    into (orError parseStringList err) set (stringArrayJson values) s = .ok (set values s) := by
  simp [into, orError, parseStringList_stringArrayJson]

theorem readField_allow (values : List Bytes) (s : ProxyConfig) :
    readField serverTable (refuse "unknown server key: ") (ascii "allow_targets")
      (stringArrayJson values) s = .ok { s with allowTargets := values } :=
  into_stringList "invalid server.allow_targets"
    (fun v cfg => { cfg with allowTargets := v }) values s

theorem readField_deny (values : List Bytes) (s : ProxyConfig) :
    readField serverTable (refuse "unknown server key: ") (ascii "deny_targets")
      (stringArrayJson values) s = .ok { s with denyTargets := values } :=
  into_stringList "invalid server.deny_targets"
    (fun v cfg => { cfg with denyTargets := v }) values s

/-- The lists that the server section of a document has are the ones it is read with. -/
theorem parseServerConfig_lists {allow deny : List Bytes} (hordered : members.Ordered)
    (hallow : members.lookup (ascii "allow_targets") = some (stringArrayJson allow))
    (hdeny : members.lookup (ascii "deny_targets") = some (stringArrayJson deny))
    (h : parseServerConfig (.object members) cfg = .ok cfg') : cfg'.acl = ⟨allow, deny⟩ := by
  have hallows : cfg'.allowTargets = allow := by
    refine readMembers_sets hordered hallow (fun s s' hread => ?_) (fun m _ hne => ?_) h
    · obtain rfl := Except.ok.inj ((readField_allow allow s).symm.trans hread)
      rfl
    · refine (steady_readField ?_ m.2 (steady_refuse _) : Steady _ looks _).keeps
      simp only [serverTable, forall_mem_cons]
      exact ⟨fun _ _ => steady_into (fun _ _ => rfl) (fun _ _ _ => rfl) fun _ _ _ h => h,
        fun heq => absurd heq.symm hne,
          fun _ _ => steady_into (fun _ _ => rfl) (fun _ _ _ => rfl) fun _ _ _ h => h, by simp⟩
  have hdenies : cfg'.denyTargets = deny := by
    refine readMembers_sets hordered hdeny (fun s s' hread => ?_) (fun m _ hne => ?_) h
    · obtain rfl := Except.ok.inj ((readField_deny deny s).symm.trans hread)
      rfl
    · refine (steady_readField ?_ m.2 (steady_refuse _) : Steady _ looks _).keeps
      simp only [serverTable, forall_mem_cons]
      exact ⟨fun _ _ => steady_into (fun _ _ => rfl) (fun _ _ _ => rfl) fun _ _ _ h => h,
        fun _ _ => steady_into (fun _ _ => rfl) (fun _ _ _ => rfl) fun _ _ _ h => h,
          fun heq => absurd heq.symm hne, by simp⟩
  rw [acl, hallows, hdenies]

/-- The lists of a process that reads a document come from its server section. -/
theorem parseRuntimeConfig_lists {server : Members} {allow deny : List Bytes}
    (hordered : members.Ordered) (hserver : members.lookup (ascii "server") = some (.object server))
    (hserverOrdered : server.Ordered)
    (hallow : server.lookup (ascii "allow_targets") = some (stringArrayJson allow))
    (hdeny : server.lookup (ascii "deny_targets") = some (stringArrayJson deny))
    (h : parseRuntimeConfig (.document (.object members)) cfg = .ok cfg') :
    cfg'.acl = ⟨allow, deny⟩ := by
  simp only [parseRuntimeConfig] at h
  split at h
  · cases h
  · refine readMembers_sets hordered hserver (fun s s' hread => ?_) (fun m _ hne => ?_) h
    · exact parseServerConfig_lists hserverOrdered hallow hdeny hread
    · have hsteady : Steady acl looks
          (readField runtimeTable (refuse "unknown config key: ") m.1 m.2) :=
        steady_readField (fun entry hentry hname value =>
          (steady_runtimeTable entry hentry (hname ▸ hne) value).mono
          fun _ _ h => congrArg Prod.fst h) m.2 (steady_refuse _)
      exact hsteady.keeps

/-! ### A document with another server section -/

/-- A member of the server section can be read in any state or in none. -/
theorem serverField_total {name : Bytes} {value : Json} {s s' : ProxyConfig}
    (h : readField serverTable (refuse "unknown server key: ") name value s = .ok s')
    (t : ProxyConfig) :
    ∃ t', readField serverTable (refuse "unknown server key: ") name value t = .ok t' := by
  have hsteady : Steady (fun _ : ProxyConfig => ()) (fun _ : ProxyConfig => ())
      (readField serverTable (refuse "unknown server key: ") name value) := by
    refine steady_readField ?_ value (steady_refuse _)
    simp only [serverTable, forall_mem_cons]
    refine ⟨fun _ _ => ?_, fun _ _ => ?_, fun _ _ => ?_, by simp⟩ <;>
      exact steady_into (fun _ _ => rfl) (fun _ _ _ => rfl) fun _ _ _ h => h
  obtain ⟨t', ht', -⟩ := hsteady.follows s t s' rfl h
  exact ⟨t', ht'⟩

/-- Putting lists into a section that can be read keeps it so. -/
theorem parseServerConfig_set_lists {server : Members} (allow deny : List Bytes)
    (h : ∀ m ∈ server, ∃ s s',
      readField serverTable (refuse "unknown server key: ") m.1 m.2 s = .ok s')
    (cfg : ProxyConfig) :
    ∃ cfg', parseServerConfig
      (.object ((server.set (ascii "allow_targets") (stringArrayJson allow)).set
        (ascii "deny_targets") (stringArrayJson deny))) cfg = .ok cfg' := by
  refine readMembers_total (fun m hm s => ?_) cfg
  rcases Members.mem_set hm with rfl | hm
  · exact ⟨_, readField_deny deny s⟩
  · rcases Members.mem_set hm with rfl | hm
    · exact ⟨_, readField_allow allow s⟩
    · obtain ⟨_, _, hread⟩ := h m hm
      exact serverField_total hread s

/-- A document that can be loaded can be loaded with another server section, if
that section can be read. -/
theorem parseRuntimeConfig_set_server {serverSection : Json}
    (hsection : ∀ s, ∃ s', parseServerConfig serverSection s = .ok s')
    (h : parseRuntimeConfig (.document (.object members)) cfg = .ok cfg') :
    ∃ cfg'', parseRuntimeConfig (.document (.object (members.set (ascii "server") serverSection)))
      cfg = .ok cfg'' := by
  have hversion : (members.set (ascii "server") serverSection).lookup (ascii "version") =
      members.lookup (ascii "version") :=
    Members.lookup_set_of_ne (by decide) serverSection members
  simp only [parseRuntimeConfig, hversion] at h ⊢
  split at h
  · cases h
  rename_i hnone
  rw [if_neg hnone]
  have hlooks (value : Json) (s s' : ProxyConfig)
      (hs : readField runtimeTable (refuse "unknown config key: ") (ascii "server") value s =
        .ok s') : s'.looks = s.looks :=
    congrArg Prod.snd ((steady_server value).keeps s s' hs)
  have hserver (s : ProxyConfig) :
      ∃ s', readField runtimeTable (refuse "unknown config key: ") (ascii "server")
        serverSection s = .ok s' := hsection s
  have hafter (after : Members) : Follows looks
      (readMembers (readField runtimeTable (refuse "unknown config key: ")) after)
      (readMembers (readField runtimeTable (refuse "unknown config key: ")) after) :=
    readMembers_follows fun m _ => (steady_runtimeField m.1 m.2).follows
  generalize readField runtimeTable (refuse "unknown config key: ") =
    reader at h hlooks hserver hafter ⊢
  obtain ⟨before, after, hset, hold⟩ := Members.set_split (ascii "server") serverSection members
  -- With the new section the reader goes on after the members before it like any reader that
  -- looks the same.
  have hgoes {next later : ProxyConfig} (hbefore : readMembers reader before cfg = .ok next)
      (hlater : later.looks = next.looks)
      (hrest : readMembers reader after later = .ok cfg') :
      ∃ cfg'', readMembers reader (before ++ (ascii "server", serverSection) :: after) cfg =
        .ok cfg'' := by
    obtain ⟨mid, hmid⟩ := hserver next
    obtain ⟨last, hlast, -⟩ :=
      hafter after later mid cfg' ((hlooks _ next mid hmid).trans hlater.symm) hrest
    exact ⟨last, readMembers_append_ok.mpr ⟨next, hbefore, by rw [readMembers, hmid]; exact hlast⟩⟩
  rw [hset]
  rcases hold with hold | ⟨old, -, hold⟩
  · rw [hold] at h
    obtain ⟨next, hbefore, hrest⟩ := readMembers_append_ok.mp h
    exact hgoes hbefore rfl hrest
  · rw [hold] at h
    obtain ⟨next, hbefore, hrest⟩ := readMembers_append_ok.mp h
    obtain ⟨later, hlater, hrest⟩ := readMembers_cons_ok hrest
    exact hgoes hbefore (hlooks old next later hlater) hrest

/-! ### Options and the rest of a start -/

/-- What an option leaves as it is, and where it puts the file for the peers. -/
structure OptionFrame (opt : Opt) (p p' : Parsed) : Prop where
  mode : p'.cfg.mode = p.cfg.mode
  router : p'.cfg.router = p.cfg.router
  configPath : p'.cfg.configPath = p.cfg.configPath
  acl : opt.isAcl = false → p'.cfg.acl = p.cfg.acl
  clientConfigPath : p'.cfg.clientConfigPath = opt.clientConfigPath.getD p.cfg.clientConfigPath
  clientConfigSpecified :
    p'.clientConfigSpecified = (p.clientConfigSpecified || opt.clientConfigPath.isSome)

theorem optionFrame {opt : Opt} (h : applyOption p opt = .ok p') : OptionFrame opt p p' := by
  cases opt with
  | setting s =>
    simp only [applyOption] at h
    split at h
    · cases h
    · rename_i cfg hcfg
      cases h
      have hkeeps := s.keeps p.cfg cfg hcfg
      exact ⟨congrArg (·.mode) hkeeps, congrArg (·.router) hkeeps, congrArg (·.configPath) hkeeps,
        fun _ =>
          congrArg (fun a : Assigned => (⟨a.allowTargets, a.denyTargets⟩ : Acl.Rules)) hkeeps,
        congrArg (·.clientConfigPath) hkeeps, (Bool.or_false _).symm⟩
  | forward value =>
    simp only [applyOption] at h
    split at h
    · cases h
    · cases h
      exact ⟨rfl, rfl, rfl, fun _ => rfl, rfl, (Bool.or_false _).symm⟩
  | allowTargets value | denyTargets value =>
    cases h
    exact ⟨rfl, rfl, rfl, fun hacl => (nomatch hacl), rfl, (Bool.or_false _).symm⟩
  | clientConfig path =>
    cases h
    exact ⟨rfl, rfl, rfl, fun _ => rfl, rfl, (Bool.or_true _).symm⟩
  | _ =>
    cases h
    exact ⟨rfl, rfl, rfl, fun _ => rfl, rfl, (Bool.or_false _).symm⟩

theorem applyOptions_cons_ok {opt : Opt} (h : applyOptions p (opt :: opts) = .ok p') :
    ∃ next, applyOption p opt = .ok next ∧ applyOptions next opts = .ok p' := by
  rw [applyOptions] at h
  split at h
  · cases h
  · exact ⟨_, ‹_›, h⟩

theorem applyOptions_frame (h : applyOptions p opts = .ok p') :
    p'.cfg.mode = p.cfg.mode ∧ p'.cfg.router = p.cfg.router ∧
      p'.cfg.configPath = p.cfg.configPath := by
  induction opts generalizing p with
  | nil =>
    cases h
    exact ⟨rfl, rfl, rfl⟩
  | cons opt opts ih =>
    obtain ⟨next, hnext, hrest⟩ := applyOptions_cons_ok h
    obtain ⟨hmode, hrouter, hpath⟩ := ih hrest
    have hframe := optionFrame hnext
    exact ⟨hmode.trans hframe.mode, hrouter.trans hframe.router, hpath.trans hframe.configPath⟩

/-- The file that the last option of the kind names. -/
def namedClientConfig : List Opt → Option Bytes
  | [] => none
  | opt :: opts => (namedClientConfig opts).or opt.clientConfigPath

theorem applyOptions_clientConfig (h : applyOptions p opts = .ok p') :
    p'.cfg.clientConfigPath = (namedClientConfig opts).getD p.cfg.clientConfigPath ∧
      p'.clientConfigSpecified = (p.clientConfigSpecified || (namedClientConfig opts).isSome) := by
  induction opts generalizing p with
  | nil =>
    cases h
    exact ⟨rfl, (Bool.or_false _).symm⟩
  | cons opt opts ih =>
    obtain ⟨next, hnext, hrest⟩ := applyOptions_cons_ok h
    obtain ⟨hpath, hspecified⟩ := ih hrest
    have hframe := optionFrame hnext
    rw [hpath, hspecified, hframe.clientConfigPath, hframe.clientConfigSpecified, namedClientConfig]
    cases namedClientConfig opts <;> cases opt.clientConfigPath <;> simp

theorem applyOptions_acl (hacl : ∀ opt ∈ opts, opt.isAcl = false)
    (h : applyOptions p opts = .ok p') : p'.cfg.acl = p.cfg.acl := by
  induction opts generalizing p with
  | nil =>
    cases h
    rfl
  | cons opt opts ih =>
    obtain ⟨next, hnext, hrest⟩ := applyOptions_cons_ok h
    rw [ih (fun o ho => hacl o (mem_cons_of_mem _ ho)) hrest,
      (optionFrame hnext).acl (hacl opt mem_cons_self)]

theorem bind_eq_ok {ε α β : Type} {x : Except ε α} {f : α → Except ε β} {b : β}
    (h : (x >>= f) = .ok b) :
    ∃ a, x = .ok a ∧ f a = .ok b := by
  cases x with
  | error e => cases h
  | ok a => exact ⟨a, rfl, h⟩

theorem eq_ok_of_toOption {ε α : Type} {x : Except ε α} {a : α} (h : x.toOption = some a) :
    x = .ok a := by
  cases x with
  | error e => cases h
  | ok b => exact congrArg _ (Option.some.inj h)

/-- The parts of a start that succeeded, up to the checks that depend on the mode. -/
theorem parseArgs_ok {inet : Inet} (h : parseArgs inet args files writeOk = .ok (cfg', files')) :
    ∃ loaded p cfg, loadConfig args files = .ok loaded ∧
      applyOptions { cfg := loaded.cfg } args.options = .ok p ∧
      loadRouter p files (withDefaultClientConfig args p) = .ok cfg ∧
      (args.mode = .client → finishClient args loaded cfg files writeOk = .ok (cfg', files')) ∧
      (args.mode = .server →
        finishServer args loaded (withDefaultAllow cfg) files writeOk = .ok (cfg', files')) := by
  unfold parseArgs at h
  obtain ⟨loaded, hloaded, h⟩ := bind_eq_ok h
  obtain ⟨p, hp, h⟩ := bind_eq_ok h
  obtain ⟨-, -, h⟩ := bind_eq_ok h
  obtain ⟨cfg, hcfg, h⟩ := bind_eq_ok h
  obtain ⟨-, -, h⟩ := bind_eq_ok h
  refine ⟨loaded, p, cfg, hloaded, hp, hcfg, fun hmode => ?_, fun hmode => ?_⟩
  · simp only [hmode] at h
    obtain ⟨-, -, h⟩ := bind_eq_ok h
    obtain ⟨-, -, h⟩ := bind_eq_ok h
    obtain ⟨-, -, h⟩ := bind_eq_ok h
    exact h
  · simp only [hmode] at h
    obtain ⟨-, -, h⟩ := bind_eq_ok h
    obtain ⟨-, -, h⟩ := bind_eq_ok h
    obtain ⟨-, -, h⟩ := bind_eq_ok h
    obtain ⟨-, -, h⟩ := bind_eq_ok h
    obtain ⟨-, -, h⟩ := bind_eq_ok h
    exact h

theorem loadRouter_acl (h : loadRouter p files cfg = .ok cfg') :
    cfg'.acl = cfg.acl := by
  unfold loadRouter at h
  split at h
  · split at h
    · cases h
    · cases h
      rfl
  · cases h
    rfl

theorem withDefaultClientConfig_acl (args : Args) (p : Parsed) :
    (withDefaultClientConfig args p).acl = p.cfg.acl := by
  unfold withDefaultClientConfig
  split <;> rfl

theorem writeConfig_ok (h : writeConfig cfg files writeOk = .ok (cfg', files')) :
    cfg' = cfg ∧ files' =
      Function.update files cfg.configPath (some (.document (runtimeConfigJson cfg))) := by
  unfold writeConfig at h
  split at h
  · cases h
    exact ⟨rfl, rfl⟩
  · cases h

theorem finishServer_acl {loaded : Loaded}
    (h : finishServer args loaded cfg files writeOk = .ok (cfg', files')) : cfg'.acl = cfg.acl := by
  have hpath :
      (if cfg.configPath.isEmpty then
        { cfg with configPath := args.defaultConfigPath } else cfg).acl = cfg.acl := by
    split <;> rfl
  unfold finishServer at h
  dsimp only at h
  split at h
  · rw [(writeConfig_ok h).1, hpath]
  · cases h
    exact hpath

/-- What a server makes of the lists that it was given: no list to allow stands
for every IPv4 address. -/
def startedAcl (acl : Acl.Rules) : Acl.Rules :=
  ⟨if acl.allowCidrs.isEmpty then allowAnyIpv4 else acl.allowCidrs, acl.denyCidrs⟩

theorem withDefaultAllow_acl (cfg : ProxyConfig) :
    (withDefaultAllow cfg).acl = startedAcl cfg.acl := by
  unfold withDefaultAllow startedAcl acl
  split <;> simp_all

/-- A server that is started without options for the access list takes it from
its file. -/
theorem parseArgs_server_acl {inet : Inet}
    (hmode : args.mode = .server) (hacl : ∀ opt ∈ args.options, opt.isAcl = false)
    (h : parseArgs inet args files writeOk = .ok (cfg, files')) :
    ∃ loaded, loadConfig args files = .ok loaded ∧ cfg.acl = startedAcl loaded.cfg.acl := by
  obtain ⟨loaded, p, routed, hloaded, hp, hrouted, -, hserver⟩ := parseArgs_ok h
  refine ⟨loaded, hloaded, ?_⟩
  rw [finishServer_acl (hserver hmode), withDefaultAllow_acl, loadRouter_acl hrouted,
    withDefaultClientConfig_acl,
    applyOptions_acl hacl hp]

end TcpQuicProxy.Config
