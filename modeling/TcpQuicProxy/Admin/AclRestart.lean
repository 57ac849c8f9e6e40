import TcpQuicProxy.Admin.AclPatch

/-!
# The access list across a restart

The lists that a patch puts into force are the ones that it writes, and a start
reads them back as they are. What a start does with them afterwards is not the
same, though: `TqParseArgs` takes an empty list of allowed targets for one that
was not given and puts every IPv4 address in its place, while in the running
process the empty list allows nothing.
-/

namespace TcpQuicProxy.Admin

open Platform Wire Config List

/-! ### Decisions -/

/-- Two access lists decide alike, for resolved addresses and for hosts. -/
def SameDecisions (inet : Inet) (a b : Acl.Rules) : Prop :=
  (∀ candidates port, a.filterResolvedAddresses inet candidates port =
    b.filterResolvedAddresses inet candidates port) ∧
    ∀ host port, a.isAllowed inet host port = b.isAllowed inet host port

variable {inet : Inet} {acl : Acl.Rules} {root server : Members} {config : ProxyConfig}
  {file : Option FileBody}
    {s : Server}

/-- A host is decided as the address that it is the text of. -/
theorem sameDecisions_of_filter {a b : Acl.Rules}
    (h : ∀ candidates port, a.filterResolvedAddresses inet candidates port =
      b.filterResolvedAddresses inet candidates port) :
    SameDecisions inet a b := by
  refine ⟨h, fun host port => ?_⟩
  cases hliteral : Acl.parseIpLiteral inet host with
  | none => simp only [Acl.Rules.isAllowed, hliteral]
  | some literal => rw [Acl.isAllowed_eq_filter hliteral, Acl.isAllowed_eq_filter hliteral, h]

/-- The IPv4 address of all zeros. -/
def anyAddress : Ipv4 := Vector.replicate 4 0

theorem parseCidr_any (hany : inet.pton4 (ascii "0.0.0.0") = some anyAddress) :
    Acl.parseCidr inet (ascii "0.0.0.0/0") =
      some ⟨.inet, Acl.widen anyAddress, 0, Nat.zero_le _⟩ := by
  have hslash : (ascii "0.0.0.0/0").findIdx? (· = Acl.slash) = some 7 := by decide
  have hlength : Acl.parsePrefix ((ascii "0.0.0.0/0").drop (7 + 1)) = some 0 := by decide
  have haddress : cString ((ascii "0.0.0.0/0").take 7) = ascii "0.0.0.0" := by decide
  simp only [Acl.parseCidr, hslash, hlength, haddress, hany]
  rfl

/-- The list that a start puts in the place of an empty one has every IPv4 address. -/
theorem inSome_allowAnyIpv4 (hany : inet.pton4 (ascii "0.0.0.0") = some anyAddress)
    (address : SockAddr) :
    Acl.InSome inet address allowAnyIpv4 ↔ ∃ addr port, address = .inet addr port := by
  have hlist :
      Acl.parseCidrList inet allowAnyIpv4 = [⟨.inet, Acl.widen anyAddress, 0, Nat.zero_le _⟩] := by
    rw [Acl.parseCidrList, allowAnyIpv4, filterMap_cons, parseCidr_any hany]
    rfl
  simp only [Acl.inSome_iff, hlist, mem_singleton, exists_eq_left]
  cases address with
  | inet addr port => simp [Acl.LiesIn, Wire.AgreeOn]
  | inet6 addr port flowInfo scopeId | other family => simp [Acl.LiesIn]

/-- An empty list of allowed targets allows nothing. -/
theorem filter_of_no_allow (hempty : acl.allowCidrs = []) (candidates : List SockAddr)
    (port : UInt16) : acl.filterResolvedAddresses inet candidates port = none := by
  have hnone (c : SockAddr) : ¬ Acl.InSome inet c acl.allowCidrs := by simp [Acl.InSome, hempty]
  rw [Acl.filterResolvedAddresses_eq, if_neg]
  rintro ⟨-, c, -, hc⟩
  exact hnone c hc

/-- What a start makes of the lists decides as they do unless there is no list
of allowed targets and an IPv4 address that is not denied. -/
theorem sameDecisions_startedAcl (hany : inet.pton4 (ascii "0.0.0.0") = some anyAddress)
    (acl : Acl.Rules) :
    SameDecisions inet acl (startedAcl acl) ↔
      acl.allowCidrs ≠ [] ∨ ∀ addr port, Acl.InSome inet (.inet addr port) acl.denyCidrs := by
  by_cases hempty : acl.allowCidrs = []
  · have hstarted : startedAcl acl = ⟨allowAnyIpv4, acl.denyCidrs⟩ := by
      rw [startedAcl, hempty]; rfl
    rw [hstarted]
    constructor
    · intro hsame
      refine .inr fun addr port => Decidable.by_contra fun hallowed => ?_
      have hdecision := hsame.1 [.inet addr port] port
      rw [filter_of_no_allow hempty, Acl.filterResolvedAddresses_eq, if_pos] at hdecision
      · cases hdecision
      · exact ⟨by simpa using hallowed, .inet addr port, mem_singleton_self _,
          (inSome_allowAnyIpv4 hany _).mpr ⟨addr, port, rfl⟩⟩
    · rintro (hne | hdenied)
      · exact absurd hempty hne
      · refine sameDecisions_of_filter fun candidates port => ?_
        rw [filter_of_no_allow hempty, Acl.filterResolvedAddresses_eq, if_neg]
        rintro ⟨hfree, c, hc, hallowed⟩
        obtain ⟨addr, port, rfl⟩ := (inSome_allowAnyIpv4 hany c).mp hallowed
        exact hfree _ hc (hdenied addr port)
  · have hstarted : startedAcl acl = acl := by
      rw [startedAcl, if_neg (by simpa using hempty)]
    simp only [hstarted, SameDecisions, hempty, implies_true, and_self, ne_eq,
      not_false_eq_true, true_or]

/-! ### Runs of requests -/

/-- The documents of the file and its server section are kept by key, which is
how the JSON library has every object. -/
def OrderedFile (file : Option FileBody) : Prop :=
  ∀ root : Members, file = some (.document (.object root)) →
    root.Ordered ∧ ∀ server :
      Members, root.lookup (ascii "server") = some (.object server) → server.Ordered

/-- The file has the lists, where a start looks for them. -/
def Written (acl : Acl.Rules) (file : Option FileBody) : Prop :=
  ∃ root server, file = some (.document (.object root)) ∧
    root.lookup (ascii "server") = some (.object server) ∧
    server.lookup (ascii "allow_targets") = some (stringArrayJson acl.allowCidrs) ∧
    server.lookup (ascii "deny_targets") = some (stringArrayJson acl.denyCidrs)

/-- A start reads the file if it could read the one before. -/
def StillLoads (before after : Option FileBody) : Prop :=
  ∀ body cfg cfg', before = some body → parseRuntimeConfig body cfg = .ok cfg' →
    ∃ body' cfg'', after = some body' ∧ parseRuntimeConfig body' cfg = .ok cfg''

theorem serverSection_ordered (hserver : serverSection root = .ok server)
    (h : ∀ server : Members, root.lookup (ascii "server") = some (.object server) →
      server.Ordered) :
    server.Ordered := by
  unfold serverSection at hserver
  split at hserver
  · cases hserver
    exact List.Pairwise.nil
  · cases hserver
    exact List.Pairwise.nil
  · rename_i hlookup
    cases hserver
    exact h _ hlookup
  · cases hserver

theorem orderedFile_withServerLists (acl : Acl.Rules)
    (hordered : OrderedFile (some (.document (.object root))))
    (hserver : serverSection root = .ok server) :
    OrderedFile (some (withServerLists root server acl)) := by
  obtain ⟨hroot, hsection⟩ := hordered root rfl
  rintro root' heq
  have hroot' : root' = root.set (ascii "server") (.object (withLists server acl)) := by
    simpa [withServerLists] using heq.symm
  subst hroot'
  refine ⟨Members.ordered_set _ _ hroot, fun server' hlookup => ?_⟩
  rw [Members.lookup_set_self] at hlookup
  cases hlookup
  exact Members.ordered_set _ _ (Members.ordered_set _ _ (serverSection_ordered hserver hsection))

theorem written_withServerLists (root server : Members) (acl : Acl.Rules) :
    Written acl (some (withServerLists root server acl)) :=
  ⟨_, _, rfl, Members.lookup_set_self _ _ _, lookup_withLists_allow server acl,
    lookup_withLists_deny server acl⟩

/-- The members of a section that a start reads can be read. -/
theorem serverSection_readable {cfg cfg' : ProxyConfig} (hserver : serverSection root = .ok server)
    (h : parseRuntimeConfig (.document (.object root)) cfg = .ok cfg') :
    ∀ m ∈ server, ∃ s s',
      readField serverTable (refuse "unknown server key: ") m.1 m.2 s = .ok s' := by
  unfold serverSection at hserver
  split at hserver
  · cases hserver
    simp
  · cases hserver
    simp
  · rename_i hlookup
    cases hserver
    simp only [parseRuntimeConfig] at h
    split at h
    · cases h
    · obtain ⟨before, after, hroot, -⟩ := lookup_eq_some_iff.mp hlookup
      obtain ⟨s, s', hread⟩ :=
        read_of_readMembers h (ascii "server", .object server) (by simp [hroot])
      have hread : parseServerConfig (.object server) s = .ok s' := hread
      exact read_of_readMembers hread
  · cases hserver

theorem stillLoads_withServerLists (acl : Acl.Rules) (hserver : serverSection root = .ok server) :
    StillLoads (some (.document (.object root))) (some (withServerLists root server acl)) := by
  rintro body cfg cfg' heq h
  cases heq
  obtain ⟨cfg'', hload⟩ := parseRuntimeConfig_set_server
    (parseServerConfig_set_lists acl.allowCidrs acl.denyCidrs (serverSection_readable hserver h)) h
  exact ⟨_, cfg'', rfl, hload⟩

theorem StillLoads.trans {a b c : Option FileBody} (hab : StillLoads a b) (hbc : StillLoads b c) :
    StillLoads a c := by
  intro body cfg cfg' hbody h
  obtain ⟨body', cfg'', hbody', h'⟩ := hab body cfg cfg' hbody h
  exact hbc body' cfg cfg'' hbody' h'

/-- What every request keeps, from a process that was started on `file`. -/
structure Consistent (config : ProxyConfig) (file : Option FileBody) (s : Server) : Prop where
  path : s.config.configPath = config.configPath
  ordered : OrderedFile s.file
  loads : StillLoads file s.file
  written : s.answered ≠ [] → Written s.reactorAcl s.file

theorem consistent_start (h : OrderedFile file) :
    Consistent config file (Server.start config file) :=
  ⟨rfl, h, fun body _ cfg' hbody hload => ⟨body, cfg', hbody, hload⟩, fun h => absurd rfl h⟩

theorem Consistent.handlePatch {s' : Server} {body : FileBody} {writeOk : Bool}
    (hs : Consistent config file s) (h : s.handlePatch inet body writeOk = .ok s') :
    Consistent config file s' := by
  obtain ⟨patch, next, root, server, -, hnext, hfile, hserver, rfl⟩ := handlePatch_ok h
  constructor
  · exact (build_ok hnext).2.2.1.trans hs.path
  · exact orderedFile_withServerLists next.acl (hfile ▸ hs.ordered) hserver
  · exact hs.loads.trans (hfile ▸ stillLoads_withServerLists next.acl hserver)
  · exact fun _ => written_withServerLists root server next.acl

theorem consistent_run {requests : List (FileBody × Bool)} (hordered : OrderedFile file)
    (hrun : Machine.run (Server.serve inet) (Server.start config file) requests = some s) :
    Consistent config file s := by
  refine Machine.invariant (fun s request s' hs hstep => ?_) (consistent_start hordered) hrun
  rcases serve_cases hstep with rfl | hok
  · exact hs
  · exact hs.handlePatch hok

/-! ### The next start -/

/-- A server that starts on a file with lists takes them as they are written. -/
theorem loadConfig_written {args : Args} {files : Files} {path : Bytes} {loaded : Loaded}
    (hmode : args.mode = .server) (hpath : args.config = some path)
    (hordered : OrderedFile (files path)) (hwritten : Written acl (files path))
    (h : loadConfig args files = .ok loaded) : loaded.cfg.acl = acl := by
  obtain ⟨root, server, hfile, hserver, hallow, hdeny⟩ := hwritten
  obtain ⟨hroot, hsection⟩ := hordered root hfile
  simp only [loadConfig, hpath, hfile, loadRuntimeConfigFile, hmode] at h
  split at h
  · cases h
  · rename_i cfg legacy hload
    cases h
    split at hload
    · rename_i hparse
      cases hload
      exact parseRuntimeConfig_lists hroot hserver (hsection server hserver) hallow hdeny hparse
    · simp at hload

/-- In every run of requests from any start, a start on the file that an
accepted request wrote, without options for the access list, has an access list
that decides as the one in force does, if and only if that one has a list of
allowed targets or denies every IPv4 address. The file is one that a start can
read whenever the file before the requests was. -/
theorem restart_decides_alike_iff {inet : Inet}
    (hany : inet.pton4 (ascii "0.0.0.0") = some anyAddress) {config : ProxyConfig}
    {file : Option FileBody} {requests : List (FileBody × Bool)} {s : Server}
    (hordered : OrderedFile file)
    (hrun : Machine.run (Server.serve inet) (Server.start config file) requests = some s)
    (hanswered : s.answered ≠ []) :
    StillLoads file s.file ∧
    ∀ (args : Args) (files files' : Files) (writeOk : Bool) (cfg : ProxyConfig),
      args.mode = .server → args.config = some config.configPath →
        (∀ opt ∈ args.options, opt.isAcl = false) →
      files config.configPath = s.file → parseArgs inet args files writeOk = .ok (cfg, files') →
      (SameDecisions inet s.reactorAcl cfg.acl ↔
        s.reactorAcl.allowCidrs ≠ [] ∨
          ∀ addr port, Acl.InSome inet (.inet addr port) s.reactorAcl.denyCidrs) := by
  have hs := consistent_run hordered hrun
  refine ⟨hs.loads, fun args files files' writeOk cfg hmode hpath hacl hfile hstart => ?_⟩
  obtain ⟨loaded, hloaded, hcfg⟩ := parseArgs_server_acl hmode hacl hstart
  have hlists : loaded.cfg.acl = s.reactorAcl :=
    loadConfig_written hmode hpath (hfile ▸ hs.ordered) (hfile ▸ hs.written hanswered) hloaded
  rw [hcfg, hlists]
  exact sameDecisions_startedAcl hany s.reactorAcl

/-- A request that sets the list of allowed targets. -/
def allowRequest (targets : List Bytes) : FileBody × Bool :=
  (.document (.object [(ascii "allow_targets", stringArrayJson targets)]), true)

/-- A start of that server without options for the access list. -/
def plainStart : Args := { mode := .server, config := some (ascii "config") }

theorem oneNetworkFile_ordered : OrderedFile oneNetworkFile := by
  intro root hroot
  have hroot : root = [
      (ascii "server", Json.object [
        (ascii "allow_targets", stringArrayJson [ascii "10.0.0.0/8"]),
          (ascii "proto_listen", .string (ascii "443"))]),
      (ascii "tls", .object
        [(ascii "cert", .string (ascii "cert")), (ascii "key", .string (ascii "key"))])] := by
    simpa [oneNetworkFile] using hroot.symm
  subst hroot
  refine ⟨?_, fun server hserver => ?_⟩
  · simp only [Members.Ordered, pairwise_cons, forall_mem_singleton, not_mem_nil, false_implies,
      implies_true, List.Pairwise.nil, and_true]
    decide
  · have hserver : server = [
        (ascii "allow_targets", stringArrayJson [ascii "10.0.0.0/8"]),
          (ascii "proto_listen", .string (ascii "443"))] := by
      simpa [lookup_cons] using hserver.symm
    subst hserver
    simp only [Members.Ordered, pairwise_cons, forall_mem_singleton, not_mem_nil, false_implies,
      implies_true, List.Pairwise.nil, and_true]
    decide

/-- The access list of a start on the file that a process has. -/
def aclAfterRestart (s : Server) : Option Acl.Rules :=
  (parseArgs plainInet.toInet plainStart (fun _ => s.file) true).toOption.map fun started =>
    started.1.acl

theorem aclAfterRestart_eq_some (h : aclAfterRestart s = some acl) :
    ∃ cfg files', parseArgs plainInet.toInet plainStart (fun _ => s.file) true = .ok (cfg, files') ∧
      cfg.acl = acl := by
  obtain ⟨⟨cfg, files'⟩, hstarted, hacl⟩ := Option.map_eq_some_iff.mp h
  exact ⟨cfg, files', eq_ok_of_toOption hstarted, hacl⟩

theorem restart_decides_alike_other_network :
    ∃ s : Server, Machine.run (Server.serve plainInet.toInet)
      (Server.start oneNetwork oneNetworkFile) [allowRequest [ascii "192.168.0.0/16"]] = some s ∧
    ∃ cfg files', parseArgs plainInet.toInet plainStart (fun _ => s.file) true =
      .ok (cfg, files') ∧
      SameDecisions plainInet.toInet s.reactorAcl cfg.acl := by
  have hrun : (Machine.run (Server.serve plainInet.toInet) (Server.start oneNetwork oneNetworkFile)
      [allowRequest [ascii "192.168.0.0/16"]]).map
        (fun s => (s.answered.length, s.reactorAcl.allowCidrs, (aclAfterRestart s).isSome)) =
      some (1, [ascii "192.168.0.0/16"], true) := by decide
  obtain ⟨s, hs, hacls⟩ := Option.map_eq_some_iff.mp hrun
  simp only [Prod.mk.injEq] at hacls
  obtain ⟨hanswered, hallow, hrestart⟩ := hacls
  obtain ⟨acl, hacl⟩ := Option.isSome_iff_exists.mp hrestart
  obtain ⟨cfg, files', hstart, -⟩ := aclAfterRestart_eq_some hacl
  have hne : s.answered ≠ [] := ne_nil_of_length_pos (by rw [hanswered]; decide)
  refine ⟨s, hs, cfg, files', hstart, ?_⟩
  refine ((restart_decides_alike_iff (by decide) oneNetworkFile_ordered hs hne).2 plainStart _
    files' true cfg rfl rfl
    (by simp [plainStart]) rfl hstart).mpr (.inl ?_)
  rw [hallow]
  decide

/-- A patch that allows nothing: the next start allows every IPv4 address. -/
theorem restart_widens_empty_allow :
    ∃ s : Server, Machine.run (Server.serve plainInet.toInet)
      (Server.start oneNetwork oneNetworkFile) [allowRequest []] = some s ∧ s.answered ≠ [] ∧
    ∃ cfg files', parseArgs plainInet.toInet plainStart (fun _ => s.file) true =
      .ok (cfg, files') ∧
      s.reactorAcl.isAllowed plainInet.toInet (ascii "8.8.8.8") 53 = false ∧
      cfg.acl.isAllowed plainInet.toInet (ascii "8.8.8.8") 53 = true ∧
      ¬ SameDecisions plainInet.toInet s.reactorAcl cfg.acl := by
  have hrun : (Machine.run (Server.serve plainInet.toInet) (Server.start oneNetwork oneNetworkFile)
      [allowRequest []]).map (fun s => (s.answered.length, s.reactorAcl, aclAfterRestart s)) =
      some (1, ⟨[], []⟩, some ⟨allowAnyIpv4, []⟩) := by decide
  obtain ⟨s, hs, hacls⟩ := Option.map_eq_some_iff.mp hrun
  simp only [Prod.mk.injEq] at hacls
  obtain ⟨hanswered, hreactor, hrestart⟩ := hacls
  obtain ⟨cfg, files', hstart, hcfg⟩ := aclAfterRestart_eq_some hrestart
  have hbefore : s.reactorAcl.isAllowed plainInet.toInet (ascii "8.8.8.8") 53 = false := by
    rw [hreactor]
    decide
  have hafter : cfg.acl.isAllowed plainInet.toInet (ascii "8.8.8.8") 53 = true := by
    rw [hcfg]
    decide
  refine ⟨s, hs, ne_nil_of_length_pos (by rw [hanswered]; decide), cfg, files', hstart,
    hbefore, hafter, ?_⟩
  intro hsame
  have heq := hsame.2 (ascii "8.8.8.8") 53
  rw [hbefore, hafter] at heq
  cases heq

end TcpQuicProxy.Admin
