import TcpQuicProxy.Acl.Decision
import TcpQuicProxy.Config.Startup

/-!
# Patches of the access list

`PATCH /server/config` builds the next lists from the configuration of the
process, writes them into the configuration file, hands them to the dial
reactor and commits them. The four steps are definitions of their own, since
each takes its own lock and none covers the whole request.

`Server.handlePatch` is a request that nothing interrupts, and
`handlePatch_ok` says what one that was accepted found and what it left.
-/

namespace TcpQuicProxy.Admin

open Platform Wire Config

/-! ### The request -/

structure ServerConfigPatch where
  hasAllowTargets : Bool := false
  hasDenyTargets : Bool := false
  allowTargets : List Bytes := []
  denyTargets : List Bytes := []
  deriving DecidableEq

/-- An answer other than success: its status and its text. -/
structure AdminError where
  status : Nat
  text : Bytes
  deriving DecidableEq

def badRequest (text : Bytes) : AdminError := ⟨400, text⟩

def notSupported (text : Bytes) : AdminError := ⟨503, text⟩

def isStartupField (key : Bytes) : Bool :=
  (["listen", "resolved_listens", "tls", "quic", "proto", "relay", "admin"].map ascii).contains key

def readPatchField (key : Bytes) (value : Json) (patch : ServerConfigPatch) :
    Except AdminError ServerConfigPatch :=
  if key = ascii "allow_targets" then
    match parseStringList value with
    | none => .error (badRequest (ascii "invalid allow_targets"))
    | some targets => .ok { patch with allowTargets := targets, hasAllowTargets := true }
  else if key = ascii "deny_targets" then
    match parseStringList value with
    | none => .error (badRequest (ascii "invalid deny_targets"))
    | some targets => .ok { patch with denyTargets := targets, hasDenyTargets := true }
  else if isStartupField key then
    .error (notSupported
      (ascii "server runtime field " ++ key ++ ascii " requires process restart"))
  else .error (badRequest (ascii "unknown server config field: " ++ key))

def parseServerConfigPatch : FileBody → Except AdminError ServerConfigPatch
  | .document (.object members) =>
    match readMembers readPatchField members {} with
    | .error err => .error err
    | .ok patch =>
      if !patch.hasAllowTargets && !patch.hasDenyTargets then
        .error (badRequest (ascii "server config patch must include allow_targets or deny_targets"))
      else .ok patch
  | .document _ => .error (badRequest (ascii "server config patch must be an object"))
  | _ => .error (badRequest (ascii "malformed server config patch object"))

/-- What a patch makes of the lists. -/
def ServerConfigPatch.applyTo (patch : ServerConfigPatch) (acl : Acl.Rules) : Acl.Rules :=
  ⟨if patch.hasAllowTargets then patch.allowTargets else acl.allowCidrs,
    if patch.hasDenyTargets then patch.denyTargets else acl.denyCidrs⟩

/-! ### The file -/

def readJsonFile (path : Bytes) : Option FileBody → Except Bytes Members
  | some (.document (.object members)) => .ok members
  | some (.document _) => .error (ascii "runtime config root must be a JSON object")
  | none => .error (ascii "failed to open runtime config file: " ++ path)
  | some .unreadable => .error (ascii "failed to open runtime config file: " ++ path)
  | some _ => .error (ascii "malformed runtime config JSON: ")

/-- The server section of a document; a missing one counts as an empty one. -/
def serverSection (root : Members) : Except Bytes Members :=
  match root.lookup (ascii "server") with
  | none => .ok []
  | some .null => .ok []
  | some (.object server) => .ok server
  | some _ => .error (ascii "runtime config server must be a JSON object")

def withLists (server : Members) (acl : Acl.Rules) : Members :=
  (server.set (ascii "allow_targets") (stringArrayJson acl.allowCidrs)).set
    (ascii "deny_targets") (stringArrayJson acl.denyCidrs)

/-- A document with the lists in its server section. -/
def withServerLists (root server : Members) (acl : Acl.Rules) : FileBody :=
  .document (.object (root.set (ascii "server") (.object (withLists server acl))))

def checkPath (path : Bytes) : Except Bytes Unit :=
  if path.isEmpty then .error (ascii "runtime config path is empty") else .ok ()

def patchServerAcl (path : Bytes) (file : Option FileBody) (acl : Acl.Rules) (writeOk : Bool) :
    Except Bytes FileBody := do
  checkPath path
  let root ← readJsonFile path file
  let server ← serverSection root
  if writeOk then .ok (withServerLists root server acl)
  else .error (ascii "failed to publish runtime config file: ")

/-- A list of the server section, or the empty one if the section has none. -/
def sectionList (server : Members) (name : String) : Except Bytes (List Bytes) :=
  match server.lookup (ascii name) with
  | none => .ok []
  | some value =>
    match parseStringList value with
    | none => .error (ascii ("invalid server." ++ name))
    | some targets => .ok targets

def loadServerAcl (path : Bytes) (file : Option FileBody) : Except Bytes Acl.Rules := do
  checkPath path
  let root ← readJsonFile path file
  let server ← serverSection root
  let allow ← sectionList server "allow_targets"
  let deny ← sectionList server "deny_targets"
  .ok ⟨allow, deny⟩

/-! ### The process -/

/-- The three copies of the lists and, beside them, the patches that were
answered with success. -/
structure Server where
  config : ProxyConfig
  stateAcl : Acl.Rules
  reactorAcl : Acl.Rules
  file : Option FileBody
  answered : List ServerConfigPatch := []

/-- A process as its start leaves it. -/
def Server.start (config : ProxyConfig) (file : Option FileBody) : Server :=
  ⟨config, config.acl, config.acl, file, []⟩

/-- What a request has built. -/
structure Next where
  config : ProxyConfig
  acl : Acl.Rules

def buildAclPatch (inet : Inet) (config : ProxyConfig) (patch : ServerConfigPatch) :
    Except Bytes Next := do
  let config :=
    if patch.hasAllowTargets then { config with allowTargets := patch.allowTargets } else config
  let config :=
    if patch.hasDenyTargets then { config with denyTargets := patch.denyTargets } else config
  Acl.validateCidrList inet config.allowTargets
  Acl.validateCidrList inet config.denyTargets
  .ok ⟨config, config.acl⟩

namespace Server

def build (inet : Inet) (s : Server) (patch : ServerConfigPatch) : Except AdminError Next :=
  match buildAclPatch inet s.config patch with
  | .error err => .error (badRequest err)
  | .ok next =>
    if next.config.configPath.isEmpty then
      .error (notSupported (ascii "server runtime config path is not available"))
    else .ok next

def writeFile (s : Server) (next : Next) (writeOk : Bool) : Except AdminError Server :=
  match patchServerAcl s.config.configPath s.file next.config.acl writeOk with
  | .error err => .error (notSupported err)
  | .ok body => .ok { s with file := some body }

def updateAcl (s : Server) (next : Next) : Server := { s with reactorAcl := next.acl }

def commit (s : Server) (patch : ServerConfigPatch) (next : Next) : Server :=
  { s with config := next.config, stateAcl := next.acl, answered := s.answered ++ [patch] }

/-- A request from its body to its answer. -/
def handlePatch (inet : Inet) (s : Server) (body : FileBody) (writeOk : Bool) :
    Except AdminError Server := do
  let patch ← parseServerConfigPatch body
  let next ← s.build inet patch
  let s ← s.writeFile next writeOk
  .ok ((s.updateAcl next).commit patch next)

/-- A request that is refused leaves everything as it was. -/
def serve (inet : Inet) (s : Server) (request : FileBody × Bool) : Option Server :=
  match s.handlePatch inet request.1 request.2 with
  | .error _ => some s
  | .ok s' => some s'

end Server

/-! ### What a request does -/

variable {inet : Inet} {next : Next} {s : Server} {path : Bytes} {writeOk : Bool}
  {patch : ServerConfigPatch} {file : Option FileBody} {body : FileBody} {s' : Server}

theorem buildAclPatch_ok {config : ProxyConfig} (h : buildAclPatch inet config patch = .ok next) :
    next.acl = patch.applyTo config.acl ∧ next.config.acl = next.acl ∧
      next.config.configPath = config.configPath := by
  unfold buildAclPatch at h
  obtain ⟨-, -, h⟩ := bind_eq_ok h
  obtain ⟨-, -, h⟩ := bind_eq_ok h
  cases h
  unfold ServerConfigPatch.applyTo ProxyConfig.acl
  cases patch.hasAllowTargets <;> cases patch.hasDenyTargets <;> exact ⟨rfl, rfl, rfl⟩

theorem build_ok (h : s.build inet patch = .ok next) :
    next.acl = patch.applyTo s.config.acl ∧ next.config.acl = next.acl ∧
      next.config.configPath = s.config.configPath ∧ s.config.configPath.isEmpty = false := by
  unfold Server.build at h
  split at h
  · cases h
  · rename_i hbuilt
    obtain ⟨hacl, hconfig, hpath⟩ := buildAclPatch_ok hbuilt
    split at h
    · cases h
    · rename_i hnonempty
      cases h
      rw [hpath] at hnonempty
      exact ⟨hacl, hconfig, hpath, Bool.eq_false_iff.mpr hnonempty⟩

theorem readJsonFile_ok {root : Members} (h : readJsonFile path file = .ok root) :
    file = some (.document (.object root)) := by
  unfold readJsonFile at h
  split at h <;> cases h
  rfl

theorem patchServerAcl_ok {acl : Acl.Rules} (h : patchServerAcl path file acl writeOk = .ok body) :
    ∃ root server, file = some (.document (.object root)) ∧ serverSection root = .ok server ∧
      body = withServerLists root server acl := by
  unfold patchServerAcl at h
  obtain ⟨-, -, h⟩ := bind_eq_ok h
  obtain ⟨root, hroot, h⟩ := bind_eq_ok h
  obtain ⟨server, hserver, h⟩ := bind_eq_ok h
  refine ⟨root, server, readJsonFile_ok hroot, hserver, ?_⟩
  split at h
  · exact (Except.ok.inj h).symm
  · cases h

theorem writeFile_ok (h : s.writeFile next writeOk = .ok s') :
    ∃ root server, s.file = some (.document (.object root)) ∧ serverSection root = .ok server ∧
      s' = { s with file := some (withServerLists root server next.config.acl) } := by
  unfold Server.writeFile at h
  split at h
  · cases h
  · rename_i hbody
    obtain ⟨root, server, hfile, hserver, rfl⟩ := patchServerAcl_ok hbody
    exact ⟨root, server, hfile, hserver, (Except.ok.inj h).symm⟩

theorem lookup_withLists_allow (server : Members) (acl : Acl.Rules) :
    (withLists server acl).lookup (ascii "allow_targets") =
      some (stringArrayJson acl.allowCidrs) := by
  rw [withLists, Members.lookup_set_of_ne (by decide), Members.lookup_set_self]

theorem lookup_withLists_deny (server : Members) (acl : Acl.Rules) :
    (withLists server acl).lookup (ascii "deny_targets") = some (stringArrayJson acl.denyCidrs) :=
  Members.lookup_set_self _ _ _

/-- What was written is what is read. -/
theorem loadServerAcl_withServerLists (hpath : path.isEmpty = false) (root server : Members)
    (acl : Acl.Rules) :
    loadServerAcl path (some (withServerLists root server acl)) = .ok acl := by
  simp only [loadServerAcl, checkPath, hpath, withServerLists, readJsonFile, serverSection,
    sectionList,
    Members.lookup_set_self, lookup_withLists_allow, lookup_withLists_deny,
      parseStringList_stringArrayJson, bind,
    Except.bind, Bool.false_eq_true, if_false]

/-- A request that was accepted, by what it found and what it left. -/
theorem handlePatch_ok (h : s.handlePatch inet body writeOk = .ok s') :
    ∃ patch next root server, parseServerConfigPatch body = .ok patch ∧
      s.build inet patch = .ok next ∧
      s.file = some (.document (.object root)) ∧ serverSection root = .ok server ∧
      s' = ⟨next.config, next.acl, next.acl, some (withServerLists root server next.acl),
        s.answered ++ [patch]⟩ := by
  unfold Server.handlePatch at h
  obtain ⟨patch, hpatch, h⟩ := bind_eq_ok h
  obtain ⟨next, hnext, h⟩ := bind_eq_ok h
  obtain ⟨written, hwritten, h⟩ := bind_eq_ok h
  obtain ⟨root, server, hfile, hserver, rfl⟩ := writeFile_ok hwritten
  refine ⟨patch, next, root, server, hpatch, hnext, hfile, hserver, ?_⟩
  rw [(build_ok hnext).2.1] at h
  exact (Except.ok.inj h).symm

/-- A step is a request that was refused or one that was accepted. -/
theorem serve_cases {request : FileBody × Bool} (h : s.serve inet request = some s') :
    s' = s ∨ s.handlePatch inet request.1 request.2 = .ok s' := by
  unfold Server.serve at h
  split at h
  · exact .inl (Option.some.inj h).symm
  · rename_i hok
    exact .inr (hok.trans (congrArg _ (Option.some.inj h)))

/-- A server with a certificate that lets clients reach one network. -/
def oneNetwork : ProxyConfig :=
  { mode := .server, configPath := ascii "config", quicListen := ascii "443",
    quicCert := ascii "cert",
    quicKey := ascii "key", allowTargets := [ascii "10.0.0.0/8"] }

def oneNetworkFile : Option FileBody :=
  some (.document (.object [
    (ascii "server", .object [
      (ascii "allow_targets", stringArrayJson [ascii "10.0.0.0/8"]),
        (ascii "proto_listen", .string (ascii "443"))]),
    (ascii "tls", .object
      [(ascii "cert", .string (ascii "cert")), (ascii "key", .string (ascii "key"))])]))

end TcpQuicProxy.Admin
