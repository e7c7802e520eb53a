import MiniCloudflared.HotReload
import MiniCloudflared.Reconnect
import MiniCloudflared.TunnelSecret

namespace MiniCloudflared.Startup

open Library FirstMatch HttpTypes Config ThirdParty Ingress

inductive IpAddr
  | v4 (a b c d : UInt8)
  | v6 (segments : List UInt16)
  deriving DecidableEq

structure SocketAddr where
  ip : IpAddr
  port : Nat
  deriving DecidableEq

def EDGE_HOSTS : List Str := ["region1.v2.argotunnel.com".toList, "region2.v2.argotunnel.com".toList]

def EDGE_PORT : Nat := 7844

def FALLBACK : List Str :=
  ["198.41.192.167".toList, "198.41.192.67".toList, "198.41.192.57".toList, "198.41.200.13".toList]

def readOctet (s : Str) : Option (UInt8 × Str) :=
  let digits := s.takeWhile Char.isDigit
  let value := digits.foldl (fun n c => 10 * n + (c.toNat - 48)) 0
  if digits = [] ∨ 3 < digits.length ∨ 255 < value ∨ (1 < digits.length ∧ digits.head? = some '0') then none
  else some (UInt8.ofNat value, s.drop digits.length)

def readDot : Str → Option Str
  | '.' :: s => some s
  | _ => none

def readIpv4 (s : Str) : Option IpAddr := do
  let (a, s) ← readOctet s
  let (b, s) ← readOctet (← readDot s)
  let (c, s) ← readOctet (← readDot s)
  let (d, s) ← readOctet (← readDot s)
  if s = [] then some (.v4 a b c d) else none

/-- The other notation is tried where the text is no IPv4 address. -/
def parseIp (ipv6 : Str → Option IpAddr) (s : Str) : Except Error IpAddr :=
  match (readIpv4 s).or (ipv6 s) with
  | some ip => .ok ip
  | none => .error (.msg "invalid IP address syntax")

/-- What start-up finds around it. `shuffle` is one outcome of the shuffling. -/
structure World where
  crates : Crates
  fromSlice : Bytes → Except Error TokenCreds
  readToString : Path → Except Error Str
  homeDir : Option Str
  pathExists : Path → Bool
  lookupHost : Str → Except Error (List SocketAddr)
  ipv6 : Str → Option IpAddr
  shuffle : List SocketAddr → List SocketAddr

def lookupRegions (lookupHost : Str → Except Error (List SocketAddr)) :
    List SocketAddr → List Str → List SocketAddr
  | addrs, [] => addrs
  | addrs, host :: hosts =>
      match lookupHost (host ++ ':' :: (Nat.repr EDGE_PORT).toList) with
      | .ok resolved =>
          if (addrs ++ resolved).isEmpty then lookupRegions lookupHost (addrs ++ resolved) hosts
          else addrs ++ resolved
      | .error _ => lookupRegions lookupHost addrs hosts

def fallbackAddrs (ipv6 : Str → Option IpAddr) : List Str → Except Error (List SocketAddr)
  | [] => .ok []
  | ip :: ips => do
      let addr ← parseIp ipv6 ip
      let addrs ← fallbackAddrs ipv6 ips
      return ⟨addr, EDGE_PORT⟩ :: addrs

def resolveEdgeAddrs (w : World) : Except Error (List SocketAddr) := do
  let addrs := lookupRegions w.lookupHost [] EDGE_HOSTS
  let addrs ← if addrs.isEmpty then fallbackAddrs w.ipv6 FALLBACK else .ok addrs
  return w.shuffle addrs

def join (base name : Str) : Str :=
  if base = [] ∨ base.getLast? = some '/' then base ++ name else base ++ '/' :: name

def yamlPath (display : Str) : Path := ⟨display, some "yaml".toList⟩

def jsonPath (display : Str) : Path := ⟨display, some "json".toList⟩

def defaultConfigPath (w : World) : Option Path :=
  let system := yamlPath "/etc/cloudflared/config.yaml".toList
  let inSystem := if w.pathExists system then some system else none
  match w.homeDir with
  | none => inSystem
  | some home =>
      let dir := join home ".cloudflared".toList
      let yaml := yamlPath (join dir "config.yaml".toList)
      let json := jsonPath (join dir "config.json".toList)
      if w.pathExists yaml then some yaml
      else if w.pathExists json then some json
      else inSystem

structure TunnelConfig where
  token : Str
  configFile : Option Path

def noConfigFile : Error :=
  .msg ("Config file not found. Create ~/.cloudflared/config.yaml:\n\n" ++
    "ingress:\n  - hostname: example.com\n    service: http://localhost:8080\n" ++ "\n  - service: http_status:404\n")

def configPathOf (w : World) (cfg : TunnelConfig) : Except Error Path :=
  match cfg.configFile.or (defaultConfigPath w) with
  | some path => .ok path
  | none => .error noConfigFile

structure Started where
  creds : TokenCreds
  configPath : Path
  rules : List IngressRule
  addrs : List SocketAddr
  nonempty : 0 < addrs.length

/-- The TLS configuration cannot fail, as certificates that are refused are
passed over. -/
def startTunnel (w : World) (cfg : TunnelConfig) : Except Error Started := do
  let creds ← withContext "Failed to decode tunnel token".toList
    (TokenCreds.fromToken w.crates.base64 w.fromSlice cfg.token)
  let configPath ← configPathOf w cfg
  let rules ← loadFromFile w.crates w.readToString configPath
  let addrs ← resolveEdgeAddrs w
  if h : addrs.isEmpty then throw (.msg "No edge addresses")
  else return ⟨creds, configPath, rules, addrs, List.length_pos_of_ne_nil (by simpa using h)⟩

variable {w : World}

def nonEmptyAnswer (lookupHost : Str → Except Error (List SocketAddr)) (host : Str) : Option (List SocketAddr) :=
  match lookupHost (host ++ ':' :: (Nat.repr EDGE_PORT).toList) with
  | .ok (addr :: addrs) => some (addr :: addrs)
  | _ => none

/-- The addresses of the first region that has any. -/
theorem lookupRegions_eq (lookupHost : Str → Except Error (List SocketAddr)) (hosts : List Str) :
    lookupRegions lookupHost [] hosts = (hosts.findSome? (nonEmptyAnswer lookupHost)).getD [] := by
  induction hosts with
  | nil => rfl
  | cons host hosts ih =>
      rw [lookupRegions, List.findSome?_cons, nonEmptyAnswer]
      cases lookupHost (host ++ ':' :: (Nat.repr EDGE_PORT).toList) with
      | error e => exact ih
      | ok resolved =>
          cases resolved with
          | nil => exact ih
          | cons addr addrs => rfl

def knownEdges : List SocketAddr :=
  [⟨.v4 198 41 192 167, EDGE_PORT⟩, ⟨.v4 198 41 192 67, EDGE_PORT⟩, ⟨.v4 198 41 192 57, EDGE_PORT⟩,
    ⟨.v4 198 41 200 13, EDGE_PORT⟩]

theorem fallbackAddrs_ok (ipv6 : Str → Option IpAddr) : fallbackAddrs ipv6 FALLBACK = .ok knownEdges := rfl

def edgeSource (w : World) : List SocketAddr := (EDGE_HOSTS.findSome? (nonEmptyAnswer w.lookupHost)).getD knownEdges

theorem nonEmptyAnswer_ne_nil {lookupHost : Str → Except Error (List SocketAddr)} {host : Str}
    {addrs : List SocketAddr} (h : nonEmptyAnswer lookupHost host = some addrs) : addrs ≠ [] := by
  rw [nonEmptyAnswer] at h
  split at h
  next addr rest _ =>
    obtain rfl := Option.some.inj h
    exact List.cons_ne_nil _ _
  next => exact absurd h (by simp)

theorem edgeSource_ne_nil (w : World) : edgeSource w ≠ [] := by
  rw [edgeSource]
  cases h : EDGE_HOSTS.findSome? (nonEmptyAnswer w.lookupHost) with
  | none => exact List.cons_ne_nil _ _
  | some addrs =>
      obtain ⟨host, _, hhost⟩ := List.exists_of_findSome?_eq_some h
      exact nonEmptyAnswer_ne_nil hhost

theorem resolveEdgeAddrs_eq (w : World) : resolveEdgeAddrs w = .ok (w.shuffle (edgeSource w)) := by
  rw [resolveEdgeAddrs, lookupRegions_eq, edgeSource]
  cases h : EDGE_HOSTS.findSome? (nonEmptyAnswer w.lookupHost) with
  | none =>
      rw [Option.getD_none, fallbackAddrs_ok]
      rfl
  | some addrs =>
      obtain ⟨host, _, hhost⟩ := List.exists_of_findSome?_eq_some h
      have hempty : addrs.isEmpty = false := by simpa using nonEmptyAnswer_ne_nil hhost
      rw [Option.getD_some, Option.getD_some, hempty]
      rfl

/-- Every step of start-up has gone well, and the addresses are there whatever
the lookups have come to. -/
structure Starts (w : World) (cfg : TunnelConfig) (st : Started) : Prop where
  creds : TokenCreds.fromToken w.crates.base64 w.fromSlice cfg.token = .ok st.creds
  configPath : cfg.configFile.or (defaultConfigPath w) = some st.configPath
  rules : loadFromFile w.crates w.readToString st.configPath = .ok st.rules
  addrs : st.addrs = w.shuffle (edgeSource w)

theorem withContext_ok {α : Type} {text : Str} {r : Except Error α} {a : α} :
    withContext text r = .ok a ↔ r = .ok a := by
  cases r with
  | ok b => exact Iff.rfl
  | error e => exact ⟨fun h => absurd h (by simp [withContext]), fun h => absurd h (by simp)⟩

theorem configPathOf_ok {cfg : TunnelConfig} {path : Path} :
    configPathOf w cfg = .ok path ↔ cfg.configFile.or (defaultConfigPath w) = some path := by
  rw [configPathOf]
  cases cfg.configFile.or (defaultConfigPath w) with
  | none => exact ⟨fun h => absurd h (by simp), fun h => absurd h (by simp)⟩
  | some found => simp

theorem startTunnel_eq (hshuffle : ∀ addrs, (w.shuffle addrs).Perm addrs) (cfg : TunnelConfig) (st : Started) :
    startTunnel w cfg = .ok st ↔ Starts w cfg st := by
  have hne : w.shuffle (edgeSource w) ≠ [] := by
    intro hnil
    have hperm := hshuffle (edgeSource w)
    rw [hnil] at hperm
    exact edgeSource_ne_nil w hperm.nil_eq.symm
  have hempty : ¬ (w.shuffle (edgeSource w)).isEmpty = true := by simpa using hne
  constructor
  · intro h
    obtain ⟨creds, hcreds, h⟩ := except_bind_ok h
    obtain ⟨configPath, hpath, h⟩ := except_bind_ok h
    obtain ⟨rules, hrules, h⟩ := except_bind_ok h
    rw [resolveEdgeAddrs_eq] at h
    change (if h : (w.shuffle (edgeSource w)).isEmpty = true then _ else _) = _ at h
    rw [dif_neg hempty] at h
    obtain rfl := Except.ok.inj h
    exact ⟨withContext_ok.mp hcreds, configPathOf_ok.mp hpath, hrules, rfl⟩
  · rintro ⟨hcreds, hpath, hrules, haddrs⟩
    rcases st with ⟨creds, configPath, rules, addrs, nonempty⟩
    obtain rfl : addrs = w.shuffle (edgeSource w) := haddrs
    rw [startTunnel, withContext_ok.mpr hcreds, configPathOf_ok.mpr hpath]
    change (loadFromFile w.crates w.readToString configPath >>= _) = _
    rw [hrules, resolveEdgeAddrs_eq]
    change (if h : (w.shuffle (edgeSource w)).isEmpty = true then _ else _) = _
    rw [dif_neg hempty]
    rfl

theorem rules_of_start {cfg : TunnelConfig} {st : Started} (h : startTunnel w cfg = .ok st) :
    loadFromFile w.crates w.readToString st.configPath = .ok st.rules := by
  obtain ⟨creds, _, h⟩ := except_bind_ok h
  obtain ⟨configPath, _, h⟩ := except_bind_ok h
  obtain ⟨rules, hrules, h⟩ := except_bind_ok h
  obtain ⟨addrs, _, h⟩ := except_bind_ok h
  split at h
  next => exact absurd h (by simp [throw, throwThe, MonadExceptOf.throw])
  next =>
    obtain rfl := Except.ok.inj h
    exact hrules

/-- The loop begins if and only if the token decodes and a configuration file is
found and loads, whatever becomes of the lookups. Its addresses are then those
of the first region that has any, or else the known ones, in some order, and its
table can answer every request. -/
theorem loop_begins (hshuffle : ∀ addrs, (w.shuffle addrs).Perm addrs) (cfg : TunnelConfig) :
    ((∃ st, startTunnel w cfg = .ok st) ↔
      ∃ creds path rules, TokenCreds.fromToken w.crates.base64 w.fromSlice cfg.token = .ok creds ∧
        cfg.configFile.or (defaultConfigPath w) = some path ∧
        loadFromFile w.crates w.readToString path = .ok rules) ∧
    ∀ st, startTunnel w cfg = .ok st →
      st.addrs.Perm (edgeSource w) ∧ HotReload.EndsInCatchAll st.rules ∧
      (HotReload.reloading w.crates st.configPath).init
        (HotReload.started (w.readToString st.configPath) st.rules) ∧
      ∀ req : HttpTypes.Request RequestBody.RecvStream,
        ProxyStream.selectRule w.crates.caseTable st.rules req ≠ none := by
  refine ⟨⟨?_, ?_⟩, fun st hst => ?_⟩
  · rintro ⟨st, hst⟩
    have h := (startTunnel_eq hshuffle cfg st).mp hst
    exact ⟨st.creds, st.configPath, st.rules, h.creds, h.configPath, h.rules⟩
  · rintro ⟨creds, path, rules, hcreds, hpath, hrules⟩
    have hpos : 0 < (w.shuffle (edgeSource w)).length := by
      rw [(hshuffle _).length_eq]
      exact List.length_pos_of_ne_nil (edgeSource_ne_nil w)
    refine ⟨⟨creds, path, rules, w.shuffle (edgeSource w), hpos⟩, ?_⟩
    exact (startTunnel_eq hshuffle cfg _).mpr ⟨hcreds, hpath, hrules, rfl⟩
  · have h := (startTunnel_eq hshuffle cfg st).mp hst
    have hcatchAll := HotReload.loadFromFile_ok h.rules
    refine ⟨?_, hcatchAll, ⟨_, _, h.rules, rfl⟩, HotReload.selectRule_catchAll w.crates.caseTable hcatchAll⟩
    rw [h.addrs]
    exact hshuffle _

def offline : World where
  crates := TunnelSecret.badTunnel.crates
  fromSlice := TunnelSecret.fromSlice
  readToString path :=
    if path.display = "/root/.cloudflared/config.yaml".toList then .ok HotReload.savedText else .error .io
  homeDir := some "/root".toList
  pathExists path := path.display == "/root/.cloudflared/config.yaml".toList
  lookupHost _ := .error .io
  ipv6 _ := none
  shuffle addrs := addrs.reverse

theorem loop_begins_offline :
    ∃ st, startTunnel offline ⟨TunnelSecret.badToken, none⟩ = .ok st ∧ st.addrs.Perm knownEdges := by
  have hshuffle (addrs : List SocketAddr) : (offline.shuffle addrs).Perm addrs := List.reverse_perm addrs
  have h := loop_begins hshuffle ⟨TunnelSecret.badToken, none⟩
  obtain ⟨st, hst⟩ := h.1.mpr ⟨TunnelSecret.badCreds, _, HotReload.savedRules, rfl, rfl, rfl⟩
  exact ⟨st, hst, (h.2 st hst).1⟩

end MiniCloudflared.Startup
