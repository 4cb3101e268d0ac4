import Mathlib.Data.List.TakeWhile
import Mutiny.NodeReads

/-!
# Peer addresses (`node.rs`, `proxy.rs`, `ln-websocket-proxy/main.rs`)

The client writes the host and the port of a peer into the path of a URL, with underscores for the dots of the host, and
the proxy puts an address together from them again. It is the address of the peer exactly when the peer has at most one
colon in it, no slash and no underscore in its host (`address_round_trip`).
-/

namespace Mutiny

/-! ## Texts -/

def split (s : String) (sep : Char) : List String := (s.toList.splitOn sep).map String.ofList

def replace (s : String) (old new : Char) : String := String.ofList (s.toList.map fun c => if c = old then new else c)

/-- The host and the port of an address, which the last colon keeps apart. -/
def host_port (addr : String) : Option (String × String) :=
  if ':' ∈ addr.toList then
    some (String.ofList (addr.toList.reverse.dropWhile (· ≠ ':')).tail.reverse,
      String.ofList (addr.toList.reverse.takeWhile (· ≠ ':')).reverse)
  else none

/-! ## `node.rs` -/

inductive PubkeyConnectionInfo.ConnectionType where
  | Tcp (s : String)
  | Mutiny (url : String)
  deriving DecidableEq, Repr

structure PubkeyConnectionInfo (PublicKey : Type) where
  pubkey : PublicKey
  connection_type : PubkeyConnectionInfo.ConnectionType
  original_connection_string : String

section
variable {PublicKey : Type} (secp : Secp256k1 PublicKey) (to_lowercase : String → String)

def split_peer_connection_string (peer_pubkey_and_ip_addr : String) : Except MutinyError (PublicKey × String) :=
  match split peer_pubkey_and_ip_addr '@' with
  | pubkey :: peer_addr_str :: _ =>
    match secp.from_str pubkey with
    | none => .error .PeerInfoParseFailed
    | some pubkey => .ok (pubkey, peer_addr_str)
  | _ => .error .PeerInfoParseFailed

def parse_peer_info (peer_pubkey_and_ip_addr : String) : Except MutinyError (PublicKey × String) := do
  let (pubkey, peer_addr_str) ← split_peer_connection_string secp peer_pubkey_and_ip_addr
  let peer_addr_str_with_port := if ':' ∈ peer_addr_str.toList then peer_addr_str else peer_addr_str ++ ":9735"
  return (pubkey, peer_addr_str_with_port)

def PubkeyConnectionInfo.new (connection : String) : Except MutinyError (PubkeyConnectionInfo PublicKey) :=
  -- the context makes another error of `PeerInfoParseFailed`
  if connection.isEmpty then .error .Other
  else
    let connection := to_lowercase connection
    match strip_prefix connection "mutiny:" with
    | some stripped_connection => do
      let (pubkey, peer_addr_str) ← split_peer_connection_string secp stripped_connection
      return { pubkey, connection_type := .Mutiny peer_addr_str, original_connection_string := connection }
    | none => do
      let (pubkey, peer_addr_str) ← parse_peer_info secp connection
      return { pubkey, connection_type := .Tcp peer_addr_str, original_connection_string := connection }

/-! ## `proxy.rs` -/

def tcp_proxy_to_url (proxy_url peer_addr : String) : Except MutinyError String :=
  match split peer_addr ':' with
  | host :: port :: _ => .ok (proxy_url ++ "/v1/" ++ replace host '.' '_' ++ "/" ++ port)
  | _ => .error .PeerInfoParseFailed

def ws_url (proxy_url : String) (info : PubkeyConnectionInfo PublicKey) : Except MutinyError String :=
  match info.connection_type with
  | .Tcp s => tcp_proxy_to_url proxy_url s
  | .Mutiny url => .ok (mutiny_conn_proxy_to_url url (secp.to_string info.pubkey))

/-! ## `ln-websocket-proxy/main.rs` -/

/-- The segments of the path that `/v1/:ip/:port` names, as they stand in the text. Left out is what the browser and axum
do with `?`, `#`, percent codes and backslashes when they read a URL, and that the route `/v1/mutiny/:identifier` takes a
host that is named `mutiny`. -/
def path_segments (proxy_url url : String) : Option (String × String) :=
  match strip_prefix url (proxy_url ++ "/v1/") with
  | none => none
  | some path =>
    match split path '/' with
    | [ip, port] => some (ip, port)
    | _ => none

def format_addr_from_url (ip port : String) : String := replace ip '_' '.' ++ ":" ++ port

/-! ## The round trip -/

/-- The proxy finds the host and the port of the peer in the URL that the client opens. -/
def RoundTrip (proxy_url : String) (info : PubkeyConnectionInfo PublicKey) (peer_addr : String) : Prop :=
  ∃ url ip port, ws_url secp proxy_url info = .ok url ∧ path_segments proxy_url url = some (ip, port) ∧
    host_port (format_addr_from_url ip port) = host_port peer_addr

def address (connection : String) : String := (split connection '@').getD 1 ""

/-- One colon at most, no slash, and no underscore before the colon. -/
def Plain (address : String) : Prop :=
  address.toList.count ':' ≤ 1 ∧ '/' ∉ address.toList ∧ '_' ∉ address.toList.takeWhile (· ≠ ':')

instance (address : String) : Decidable (Plain address) := inferInstanceAs (Decidable (_ ∧ _))

end

/-! ## Splitting and joining -/

theorem split_one {s : String} {sep : Char} (h : sep ∉ s.toList) : split s sep = [s] := by
  unfold split
  rw [List.splitOn_eq_singleton h, List.map_singleton, String.ofList_toList]

theorem split_cons {s t : String} {sep : Char} (h : sep ∉ s.toList) :
    split (s ++ String.singleton sep ++ t) sep = s :: split t sep := by
  unfold split
  rw [String.toList_append, String.toList_append, String.toList_singleton, List.append_assoc, List.singleton_append,
    List.splitOn_append_cons_self_of_not_mem h, List.map_cons, String.ofList_toList]

theorem split_colon {host rest : String} (h : ':' ∉ host.toList) :
    split (host ++ ":" ++ rest) ':' = host :: split rest ':' := split_cons h

theorem split_cases (s : String) (sep : Char) :
    sep ∉ s.toList ∨ ∃ piece rest, sep ∉ piece.toList ∧ s = piece ++ String.singleton sep ++ rest := by
  by_cases h : sep ∈ s.toList
  · obtain ⟨piece, rest, hs, hn⟩ := List.eq_append_cons_of_mem h
    refine .inr ⟨.ofList piece, .ofList rest, ?_, ?_⟩
    · rw [String.toList_ofList]
      exact hn
    · apply String.toList_injective
      simp [hs]
  · exact .inl h

theorem split_eq_two {s a b : String} {sep : Char} : split s sep = [a, b] ↔
    s = a ++ String.singleton sep ++ b ∧ sep ∉ a.toList ∧ sep ∉ b.toList := by
  constructor
  · intro h
    rcases split_cases s sep with hs | ⟨piece, rest, hpiece, rfl⟩
    · rw [split_one hs] at h
      cases h
    · rw [split_cons hpiece] at h
      rcases split_cases rest sep with hrest | ⟨piece', rest', hpiece', rfl⟩
      · rw [split_one hrest] at h
        cases h
        exact ⟨rfl, hpiece, hrest⟩
      · rw [split_cons hpiece'] at h
        have hne : split rest' sep ≠ [] := by simp [split]
        exact absurd (List.cons.inj (List.cons.inj h).2).2 hne
  · intro ⟨hs, ha, hb⟩
    rw [hs, split_cons ha, split_one hb]

theorem not_colon {l : List Char} (h : ':' ∉ l) : ∀ c ∈ l, (decide (c ≠ ':')) = true := by
  intro c hc
  rw [decide_eq_true_eq]
  intro he
  exact h (he ▸ hc)

theorem host_port_append {host port : String} (h : ':' ∉ port.toList) :
    host_port (host ++ ":" ++ port) = some (host, port) := by
  have hmem : ':' ∈ (host ++ ":" ++ port).toList := by simp
  have hport := not_colon (l := port.toList.reverse) (by simpa using h)
  have hl : (host ++ ":" ++ port).toList.reverse = port.toList.reverse ++ ':' :: host.toList.reverse := by simp
  unfold host_port
  rw [if_pos hmem, hl, List.dropWhile_append_of_pos hport, List.takeWhile_append_of_pos hport]
  simp

theorem eq_of_host_port {addr host port : String} (h : host_port addr = some (host, port)) :
    addr = host ++ ":" ++ port := by
  by_cases hmem : ':' ∈ addr.toList
  · obtain ⟨port', host', hl, hn⟩ := List.eq_append_cons_of_mem (List.mem_reverse.mpr hmem)
    have haddr : addr = String.ofList host'.reverse ++ ":" ++ String.ofList port'.reverse := by
      apply String.toList_injective
      rw [← List.reverse_inj, hl]
      simp
    rw [haddr, host_port_append (by simpa using hn)] at h
    cases h
    exact haddr
  · unfold host_port at h
    rw [if_neg hmem] at h
    cases h

theorem host_port_eq_iff {host port addr : String} (hp : ':' ∉ port.toList) :
    host_port (host ++ ":" ++ port) = host_port addr ↔ host ++ ":" ++ port = addr := by
  constructor
  · intro h
    rw [host_port_append hp] at h
    exact (eq_of_host_port h.symm).symm
  · intro h
    rw [h]

/-! ## The characters of a host -/

theorem replace_replace (host : String) :
    replace (replace host '.' '_') '_' '.' = host ↔ '_' ∉ host.toList := by
  have hone : ∀ c : Char, (if (if c = '.' then '_' else c) = '_' then '.' else if c = '.' then '_' else c) = c ↔
      c ≠ '_' := by
    intro c
    by_cases hdot : c = '.'
    · subst hdot
      decide
    · by_cases hlow : c = '_'
      · subst hlow
        decide
      · simp [hdot, hlow]
  rw [← String.toList_inj]
  unfold replace
  rw [String.toList_ofList, String.toList_ofList, List.map_map]
  conv_lhs => rhs; rw [← List.map_id host.toList]
  rw [List.map_inj_left]
  constructor
  · intro h hmem
    exact (hone '_').mp (h '_' hmem) rfl
  · intro h c hc
    exact (hone c).mpr fun he => h (he ▸ hc)

theorem mem_replace {s : String} {old new c : Char} (hold : c ≠ old) (hnew : c ≠ new) :
    c ∈ (replace s old new).toList ↔ c ∈ s.toList := by
  unfold replace
  rw [String.toList_ofList, List.mem_map]
  constructor
  · intro ⟨d, hd, he⟩
    split_ifs at he with hd'
    · exact absurd he.symm hnew
    · exact he ▸ hd
  · intro hc
    exact ⟨c, hc, if_neg hold⟩

/-! ## The URL and the address -/

theorem split_pair {a b ip port : String} :
    split (a ++ "/" ++ b) '/' = [ip, port] ↔ '/' ∉ a.toList ∧ '/' ∉ b.toList ∧ a = ip ∧ b = port := by
  constructor
  · intro h
    obtain ⟨he, hip, hport⟩ := split_eq_two.mp h
    -- there is one slash in the whole
    have hcount := congrArg (fun s : String => s.toList.count '/') he
    have hip := List.count_eq_zero.mpr hip
    have hport := List.count_eq_zero.mpr hport
    simp only [String.toList_append, List.count_append, hip, hport, String.toList_singleton] at hcount
    have hone : "/".toList.count '/' = 1 := by decide
    have hone' : ['/'].count '/' = 1 := by decide
    have ha : '/' ∉ a.toList := List.count_eq_zero.mp (by omega)
    have hb : '/' ∉ b.toList := List.count_eq_zero.mp (by omega)
    rw [show a ++ "/" ++ b = a ++ String.singleton '/' ++ b from rfl, split_cons ha, split_one hb] at h
    cases h
    exact ⟨ha, hb, rfl, rfl⟩
  · rintro ⟨ha, hb, rfl, rfl⟩
    exact split_eq_two.mpr ⟨rfl, ha, hb⟩

theorem path_segments_append {proxy_url a b ip port : String} :
    path_segments proxy_url (proxy_url ++ "/v1/" ++ a ++ "/" ++ b) = some (ip, port) ↔
      '/' ∉ a.toList ∧ '/' ∉ b.toList ∧ a = ip ∧ b = port := by
  have hurl : proxy_url ++ "/v1/" ++ a ++ "/" ++ b = (proxy_url ++ "/v1/") ++ (a ++ "/" ++ b) := by
    simp only [String.append_assoc]
  unfold path_segments
  rw [hurl, strip_prefix_append, ← split_pair]
  dsimp only
  split
  · next ip' port' h =>
    rw [h]
    simp
  · next hne =>
    refine iff_of_false nofun fun h => hne _ _ h

theorem tcp_proxy_to_url_append (proxy_url rest : String) {host : String} (hhost : ':' ∉ host.toList) :
    ∃ port, tcp_proxy_to_url proxy_url (host ++ ":" ++ rest) =
        .ok (proxy_url ++ "/v1/" ++ replace host '.' '_' ++ "/" ++ port) ∧
      ':' ∉ port.toList ∧ (port = rest ↔ ':' ∉ rest.toList) := by
  unfold tcp_proxy_to_url
  rw [split_colon hhost]
  rcases split_cases rest ':' with hrest | ⟨port, more, hport, rfl⟩
  · rw [split_one hrest]
    exact ⟨rest, rfl, hrest, iff_of_true rfl hrest⟩
  · rw [split_cons hport]
    refine ⟨port, rfl, hport, iff_of_false (fun he => ?_) (fun hn => ?_)⟩
    · apply hport
      rw [he]
      simp
    · apply hn
      simp

theorem format_addr_eq_iff {host port rest : String} (hhost : ':' ∉ host.toList) :
    format_addr_from_url (replace host '.' '_') port = host ++ ":" ++ rest ↔ '_' ∉ host.toList ∧ port = rest := by
  have hhost' : ':' ∉ (replace (replace host '.' '_') '_' '.').toList := by
    rw [mem_replace (by decide) (by decide), mem_replace (by decide) (by decide)]
    exact hhost
  rw [← replace_replace]
  constructor
  · intro h
    unfold format_addr_from_url at h
    have hs : split (replace (replace host '.' '_') '_' '.' ++ ":" ++ port) ':' = split (host ++ ":" ++ rest) ':' := by
      rw [h]
    rw [split_colon hhost', split_colon hhost] at hs
    have hhead := (List.cons.inj hs).1
    rw [hhead] at h
    exact ⟨hhead, (String.append_right_inj _).mp h⟩
  · intro ⟨hr, hp⟩
    unfold format_addr_from_url
    rw [hr, hp]

section
variable {PublicKey : Type} {secp : Secp256k1 PublicKey}

theorem round_trip_iff {proxy_url host rest : String} {info : PubkeyConnectionInfo PublicKey}
    (ht : info.connection_type = .Tcp (host ++ ":" ++ rest)) (hhost : ':' ∉ host.toList) :
    RoundTrip secp proxy_url info (host ++ ":" ++ rest) ↔
      ':' ∉ rest.toList ∧ '/' ∉ host.toList ∧ '/' ∉ rest.toList ∧ '_' ∉ host.toList := by
  obtain ⟨port, hurl, hport, hrest⟩ := tcp_proxy_to_url_append proxy_url rest hhost
  have hws : ws_url secp proxy_url info = .ok (proxy_url ++ "/v1/" ++ replace host '.' '_' ++ "/" ++ port) := by
    unfold ws_url
    rw [ht]
    exact hurl
  have hslash : '/' ∈ (replace host '.' '_').toList ↔ '/' ∈ host.toList := mem_replace (by decide) (by decide)
  unfold RoundTrip
  constructor
  · intro ⟨url, ip, port', hu, hseg, hhp⟩
    rw [hws] at hu
    cases hu
    obtain ⟨hh, hp, rfl, rfl⟩ := path_segments_append.mp hseg
    obtain ⟨hlow, rfl⟩ := (format_addr_eq_iff hhost).mp ((host_port_eq_iff hport).mp hhp)
    exact ⟨hport, fun hc => hh (hslash.mpr hc), hp, hlow⟩
  · intro ⟨hcolon, hh, hr, hlow⟩
    obtain rfl := hrest.mpr hcolon
    refine ⟨_, _, _, hws, path_segments_append.mpr ⟨fun hc => hh (hslash.mp hc), hr, rfl, rfl⟩, ?_⟩
    rw [(format_addr_eq_iff hhost).mpr ⟨hlow, rfl⟩]

/-! ## The parsed address -/

theorem split_peer_connection_string_eq {s : String} {pubkey : PublicKey} {addr : String}
    (h : split_peer_connection_string secp s = .ok (pubkey, addr)) : addr = address s := by
  unfold split_peer_connection_string at h
  unfold address
  split at h
  · next pubkey' addr' rest hs =>
    rw [hs]
    split at h
    · cases h
    · cases h
      rfl
  · cases h

/-- A TCP peer has the port 9735 unless its address has a port. -/
theorem new_tcp {to_lowercase : String → String} {connection peer_addr : String} {info : PubkeyConnectionInfo PublicKey}
    (h : PubkeyConnectionInfo.new secp to_lowercase connection = .ok info)
    (ht : info.connection_type = .Tcp peer_addr) :
    peer_addr = if ':' ∈ (address (to_lowercase connection)).toList then address (to_lowercase connection)
      else address (to_lowercase connection) ++ ":9735" := by
  unfold PubkeyConnectionInfo.new parse_peer_info at h
  dsimp only at h
  split_ifs at h
  split at h
  · rename_i stripped _
    rcases hs : split_peer_connection_string secp stripped with e | ⟨pubkey, addr⟩ <;> rw [hs] at h <;> cases h
    cases ht
  · rcases hs : split_peer_connection_string secp (to_lowercase connection) with e | ⟨pubkey, addr⟩ <;> rw [hs] at h <;>
      cases h
    cases ht
    rw [← split_peer_connection_string_eq hs]

theorem plain_iff {host rest : String} (hhost : ':' ∉ host.toList) : Plain (host ++ ":" ++ rest) ↔
    ':' ∉ rest.toList ∧ '/' ∉ host.toList ∧ '/' ∉ rest.toList ∧ '_' ∉ host.toList := by
  have hl : (host ++ ":" ++ rest).toList = host.toList ++ ':' :: rest.toList := by simp
  unfold Plain
  have hcount : rest.toList.count ':' + 1 ≤ 1 ↔ ':' ∉ rest.toList := by
    rw [← List.count_eq_zero]
    omega
  rw [hl, List.takeWhile_append_of_pos (not_colon hhost), List.count_append, List.count_eq_zero.mpr hhost,
    List.count_cons_self, Nat.zero_add, hcount]
  simp [and_assoc]

theorem plain_default {addr : String} (h : ':' ∉ addr.toList) : Plain addr ↔ Plain (addr ++ ":" ++ "9735") := by
  rw [plain_iff h]
  unfold Plain
  rw [List.takeWhile_eq_self_iff.mpr (not_colon h), List.count_eq_zero.mpr h]
  constructor
  · intro ⟨_, hslash, hlow⟩
    exact ⟨by decide, hslash, by decide, hlow⟩
  · intro ⟨_, hslash, _, hlow⟩
    exact ⟨Nat.zero_le 1, hslash, hlow⟩

variable (secp) in
/-- The address that the proxy puts together is that of the peer exactly when it is plain. -/
theorem address_round_trip (to_lowercase : String → String) (proxy_url connection peer_addr : String)
    (info : PubkeyConnectionInfo PublicKey) (h : PubkeyConnectionInfo.new secp to_lowercase connection = .ok info)
    (ht : info.connection_type = .Tcp peer_addr) :
    RoundTrip secp proxy_url info peer_addr ↔ Plain (address (to_lowercase connection)) := by
  have hp := new_tcp h ht
  rcases split_cases (address (to_lowercase connection)) ':' with hn | ⟨host, rest, hhost, ha⟩
  · rw [if_neg hn] at hp
    have hd : address (to_lowercase connection) ++ ":9735" = address (to_lowercase connection) ++ ":" ++ "9735" := by
      rw [String.append_assoc]
      rfl
    rw [hd] at hp
    rw [hp] at ht ⊢
    exact (round_trip_iff ht hn).trans ((plain_default hn).trans (plain_iff hn)).symm
  · have hmem : ':' ∈ (address (to_lowercase connection)).toList := by
      rw [ha]
      simp
    rw [if_pos hmem, ha] at hp
    rw [ha, hp]
    rw [hp] at ht
    exact (round_trip_iff ht hhost).trans (plain_iff hhost).symm

end

/-! ## An IPv4 and an IPv6 peer -/

def ascii_lowercase (s : String) : String := String.ofList (s.toList.map Char.toLower)

def peer_pubkey : Vector UInt8 33 :=
  #v[0x02, 0xe6, 0x64, 0x2f, 0xd6, 0x9b, 0xd2, 0x11, 0xf9, 0x3f, 0x7f, 0x1f, 0x36, 0xca, 0x51, 0xa2, 0x6a, 0x52, 0x90,
    0xeb, 0x2d, 0xd1, 0xb0, 0xd8, 0x27, 0x9a, 0x87, 0xbb, 0x0d, 0x48, 0x0c, 0x84, 0x43]

def peer_connection (addr : String) : String :=
  "02e6642fd69bd211f93f7f1f36ca51a26a5290eb2dd1b0d8279a87bb0d480c8443@" ++ addr

def peer_info (addr : String) : PubkeyConnectionInfo (Vector UInt8 33) :=
  ⟨peer_pubkey, .Tcp addr, peer_connection addr⟩

theorem ascii_lowercase_append (a b : String) : ascii_lowercase (a ++ b) = ascii_lowercase a ++ ascii_lowercase b := by
  unfold ascii_lowercase
  rw [String.toList_append, List.map_append, String.ofList_append]

def peer_text : String := "02e6642fd69bd211f93f7f1f36ca51a26a5290eb2dd1b0d8279a87bb0d480c8443"

theorem peer_connection_eq (addr : String) : peer_connection addr = peer_text ++ String.singleton '@' ++ addr := by
  have hat : peer_text ++ String.singleton '@' =
      "02e6642fd69bd211f93f7f1f36ca51a26a5290eb2dd1b0d8279a87bb0d480c8443@" := by decide +kernel
  rw [hat]
  rfl

theorem lowercase_peer {addr : String} (h : ascii_lowercase addr = addr) :
    ascii_lowercase (peer_connection addr) = peer_connection addr := by
  have hkey : ascii_lowercase peer_text = peer_text := by decide +kernel
  rw [peer_connection_eq, ascii_lowercase_append, ascii_lowercase_append, hkey, h]
  rfl

theorem split_peer (addr : String) : split (peer_connection addr) '@' = peer_text :: split addr '@' := by
  have hkey : '@' ∉ peer_text.toList := by decide +kernel
  rw [peer_connection_eq]
  exact split_cons hkey

theorem not_mutiny_peer (addr : String) : strip_prefix (peer_connection addr) "mutiny:" = none := by
  unfold strip_prefix peer_connection
  rw [String.toList_append]
  rfl

theorem new_peer {addr piece peer_addr : String} {more : List String} (h : ascii_lowercase addr = addr)
    (hs : split addr '@' = piece :: more)
    (hport : (if ':' ∈ piece.toList then piece else piece ++ ":9735") = peer_addr) :
    PubkeyConnectionInfo.new pubkey_bytes ascii_lowercase (peer_connection addr) =
      .ok ⟨peer_pubkey, .Tcp peer_addr, peer_connection addr⟩ := by
  have hne : (peer_connection addr).isEmpty = false := by
    rw [Bool.eq_false_iff]
    intro he
    have hnil := congrArg String.toList (String.isEmpty_iff.mp he)
    rw [peer_connection_eq] at hnil
    simp at hnil
  have hkey : pubkey_bytes.from_str peer_text = some peer_pubkey := by rfl
  unfold PubkeyConnectionInfo.new parse_peer_info split_peer_connection_string
  rw [hne, lowercase_peer h]
  dsimp only
  rw [not_mutiny_peer, split_peer, hs]
  dsimp only
  rw [hkey, ← hport]
  rfl

theorem address_round_trip_ipv4 :
    RoundTrip pubkey_bytes "ws://127.0.0.1:3001" (peer_info "127.0.0.1:4000") "127.0.0.1:4000" := by
  have haddr : address (ascii_lowercase (peer_connection "127.0.0.1:4000")) = "127.0.0.1:4000" := by
    unfold address
    rw [lowercase_peer (by decide), split_peer, split_one (by decide)]
    rfl
  apply (address_round_trip pubkey_bytes ascii_lowercase "ws://127.0.0.1:3001" (peer_connection "127.0.0.1:4000")
    "127.0.0.1:4000" (peer_info "127.0.0.1:4000") (new_peer (by decide) (split_one (by decide)) rfl) rfl).mpr
  rw [haddr]
  decide

theorem ipv6_round_trip :
    PubkeyConnectionInfo.new pubkey_bytes ascii_lowercase (peer_connection "[2001:db8::1]:9735") =
        .ok (peer_info "[2001:db8::1]:9735") ∧
      ¬ RoundTrip pubkey_bytes "ws://127.0.0.1:3001" (peer_info "[2001:db8::1]:9735") "[2001:db8::1]:9735" := by
  refine ⟨new_peer (by decide) (split_one (by decide)) rfl, fun h => ?_⟩
  have haddr : "[2001:db8::1]:9735" = "[2001" ++ ":" ++ "db8::1]:9735" := by decide
  rw [haddr] at h
  exact ((round_trip_iff rfl (by decide)).mp h).1 (by decide)

end Mutiny
