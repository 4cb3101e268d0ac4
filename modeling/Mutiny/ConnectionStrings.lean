import Mutiny.PeerAddress

/-!
# Connection strings (`node.rs`)

A connection string is `pubkey@host:port`, where the port may be left out, or `mutiny:pubkey@url`. `Parts` are the parts
of one, and `Parts.Means` says what they stand for. The code takes the first two pieces between the `@`s and looks for a
colon anywhere in the second, so that it also takes texts that are no connection strings (`Loose`).
-/

namespace Mutiny

namespace PubkeyConnectionInfo

/-- A name, an IPv4 address, or an IPv6 address in brackets. -/
def is_host (host : String) : Bool :=
  host ≠ "" ∧ (':' ∈ host.toList →
    host.toList.head? = some '[' ∧ host.toList.getLast? = some ']' ∧ host.toList.count ']' = 1)

def is_port (port : String) : Bool := port ≠ "" ∧ port.toList.all Char.isDigit

inductive Address where
  | Tcp (host : String) (port : Option String)
  | Proxy (url : String)

namespace Address

def scheme : Address → String
  | .Tcp _ _ => ""
  | .Proxy _ => "mutiny:"

def text : Address → String
  | .Tcp host none => host
  | .Tcp host (some port) => host ++ ":" ++ port
  | .Proxy url => url

def connection_type : Address → ConnectionType
  | .Tcp host port => .Tcp (host ++ ":" ++ port.getD "9735")
  | .Proxy url => .Mutiny url

def Formed : Address → Prop
  | .Tcp host none => is_host host
  | .Tcp host (some port) => is_host host ∧ is_port port
  | .Proxy url => url ≠ ""

end Address

structure Parts where
  pubkey : String
  address : Address

def Parts.text (p : Parts) : String := p.address.scheme ++ (p.pubkey ++ "@" ++ p.address.text)

def is_mutiny (connection : String) : Bool := ( strip_prefix connection "mutiny:").isSome

/-- What follows `mutiny:`, or all of it. -/
def stripped (connection : String) : String := ( strip_prefix connection "mutiny:").getD connection

section
variable {PublicKey : Type} (secp : Secp256k1 PublicKey) (to_lowercase : String → String)

/-- The parts put together are a connection string, and `info` is what it says. -/
structure Parts.Means (p : Parts) (info : PubkeyConnectionInfo PublicKey) : Prop where
  pubkey : secp.from_str p.pubkey = some info.pubkey
  one_at : p.text.toList.count '@' = 1
  formed : p.address.Formed
  tcp : ∀ host port, p.address = .Tcp host port → is_mutiny p.text = false
  connection_type : info.connection_type = p.address.connection_type
  original_connection_string : info.original_connection_string = p.text

/-- What is accepted is a connection string, all of it, and every connection string is accepted. -/
def ParsesExactly (connection : String) : Prop :=
  ∀ info, PubkeyConnectionInfo.new secp to_lowercase connection = .ok info ↔
    ∃ p : Parts, p.text = to_lowercase connection ∧ p.Means secp info

/-- What follows the first `@` of `connection` up to the next is no address, or not all that follows. -/
def Loose (connection addr : String) (more : List String) : Prop :=
  more ≠ [] ∨ addr = "" ∨
    is_mutiny connection = false ∧ ':' ∈ addr.toList ∧
      ∀ host port, host_port addr = some (host, port) → ¬ (is_host host ∧ is_port port)

end

/-! ## The text of the parts -/

theorem mutiny_text {connection : String} (h : is_mutiny connection = true) :
    connection = "mutiny:" ++ stripped connection := by
  unfold is_mutiny at h
  unfold stripped
  obtain ⟨rest, hr⟩ := Option.isSome_iff_exists.mp h
  rw [hr]
  exact eq_of_strip_prefix hr

theorem stripped_of_not_mutiny {connection : String} (h : is_mutiny connection = false) :
    stripped connection = connection := by
  unfold is_mutiny at h
  unfold stripped
  rw [Option.isSome_eq_false_iff.mp h |> Option.isNone_iff_eq_none.mp]
  rfl

theorem Parts.count_at (p : Parts) :
    p.text.toList.count '@' = 1 ↔ '@' ∉ p.pubkey.toList ∧ '@' ∉ p.address.text.toList := by
  have hscheme : p.address.scheme.toList.count '@' = 0 := by
    cases p.address with
    | Tcp host port => rfl
    | Proxy url => exact (by decide : "mutiny:".toList.count '@' = 0)
  have hone : "@".toList.count '@' = 1 := by decide
  unfold text
  simp only [String.toList_append, List.count_append, hscheme, hone, ← List.count_eq_zero]
  omega

theorem stripped_mutiny (rest : String) : stripped ("mutiny:" ++ rest) = rest := by
  unfold stripped
  rw [strip_prefix_append]
  rfl

theorem append_default_port (host : String) : host ++ ":" ++ "9735" = host ++ ":9735" := by
  rw [String.append_assoc]
  rfl

/-- No host ends with a port. -/
theorem not_host_of_port {host port : String} (hport : is_port port) : is_host (host ++ ":" ++ port) = false := by
  have hp := of_decide_eq_true hport
  have hne : port.toList ≠ [] := fun he => hp.1 (String.toList_injective he)
  rw [Bool.eq_false_iff]
  intro hh
  obtain ⟨-, hlast, -⟩ := (of_decide_eq_true hh).2 (by simp)
  rw [String.toList_append, List.getLast?_append_of_ne_nil _ hne] at hlast
  exact absurd (List.all_eq_true.mp hp.2 _ (List.mem_of_getLast? hlast)) (by decide)

theorem not_colon_of_port {port : String} (hport : is_port port) : ':' ∉ port.toList :=
  fun hmem => absurd (List.all_eq_true.mp (of_decide_eq_true hport).2 _ hmem) (by decide)

variable {PublicKey : Type} {secp : Secp256k1 PublicKey} {info : PubkeyConnectionInfo PublicKey} {p : Parts}

theorem Parts.Means.pieces (h : p.Means secp info) :
    split (stripped p.text) '@' = [p.pubkey, p.address.text] := by
  have htext : PubkeyConnectionInfo.stripped p.text = p.pubkey ++ "@" ++ p.address.text := by
    have htcp := h.tcp
    rcases p with ⟨pubkey, ⟨host, port⟩ | url⟩
    · rw [stripped_of_not_mutiny (htcp host port rfl)]
      exact String.empty_append
    · exact stripped_mutiny (pubkey ++ "@" ++ url)
  obtain ⟨hpubkey, haddr⟩ := p.count_at.mp h.one_at
  rw [htext]
  exact split_eq_two.mpr ⟨rfl, hpubkey, haddr⟩

/-! ## What is accepted -/

def taken (connection addr : String) : ConnectionType :=
  if is_mutiny connection then .Mutiny addr else .Tcp (if ':' ∈ addr.toList then addr else addr ++ ":9735")

theorem split_ok_iff {s addr : String} {key : PublicKey} :
    split_peer_connection_string secp s = .ok (key, addr) ↔
      ∃ pubkey more, split s '@' = pubkey :: addr :: more ∧ secp.from_str pubkey = some key := by
  unfold split_peer_connection_string
  split
  · next pubkey addr' more hs =>
    rw [hs]
    cases hk : secp.from_str pubkey with
    | none =>
      refine iff_of_false (fun h => by cases h) ?_
      rintro ⟨_, _, ⟨⟩, hkey⟩
      rw [hk] at hkey
      cases hkey
    | some key' =>
      constructor
      · intro h
        cases h
        exact ⟨pubkey, more, rfl, hk⟩
      · rintro ⟨_, _, ⟨⟩, hkey⟩
        rw [hk] at hkey
        cases hkey
        rfl
  · next hne =>
    refine iff_of_false (fun h => by cases h) ?_
    intro ⟨pubkey, more, hs, _⟩
    exact hne pubkey addr more hs

theorem new_eq (to_lowercase : String → String) {connection : String} (h : connection ≠ "") :
    PubkeyConnectionInfo.new secp to_lowercase connection =
      (split_peer_connection_string secp (stripped (to_lowercase connection))).map fun (pubkey, addr) =>
        ⟨pubkey, taken (to_lowercase connection) addr, to_lowercase connection⟩ := by
  have hne : connection.isEmpty = false := by simpa using h
  unfold PubkeyConnectionInfo.new parse_peer_info stripped taken is_mutiny
  rw [hne]
  dsimp only
  cases hm : strip_prefix (to_lowercase connection) "mutiny:" with
  | none =>
    simp only [Option.getD_none]
    rcases split_peer_connection_string secp (to_lowercase connection) with e | ⟨pubkey, addr⟩ <;> rfl
  | some rest =>
    simp only [Option.getD_some]
    rcases split_peer_connection_string secp rest with e | ⟨pubkey, addr⟩ <;> rfl

theorem new_ok_iff {to_lowercase : String → String} (hempty : to_lowercase "" = "") {connection : String} :
    PubkeyConnectionInfo.new secp to_lowercase connection = .ok info ↔
      ∃ pubkey addr more, split (stripped (to_lowercase connection)) '@' = pubkey :: addr :: more ∧
        secp.from_str pubkey = some info.pubkey ∧ info.connection_type = taken (to_lowercase connection) addr ∧
        info.original_connection_string = to_lowercase connection := by
  by_cases hc : connection = ""
  · subst hc
    have hsplit : split (stripped "") '@' = [""] := by decide
    rw [hempty, hsplit]
    refine iff_of_false (fun h => by cases h) ?_
    rintro ⟨_, _, _, ⟨⟩, _⟩
  · rw [new_eq to_lowercase hc]
    constructor
    · intro h
      cases hs : split_peer_connection_string secp (stripped (to_lowercase connection)) with
      | error e =>
        rw [hs] at h
        cases h
      | ok r =>
        rw [hs] at h
        cases h
        obtain ⟨pubkey, more, hpieces, hkey⟩ := split_ok_iff.mp hs
        exact ⟨pubkey, r.2, more, hpieces, hkey, rfl, rfl⟩
    · intro ⟨pubkey, addr, more, hpieces, hkey, htype, horiginal⟩
      rw [split_ok_iff.mpr ⟨pubkey, more, hpieces, hkey⟩]
      obtain ⟨key, connection_type, original⟩ := info
      dsimp only at htype horiginal
      rw [htype, horiginal]
      rfl

/-! ## Connection strings and other texts -/

theorem means_of_pieces {connection pubkey addr : String} (hs : split (stripped connection) '@' = [pubkey, addr])
    (h : ¬ Loose connection addr []) (hkey : secp.from_str pubkey = some info.pubkey)
    (htype : info.connection_type = taken connection addr)
    (horiginal : info.original_connection_string = connection) :
    ∃ p : Parts, p.text = connection ∧ p.Means secp info := by
  obtain ⟨hbody, hpubkey, haddr⟩ := split_eq_two.mp hs
  simp only [Loose, not_or] at h
  obtain ⟨-, hne, hloose⟩ := h
  have hparts : ∀ address : Address, address.scheme ++ stripped connection = connection → address.text = addr →
      address.Formed → (∀ host port, address = .Tcp host port → is_mutiny connection = false) →
      address.connection_type = taken connection addr → ∃ p : Parts, p.text = connection ∧ p.Means secp info := by
    intro address hscheme htext hformed htcp hconn
    have hp : Parts.text ⟨pubkey, address⟩ = connection := by
      rw [← hscheme, hbody, ← htext]
      rfl
    refine ⟨⟨pubkey, address⟩, hp, hkey, ?_, hformed, ?_, htype.trans hconn.symm, horiginal.trans hp.symm⟩
    · exact (Parts.count_at _).mpr ⟨hpubkey, htext ▸ haddr⟩
    · rw [hp]
      exact htcp
  cases hm : is_mutiny connection with
  | true =>
    refine hparts (.Proxy addr) (mutiny_text hm).symm rfl hne (fun _ _ he => by cases he) ?_
    unfold taken
    rw [if_pos hm]
    rfl
  | false =>
    have hbare : "" ++ stripped connection = connection := by rw [stripped_of_not_mutiny hm, String.empty_append]
    have htaken : taken connection addr = .Tcp (if ':' ∈ addr.toList then addr else addr ++ ":9735") := by
      unfold taken
      rw [hm]
      rfl
    by_cases hcolon : ':' ∈ addr.toList
    · obtain ⟨host, port, hhp, hhost, hport⟩ : ∃ host port, host_port addr = some (host, port) ∧
          is_host host ∧ is_port port := by
        by_contra hno
        push Not at hno
        exact hloose ⟨hm, hcolon, fun host port hhp ⟨hhost, hport⟩ => hno host port hhp hhost hport⟩
      have haddr := eq_of_host_port hhp
      refine hparts (.Tcp host (some port)) hbare haddr.symm ⟨hhost, hport⟩ (fun _ _ _ => hm) ?_
      rw [htaken, if_pos hcolon, haddr]
      rfl
    · refine hparts (.Tcp addr none) hbare rfl ?_ (fun _ _ _ => hm) ?_
      · exact decide_eq_true ⟨hne, fun hc => absurd hc hcolon⟩
      · rw [htaken, if_neg hcolon, ← append_default_port]
        rfl

/-- A connection string is read as what it says exactly when it is not one that other texts are read like. -/
theorem Parts.Means.taken_iff (h : p.Means secp info) :
    p.address.connection_type = taken p.text p.address.text ↔ ¬ Loose p.text p.address.text [] := by
  have htcp := h.tcp
  have hformed := h.formed
  obtain ⟨pubkey, address⟩ := p
  unfold taken Loose
  cases address with
  | Proxy url =>
    have hm : is_mutiny (Parts.text ⟨pubkey, .Proxy url⟩) = true :=
      Option.isSome_iff_exists.mpr ⟨_, strip_prefix_append "mutiny:" (pubkey ++ "@" ++ url)⟩
    rw [hm]
    refine iff_of_true rfl ?_
    rintro (hmore | hempty | ⟨hm, -⟩)
    · exact hmore rfl
    · exact hformed hempty
    · cases hm
  | Tcp host port =>
    rw [htcp host port rfl]
    cases port with
    | none =>
      have hhost := of_decide_eq_true hformed
      show ConnectionType.Tcp (host ++ ":" ++ "9735") = .Tcp (if ':' ∈ host.toList then host else host ++ ":9735") ↔ _
      rw [append_default_port]
      by_cases hcolon : ':' ∈ host.toList
      · rw [if_pos hcolon]
        refine iff_of_false (fun he => ?_) (not_not.mpr (.inr (.inr ⟨rfl, hcolon, ?_⟩)))
        · have hl := congrArg String.length (ConnectionType.Tcp.inj he)
          rw [String.length_append] at hl
          exact absurd (Nat.add_eq_left.mp hl) (by decide)
        · rintro host' port' hhp ⟨-, hport⟩
          have hno := @not_host_of_port host' _ hport
          rw [← eq_of_host_port hhp] at hno
          exact absurd (hformed.symm.trans hno) (by decide)
      · rw [if_neg hcolon]
        refine iff_of_true rfl ?_
        rintro (hmore | hempty | ⟨-, hc, -⟩)
        · exact hmore rfl
        · exact hhost.1 hempty
        · exact hcolon hc
    | some port =>
      have hcolon : ':' ∈ (host ++ ":" ++ port).toList := by simp
      show ConnectionType.Tcp (host ++ ":" ++ port) = .Tcp (if ':' ∈ (host ++ ":" ++ port).toList then _ else _) ↔ _
      rw [if_pos hcolon]
      refine iff_of_true rfl ?_
      rintro (hmore | hempty | ⟨-, -, hloose⟩)
      · exact hmore rfl
      · have hempty : host ++ ":" ++ port = "" := hempty
        rw [hempty] at hcolon
        exact absurd hcolon (by decide)
      · exact hloose host port (host_port_append (not_colon_of_port hformed.2)) hformed

variable (secp) in
/-- Exactly the connection strings are accepted, unless the text that follows a key and an `@` is loose. -/
theorem parses_exactly_iff {to_lowercase : String → String} (hempty : to_lowercase "" = "") (connection : String) :
    ParsesExactly secp to_lowercase connection ↔
      ∀ pubkey addr more, split (stripped (to_lowercase connection)) '@' = pubkey :: addr :: more →
        secp.from_str pubkey ≠ none → ¬ Loose (to_lowercase connection) addr more := by
  constructor
  · intro hexact pubkey addr more hs hkey
    obtain ⟨key, hkey⟩ := Option.ne_none_iff_exists'.mp hkey
    obtain ⟨p, htext, hp⟩ := (hexact ⟨key, taken (to_lowercase connection) addr, to_lowercase connection⟩).mp
      ((new_ok_iff hempty).mpr ⟨pubkey, addr, more, hs, hkey, rfl, rfl⟩)
    have hpieces := hp.pieces
    rw [htext, hs] at hpieces
    cases hpieces
    have htaken := hp.connection_type.symm
    rw [← htext] at htaken ⊢
    exact hp.taken_iff.mp htaken
  · intro hstrict info
    rw [new_ok_iff hempty]
    constructor
    · intro ⟨pubkey, addr, more, hs, hkey, htype, horiginal⟩
      have hl := hstrict pubkey addr more hs (by rw [hkey]; exact Option.some_ne_none _)
      obtain rfl : more = [] := by
        by_contra hne
        exact hl (.inl hne)
      exact means_of_pieces hs hl hkey htype horiginal
    · intro ⟨p, htext, hp⟩
      have hpieces := hp.pieces
      have hl := hstrict p.pubkey p.address.text [] (htext ▸ hpieces) (by rw [hp.pubkey]; exact Option.some_ne_none _)
      rw [← htext] at hl ⊢
      exact ⟨p.pubkey, p.address.text, [], hpieces, hp.pubkey, hp.connection_type.trans (hp.taken_iff.mpr hl),
        hp.original_connection_string⟩

theorem pieces_peer {addr : String} (h : ascii_lowercase addr = addr) :
    split (stripped (ascii_lowercase (peer_connection addr))) '@' = peer_text :: split addr '@' := by
  unfold stripped
  rw [lowercase_peer h, not_mutiny_peer]
  exact split_peer addr

theorem parses_exactly_ipv4 : ParsesExactly pubkey_bytes ascii_lowercase (peer_connection "127.0.0.1:4000") := by
  refine (parses_exactly_iff pubkey_bytes (by decide) _).mpr ?_
  intro pubkey addr more hs _
  rw [pieces_peer (by decide), split_one (by decide)] at hs
  cases hs
  rintro (hmore | hnone | ⟨-, -, hloose⟩)
  · exact hmore rfl
  · exact absurd hnone (by decide)
  · exact hloose "127.0.0.1" "4000" (by decide) (by decide)

/-- What follows a second `@` is dropped, and a port is made up for no host. -/
theorem second_at_dropped :
    PubkeyConnectionInfo.new pubkey_bytes ascii_lowercase (peer_connection "127.0.0.1:4000@10.0.0.1:9735") =
        .ok ⟨peer_pubkey, .Tcp "127.0.0.1:4000", peer_connection "127.0.0.1:4000@10.0.0.1:9735"⟩ ∧
      PubkeyConnectionInfo.new pubkey_bytes ascii_lowercase (peer_connection "") = .ok ⟨peer_pubkey, .Tcp ":9735",
        peer_connection ""⟩ ∧
      ¬ ParsesExactly pubkey_bytes ascii_lowercase (peer_connection "127.0.0.1:4000@10.0.0.1:9735") := by
  have hlower : ascii_lowercase "127.0.0.1:4000@10.0.0.1:9735" = "127.0.0.1:4000@10.0.0.1:9735" := by decide
  have hsplit : split "127.0.0.1:4000@10.0.0.1:9735" '@' = ["127.0.0.1:4000", "10.0.0.1:9735"] := by decide
  have hnew := new_peer hlower hsplit rfl
  refine ⟨hnew, new_peer (by decide) (split_one (by decide)) rfl, ?_⟩
  intro hexact
  obtain ⟨p, htext, hp⟩ := (hexact _).mp hnew
  have hpieces := hp.pieces
  rw [htext, pieces_peer hlower, hsplit] at hpieces
  simp at hpieces

end PubkeyConnectionInfo

end Mutiny
