import Mutiny.ProxyRelay
import Mutiny.Socket

/-!
# Frames between the proxy and its clients

The proxy puts the identifier of the sender in front of a message, however long it is; the client takes the first 33
bytes for the sender. The two agree exactly on identifiers of 33 bytes.
-/

namespace Mutiny

theorem length_read_bytes : ∀ {text : List Char} {bytes : List UInt8}, Hex.read_bytes text = some bytes →
    text.length = 2 * bytes.length
  | [], _, h => by
    cases h
    rfl
  | [_], _, h => by cases h
  | c :: d :: text, bytes, h => by
    simp only [Hex.read_bytes, Option.bind_eq_bind, Option.bind_eq_some_iff] at h
    obtain ⟨hi, -, lo, -, rest, hrest, hb⟩ := h
    cases hb
    have ih := length_read_bytes hrest
    simp only [List.length_cons, ih]
    omega

theorem split_frame_iff (id val : Bytes) :
    split_frame (id ++ val) = some (id, val) ↔ id.length = PUBKEY_BYTES_LEN := by
  unfold split_frame
  split
  · next hlt =>
    simp only [List.length_append] at hlt
    exact iff_of_false nofun (by omega)
  · next hle =>
    simp only [Option.some.injEq, Prod.mk.injEq, List.length_append] at hle ⊢
    constructor
    · rintro ⟨htake, -⟩
      have hlen := congrArg List.length htake
      simp only [List.length_take, List.length_append] at hlen
      omega
    · intro hlen
      simp [← hlen]

namespace Proxy

variable {s : Proxy}

/-- The identifiers of the connections, in the order they were opened. -/
def identifiers (as : List ProxyAct) : List String :=
  as.filterMap fun
    | .connect identifier => some identifier
    | _ => none

theorem length_owner_id_bytes {identifier : String} (h : owner_id_bytes identifier ≠ []) :
    (owner_id_bytes identifier).length = PUBKEY_BYTES_LEN ↔ identifier.length = 66 := by
  cases hx : Hex.from_hex identifier with
  | none => simp [owner_id_bytes, hx] at h
  | some bytes =>
    have hlen : identifier.length = 2 * bytes.length := length_read_bytes hx
    simp only [owner_id_bytes, hx, Option.getD_some, PUBKEY_BYTES_LEN]
    omega

theorem identifiers_of_run {as : List ProxyAct} (h : machine.run new as = some s) :
    (identifiers as).length = s.conns ∧
      ∀ c identifier, (identifiers as)[c]? = some identifier → (s.handlers c).owner_id = owner_id_bytes identifier := by
  refine Machine.history_invariant (M := machine) (I := fun as s => (identifiers as).length = s.conns ∧
    ∀ c identifier, (identifiers as)[c]? = some identifier → (s.handlers c).owner_id = owner_id_bytes identifier)
    ⟨rfl, by simp [identifiers]⟩ ?_ h
  rintro as s a t - ⟨hlen, hids⟩ hs
  have hs : step s a = some t := hs
  rcases conns_step hs with ⟨identifier, rfl, hn⟩ | ⟨hno, hn⟩
  · have hcons : identifiers (as ++ [.connect identifier]) = identifiers as ++ [identifier] := by simp [identifiers]
    refine ⟨by simp [hcons, hlen, hn], fun c id hc => ?_⟩
    rw [hcons, List.getElem?_append] at hc
    split at hc
    · next hlt => exact (owner_id_step hs (hlen ▸ hlt)).trans (hids c id hc)
    · next hge =>
      have hc0 : c - (identifiers as).length = 0 := by
        by_contra hne
        simp [hne] at hc
      have hle : c ≤ (identifiers as).length := Nat.sub_eq_zero_iff_le.mp hc0
      have hc' : c = s.conns := hlen ▸ Nat.le_antisymm hle (Nat.le_of_not_lt hge)
      rw [hc0] at hc
      cases hc
      cases hs
      simp [connect, hc']
  · have hsame : identifiers (as ++ [a]) = identifiers as := by
      cases a with
      | connect identifier => exact (hno identifier rfl).elim
      | client_send d msg => simp [identifiers]
      | client_close d => simp [identifiers]
      | read d => simp [identifiers]
      | receive d ok => simp [identifiers]
      | resume d => simp [identifiers]
      | listener i => simp [identifiers]
    rw [hsame]
    refine ⟨by rw [hlen, hn], fun c id hc => ?_⟩
    have hlt : c < s.conns := hlen ▸ (List.getElem?_eq_some_iff.mp hc).1
    exact (owner_id_step hs hlt).trans (hids c id hc)

theorem relayed_send {owner_id dest id val : Bytes} {msg : Message} (h : relayed owner_id msg = some (dest, .Send id val)) :
    id = owner_id ∧ ∃ body, msg = .Binary body ∧ PUBKEY_BYTES_LEN ≤ body.length ∧ dest = body.take PUBKEY_BYTES_LEN ∧
      val = body.drop PUBKEY_BYTES_LEN := by
  unfold relayed at h
  split at h
  · cases h
  · next body =>
    split at h
    · cases h
    · next hle =>
      cases h
      exact ⟨rfl, body, rfl, Nat.le_of_not_lt hle, rfl, rfl⟩
  · cases h
  · cases h

/-- What a frame of a client becomes, the recipient reads as a message of that client with the bytes after the first 33,
exactly when the identifier of the client has 66 digits. -/
theorem frame_attributed {as : List ProxyAct} (h : machine.run new as = some s) {a b : ConnId} {identifier : String}
    (hid : (identifiers as)[a]? = some identifier) (hadmitted : owner_id_bytes identifier ≠ []) {p : Push}
    (hp : p ∈ pushed as b) {dest id val : Bytes} (ho : p.origin = .frame a dest) (hc : p.command = .Send id val) :
    ∃ body frame, .Binary body ∈ sent as a ∧ PUBKEY_BYTES_LEN ≤ body.length ∧ dest = body.take PUBKEY_BYTES_LEN ∧
      to_message (s.handlers b).owner_id p.command = .Binary frame ∧
      (split_frame frame = some (owner_id_bytes identifier, body.drop PUBKEY_BYTES_LEN) ↔ identifier.length = 66) := by
  have hacc : p.accept a = some ⟨a, dest, p.peer, p.command⟩ := by simp [Push.accept, ho]
  have hmem : (⟨a, dest, p.peer, p.command⟩ : Accept) ∈ accepts_of as a := by
    rw [← accepts_of_run h a]
    exact List.mem_append_left _ (List.mem_filterMap.mpr ⟨p, (List.mem_filter.mp hp).1, hacc⟩)
  obtain ⟨seen, hsent, hsub⟩ := reads_of_run h a
  have hread := hsub.subset (List.mem_append_left _ (List.mem_map_of_mem hmem))
  obtain ⟨msg, hmsg, hrel⟩ := List.mem_filterMap.mp hread
  have howner := (identifiers_of_run h).2 a identifier hid
  dsimp only at hrel
  rw [hc, howner] at hrel
  obtain ⟨rfl, body, rfl, hle, hdest, rfl⟩ := relayed_send hrel
  refine ⟨body, _, hsent ▸ List.mem_append_left _ hmsg, hle, hdest, by rw [hc]; rfl, ?_⟩
  rw [split_frame_iff, length_owner_id_bytes hadmitted]

theorem frame_attributed_hello : ∃ s, machine.run new hello = some s ∧ ∃ body frame, .Binary body ∈ sent hello 0 ∧
    PUBKEY_BYTES_LEN ≤ body.length ∧ List.replicate 33 3 = body.take PUBKEY_BYTES_LEN ∧
    to_message (s.handlers 1).owner_id (.Send (.replicate 33 2) [7]) = .Binary frame ∧
    (split_frame frame = some (owner_id_bytes "020202020202020202020202020202020202020202020202020202020202020202",
        body.drop PUBKEY_BYTES_LEN) ↔
      "020202020202020202020202020202020202020202020202020202020202020202".length = 66) := by
  refine ⟨_, rfl, ?_⟩
  have hp : (⟨1, .frame 0 (.replicate 33 3), .Send (.replicate 33 2) [7]⟩ : Push) ∈ pushed hello 1 := by
    have hpushed : pushed hello 1 = [⟨1, .frame 0 (.replicate 33 3), .Send (.replicate 33 2) [7]⟩] := rfl
    simp [hpushed]
  exact @frame_attributed _ hello rfl 0 1 _ rfl (by decide) _ hp _ _ _ rfl rfl

/-- A client with the identifier "02" sends 33 bytes of its choice in front of the rest. -/
def spoof : List ProxyAct :=
  [.connect "02", .connect "030303030303030303030303030303030303030303030303030303030303030303", .resume 0, .resume 1,
    .client_send 0 (.Binary (.replicate 33 3 ++ .replicate 32 2 ++ [7])), .read 0, .resume 0, .resume 0, .receive 1 true]

/-- The recipient takes the message for one of a client with another identifier. -/
theorem frame_misattributed : ∃ s frame, machine.run new spoof = some s ∧ (s.handlers 0).owner_id = [2] ∧
    (s.handlers 1).written = [.Binary frame] ∧ split_frame frame = some (.replicate 33 2, [7]) ∧
    split_frame frame ≠ some ((s.handlers 0).owner_id, .replicate 32 2 ++ [7]) :=
  ⟨_, _, rfl, rfl, rfl, by decide, by decide⟩

end Proxy

end Mutiny
