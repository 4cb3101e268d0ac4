import Mutiny.Json
import Mutiny.ProxyRelay
import Mutiny.SocketSteps

/-!
# The texts of the commands (`ln-websocket-proxy/src/lib.rs`)

`MutinyProxyCommand` goes over the websockets as JSON. `serde` writes a variant as an object with the name of the variant
for its only member; it reads the fields in any order, passes over members that it does not know, refuses a field that
is missing or there twice, and takes an array of the fields too.
-/

namespace Mutiny

/-! ## `serde_json` -/

def bytes_to_json (bytes : Bytes) : Json := .array (bytes.map fun b => .number (.of_nat b.toNat))

/-- A number with a fraction or an exponent is no integer, and neither is one with a sign. -/
def u8_of_json : Json → Option UInt8
  | .number n =>
    let value := Nat.ofDigitChars 10 n.text 0
    if n.text.all (·.isDigit) && value < 256 then some (UInt8.ofNat value) else none
  | _ => none

def bytes_of_json : Json → Option Bytes
  | .array items => items.mapM u8_of_json
  | _ => none

def json_field (name : String) (members : List (List Char × Json)) : Option Json :=
  match members.filter (·.1 = name.toList) with
  | [p] => some p.2
  | _ => none

namespace MutinyProxyCommand

def to_json : MutinyProxyCommand → Json
  | Disconnect to_ from_ =>
    .object [("Disconnect".toList,
      .object [("to".toList, bytes_to_json to_), ("from".toList, bytes_to_json from_)])]

def disconnect_of_json : Json → Option MutinyProxyCommand
  | .object members => do
    return Disconnect (← bytes_of_json (← json_field "to" members)) (← bytes_of_json (← json_field "from" members))
  | .array [to_, from_] => do
    return Disconnect (← bytes_of_json to_) (← bytes_of_json from_)
  | _ => none

def of_json : Json → Option MutinyProxyCommand
  | .object [(variant, value)] => if variant = "Disconnect".toList then disconnect_of_json value else none
  | _ => none

def to_text (command : MutinyProxyCommand) : String := .ofList (Json.print command.to_json)

def of_text (text : String) : Option MutinyProxyCommand := (Json.parse text.toList).bind of_json

/-! ## What is written is read back -/

theorem u8_of_to_json (b : UInt8) : u8_of_json (.number (.of_nat b.toNat)) = some b := by
  have hd : (Nat.toDigits 10 b.toNat).all (·.isDigit) = true := List.all_eq_true.mpr (Codec.isDigit_toDigits b.toNat)
  simp only [u8_of_json, Json.Number.of_nat, hd, Nat.ofDigitChars_ten_toDigits, b.toNat_lt, decide_true, Bool.and_self,
    if_true, UInt8.ofNat_toNat]

theorem bytes_of_to_json (bytes : Bytes) : bytes_of_json (bytes_to_json bytes) = some bytes := by
  simp only [bytes_of_json, bytes_to_json]
  induction bytes with
  | nil => rfl
  | cons b bytes ih => simp [List.mapM_cons, u8_of_to_json, ih]

theorem of_to_json (command : MutinyProxyCommand) : of_json command.to_json = some command := by
  obtain ⟨to_, from_⟩ := command
  simp [of_json, to_json, disconnect_of_json, json_field, bytes_of_to_json]

theorem of_to_text (command : MutinyProxyCommand) : of_text command.to_text = some command := by
  rw [of_text, to_text, String.toList_ofList, Json.parse_print, Option.bind_some, of_to_json]

example : (Disconnect [1, 1] [10, 10]).to_text = "\x7b\"Disconnect\":\x7b\"to\":[1,1],\"from\":[10,10]\x7d\x7d" := by
  decide +kernel

end MutinyProxyCommand

/-! ## From one node to the other -/

theorem on_command_lookup (client : Client) (to_ from_ id : Bytes) :
    (client.on_command (some (.Disconnect to_ from_))).socket_map.lookup id =
      if id = from_ then none else client.socket_map.lookup id := by
  cases hl : client.socket_map.lookup from_ with
  | none =>
    simp only [Client.on_command, hl]
    by_cases he : id = from_
    · rw [if_pos he, he, hl]
    · rw [if_neg he]
  | some d =>
    simp only [Client.on_command, hl]
    by_cases he : id = from_
    · rw [if_pos he, he, AList.lookup_erase]
    · rw [if_neg he, AList.lookup_erase_ne he]

theorem on_command_descriptor (client : Client) (to_ from_ : Bytes) {d : DescId}
    (h : client.socket_map.lookup from_ ≠ some d) :
    (client.on_command (some (.Disconnect to_ from_))).descriptors d = client.descriptors d := by
  cases hl : client.socket_map.lookup from_ with
  | none => simp only [Client.on_command, hl]
  | some d' =>
    have hne : d ≠ d' := fun he => h (he ▸ hl)
    simp only [Client.on_command, hl, Client.socket_disconnected, Client.disconnect_socket]
    cases (client.descriptors d').kind <;> simp [Client.set, Client.send, hne]

/-- Whatever a node writes into a command, the other node takes it for one of the node that wrote it, and closes no
subsocket but that one's. -/
theorem command_told (text : String) (owner : Bytes) (client : Client) :
    match MutinyProxyCommand.of_text text with
    | none => relayed owner (.Text (MutinyProxyCommand.of_text text)) = none
    | some (.Disconnect to_ _) => ∃ reply : MutinyProxyCommand,
      (relayed owner (.Text (MutinyProxyCommand.of_text text))).map (fun p => (p.1, Proxy.to_message p.1 p.2)) =
        some (to_, .Text (some reply)) ∧
      (∀ id, (client.on_command (MutinyProxyCommand.of_text reply.to_text)).socket_map.lookup id =
        if id = owner then none else client.socket_map.lookup id) ∧
      ∀ d, client.socket_map.lookup owner ≠ some d →
        (client.on_command (MutinyProxyCommand.of_text reply.to_text)).descriptors d = client.descriptors d := by
  cases h : MutinyProxyCommand.of_text text with
  | none => rfl
  | some command =>
    obtain ⟨to_, forged⟩ := command
    refine ⟨.Disconnect to_ owner, rfl, fun id => ?_, fun d hd => ?_⟩
    · rw [MutinyProxyCommand.of_to_text, on_command_lookup]
    · rw [MutinyProxyCommand.of_to_text, on_command_descriptor client to_ owner hd]

end Mutiny
