import OrbiterSDK.Events
import OrbiterSDK.Proofs.Saved

/-! Events come back from their texts. -/

namespace OrbiterSDK.Proofs.EventTexts
open Lib Utils Saved

theorem toInt_digitChar : ∀ digit < 16, Hex.toInt digit.digitChar = some digit := by decide

private theorem digitChar_ne_mark : ∀ digit < 16, digit.digitChar ≠ 'x' ∧ digit.digitChar ≠ 'X' := by decide

/-- The digits of the strings. -/
def digits (bytes : Bytes) : List Char := bytes.flatMap fun byte => [(byte.toNat / 16).digitChar, (byte.toNat % 16).digitChar]

def halves (bytes : Bytes) : List Nat := bytes.flatMap fun byte => [byte.toNat / 16, byte.toNat % 16]

theorem digits_length (bytes : Bytes) : (digits bytes).length = 2 * bytes.length := by
  induction bytes with
  | nil => rfl
  | cons byte rest ih =>
    change (digits rest).length + 2 = 2 * (rest.length + 1)
    omega

theorem byte_halves (byte : UInt8) : byte.toNat / 16 < 16 ∧ byte.toNat % 16 < 16 ∧ byte.toNat / 16 * 16 + byte.toNat % 16 = byte.toNat := by
  have bound := byte.toNat_lt
  omega

theorem mapM_digits (bytes : Bytes) : (digits bytes).mapM Hex.toInt = some (halves bytes) := by
  induction bytes with
  | nil => rfl
  | cons byte rest ih =>
    obtain ⟨high, low, _⟩ := byte_halves byte
    change ((byte.toNat / 16).digitChar :: (byte.toNat % 16).digitChar :: digits rest).mapM Hex.toInt = _
    rw [List.mapM_cons, List.mapM_cons, ih, toInt_digitChar _ high, toInt_digitChar _ low]
    rfl

theorem joinPairs_halves (bytes : Bytes) : Hex.joinPairs (halves bytes) = bytes := by
  induction bytes with
  | nil => rfl
  | cons byte rest ih =>
    change UInt8.ofNat (byte.toNat / 16 * 16 + byte.toNat % 16) :: Hex.joinPairs (halves rest) = _
    rw [ih, (byte_halves byte).2.2, UInt8.ofNat_toNat]

theorem halves_length (bytes : Bytes) : (halves bytes).length = 2 * bytes.length := by
  induction bytes with
  | nil => rfl
  | cons byte rest ih =>
    change (halves rest).length + 2 = 2 * (rest.length + 1)
    omega

theorem toList_hexFromBytes (bytes : Bytes) : (hexFromBytes bytes).toList = digits bytes := String.toList_ofList

theorem toList_fromBytes (bytes : Bytes) : (Hex.fromBytes bytes).toList = '0' :: 'x' :: digits bytes := by
  rw [Hex.fromBytes, String.toList_append, toList_hexFromBytes]
  rfl

theorem withoutPrefix_fromBytes (bytes : Bytes) : Hex.withoutPrefix (Hex.fromBytes bytes) = digits bytes := by
  rw [Hex.withoutPrefix, toList_fromBytes]
  rfl

/-- The second digit is never taken for the mark of a prefix. -/
theorem withoutPrefix_hexFromBytes (bytes : Bytes) : Hex.withoutPrefix (hexFromBytes bytes) = digits bytes := by
  rw [Hex.withoutPrefix, toList_hexFromBytes]
  cases bytes with
  | nil => rfl
  | cons byte rest =>
    obtain ⟨_, low, _⟩ := byte_halves byte
    obtain ⟨lower, upper⟩ := digitChar_ne_mark _ low
    have spelled : digits (byte :: rest) = (byte.toNat / 16).digitChar :: (byte.toNat % 16).digitChar :: digits rest := rfl
    rw [spelled]
    split
    case h_1 same => exact absurd (List.cons.inj (List.cons.inj same).2).1 lower
    case h_2 same => exact absurd (List.cons.inj (List.cons.inj same).2).1 upper
    case h_3 => rfl

theorem toBytes_of_digits {hex : String} {bytes : Bytes} (same : Hex.withoutPrefix hex = digits bytes) : Hex.toBytes hex = .ok bytes := by
  unfold Hex.toBytes
  rw [same, mapM_digits]
  have joined := joinPairs_halves bytes
  have even := halves_length bytes
  cases found : halves bytes with
  | nil =>
    rw [found] at joined
    exact congrArg Except.ok joined
  | cons first rest =>
    rw [found] at joined even
    rw [List.length_cons] at even
    dsimp only
    rw [if_neg (by omega), joined]

theorem toBytes_fromBytes (bytes : Bytes) : Hex.toBytes (Hex.fromBytes bytes) = .ok bytes :=
  toBytes_of_digits (withoutPrefix_fromBytes bytes)

theorem toBytes_hexFromBytes (bytes : Bytes) : Hex.toBytes (hexFromBytes bytes) = .ok bytes :=
  toBytes_of_digits (withoutPrefix_hexFromBytes bytes)

private theorem substr_fromBytes (bytes : Bytes) : Event.substr (Hex.fromBytes bytes) 2 = .ok (hexFromBytes bytes) := by
  have enough : 2 ≤ ('0' :: 'x' :: digits bytes).length := Nat.le_add_left 2 _
  rw [Event.substr, toList_fromBytes, if_pos enough]
  rfl

private theorem readTopic_text (topic : Hash) : Event.readTopic (.string (Hex.fromBytes topic.get)) = .ok topic :=
  bind_ok.mpr ⟨Hex.fromBytes topic.get, rfl, bind_ok.mpr ⟨topic.get, toBytes_fromBytes topic.get, hash_read_get topic⟩⟩

theorem address_ofBytes_get (address : Address) : Address.ofBytes address.get = address := by
  have read := address_read_get address
  unfold Address.read at read
  split at read
  case isTrue => cases read
  case isFalse => exact Except.ok.inj read

theorem address_ofHex (address : Address) : Address.ofHex (Hex.fromBytes address.get) = .ok address := by
  have size : (digits address.get).length = 40 := by
    rw [digits_length, Address.get, uintToBytes_length]
  unfold Address.ofHex
  dsimp only
  rw [toBytes_fromBytes address.get, withoutPrefix_fromBytes address.get, mapM_digits address.get, if_pos ⟨size, rfl⟩]
  exact congrArg Except.ok (address_ofBytes_get address)

theorem readHash_member {obj : Json} {name : String} {hash : Hash} (found : obj.member name = .ok (.string (Hex.fromBytes hash.get))) :
    Event.readHash obj name = .ok hash := by
  apply bind_ok.mpr
  refine ⟨_, found, bind_ok.mpr ⟨Hex.fromBytes hash.get, rfl, ?_⟩⟩
  apply bind_ok.mpr
  refine ⟨hexFromBytes hash.get, substr_fromBytes hash.get, ?_⟩
  exact bind_ok.mpr ⟨hash.get, toBytes_hexFromBytes hash.get, hash_read_get hash⟩

theorem mapM_encoded {α β : Type} {encode : α → β} {decode : β → Except Exception α} (back : ∀ value, decode (encode value) = .ok value)
    (values : List α) : (values.map encode).mapM decode = .ok values := by
  induction values with
  | nil => rfl
  | cons value rest ih =>
    rw [List.map_cons, List.mapM_cons, back, ih]
    rfl

theorem getBytes_data (data : Bytes) :
    Json.getBytes (.array (data.map fun byte => .number (UInt64.ofNat byte.toNat))) = .ok data := by
  apply bind_ok.mpr
  refine ⟨_, rfl, mapM_encoded (fun byte => ?_) data⟩
  have bound := byte.toNat_lt
  have same : (UInt64.ofNat byte.toNat).toNat = byte.toNat := UInt64.toNat_ofNat_of_lt' (by change _ < 2 ^ 64; omega)
  change Except.ok (UInt8.ofNat (UInt64.ofNat byte.toNat).toNat) = _
  rw [same, UInt8.ofNat_toNat]

theorem ofJson_toJson (event : Event) : Event.ofJson event.toJson = .ok event := by
  have txHash : Event.readHash event.toJson "txHash" = .ok event.txHash := readHash_member (by rfl)
  have blockHash : Event.readHash event.toJson "blockHash" = .ok event.blockHash := readHash_member (by rfl)
  have topics : (event.topics.map fun topic => Json.string (Hex.fromBytes topic.get)).mapM Event.readTopic = .ok event.topics :=
    mapM_encoded readTopic_text event.topics
  have data : Json.getBytes (.array (event.data.map fun byte => .number (UInt64.ofNat byte.toNat))) = .ok event.data := getBytes_data event.data
  unfold Event.ofJson
  rw [txHash, blockHash]
  apply bind_ok.mpr
  refine ⟨.string event.name, by rfl, bind_ok.mpr ⟨event.name, rfl, ?_⟩⟩
  apply bind_ok.mpr
  refine ⟨.number event.logIndex, by rfl, bind_ok.mpr ⟨event.logIndex, rfl, bind_ok.mpr ⟨event.txHash, rfl, ?_⟩⟩⟩
  apply bind_ok.mpr
  refine ⟨.number event.txIndex, by rfl, bind_ok.mpr ⟨event.txIndex, rfl, bind_ok.mpr ⟨event.blockHash, rfl, ?_⟩⟩⟩
  apply bind_ok.mpr
  refine ⟨.number event.blockIndex, by rfl, bind_ok.mpr ⟨event.blockIndex, rfl, ?_⟩⟩
  apply bind_ok.mpr
  refine ⟨.string (Hex.fromBytes event.address.get), by rfl, bind_ok.mpr ⟨_, rfl, bind_ok.mpr ⟨event.address, address_ofHex event.address, ?_⟩⟩⟩
  apply bind_ok.mpr
  refine ⟨_, by rfl, bind_ok.mpr ⟨event.data, data, ?_⟩⟩
  apply bind_ok.mpr
  refine ⟨_, by rfl, bind_ok.mpr ⟨_, rfl, bind_ok.mpr ⟨event.topics, topics, ?_⟩⟩⟩
  exact bind_ok.mpr ⟨.boolean event.anonymous, by rfl, rfl⟩

end OrbiterSDK.Proofs.EventTexts
