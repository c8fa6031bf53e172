import Pyrad2.Packet.Authenticator

/-!
# What codecs and encoders raise

The value codecs and the attribute encoder raise exceptions of the language and of its standard
library, never one of the library's own. So `except PacketError` does not catch what they raise, and
`except Exception` does.
-/

namespace Pyrad2

open Except

/-- An exception that is neither one of the library's own nor a computation that never ends. -/
def Exn.IsForeign : Exn → Prop
  | packetError _ => False
  | serverPacketError _ => False
  | parseError .. => False
  | identifierExhausted _ => False
  | timeout => False
  | divergence => False
  | _ => True

/-- The computation raises foreign exceptions only. -/
abbrev Foreign {α : Type} (x : Except Exn α) : Prop := OnlyRaises Exn.IsForeign x

theorem Exn.IsForeign.not_isPacketError {e : Exn} (h : e.IsForeign) : e.isPacketError = false := by
  rcases e <;> first | rfl | exact h.elim

theorem Exn.IsForeign.ne_divergence {e : Exn} (h : e.IsForeign) : e ≠ .divergence := by
  rintro rfl
  exact h

theorem foreign_error {α : Type} {e : Exn} (he : e.IsForeign) :
    Foreign (.error e : Except Exn α) :=
  onlyRaises_error he

/-- A check, and the rest of the block behind it. -/
theorem foreign_check {α β : Type} {c : Prop} [Decidable c] {e : Exn} {f : β → Except Exn α}
    {x : Except Exn α} (he : e.IsForeign) (hx : Foreign x) :
    Foreign (if c then .error e >>= f else x) :=
  (foreign_error he).ite hx

/-! ### Packing -/

theorem PyVal.foreign_len (v : PyVal) : Foreign v.len := by
  rcases v with - | n | s | b
  · exact foreign_error trivial
  · exact foreign_error trivial
  · exact onlyRaises_ok _
  · exact onlyRaises_ok _

theorem PyVal.foreign_asBytes (v : PyVal) : Foreign v.asBytes := by
  rcases v with - | n | s | b
  · exact foreign_error trivial
  · exact foreign_error trivial
  · exact foreign_error trivial
  · exact onlyRaises_ok _

theorem foreign_packUnsigned (w : ℕ) (n : Int) : Foreign (packUnsigned w n) := by
  rw [packUnsigned]
  split
  · exact onlyRaises_ok _
  · exact foreign_error trivial

theorem foreign_packSigned (w : ℕ) (n : Int) : Foreign (packSigned w n) := by
  rw [packSigned]
  split
  · exact onlyRaises_ok _
  · exact foreign_error trivial

theorem foreign_packOctets (fields : List Int) : Foreign (packOctets fields) := by
  rw [packOctets]
  split
  · exact onlyRaises_ok _
  · exact foreign_error trivial

/-! ### Codecs -/

namespace Tools

theorem foreign_int (v : PyVal) : Foreign (int v) := by
  rcases v with - | n | s | b
  · exact foreign_error trivial
  · exact onlyRaises_ok _
  · rw [int]
    split
    · exact onlyRaises_ok _
    · exact foreign_error trivial
  · rw [int]
    split
    · exact onlyRaises_ok _
    · exact foreign_error trivial

theorem foreign_encodeString (v : PyVal) : Foreign (encodeString v) := by
  rcases v with - | n | s | b
  · exact onlyRaises_ok _
  · refine (PyVal.foreign_len _).bind fun n ↦ ?_
    exact foreign_check trivial (onlyRaises_ok _)
  · refine (PyVal.foreign_len _).bind fun n ↦ ?_
    exact foreign_check trivial (onlyRaises_ok _)
  · refine (PyVal.foreign_len _).bind fun n ↦ ?_
    exact foreign_check trivial (onlyRaises_ok _)

theorem foreign_unhexlify (b : Bytes) : Foreign (unhexlify b) := by
  fun_induction unhexlify b with
  | case1 => exact onlyRaises_ok _
  | case2 => exact foreign_error trivial
  | case3 a b rest x y hb ha hdigits ih => exact ih.map _
  | case4 => exact foreign_error trivial
  | case5 => exact foreign_error trivial

theorem foreign_encodeHexLiteral (digits : Bytes) : Foreign (encodeHexLiteral digits) := by
  refine (foreign_unhexlify _).bind fun encoded ↦ ?_
  exact foreign_check trivial (onlyRaises_ok _)

theorem foreign_encodeOctets (v : PyVal) : Foreign (encodeOctets v) := by
  unfold encodeOctets
  split
  · exact onlyRaises_ok _
  · exact foreign_encodeHexLiteral _
  · split
    · exact foreign_encodeHexLiteral _
    · refine OnlyRaises.ite ?_ (onlyRaises_ok _)
      exact (foreign_int _).bind fun _ ↦ (foreign_packUnsigned _ _).bind fun _ ↦ onlyRaises_ok _
  · exact onlyRaises_ok _

theorem foreign_orValueError {α : Type} (msg : String) (o : Option α) :
    Foreign (orValueError msg o) := by
  rcases o with - | a
  · exact foreign_error trivial
  · exact onlyRaises_ok _

theorem foreign_encodeAddress (E : Env) (v : PyVal) : Foreign (encodeAddress E v) := by
  rcases v with - | n | s | b
  · exact foreign_error trivial
  · exact foreign_error trivial
  · exact (foreign_orValueError _ _).map _
  · exact foreign_error trivial

theorem foreign_encodeIpv6Address (E : Env) (v : PyVal) : Foreign (encodeIpv6Address E v) := by
  rcases v with - | n | s | b
  · exact foreign_error trivial
  · exact foreign_error trivial
  · exact (foreign_orValueError _ _).map _
  · exact foreign_error trivial

theorem foreign_encodeComboIp (E : Env) (v : PyVal) : Foreign (encodeComboIp E v) := by
  rcases v with - | n | s | b
  · exact foreign_error trivial
  · exact foreign_error trivial
  · exact (foreign_orValueError _ _).map _
  · exact foreign_error trivial

theorem foreign_encodePrefix (E : Env) (width : ℕ) (parse : String → Option Bytes) (kind : String)
    (v : PyVal) : Foreign (encodePrefix E width parse kind v) := by
  have hnet (s : String) {f : Network → Except Exn PyVal} (hf : ∀ net, Foreign (f net)) :
      Foreign ((if s.toList.contains '/' then
          orValueError "not a network" (E.ip.parseNetwork s)
        else (orValueError "AddressValueError" (parse s)).map fun a ↦ ⟨a, 8 * width⟩) >>= f) :=
    ((foreign_orValueError _ _).ite ((foreign_orValueError _ _).map _)).bind hf
  rcases v with - | n | s | b
  · exact foreign_error trivial
  · exact foreign_error trivial
  · have hrest (net : Network) : Foreign (do
        if net.address.length ≠ width then .error (.valueError ("not an " ++ kind ++ " prefix"))
        .ok (.bytes ([0, UInt8.ofNat net.prefixlen] ++ maskPrefix net.prefixlen net.address)) :
        Except Exn PyVal) := foreign_check trivial (onlyRaises_ok _)
    rw [encodePrefix]
    dsimp only
    split
    · exact (foreign_orValueError _ _).bind hrest
    · exact ((foreign_orValueError _ _).map _).bind hrest
  · exact foreign_error trivial

theorem foreign_encodeIfid (v : PyVal) : Foreign (encodeIfid v) := by
  rcases v with - | n | s | b
  · exact foreign_error trivial
  · exact foreign_error trivial
  · refine foreign_check trivial ((onlyRaises_mapM fun g _ ↦ ?_).bind fun _ ↦ onlyRaises_ok _)
    split
    · split
      · exact onlyRaises_ok _
      · exact foreign_error trivial
    · exact foreign_error trivial
  · rw [encodeIfid]
    split
    · exact foreign_error trivial
    · exact onlyRaises_ok _

theorem foreign_encodeEther (v : PyVal) : Foreign (encodeEther v) := by
  rcases v with - | n | s | b
  · exact foreign_error trivial
  · exact foreign_error trivial
  · refine foreign_check trivial ((onlyRaises_mapM fun g _ ↦ ?_).bind fun _ ↦ onlyRaises_ok _)
    split
    · split
      · exact onlyRaises_ok _
      · exact foreign_error trivial
    · exact foreign_error trivial
  · rw [encodeEther]
    split
    · exact foreign_error trivial
    · exact onlyRaises_ok _

theorem foreign_ascendNetwork (E : Env) (ipv6 : Bool) (value : List Char) :
    Foreign (ascendNetwork E ipv6 value) := by
  refine (foreign_orValueError _ _).bind fun net ↦ ?_
  exact foreign_check trivial (foreign_check trivial (onlyRaises_ok _))

theorem foreign_ascendTerm (E : Env) (st : AscendTerms × Bool) (term : List Char) :
    Foreign (ascendTerm E st term) := by
  have hnumber (w : ℕ) (text : String) {f : Bytes → Except Exn (AscendTerms × Bool)}
      (hf : ∀ b, Foreign (f b)) : Foreign (do
        let n ← int (.str text)
        let b ← packUnsigned w n
        f b) :=
    (foreign_int _).bind fun _ ↦ (foreign_packUnsigned _ _).bind hf
  obtain ⟨terms, ipv6⟩ := st
  rw [ascendTerm]
  split
  · dsimp only
    refine (onlyRaises_ok _).ite ((onlyRaises_ok _).ite ((onlyRaises_ok _).ite
      ((onlyRaises_ok _).ite ?_)))
    refine ((foreign_ascendNetwork _ _ _).bind fun _ ↦ onlyRaises_ok _).ite
      (((foreign_ascendNetwork _ _ _).bind fun _ ↦ onlyRaises_ok _).ite ?_)
    split
    · exact hnumber _ _ fun _ ↦ onlyRaises_ok _
    split
    · exact hnumber _ _ fun _ ↦ onlyRaises_ok _
    split
    · exact hnumber _ _ fun _ ↦ onlyRaises_ok _
    split
    · exact hnumber _ _ fun _ ↦ onlyRaises_ok _
    split
    · exact hnumber _ _ fun _ ↦ onlyRaises_ok _
    · exact onlyRaises_ok _
  · exact foreign_error trivial

theorem foreign_encodeAscendBinary (E : Env) (v : PyVal) : Foreign (encodeAscendBinary E v) := by
  rcases v with - | n | s | b
  · exact foreign_error trivial
  · exact foreign_error trivial
  · rw [encodeAscendBinary]
    split
    · exact onlyRaises_ok _
    · exact (onlyRaises_foldlM (fun st term _ ↦ foreign_ascendTerm E st term) _).bind
        fun _ ↦ onlyRaises_ok _
  · exact foreign_error trivial

theorem foreign_encodeInteger {pack : Int → Except Exn Bytes} (hpack : ∀ n, Foreign (pack n))
    (kind : String) (v : PyVal) : Foreign (encodeInteger pack kind v) := by
  rw [encodeInteger]
  split
  · exact (hpack _).map _
  · exact foreign_error trivial

theorem foreign_decodeUnsigned (w : ℕ) (b : Bytes) : Foreign (decodeUnsigned w b) := by
  rw [decodeUnsigned]
  split
  · exact onlyRaises_ok _
  · exact foreign_error trivial

theorem foreign_decodeSigned (w : ℕ) (b : Bytes) : Foreign (decodeSigned w b) := by
  rw [decodeSigned]
  split
  · exact onlyRaises_ok _
  · exact foreign_error trivial

theorem foreign_decodePrefix (width : ℕ) (print : Bytes → String) (b : Bytes) :
    Foreign (decodePrefix width print b) := by
  unfold decodePrefix
  split
  · split
    · exact foreign_error trivial
    · exact onlyRaises_ok _
  · exact foreign_error trivial

theorem foreign_encodeDate (v : PyVal) : Foreign (encodeDate v) := by
  rcases v with - | n | s | b
  · exact foreign_error trivial
  · exact (foreign_packUnsigned 4 n).map _
  · exact foreign_error trivial
  · exact foreign_error trivial

theorem foreign_decodeAddress (E : Env) (b : Bytes) : Foreign (decodeAddress E b) := by
  rw [decodeAddress]
  split
  · exact onlyRaises_ok _
  split
  · exact onlyRaises_ok _
  · exact foreign_error trivial

theorem foreign_decodeIpv4Prefix (E : Env) (b : Bytes) : Foreign (decodeIpv4Prefix E b) := by
  rw [decodeIpv4Prefix]
  split
  · exact foreign_error trivial
  · exact foreign_decodePrefix _ _ _

theorem foreign_decodeIpv6Address (E : Env) (b : Bytes) : Foreign (decodeIpv6Address E b) := by
  rw [decodeIpv6Address]
  split
  · exact onlyRaises_ok _
  · exact foreign_error trivial

theorem foreign_decodeComboIp (E : Env) (b : Bytes) : Foreign (decodeComboIp E b) := by
  rw [decodeComboIp]
  split
  · exact onlyRaises_ok _
  split
  · exact onlyRaises_ok _
  · exact foreign_error trivial

theorem foreign_decodeIfid (b : Bytes) : Foreign (decodeIfid b) := by
  rw [decodeIfid]
  split
  · exact foreign_error trivial
  · exact onlyRaises_ok _

theorem foreign_decodeEther (b : Bytes) : Foreign (decodeEther b) := by
  rw [decodeEther]
  split
  · exact foreign_error trivial
  · exact onlyRaises_ok _

/-- **Encoding a value** of any datatype. -/
theorem foreign_encodeAttr (E : Env) (datatype : Datatype) (v : PyVal) :
    Foreign (encodeAttr E datatype v) := by
  unfold encodeAttr
  split
  · exact foreign_encodeString v
  · exact foreign_encodeOctets v
  · exact foreign_encodeInteger (foreign_packUnsigned 4) _ v
  · exact foreign_encodeAddress E v
  · exact foreign_encodePrefix E _ _ _ v
  · exact foreign_encodePrefix E _ _ _ v
  · exact foreign_encodeIpv6Address E v
  · exact foreign_encodeComboIp E v
  · exact foreign_encodeAscendBinary E v
  · exact foreign_encodeInteger (foreign_packSigned 4) _ v
  · exact foreign_encodeInteger (foreign_packUnsigned 2) _ v
  · exact foreign_encodeInteger (foreign_packUnsigned 1) _ v
  · exact foreign_encodeDate v
  · exact foreign_encodeInteger (foreign_packUnsigned 8) _ v
  · exact foreign_encodeIfid v
  · exact foreign_encodeEther v
  all_goals exact foreign_error trivial

/-- **Decoding a value** of any datatype. -/
theorem foreign_decodeAttr (E : Env) (datatype : Datatype) (b : Bytes) :
    Foreign (decodeAttr E datatype b) := by
  unfold decodeAttr
  split
  · exact onlyRaises_ok _
  · exact onlyRaises_ok _
  · exact foreign_decodeUnsigned 4 b
  · exact foreign_decodeAddress E b
  · exact foreign_decodePrefix _ _ _
  · exact foreign_decodeIpv4Prefix E b
  · exact foreign_decodeIpv6Address E b
  · exact foreign_decodeComboIp E b
  · exact onlyRaises_ok _
  · exact foreign_decodeSigned 4 b
  · exact foreign_decodeUnsigned 2 b
  · exact foreign_decodeUnsigned 1 b
  · exact foreign_decodeUnsigned 4 b
  · exact foreign_decodeUnsigned 8 b
  · exact foreign_decodeIfid b
  · exact foreign_decodeEther b
  all_goals exact foreign_error trivial

end Tools

/-! ### Reading by name -/

namespace Dictionary

variable (D : Dictionary)

theorem foreign_lookup (name : String) : Foreign (D.lookup name) := by
  rw [lookup]
  split
  · exact onlyRaises_ok _
  · exact foreign_error trivial

theorem foreign_encodeKey (name : String) : Foreign (D.encodeKey name) := by
  refine (D.foreign_lookup name).bind fun attr ↦ ?_
  dsimp only
  split
  · split
    · exact onlyRaises_ok _
    · exact foreign_error trivial
  · split
    · split
      · exact onlyRaises_ok _
      · exact foreign_error trivial
    · exact onlyRaises_ok _

end Dictionary

namespace Packet

section

variable (E : Env) (p : Packet)

theorem foreign_theDict : Foreign p.theDict := by
  rw [theDict]
  split
  · exact onlyRaises_ok _
  · exact foreign_error trivial

theorem foreign_saltEnDecrypt (data salt : Bytes) : Foreign (saltEnDecrypt E p data salt) := by
  rw [saltEnDecrypt]
  split
  · exact onlyRaises_ok _
  · exact foreign_error trivial

theorem foreign_printAddress (v : PyVal) : Foreign (printAddress E v) := by
  unfold printAddress
  split
  · exact OnlyRaises.ite (onlyRaises_ok _) (OnlyRaises.ite (onlyRaises_ok _) (foreign_error trivial))
  · split
    · exact onlyRaises_ok _
    · exact onlyRaises_ok _
    · exact foreign_error trivial
  · exact foreign_error trivial

theorem foreign_decodeOther (datatype : Datatype) (v : PyVal) :
    Foreign (decodeOther E datatype v) := by
  have hlen {f : ℕ → Except Exn PyVal} (hf : ∀ n, Foreign (f n)) : Foreign (v.len >>= f) :=
    v.foreign_len.bind hf
  cases datatype with
  | octets | abinary => exact onlyRaises_ok _
  | ipaddr => exact foreign_printAddress E v
  | comboIp => exact hlen fun _ ↦ hlen fun _ ↦ foreign_check trivial (foreign_error trivial)
  | ipv4Prefix | ifid | ether => exact hlen fun _ ↦ foreign_check trivial (foreign_error trivial)
  | string | tlv | extended | longExtended | evs | vsa | integer | signed | short | byte | date
    | integer64 | ipv6Prefix | ipv6addr => exact foreign_error trivial

theorem foreign_decodeStoredAttr (datatype : Datatype) (v : PyVal) :
    Foreign (decodeStoredAttr E datatype v) := by
  rcases v with - | n | s | b
  case bytes => exact Tools.foreign_decodeAttr E datatype b
  all_goals exact foreign_decodeOther E datatype _

theorem foreign_namedValue (E : Env) (attr : Attribute) (v : PyVal) :
    Foreign (match attr.values.backward.get? v with
      | some name => .ok (.str name)
      | none => decodeStoredAttr E attr.type v : Except Exn PyVal) := by
  split
  · exact onlyRaises_ok _
  · exact foreign_decodeStoredAttr E attr.type v

theorem foreign_decodeValue (attr : Attribute) (v : PyVal) :
    Foreign (p.decodeValue E attr v) := by
  have hsalt (b : Bytes) : Foreign (saltDecrypt E p b) := by
    refine (foreign_saltEnDecrypt E p _ _).bind fun plain ↦ ?_
    rcases plain with - | ⟨length, rest⟩
    · exact foreign_error trivial
    · exact onlyRaises_ok _
  rw [decodeValue]
  dsimp only
  split
  · exact v.foreign_asBytes.bind fun b ↦ ((hsalt b).map _).bind (foreign_namedValue E attr)
  · exact foreign_namedValue E attr v

mutual

theorem foreign_decodeContainerValues (D : Dictionary) (container : Attribute) (m : SubMap PyVal)
    (result : List (String × ItemView)) :
    Foreign (decodeContainerValues E p D container m result) := by
  match m with
  | [] => exact onlyRaises_ok _
  | (code, stored) :: rest =>
    rw [decodeContainerValues]
    exact (foreign_decodeContainerEntry D container code stored result).bind fun result ↦
      foreign_decodeContainerValues D container rest result
  termination_by structural m

theorem foreign_decodeContainerEntry (D : Dictionary) (container : Attribute) (code : Int)
    (stored : Stored PyVal) (result : List (String × ItemView)) :
    Foreign (decodeContainerEntry E p D container code stored result) := by
  match stored with
  | .node m =>
    rw [decodeContainerEntry]
    split
    · refine (D.foreign_lookup _).bind fun sub ↦ ?_
      exact (foreign_decodeContainerValues D sub m []).bind fun _ ↦ onlyRaises_ok _
    · exact foreign_error trivial
  | .vals vs =>
    rw [decodeContainerEntry]
    split
    · refine (D.foreign_lookup _).bind fun sub ↦ onlyRaises_foldlM (fun result v _ ↦ ?_) _
      refine (foreign_decodeValue E p sub v).bind fun decoded ↦ ?_
      split
      · exact onlyRaises_ok _
      · exact onlyRaises_ok _
      · exact foreign_error trivial
    · exact foreign_error trivial
  termination_by structural stored

end

/-- **Reading a name.** -/
theorem foreign_getItem (name : String) : Foreign (p.getItem E name) := by
  refine p.foreign_theDict.bind fun D ↦ (D.foreign_encodeKey name).bind fun key ↦ ?_
  split
  · refine (D.foreign_lookup name).bind fun attr ↦ ?_
    split
    · split
      · exact (foreign_decodeContainerValues E p D attr _ []).bind fun _ ↦ onlyRaises_ok _
      · exact foreign_error trivial
    · split
      · exact (onlyRaises_mapM fun v _ ↦ foreign_decodeValue E p attr v).bind
          fun _ ↦ onlyRaises_ok _
      · exact (onlyRaises_mapM fun e _ ↦ foreign_decodeValue E p attr (.int e.1)).bind
          fun _ ↦ onlyRaises_ok _
  · exact foreign_error trivial

theorem ItemView.foreign_first (item : ItemView) : Foreign item.first := by
  rcases item with (- | ⟨v, vs⟩) | m
  · exact foreign_error trivial
  · exact onlyRaises_ok _
  · exact foreign_error trivial

end

/-! ### The attribute encoder -/

theorem foreign_packItem (code : Int) (v : PyVal) : Foreign (packItem code v) :=
  v.foreign_len.bind fun _ ↦ (foreign_packOctets _).bind fun _ ↦ v.foreign_asBytes.bind fun _ ↦
    onlyRaises_ok _

theorem foreign_splitIntoChunks (max : ℕ) (v : PyVal) : Foreign (splitIntoChunks max v) := by
  rcases v with - | n | s | b
  · exact onlyRaises_ok _
  · rw [splitIntoChunks]
    split
    · exact onlyRaises_ok _
    · exact foreign_error trivial
  · exact onlyRaises_ok _
  · exact onlyRaises_ok _

/-- Flattening the results raises nothing. -/
theorem foreign_flatten_mapM {β : Type} {l : List β} {f : β → Except Exn Bytes}
    (h : ∀ b ∈ l, Foreign (f b)) : Foreign (do return (← l.mapM f).flatten) :=
  (onlyRaises_mapM h).bind fun _ ↦ onlyRaises_ok _

theorem foreign_packVsaInner (vsaType : Int) (v : PyVal) (format : VendorFormat)
    (continuation : Option UInt8) : Foreign (packVsaInner vsaType v format continuation) := by
  have hrest (typeField lenField : Bytes) : Foreign (do
      return typeField ++ lenField ++ continuation.toList ++ (← v.asBytes)) :=
    v.foreign_asBytes.bind fun _ ↦ onlyRaises_ok _
  refine (foreign_packUnsigned _ _).bind fun typeField ↦ ?_
  dsimp only
  split
  · exact hrest typeField []
  · exact v.foreign_len.bind fun n ↦ (foreign_packUnsigned _ _).bind (hrest typeField)

theorem foreign_packVsa (vendor : Int) (inner : Bytes) : Foreign (packVsa vendor inner) :=
  (foreign_packUnsigned 4 vendor).bind fun _ ↦ foreign_packItem 26 _

theorem foreign_encodeAttribute (p : Packet) (key : Key) (v : PyVal) :
    Foreign (p.encodeAttribute key v) := by
  rcases key with code | (- | ⟨vendor, - | ⟨vsaType, - | ⟨a, l⟩⟩⟩)
  · exact foreign_packItem code v
  · exact foreign_error trivial
  · exact foreign_error trivial
  · rw [encodeAttribute]
    split
    · refine (foreign_splitIntoChunks _ v).bind fun _ ↦ foreign_flatten_mapM fun e _ ↦ ?_
      exact (foreign_packVsaInner _ _ _ _).bind fun inner ↦ foreign_packVsa vendor inner
    · exact (foreign_packVsaInner _ _ _ _).bind fun inner ↦ foreign_packVsa vendor inner
  · exact foreign_error trivial

mutual

theorem foreign_encodeTlvChain (m : SubMap PyVal) : Foreign (encodeTlvChain m) := by
  match m with
  | [] => exact onlyRaises_ok _
  | (code, stored) :: rest =>
    rw [encodeTlvChain]
    exact (foreign_encodeTlvChainItem code stored).bind fun _ ↦
      (foreign_encodeTlvChain rest).bind fun _ ↦ onlyRaises_ok _
  termination_by structural m

theorem foreign_encodeTlvChainItem (code : Int) (stored : Stored PyVal) :
    Foreign (encodeTlvChainItem code stored) := by
  match stored with
  | .node m =>
    rw [encodeTlvChainItem]
    exact (foreign_encodeTlvChain m).bind fun _ ↦ foreign_packItem code _
  | .vals vs =>
    rw [encodeTlvChainItem]
    exact foreign_flatten_mapM fun v _ ↦ foreign_packItem code v
  termination_by structural stored

end

theorem foreign_items (stored : Stored PyVal) : Foreign stored.items := by
  rcases stored with vs | m
  · exact foreign_error trivial
  · exact onlyRaises_ok _

theorem foreign_encodeTlvRound (p : Packet) (m : SubMap PyVal) (i : ℕ) :
    Foreign (p.encodeTlvRound m i) := by
  refine foreign_flatten_mapM fun e _ ↦ ?_
  rcases e with ⟨code, vs | n⟩
  · dsimp only
    rw [encodeTlvSlot]
    split
    · exact foreign_encodeAttribute p _ _
    · exact onlyRaises_ok _
  · dsimp only
    rw [encodeTlvSlot]
    split
    · exact onlyRaises_ok _
    · exact (foreign_encodeTlvChain n).bind fun _ ↦ foreign_packItem code _

theorem foreign_encodeTlv (p : Packet) (key : Key) (stored : Stored PyVal) :
    Foreign (p.encodeTlv key stored) := by
  have hnamed : Foreign (p.attributeNamed key) := by
    rw [attributeNamed]
    split
    · exact onlyRaises_ok _
    · exact foreign_error trivial
  have hvendor (vendor : Int) (avp : Bytes) : Foreign (packVendorTlv vendor avp) :=
    (foreign_packOctets _).bind fun _ ↦ (foreign_packUnsigned 4 vendor).bind fun _ ↦ onlyRaises_ok _
  refine hnamed.bind fun attr ↦ (foreign_items stored).bind fun m ↦ ?_
  refine foreign_check trivial ?_
  refine (onlyRaises_mapM fun i _ ↦ foreign_encodeTlvRound p m i).bind fun encoded ↦
    (onlyRaises_mapM fun avp _ ↦ foreign_packItem attr.code _).bind fun avps ↦ ?_
  split
  · exact onlyRaises_ok _
  · refine p.foreign_theDict.bind fun D ↦ ?_
    split
    · exact foreign_flatten_mapM fun avp _ ↦ hvendor _ avp
    · exact foreign_error trivial

/-- The slots of an extended wrapper. -/
theorem foreign_slots {pack : Int → Int → PyVal → Except Exn Bytes}
    (hpack : ∀ field extType v, Foreign (pack field extType v)) (field : Int)
    (stored : Stored PyVal) :
    Foreign (do
      let slots ← (← stored.items).mapM fun (extType, values) ↦
        match values with
        | .node n => do pack field extType (.bytes (← encodeTlvChain n))
        | .vals vs => return (← vs.mapM (pack field extType)).flatten
      return slots.flatten) := by
  refine (foreign_items stored).bind fun m ↦ foreign_flatten_mapM fun e _ ↦ ?_
  rcases e with ⟨extType, vs | n⟩
  · exact foreign_flatten_mapM fun v _ ↦ hpack field extType v
  · exact (foreign_encodeTlvChain n).bind fun _ ↦ hpack field extType _

theorem foreign_packExtended (field extType : Int) (v : PyVal) :
    Foreign (packExtended field extType v) := by
  refine v.foreign_len.bind fun n ↦ ?_
  refine foreign_check trivial ?_
  exact (foreign_packOctets _).bind fun _ ↦ v.foreign_asBytes.bind fun _ ↦ onlyRaises_ok _

theorem foreign_packLongExtended (field extType : Int) (v : PyVal) :
    Foreign (packLongExtended field extType v) :=
  (foreign_splitIntoChunks 251 v).bind fun _ ↦ foreign_flatten_mapM fun e _ ↦
    e.1.foreign_len.bind fun _ ↦ (foreign_packOctets _).bind fun _ ↦
      e.1.foreign_asBytes.bind fun _ ↦ onlyRaises_ok _

theorem foreign_encodeEvs (parent extType vendor vsaType : Int) (v : PyVal) :
    Foreign (encodeEvs parent extType vendor vsaType v) := by
  refine (foreign_packUnsigned 4 vendor).bind fun vendorField ↦
    (foreign_packUnsigned 1 vsaType).bind fun typeField ↦ ?_
  dsimp only
  split
  · exact (foreign_splitIntoChunks 246 v).bind fun _ ↦ foreign_flatten_mapM fun e _ ↦
      e.1.foreign_len.bind fun _ ↦ (foreign_packOctets _).bind fun _ ↦
        e.1.foreign_asBytes.bind fun _ ↦ onlyRaises_ok _
  · refine v.foreign_len.bind fun n ↦ ?_
    refine foreign_check trivial ?_
    exact (foreign_packOctets _).bind fun _ ↦ v.foreign_asBytes.bind fun _ ↦ onlyRaises_ok _

theorem foreign_encodePlain (p : Packet) (key : Key) (v : PyVal) :
    Foreign (p.encodePlain key v) := by
  have hattr := foreign_encodeAttribute p key v
  rw [encodePlain]
  dsimp only
  split
  · refine v.foreign_len.bind fun n ↦ ?_
    split
    · exact (foreign_splitIntoChunks 253 v).bind fun _ ↦
        foreign_flatten_mapM fun c _ ↦ foreign_encodeAttribute p key c
    · exact hattr
  · exact hattr

/-- **Encoding a group.** -/
theorem foreign_encodeAvpGroup (p : Packet) (key : Key) (stored : Stored PyVal) :
    Foreign (p.encodeAvpGroup key stored) := by
  unfold encodeAvpGroup
  split
  · exact foreign_flatten_mapM fun v _ ↦ foreign_encodeEvs _ _ _ _ v
  · split
    · exact foreign_encodeTlv p _ stored
    · exact foreign_slots foreign_packExtended _ stored
    · exact foreign_slots foreign_packLongExtended _ stored
    · dsimp only
      split
      · exact (onlyRaises_mapM fun v _ ↦ v.foreign_asBytes).bind fun packed ↦
          foreign_encodeAttribute p _ _
      · exact foreign_flatten_mapM fun v _ ↦ foreign_encodePlain p _ v

/-- **Encoding the stored attributes.** -/
theorem foreign_encodeStored (p : Packet) (deferred : List Key) :
    Foreign (p.encodeStored deferred) := by
  refine foreign_flatten_mapM fun e _ ↦ ?_
  dsimp only
  split
  · exact onlyRaises_ok _
  · exact foreign_encodeAvpGroup p e.1 e.2

/-! ### Writing by name -/

/-- The method raises foreign exceptions only. -/
abbrev ForeignMethod {σ α : Type} (m : Method σ α) : Prop :=
  EStateM.OnlyRaises Exn.IsForeign m

theorem foreign_saltCrypt (E : Env) (v : PyVal) : ForeignMethod (saltCrypt E v) := by
  have hauth : ForeignMethod ensureAuthenticator := by
    refine EStateM.onlyRaises_get.bind fun s ↦ ?_
    split
    · have hcreate : ForeignMethod createAuthenticator := ⟨fun _ ↦ trivial⟩
      exact hcreate.bind fun _ ↦ EStateM.onlyRaises_modify _
    · exact EStateM.onlyRaises_pure _
  have hrandrange (lo hi : ℕ) : ForeignMethod (randrange lo hi) := ⟨fun _ ↦ trivial⟩
  have hplain (value : Bytes) : Foreign (saltPlaintext value) := by
    refine (foreign_packUnsigned 1 _).bind fun _ ↦ ?_
    dsimp only
    split <;> exact onlyRaises_ok _
  have hcrypt (value : Bytes) : ForeignMethod (do
      ensureAuthenticator
      let randomValue ← randrange 0 32767
      let salt := Bytes.ofNatBE 2 (32768 + randomValue)
      let value ← saltPlaintext value
      let crypted ← saltEnDecrypt E (← get).pkt value salt
      return salt ++ crypted) := by
    refine hauth.bind fun _ ↦ EStateM.OnlyRaises.bind (hrandrange 0 32767) fun r ↦ ?_
    generalize Bytes.ofNatBE 2 (32768 + r) = salt
    refine (EStateM.onlyRaises_liftM (hplain value)).bind fun padded ↦
      EStateM.onlyRaises_get.bind fun s ↦ ?_
    exact (EStateM.onlyRaises_liftM (foreign_saltEnDecrypt E s.pkt padded salt)).bind
      fun _ ↦ EStateM.onlyRaises_pure _
  have hbytes (v : PyVal) : ForeignMethod (liftM v.asBytes : PacketMethod Bytes) :=
    EStateM.onlyRaises_liftM v.foreign_asBytes
  unfold saltCrypt
  rcases v with - | n | s | b
  · exact (hbytes _).bind hcrypt
  · exact (hbytes _).bind hcrypt
  · exact hcrypt _
  · exact (hbytes _).bind hcrypt

theorem foreign_encodeValue (E : Env) (attr : Attribute) (v : PyVal) :
    ForeignMethod (encodeValue E attr v) := by
  have hresult (result : PyVal) : ForeignMethod (do
      if attr.encrypt = 2 ∧ (← get).pkt.radiusVersion ≠ .v1_1 then
        return .bytes (← saltCrypt E result)
      return result) := by
    refine EStateM.onlyRaises_get.bind fun s ↦ ?_
    split
    · exact (foreign_saltCrypt E result).bind fun _ ↦ EStateM.onlyRaises_pure _
    · exact EStateM.onlyRaises_pure _
  rw [encodeValue]
  split
  · exact hresult _
  · exact (EStateM.onlyRaises_liftM (Tools.foreign_encodeAttr E attr.type v)).bind hresult

/-- **Assigning by name.** -/
theorem foreign_setItem (E : Env) (name : String) (values : List PyVal) :
    ForeignMethod (setItem E name values) := by
  have htag (attr : Attribute) (tag : String) (encoded : PyVal) :
      Foreign (prependTag attr tag encoded) :=
    (Tools.foreign_int _).bind fun n ↦ (foreign_packUnsigned 1 n).bind fun _ ↦
      encoded.foreign_asBytes.bind fun _ ↦ onlyRaises_ok _
  have hvalues : ForeignMethod (encodeKeyValues E name values) := by
    refine EStateM.onlyRaises_get.bind fun s ↦
      (EStateM.onlyRaises_liftM s.pkt.foreign_theDict).bind fun D ↦ ?_
    refine (EStateM.onlyRaises_liftM (D.foreign_lookup _)).bind fun attr ↦
      (EStateM.onlyRaises_liftM (D.foreign_encodeKey _)).bind fun key ↦ ?_
    split
    · refine (EStateM.onlyRaises_mapM fun v _ ↦ ?_).bind fun _ ↦ EStateM.onlyRaises_pure _
      exact (foreign_encodeValue E attr v).bind fun encoded ↦
        EStateM.onlyRaises_liftM (htag attr _ encoded)
    · exact (EStateM.onlyRaises_mapM fun v _ ↦ foreign_encodeValue E attr v).bind
        fun _ ↦ EStateM.onlyRaises_pure _
  exact hvalues.bind fun _ ↦ EStateM.onlyRaises_modify _

end Packet

end Pyrad2
