import Pyrad2.Dictionary.Keys
import Pyrad2.Dictionary.Values
import Pyrad2.Packet.Basic

/-!
# Named values on the wire

Reading a number goes through the names of an attribute in one direction and writing it in the other.
The bytes come back where the directions agree, which they do not when a name is given another number.
-/

namespace Pyrad2

open EStateM

namespace Packet

/-- What is read from bytes of the right width is written as the same bytes. -/
def Reencodes (E : Env) (p : Packet) (attr : Attribute) : Prop :=
  ∀ b : Bytes, attr.type.fixedWidth = some b.length → ∃ v,
    decodeValue E p attr (.bytes b) = .ok v ∧
      ∀ s, (encodeValue E attr v).run s = .ok (.bytes b) s

/-- The name that a number was given last is not given another number later. -/
def NamesStay (ns : List Naming) (ref : ℕ) : Prop :=
  ∀ n ∈ ns, n.ref = ref →
    ns.lastWhere (fun m ↦ m.ref = ref ∧ m.value = n.value) = some n →
    ns.lastWhere (fun m ↦ m.ref = ref ∧ m.name = n.name) = some n

variable {E : Env} {type : Datatype} {b : Bytes}

/-- Numbers are read and written without their names. -/
theorem exists_int_of_isNumeric (hnum : DictReader.isNumeric type)
    (hb : type.fixedWidth = some b.length) : ∃ n, Tools.decodeAttr E type b = .ok (.int n) ∧
      Tools.encodeAttr E type (.int n) = .ok (.bytes b) := by
  have hunsigned {w : ℕ} (hw : b.length = w) : ∃ n, Tools.decodeUnsigned w b = .ok (.int n) ∧
      packUnsigned w n = .ok b := by
    subst hw
    exact ⟨_, Tools.decodeUnsigned_eq_ok_iff.2 ⟨rfl, rfl⟩, Tools.packUnsigned_toNatBE b⟩
  have hlen {w : ℕ} (hw : type.fixedWidth = some w) : b.length = w :=
    Option.some.inj (hb.symm.trans hw)
  cases type with
  | integer =>
    obtain ⟨n, hread, hpack⟩ := hunsigned (hlen rfl)
    exact ⟨n, hread, Tools.encodeInteger_int hpack "integer"⟩
  | short =>
    obtain ⟨n, hread, hpack⟩ := hunsigned (hlen rfl)
    exact ⟨n, hread, Tools.encodeInteger_int hpack "integer"⟩
  | byte =>
    obtain ⟨n, hread, hpack⟩ := hunsigned (hlen rfl)
    exact ⟨n, hread, Tools.encodeInteger_int hpack "integer"⟩
  | integer64 =>
    obtain ⟨n, hread, hpack⟩ := hunsigned (hlen rfl)
    exact ⟨n, hread, Tools.encodeInteger_int hpack "integer64"⟩
  | signed =>
    have hne : b ≠ [] := by
      rw [← List.length_pos_iff, hlen rfl]
      omega
    have hpack := Tools.packSigned_signedOf hne
    rw [hlen rfl] at hpack
    exact ⟨_, Tools.decodeSigned_eq_ok_iff.2 ⟨hlen rfl, rfl⟩,
      Tools.encodeInteger_int hpack "integer"⟩
  | _ => exact absurd hnum (by decide)

/-- What is encoded as a number is a byte string of the right width. -/
theorem exists_bytes_of_isNumeric (hnum : DictReader.isNumeric type) {v number : PyVal}
    (h : Tools.encodeAttr E type number = .ok v) :
    ∃ b : Bytes, v = .bytes b ∧ type.fixedWidth = some b.length := by
  have hinteger {w : ℕ} {pack : Int → Except Exn Bytes} {kind : String}
      (hpack : ∀ n b, pack n = .ok b → b.length = w)
      (hencode : Tools.encodeInteger pack kind number = .ok v) :
      ∃ b : Bytes, v = .bytes b ∧ some w = some b.length := by
    rw [Tools.encodeInteger] at hencode
    split at hencode
    · next n _ =>
      rcases hbytes : pack n with e | b
      · rw [hbytes] at hencode
        cases hencode
      · rw [hbytes] at hencode
        cases hencode
        exact ⟨b, rfl, congrArg some (hpack n b hbytes).symm⟩
    · cases hencode
  have hunsigned (w : ℕ) (n : Int) (b : Bytes) (hpack : packUnsigned w n = .ok b) : b.length = w := by
    rw [packUnsigned] at hpack
    split at hpack
    · cases hpack
      exact Bytes.length_ofNatBE ..
    · cases hpack
  have hsigned (w : ℕ) (n : Int) (b : Bytes) (hpack : packSigned w n = .ok b) : b.length = w := by
    rw [packSigned] at hpack
    split at hpack
    · cases hpack
      exact Bytes.length_ofNatBE ..
    · cases hpack
  cases type with
  | integer => exact hinteger (hunsigned 4) h
  | short => exact hinteger (hunsigned 2) h
  | byte => exact hinteger (hunsigned 1) h
  | integer64 => exact hinteger (hunsigned 8) h
  | signed => exact hinteger (hsigned 4) h
  | _ => exact absurd hnum (by decide)

section

variable {p : Packet} {attr : Attribute}

theorem decodeValue_of_named (hencrypt : attr.encrypt ≠ 2) {name : String}
    (h : attr.values.backward.get? (.bytes b) = some name) :
    decodeValue E p attr (.bytes b) = .ok (.str name) := by
  rw [decodeValue, if_neg fun hboth ↦ hencrypt hboth.1]
  simp only [h, Except.bind_of_ok]

theorem decodeValue_of_not_named (hencrypt : attr.encrypt ≠ 2)
    (h : attr.values.backward.get? (.bytes b) = none) :
    decodeValue E p attr (.bytes b) = Tools.decodeAttr E attr.type b := by
  rw [decodeValue, if_neg fun hboth ↦ hencrypt hboth.1]
  simp only [h, Except.bind_of_ok, decodeStoredAttr]

theorem run_encodeValue_of_named (hencrypt : attr.encrypt ≠ 2) {name : String} {v : PyVal}
    (h : attr.values.forward.get? name = some v) (s : PacketState) :
    (encodeValue E attr (.str name)).run s = .ok v s := by
  have hnamed : namedValue? attr (.str name) = some v := h
  rw [encodeValue]
  simp [hnamed, hencrypt]

theorem run_encodeValue_int (hencrypt : attr.encrypt ≠ 2) {n : Int} {v : PyVal}
    (h : Tools.encodeAttr E attr.type (.int n) = .ok v) (s : PacketState) :
    (encodeValue E attr (.int n)).run s = .ok v s := by
  have hnamed : namedValue? attr (.int n) = none := rfl
  rw [encodeValue]
  simp [hnamed, hencrypt, h]

/-- The bytes come back where the name of a number has that number. -/
theorem reencodes_iff_inverse (hnum : DictReader.isNumeric attr.type) (hencrypt : attr.encrypt ≠ 2)
    (hboth : ∀ v name, attr.values.backward.get? v = some name →
      (attr.values.forward.get? name).isSome ∧
        ∃ b : Bytes, v = .bytes b ∧ attr.type.fixedWidth = some b.length) :
    Reencodes E p attr ↔ ∀ v name, attr.values.backward.get? v = some name →
      attr.values.forward.get? name = some v := by
  constructor
  · intro h v name hname
    obtain ⟨hforward, b, rfl, hb⟩ := hboth v name hname
    obtain ⟨v', hforward⟩ := Option.isSome_iff_exists.1 hforward
    obtain ⟨read, hread, hwrite⟩ := h b hb
    rw [decodeValue_of_named hencrypt hname] at hread
    cases hread
    have hagain := (run_encodeValue_of_named (E := E) hencrypt hforward
      ⟨p, default⟩).symm.trans (hwrite ⟨p, default⟩)
    cases hagain
    exact hforward
  · intro h b hb
    rcases hname : attr.values.backward.get? (.bytes b) with - | name
    · obtain ⟨n, hread, hwrite⟩ := exists_int_of_isNumeric (E := E) hnum hb
      exact ⟨.int n, (decodeValue_of_not_named hencrypt hname).trans hread,
        run_encodeValue_int hencrypt hwrite⟩
    · exact ⟨.str name, decodeValue_of_named hencrypt hname,
        run_encodeValue_of_named hencrypt (h _ _ hname)⟩

end

theorem lastWhere_addedTo (q : String × PyVal → Bool) (ns : List Naming) (ref : ℕ) :
    (DictReader.addedTo ns ref).lastWhere q =
      (ns.lastWhere fun n ↦ n.ref = ref && q (n.name, n.value)).map fun n ↦ (n.name, n.value) := by
  rw [DictReader.addedTo, List.lastWhere, List.filter_map, List.filter_filter, List.getLast?_map,
    List.lastWhere]
  congr 3
  funext n
  exact Bool.and_comm ..

/-- **Which attributes write the bytes they read.** -/
theorem reencodes_iff {E : Env} {files : List (List DictLine)} {D : Dictionary} {ref : ℕ}
    {attr : Attribute} (hload : (Dictionary.load E files).run .empty = .ok () D)
    (hattr : D.heap[ref]? = some attr) (hnum : DictReader.isNumeric attr.type)
    (hencrypt : attr.encrypt ≠ 2) (p : Packet) :
    Reencodes E p attr ↔ NamesStay (Dictionary.empty.namings E files) ref := by
  have hnamed := named_of_run_load DictReader.named_empty hload
  rw [List.nil_append] at hnamed
  generalize Dictionary.empty.namings E files = ns at hnamed
  have hvalues := hnamed.values ref attr hattr
  have hforward (name : String) : attr.values.forward.get? name =
      (ns.lastWhere fun m ↦ m.ref = ref ∧ m.name = name).map Naming.value := by
    rw [hvalues, BiDict.forward_ofPairs, lastWhere_addedTo, Option.map_map]
    simp only [Bool.decide_and]
    rfl
  have hbackward (v : PyVal) : attr.values.backward.get? v =
      (ns.lastWhere fun m ↦ m.ref = ref ∧ m.value = v).map Naming.name := by
    rw [hvalues, BiDict.backward_ofPairs, lastWhere_addedTo, Option.map_map]
    simp only [Bool.decide_and]
    rfl
  have hlast {v : PyVal} {n : Naming}
      (h : ns.lastWhere (fun m ↦ m.ref = ref ∧ m.value = v) = some n) :
      n ∈ ns ∧ n.ref = ref ∧ n.value = v := by
    obtain ⟨hn, hmatch⟩ := List.mem_of_lastWhere h
    simp only [decide_eq_true_eq] at hmatch
    exact ⟨hn, hmatch⟩
  rw [reencodes_iff_inverse hnum hencrypt]
  · constructor
    · intro h n hn href hvalue
      have hname := h n.value n.name (by rw [hbackward, hvalue]; rfl)
      rw [hforward] at hname
      obtain ⟨m, hm, hmvalue⟩ := Option.map_eq_some_iff.1 hname
      obtain ⟨-, hmatch⟩ := List.mem_of_lastWhere hm
      simp only [decide_eq_true_eq] at hmatch
      rw [hm, List.lastWhere_unique hvalue hm (by simpa using ⟨hmatch.1, hmvalue⟩)
        (by simpa using href)]
    · intro h v name hname
      rw [hbackward] at hname
      obtain ⟨n, hn, rfl⟩ := Option.map_eq_some_iff.1 hname
      obtain ⟨hmem, href, rfl⟩ := hlast hn
      rw [hforward, h n hmem href hn]
      rfl
  · intro v name hname
    rw [hbackward] at hname
    obtain ⟨n, hn, rfl⟩ := Option.map_eq_some_iff.1 hname
    obtain ⟨hmem, href, rfl⟩ := hlast hn
    constructor
    · obtain ⟨m, hm⟩ := List.exists_lastWhere (p := fun m ↦ m.ref = ref ∧ m.name = n.name) hmem
        (by simpa using href)
      rw [hforward, hm]
      rfl
    · obtain ⟨text, number, -, hencoded⟩ := hnamed.encoded n hmem attr (by rw [href, hattr])
      exact exists_bytes_of_isNumeric hnum hencoded

/-- Two names for two numbers stay. -/
theorem reencodes_twoNames :
    let E := Env.ofByte (fun _ ↦ 0) fun _ _ ↦ 0
    let files := [DictLine.ofTexts
      ["ATTRIBUTE Test 1 integer", "VALUE Test one 1", "VALUE Test two 2"]]
    ∃ D attr, (Dictionary.load E files).run .empty = .ok () D ∧ D.attribute? "Test" = some attr ∧
      Reencodes E { dict := D } attr := by
  intro E files
  have hload := run_eq_ok_of_returns
    (by decide +kernel : returns (Dictionary.load E files) .empty = true)
  have hns : Dictionary.empty.namings E files =
      [⟨0, "one", .bytes [0, 0, 0, 1]⟩, ⟨0, "two", .bytes [0, 0, 0, 2]⟩] := by decide +kernel
  have href : (after (Dictionary.load E files) .empty).attributes.get? "Test" = some 0 := by
    decide +kernel
  have hattr := List.getElem?_eq_getElem
    (by decide +kernel : 0 < (after (Dictionary.load E files) .empty).heap.length)
  refine ⟨_, _, hload, by rw [Dictionary.attribute?, href, Option.bind_some, hattr],
    (reencodes_iff hload hattr (by decide +kernel) (by decide +kernel) _).2 ?_⟩
  rw [hns]
  intro n hn _ _
  simp only [List.mem_cons, List.not_mem_nil, or_false] at hn
  rcases hn with rfl | rfl
  · decide
  · decide

/-- A name given another number is read from the old number and written as the new one. -/
theorem not_reencodes_renumbered :
    let E := Env.ofByte (fun _ ↦ 0) fun _ _ ↦ 0
    let files := [DictLine.ofTexts
      ["ATTRIBUTE Test 1 integer", "VALUE Test one 1", "VALUE Test one 2"]]
    ∃ D attr, (Dictionary.load E files).run .empty = .ok () D ∧ D.attribute? "Test" = some attr ∧
      DictReader.isNumeric attr.type ∧ attr.encrypt = 0 ∧ ¬ Reencodes E { dict := D } attr := by
  intro E files
  have hload := run_eq_ok_of_returns
    (by decide +kernel : returns (Dictionary.load E files) .empty = true)
  have href : (after (Dictionary.load E files) .empty).attributes.get? "Test" = some 0 := by
    decide +kernel
  have hattr := List.getElem?_eq_getElem
    (by decide +kernel : 0 < (after (Dictionary.load E files) .empty).heap.length)
  obtain ⟨attr, hattr, htype, hencrypt, hbackward, hforward⟩ : ∃ attr,
      (after (Dictionary.load E files) .empty).attribute? "Test" = some attr ∧
      attr.type = .integer ∧ attr.encrypt = 0 ∧
      attr.values.backward.get? (.bytes [0, 0, 0, 1]) = some "one" ∧
      attr.values.forward.get? "one" = some (.bytes [0, 0, 0, 2]) :=
    ⟨_, by rw [Dictionary.attribute?, href, Option.bind_some, hattr], by decide +kernel,
      by decide +kernel, by decide +kernel, by decide +kernel⟩
  have hplain : attr.encrypt ≠ 2 := by
    rw [hencrypt]
    decide
  refine ⟨_, attr, hload, hattr, by rw [htype]; decide, hencrypt, fun h ↦ ?_⟩
  obtain ⟨v, hread, hwrite⟩ := h [0, 0, 0, 1] (by rw [htype]; rfl)
  rw [decodeValue_of_named hplain hbackward] at hread
  cases hread
  have htwo := (hwrite ⟨{}, default⟩).symm.trans
    (run_encodeValue_of_named hplain hforward ⟨{}, default⟩)
  cases htwo

end Packet

end Pyrad2
