import Mathlib.Data.List.Nodup
import Pyrad2.Codecs

/-!
# Ascend filters

A filter is written as terms, `key=value`, in any order. A term puts what it says into the fields of
its key, and those of different keys do not meet. What does not fit is the family: it says how the
networks are read that come after it, and a network before it is read as one of the other family.
-/

namespace Except

variable {ε α β : Type}

/-- A fold does not depend on the order where no two steps do. -/
theorem foldlM_eq_ok_of_perm {f : β → α → Except ε β} {l l' : List α} (hperm : l.Perm l')
    (hcomm : ∀ x ∈ l, ∀ y ∈ l, ∀ b c, (f b x >>= (f · y)) = .ok c → (f b y >>= (f · x)) = .ok c)
    {b c : β} (h : l.foldlM f b = .ok c) : l'.foldlM f b = .ok c := by
  induction hperm generalizing b c with
  | nil => exact h
  | cons x _ ih =>
    rw [List.foldlM_cons] at h ⊢
    obtain ⟨b', hb', hrest⟩ := bind_eq_ok_iff.1 h
    exact bind_eq_ok_iff.2 ⟨b', hb', ih (fun y hy z hz ↦
      hcomm y (List.mem_cons_of_mem x hy) z (List.mem_cons_of_mem x hz)) hrest⟩
  | swap x y l =>
    simp only [List.foldlM_cons] at h ⊢
    rw [← bind_assoc] at h ⊢
    obtain ⟨b', hb', hrest⟩ := bind_eq_ok_iff.1 h
    exact bind_eq_ok_iff.2 ⟨b', hcomm y (by simp) x (by simp) b b' hb', hrest⟩
  | trans hfirst _ ih ih' =>
    exact ih' (fun x hx y hy ↦ hcomm x (hfirst.mem_iff.2 hx) y (hfirst.mem_iff.2 hy)) (ih hcomm h)

theorem ite_eq_map {f : α → β} {c : Prop} [Decidable c] {x y : Except ε β} {x' y' : Except ε α}
    (hx : x = x'.map f) (hy : y = y'.map f) :
    (if c then x else y) = (if c then x' else y').map f := by
  split
  · exact hx
  · exact hy

end Except

namespace Pyrad2

open Except

namespace Tools

/-! ### What a term changes -/

/-- What terms put a value into; a network has its length beside it. -/
inductive AscendField where
  | action | direction | src | dst | sport | dport | sportq | dportq | proto
  deriving DecidableEq

/-- The key of the terms for a field. -/
def AscendField.key : AscendField → String
  | .action => "action"
  | .direction => "direction"
  | .src => "src"
  | .dst => "dst"
  | .sport => "sport"
  | .dport => "dport"
  | .sportq => "sportq"
  | .dportq => "dportq"
  | .proto => "proto"

namespace AscendTerms

/-- Put a value, and what stands beside it, into a field. -/
def put (t : AscendTerms) (value beside : Bytes) : AscendField → AscendTerms
  | .action => { t with action := value }
  | .direction => { t with direction := value }
  | .src => { t with src := value, srcl := beside }
  | .dst => { t with dst := value, dstl := beside }
  | .sport => { t with sport := value }
  | .dport => { t with dport := value }
  | .sportq => { t with sportq := value }
  | .dportq => { t with dportq := value }
  | .proto => { t with proto := value }

/-- The family turns to IPv6, and addresses that are zero get longer. -/
def widen (t : AscendTerms) : AscendTerms :=
  let wide (b : Bytes) : Bytes := if b = [0, 0, 0, 0] then List.replicate 16 0 else b
  { t with family := [3], src := wide t.src, dst := wide t.dst }

theorem put_comm {f g : AscendField} (h : f ≠ g) (t : AscendTerms) (v w v' w' : Bytes) :
    (t.put v w f).put v' w' g = (t.put v' w' g).put v w f := by
  cases f <;> cases g <;> first | rfl | exact absurd rfl h

theorem widen_put {f : AscendField} (hsrc : f ≠ .src) (hdst : f ≠ .dst) (t : AscendTerms)
    (v w : Bytes) : (t.put v w f).widen = t.widen.put v w f := by
  cases f <;> first | rfl | exact absurd rfl hsrc | exact absurd rfl hdst

end AscendTerms

/-- A value that a term puts into a field. -/
structure AscendChange where
  field : AscendField
  value : Bytes
  beside : Bytes := []

/-- Fields with what a term changes. -/
def AscendTerms.changed (t : AscendTerms) : Option AscendChange → AscendTerms
  | some c => t.put c.value c.beside c.field
  | none => t

/-- A number in a field of `w` bytes. -/
def ascendNumber (w : ℕ) (text : String) : Except Exn Bytes := int (.str text) >>= packUnsigned w

/-- What a term changes, other than the family. -/
def ascendChange (E : Env) (ipv6 : Bool) (key text : String) : Except Exn (Option AscendChange) :=
  let network (field : AscendField) :=
    (ascendNetwork E ipv6 text.toList).map fun net ↦
      some ⟨field, net.address, [UInt8.ofNat net.prefixlen]⟩
  let number (w : ℕ) (field : AscendField) :=
    (ascendNumber w text).map fun value ↦ some { field, value }
  if key = "action" ∧ text = "accept" then .ok (some { field := .action, value := [1] })
  else if key = "action" ∧ text = "redirect" then .ok (some { field := .action, value := [0x20] })
  else if key = "direction" ∧ text = "out" then .ok (some { field := .direction, value := [0] })
  else if key = "src" then network .src
  else if key = "dst" then network .dst
  else if key = "sport" then number 2 .sport
  else if key = "dport" then number 2 .dport
  else if key = "sportq" then number 1 .sportq
  else if key = "dportq" then number 1 .dportq
  else if key = "proto" then number 1 .proto
  else .ok none

section

variable {E : Env} {ipv6 : Bool} {term key value : List Char} {t : AscendTerms}

/-- The term for the family. -/
theorem ascendTerm_of_family (hsplit : split '=' term = [key, value])
    (h : String.ofList key = "family" ∧ String.ofList value = "ipv6") :
    ascendTerm E (t, ipv6) term = .ok (t.widen, true) := by
  unfold ascendTerm
  rw [hsplit]
  exact if_pos h

/-- Any other term. -/
theorem ascendTerm_of_not_family (hsplit : split '=' term = [key, value])
    (h : ¬ (String.ofList key = "family" ∧ String.ofList value = "ipv6")) :
    ascendTerm E (t, ipv6) term = (ascendChange E ipv6 (String.ofList key) (String.ofList value)).map
      fun c ↦ (t.changed c, ipv6) := by
  have hnetwork (g : Network → AscendTerms) (field : AscendField)
      (hg : ∀ net, g net = t.changed (some ⟨field, net.address, [UInt8.ofNat net.prefixlen]⟩)) :
      (do let net ← ascendNetwork E ipv6 value
          .ok (g net, ipv6) : Except Exn (AscendTerms × Bool)) =
        ((ascendNetwork E ipv6 value).map fun net ↦
          some ⟨field, net.address, [UInt8.ofNat net.prefixlen]⟩).map fun c ↦
            (t.changed c, ipv6) := by
    rcases ascendNetwork E ipv6 value with e | net
    · rfl
    · exact congrArg (fun t ↦ Except.ok (t, ipv6)) (hg net)
  have hnumber (w : ℕ) (g : Bytes → AscendTerms) (field : AscendField)
      (hg : ∀ b, g b = t.changed (some { field, value := b })) :
      (do .ok (g (← packUnsigned w (← int (.str (String.ofList value)))), ipv6) :
        Except Exn (AscendTerms × Bool)) =
        ((ascendNumber w (String.ofList value)).map fun b ↦ some { field, value := b }).map fun c ↦
          (t.changed c, ipv6) := by
    rw [ascendNumber]
    rcases int (.str (String.ofList value)) with e | n
    · rfl
    · rw [bind_of_ok, bind_of_ok]
      rcases packUnsigned w n with e | b
      · rfl
      · exact congrArg (fun t ↦ Except.ok (t, ipv6)) (hg b)
  unfold ascendTerm ascendChange
  rw [hsplit]
  dsimp only
  rw [if_neg h, String.toList_ofList]
  refine ite_eq_map rfl (ite_eq_map rfl (ite_eq_map rfl (ite_eq_map ?_ (ite_eq_map ?_
    (ite_eq_map ?_ (ite_eq_map ?_ (ite_eq_map ?_ (ite_eq_map ?_ (ite_eq_map ?_ rfl)))))))))
  · exact hnetwork _ .src fun _ ↦ rfl
  · exact hnetwork _ .dst fun _ ↦ rfl
  · exact hnumber 2 _ .sport fun _ ↦ rfl
  · exact hnumber 2 _ .dport fun _ ↦ rfl
  · exact hnumber 1 _ .sportq fun _ ↦ rfl
  · exact hnumber 1 _ .dportq fun _ ↦ rfl
  · exact hnumber 1 _ .proto fun _ ↦ rfl

/-- The bytes of a field. -/
def AscendField.width (ipv6 : Bool) : AscendField → ℕ
  | .src | .dst => if ipv6 then 16 else 4
  | .sport | .dport => 2
  | _ => 1

theorem length_of_ascendNumber {w : ℕ} {text : String} {b : Bytes}
    (h : ascendNumber w text = .ok b) : b.length = w := by
  obtain ⟨n, -, h⟩ := bind_eq_ok_iff.1 h
  rw [packUnsigned] at h
  split at h
  · cases h
    exact Bytes.length_ofNatBE ..
  · cases h

theorem length_of_ascendNetwork {net : Network} (h : ascendNetwork E ipv6 value = .ok net) :
    net.address.length = if ipv6 then 16 else 4 := by
  obtain ⟨net', -, h⟩ := bind_eq_ok_iff.1 h
  by_cases hlen : net'.address.length = if ipv6 then 16 else 4
  · rw [if_neg (not_not.2 hlen)] at h
    by_cases hmask : maskPrefix net'.prefixlen net'.address = net'.address
    · rw [if_neg (not_not.2 hmask)] at h
      cases h
      exact hlen
    · rw [if_pos hmask] at h
      cases h
  · rw [if_pos hlen] at h
    cases h

/-- What a term changes is the field of its key. -/
theorem of_ascendChange {k text : String} {c : AscendChange}
    (h : ascendChange E ipv6 k text = .ok (some c)) :
    k = c.field.key ∧ c.value.length = c.field.width ipv6 ∧
      (c.field = .src ∨ c.field = .dst → c.beside.length = 1) := by
  have hnetwork (field : AscendField) (hfield : field.width ipv6 = if ipv6 then 16 else 4)
      (h : ((ascendNetwork E ipv6 text.toList).map fun net ↦
        some (⟨field, net.address, [UInt8.ofNat net.prefixlen]⟩ : AscendChange)) = .ok (some c)) :
      c.field = field ∧ c.value.length = c.field.width ipv6 ∧ c.beside.length = 1 := by
    rcases hnet : ascendNetwork E ipv6 text.toList with e | net
    · rw [hnet] at h
      cases h
    · rw [hnet] at h
      cases h
      exact ⟨rfl, (length_of_ascendNetwork hnet).trans hfield.symm, rfl⟩
  have hnumber (w : ℕ) (field : AscendField) (hfield : field.width ipv6 = w)
      (hne : ¬ (field = .src ∨ field = .dst))
      (h : ((ascendNumber w text).map fun value ↦ some ({ field, value } : AscendChange)) =
        .ok (some c)) :
      c.field = field ∧ c.value.length = c.field.width ipv6 ∧
        (c.field = .src ∨ c.field = .dst → c.beside.length = 1) := by
    rcases hvalue : ascendNumber w text with e | value
    · rw [hvalue] at h
      cases h
    · rw [hvalue] at h
      cases h
      exact ⟨rfl, (length_of_ascendNumber hvalue).trans hfield.symm, fun hnet ↦ absurd hnet hne⟩
  unfold ascendChange at h
  dsimp only at h
  split at h
  · next hk =>
    cases h
    exact ⟨hk.1, rfl, by simp⟩
  split at h
  · next hk =>
    cases h
    exact ⟨hk.1, rfl, by simp⟩
  split at h
  · next hk =>
    cases h
    exact ⟨hk.1, rfl, by simp⟩
  split at h
  · next hk =>
    obtain ⟨hfield, hlen, hbeside⟩ := hnetwork .src rfl h
    exact ⟨by rw [hk, hfield]; rfl, hlen, fun _ ↦ hbeside⟩
  split at h
  · next hk =>
    obtain ⟨hfield, hlen, hbeside⟩ := hnetwork .dst rfl h
    exact ⟨by rw [hk, hfield]; rfl, hlen, fun _ ↦ hbeside⟩
  split at h
  · next hk =>
    obtain ⟨hfield, hrest⟩ := hnumber 2 .sport rfl (by simp) h
    exact ⟨by rw [hk, hfield]; rfl, hrest⟩
  split at h
  · next hk =>
    obtain ⟨hfield, hrest⟩ := hnumber 2 .dport rfl (by simp) h
    exact ⟨by rw [hk, hfield]; rfl, hrest⟩
  split at h
  · next hk =>
    obtain ⟨hfield, hrest⟩ := hnumber 1 .sportq rfl (by simp) h
    exact ⟨by rw [hk, hfield]; rfl, hrest⟩
  split at h
  · next hk =>
    obtain ⟨hfield, hrest⟩ := hnumber 1 .dportq rfl (by simp) h
    exact ⟨by rw [hk, hfield]; rfl, hrest⟩
  split at h
  · next hk =>
    obtain ⟨hfield, hrest⟩ := hnumber 1 .proto rfl (by simp) h
    exact ⟨by rw [hk, hfield]; rfl, hrest⟩
  · cases h

/-- Only a network is read by the family. -/
theorem ascendChange_eq_of_ne {k text : String} (hsrc : k ≠ "src") (hdst : k ≠ "dst")
    (ipv6' : Bool) : ascendChange E ipv6 k text = ascendChange E ipv6' k text := by
  simp only [ascendChange, if_neg hsrc, if_neg hdst]

theorem ascendChange_src (text : String) : ascendChange E ipv6 "src" text =
    (ascendNetwork E ipv6 text.toList).map fun net ↦
      some ⟨.src, net.address, [UInt8.ofNat net.prefixlen]⟩ := by
  simp [ascendChange]

theorem ascendChange_dst (text : String) : ascendChange E ipv6 "dst" text =
    (ascendNetwork E ipv6 text.toList).map fun net ↦
      some ⟨.dst, net.address, [UInt8.ofNat net.prefixlen]⟩ := by
  simp [ascendChange]

end

/-! ### The order of the terms -/

/-- The key of a term. -/
def ascendKey (term : List Char) : String := String.ofList ((split '=' term).headD [])

/-- Does the term say that the family is IPv6? -/
def IsIpv6Term (term : List Char) : Prop := split '=' term = ["family".toList, "ipv6".toList]

instance (term : List Char) : Decidable (IsIpv6Term term) :=
  inferInstanceAs (Decidable (split '=' term = ["family".toList, "ipv6".toList]))

/-- Does the term give a network? -/
def IsNetworkTerm (term : List Char) : Prop := ascendKey term = "src" ∨ ascendKey term = "dst"

variable {E : Env}

/-- What a term does: it widens the addresses, or it changes the field of its key. -/
inductive TermStep (E : Env) (term : List Char) (t : AscendTerms) (ipv6 : Bool) :
    AscendTerms × Bool → Prop
  | family (h : IsIpv6Term term) : TermStep E term t ipv6 (t.widen, true)
  | change {key value : List Char} (split : split '=' term = [key, value])
      (other : ¬ IsIpv6Term term) (c : Option AscendChange)
      (change : ascendChange E ipv6 (ascendKey term) (String.ofList value) = .ok c) :
      TermStep E term t ipv6 (t.changed c, ipv6)

theorem ascendKey_of_split {term key value : List Char} (h : split '=' term = [key, value]) :
    ascendKey term = String.ofList key := by
  rw [ascendKey, h]
  rfl

theorem isIpv6Term_iff {term key value : List Char} (h : split '=' term = [key, value]) :
    IsIpv6Term term ↔ String.ofList key = "family" ∧ String.ofList value = "ipv6" := by
  rw [IsIpv6Term, h]
  constructor
  · intro hpair
    cases hpair
    exact ⟨String.ofList_toList, String.ofList_toList⟩
  · rintro ⟨hkey, hvalue⟩
    rw [← hkey, ← hvalue, String.toList_ofList, String.toList_ofList]

/-- **One term.** -/
theorem ascendTerm_eq_ok_iff {term : List Char} {t : AscendTerms} {ipv6 : Bool}
    {st : AscendTerms × Bool} :
    ascendTerm E (t, ipv6) term = .ok st ↔ TermStep E term t ipv6 st := by
  constructor
  · intro h
    have hpair : ∃ key value, split '=' term = [key, value] := by
      unfold ascendTerm at h
      dsimp only at h
      split at h
      · next key value hsplit => exact ⟨key, value, hsplit⟩
      · cases h
    obtain ⟨key, value, hsplit⟩ := hpair
    by_cases hfamily : String.ofList key = "family" ∧ String.ofList value = "ipv6"
    · rw [ascendTerm_of_family hsplit hfamily] at h
      cases h
      exact .family ((isIpv6Term_iff hsplit).2 hfamily)
    · rw [ascendTerm_of_not_family hsplit hfamily, ← ascendKey_of_split hsplit] at h
      rcases hchange : ascendChange E ipv6 (ascendKey term) (String.ofList value) with e | c
      · rw [hchange] at h
        cases h
      · rw [hchange] at h
        cases h
        exact .change hsplit (mt (isIpv6Term_iff hsplit).1 hfamily) c hchange
  · rintro (hfamily | ⟨hsplit, hother, c, hchange⟩)
    · exact ascendTerm_of_family hfamily ((isIpv6Term_iff hfamily).1 hfamily)
    · rw [ascendTerm_of_not_family hsplit (mt (isIpv6Term_iff hsplit).2 hother),
        ← ascendKey_of_split hsplit, hchange]
      rfl

theorem ascendKey_of_isIpv6Term {term : List Char} (h : IsIpv6Term term) :
    ascendKey term = "family" := by
  rw [ascendKey_of_split h]
  exact String.ofList_toList

theorem key_of_change {ipv6 : Bool} {k text : String} {c : AscendChange}
    (h : ascendChange E ipv6 k text = .ok (some c)) : c.field.key = k :=
  (of_ascendChange h).1.symm

/-- Changes of terms with different keys come in either order. -/
theorem changed_comm {b b' : Bool} {k k' text text' : String} (hne : k ≠ k')
    {c c' : Option AscendChange} (h : ascendChange E b k text = .ok c)
    (h' : ascendChange E b' k' text' = .ok c') (t : AscendTerms) :
    (t.changed c).changed c' = (t.changed c').changed c := by
  rcases c with - | c
  · rfl
  rcases c' with - | c'
  · rfl
  refine AscendTerms.put_comm (fun hfield ↦ hne ?_) ..
  rw [← key_of_change h, ← key_of_change h', hfield]

/-- A change that is no network comes before or after the family. -/
theorem widen_changed {b : Bool} {k text : String} (hsrc : k ≠ "src") (hdst : k ≠ "dst")
    {c : Option AscendChange} (h : ascendChange E b k text = .ok c) (t : AscendTerms) :
    (t.changed c).widen = t.widen.changed c := by
  rcases c with - | c
  · rfl
  refine AscendTerms.widen_put (fun hfield ↦ hsrc ?_) (fun hfield ↦ hdst ?_) ..
  · rw [← key_of_change h, hfield]
    rfl
  · rw [← key_of_change h, hfield]
    rfl

/-- **Terms of different keys come in either order**, unless the family meets a network. -/
theorem ascendTerm_comm {x y : List Char} (hkey : ascendKey x ≠ ascendKey y)
    (hxy : ¬ (IsIpv6Term x ∧ IsNetworkTerm y)) (hyx : ¬ (IsIpv6Term y ∧ IsNetworkTerm x))
    {st st' : AscendTerms × Bool} (h : (ascendTerm E st x >>= (ascendTerm E · y)) = .ok st') :
    (ascendTerm E st y >>= (ascendTerm E · x)) = .ok st' := by
  rcases st with ⟨t, b⟩
  obtain ⟨st, hx, hy⟩ := bind_eq_ok_iff.1 h
  rw [ascendTerm_eq_ok_iff] at hx
  rw [bind_eq_ok_iff]
  rcases hx with hx | ⟨hsplit, hx, c, hc⟩ <;> rw [ascendTerm_eq_ok_iff] at hy <;>
    rcases hy with hy | ⟨hsplit', hy, c', hc'⟩
  · exact absurd ((ascendKey_of_isIpv6Term hx).trans (ascendKey_of_isIpv6Term hy).symm) hkey
  · rw [not_and, IsNetworkTerm, not_or] at hxy
    obtain ⟨hsrc, hdst⟩ := hxy hx
    rw [ascendChange_eq_of_ne hsrc hdst b] at hc'
    exact ⟨_, ascendTerm_eq_ok_iff.2 (.change hsplit' hy c' hc'),
      ascendTerm_eq_ok_iff.2 (widen_changed hsrc hdst hc' t ▸ .family hx)⟩
  · rw [not_and, IsNetworkTerm, not_or] at hyx
    obtain ⟨hsrc, hdst⟩ := hyx hy
    have hc' := hc
    rw [ascendChange_eq_of_ne hsrc hdst true] at hc'
    exact ⟨_, ascendTerm_eq_ok_iff.2 (.family hy),
      ascendTerm_eq_ok_iff.2 (widen_changed hsrc hdst hc t ▸ .change hsplit hx c hc')⟩
  · exact ⟨_, ascendTerm_eq_ok_iff.2 (.change hsplit' hy c' hc'),
      ascendTerm_eq_ok_iff.2 (changed_comm hkey hc hc' t ▸ .change hsplit hx c hc)⟩

/-! ### Sizes -/

/-- The fields of a filter have the widths they have in the bytes. -/
structure AscendTerms.Sized (t : AscendTerms) (w : ℕ) : Prop where
  family : t.family.length = 1
  action : t.action.length = 1
  direction : t.direction.length = 1
  src : t.src.length = w
  dst : t.dst.length = w
  srcl : t.srcl.length = 1
  dstl : t.dstl.length = 1
  proto : t.proto.length = 1
  sport : t.sport.length = 2
  dport : t.dport.length = 2
  sportq : t.sportq.length = 1
  dportq : t.dportq.length = 1

/-- The bytes of a filter. -/
def AscendTerms.layout (t : AscendTerms) : Bytes :=
  t.family ++ t.action ++ t.direction ++ [0] ++ t.src ++ t.dst ++ t.srcl ++ t.dstl ++ t.proto ++
    [0] ++ t.sport ++ t.dport ++ t.sportq ++ t.dportq ++ [0, 0] ++ List.replicate 8 0

namespace AscendTerms.Sized

variable {t : AscendTerms} {w : ℕ}

theorem length_layout (h : t.Sized w) : t.layout.length = 24 + 2 * w := by
  simp only [layout, List.length_append, h.family, h.action, h.direction, h.src, h.dst, h.srcl,
    h.dstl, h.proto, h.sport, h.dport, h.sportq, h.dportq, List.length_replicate, List.length_cons,
    List.length_nil]
  omega

theorem widen (h : t.Sized 16) : t.widen.Sized 16 := by
  have hwide {b : Bytes} (hb : b.length = 16) : b ≠ [0, 0, 0, 0] := by
    rintro rfl
    cases hb
  have hwiden : t.widen = { t with family := [3] } := by
    rw [AscendTerms.widen]
    dsimp only
    rw [if_neg (hwide h.src), if_neg (hwide h.dst)]
  rw [hwiden]
  exact { h with family := rfl }

theorem changed {b : Bool} (h : t.Sized (if b then 16 else 4)) {k text : String}
    {c : Option AscendChange} (hc : ascendChange E b k text = .ok c) :
    (t.changed c).Sized (if b then 16 else 4) := by
  rcases c with - | ⟨field, value, beside⟩
  · exact h
  obtain ⟨-, hlen, hbeside⟩ := of_ascendChange hc
  cases field with
  | src => exact { h with src := hlen, srcl := hbeside (.inl rfl) }
  | dst => exact { h with dst := hlen, dstl := hbeside (.inr rfl) }
  | action => exact { h with action := hlen }
  | direction => exact { h with direction := hlen }
  | sport => exact { h with sport := hlen }
  | dport => exact { h with dport := hlen }
  | sportq => exact { h with sportq := hlen }
  | dportq => exact { h with dportq := hlen }
  | proto => exact { h with proto := hlen }

end AscendTerms.Sized

/-! ### Texts -/

/-- The terms of a filter. -/
def ascendTerms (s : String) : List (List Char) := split ' ' s.toList

/-- A filter of some terms. -/
def ascendText (terms : List (List Char)) : String := String.ofList ([' '].intercalate terms)

/-- Does one of the terms say that the family is IPv6? -/
def SaysIpv6 (terms : List (List Char)) : Prop := ∃ term ∈ terms, IsIpv6Term term

instance (terms : List (List Char)) : Decidable (SaysIpv6 terms) :=
  inferInstanceAs (Decidable (∃ term ∈ terms, IsIpv6Term term))

/-- Does one of the terms give a network? -/
def GivesNetwork (terms : List (List Char)) : Prop := ∃ term ∈ terms, IsNetworkTerm term

/-- A filter with the size of its family, whatever the order of its terms, and with networks of its
family only. -/
structure OrderFree (E : Env) (s : String) : Prop where
  size : ∃ b, encodeAscendBinary E (.str s) = .ok (.bytes b) ∧
    b.length = if SaysIpv6 (ascendTerms s) then 56 else 32
  permuted : ∀ terms : List (List Char), terms.Perm (ascendTerms s) →
    encodeAscendBinary E (.str (ascendText terms)) = encodeAscendBinary E (.str s)
  family : ∀ term ∈ ascendTerms s, IsNetworkTerm term → ∀ key value, split '=' term = [key, value] →
    ∃ net, ascendNetwork E (SaysIpv6 (ascendTerms s)) value = .ok net

/-- A part of a text has none of what the text is split at, and nothing that the text has not. -/
theorem of_mem_split {c : Char} {cs w : List Char} (h : w ∈ split c cs) : c ∉ w ∧ w ⊆ cs := by
  induction cs generalizing w with
  | nil =>
    rcases List.mem_singleton.1 h with rfl
    exact ⟨List.not_mem_nil, List.Subset.refl _⟩
  | cons x cs ih =>
    rw [split] at h
    split at h
    · rcases List.mem_cons.1 h with rfl | h
      · exact ⟨List.not_mem_nil, List.nil_subset _⟩
      · exact ⟨(ih h).1, List.subset_cons_of_subset x (ih h).2⟩
    · next hx =>
      split at h
      · rcases List.mem_singleton.1 h with rfl
        exact ⟨by simpa using Ne.symm hx, by simp⟩
      · next w' ws hsplit =>
        rw [hsplit] at ih
        rcases List.mem_cons.1 h with rfl | h
        · obtain ⟨hc, hsub⟩ := ih List.mem_cons_self
          refine ⟨fun hmem ↦ ?_, List.cons_subset_cons x hsub⟩
          rcases List.mem_cons.1 hmem with heq | hmem
          · exact hx heq.symm
          · exact hc hmem
        · obtain ⟨hc, hsub⟩ := ih (List.mem_cons_of_mem _ h)
          exact ⟨hc, List.subset_cons_of_subset x hsub⟩

/-- Terms put together come apart again. -/
theorem ascendTerms_ascendText {terms : List (List Char)} (hne : terms ≠ [])
    (h : ∀ term ∈ terms, ' ' ∉ term) : ascendTerms (ascendText terms) = terms := by
  rw [ascendTerms, ascendText, String.toList_ofList, split_intercalate hne h]

theorem mem_dropWhile {α : Type} {p : α → Bool} {l : List α} {a : α} (ha : a ∈ l)
    (hp : ¬ p a = true) : a ∈ l.dropWhile p := by
  rw [← List.takeWhile_append_dropWhile (p := p) (l := l)] at ha
  rcases List.mem_append.1 ha with ha | ha
  · exact absurd (List.all_eq_true.1 List.all_takeWhile a ha) hp
  · exact ha

/-- A text of terms is not the word for no filter. -/
theorem strip_ne_delete {s : String}
    (hpairs : ∀ term ∈ ascendTerms s, ∃ key value, split '=' term = [key, value]) :
    strip s.toList ≠ "delete".toList := by
  obtain ⟨term, hterm⟩ := List.exists_mem_of_ne_nil _ (split_ne_nil ' ' s.toList)
  obtain ⟨key, value, hsplit⟩ := hpairs term hterm
  have heq : '=' ∈ term := by
    by_contra hnot
    rw [split_of_notMem hnot] at hsplit
    cases hsplit
  have hmem : '=' ∈ strip s.toList := by
    have hwhite : ¬ isWhite '=' = true := by decide
    rw [strip, trim, List.mem_reverse]
    refine mem_dropWhile (List.mem_reverse.2 ?_) hwhite
    exact mem_dropWhile ((of_mem_split hterm).2 heq) hwhite
  intro hdelete
  rw [hdelete] at hmem
  exact absurd hmem (by decide)

/-- The filter of a text of terms. -/
theorem encodeAscendBinary_eq {s : String}
    (hpairs : ∀ term ∈ ascendTerms s, ∃ key value, split '=' term = [key, value]) :
    encodeAscendBinary E (.str s) =
      ((ascendTerms s).foldlM (ascendTerm E) ({}, false)).map fun st ↦ .bytes st.1.layout := by
  rw [encodeAscendBinary, if_neg (strip_ne_delete hpairs)]
  show (((ascendTerms s).foldlM (ascendTerm E) ({}, false)) >>= fun st ↦ _) = _
  rcases (ascendTerms s).foldlM (ascendTerm E) ({}, false) with e | ⟨t, b⟩
  · rfl
  · rfl

section

variable {terms : List (List Char)} {st : AscendTerms × Bool}

/-- Without the family, every network is one of IPv4. -/
theorem sized_of_foldlM_ipv4 (hipv6 : ¬ SaysIpv6 terms)
    (h : terms.foldlM (ascendTerm E) ({}, false) = .ok st) : st.2 = false ∧ st.1.Sized 4 := by
  have hinv : ∀ term ∈ terms, ∀ st st' : AscendTerms × Bool, st.2 = false ∧ st.1.Sized 4 →
      ascendTerm E st term = .ok st' → st'.2 = false ∧ st'.1.Sized 4 := by
    rintro term hterm ⟨t, b⟩ st' ⟨rfl, hsized⟩ hstep
    rcases ascendTerm_eq_ok_iff.1 hstep with hfamily | ⟨hsplit, -, c, hc⟩
    · exact absurd ⟨term, hterm, hfamily⟩ hipv6
    · exact ⟨rfl, hsized.changed (b := false) hc⟩
  have hstart : AscendTerms.Sized {} 4 :=
    ⟨rfl, rfl, rfl, rfl, rfl, rfl, rfl, rfl, rfl, rfl, rfl, rfl⟩
  exact invariant_of_foldlM (I := fun st ↦ st.2 = false ∧ st.1.Sized 4) h ⟨rfl, hstart⟩ hinv

/-- After the family, every network is one of IPv6. -/
theorem sized_of_foldlM_ipv6 {t : AscendTerms} (hsized : t.Sized 16)
    (h : terms.foldlM (ascendTerm E) (t, true) = .ok st) : st.2 = true ∧ st.1.Sized 16 := by
  have hinv : ∀ term ∈ terms, ∀ st st' : AscendTerms × Bool, st.2 = true ∧ st.1.Sized 16 →
      ascendTerm E st term = .ok st' → st'.2 = true ∧ st'.1.Sized 16 := by
    rintro term - ⟨t, b⟩ st' ⟨rfl, hsized⟩ hstep
    rcases ascendTerm_eq_ok_iff.1 hstep with hfamily | ⟨hsplit, -, c, hc⟩
    · exact ⟨rfl, hsized.widen⟩
    · exact ⟨rfl, hsized.changed (b := true) hc⟩
  exact invariant_of_foldlM (I := fun st ↦ st.2 = true ∧ st.1.Sized 16) h ⟨rfl, hsized⟩ hinv

/-- A network that is read is one of the family in force. -/
theorem exists_ascendNetwork {term key value : List Char} {t : AscendTerms} {b : Bool}
    (hterm : IsNetworkTerm term) (hsplit : split '=' term = [key, value])
    (h : ascendTerm E (t, b) term = .ok st) : ∃ net, ascendNetwork E b value = .ok net := by
  rcases ascendTerm_eq_ok_iff.1 h with hfamily | ⟨hsplit', -, c, hc⟩
  · have hkey := ascendKey_of_isIpv6Term hfamily
    rcases hterm with hterm | hterm
    · rw [hterm] at hkey
      exact absurd hkey (by decide)
    · rw [hterm] at hkey
      exact absurd hkey (by decide)
  · rw [hsplit] at hsplit'
    cases hsplit'
    rcases hnet : ascendNetwork E b value with e | net
    · rcases hterm with hterm | hterm
      · rw [hterm, ascendChange_src, String.toList_ofList, hnet] at hc
        cases hc
      · rw [hterm, ascendChange_dst, String.toList_ofList, hnet] at hc
        cases hc
    · exact ⟨net, rfl⟩

/-- No network is one of both families. -/
theorem not_both_families {value : List Char} {net net' : Network}
    (h : ascendNetwork E false value = .ok net) (h' : ascendNetwork E true value = .ok net') :
    False := by
  obtain ⟨parsed, hparsed, h⟩ := bind_eq_ok_iff.1 h
  obtain ⟨parsed', hparsed', h'⟩ := bind_eq_ok_iff.1 h'
  cases hparsed.symm.trans hparsed'
  have hlen : parsed.address.length = 4 := by
    by_contra hlen
    rw [if_pos (by simpa using hlen)] at h
    cases h
  rw [if_pos (by simp [hlen])] at h'
  cases h'

/-- **Terms of different keys come in any order**, unless the family meets a network. -/
theorem foldlM_ascendTerm_perm {terms' : List (List Char)} (hperm : terms'.Perm terms)
    (hkeys : (terms.map ascendKey).Nodup) (hcond : ¬ (SaysIpv6 terms ∧ GivesNetwork terms))
    (h : terms.foldlM (ascendTerm E) ({}, false) = .ok st) :
    terms'.foldlM (ascendTerm E) ({}, false) = .ok st := by
  refine foldlM_eq_ok_of_perm hperm.symm (fun x hx y hy b c hxy ↦ ?_) h
  rcases eq_or_ne x y with rfl | hne
  · exact hxy
  · exact ascendTerm_comm (fun hkey ↦ hne (List.inj_on_of_nodup_map hkeys hx hy hkey))
      (fun hboth ↦ hcond ⟨⟨x, hx, hboth.1⟩, y, hy, hboth.2⟩)
      (fun hboth ↦ hcond ⟨⟨y, hy, hboth.1⟩, x, hx, hboth.2⟩) hxy

end

/-- **Which filters have the size and the meaning of their terms.** -/
theorem orderFree_iff {s : String} {v : PyVal}
    (hpairs : ∀ term ∈ ascendTerms s, ∃ key value, split '=' term = [key, value])
    (hkeys : ((ascendTerms s).map ascendKey).Nodup)
    (haccepted : encodeAscendBinary E (.str s) = .ok v) :
    OrderFree E s ↔ ¬ (SaysIpv6 (ascendTerms s) ∧ GivesNetwork (ascendTerms s)) := by
  have hspaces : ∀ term ∈ ascendTerms s, ' ' ∉ term := fun term hterm ↦ (of_mem_split hterm).1
  have hne : ascendTerms s ≠ [] := split_ne_nil _ _
  -- the text of permuted terms is cut into these terms again
  have htext {terms : List (List Char)} (hperm : terms.Perm (ascendTerms s)) :
      encodeAscendBinary E (.str (ascendText terms)) =
        (terms.foldlM (ascendTerm E) ({}, false)).map fun st ↦ .bytes st.1.layout := by
    have hterms : ascendTerms (ascendText terms) = terms := by
      refine ascendTerms_ascendText (fun hnil ↦ hne ?_) fun term hterm ↦
        hspaces term (hperm.mem_iff.1 hterm)
      rw [hnil] at hperm
      exact hperm.nil_eq.symm
    rw [encodeAscendBinary_eq, hterms]
    rw [hterms]
    exact fun term hterm ↦ hpairs term (hperm.mem_iff.1 hterm)
  have hencode := encodeAscendBinary_eq (E := E) hpairs
  obtain ⟨st, hfold⟩ : ∃ st, (ascendTerms s).foldlM (ascendTerm E) ({}, false) = .ok st := by
    rcases hfold : (ascendTerms s).foldlM (ascendTerm E) ({}, false) with e | st
    · rw [hencode, hfold] at haccepted
      cases haccepted
    · exact ⟨st, rfl⟩
  rw [hfold] at hencode
  constructor
  · rintro hfree ⟨⟨x, hx, hfamily⟩, y, hy, hnetwork⟩
    -- The network is read as one of both families, before and after the family.
    obtain ⟨key, value, hsplit⟩ := hpairs y hy
    have hxy : y ≠ x := by
      rintro rfl
      rw [IsNetworkTerm, ascendKey_of_isIpv6Term hfamily] at hnetwork
      exact absurd hnetwork (by decide)
    have hperm : (x :: y :: ((ascendTerms s).erase x).erase y).Perm (ascendTerms s) :=
      ((List.perm_cons_erase ((List.mem_erase_of_ne hxy).2 hy)).symm.cons x).trans
        (List.perm_cons_erase hx).symm
    have hfolds {terms : List (List Char)} (hterms : terms.Perm (ascendTerms s)) :
        ∃ st, terms.foldlM (ascendTerm E) ({}, false) = .ok st := by
      have hsame := (htext hterms).symm.trans ((hfree.permuted terms hterms).trans hencode)
      rcases hterms : terms.foldlM (ascendTerm E) ({}, false) with e | st
      · rw [hterms] at hsame
        cases hsame
      · exact ⟨st, rfl⟩
    obtain ⟨st₁, hfirst⟩ := hfolds hperm
    obtain ⟨⟨t, b⟩, hstep, hrest⟩ := bind_eq_ok_iff.1 hfirst
    rw [ascendTerm_eq_ok_iff.2 (.family hfamily)] at hstep
    cases hstep
    obtain ⟨st₂, hstep, -⟩ := bind_eq_ok_iff.1 hrest
    obtain ⟨net, hnet⟩ := exists_ascendNetwork hnetwork hsplit hstep
    obtain ⟨st₃, hsecond⟩ := hfolds ((List.Perm.swap x y _).trans hperm)
    obtain ⟨st₄, hstep, -⟩ := bind_eq_ok_iff.1 hsecond
    obtain ⟨net', hnet'⟩ := exists_ascendNetwork hnetwork hsplit hstep
    exact not_both_families hnet' hnet
  · intro hcond
    refine ⟨⟨_, hencode, ?_⟩, fun terms hperm ↦ ?_, fun term hterm hnetwork key value hsplit ↦ ?_⟩
    · by_cases hipv6 : SaysIpv6 (ascendTerms s)
      · rw [if_pos hipv6]
        obtain ⟨x, hx, hfamily⟩ := hipv6
        -- the family may as well come first
        have hfirst := foldlM_ascendTerm_perm (List.perm_cons_erase hx).symm hkeys hcond hfold
        obtain ⟨⟨t, b⟩, hstep, hrest⟩ := bind_eq_ok_iff.1 hfirst
        rw [ascendTerm_eq_ok_iff.2 (.family hfamily)] at hstep
        cases hstep
        have hwide : (AscendTerms.widen {}).Sized 16 :=
          ⟨rfl, rfl, rfl, rfl, rfl, rfl, rfl, rfl, rfl, rfl, rfl, rfl⟩
        exact (sized_of_foldlM_ipv6 hwide hrest).2.length_layout
      · rw [if_neg hipv6]
        exact (sized_of_foldlM_ipv4 hipv6 hfold).2.length_layout
    · rw [htext hperm, hencode, foldlM_ascendTerm_perm hperm hkeys hcond hfold]
    · have hipv6 : ¬ SaysIpv6 (ascendTerms s) := fun hipv6 ↦ hcond ⟨hipv6, term, hterm, hnetwork⟩
      rw [decide_eq_false hipv6]
      have hfirst := foldlM_ascendTerm_perm (List.perm_cons_erase hterm).symm hkeys hcond hfold
      obtain ⟨st₁, hstep, -⟩ := bind_eq_ok_iff.1 hfirst
      exact exists_ascendNetwork hnetwork hsplit hstep

/-- A filter for what comes from a network to a port. -/
theorem orderFree_ports : OrderFree plainEnv "src=10.0.0.0/8 dport=80 action=accept" := by
  have hterms : ascendTerms "src=10.0.0.0/8 dport=80 action=accept" =
      ["src=10.0.0.0/8".toList, "dport=80".toList, "action=accept".toList] := by decide +kernel
  have haccepted : (encodeAscendBinary plainEnv
      (.str "src=10.0.0.0/8 dport=80 action=accept")).isOk := by decide +kernel
  rcases hencode : encodeAscendBinary plainEnv (.str "src=10.0.0.0/8 dport=80 action=accept")
    with e | v
  · rw [hencode] at haccepted
    cases haccepted
  · refine (orderFree_iff ?_ (by decide +kernel) hencode).2 fun hboth ↦ ?_
    · rw [hterms]
      intro term hterm
      simp only [List.mem_cons, List.not_mem_nil, or_false] at hterm
      rcases hterm with rfl | rfl | rfl
      · exact ⟨"src".toList, "10.0.0.0/8".toList, by decide +kernel⟩
      · exact ⟨"dport".toList, "80".toList, by decide +kernel⟩
      · exact ⟨"action".toList, "accept".toList, by decide +kernel⟩
    · exact absurd hboth.1 (by decide +kernel)

/-- An IPv4 network before the family is kept, in a filter of 44 bytes. -/
theorem not_orderFree_lateFamily :
    let s := "src=10.0.0.0/8 family=ipv6"
    (encodeAscendBinary plainEnv (.str s)).isOk ∧ ((ascendTerms s).map ascendKey).Nodup ∧
      (ascendTerms s).map (split '=') =
        [["src".toList, "10.0.0.0/8".toList], ["family".toList, "ipv6".toList]] ∧
      ¬ OrderFree plainEnv s := by
  intro s
  refine ⟨by decide +kernel, by decide +kernel, by decide +kernel, fun h ↦ ?_⟩
  obtain ⟨b, hb, hlen⟩ := h.size
  rw [if_pos (by decide +kernel)] at hlen
  have hbytes : encodeAscendBinary plainEnv (.str "src=10.0.0.0/8 family=ipv6") =
      .ok (.bytes ([3, 0, 1, 0, 10, 0, 0, 0] ++ List.replicate 16 0 ++ [8] ++
        List.replicate 19 0)) := by decide +kernel
  cases hbytes.symm.trans hb
  exact absurd hlen (by decide)

end Tools

end Pyrad2
