import Mathlib.Data.List.Sort
import Mathlib.Order.Bounds.Basic
import Pyrad2.Radsec.Server

/-!
# Which version two ends speak

RADIUS/1.1 is agreed on in the TLS handshake. Each end advertises what it is configured for, or
nothing if that is RADIUS/1.0 alone; TLS selects a protocol, or none; and from what was selected each
end draws its own conclusion.

TLS is not part of the program. Of a handshake that succeeds no more is assumed than what the code
says of it: the first protocol of the server that the client has offered is selected, and no version
of TLS below the floor of either end is used.
-/

namespace Pyrad2

/-! ### Versions in order -/

/-- The value of a version. -/
def RadiusVersion.number : RadiusVersion → ℕ
  | v1_0 => 0
  | v1_1 => 1

theorem RadiusVersion.number_injective : Function.Injective RadiusVersion.number := by
  intro u v h
  rcases u <;> rcases v <;> first | rfl | exact absurd h (by decide)

instance instPreorderRadiusVersion : Preorder RadiusVersion := Preorder.lift RadiusVersion.number

/-- The first of the elements in falling order that satisfies the predicate is the greatest one that
does. -/
theorem isGreatest_of_find?_eq_some {α : Type} [Preorder α] {p : α → Bool} {l : List α} {a : α}
    (hl : l.Pairwise (· ≥ ·)) (h : l.find? p = some a) : IsGreatest {b | b ∈ l ∧ p b = true} a := by
  refine ⟨⟨List.mem_of_find?_eq_some h, List.find?_some h⟩, ?_⟩
  rintro b ⟨hb, hpb⟩
  induction l with
  | nil => exact (List.not_mem_nil hb).elim
  | cons c l ih =>
    rw [List.pairwise_cons] at hl
    rw [List.find?_cons] at h
    rcases hc : p c
    · rw [hc] at h
      rcases List.mem_cons.1 hb with rfl | hb
      · rw [hpb] at hc
        cases hc
      · exact ih hl.2 h hb
    · rw [hc] at h
      obtain rfl : c = a := Option.some.inj h
      rcases List.mem_cons.1 hb with rfl | hb
      · exact le_refl _
      · exact hl.1 b hb

/-! ### What an end is configured for -/

/-- `ssl.TLSVersion` -/
inductive TlsVersion where
  | minimumSupported
  | maximumSupported
  | sslv3
  | tlsv1
  | tlsv1_1
  | tlsv1_2
  | tlsv1_3
  deriving DecidableEq, Repr

/-- The value of a version of TLS. -/
def TlsVersion.number : TlsVersion → ℤ
  | minimumSupported => -2
  | maximumSupported => -1
  | sslv3 => 768
  | tlsv1 => 769
  | tlsv1_1 => 770
  | tlsv1_2 => 771
  | tlsv1_3 => 772

/-- `enforce_tls_version_floor(minimum, versions)` -/
def enforceTlsVersionFloor (minimum : TlsVersion) (versions : List RadiusVersion) : TlsVersion :=
  if .v1_1 ∉ versions then minimum
  else if minimum.number < TlsVersion.tlsv1_3.number then .tlsv1_3
  else minimum

/-- `_ALPN_BY_VERSION` -/
def alpnByVersion : RadiusVersion → String
  | .v1_0 => "radius/1.0"
  | .v1_1 => "radius/1.1"

/-- `sorted(set(versions), reverse=True)` -/
def orderedVersions (versions : List RadiusVersion) : List RadiusVersion :=
  versions.dedup.insertionSort fun a b ↦ b.number ≤ a.number

/-- What `apply_alpn(ctx, versions)` sets for the context, if it sets anything. -/
def applyAlpn (versions : List RadiusVersion) : Except Exn (Option (List String)) :=
  if versions = [] then .error (.valueError "versions must contain at least one RadiusVersion")
  else if versions = [.v1_0] then .ok none
  else .ok (some ((orderedVersions versions).map alpnByVersion))

/-- What the context of an end is set to. -/
structure TlsEnd where
  minimum : TlsVersion
  protocols : Option (List String)

/-- What the constructors of `RadSecClient` and `RadSecServer` make of `radius_versions` and
`minimum_tls_version`. -/
def TlsEnd.configure (versions : List RadiusVersion) (minimum : TlsVersion) : Except Exn TlsEnd := do
  if versions = [] then throw (.valueError "radius_versions must contain at least one entry")
  return ⟨enforceTlsVersionFloor minimum versions, ← applyAlpn versions⟩

/-- **A handshake that succeeds**: no end has its floor broken, and the selected protocol is the first
one of the server that the client has offered. -/
structure Secured (client server : TlsEnd) (version : TlsVersion) (selectedAlpn : Option String) :
    Prop where
  client_le : client.minimum.number ≤ version.number
  server_le : server.minimum.number ≤ version.number
  selected_none : client.protocols = none ∨ server.protocols = none → selectedAlpn = none
  selected_first : ∀ offered accepted, client.protocols = some offered →
    server.protocols = some accepted → selectedAlpn = accepted.find? fun p ↦ p ∈ offered

/-! ### What the ends conclude -/

theorem alpnByVersion_injective : Function.Injective alpnByVersion := by
  intro u v h
  rcases u <;> rcases v <;> first | rfl | exact absurd h (by decide)

theorem mem_orderedVersions {versions : List RadiusVersion} {v : RadiusVersion} :
    v ∈ orderedVersions versions ↔ v ∈ versions := by
  rw [orderedVersions, List.mem_insertionSort, List.mem_dedup]

theorem pairwise_orderedVersions (versions : List RadiusVersion) :
    (orderedVersions versions).Pairwise (· ≥ ·) := by
  have htotal : Std.Total fun u v : RadiusVersion ↦ v.number ≤ u.number :=
    ⟨fun u v ↦ Nat.le_total v.number u.number⟩
  have htrans : IsTrans RadiusVersion fun u v ↦ v.number ≤ u.number :=
    ⟨fun _ _ _ huv hvw ↦ Nat.le_trans hvw huv⟩
  exact List.pairwise_insertionSort (fun u v : RadiusVersion ↦ v.number ≤ u.number) versions.dedup

theorem negotiate_alpnByVersion_eq_ok_iff {configured : List RadiusVersion} {u v : RadiusVersion} :
    negotiate configured (some (alpnByVersion v)) = .ok u ↔ u = v ∧ v ∈ configured := by
  have hlookup : versionByAlpn.lookup (alpnByVersion v) = some v := by
    rcases v <;> rfl
  simp only [negotiate, hlookup]
  split
  · next h => exact ⟨fun heq ↦ ⟨(Except.ok.inj heq).symm, h⟩, fun heq ↦ by rw [heq.1]⟩
  · next h => exact iff_of_false (fun heq ↦ by cases heq) fun heq ↦ h heq.2

theorem negotiate_none_eq_ok_iff {configured : List RadiusVersion} {u : RadiusVersion} :
    negotiate configured none = .ok u ↔ u = .v1_0 ∧ .v1_0 ∈ configured := by
  simp only [negotiate]
  split
  · next h => exact ⟨fun heq ↦ ⟨(Except.ok.inj heq).symm, h⟩, fun heq ↦ by rw [heq.1]⟩
  · next h => exact iff_of_false (fun heq ↦ by cases heq) fun heq ↦ h heq.2

theorem TlsEnd.configure_eq_ok {versions : List RadiusVersion} {minimum : TlsVersion} {e : TlsEnd}
    (h : TlsEnd.configure versions minimum = .ok e) :
    e.minimum = enforceTlsVersionFloor minimum versions ∧
      (versions = [.v1_0] ∧ e.protocols = none ∨
        e.protocols = some ((orderedVersions versions).map alpnByVersion)) := by
  rw [TlsEnd.configure] at h
  split at h
  · cases h
  next hne =>
  rw [applyAlpn, if_neg hne] at h
  split at h
  · next hplain =>
    cases h
    exact ⟨rfl, .inl ⟨hplain, rfl⟩⟩
  · cases h
    exact ⟨rfl, .inr rfl⟩

section

variable {clientVersions serverVersions : List RadiusVersion} {clientMinimum serverMinimum : TlsVersion}
  {client server : TlsEnd} {version : TlsVersion} {selectedAlpn : Option String}

/-- Both ends speak the same version if they speak at all, and it is the highest one that both are
configured for. -/
theorem negotiate_iff (hclient : TlsEnd.configure clientVersions clientMinimum = .ok client)
    (hserver : TlsEnd.configure serverVersions serverMinimum = .ok server)
    (h : Secured client server version selectedAlpn) (u v : RadiusVersion) :
    negotiate clientVersions selectedAlpn = .ok u ∧ negotiate serverVersions selectedAlpn = .ok v ↔
      u = v ∧ IsGreatest {w | w ∈ clientVersions ∧ w ∈ serverVersions} v := by
  -- without a selected protocol, both can only fall back on RADIUS/1.0
  have hfallback (hselected : selectedAlpn = none)
      (hcommon : ∀ w ∈ clientVersions, w ∈ serverVersions → w = .v1_0) :
      negotiate clientVersions selectedAlpn = .ok u ∧ negotiate serverVersions selectedAlpn = .ok v ↔
        u = v ∧ IsGreatest {w | w ∈ clientVersions ∧ w ∈ serverVersions} v := by
    rw [hselected, negotiate_none_eq_ok_iff, negotiate_none_eq_ok_iff]
    constructor
    · rintro ⟨⟨rfl, hc⟩, rfl, hs⟩
      refine ⟨rfl, ⟨hc, hs⟩, ?_⟩
      rintro w ⟨hwc, hws⟩
      rw [hcommon w hwc hws]
    · rintro ⟨rfl, ⟨hc, hs⟩, -⟩
      obtain rfl := hcommon u hc hs
      exact ⟨⟨rfl, hc⟩, rfl, hs⟩
  obtain ⟨-, ⟨rfl, hprotocols⟩ | hprotocols⟩ := TlsEnd.configure_eq_ok hclient
  · exact hfallback (h.selected_none (.inl hprotocols)) fun w hw _ ↦ List.mem_singleton.1 hw
  obtain ⟨-, ⟨rfl, hprotocols'⟩ | hprotocols'⟩ := TlsEnd.configure_eq_ok hserver
  · exact hfallback (h.selected_none (.inr hprotocols')) fun w _ hw ↦ List.mem_singleton.1 hw
  have hselected := h.selected_first _ _ hprotocols hprotocols'
  have hoffered (w : RadiusVersion) :
      alpnByVersion w ∈ (orderedVersions clientVersions).map alpnByVersion ↔ w ∈ clientVersions := by
    rw [List.mem_map_of_injective alpnByVersion_injective, mem_orderedVersions]
  rw [List.find?_map] at hselected
  rcases hfind : (orderedVersions serverVersions).find? ((fun p ↦ decide (p ∈
      (orderedVersions clientVersions).map alpnByVersion)) ∘ alpnByVersion) with - | w
  · rw [hfind] at hselected
    refine hfallback hselected fun w hc hs ↦ ?_
    have hnone := List.find?_eq_none.1 hfind w (mem_orderedVersions.2 hs)
    exact absurd (decide_eq_true ((hoffered w).2 hc)) hnone
  · rw [hfind] at hselected
    have hcommon : {x | x ∈ orderedVersions serverVersions ∧ ((fun p ↦ decide (p ∈
        (orderedVersions clientVersions).map alpnByVersion)) ∘ alpnByVersion) x = true} =
          {x | x ∈ clientVersions ∧ x ∈ serverVersions} := by
      ext x
      show x ∈ orderedVersions serverVersions ∧ decide (alpnByVersion x ∈
        (orderedVersions clientVersions).map alpnByVersion) = true ↔
          x ∈ clientVersions ∧ x ∈ serverVersions
      rw [decide_eq_true_iff, hoffered, mem_orderedVersions, and_comm]
    have hgreatest := isGreatest_of_find?_eq_some (pairwise_orderedVersions _) hfind
    rw [hcommon] at hgreatest
    obtain ⟨hc, hs⟩ := hgreatest.1
    obtain rfl : selectedAlpn = some (alpnByVersion w) := hselected
    rw [negotiate_alpnByVersion_eq_ok_iff, negotiate_alpnByVersion_eq_ok_iff]
    constructor
    · rintro ⟨⟨rfl, -⟩, rfl, -⟩
      exact ⟨rfl, hgreatest⟩
    · rintro ⟨rfl, hu⟩
      -- the greatest element is one alone, since versions of one value are the same
      obtain rfl : u = w :=
        RadiusVersion.number_injective (le_antisymm (hgreatest.2 hu.1) (hu.2 hgreatest.1))
      exact ⟨⟨rfl, hc⟩, rfl, hs⟩

/-- The floor of an end that is configured for RADIUS/1.1. -/
theorem tlsv1_3_le_enforceTlsVersionFloor {versions : List RadiusVersion} (h : .v1_1 ∈ versions)
    (minimum : TlsVersion) :
    TlsVersion.tlsv1_3.number ≤ (enforceTlsVersionFloor minimum versions).number := by
  rw [enforceTlsVersionFloor, if_neg (not_not.2 h)]
  split
  · exact le_refl _
  · next hfloor => exact not_lt.1 hfloor

end

/-! ### Whether they speak -/

/-- The client goes on to send requests of version `u`, and the server to answer them as of
version `v`. -/
def Speak (clientVersions : List RadiusVersion) (handshake : Handshake) (srv : RadSecServer)
    (sha256 : Bytes → Bytes) (peer : Peer) (u v : RadiusVersion) : Prop :=
  (∃ link, RadSecClient.openConnection clientVersions (.ok handshake) = .ok link ∧
    link.negotiated.version = u) ∧ srv.greet sha256 peer = .ok v

theorem exists_openConnection_iff {clientVersions : List RadiusVersion} {handshake : Handshake}
    {u : RadiusVersion} :
    (∃ link, RadSecClient.openConnection clientVersions (.ok handshake) = .ok link ∧
      link.negotiated.version = u) ↔
        negotiate clientVersions handshake.selectedAlpn = .ok u ∧
          handshake.fingerprintAllowed = true := by
  rw [RadSecClient.openConnection]
  rcases negotiate clientVersions handshake.selectedAlpn with msg | version
  · refine iff_of_false ?_ fun h ↦ by cases h.1
    rintro ⟨link, h, -⟩
    cases h
  dsimp only
  split
  · next hallowed =>
    constructor
    · rintro ⟨link, hlink, rfl⟩
      cases hlink
      exact ⟨rfl, hallowed⟩
    · rintro ⟨h, -⟩
      cases h
      exact ⟨_, rfl, rfl⟩
  · next hallowed =>
    refine iff_of_false ?_ fun h ↦ hallowed h.2
    rintro ⟨link, h, -⟩
    cases h

theorem RadSecServer.greet_eq_ok_iff {srv : RadSecServer} {sha256 : Bytes → Bytes} {peer : Peer}
    {v : RadiusVersion} : srv.greet sha256 peer = .ok v ↔
      negotiate srv.radiusVersions peer.selectedAlpn = .ok v ∧
        srv.verifyClientFingerprint sha256 peer.certificate = true := by
  rw [RadSecServer.greet]
  rcases srv.verifyClientFingerprint sha256 peer.certificate
  · simp
  · rcases negotiate srv.radiusVersions peer.selectedAlpn with msg | version <;> simp

/-- **Which certificates the allowlist of a server lets in.** Any, and none at all, if the list is
empty; otherwise those whose digest some entry of the list is read as, in upper or lower case, with or
without the name of the digest, colons and spaces. An entry with a tab or a line break in it lets in
none. -/
theorem RadSecServer.verifyClientFingerprint_iff {srv : RadSecServer} {sha256 : Bytes → Bytes}
    (hsha256 : ∀ cert, (sha256 cert).length = 32) {fingerprints : List String}
    (h : fingerprints.mapM Tools.normalizeCertFingerprint = .ok srv.allowedClientFingerprints)
    (certificate : Option Bytes) :
    srv.verifyClientFingerprint sha256 certificate = true ↔ fingerprints = [] ∨
      ∃ cert, certificate = some cert ∧ ∃ fingerprint ∈ fingerprints,
        (∀ c ∈ fingerprint.toList, Tools.isBreak c = false) ∧
          Tools.fromHex (Tools.strippedFingerprint fingerprint) = some (sha256 cert) := by
  have hempty : srv.allowedClientFingerprints.isEmpty = true ↔ fingerprints = [] := by
    rw [List.isEmpty_iff_length_eq_zero,
      ← (Except.forall₂_of_mapM_eq_ok h).length_eq, List.length_eq_zero_iff]
  rcases certificate with - | cert
  · rw [verifyClientFingerprint, hempty]
    simp
  · rw [verifyClientFingerprint, Bool.or_eq_true, hempty,
      Tools.certFingerprintMatches_iff hsha256 h]
    simp

/-- A fingerprint of zeros, as it may be configured. -/
def zerosFingerprint : String :=
  "SHA256: 00:00:00:00:00:00:00:00:00:00:00:00:00:00:00:00:" ++
    "0000000000000000 0000000000000000"

theorem RadSecServer.verifyClientFingerprint_iff_zerosFingerprint :
    RadSecServer.verifyClientFingerprint
        { allowedClientFingerprints := [String.ofList (List.replicate 64 '0')] }
        (fun _ ↦ List.replicate 32 0) (some [48]) = true ↔ [zerosFingerprint] = [] ∨
      ∃ cert : Bytes, some [48] = some cert ∧ ∃ fingerprint ∈ [zerosFingerprint],
        (∀ c ∈ fingerprint.toList, Tools.isBreak c = false) ∧
          Tools.fromHex (Tools.strippedFingerprint fingerprint) = some (List.replicate 32 0) := by
  have hnormalize : [zerosFingerprint].mapM Tools.normalizeCertFingerprint =
      .ok [String.ofList (List.replicate 64 '0')] := by
    have hstripped : Tools.strippedFingerprint zerosFingerprint = List.replicate 64 '0' := by
      decide +kernel
    rw [List.mapM_cons, Tools.normalizeCertFingerprint, hstripped]
    rfl
  exact verifyClientFingerprint_iff (fun _ ↦ rfl) hnormalize (some [48])

/-- **Two ends speak** exactly when each of them allows the certificate of the other and they have a
version in common. Then they speak the same one, the highest that they have in common, and RADIUS/1.1
is spoken over TLS 1.3 only. -/
theorem Secured.speak_iff {clientVersions : List RadiusVersion} {srv : RadSecServer}
    {clientMinimum serverMinimum version : TlsVersion} {client server : TlsEnd}
    {handshake : Handshake} {peer : Peer} (sha256 : Bytes → Bytes)
    (hclient : TlsEnd.configure clientVersions clientMinimum = .ok client)
    (hserver : TlsEnd.configure srv.radiusVersions serverMinimum = .ok server)
    (h : Secured client server version handshake.selectedAlpn)
    (hpeer : peer.selectedAlpn = handshake.selectedAlpn) (u v : RadiusVersion) :
    Speak clientVersions handshake srv sha256 peer u v ↔
      (handshake.fingerprintAllowed = true ∧
        srv.verifyClientFingerprint sha256 peer.certificate = true) ∧
      u = v ∧ IsGreatest {w | w ∈ clientVersions ∧ w ∈ srv.radiusVersions} v ∧
      (v = .v1_1 → TlsVersion.tlsv1_3.number ≤ version.number) := by
  have hfloor (hv : .v1_1 ∈ clientVersions) : TlsVersion.tlsv1_3.number ≤ version.number := by
    have hle := h.client_le
    rw [(TlsEnd.configure_eq_ok hclient).1] at hle
    exact (tlsv1_3_le_enforceTlsVersionFloor hv clientMinimum).trans hle
  rw [Speak, exists_openConnection_iff, RadSecServer.greet_eq_ok_iff, hpeer, and_and_and_comm,
    negotiate_iff hclient hserver h, and_comm]
  refine and_congr_right fun _ ↦ and_congr_right fun _ ↦ ⟨fun hv ↦ ⟨hv, ?_⟩, And.left⟩
  rintro rfl
  exact hfloor hv.1.1

/-- An end for both versions, and one whose context was left at TLS 1.2. -/
theorem Secured.speak_iff_bothVersions :
    Speak [.v1_0, .v1_1] { selectedAlpn := some "radius/1.1" } { hosts := ∅, radiusVersions := [.v1_1] }
      (fun b ↦ b) { host := "192.0.2.1", selectedAlpn := some "radius/1.1" } .v1_1 .v1_1 ↔
    (true = true ∧ true = true) ∧ RadiusVersion.v1_1 = .v1_1 ∧
      IsGreatest {w | w ∈ [RadiusVersion.v1_0, .v1_1] ∧ w ∈ [RadiusVersion.v1_1]} .v1_1 ∧
      (RadiusVersion.v1_1 = .v1_1 → TlsVersion.tlsv1_3.number ≤ TlsVersion.tlsv1_3.number) := by
  have hsecured : Secured ⟨.tlsv1_3, some ["radius/1.1", "radius/1.0"]⟩
      ⟨.tlsv1_3, some ["radius/1.1"]⟩ .tlsv1_3 (some "radius/1.1") := by
    refine ⟨le_refl _, le_refl _, fun hnone ↦ ?_, fun offered accepted hoffered haccepted ↦ ?_⟩
    · rcases hnone with hnone | hnone <;> cases hnone
    · cases hoffered
      cases haccepted
      rfl
  have hclient : TlsEnd.configure [.v1_0, .v1_1] .tlsv1_2 =
      .ok ⟨.tlsv1_3, some ["radius/1.1", "radius/1.0"]⟩ := rfl
  have hserver : TlsEnd.configure [.v1_1] .tlsv1_3 = .ok ⟨.tlsv1_3, some ["radius/1.1"]⟩ := rfl
  exact Secured.speak_iff (fun b ↦ b) hclient hserver hsecured rfl .v1_1 .v1_1

end Pyrad2
