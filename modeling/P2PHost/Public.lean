import P2PHost.Types

/-!
# The public endpoint

`determinePublic` chooses the endpoint the host advertises, `m_tcpPublic`, and
the addresses peers may know it by, `m_peerAddresses`. The eligible interface
addresses are those that are not localhost, and private only with local
networking. The endpoint is, by the first rule that applies, the requested
address, a public IPv4 address among the eligible ones, the endpoint UPnP
maps, a private IPv4 eligible address with local networking and no requested
address, or the unspecified address. The second rule looks for a public IPv4
address but advertises the first address of `m_peerAddresses`, the least in
boost's order, where the specification picks the first public IPv4 address in
the order of the interfaces.

`m_peerAddresses` is a `std::set<bi::address>`, ordered as boost orders
addresses: IPv4 before IPv6, then by value. The address classifiers and
`Network::traverseNAT` are parameters. A requested address that does not
parse, for which `from_string` throws, is outside the model.
-/

namespace P2PHost

/-- The position of an address in boost's order: IPv4 addresses by value, then
IPv6 addresses by value. -/
def Address.key : Address → Nat
  | .v4 a => a.val
  | .v6 a => 2 ^ 32 + a.val

theorem Address.key_injective : Function.Injective Address.key := by
  rintro (a | a) (b | b) h <;> simp only [Address.key] at h
  · rw [Fin.ext h]
  · exact absurd h (Nat.ne_of_lt (Nat.lt_of_lt_of_le a.isLt (Nat.le_add_right _ _)))
  · exact absurd h.symm (Nat.ne_of_lt (Nat.lt_of_lt_of_le b.isLt (Nat.le_add_right _ _)))
  · rw [Fin.ext (Nat.add_left_cancel h)]

instance : LinearOrder Address := LinearOrder.lift' Address.key Address.key_injective

/-- `is_v4()`. -/
def Address.isV4 : Address → Bool
  | .v4 _ => true
  | .v6 _ => false

/-- `is_unspecified()`: every byte zero. -/
def Address.isUnspecified : Address → Bool
  | .v4 a => a = 0
  | .v6 a => a = 0

@[simp] theorem Address.isUnspecified_default : (default : Address).isUnspecified = true := rfl

theorem Address.isV4_of_le {a b : Address} (hab : a ≤ b) (hb : b.isV4 = true) : a.isV4 = true := by
  rcases a with a | a <;> rcases b with b | b
  · rfl
  · exact absurd hb Bool.false_ne_true
  · exact absurd (Nat.lt_of_lt_of_le b.isLt (Nat.le_add_right _ _)) (Nat.not_lt.2 hab)
  · exact absurd hb Bool.false_ne_true

/-- What `determinePublic` reads of the Host and of `Network`: the interface
addresses, `m_listenPort`, `m_netPrefs.localNetworking`, the address
classifiers, and `Network::traverseNAT`, which gives the mapped endpoint and
the interface address it mapped. -/
structure PublicEnv where
  ifAddresses : List Address
  listenPort : Int
  localNetworking : Bool
  isPrivateAddress : Address → Bool
  isLocalHostAddress : Address → Bool
  traverseNAT : List Address → Int → Endpoint × Address

namespace PublicEnv

variable (env : PublicEnv)

/-- An interface address that `m_peerAddresses` takes in. -/
def eligible (a : Address) : Bool :=
  (env.localNetworking || !env.isPrivateAddress a) && !env.isLocalHostAddress a

/-- The loop over `m_ifAddresses` that fills `m_peerAddresses`. -/
def ifPeerAddresses : OrdMap Address Unit :=
  env.ifAddresses.foldl (fun s addr => if env.eligible addr then s.insert addr () else s) .empty

/-- `m_listenPort` as the `unsigned short` port of a `bi::tcp::endpoint`. -/
def port : Nat := (env.listenPort % 2 ^ 16).toNat

theorem early_false (hif : env.ifAddresses ≠ []) (hport : 1 ≤ env.listenPort) :
    (env.ifAddresses.isEmpty || decide (env.listenPort < 1)) = false := by
  simp [List.isEmpty_iff, hif, hport]

theorem contains_foldl (l : List Address) (s : OrdMap Address Unit) (a : Address) :
    (l.foldl (fun s addr => if env.eligible addr then s.insert addr () else s) s).contains a = true ↔
      s.contains a = true ∨ a ∈ l ∧ env.eligible a = true := by
  induction l generalizing s with
  | nil => simp
  | cons x l ih =>
    rw [List.foldl_cons, ih]
    by_cases hax : a = x
    · subst hax
      split_ifs with hx <;> simp [hx]
    · split_ifs <;> simp [hax]

theorem mem_ifPeerAddresses (a : Address) :
    a ∈ env.ifPeerAddresses.keys ↔ a ∈ env.ifAddresses ∧ env.eligible a = true := by
  rw [OrdMap.mem_keys, ifPeerAddresses, contains_foldl]
  simp

theorem contains_ifPeerAddresses (a : Address) :
    env.ifPeerAddresses.contains a = true ↔ a ∈ env.ifAddresses ∧ env.eligible a = true :=
  (OrdMap.mem_keys _ a).symm.trans (env.mem_ifPeerAddresses a)

theorem any_ifPeerAddresses (p : Address → Bool) :
    env.ifPeerAddresses.keys.any p = env.ifAddresses.any fun a => env.eligible a && p a := by
  rw [Bool.eq_iff_iff, List.any_eq_true, List.any_eq_true]
  simp only [mem_ifPeerAddresses, Bool.and_eq_true, and_assoc]

theorem headD_le {x : Address} (hx : x ∈ env.ifPeerAddresses.keys) :
    env.ifPeerAddresses.keys.headD default ≤ x := by
  have sorted := env.ifPeerAddresses.keys_sorted
  generalize env.ifPeerAddresses.keys = keys at sorted hx
  rcases keys with _ | ⟨y, ys⟩
  · exact absurd hx (List.not_mem_nil x)
  · rcases List.mem_cons.1 hx with rfl | hx
    · exact le_rfl
    · exact le_of_lt (List.rel_of_sorted_cons sorted x hx)

theorem headD_mem {x : Address} (hx : x ∈ env.ifPeerAddresses.keys) :
    env.ifPeerAddresses.keys.headD default ∈ env.ifPeerAddresses.keys := by
  generalize env.ifPeerAddresses.keys = keys at hx ⊢
  rcases keys with _ | ⟨y, ys⟩
  · exact absurd hx (List.not_mem_nil x)
  · exact List.mem_cons_self y ys

/-- The UPnP block: the endpoint `traverseNAT` maps, when it and the
interface address it mapped are both specified. -/
def upnpEndpoint (upnp : Bool) : Option Endpoint :=
  if upnp then
    let (upnpep, upnpifaddr) := env.traverseNAT env.ifAddresses env.listenPort
    if !upnpep.address.isUnspecified && !upnpifaddr.isUnspecified then some upnpep else none
  else none

theorem upnpEndpoint_eq (upnp : Bool) :
    env.upnpEndpoint upnp =
      if upnp && !(env.traverseNAT env.ifAddresses env.listenPort).1.address.isUnspecified &&
          !(env.traverseNAT env.ifAddresses env.listenPort).2.isUnspecified then
        some (env.traverseNAT env.ifAddresses env.listenPort).1
      else none := by
  cases upnp <;> simp only [upnpEndpoint, Bool.false_and, Bool.true_and, Bool.and_assoc] <;> rfl

/-- The local-networking block: with no requested address, the first private
IPv4 address of `peerAddresses`. -/
def privateAddress (reqPublicAddr : Address) (peerAddresses : OrdMap Address Unit) :
    Option Address :=
  if reqPublicAddr.isUnspecified && env.localNetworking then
    peerAddresses.keys.find? fun addr => addr.isV4 && env.isPrivateAddress addr
  else none

theorem upnpEndpoint_specified {upnp : Bool} {ep : Endpoint} (h : env.upnpEndpoint upnp = some ep) :
    ep.address.isUnspecified = false := by
  rw [upnpEndpoint_eq] at h
  split_ifs at h with hc
  cases h
  simp only [Bool.and_eq_true, Bool.not_eq_true'] at hc
  exact hc.1.2

theorem privateAddress_mem {reqPublicAddr : Address} {peerAddresses : OrdMap Address Unit}
    {addr : Address} (h : env.privateAddress reqPublicAddr peerAddresses = some addr) :
    addr ∈ peerAddresses.keys := by
  unfold privateAddress at h
  split_ifs at h
  exact List.mem_of_find?_eq_some h

/-- The specification's first rule: the requested address is specified, and
public, or private with local networking. -/
def takesRequested (req : Address) : Bool :=
  !req.isUnspecified && (!env.isPrivateAddress req && !env.isLocalHostAddress req ||
    env.isPrivateAddress req && env.localNetworking)

/-- The specification's second rule: the first eligible public IPv4 address in
the order of `m_ifAddresses`. -/
def firstPublicV4 : Option Address :=
  env.ifAddresses.find? fun a => env.eligible a && (a.isV4 && !env.isPrivateAddress a)

/-- The specification's fourth rule: the first eligible private IPv4 address in
the order of `m_ifAddresses`. -/
def firstPrivateV4 : Option Address :=
  env.ifAddresses.find? fun a => env.eligible a && (a.isV4 && env.isPrivateAddress a)

/-- The second rule's address is the first of `m_peerAddresses`, the one the
code advertises, exactly when it is the least eligible address. -/
theorem headD_eq_iff {a : Address} (ha : env.firstPublicV4 = some a) :
    env.ifPeerAddresses.keys.headD default = a ↔
      ∀ b ∈ env.ifAddresses, env.eligible b = true → a ≤ b := by
  have hpa := List.find?_some ha
  simp only [Bool.and_eq_true] at hpa
  have hka : a ∈ env.ifPeerAddresses.keys :=
    (env.mem_ifPeerAddresses a).2 ⟨List.mem_of_find?_eq_some ha, hpa.1⟩
  constructor
  · rintro rfl b hb heb
    exact env.headD_le ((env.mem_ifPeerAddresses b).2 ⟨hb, heb⟩)
  · intro least
    obtain ⟨hx, hex⟩ := (env.mem_ifPeerAddresses _).1 (env.headD_mem hka)
    exact le_antisymm (env.headD_le hka) (least _ hx hex)

end PublicEnv

/-- `determinePublic(_publicAddress, _upnp)`: the new `m_tcpPublic` and
`m_peerAddresses`, from the old `m_tcpPublic`. The requested address is `none`
for the empty string. -/
def determinePublic (env : PublicEnv) (publicAddress : Option Address) (upnp : Bool)
    (tcpPublic : Endpoint) : Endpoint × OrdMap Address Unit :=
  if env.ifAddresses.isEmpty || decide (env.listenPort < 1) then (tcpPublic, .empty)
  else
    let peerAddresses := env.ifPeerAddresses
    let reqPublicAddr := publicAddress.getD default
    let isprivate := env.isPrivateAddress reqPublicAddr
    let ispublic := !isprivate && !env.isLocalHostAddress reqPublicAddr
    if !reqPublicAddr.isUnspecified && (ispublic || isprivate && env.localNetworking) then
      (⟨reqPublicAddr, env.port⟩, peerAddresses.insert reqPublicAddr ())
    else if peerAddresses.keys.any fun addr => addr.isV4 && !env.isPrivateAddress addr then
      (⟨peerAddresses.keys.headD default, env.port⟩, peerAddresses)
    else
      match env.upnpEndpoint upnp with
      | some upnpep => (upnpep, peerAddresses.insert upnpep.address ())
      | none =>
        match env.privateAddress reqPublicAddr peerAddresses with
        | some addr => (⟨addr, env.port⟩, peerAddresses)
        | none => (⟨default, env.port⟩, peerAddresses)

section Advertised

variable {S : OrdMap Address Unit} {P : Address → Prop}

theorem contains_insert_iff_advertised (hS : ∀ a, S.contains a = true ↔ P a) {b : Address}
    (hb : b.isUnspecified = false) (a : Address) :
    (S.insert b ()).contains a = true ↔ P a ∨ (a = b ∧ a.isUnspecified = false) := by
  rw [OrdMap.contains_insert, hS]
  constructor
  · rintro (rfl | h)
    · exact .inr ⟨rfl, hb⟩
    · exact .inl h
  · rintro (h | ⟨rfl, -⟩)
    · exact .inr h
    · exact .inl rfl

theorem contains_iff_advertised (hS : ∀ a, S.contains a = true ↔ P a) {b : Address}
    (hb : S.contains b = true ∨ b.isUnspecified = true) (a : Address) :
    S.contains a = true ↔ P a ∨ (a = b ∧ a.isUnspecified = false) := by
  rw [hS]
  refine ⟨.inl, ?_⟩
  rintro (h | ⟨rfl, ha⟩)
  · exact h
  · rcases hb with hb | hb
    · exact (hS a).1 hb
    · exact absurd (hb.symm.trans ha) (by decide)

end Advertised

/-- With interface addresses and a listen port, `m_peerAddresses` ends as the
eligible interface addresses and the advertised address, unless that is
unspecified. -/
theorem determinePublic_peerAddresses (env : PublicEnv) (publicAddress : Option Address)
    (upnp : Bool) (tcpPublic : Endpoint) (hif : env.ifAddresses ≠ []) (hport : 1 ≤ env.listenPort)
    (a : Address) :
    (determinePublic env publicAddress upnp tcpPublic).2.contains a = true ↔
      (a ∈ env.ifAddresses ∧ env.eligible a = true) ∨
        (a = (determinePublic env publicAddress upnp tcpPublic).1.address ∧ a.isUnspecified = false) := by
  have hS := env.contains_ifPeerAddresses
  unfold determinePublic
  simp only [env.early_false hif hport, Bool.false_eq_true, if_false]
  split_ifs with hreq hpub
  · simp only [Bool.and_eq_true, Bool.not_eq_true'] at hreq
    exact contains_insert_iff_advertised hS hreq.1 a
  · obtain ⟨x, hx, -⟩ := List.any_eq_true.1 hpub
    exact contains_iff_advertised hS (.inl ((OrdMap.mem_keys _ _).1 (env.headD_mem hx))) a
  · rcases hu : env.upnpEndpoint upnp with _ | upnpep
    · rcases hp : env.privateAddress (publicAddress.getD default) env.ifPeerAddresses with _ | addr
      · exact contains_iff_advertised hS (.inr Address.isUnspecified_default) a
      · exact contains_iff_advertised hS (.inl ((OrdMap.mem_keys _ _).1 (env.privateAddress_mem hp))) a
    · exact contains_insert_iff_advertised hS (env.upnpEndpoint_specified hu) a

/-- Without local networking, of the interfaces `11.0.0.1`, `10.0.0.1` and
`127.0.0.1` only the public one is in `m_peerAddresses`: the private one is
neither eligible nor advertised. -/
theorem determinePublic_peerAddresses_public_interface :
    let env : PublicEnv :=
      { ifAddresses := [.v4 0x0B000001, .v4 0x0A000001, .v4 0x7F000001], listenPort := 30303,
        localNetworking := false, isPrivateAddress := fun a => a.key / 2 ^ 24 = 10,
        isLocalHostAddress := fun a => a.key / 2 ^ 24 = 127, traverseNAT := fun _ _ => ({}, default) }
    env.ifAddresses ≠ [] ∧ 1 ≤ env.listenPort ∧
      (determinePublic env none false {}).2.keys = [.v4 0x0B000001] ∧
      ((determinePublic env none false {}).2.contains (.v4 0x0A000001) = true ↔
        (.v4 0x0A000001 ∈ env.ifAddresses ∧ env.eligible (.v4 0x0A000001) = true) ∨
          (.v4 0x0A000001 = (determinePublic env none false {}).1.address ∧
            (Address.v4 0x0A000001).isUnspecified = false)) := by
  intro env
  exact ⟨by decide, by decide, by decide,
    determinePublic_peerAddresses env none false {} (by decide) (by decide) (.v4 0x0A000001)⟩

/-- The rule table as the specification states it: whether the first rule that
applies gives the endpoint `ep`. The second and fourth rules pick the first
address of their kind in the order of `m_ifAddresses`; every rule but the third
gives the port `m_listenPort`. -/
def specAllowsTcpPublic (env : PublicEnv) (publicAddress : Option Address) (upnp : Bool)
    (ep : Endpoint) : Bool :=
  let req := publicAddress.getD default
  let nat := env.traverseNAT env.ifAddresses env.listenPort
  let listening := decide ((ep.port : Int) = env.listenPort)
  if env.takesRequested req then listening && ep.address == req
  else match env.firstPublicV4 with
    | some a => listening && ep.address == a
    | none =>
      if upnp && !nat.1.address.isUnspecified && !nat.2.isUnspecified then ep == nat.1
      else match env.localNetworking, env.firstPrivateV4 with
        | true, some a => listening && ep.address == a
        | _, _ => listening && ep.address == default

/-- Without local networking, and for a listen port that is a port number, the
specification's table gives the endpoint `determinePublic` advertises exactly
when the requested address is taken, or the first public IPv4 interface
address, which the second rule picks, is also the least eligible address in
boost's order, which the code advertises. -/
theorem determinePublic_allowed_without_localNetworking (env : PublicEnv)
    (publicAddress : Option Address) (upnp : Bool) (tcpPublic : Endpoint)
    (hif : env.ifAddresses ≠ []) (hport : 1 ≤ env.listenPort) (hport' : env.listenPort < 2 ^ 16)
    (hlocal : env.localNetworking = false) :
    specAllowsTcpPublic env publicAddress upnp (determinePublic env publicAddress upnp tcpPublic).1 = true ↔
      env.takesRequested (publicAddress.getD default) = true ∨
        ∀ a ∈ env.firstPublicV4, ∀ b ∈ env.ifAddresses, env.eligible b = true → a ≤ b := by
  have listening : ((env.port : Nat) : Int) = env.listenPort := by
    unfold PublicEnv.port
    rw [Int.emod_eq_of_lt (by omega) hport', Int.toNat_of_nonneg (by omega)]
  unfold determinePublic
  simp only [env.early_false hif hport, Bool.false_eq_true, if_false, env.any_ifPeerAddresses]
  split_ifs with hreq hpub
  · have ht : env.takesRequested (publicAddress.getD default) = true := hreq
    refine iff_of_true ?_ (.inl ht)
    simp [specAllowsTcpPublic, ht, listening]
  · have ht : env.takesRequested (publicAddress.getD default) = false := by
      simpa only [Bool.not_eq_true] using hreq
    obtain ⟨a, ha⟩ := Option.isSome_iff_exists.1 (List.find?_isSome.2 (List.any_eq_true.1 hpub))
    change env.firstPublicV4 = some a at ha
    simp only [ht, ha, Bool.false_eq_true, false_or, Option.mem_def, Option.some.injEq, forall_eq',
      ← env.headD_eq_iff ha]
    simp [specAllowsTcpPublic, ht, ha, listening]
  · have ht : env.takesRequested (publicAddress.getD default) = false := by
      simpa only [Bool.not_eq_true] using hreq
    have hnone : env.firstPublicV4 = none := by
      simpa only [PublicEnv.firstPublicV4, List.find?_eq_none, Bool.not_eq_true, List.any_eq_false]
        using hpub
    refine iff_of_true ?_ (.inr (by simp [hnone]))
    have hnat := env.upnpEndpoint_eq upnp
    rcases hu : env.upnpEndpoint upnp with _ | upnpep <;> rw [hu] at hnat <;> split_ifs at hnat with hc
    · simp only [specAllowsTcpPublic, ht, hnone, if_neg hc, hlocal]
      simp [PublicEnv.privateAddress, hlocal, listening]
    · cases hnat
      simp only [specAllowsTcpPublic, ht, hnone, if_pos hc]
      simp

/-- Without local networking, the interfaces `12.0.0.1` and `11.0.0.1`, in that
order, give `11.0.0.1:30303`, the least of `m_peerAddresses`, where the table's
second rule picks `12.0.0.1`, the first scanned. -/
theorem determinePublic_allowed_descending_interfaces :
    let env : PublicEnv :=
      { ifAddresses := [.v4 0x0C000001, .v4 0x0B000001], listenPort := 30303,
        localNetworking := false, isPrivateAddress := fun a => a.key / 2 ^ 24 = 10,
        isLocalHostAddress := fun a => a.key / 2 ^ 24 = 127, traverseNAT := fun _ _ => ({}, default) }
    env.ifAddresses ≠ [] ∧ 1 ≤ env.listenPort ∧ env.listenPort < 2 ^ 16 ∧ env.localNetworking = false ∧
      (determinePublic env none false {}).1 = ⟨.v4 0x0B000001, 30303⟩ ∧
      env.firstPublicV4 = some (.v4 0x0C000001) ∧
      (specAllowsTcpPublic env none false (determinePublic env none false {}).1 = true ↔
        env.takesRequested ((none : Option Address).getD default) = true ∨
          ∀ a ∈ env.firstPublicV4, ∀ b ∈ env.ifAddresses, env.eligible b = true → a ≤ b) ∧
      specAllowsTcpPublic env none false (determinePublic env none false {}).1 = false := by
  intro env
  exact ⟨by decide, by decide, by decide, rfl, by decide, by decide,
    determinePublic_allowed_without_localNetworking env none false {} (by decide) (by decide)
      (by decide) rfl, by decide⟩

/-- With local networking, interfaces at the public `11.0.0.1` and the private
`10.0.0.1`, no requested address and no UPnP, `determinePublic` finds the
public IPv4 address but advertises the private one, the first of
`m_peerAddresses`; the specification's table allows the public one and not
that. With no interface address at all, a requested public address is not
taken, and `m_tcpPublic` stays as it was. -/
theorem determinePublic_advertises_private_address :
    let env : PublicEnv :=
      { ifAddresses := [.v4 0x0B000001, .v4 0x0A000001], listenPort := 30303,
        localNetworking := true, isPrivateAddress := fun a => a.key / 2 ^ 24 = 10,
        isLocalHostAddress := fun a => a.key / 2 ^ 24 = 127, traverseNAT := fun _ _ => ({}, default) }
    (determinePublic env none false {}).1 = ⟨.v4 0x0A000001, 30303⟩ ∧
      specAllowsTcpPublic env none false (determinePublic env none false {}).1 = false ∧
      specAllowsTcpPublic env none false ⟨.v4 0x0B000001, 30303⟩ = true ∧
      (determinePublic { env with ifAddresses := [] } (some (.v4 0x0B000001)) false
        ⟨.v4 0x0C000001, 4000⟩).1 = ⟨.v4 0x0C000001, 4000⟩ := by
  decide

end P2PHost
