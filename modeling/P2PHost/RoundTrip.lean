import P2PHost.Persistence

/-!
# Saving and restoring, read back

What `saveNodes` writes, `restoreNodes` reads: every integer, hash and byte
array the writer appends reads back through the `RLP` accessors the reader
uses, every record the writer emits passes the reader's checks, and the
version-0 list as a whole is accepted without an exception, bringing back the
saved secret. The byte encoding of `RLPStream::out` and `RLP(bytes)` is outside
the sources, so the round trip is over RLP items.
-/

namespace P2PHost

@[simp] theorem length_beBytes (w x : Nat) : (beBytes w x).length = w := by
  induction w generalizing x with
  | zero => rfl
  | succ w ih => simp [beBytes, ih]

theorem ofBeBytes_append_byte (bs : List UInt8) (b : UInt8) :
    ofBeBytes (bs ++ [b]) = ofBeBytes bs * 256 + b.toNat := by
  simp [ofBeBytes, List.foldl_append]

theorem toNat_ofNat_mod (x : Nat) : (UInt8.ofNat (x % 256)).toNat = x % 256 :=
  UInt8.toNat_ofNat_of_lt (Nat.mod_lt x (by decide))

theorem ofBeBytes_beBytes (w x : Nat) : ofBeBytes (beBytes w x) = x % 256 ^ w := by
  induction w generalizing x with
  | zero => simp [beBytes, ofBeBytes, Nat.mod_one]
  | succ w ih =>
    rw [beBytes, ofBeBytes_append_byte, ih, toNat_ofNat_mod, Nat.pow_succ', Nat.mod_mul]
    omega

theorem ofBeBytes_zero_cons (bs : List UInt8) : ofBeBytes (0 :: bs) = ofBeBytes bs := rfl

theorem ofBeBytes_dropWhile_zero (bs : List UInt8) :
    ofBeBytes (bs.dropWhile (· == 0)) = ofBeBytes bs := by
  induction bs with
  | nil => rfl
  | cons b bs ih =>
    by_cases hb : b = 0
    · subst hb
      rw [List.dropWhile_cons_of_pos (by decide), ih, ofBeBytes_zero_cons]
    · rw [List.dropWhile_cons_of_neg (by simpa using hb)]

theorem beBytes_add (m k x : Nat) (hx : x < 256 ^ k) :
    beBytes (m + k) x = List.replicate m 0 ++ beBytes k x := by
  induction k generalizing x with
  | zero =>
    obtain rfl : x = 0 := by simpa using hx
    induction m with
    | zero => rfl
    | succ m ih => rw [Nat.add_zero] at ih ⊢; simp [beBytes, ih, List.replicate_succ']
  | succ k ih =>
    rw [← Nat.add_assoc, beBytes, beBytes, ih (x / 256) (Nat.div_lt_of_lt_mul (by rwa [← Nat.pow_succ'])),
      List.append_assoc]

namespace RLP

theorem isInt_ofUnsigned (x : Int) : (ofUnsigned x).isInt = true := by
  have lead := List.head?_dropWhile_not (· == (0 : UInt8)) (beBytes 4 (x % 2 ^ 32).toNat)
  unfold ofUnsigned isInt
  generalize (beBytes 4 (x % 2 ^ 32).toNat).dropWhile (· == 0) = bs at lead ⊢
  cases bs with
  | nil => rfl
  | cons b bs => simpa using lead

theorem toInt_ofUnsigned {w x : Nat} (hw : w ≤ 4) (hx : x < 256 ^ w) :
    (ofUnsigned x).toInt w = some x := by
  have h32 : x < 2 ^ 32 := lt_of_lt_of_le hx ((Nat.pow_le_pow_right (by decide) hw).trans (by decide))
  have hx32 : ((x : Int) % 2 ^ 32).toNat = x := by
    rw [Int.emod_eq_of_lt (by omega) (by exact_mod_cast h32)]
    rfl
  have hbytes : beBytes 4 x = List.replicate (4 - w) 0 ++ beBytes w x := by
    rw [← beBytes_add _ _ _ hx, Nat.sub_add_cancel hw]
  have hint := isInt_ofUnsigned x
  unfold ofUnsigned at hint ⊢
  rw [hx32] at hint ⊢
  have hval : ofBeBytes ((beBytes 4 x).dropWhile (· == 0)) = x := by
    rw [ofBeBytes_dropWhile_zero, ofBeBytes_beBytes, Nat.mod_eq_of_lt (by simpa using h32)]
  have hlen : ((beBytes 4 x).dropWhile (· == 0)).length ≤ w := by
    rw [hbytes, List.dropWhile_append_of_pos (by simp [List.mem_replicate])]
    exact (List.dropWhile_sublist _).length_le.trans (length_beBytes w x).le
  generalize (beBytes 4 x).dropWhile (· == 0) = bs at hint hval hlen
  simp only [toInt, hint, Bool.true_and, hlen, decide_True, if_true, hval]

theorem toHash_ofHash (n x : Nat) : (ofHash n x).toHash n = some (x % 256 ^ n) := by
  simp [ofHash, toHash, ofBeBytes_beBytes]

theorem toArray_ofByteArray (bs : List UInt8) :
    (ofByteArray bs).toArray bs.length = some (bs.map UInt8.toNat) := by
  have byte : ∀ b : UInt8, (ofUnsigned b.toNat).toInt 1 = some b.toNat :=
    fun b => toInt_ofUnsigned (by decide) (by simpa using b.toNat_lt)
  simp only [ofByteArray, toArray, List.length_map, if_true]
  induction bs with
  | nil => rfl
  | cons b bs ih =>
    rw [List.map_cons, List.mapM_cons, byte, ih]
    rfl

end RLP

@[simp] theorem itemCount_ofByteArray (bs : List UInt8) : (RLP.ofByteArray bs).itemCount = bs.length := by
  simp [RLP.ofByteArray, RLP.itemCount]

theorem readRecord_peerRecord (n : Peer) (hport : n.endpoint.tcp.port < 2 ^ 16) :
    Host.readRecord (peerRecord n) = some () := by
  have port : (RLP.ofUnsigned n.endpoint.tcp.port).toInt 2 = some n.endpoint.tcp.port :=
    RLP.toInt_ofUnsigned (by decide) (by simpa using hport)
  have array : ∀ w x, (RLP.ofByteArray (beBytes w x)).toArray w = some ((beBytes w x).map UInt8.toNat) :=
    fun w x => by simpa using RLP.toArray_ofByteArray (beBytes w x)
  unfold Host.readRecord peerRecord
  rcases n.endpoint.tcp.address with a | a <;> simp [RLP.item, array, port, RLP.toHash_ofHash]

variable {CapDesc : Type} [LinearOrder CapDesc]

theorem saveLoop_records {isPrivateAddress : Address → Bool} {now : TimePoint} {h : Host CapDesc}
    {es : List (NodeId × Option Ref)} {nodes nodes' : List RLP} {count count' : Nat}
    (hs : h.saveLoop isPrivateAddress now es nodes count = some (nodes', count')) :
    ∀ r ∈ nodes', r ∈ nodes ∨ ∃ p, savable isPrivateAddress h.id now p = true ∧ r = peerRecord p := by
  induction es generalizing nodes count with
  | nil =>
    cases hs
    exact fun r hr => .inl hr
  | cons e es ih =>
    obtain ⟨k, _ | q⟩ := e
    · cases hs
    · simp only [Host.saveLoop] at hs
      split_ifs at hs with hq
      · intro r hr
        rcases ih hs r hr with hr | hr
        · rcases List.mem_append.1 hr with hr | hr
          · exact .inl hr
          · exact .inr ⟨_, hq, List.mem_singleton.1 hr⟩
        · exact .inr hr
      · exact ih hs

theorem port_lt_of_savable {isPrivateAddress : Address → Bool} {hostId : NodeId} {now : TimePoint}
    {p : Peer} (hp : savable isPrivateAddress hostId now p = true) : p.endpoint.tcp.port < 2 ^ 16 := by
  simp only [savable, Bool.and_eq_true, decide_eq_true_eq] at hp
  omega

/-- Whatever `saveNodes` writes, `restoreNodes` reads on any host without an
exception: the list is version 0, every record passes the reader's checks,
and the host takes the saved secret as its key pair, with nothing else changed. -/
theorem restoreNodes_saveNodes (toPublic : Secret → NodeId) (isPrivateAddress : Address → Bool)
    (now : TimePoint) (h h' : Host CapDesc) (r : RLP)
    (hsave : h.saveNodes isPrivateAddress now = some r) (hsecret : h.keyAlias.secret < 2 ^ 256) :
    h'.restoreNodes toPublic r = .ok { h' with keyAlias := KeyPair.ofSecret toPublic h.keyAlias.secret } := by
  unfold Host.saveNodes at hsave
  obtain ⟨⟨nodes, count⟩, hloop, hr⟩ := Option.bind_eq_some.1 hsave
  cases hr
  have read : ∀ i ∈ nodes, (Host.readRecord i).isSome = true := fun i hi => by
    rcases saveLoop_records hloop i hi with hi | ⟨p, hp, rfl⟩
    · exact absurd hi (List.not_mem_nil i)
    · rw [readRecord_peerRecord p (port_lt_of_savable hp)]
      rfl
  have version : (RLP.ofUnsigned 0).toInt 4 = some 0 := RLP.toInt_ofUnsigned (by decide) (by decide)
  have secret : (RLP.ofHash 32 h.keyAlias.secret).toHash 32 = some h.keyAlias.secret := by
    rw [RLP.toHash_ofHash, Nat.mod_eq_of_lt (by simpa using hsecret)]
  simp [Host.restoreNodes, RLP.itemCount, RLP.item, RLP.items, RLP.isInt_ofUnsigned, version, secret,
    List.all_eq_true.2 read]

/-- A host whose one Peer connected an hour ago, saved and restored into a
fresh host. -/
theorem restoreNodes_saveNodes_one_peer :
    let peer : Peer := { id := 5, endpoint := { tcp := { address := .v4 0x01020304, port := 30303 } } }
    let H : Host Nat := { Host.init ⟨7, 9⟩ with
      peerTable := OrdMap.empty.insert 5 (some 0), peerObj := fun _ => peer, nextRef := 1 }
    let isPrivate : Address → Bool := fun a => a == .v4 0x0A000001
    let now : TimePoint := 3600 * 10 ^ 9
    let saved : RLP := .list [.ofUnsigned 0, .ofHash 32 7, .list [peerRecord peer]]
    H.saveNodes isPrivate now = some saved ∧ H.keyAlias.secret < 2 ^ 256 ∧
      (Host.init ⟨0, 0⟩ : Host Nat).restoreNodes (fun s => s + 2) saved =
        .ok { (Host.init ⟨0, 0⟩ : Host Nat) with
          keyAlias := KeyPair.ofSecret (fun s => s + 2) H.keyAlias.secret } :=
  ⟨rfl, by decide, restoreNodes_saveNodes (fun s => s + 2) (fun a => a == .v4 0x0A000001) (3600 * 10 ^ 9)
    _ _ _ (by exact rfl) (by decide)⟩

end P2PHost
