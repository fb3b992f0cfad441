import P2PHost.Dialer

/-!
# Saving and restoring the peer table

`saveNodes` writes `[0, secret, [peer, ...]]` with one ten-item record per
Peer of `m_peers` that was connected in the last 48 hours, has a port in
`(0, 32768)`, is not this host and has a public address. `restoreNodes`
reads the version-0 record back: it replaces the host's key pair with one
built from the saved secret and parses every record, but the insertion of
the parsed Peers is commented out, so `m_peers` is never touched.

Both work on RLP items, not bytes: the byte encoding and decoding of
`RLPStream` and `RLP` lie outside these sources. `isPrivateAddress` is a
parameter, and so is the curve arithmetic behind `KeyPair(secret)`.
-/

namespace P2PHost

/-- An RLP item: a byte string or a list of items. -/
inductive RLP where
  | data (bytes : List UInt8)
  | list (items : List RLP)
  deriving Repr, Inhabited

/-- The `width` big-endian bytes of `x`. -/
def beBytes : Nat → Nat → List UInt8
  | 0, _ => []
  | width + 1, x => beBytes width (x / 256) ++ [UInt8.ofNat (x % 256)]

/-- The number big-endian bytes spell. -/
def ofBeBytes (bs : List UInt8) : Nat := bs.foldl (fun acc b => acc * 256 + b.toNat) 0

namespace RLP

/-- `append(unsigned)`: the value modulo `2^32`, in its shortest big-endian form. -/
def ofUnsigned (x : Int) : RLP := .data ((beBytes 4 (x % 2 ^ 32).toNat).dropWhile (· == 0))

/-- `append(FixedHash<n>)`: exactly `n` big-endian bytes. -/
def ofHash (n x : Nat) : RLP := .data (beBytes n x)

/-- `append(std::array<byte, n>)`: a list of `n` one-byte integers. -/
def ofByteArray (bs : List UInt8) : RLP := .list (bs.map fun b => ofUnsigned b.toNat)

/-- `itemCount()`: the items of a list, `0` for a byte string. -/
def itemCount : RLP → Nat
  | .list items => items.length
  | .data _ => 0

/-- `r[i]`: an empty item past the end. -/
def item (r : RLP) (i : Nat) : RLP :=
  match r with
  | .list items => items.getD i (.data [])
  | .data _ => .data []

/-- The items a range-for over the item visits. -/
def items : RLP → List RLP
  | .list items => items
  | .data _ => []

/-- `isInt()`: a byte string with no leading zero byte. -/
def isInt : RLP → Bool
  | .data bs => bs.head? != some 0
  | .list _ => false

/-- `toInt<T>()` for a `T` of `width` bytes: `BadCast` (`none`) unless an
integer of at most `width` bytes. -/
def toInt (width : Nat) (r : RLP) : Option Nat :=
  match r with
  | .data bs => if r.isInt && bs.length ≤ width then some (ofBeBytes bs) else none
  | .list _ => none

/-- `toHash<FixedHash<n>>()` with its default `Strict` flags: `BadCast` for a
list or for more than `n` bytes; fewer bytes are left-padded with zeros, which
keeps their big-endian value. -/
def toHash (n : Nat) : RLP → Option Nat
  | .data bs => if bs.length ≤ n then some (ofBeBytes bs) else none
  | .list _ => none

/-- `toArray<byte, n>()`: `BadCast` unless a list of `n` one-byte integers. -/
def toArray (n : Nat) (r : RLP) : Option (List Nat) :=
  match r with
  | .list items => if items.length = n then items.mapM (toInt 1) else none
  | .data _ => none

end RLP

variable {CapDesc : Type} [LinearOrder CapDesc]

/-- The saving rule of `saveNodes`, for a host with id `hostId` at time `now`. -/
def savable (isPrivateAddress : Address → Bool) (hostId : NodeId) (now : TimePoint) (n : Peer) :
    Bool :=
  decide (now - n.lastConnected < 3600 * 48 * 10 ^ 9) && decide (0 < n.endpoint.tcp.port) &&
    decide (n.endpoint.tcp.port < 32768) && decide (n.id ≠ hostId) &&
    !isPrivateAddress n.endpoint.tcp.address

/-- A time point's seconds since the epoch, as `duration_cast<seconds>` truncates them. -/
def seconds (t : TimePoint) : Int := t.tdiv (10 ^ 9)

/-- The ten-item record `saveNodes` writes for a Peer. -/
def peerRecord (n : Peer) : RLP :=
  .list [match n.endpoint.tcp.address with
      | .v4 a => RLP.ofByteArray (beBytes 4 a)
      | .v6 a => RLP.ofByteArray (beBytes 16 a),
    .ofUnsigned n.endpoint.tcp.port, .ofHash 64 n.id, .ofUnsigned 0,
    .ofUnsigned (seconds n.lastConnected), .ofUnsigned (seconds n.lastAttempted),
    .ofUnsigned n.failedAttempts, .ofUnsigned n.lastDisconnect.toCtorIdx,
    .ofUnsigned n.score, .ofUnsigned n.rating]

namespace Host

/-- `nodes()`: a copy of every Peer of `m_peers`; `none` stands for the
dereference of a null entry. -/
def nodes (h : Host CapDesc) : Option (List Peer) :=
  h.peerTable.entries.mapM fun e => e.2.map h.peerObj

/-- The loop of `saveNodes()` over the entries `es` of `m_peers`, from the
records `nodes` and the counter `count` appended so far: a savable Peer adds its
record and one to the count. `none` stands for the dereference of a null entry.
The counter is an `int`, far from its bound for any table that fits in memory. -/
def saveLoop (isPrivateAddress : Address → Bool) (now : TimePoint) (h : Host CapDesc) :
    List (NodeId × Option Ref) → List RLP → Nat → Option (List RLP × Nat)
  | [], nodes, count => some (nodes, count)
  | (_, none) :: _, _, _ => none
  | (_, some r) :: es, nodes, count =>
    if savable isPrivateAddress h.id now (h.peerObj r) then
      saveLoop isPrivateAddress now h es (nodes ++ [peerRecord (h.peerObj r)]) (count + 1)
    else saveLoop isPrivateAddress now h es nodes count

/-- `saveNodes()`. The counter only sizes the list: `appendList(count)` then
`appendRaw(nodes.out(), count)` closes a list whose payload is the records. -/
def saveNodes (isPrivateAddress : Address → Bool) (now : TimePoint) (h : Host CapDesc) :
    Option RLP := do
  let (nodes, _) ← h.saveLoop isPrivateAddress now h.peerTable.entries [] 0
  pure (.list [.ofUnsigned 0, .ofHash 32 h.keyAlias.secret, .list nodes])

theorem saveLoop_eq (isPrivateAddress : Address → Bool) (now : TimePoint) (h : Host CapDesc)
    (es : List (NodeId × Option Ref)) (ps : List Peer)
    (hps : es.mapM (fun e => e.2.map h.peerObj) = some ps) (nodes : List RLP) (count : Nat) :
    h.saveLoop isPrivateAddress now es nodes count =
      some (nodes ++ (ps.filter (savable isPrivateAddress h.id now)).map peerRecord,
        count + (ps.filter (savable isPrivateAddress h.id now)).length) := by
  induction es generalizing ps nodes count with
  | nil =>
    cases hps
    simp [saveLoop]
  | cons e es ih =>
    obtain ⟨k, _ | r⟩ := e
    · simp only [List.mapM_cons, Option.map_none', Option.bind_eq_bind, Option.none_bind,
        reduceCtorEq] at hps
    · obtain ⟨qs, hqs, rfl⟩ : ∃ qs, es.mapM (fun e => e.2.map h.peerObj) = some qs ∧
          ps = h.peerObj r :: qs := by
        simp only [List.mapM_cons, Option.map_some', Option.bind_eq_bind, Option.some_bind] at hps
        obtain ⟨qs, hqs, hps⟩ := Option.bind_eq_some.1 hps
        exact ⟨qs, hqs, (Option.some.inj hps).symm⟩
      by_cases hs : savable isPrivateAddress h.id now (h.peerObj r) = true
      · simp only [saveLoop, hs, if_true, ih qs hqs, List.filter_cons_of_pos hs, List.map_cons,
          List.length_cons, List.append_assoc, List.singleton_append]
        congr 2
        omega
      · simp only [saveLoop, hs, Bool.false_eq_true, if_false, ih qs hqs, List.filter_cons_of_neg hs]

theorem nodes_of_keyed {h : Host CapDesc}
    (keyed : ∀ k v, h.peerTable.find? k = some v → ∃ r, v = some r ∧ (h.peerObj r).id = k) :
    ∃ ps, h.nodes = some ps ∧ ps.map (fun p => p.id) = h.peerTable.keys := by
  have hmem : ∀ e ∈ h.peerTable.entries, ∃ r, e.2 = some r ∧ (h.peerObj r).id = e.1 :=
    fun e he => keyed e.1 e.2 (h.peerTable.find?_of_mem he)
  unfold nodes OrdMap.keys
  generalize h.peerTable.entries = es at hmem ⊢
  induction es with
  | nil => exact ⟨[], rfl, rfl⟩
  | cons e es ih =>
    obtain ⟨r, he, hid⟩ := hmem e (List.mem_cons_self e es)
    obtain ⟨ps, hps, hmap⟩ := ih fun e' h' => hmem e' (List.mem_cons_of_mem e h')
    exact ⟨h.peerObj r :: ps, by rw [List.mapM_cons, he, hps]; rfl, by simp [hid, hmap]⟩

/-- One record of a version-0 peer list, as `restoreNodes` reads it: its
endpoint, then its id; the Peer it would note is commented out in the source. -/
def readRecord (i : RLP) : Option Unit := do
  let _ ← if (i.item 0).itemCount = 4 then (i.item 0).toArray 4 else (i.item 0).toArray 16
  let _ ← (i.item 1).toInt 2
  let _ ← (i.item 2).toHash 64

/-- One entry of an unversioned list: its id, then, when `m_peers` has no
entry for it, its endpoint. -/
def readLegacyRecord (h : Host CapDesc) (i : RLP) : Option Unit := do
  let id ← (i.item 2).toHash 64
  if !h.peerTable.contains id then
    let _ ← if (i.item 0).itemCount = 4 then (i.item 0).toArray 4 else (i.item 0).toArray 16
    let _ ← (i.item 1).toInt 2

/-- `restoreNodes`: a `BadCast` escapes as an exception, in the state reached. -/
def restoreNodes (toPublic : Secret → NodeId) (h : Host CapDesc) (r : RLP) :
    Outcome (Host CapDesc) :=
  if 0 < r.itemCount && (r.item 0).isInt then
    match (r.item 0).toInt 4 with
    | none => .raised h
    | some 0 =>
      match (r.item 1).toHash 32 with
      | none => .raised h
      | some secret =>
        let h := { h with keyAlias := KeyPair.ofSecret toPublic secret }
        if (r.item 2).items.all fun i => (readRecord i).isSome then .ok h else .raised h
    | some _ => .ok h
  else if r.items.all fun i => (h.readLegacyRecord i).isSome then .ok h else .raised h

/-- Whatever it is given, `restoreNodes` changes nothing but the key pair. -/
theorem restoreNodes_state (toPublic : Secret → NodeId) (h : Host CapDesc) (r : RLP) :
    (h.restoreNodes toPublic r).state = { h with keyAlias := (h.restoreNodes toPublic r).state.keyAlias } := by
  unfold restoreNodes
  split_ifs <;> (try split) <;> (try split) <;> rfl

/-- A host whose one Peer (node `5` at `1.2.3.4:30303`) connected an hour ago
saves a list holding that Peer's record; restoring the list into a fresh host
brings back the saved secret and leaves `m_peers` empty. -/
theorem restoreNodes_loses_saved_peers :
    let peer : Peer := { id := 5, endpoint := { tcp := { address := .v4 0x01020304, port := 30303 } } }
    let H : Host Nat := { Host.init ⟨7, 9⟩ with
      peerTable := OrdMap.empty.insert 5 (some 0), peerObj := fun _ => peer, nextRef := 1 }
    let isPrivate : Address → Bool := fun a => a == .v4 0x0A000001
    let now : TimePoint := 3600 * 10 ^ 9
    (H.nodes.map fun ps => ps.filter (savable isPrivate H.id now)).map (·.length) = some 1 ∧
      (H.saveNodes isPrivate now).map (fun r =>
        match (Host.init ⟨0, 0⟩ : Host Nat).restoreNodes (fun s => s + 2) r with
        | .ok h' => (h'.peerTable.size, h'.keyAlias.secret)
        | .raised _ => (1, 0)) = some (0, 7) := by
  decide

/-- Nothing in `restoreNodes` catches `BadCast`: a version-0 list whose second
record has a byte string for its address raises after a well-formed first
record, and so does one whose secret is a list; an all-zero secret replaces the
key pair. -/
theorem restoreNodes_raises_on_bad_record :
    let h : Host Nat := Host.init ⟨7, 9⟩
    let toPublic : Secret → NodeId := fun s => s + 2
    let good : RLP := peerRecord { id := 5, endpoint := { tcp := { address := .v4 0x01020304, port := 30303 } } }
    (∃ h', h.restoreNodes toPublic (.list [.ofUnsigned 0, .ofHash 32 5,
        .list [good, .list [.data [1], .ofUnsigned 30303, .ofHash 64 3]]]) = .raised h') ∧
      (∃ h', h.restoreNodes toPublic (.list [.ofUnsigned 0, .list [], .list []]) = .raised h') ∧
      (h.restoreNodes toPublic (.list [.ofUnsigned 0, .ofHash 32 0, .list []])).state.keyAlias =
        ⟨0, 2⟩ :=
  ⟨⟨_, rfl⟩, ⟨_, rfl⟩, rfl⟩

end Host

end P2PHost
