import P2PHost.Types

/-!
# Capabilities and their message-id ranges

`m_capabilities` maps a descriptor to a capability plugin, and `caps()` lists
the descriptors in the map's key order. `registerPeer` walks the descriptor
list the remote sent and instantiates, at a running offset that starts at
`UserPacket`, every capability this host also has, advancing the offset by
the plugin's `messageCount()` in `unsigned` arithmetic.

The descriptor type is any linear order: the source's
`std::pair<std::string, u256>`, compared lexicographically, is one.
`UserPacket` is a parameter; its value is declared outside these sources.
-/

namespace P2PHost

/-- `HostCapabilityFace`, as far as `registerPeer` reads it. -/
structure HostCapability where
  messageCount : Nat
  deriving DecidableEq, Repr

variable {CapDesc : Type} [LinearOrder CapDesc]

/-- `m_capabilities`. -/
abbrev Registry (CapDesc : Type) [LinearOrder CapDesc] := OrdMap CapDesc HostCapability

/-- `registerCapability`: the plugin is stored under its descriptor, replacing
any plugin stored there before. -/
def registerCapability (r : Registry CapDesc) (d : CapDesc) (c : HostCapability) :
    Registry CapDesc :=
  r.insert d c

def caps (r : Registry CapDesc) : List CapDesc := r.keys

def haveCapability (r : Registry CapDesc) (d : CapDesc) : Bool := r.contains d

/-- The capability loop of `registerPeer` from offset `o` into the session's
map `m`: `haveCapability(i)` and the read of `m_capabilities[i]` are one lookup. -/
def instantiateCaps (r : Registry CapDesc) :
    List CapDesc → Nat → OrdMap CapDesc Nat → OrdMap CapDesc Nat
  | [], _, m => m
  | i :: rest, o, m =>
    match r.find? i with
    | some c => instantiateCaps r rest ((o + c.messageCount) % 2 ^ 32) (m.insert i o)
    | none => instantiateCaps r rest o m

/-- The number of message ids the plugin under `d` asks for; `0` off the registry. -/
def capMessageCount (r : Registry CapDesc) (d : CapDesc) : Nat :=
  ((r.find? d).map HostCapability.messageCount).getD 0

/-- The ids the loop hands out over `l`, counting every repetition. -/
def occurrenceTotal (r : Registry CapDesc) (l : List CapDesc) : Nat :=
  (l.map (capMessageCount r)).sum

/-- The sum of the registry's `messageCount()` values. -/
def registryTotal (r : Registry CapDesc) : Nat :=
  (r.entries.map fun e => e.2.messageCount).sum

theorem haveCapability_iff (r : Registry CapDesc) (d : CapDesc) :
    haveCapability r d = true ↔ ∃ c, r.find? d = some c :=
  OrdMap.contains_iff r d

theorem capMessageCount_of_find {r : Registry CapDesc} {d : CapDesc} {c : HostCapability}
    (h : r.find? d = some c) : capMessageCount r d = c.messageCount := by
  simp [capMessageCount, h]

theorem instantiateCaps_filter (r : Registry CapDesc) :
    ∀ (l : List CapDesc) (o : Nat) (m : OrdMap CapDesc Nat),
      instantiateCaps r l o m = instantiateCaps r (l.filter (haveCapability r)) o m
  | [], _, _ => rfl
  | i :: rest, o, m => by
    cases h : r.find? i with
    | none =>
      have : haveCapability r i = false := by simp [haveCapability, OrdMap.contains, h]
      simp only [instantiateCaps, h, List.filter_cons, this]
      exact instantiateCaps_filter r rest o m
    | some c =>
      have : haveCapability r i = true := (haveCapability_iff r i).2 ⟨c, h⟩
      simp only [instantiateCaps, h, List.filter_cons, this, if_true]
      exact instantiateCaps_filter r rest _ _

theorem instantiateCaps_congr {r₁ r₂ : Registry CapDesc} :
    ∀ {l : List CapDesc}, (∀ d ∈ l, (r₁.find? d).map HostCapability.messageCount =
        (r₂.find? d).map HostCapability.messageCount) →
      ∀ (o : Nat) (m : OrdMap CapDesc Nat), instantiateCaps r₁ l o m = instantiateCaps r₂ l o m
  | [], _, _, _ => rfl
  | i :: rest, same, o, m => by
    have tail := instantiateCaps_congr (l := rest) fun d hd => same d (.tail _ hd)
    have hi := same i (.head _)
    cases h₁ : r₁.find? i <;> cases h₂ : r₂.find? i <;> simp [h₁, h₂] at hi
    · simp only [instantiateCaps, h₁, h₂, tail]
    · simp only [instantiateCaps, h₁, h₂, hi, tail]

theorem instantiateCaps_find?_of_not_mem (r : Registry CapDesc) {d : CapDesc} :
    ∀ {l : List CapDesc}, d ∉ l → ∀ (o : Nat) (m : OrdMap CapDesc Nat),
      (instantiateCaps r l o m).find? d = m.find? d
  | [], _, _, _ => rfl
  | i :: rest, hd, o, m => by
    have hne : d ≠ i := fun h => hd (h ▸ .head _)
    have hrest : d ∉ rest := fun h => hd (.tail _ h)
    cases h : r.find? i <;>
      simp [instantiateCaps, h, instantiateCaps_find?_of_not_mem r hrest, hne]

theorem instantiateCaps_contains (r : Registry CapDesc) (d : CapDesc) :
    ∀ (l : List CapDesc) (o : Nat) (m : OrdMap CapDesc Nat),
      (instantiateCaps r l o m).contains d = true ↔
        m.contains d = true ∨ (d ∈ l ∧ haveCapability r d = true)
  | [], _, _ => by simp [instantiateCaps]
  | i :: rest, o, m => by
    have ih := instantiateCaps_contains r d rest
    cases h : r.find? i with
    | none =>
      have hi : ¬ haveCapability r i = true := by simp [haveCapability, OrdMap.contains, h]
      simp only [instantiateCaps, h, ih, List.mem_cons]
      by_cases hdi : d = i
      · subst hdi; simp [hi]
      · simp [hdi]
    | some c =>
      have hi : haveCapability r i = true := (haveCapability_iff r i).2 ⟨c, h⟩
      simp only [instantiateCaps, h]
      rw [ih]
      simp only [OrdMap.contains, OrdMap.find?_insert, List.mem_cons]
      by_cases hdi : d = i
      · subst hdi; simp [hi]
      · simp [hdi]

theorem caps_filter_comm (A B : Registry CapDesc) :
    (caps B).filter (haveCapability A) = (caps A).filter (haveCapability B) := by
  have mem : ∀ d, d ∈ (caps B).filter (haveCapability A) ↔ d ∈ (caps A).filter (haveCapability B) := by
    intro d
    simp only [List.mem_filter, caps, OrdMap.mem_keys, haveCapability]
    exact and_comm
  apply List.eq_of_perm_of_sorted (r := (· < ·)) _ ((B.keys_sorted).filter _) ((A.keys_sorted).filter _)
  exact (List.perm_ext_iff_of_nodup ((B.keys_sorted.nodup).filter _)
    ((A.keys_sorted.nodup).filter _)).2 mem

theorem instantiateCaps_agree (userPacket : Nat) (A B : Registry CapDesc)
    (same : ∀ d a b, A.find? d = some a → B.find? d = some b → a.messageCount = b.messageCount) :
    instantiateCaps A (caps B) (userPacket % 2 ^ 32) .empty =
        instantiateCaps B (caps A) (userPacket % 2 ^ 32) .empty ∧
      ∀ d, (instantiateCaps A (caps B) (userPacket % 2 ^ 32) .empty).contains d = true ↔
        haveCapability A d = true ∧ haveCapability B d = true := by
  constructor
  · rw [instantiateCaps_filter A, instantiateCaps_filter B, caps_filter_comm A B]
    apply instantiateCaps_congr
    intro d hd
    obtain ⟨hdA, hdB⟩ := List.mem_filter.1 hd
    obtain ⟨a, ha⟩ := (haveCapability_iff A d).1 ((OrdMap.mem_keys A d).1 hdA)
    obtain ⟨b, hb⟩ := (haveCapability_iff B d).1 hdB
    simp [ha, hb, same d a b ha hb]
  · intro d
    rw [instantiateCaps_contains, caps, OrdMap.mem_keys]
    simp [OrdMap.contains, haveCapability, and_comm]

/-- Every instance of `m` has its id range inside `[lo, hi)`. -/
def RangesWithin (r : Registry CapDesc) (lo hi : Nat) (m : OrdMap CapDesc Nat) : Prop :=
  ∀ d b, m.find? d = some b → lo ≤ b ∧ b + capMessageCount r d ≤ hi

/-- The id ranges of distinct instances of `m` do not meet. -/
def RangesDisjoint (r : Registry CapDesc) (m : OrdMap CapDesc Nat) : Prop :=
  ∀ d d' b b', d ≠ d' → m.find? d = some b → m.find? d' = some b' →
    b + capMessageCount r d ≤ b' ∨ b' + capMessageCount r d' ≤ b

theorem ranges_insert {r : Registry CapDesc} {lo o : Nat} {m : OrdMap CapDesc Nat}
    {i : CapDesc} {c : HostCapability} (hc : r.find? i = some c)
    (within : RangesWithin r lo o m) (disjoint : RangesDisjoint r m) (hlo : lo ≤ o) :
    RangesWithin r lo (o + c.messageCount) (m.insert i o) ∧ RangesDisjoint r (m.insert i o) := by
  have hci := capMessageCount_of_find hc
  constructor
  · intro d b hb
    by_cases hd : d = i
    · subst hd
      simp only [OrdMap.find?_insert, if_true, Option.some.injEq] at hb
      omega
    · simp only [OrdMap.find?_insert, hd, if_false] at hb
      have := within d b hb
      omega
  · intro d d' b b' hne hb hb'
    by_cases hd : d = i
    · subst hd
      have hd' : d' ≠ d := Ne.symm hne
      simp only [OrdMap.find?_insert, if_true, Option.some.injEq, hd', if_false] at hb hb'
      have := within d' b' hb'
      omega
    · by_cases hd' : d' = i
      · subst hd'
        simp only [OrdMap.find?_insert, if_true, Option.some.injEq, hd, if_false] at hb hb'
        have := within d b hb
        omega
      · simp only [OrdMap.find?_insert, hd, hd', if_false] at hb hb'
        exact disjoint d d' b b' hne hb hb'

theorem occurrenceTotal_cons (r : Registry CapDesc) (i : CapDesc) (l : List CapDesc) :
    occurrenceTotal r (i :: l) = capMessageCount r i + occurrenceTotal r l := by
  simp [occurrenceTotal]

theorem instantiateCaps_ranges (r : Registry CapDesc) (lo : Nat) :
    ∀ (l : List CapDesc) (o : Nat) (m : OrdMap CapDesc Nat),
      RangesWithin r lo o m → RangesDisjoint r m → lo ≤ o → o + occurrenceTotal r l < 2 ^ 32 →
      RangesWithin r lo (o + occurrenceTotal r l) (instantiateCaps r l o m) ∧
        RangesDisjoint r (instantiateCaps r l o m)
  | [], o, m, within, disjoint, _, _ => by simpa [occurrenceTotal, instantiateCaps] using ⟨within, disjoint⟩
  | i :: rest, o, m, within, disjoint, hlo, bound => by
    rw [occurrenceTotal_cons] at bound ⊢
    cases hc : r.find? i with
    | none =>
      have hzero : capMessageCount r i = 0 := by simp [capMessageCount, hc]
      simp only [instantiateCaps, hc, hzero, Nat.zero_add] at bound ⊢
      exact instantiateCaps_ranges r lo rest o m within disjoint hlo bound
    | some c =>
      rw [capMessageCount_of_find hc] at bound ⊢
      have step := ranges_insert hc within disjoint hlo
      have hmod : (o + c.messageCount) % 2 ^ 32 = o + c.messageCount := Nat.mod_eq_of_lt (by omega)
      simp only [instantiateCaps, hc, hmod]
      rw [← Nat.add_assoc]
      exact instantiateCaps_ranges r lo rest _ _ step.1 step.2 (by omega) (by omega)

theorem instantiateCaps_tiles (r : Registry CapDesc) :
    ∀ (l : List CapDesc) (o : Nat) (m : OrdMap CapDesc Nat),
      (∀ d ∈ l, haveCapability r d = true) → l.Nodup → o + occurrenceTotal r l < 2 ^ 32 →
      ∀ j (hj : j < l.length), (instantiateCaps r l o m).find? (l.get ⟨j, hj⟩) =
        some (o + ((l.take j).map (capMessageCount r)).sum)
  | [], _, _, _, _, _, j, hj => absurd hj (Nat.not_lt_zero j)
  | i :: rest, o, m, registered, nodup, bound, j, hj => by
    obtain ⟨c, hc⟩ := (haveCapability_iff r i).1 (registered i (.head _))
    have hci := capMessageCount_of_find hc
    rw [occurrenceTotal_cons, hci] at bound
    have hmod : (o + c.messageCount) % 2 ^ 32 = o + c.messageCount := Nat.mod_eq_of_lt (by omega)
    obtain ⟨hi, hrest⟩ := List.nodup_cons.1 nodup
    simp only [instantiateCaps, hc, hmod]
    cases j with
    | zero =>
      simp [instantiateCaps_find?_of_not_mem r hi]
    | succ k =>
      have := instantiateCaps_tiles r rest (o + c.messageCount) (m.insert i o)
        (fun d hd => registered d (.tail _ hd)) hrest (by omega) k (by simpa using hj)
      simp only [List.get_cons_succ, this, List.take_succ_cons, List.map_cons, List.sum_cons, hci,
        Nat.add_assoc]

theorem occurrenceTotal_filter (r : Registry CapDesc) :
    ∀ l : List CapDesc, occurrenceTotal r (l.filter (haveCapability r)) = occurrenceTotal r l
  | [] => rfl
  | i :: rest => by
    by_cases hi : haveCapability r i = true
    · simp [List.filter_cons, hi, occurrenceTotal_cons, occurrenceTotal_filter r rest]
    · have : capMessageCount r i = 0 := by
        simp [capMessageCount, haveCapability, OrdMap.contains] at hi ⊢; simp [hi]
      simp [List.filter_cons, hi, occurrenceTotal_cons, occurrenceTotal_filter r rest, this]

theorem occurrenceTotal_le_registryTotal (r : Registry CapDesc) {l : List CapDesc}
    (nodup : l.Nodup) : occurrenceTotal r l ≤ registryTotal r := by
  have keys : (r.keys.map (capMessageCount r)).sum = registryTotal r := by
    simp only [registryTotal, OrdMap.keys, List.map_map]
    congr 1
    exact List.map_congr_left fun e he => capMessageCount_of_find (r.find?_of_mem he)
  obtain ⟨l', perm, sub⟩ : List.Subperm (l.filter (haveCapability r)) r.keys :=
    List.subperm_of_subset (nodup.filter _) fun d hd =>
      (OrdMap.mem_keys r d).2 (List.mem_filter.1 hd).2
  calc occurrenceTotal r l
      = ((l.filter (haveCapability r)).map (capMessageCount r)).sum := (occurrenceTotal_filter r l).symm
    _ = (l'.map (capMessageCount r)).sum := ((perm.map _).sum_eq).symm
    _ ≤ (r.keys.map (capMessageCount r)).sum := (sub.map _).sum_le_sum fun _ _ => Nat.zero_le _
    _ = registryTotal r := keys

theorem instantiateCaps_empty_ranges (userPacket : Nat) (r : Registry CapDesc) (cs : List CapDesc)
    (bound : userPacket + occurrenceTotal r cs < 2 ^ 32) :
    RangesWithin r userPacket (userPacket + occurrenceTotal r cs)
        (instantiateCaps r cs (userPacket % 2 ^ 32) .empty) ∧
      RangesDisjoint r (instantiateCaps r cs (userPacket % 2 ^ 32) .empty) ∧
      (cs.Nodup → ∀ j (hj : j < (cs.filter (haveCapability r)).length),
        (instantiateCaps r cs (userPacket % 2 ^ 32) .empty).find?
            ((cs.filter (haveCapability r)).get ⟨j, hj⟩) =
          some (userPacket + (((cs.filter (haveCapability r)).take j).map (capMessageCount r)).sum)) ∧
      (cs.Nodup → occurrenceTotal r cs ≤ registryTotal r) := by
  have hmod : userPacket % 2 ^ 32 = userPacket := Nat.mod_eq_of_lt (by omega)
  rw [hmod]
  have ranges := instantiateCaps_ranges r userPacket cs userPacket .empty
    (fun d b h => by simp at h) (fun d d' b b' _ h => by simp at h) le_rfl bound
  refine ⟨ranges.1, ranges.2, fun nodup j hj => ?_, occurrenceTotal_le_registryTotal r⟩
  rw [instantiateCaps_filter]
  exact instantiateCaps_tiles r _ userPacket .empty (fun d hd => (List.mem_filter.1 hd).2)
    (nodup.filter _) (by rwa [occurrenceTotal_filter]) j hj

/-- A remote that repeats a descriptor pushes the `unsigned` offset past
`2^32`: under the registry bound `UserPacket + total < 2^32`, the instance of
descriptor `3` is left with base `0`, below `UserPacket = 16`. -/
theorem registerPeer_repeated_caps_wrap :
    let r : Registry Nat :=
      ((OrdMap.empty.insert 1 ⟨2 ^ 31⟩).insert 2 ⟨2 ^ 31 - 18⟩).insert 3 ⟨1⟩
    16 + registryTotal r < 2 ^ 32 ∧
      (instantiateCaps r [1, 2, 3, 3, 3] (16 % 2 ^ 32) .empty).find? 3 = some 0 := by
  decide

end P2PHost
