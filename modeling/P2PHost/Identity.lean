import P2PHost.Persistence

/-!
# The host's identity

`getHostIdentifier` reads `<data_dir>/host`. A file of exactly 32 bytes is the
secret; anything else, a missing file included (`contents` then gives no
bytes), is replaced by 32 bytes drawn from a generator seeded with the wall
clock and the high-resolution clock. A zero secret throws `InvalidState`. The
file is read and never written, so a drawn secret lives as long as the `Host`.

The data directory's file is the state; the generator is a parameter, the
`i`-th value it draws for the seed the call sees.
-/

namespace P2PHost

variable {CapDesc : Type} [LinearOrder CapDesc]

namespace Host

/-- `getHostIdentifier()`: the key pair, or `none` for `InvalidState`, and the
`host` file as the call leaves it. -/
def getHostIdentifier (toPublic : Secret → NodeId) (draw : Nat → UInt8) (file : List UInt8) :
    Option KeyPair × List UInt8 :=
  let secret := if file.length = 32 then ofBeBytes file else ofBeBytes ((List.range 32).map draw)
  (if secret = 0 then none else some (KeyPair.ofSecret toPublic secret), file)

/-- `Host::Host`: the host with the identity `getHostIdentifier` gives, or the
exception it throws. -/
def create (toPublic : Secret → NodeId) (draw : Nat → UInt8) (file : List UInt8) :
    Option (Host CapDesc) × List UInt8 :=
  let (key, file) := getHostIdentifier toPublic draw file
  (key.map Host.init, file)

theorem getHostIdentifier_spec (toPublic : Secret → NodeId) (draw : Nat → UInt8)
    (file : List UInt8) :
    (getHostIdentifier toPublic draw file).2 = file ∧
      (file.length = 32 → ∀ draw' : Nat → UInt8,
        (getHostIdentifier toPublic draw' file).1 = (getHostIdentifier toPublic draw file).1) := by
  refine ⟨rfl, fun h32 draw' => ?_⟩
  simp only [getHostIdentifier, h32, if_true]

/-- Two constructions with no `host` file, at times whose seeds draw different
bytes: the first leaves no file behind, and the second host has another id. -/
theorem host_id_lost_on_restart :
    let toPublic : Secret → NodeId := fun s => s + 2
    let first : Option (Host Nat) × List UInt8 := create toPublic (fun _ => 1) []
    let second : Option (Host Nat) × List UInt8 := create toPublic (fun _ => 2) first.2
    first.2 = [] ∧ (first.1.map Host.id).isSome ∧ (second.1.map Host.id).isSome ∧
      first.1.map Host.id ≠ second.1.map Host.id := by
  decide

end Host

end P2PHost
