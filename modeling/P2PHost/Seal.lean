import P2PHost.Persistence

/-!
# Sealing a packet

`seal` writes the magic `22 40 08 91` over a buffer's first four bytes and the
payload length `(uint32_t)size - 8`, big-endian, over the next four; the rest of
the buffer is the payload and stays as it is. The length is computed in
`uint32_t`, so it is `size - 8` exactly when that fits in 32 bits.

The source writes `_b[0]` to `_b[7]` unchecked; below eight bytes it is
undefined, and the model's `List.set` past the end leaves the list alone.
-/

namespace P2PHost

/-- `(uint32_t)_b.size() - 8`, in `uint32_t` arithmetic. -/
def sealLength (size : Nat) : Nat := (size % 2 ^ 32 + (2 ^ 32 - 8)) % 2 ^ 32

/-- `seal(bytes& _b)`. -/
def Host.seal (b : List UInt8) : List UInt8 :=
  let len := sealLength b.length
  (((((((b.set 0 0x22).set 1 0x40).set 2 0x08).set 3 0x91).set 4
    (UInt8.ofNat ((len >>> 24) &&& 0xff))).set 5 (UInt8.ofNat ((len >>> 16) &&& 0xff))).set 6
    (UInt8.ofNat ((len >>> 8) &&& 0xff))).set 7 (UInt8.ofNat (len &&& 0xff))

theorem seal_eq (b : List UInt8) (h8 : 8 ≤ b.length) :
    Host.seal b = [0x22, 0x40, 0x08, 0x91,
      UInt8.ofNat ((sealLength b.length >>> 24) &&& 0xff),
      UInt8.ofNat ((sealLength b.length >>> 16) &&& 0xff),
      UInt8.ofNat ((sealLength b.length >>> 8) &&& 0xff),
      UInt8.ofNat (sealLength b.length &&& 0xff)] ++ b.drop 8 := by
  rcases b with _ | ⟨x0, _ | ⟨x1, _ | ⟨x2, _ | ⟨x3, _ | ⟨x4, _ | ⟨x5, _ | ⟨x6, _ | ⟨x7, rest⟩⟩⟩⟩⟩⟩⟩⟩
  all_goals try simp at h8
  rfl

theorem sealByte_toNat (len k : Nat) :
    (UInt8.ofNat ((len >>> k) &&& 0xff)).toNat = len / 2 ^ k % 2 ^ 8 := by
  rw [show (UInt8.ofNat ((len >>> k) &&& 0xff)).toNat = ((len >>> k) &&& 0xff) % 2 ^ 8 from
      BitVec.toNat_ofNat _ 8, Nat.shiftRight_eq_div_pow,
    show (0xff : Nat) = 2 ^ 8 - 1 from rfl, Nat.and_pow_two_sub_one_eq_mod, Nat.mod_mod]

theorem sealByte0_toNat (len : Nat) : (UInt8.ofNat (len &&& 0xff)).toNat = len % 2 ^ 8 := by
  simpa using sealByte_toNat len 0

theorem ofBeBytes_four (a b c d : UInt8) :
    ofBeBytes [a, b, c, d] = ((a.toNat * 256 + b.toNat) * 256 + c.toNat) * 256 + d.toNat := by
  simp [ofBeBytes]

theorem ofBeBytes_sealBytes (len : Nat) (h : len < 2 ^ 32) :
    ofBeBytes [UInt8.ofNat ((len >>> 24) &&& 0xff), UInt8.ofNat ((len >>> 16) &&& 0xff),
      UInt8.ofNat ((len >>> 8) &&& 0xff), UInt8.ofNat (len &&& 0xff)] = len := by
  rw [ofBeBytes_four, sealByte_toNat, sealByte_toNat, sealByte_toNat, sealByte0_toNat]
  omega

/-- For a buffer of at least eight bytes whose payload length fits in a
`uint32_t`, `seal` keeps the length and the payload, writes the magic, and
writes a length field that reads back, big-endian, as the payload length; a
second `seal` changes nothing. -/
theorem seal_frames (b : List UInt8) (h8 : 8 ≤ b.length) (hlen : b.length - 8 < 2 ^ 32) :
    (Host.seal b).length = b.length ∧ (Host.seal b).drop 8 = b.drop 8 ∧
      (Host.seal b).take 4 = [0x22, 0x40, 0x08, 0x91] ∧
      ofBeBytes (((Host.seal b).drop 4).take 4) = b.length - 8 ∧ Host.seal (Host.seal b) = Host.seal b := by
  have hsize : (Host.seal b).length = b.length := by
    rw [seal_eq b h8]
    simp only [List.length_append, List.length_cons, List.length_nil, List.length_drop]
    omega
  have hlenEq : sealLength b.length = b.length - 8 := by
    unfold sealLength
    omega
  refine ⟨hsize, by rw [seal_eq b h8]; rfl, by rw [seal_eq b h8]; rfl, ?_, ?_⟩
  · rw [seal_eq b h8, ← hlenEq]
    exact ofBeBytes_sealBytes _ (hlenEq ▸ hlen)
  · rw [seal_eq (Host.seal b) (hsize ▸ h8), hsize, seal_eq b h8]
    rfl

/-- A ten-byte buffer: payload length `2`. -/
theorem seal_frames_ten_bytes :
    let b : List UInt8 := [0, 0, 0, 0, 0, 0, 0, 0, 7, 9]
    8 ≤ b.length ∧ b.length - 8 < 2 ^ 32 ∧
      ((Host.seal b).length = b.length ∧ (Host.seal b).drop 8 = b.drop 8 ∧
        (Host.seal b).take 4 = [0x22, 0x40, 0x08, 0x91] ∧
        ofBeBytes (((Host.seal b).drop 4).take 4) = b.length - 8 ∧ Host.seal (Host.seal b) = Host.seal b) :=
  ⟨by decide, by decide, seal_frames _ (by decide) (by decide)⟩

end P2PHost
