import DatrixOps.Notifier.Dial

/-! Which addresses pass for public ones. The classes of Go's library are not all of the blocks that are not
    globally reachable, and none of them looks into an address that embeds another. -/

namespace DatrixOps
namespace PublicAddress
open Golang Notifier

/-! ### Blocks -/

/-- The addresses that share the first bits of one. -/
structure Block where
  base : Nat
  length : Nat
  deriving DecidableEq

/-- The address of four bytes. -/
def ipv4 (a b c d : Nat) : Nat := ((a * 256 + b) * 256 + c) * 256 + d

/-- The address that begins with some groups of 16 bits. -/
def ipv6 (groups : List Nat) : Nat := groups.foldl (fun n g => 65536 * n + g) 0 * 65536 ^ (8 - groups.length)

/-- The address begins with the bits of the block, `width` being the bits of an address. -/
def Block.has (width : Nat) (block : Block) (n : Nat) : Bool :=
  n / 2 ^ (width - block.length) = block.base / 2 ^ (width - block.length)

/-- The address is in one of the blocks. -/
def within (width : Nat) (blocks : List Block) (n : Nat) : Bool := blocks.any (·.has width n)

/-- The blocks of IPv4 that are not globally reachable. -/
def reservedIPv4 : List Block :=
  [⟨ipv4 0 0 0 0, 8⟩, ⟨ipv4 10 0 0 0, 8⟩, ⟨ipv4 100 64 0 0, 10⟩, ⟨ipv4 127 0 0 0, 8⟩, ⟨ipv4 169 254 0 0, 16⟩,
    ⟨ipv4 172 16 0 0, 12⟩,
    ⟨ipv4 192 0 0 0, 24⟩, ⟨ipv4 192 0 2 0, 24⟩, ⟨ipv4 192 168 0 0, 16⟩, ⟨ipv4 198 18 0 0, 15⟩, ⟨ipv4 198 51 100 0, 24⟩,
    ⟨ipv4 203 0 113 0, 24⟩, ⟨ipv4 224 0 0 0, 4⟩, ⟨ipv4 240 0 0 0, 4⟩]

/-- The parts of them that are reachable all the same. -/
def reachableIPv4 : List Block := [⟨ipv4 192 0 0 9, 32⟩, ⟨ipv4 192 0 0 10, 32⟩]

/-- The blocks of IPv6 that are not globally reachable. -/
def reservedIPv6 : List Block :=
  [⟨ipv6 [0, 0, 0, 0, 0, 0, 0, 0], 128⟩, ⟨ipv6 [0, 0, 0, 0, 0, 0, 0, 1], 128⟩, ⟨ipv6 [0x64, 0xff9b, 1], 48⟩,
    ⟨ipv6 [0x100], 64⟩,
    ⟨ipv6 [0x100, 0, 0, 1], 64⟩, ⟨ipv6 [0x2001], 23⟩, ⟨ipv6 [0x2001, 0xdb8], 32⟩, ⟨ipv6 [0x3fff], 20⟩,
    ⟨ipv6 [0x5f00], 16⟩,
    ⟨ipv6 [0xfc00], 7⟩, ⟨ipv6 [0xfe80], 10⟩, ⟨ipv6 [0xff00], 8⟩]

/-- The parts of them that are reachable all the same. -/
def reachableIPv6 : List Block :=
  [⟨ipv6 [0x2001], 32⟩, ⟨ipv6 [0x2001, 1, 0, 0, 0, 0, 0, 1], 128⟩, ⟨ipv6 [0x2001, 1, 0, 0, 0, 0, 0, 2], 128⟩,
    ⟨ipv6 [0x2001, 1, 0, 0, 0, 0, 0, 3], 128⟩, ⟨ipv6 [0x2001, 3], 32⟩, ⟨ipv6 [0x2001, 4, 0x112], 48⟩,
    ⟨ipv6 [0x2001, 0x20], 28⟩,
    ⟨ipv6 [0x2001, 0x30], 28⟩]

/-- The addresses that NAT64 embeds IPv4 ones in. -/
def nat64 : Block := ⟨ipv6 [0x64, 0xff9b], 96⟩

/-- The IPv4 address is not globally reachable. -/
def ReservedIPv4 (v : Nat) : Prop := within 32 reservedIPv4 v = true ∧ within 32 reachableIPv4 v = false

/-- The IPv6 address is not globally reachable. -/
def ReservedIPv6 (n : Nat) : Prop := within 128 reservedIPv6 n = true ∧ within 128 reachableIPv6 n = false

/-- The last 32 bits. -/
def embedded (ip : IP) : Nat := ip.bits.toNat % 2 ^ 32

/-- The address, or the one it embeds, is not globally reachable. -/
def Reserved (ip : IP) : Prop :=
  if ip.isIPv4 then ReservedIPv4 (embedded ip)
  else ReservedIPv6 ip.bits.toNat ∨ nat64.has 128 ip.bits.toNat = true ∧ ReservedIPv4 (embedded ip)

/-! ### What the code does not notice -/

/-- The blocks of IPv4 that the code takes for public. -/
def unnoticedIPv4 : List Block :=
  [⟨ipv4 0 0 0 0, 8⟩, ⟨ipv4 100 64 0 0, 10⟩, ⟨ipv4 192 0 0 0, 24⟩, ⟨ipv4 192 0 2 0, 24⟩, ⟨ipv4 198 18 0 0, 15⟩,
    ⟨ipv4 198 51 100 0, 24⟩,
    ⟨ipv4 203 0 113 0, 24⟩, ⟨ipv4 240 0 0 0, 4⟩]

/-- The blocks of IPv6 that the code takes for public. -/
def unnoticedIPv6 : List Block :=
  [⟨ipv6 [0x64, 0xff9b, 1], 48⟩, ⟨ipv6 [0x100], 64⟩, ⟨ipv6 [0x100, 0, 0, 1], 64⟩, ⟨ipv6 [0x2001], 23⟩,
    ⟨ipv6 [0x2001, 0xdb8], 32⟩,
    ⟨ipv6 [0x3fff], 20⟩, ⟨ipv6 [0x5f00], 16⟩]

/-- The IPv4 address is reserved, and none of the library's classes covers it. -/
def UnnoticedIPv4 (v : Nat) : Prop :=
  v ≠ ipv4 0 0 0 0 ∧ v ≠ ipv4 255 255 255 255 ∧ within 32 unnoticedIPv4 v = true ∧ within 32 reachableIPv4 v = false

/-- The IPv6 address is reserved, and none of the library's classes covers it. -/
def UnnoticedIPv6 (n : Nat) : Prop := within 128 unnoticedIPv6 n = true ∧ within 128 reachableIPv6 n = false

/-- The address is in a block that none of the library's classes covers, or embeds a reserved one for NAT64. -/
def Unnoticed (ip : IP) : Prop :=
  if ip.isIPv4 then UnnoticedIPv4 (embedded ip)
  else UnnoticedIPv6 ip.bits.toNat ∨ nat64.has 128 ip.bits.toNat = true ∧ ReservedIPv4 (embedded ip)

/-- The blocks of IPv4 that the library's classes cover. -/
def refusedIPv4 : List Block :=
  [⟨ipv4 0 0 0 0, 32⟩, ⟨ipv4 10 0 0 0, 8⟩, ⟨ipv4 127 0 0 0, 8⟩, ⟨ipv4 169 254 0 0, 16⟩, ⟨ipv4 172 16 0 0, 12⟩,
    ⟨ipv4 192 168 0 0, 16⟩,
    ⟨ipv4 224 0 0 0, 4⟩, ⟨ipv4 255 255 255 255, 32⟩]

/-- The blocks of IPv6 that the library's classes cover. -/
def refusedIPv6 : List Block :=
  [⟨ipv6 [0, 0, 0, 0, 0, 0, 0, 0], 128⟩, ⟨ipv6 [0, 0, 0, 0, 0, 0, 0, 1], 128⟩, ⟨ipv6 [0xfc00], 7⟩, ⟨ipv6 [0xfe80], 10⟩,
    ⟨ipv6 [0xff00], 8⟩]

variable {v n : Nat} {ip : IP}

theorem within_cons {width : Nat} {block : Block} {blocks : List Block} :
    within width (block :: blocks) n = true ↔ n / 2 ^ (width - block.length) = block.base / 2 ^ (width - block.length) ∨
      within width blocks n = true := by
  simp [within, Block.has]

theorem within_nil {width : Nat} : within width [] n = false := rfl

theorem within_append {width : Nat} {blocks blocks' : List Block} :
    within width (blocks ++ blocks') n = true ↔ within width blocks n = true ∨ within width blocks' n = true := by
  rw [within, List.any_append, Bool.or_eq_true]
  rfl

theorem within_of_subset {width : Nat} {blocks blocks' : List Block} (sub : blocks ⊆ blocks')
    (h : within width blocks n = true) :
    within width blocks' n = true := by
  obtain ⟨block, member, has⟩ := List.any_eq_true.mp h
  exact List.any_eq_true.mpr ⟨block, sub member, has⟩

theorem refusedIPv4_iff : within 32 refusedIPv4 v = true ↔ v = 0 ∨ v / 2 ^ 24 = 10 ∨ v / 2 ^ 24 = 127 ∨
    v / 2 ^ 16 = 0xa9fe ∨
    v / 2 ^ 20 = 0xac1 ∨ v / 2 ^ 16 = 0xc0a8 ∨ v / 2 ^ 28 = 14 ∨ v = 0xffffffff := by
  simp [refusedIPv4, within_cons, within_nil, ipv4]

theorem refusedIPv6_iff : within 128 refusedIPv6 n = true ↔ n = 0 ∨ n = 1 ∨ n / 2 ^ 121 = 0x7e ∨ n / 2 ^ 118 = 0x3fa ∨
    n / 2 ^ 120 = 0xff := by
  simp [refusedIPv6, within_cons, within_nil, ipv6]

/-! ### The classes of the library -/

theorem eq_ofNat_iff (small : n < 2 ^ 128) : ip = IP.ofNat n ↔ ip.bits.toNat = n := by
  obtain ⟨bits⟩ := ip
  rw [IP.ofNat, IP.mk.injEq, ← BitVec.toNat_inj, BitVec.toNat_ofNat, Nat.mod_eq_of_lt small]

section
variable (four : ip.isIPv4 = true)
include four

theorem isIPv4_toNat : ip.bits.toNat = 0xffff * 2 ^ 32 + embedded ip := by
  have high : ip.bits.toNat / 2 ^ 32 = 0xffff := of_decide_eq_true four
  unfold embedded
  omega

theorem octet_ipv4 : ip.octet 12 = embedded ip / 2 ^ 24 ∧ ip.octet 13 = embedded ip / 2 ^ 16 % 256 ∧
    ip.octet 14 = embedded ip / 2 ^ 8 % 256 := by
  have number := isIPv4_toNat four
  have small : embedded ip < 2 ^ 32 := Nat.mod_lt _ (by decide)
  simp only [IP.octet, number]
  omega

theorem eq_ofIPv4_iff (small : v < 2 ^ 32) : ip = IP.ofIPv4 v ↔ embedded ip = v := by
  rw [IP.ofIPv4, eq_ofNat_iff (by omega), isIPv4_toNat four, Nat.add_left_cancel_iff]

theorem isUnspecified_ipv4 : ip.isUnspecified = true ↔ embedded ip = 0 := by
  have other : ¬ip = IP.ofNat 0 := fun zero => by
    rw [eq_ofNat_iff (by decide), isIPv4_toNat four] at zero
    omega
  simp [IP.isUnspecified, eq_ofIPv4_iff four, other]

theorem isLoopback_ipv4 : ip.isLoopback = true ↔ embedded ip / 2 ^ 24 = 127 := by
  simp [IP.isLoopback, four, octet_ipv4 four]

theorem isPrivate_ipv4 : ip.isPrivate = true ↔
    embedded ip / 2 ^ 24 = 10 ∨ embedded ip / 2 ^ 20 = 0xac1 ∨ embedded ip / 2 ^ 16 = 0xc0a8 := by
  simp only [IP.isPrivate, four, octet_ipv4 four, if_true, Bool.or_eq_true, Bool.and_eq_true, decide_eq_true_eq]
  have second : embedded ip / 2 ^ 24 = 172 ∧ embedded ip / 2 ^ 16 % 256 / 16 = 1 ↔
    embedded ip / 2 ^ 20 = 0xac1 := by omega
  have third : embedded ip / 2 ^ 24 = 192 ∧ embedded ip / 2 ^ 16 % 256 = 168 ↔ embedded ip / 2 ^ 16 = 0xc0a8 := by omega
  rw [second, third, or_assoc]

theorem isMulticast_ipv4 : ip.isMulticast = true ↔ embedded ip / 2 ^ 28 = 14 := by
  simp only [IP.isMulticast, four, octet_ipv4 four, if_true, decide_eq_true_eq]
  omega

theorem isLinkLocalUnicast_ipv4 : ip.isLinkLocalUnicast = true ↔ embedded ip / 2 ^ 16 = 0xa9fe := by
  simp only [IP.isLinkLocalUnicast, four, octet_ipv4 four, if_true, Bool.and_eq_true, decide_eq_true_eq]
  omega

theorem isLinkLocalMulticast_ipv4 (h : ip.isLinkLocalMulticast = true) : ip.isMulticast = true := by
  simp only [IP.isLinkLocalMulticast, IP.isMulticast, four, if_true, Bool.and_eq_true, decide_eq_true_eq] at h ⊢
  omega

theorem isPublicIP_ipv4 : Diagnostics.isPublicIP ip = true ↔ ¬within 32 refusedIPv4 (embedded ip) = true := by
  have broadcast := eq_ofIPv4_iff (v := 0xffffffff) four (by decide)
  have linkLocal : ip.isLinkLocalMulticast = true → embedded ip / 2 ^ 28 = 14 := fun h =>
    (isMulticast_ipv4 four).mp (isLinkLocalMulticast_ipv4 four h)
  rw [refusedIPv4_iff]
  simp only [Diagnostics.isPublicIP, IP.isGlobalUnicast, Bool.and_eq_true, Bool.not_eq_true', ← Bool.not_eq_true,
    isUnspecified_ipv4 four,
    isLoopback_ipv4 four, isPrivate_ipv4 four, isMulticast_ipv4 four, isLinkLocalUnicast_ipv4 four, decide_eq_true_eq,
    ne_eq, broadcast]
  tauto

end

section
variable (six : ip.isIPv4 = false)
include six

theorem isUnspecified_ipv6 : ip.isUnspecified = true ↔ ip.bits.toNat = 0 := by
  have other : ¬ip = IP.ofIPv4 0 := by
    rintro rfl
    exact absurd six (by decide)
  simp [IP.isUnspecified, eq_ofNat_iff, other]

theorem isLoopback_ipv6 : ip.isLoopback = true ↔ ip.bits.toNat = 1 := by
  simp [IP.isLoopback, six, eq_ofNat_iff]

theorem isPrivate_ipv6 : ip.isPrivate = true ↔ ip.bits.toNat / 2 ^ 121 = 0x7e := by
  have small := ip.bits.isLt
  rw [IP.isPrivate, if_neg (by simp [six]), decide_eq_true_eq, IP.octet]
  omega

theorem isMulticast_ipv6 : ip.isMulticast = true ↔ ip.bits.toNat / 2 ^ 120 = 0xff := by
  have small := ip.bits.isLt
  rw [IP.isMulticast, if_neg (by simp [six]), decide_eq_true_eq, IP.octet]
  omega

theorem isLinkLocalUnicast_ipv6 : ip.isLinkLocalUnicast = true ↔ ip.bits.toNat / 2 ^ 118 = 0x3fa := by
  have small := ip.bits.isLt
  rw [IP.isLinkLocalUnicast, if_neg (by simp [six]), Bool.and_eq_true, decide_eq_true_eq, decide_eq_true_eq,
    IP.octet, IP.octet]
  omega

theorem isLinkLocalMulticast_ipv6 (h : ip.isLinkLocalMulticast = true) : ip.isMulticast = true := by
  rw [IP.isLinkLocalMulticast, if_neg (by simp [six]), Bool.and_eq_true] at h
  rw [IP.isMulticast, if_neg (by simp [six])]
  exact h.1

theorem isPublicIP_ipv6 : Diagnostics.isPublicIP ip = true ↔ ¬within 128 refusedIPv6 ip.bits.toNat = true := by
  have broadcast : ¬ip = IP.ofIPv4 0xffffffff := by
    rintro rfl
    exact absurd six (by decide)
  have linkLocal : ip.isLinkLocalMulticast = true → ip.bits.toNat / 2 ^ 120 = 0xff := fun h =>
    (isMulticast_ipv6 six).mp (isLinkLocalMulticast_ipv6 six h)
  rw [refusedIPv6_iff]
  simp only [Diagnostics.isPublicIP, IP.isGlobalUnicast, Bool.and_eq_true, Bool.not_eq_true', ← Bool.not_eq_true,
    isUnspecified_ipv6 six,
    isLoopback_ipv6 six, isPrivate_ipv6 six, isMulticast_ipv6 six, isLinkLocalUnicast_ipv6 six, decide_eq_true_eq,
    ne_eq, broadcast]
  tauto

end

/-! ### Refused and unnoticed -/

theorem not_refused_of_unnoticedIPv4 (h : UnnoticedIPv4 v) : ¬within 32 refusedIPv4 v = true := by
  obtain ⟨zero, broadcast, block, -⟩ := h
  rw [refusedIPv4_iff]
  simp [unnoticedIPv4, within_cons, within_nil, ipv4] at zero broadcast block
  omega

theorem not_refused_of_unnoticedIPv6 (h : UnnoticedIPv6 n) : ¬within 128 refusedIPv6 n = true := by
  have block := h.1
  rw [refusedIPv6_iff]
  simp [unnoticedIPv6, within_cons, within_nil, ipv6] at block
  omega

theorem not_refused_of_nat64 (h : nat64.has 128 n = true) : ¬within 128 refusedIPv6 n = true := by
  rw [refusedIPv6_iff]
  simp [nat64, Block.has, ipv6] at h
  omega

theorem reserved_of_refusedIPv4 (h : within 32 refusedIPv4 v = true) : ReservedIPv4 v := by
  rw [refusedIPv4_iff] at h
  constructor
  · simp only [reservedIPv4, within_cons, ipv4]
    omega
  · simp [reachableIPv4, within, Block.has, ipv4]
    omega

theorem reservedIPv4_iff : ReservedIPv4 v ↔ within 32 refusedIPv4 v = true ∨ UnnoticedIPv4 v := by
  have covered : reservedIPv4 ⊆ refusedIPv4 ++ unnoticedIPv4 := by decide
  have unnoticed : unnoticedIPv4 ⊆ reservedIPv4 := by decide
  constructor
  · rintro ⟨block, reachable⟩
    by_cases refused : within 32 refusedIPv4 v = true
    · exact Or.inl refused
    · refine Or.inr ⟨?_, ?_, (within_append.mp (within_of_subset covered block)).resolve_left refused, reachable⟩
      · rintro rfl
        exact refused (by decide)
      · rintro rfl
        exact refused (by decide)
  · rintro (refused | ⟨-, -, block, reachable⟩)
    · exact reserved_of_refusedIPv4 refused
    · exact ⟨within_of_subset unnoticed block, reachable⟩

theorem reserved_of_refusedIPv6 (h : within 128 refusedIPv6 n = true) : ReservedIPv6 n := by
  have reserved : refusedIPv6 ⊆ reservedIPv6 := by decide
  refine ⟨within_of_subset reserved h, ?_⟩
  rw [refusedIPv6_iff] at h
  simp [reachableIPv6, within, Block.has, ipv6]
  omega

theorem reservedIPv6_iff : ReservedIPv6 n ↔ within 128 refusedIPv6 n = true ∨ UnnoticedIPv6 n := by
  have covered : reservedIPv6 ⊆ refusedIPv6 ++ unnoticedIPv6 := by decide
  have unnoticed : unnoticedIPv6 ⊆ reservedIPv6 := by decide
  constructor
  · rintro ⟨block, reachable⟩
    exact (within_append.mp (within_of_subset covered block)).imp_right fun block => ⟨block, reachable⟩
  · rintro (refused | ⟨block, reachable⟩)
    · exact reserved_of_refusedIPv6 refused
    · exact ⟨within_of_subset unnoticed block, reachable⟩

/-- A public address is not reserved, unless it is not noticed. -/
theorem public_reserved_iff : (Diagnostics.isPublicIP ip = true → ¬Reserved ip) ↔ ¬Unnoticed ip := by
  cases four : ip.isIPv4 with
  | true =>
    rw [isPublicIP_ipv4 four, Reserved, Unnoticed, if_pos four, if_pos four, reservedIPv4_iff]
    refine ⟨fun h unnoticed => ?_, fun noticed refused reserved => reserved.elim refused noticed⟩
    exact h (not_refused_of_unnoticedIPv4 unnoticed) (Or.inr unnoticed)
  | false =>
    have six : ¬ip.isIPv4 = true := by simp [four]
    rw [isPublicIP_ipv6 four, Reserved, Unnoticed, if_neg six, if_neg six, reservedIPv6_iff, or_assoc]
    refine ⟨fun h unnoticed => ?_, fun noticed refused reserved => reserved.elim refused noticed⟩
    refine h ?_ (Or.inr unnoticed)
    rcases unnoticed with block | ⟨nat, -⟩
    · exact not_refused_of_unnoticedIPv6 block
    · exact not_refused_of_nat64 nat

/-- The verdict on an address is right unless it is in a block that is not noticed, it is the same for the two
    forms of an IPv4 address, and only addresses with a good verdict are connected to. -/
theorem public_sound_iff (ip : NetIP) :
    ((isPublicIP ip = true → ∀ a, ip.address = some a → ¬Reserved a) ↔ ∀ a, ip.address = some a → ¬Unnoticed a) ∧
    (ip.length = 4 → isPublicIP ip.mapped = isPublicIP ip) ∧
    ∀ (Conn : Type) (net : Network Conn) (network : String) (address : List Char),
      ∀ contact ∈ (dialPublicAddress net network address).2, isPublicIP contact = true := by
  refine ⟨?_, isPublicIP_mapped, fun _ net network address => dialPublicAddress_public net network address⟩
  rw [isPublicIP_address]
  cases ip.address with
  | none => simp
  | some a =>
    rw [Option.map_some, Option.getD_some]
    constructor
    · rintro sound _ ⟨⟩
      exact public_reserved_iff.mp fun public_ => sound public_ a rfl
    · rintro noticed public_ _ ⟨⟩
      exact public_reserved_iff.mpr (noticed a rfl) public_

/-- 100.64.0.1 of the carriers' shared space, and the loopback address as NAT64 embeds it. -/
theorem shared_public : isPublicIP [100, 64, 0, 1] = true ∧ (∃ a, NetIP.address [100, 64, 0, 1] = some a ∧ Reserved a) ∧
    isPublicIP [0, 0x64, 0xff, 0x9b, 0, 0, 0, 0, 0, 0, 0, 0, 127, 0, 0, 1] = true ∧
    ∃ a, NetIP.address [0, 0x64, 0xff, 0x9b, 0, 0, 0, 0, 0, 0, 0, 0, 127, 0, 0, 1] = some a ∧ Reserved a := by
  refine ⟨by decide, ⟨.ofIPv4 (ipv4 100 64 0 1),
    by decide, ?_⟩, by decide, ⟨.ofNat (ipv6 [0x64, 0xff9b] + ipv4 127 0 0 1), by decide, ?_⟩⟩
  · rw [Reserved, if_pos (by decide)]
    exact ⟨by decide, by decide⟩
  · rw [Reserved, if_neg (by decide)]
    exact Or.inr ⟨by decide, by decide, by decide⟩

end PublicAddress
end DatrixOps
