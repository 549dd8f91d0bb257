import Mathlib.Data.Nat.Digits.Lemmas
import DatrixOps.Golang.IP

/-! `net.IP` as the slice of bytes it is, of four or of sixteen for an address, and as the address it stands for. -/

namespace Golang

/-- `net.IP` -/
abbrev NetIP := List UInt8

namespace NetIP

def v4InV6Prefix : List UInt8 := [0, 0, 0, 0, 0, 0, 0, 0, 0, 0, 0xff, 0xff]

/-- The IPv6 address that an IPv4 one is mapped to. -/
def mapped (ip : NetIP) : NetIP := v4InV6Prefix ++ ip

/-- `net.IPv4` -/
def ofIPv4 (a b c d : UInt8) : NetIP := mapped [a, b, c, d]

def ipv6unspecified : NetIP := List.replicate 16 0

def ipv6loopback : NetIP := List.replicate 15 0 ++ [1]

def byte (ip : NetIP) (i : Nat) : Nat := (ip.getD i 0).toNat

def to4 (ip : NetIP) : Option NetIP :=
  if ip.length = 4 then some ip
  else if ip.length = 16 ∧ ip.take 12 = v4InV6Prefix then some (ip.drop 12)
  else none

def equal (ip x : NetIP) : Bool :=
  if ip.length = x.length then ip = x
  else if ip.length = 4 ∧ x.length = 16 then x.take 12 = v4InV6Prefix && ip = x.drop 12
  else if ip.length = 16 ∧ x.length = 4 then ip.take 12 = v4InV6Prefix && ip.drop 12 = x
  else false

def isUnspecified (ip : NetIP) : Bool := ip.equal (ofIPv4 0 0 0 0) || ip.equal ipv6unspecified

def isLoopback (ip : NetIP) : Bool :=
  match ip.to4 with
  | some ip4 => ip4.byte 0 = 127
  | none => ip.equal ipv6loopback

def isPrivate (ip : NetIP) : Bool :=
  match ip.to4 with
  | some ip4 => ip4.byte 0 = 10 || (ip4.byte 0 = 172 && ip4.byte 1 / 16 = 1) || (ip4.byte 0 = 192 && ip4.byte 1 = 168)
  | none => ip.length = 16 && ip.byte 0 / 2 = 0xfc / 2

def isMulticast (ip : NetIP) : Bool :=
  match ip.to4 with
  | some ip4 => ip4.byte 0 / 16 = 0xe
  | none => ip.length = 16 && ip.byte 0 = 0xff

def isLinkLocalMulticast (ip : NetIP) : Bool :=
  match ip.to4 with
  | some ip4 => ip4.byte 0 = 224 && ip4.byte 1 = 0 && ip4.byte 2 = 0
  | none => ip.length = 16 && ip.byte 0 = 0xff && ip.byte 1 % 16 = 2

def isLinkLocalUnicast (ip : NetIP) : Bool :=
  match ip.to4 with
  | some ip4 => ip4.byte 0 = 169 && ip4.byte 1 = 254
  | none => ip.length = 16 && ip.byte 0 = 0xfe && ip.byte 1 / 64 = 0x80 / 64

def isGlobalUnicast (ip : NetIP) : Bool :=
  (ip.length = 4 || ip.length = 16) && !ip.equal (ofIPv4 255 255 255 255) && !ip.isUnspecified && !ip.isLoopback &&
    !ip.isMulticast && !ip.isLinkLocalUnicast

def to16 (ip : NetIP) : Option NetIP := if ip.length = 4 then some ip.mapped
    else if ip.length = 16 then some ip else none

/-- The number the bytes write. -/
def value (ip : NetIP) : Nat := Nat.ofDigits 256 (ip.reverse.map UInt8.toNat)

/-- The address that the bytes stand for. -/
def address (ip : NetIP) : Option IP := ip.to16.map fun ip16 => .ofNat ip16.value

variable {ip x : NetIP}

/-! ### The mapped form -/

section
variable (h : ip.length = 4)
include h

theorem length_mapped : ip.mapped.length = 16 := by
  rw [mapped, List.length_append, h]
  rfl

theorem to4_mapped : ip.mapped.to4 = ip.to4 := by
  rw [to4, if_neg (by simp [length_mapped h]), if_pos ⟨length_mapped h, by simp [mapped, v4InV6Prefix]⟩, to4, if_pos h]
  simp [mapped, v4InV6Prefix]

theorem to4_of_length : ip.to4 = some ip := if_pos h

theorem equal_mapped (hx : x.length = 16) : ip.mapped.equal x = ip.equal x := by
  have same : ip.mapped = x ↔ x.take 12 = v4InV6Prefix ∧ ip = x.drop 12 := by
    constructor
    · rintro rfl
      simp [mapped, v4InV6Prefix]
    · rintro ⟨first, rfl⟩
      rw [mapped, ← first, List.take_append_drop]
  rw [equal, if_pos ((length_mapped h).trans hx.symm), equal, if_neg (by simp [h, hx]), if_pos ⟨h, hx⟩]
  simp [same]

theorem isUnspecified_mapped : ip.mapped.isUnspecified = ip.isUnspecified := by
  rw [isUnspecified, equal_mapped h rfl, equal_mapped h rfl, isUnspecified]

theorem isLoopback_mapped : ip.mapped.isLoopback = ip.isLoopback := by
  simp only [isLoopback, to4_mapped h, to4_of_length h]

theorem isPrivate_mapped : ip.mapped.isPrivate = ip.isPrivate := by
  simp only [isPrivate, to4_mapped h, to4_of_length h]

theorem isMulticast_mapped : ip.mapped.isMulticast = ip.isMulticast := by
  simp only [isMulticast, to4_mapped h, to4_of_length h]

theorem isLinkLocalMulticast_mapped : ip.mapped.isLinkLocalMulticast = ip.isLinkLocalMulticast := by
  simp only [isLinkLocalMulticast, to4_mapped h, to4_of_length h]

theorem isLinkLocalUnicast_mapped : ip.mapped.isLinkLocalUnicast = ip.isLinkLocalUnicast := by
  simp only [isLinkLocalUnicast, to4_mapped h, to4_of_length h]

theorem isGlobalUnicast_mapped : ip.mapped.isGlobalUnicast = ip.isGlobalUnicast := by
  have broadcast : ip.mapped.equal (ofIPv4 255 255 255 255) = ip.equal (ofIPv4 255 255 255 255) := equal_mapped h rfl
  simp only [isGlobalUnicast, broadcast, isUnspecified_mapped h, isLoopback_mapped h, isMulticast_mapped h,
    isLinkLocalUnicast_mapped h, length_mapped h, h]
  simp

end

/-! ### Bytes and numbers -/

theorem value_append (ip x : NetIP) : value (ip ++ x) = ip.value * 256 ^ x.length + x.value := by
  rw [value, List.reverse_append, List.map_append, Nat.ofDigits_append, List.length_map,
    List.length_reverse, Nat.add_comm,
    Nat.mul_comm]
  rfl

theorem mem_digits_lt {n : Nat} (h : n ∈ ip.reverse.map UInt8.toNat) : n < 256 := by
  obtain ⟨b, -, rfl⟩ := List.mem_map.mp h
  exact b.toNat_lt

theorem value_lt (ip : NetIP) : ip.value < 256 ^ ip.length := by
  have bound : ip.value < 256 ^ (ip.reverse.map UInt8.toNat).length :=
    Nat.ofDigits_lt_base_pow_length (by decide) fun _ => mem_digits_lt
  rwa [List.length_map, List.length_reverse] at bound

theorem value_inj (same : ip.length = x.length) (h : ip.value = x.value) : ip = x := by
  have digits := Nat.ofDigits_inj_of_len_eq (b := 256) (by decide) (by simp [same]) (fun _ => mem_digits_lt)
    (fun _ => mem_digits_lt) h
  exact List.reverse_injective (List.map_injective_iff.mpr (fun a b => UInt8.toNat_inj.mp) digits)

theorem toNat_ofNat_value (h : ip.length = 16) : (IP.ofNat ip.value).bits.toNat = ip.value := by
  have bound : ip.value < 256 ^ 16 := h ▸ value_lt ip
  exact Nat.mod_eq_of_lt bound

/-- The bytes of an address are its octets. -/
theorem octet_value (h : ip.length = 16) {i : Nat} (hi : i < 16) : (IP.ofNat ip.value).octet i = ip.byte i := by
  have within : i < ip.length := h ▸ hi
  have split : ip = ip.take i ++ ([ip[i]] ++ ip.drop (i + 1)) := by
    rw [List.singleton_append, ← List.drop_eq_getElem_cons within, List.take_append_drop]
  have rest : (ip.drop (i + 1)).length = 15 - i := by
    rw [List.length_drop, h]
    omega
  have small : value (ip.drop (i + 1)) < 256 ^ (15 - i) := rest ▸ value_lt _
  have digit : value [ip[i]] = ip[i].toNat := Nat.ofDigits_singleton
  have whole : ip.value = (value (ip.take i) * 256 + ip[i].toNat) * 256 ^ (15 - i) + value (ip.drop (i + 1)) := by
    conv_lhs => rw [split]
    rw [value_append, value_append, digit, List.length_append, rest, List.length_singleton, pow_add]
    ring
  rw [IP.octet, toNat_ofNat_value h, whole, Nat.add_comm, Nat.add_mul_div_right _ _ (by positivity),
    Nat.div_eq_of_lt small, zero_add]
  rw [Nat.mul_comm, Nat.mul_add_mod, byte, List.getD_eq_getElem?_getD, List.getElem?_eq_getElem within,
    Option.getD_some]
  exact Nat.mod_eq_of_lt ip[i].toNat_lt

section
variable (h : ip.length = 16)
include h

theorem isIPv4_value : (IP.ofNat ip.value).isIPv4 = (ip.take 12 = v4InV6Prefix : Bool) := by
  have split : ip.value = value (ip.take 12) * 256 ^ 4 + value (ip.drop 12) := by
    conv_lhs => rw [← List.take_append_drop 12 ip]
    rw [value_append, List.length_drop, h]
  have small : value (ip.drop 12) < 256 ^ 4 := by
    have bound := value_lt (ip.drop 12)
    rwa [List.length_drop, h] at bound
  have pre : value v4InV6Prefix = 0xffff := by decide
  rw [IP.isIPv4, toNat_ofNat_value h, decide_eq_decide, split]
  constructor
  · intro mapped
    exact value_inj (by simp [h, v4InV6Prefix]) (pre ▸ by omega)
  · intro same
    rw [same, pre]
    omega

theorem equal_value (hx : x.length = 16) : ip.equal x = (IP.ofNat ip.value = IP.ofNat x.value : Bool) := by
  rw [equal, if_pos (h.trans hx.symm), decide_eq_decide]
  refine ⟨fun same => same ▸ rfl, fun same => value_inj (h.trans hx.symm) ?_⟩
  rw [← toNat_ofNat_value h, same, toNat_ofNat_value hx]

theorem to4_value : ip.to4 = if (IP.ofNat ip.value).isIPv4 then some (ip.drop 12) else none := by
  rw [isIPv4_value h, to4, if_neg (by simp [h])]
  simp [h]

theorem isUnspecified_value : (IP.ofNat ip.value).isUnspecified = ip.isUnspecified := by
  have zero : value (ofIPv4 0 0 0 0) = 0xffff * 2 ^ 32 + 0 := by decide
  have unspecified : value ipv6unspecified = 0 := by decide
  rw [isUnspecified, equal_value h rfl, equal_value h rfl, zero, unspecified]
  rfl

theorem isLoopback_value : (IP.ofNat ip.value).isLoopback = ip.isLoopback := by
  have loopback : value ipv6loopback = 1 := by decide
  rw [IP.isLoopback, isLoopback, to4_value h, octet_value h (by decide), equal_value h rfl, loopback]
  cases (IP.ofNat ip.value).isIPv4 with
  | true => simp [byte]
  | false => simp

theorem isPrivate_value : (IP.ofNat ip.value).isPrivate = ip.isPrivate := by
  simp only [IP.isPrivate, isPrivate, to4_value h, octet_value h (i := 12) (by decide),
    octet_value h (i := 13) (by decide),
    octet_value h (i := 0) (by decide)]
  cases (IP.ofNat ip.value).isIPv4 with
  | true => simp [byte]
  | false => simp [h]

theorem isMulticast_value : (IP.ofNat ip.value).isMulticast = ip.isMulticast := by
  simp only [IP.isMulticast, isMulticast, to4_value h, octet_value h (i := 12) (by decide),
    octet_value h (i := 0) (by decide)]
  cases (IP.ofNat ip.value).isIPv4 with
  | true => simp [byte]
  | false => simp [h]

theorem isLinkLocalMulticast_value : (IP.ofNat ip.value).isLinkLocalMulticast = ip.isLinkLocalMulticast := by
  simp only [IP.isLinkLocalMulticast, isLinkLocalMulticast, to4_value h, octet_value h (i := 12) (by decide),
    octet_value h (i := 13) (by decide), octet_value h (i := 14) (by decide), octet_value h (i := 0) (by decide),
    octet_value h (i := 1) (by decide)]
  cases (IP.ofNat ip.value).isIPv4 with
  | true => simp [byte]
  | false => simp [h]

theorem isLinkLocalUnicast_value : (IP.ofNat ip.value).isLinkLocalUnicast = ip.isLinkLocalUnicast := by
  simp only [IP.isLinkLocalUnicast, isLinkLocalUnicast, to4_value h, octet_value h (i := 12) (by decide),
    octet_value h (i := 13) (by decide), octet_value h (i := 0) (by decide), octet_value h (i := 1) (by decide)]
  cases (IP.ofNat ip.value).isIPv4 with
  | true => simp [byte]
  | false => simp [h]

theorem isGlobalUnicast_value : (IP.ofNat ip.value).isGlobalUnicast = ip.isGlobalUnicast := by
  have broadcast : value (ofIPv4 255 255 255 255) = 0xffff * 2 ^ 32 + 0xffffffff := by decide
  have equal : ip.equal (ofIPv4 255 255 255 255) = (IP.ofNat ip.value = IP.ofIPv4 0xffffffff : Bool) := by
    rw [equal_value h rfl, broadcast]
    rfl
  rw [IP.isGlobalUnicast, isGlobalUnicast, equal, isUnspecified_value h, isLoopback_value h, isMulticast_value h,
    isLinkLocalUnicast_value h]
  simp [h]

end

end NetIP

/-! ### Hosts and ports -/

def lastIndex (c : Char) (s : List Char) : Option Nat :=
  if c ∈ s then some (s.length - 1 - s.reverse.idxOf c) else none

/-- `net.SplitHostPort`, whose errors also name the address. -/
def splitHostPort (hostport : List Char) : Except String (List Char × List Char) :=
  match lastIndex ':' hostport with
  | none => .error "missing port in address"
  | some i =>
    let checked (host : List Char) (j k : Nat) : Except String (List Char × List Char) :=
      if '[' ∈ hostport.drop j then .error "unexpected '[' in address"
      else if ']' ∈ hostport.drop k then .error "unexpected ']' in address"
      else .ok (host, hostport.drop (i + 1))
    if hostport.head? = some '[' then
      let last := hostport.idxOf ']'
      if last = hostport.length then .error "missing ']' in address"
      else if last + 1 = hostport.length then .error "missing port in address"
      else if last + 1 = i then checked ((hostport.take last).drop 1) 1 (last + 1)
      else if hostport[last + 1]? = some ':' then .error "too many colons in address"
      else .error "missing port in address"
    else if ':' ∈ hostport.take i then .error "too many colons in address"
    else checked (hostport.take i) 0 0

example : (splitHostPort "hooks.example:443".toList).toOption = some ("hooks.example".toList, "443".toList) ∧
    (splitHostPort "[2001:db8::1]:443".toList).toOption = some ("2001:db8::1".toList, "443".toList) ∧
    (splitHostPort "2001:db8::1:443".toList).toOption = none ∧
    (splitHostPort "hooks.example".toList).toOption = none := by decide

end Golang
