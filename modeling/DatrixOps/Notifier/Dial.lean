import DatrixOps.Diagnostics.Host
import DatrixOps.Golang.NetIP

/-! Where the notifier's clients connect to: public addresses only. -/

namespace DatrixOps
namespace Notifier
open Golang

/-- IsPublicIP verifies an IP address is a globally routable public address, excluding private subnets,
    loopback, link-local (cloud metadata), and unspecified addresses. -/
def isPublicIP (ip : NetIP) : Bool :=
  ip ≠ [] && ip.isGlobalUnicast && !ip.isPrivate && !ip.isLoopback && !ip.isLinkLocalUnicast &&
    !ip.isLinkLocalMulticast &&
    !ip.isUnspecified

variable {Conn : Type}

/-- What the resolver says of a host, and what comes of a connection over a network to an address and port,
    which the dialer is given as a text. -/
structure Network (Conn : Type) where
  lookupIPAddr : List Char → Except String (List NetIP)
  dialContext : String → NetIP → List Char → Except String Conn

/-- The loop over the addresses, up to the first that connects, or with the last error. -/
def dialFirst (dial : NetIP → Except String Conn) (lastErr : String) : List NetIP → Except String Conn × List NetIP
  | [] => (.error s!"connect to webhook destination: {lastErr}", [])
  | resolved :: addresses =>
    match dial resolved with
    | .ok connection => (.ok connection, [resolved])
    | .error dialErr =>
      let (result, contacts) := dialFirst dial dialErr addresses
      (result, resolved :: contacts)

/-- dialPublicAddress, with the addresses it contacts. -/
def dialPublicAddress (net : Network Conn) (network : String) (address : List Char) : Except String Conn × List NetIP :=
  match splitHostPort address with
  | .error err => (.error s!"invalid webhook destination: {err}", [])
  | .ok (host, port) =>
    match net.lookupIPAddr host with
    | .error err => (.error s!"resolve webhook destination: {err}", [])
    | .ok addresses =>
      if addresses = [] then (.error "webhook destination has no IP address", [])
      else if addresses.any fun address => !isPublicIP address then
        (.error "webhook destination resolves to a non-public IP address", [])
      else dialFirst (fun resolved => net.dialContext network resolved port) "" addresses

variable {ip : NetIP} {addresses : List NetIP}

theorem dialFirst_contacts {dial : NetIP → Except String Conn} {lastErr : String} :
    ∀ contact ∈ (dialFirst dial lastErr addresses).2, contact ∈ addresses := by
  induction addresses generalizing lastErr with
  | nil => exact fun _ h => h
  | cons resolved addresses ih =>
    intro contact h
    unfold dialFirst at h
    cases hd : dial resolved with
    | ok connection =>
      rw [hd] at h
      exact List.mem_cons.mpr (Or.inl (List.mem_singleton.mp h))
    | error dialErr =>
      rw [hd] at h
      rcases List.mem_cons.mp h with rfl | later
      · exact List.mem_cons_self
      · exact List.mem_cons_of_mem _ (ih contact later)

/-- Whatever the resolver says, only public addresses are contacted. -/
theorem dialPublicAddress_public (net : Network Conn) (network : String) (address : List Char) :
    ∀ contact ∈ (dialPublicAddress net network address).2, isPublicIP contact = true := by
  intro contact h
  unfold dialPublicAddress at h
  split at h
  · cases h
  · split at h
    · cases h
    · split at h
      · cases h
      · split at h
        · cases h
        · rename_i public_
          simp only [Bool.not_eq_true, List.any_eq_false, Bool.not_eq_true'] at public_
          simpa using public_ contact (dialFirst_contacts contact h)

/-! ### Slices and addresses -/

theorem isPublicIP_mapped (h : ip.length = 4) : isPublicIP ip.mapped = isPublicIP ip := by
  have some_ : ip ≠ [] ∧ ip.mapped ≠ [] := by
    constructor
    · rintro rfl
      cases h
    · simp [NetIP.mapped, NetIP.v4InV6Prefix]
  simp only [isPublicIP, NetIP.isGlobalUnicast_mapped h, NetIP.isPrivate_mapped h, NetIP.isLoopback_mapped h,
    NetIP.isLinkLocalUnicast_mapped h, NetIP.isLinkLocalMulticast_mapped h, NetIP.isUnspecified_mapped h, ne_eq, some_,
    not_false_eq_true]

theorem isPublicIP_value (h : ip.length = 16) : Diagnostics.isPublicIP (.ofNat ip.value) = isPublicIP ip := by
  have some_ : ip ≠ [] := by
    rintro rfl
    cases h
  simp only [Diagnostics.isPublicIP, isPublicIP, NetIP.isGlobalUnicast_value h, NetIP.isPrivate_value h,
    NetIP.isLoopback_value h,
    NetIP.isLinkLocalUnicast_value h, NetIP.isLinkLocalMulticast_value h, NetIP.isUnspecified_value h, ne_eq, some_,
    not_false_eq_true,
    decide_true, Bool.true_and]

/-- The verdict on a slice is that on the address it stands for; other slices are none. -/
theorem isPublicIP_address : isPublicIP ip = (ip.address.map Diagnostics.isPublicIP).getD false := by
  by_cases four : ip.length = 4
  · rw [NetIP.address, NetIP.to16, if_pos four, ← isPublicIP_mapped four, ← isPublicIP_value (NetIP.length_mapped four)]
    rfl
  by_cases sixteen : ip.length = 16
  · rw [NetIP.address, NetIP.to16, if_neg four, if_pos sixteen, ← isPublicIP_value sixteen]
    rfl
  · rw [NetIP.address, NetIP.to16, if_neg four, if_neg sixteen, isPublicIP, NetIP.isGlobalUnicast]
    simp [four, sixteen]

end Notifier
end DatrixOps
