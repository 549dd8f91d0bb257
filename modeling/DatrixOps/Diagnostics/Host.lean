import DatrixOps.Golang.IP

/-! Which hosts a network target may have, and which addresses count as public. -/

namespace DatrixOps
namespace Diagnostics
open Golang

/-- IsPublicIP verifies an IP address is a globally routable public address. -/
def isPublicIP (ip : IP) : Bool :=
  ip.isGlobalUnicast && !ip.isPrivate && !ip.isLoopback && !ip.isLinkLocalUnicast && !ip.isLinkLocalMulticast &&
    !ip.isUnspecified

/-- `strings.EqualFold` with `gateway`, no letter of which has a third case form. -/
def equalFoldGateway (s : List Char) : Bool := s.map Char.toLower = "gateway".toList

def brackets : List Char := ['[', ']']

/-- `^[a-z0-9]([a-z0-9\-\.]*[a-z0-9])?$` -/
def validHostname (s : List Char) : Bool :=
  let alphanumeric (c : Char) : Bool := ('a' ≤ c && c ≤ 'z') || c.isDigit
  s.head?.any alphanumeric && s.getLast?.any alphanumeric && s.all fun c => alphanumeric c || c = '-' || c = '.'

/-- ValidateNetworkTargetHost checks if the target host is valid and safe to probe. `answer` is what the
    resolver says to its lookup, which fails when there is none. -/
def validateNetworkTargetHost (lowerCase : CaseMap) (answer : Option (List IPAddr)) (host : List Char)
    (isGateway isCloud : Bool) : Except String Unit :=
  let trimmed := trimSpace host
  if isGateway && (trimmed = [] || equalFoldGateway trimmed) then .ok ()
  else if isGateway && isCloud then .error "gateway target cannot use custom IP address in Cloud mode"
  else if trimmed = [] then .error "target host is required"
  else if contains trimmed "://".toList || contains trimmed ['/'] || contains trimmed ['@'] then
    .error "target host must be a hostname or IP address without protocol, credentials, or path"
  else if trimmed.head? ≠ some '[' ∧ trimmed.count ':' = 1 then
    .error "target host must not include a port; specify port in the port field"
  else
    let cleanHost := trimSuffix ['.'] (lowerCase.toLower (trim brackets trimmed))
    if cleanHost = "localhost".toList ∨ ".localhost".toList <:+ cleanHost then
      .error "target host must not target localhost"
    else match parseIP cleanHost with
      | some ip =>
        if ip.isLoopback || ip.isUnspecified || ip.isLinkLocalUnicast || ip.isLinkLocalMulticast ||
            cleanHost = "169.254.169.254".toList then
          .error "target host must not target loopback, unspecified, or link-local/cloud metadata addresses"
        else if isCloud && !isPublicIP ip then .error "target host must be a public IP address in Cloud mode"
        else .ok ()
      | none =>
        if validHostname cleanHost = false then .error "target host contains invalid characters"
        else if isCloud then
          match answer with
          | none => .error "unable to resolve target host"
          | some [] => .error "target host does not resolve to any IP address"
          | some addrs =>
            if addrs.all fun addr => isPublicIP addr.ip then .ok ()
            else .error "target host resolves to a non-public or internal IP address"
        else .ok ()

/-- The verdict on the text of an address depends on the address alone, whatever its case. -/
theorem validate_literal {lowerCase : CaseMap} {answer : Option (List IPAddr)} {host : List Char}
    {isGateway isCloud : Bool}
    {ip : IP} (literal : parseIP host = some ip)
    (accepted : validateNetworkTargetHost lowerCase answer host isGateway isCloud = .ok ()) :
    ip.isLoopback = false ∧ ip.isUnspecified = false ∧ ip.isLinkLocalUnicast = false ∧ ip.isLinkLocalMulticast = false ∧
      (isCloud = true → isPublicIP ip = true) := by
  obtain ⟨space, bracket, lower, dot⟩ := clean_parseIP lowerCase literal
  have notGateway : (host = [] || equalFoldGateway host) = false := by
    have empty : host ≠ [] := by
      rintro rfl
      cases literal
    have other : equalFoldGateway host = false := by
      refine Bool.eq_false_iff.mpr fun h => ?_
      have name : parseIP "gateway".toList = none := by decide
      rw [← parseIP_toLower, of_decide_eq_true h, name] at literal
      cases literal
    simp [empty, other]
  unfold validateNetworkTargetHost at accepted
  simp only [space, brackets, bracket, lower, dot, parseIP_toLower, literal, notGateway, Bool.and_false] at accepted
  split at accepted
  next impossible => cases impossible
  split at accepted
  next => cases accepted
  split at accepted
  next => cases accepted
  split at accepted
  next => cases accepted
  split at accepted
  next => cases accepted
  split at accepted
  next => cases accepted
  split at accepted
  next => cases accepted
  next notSpecial =>
    split at accepted
    next => cases accepted
    next reachable =>
      simp only [Bool.or_eq_true, not_or, Bool.not_eq_true] at notSpecial
      obtain ⟨⟨⟨⟨loopback, unspecified⟩, unicast⟩, multicast⟩, -⟩ := notSpecial
      refine ⟨loopback, unspecified, unicast, multicast, fun cloud => ?_⟩
      simpa [cloud] using reachable

end Diagnostics
end DatrixOps
