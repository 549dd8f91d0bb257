import DatrixOps.Diagnostics.Probe
import DatrixOps.Golang.Regexp

/-! The regular expressions of parsePingOutput on the output of `ping`. -/

namespace DatrixOps
namespace Diagnostics
open Golang Regexp

section
variable [Arithmetic]

/-- `strconv.ParseFloat` of a text of digits and dots. -/
def parseDecimal (s : List Char) : Option ℚ :=
  let value : Option ℚ := match split '.' s with
    | [whole] => if whole = [] then none else some (Nat.ofDigitChars 10 whole 0)
    | [whole, fraction] =>
      if whole = [] ∧ fraction = [] then none
      else some (Nat.ofDigitChars 10 whole 0 + Nat.ofDigitChars 10 fraction 0 / 10 ^ fraction.length)
    | _ => none
  -- greater numbers are out of range
  (value.filter (· < 2 ^ 1024 - 2 ^ 970)).map rounded

/-- `(\d+(?:\.\d+)?)\s*%\s*(?:packet\s+)?loss` -/
def lossRe : Regexp :=
  all [group 1 (seq digits (opt (seq (lit ['.']) digits))), blanks, lit ['%'], blanks,
    opt (seq (lit "packet".toList) (plus isBlank)), lit "loss".toList]

/-- `(\d+)\s*(?:packets?\s*)?received|Received\s*=\s*(\d+)` -/
def recvRe : Regexp :=
  alt
    (all [group 1 digits, blanks, opt (all [lit "packet".toList, opt (lit ['s']), blanks]), lit "received".toList])
    (all [lit "Received".toList, blanks, lit ['='], blanks, group 2 digits])

def isDecimal (c : Char) : Bool := c.isDigit || c = '.'

/-- `(?:rtt|round-trip)\s+min/avg/max(?:\/(?:mdev|stddev))?\s*=\s*([\d.]+)/([\d.]+)/([\d.]+)` -/
def rttRe : Regexp :=
  all [alt (lit "rtt".toList) (lit "round-trip".toList), plus isBlank, lit "min/avg/max".toList,
    opt (seq (lit ['/']) (alt (lit "mdev".toList) (lit "stddev".toList))), blanks, lit ['='], blanks,
    group 1 (plus isDecimal), lit ['/'], group 2 (plus isDecimal), lit ['/'], group 3 (plus isDecimal)]

/-- `Minimum\s*=\s*(\d+)\s*ms.*Maximum\s*=\s*(\d+)\s*ms.*Average\s*=\s*(\d+)\s*ms` -/
def winRe : Regexp :=
  let value (name : List Char) (i : Nat) :
    Regexp := all [lit name, blanks, lit ['='], blanks, group i digits, blanks, lit "ms".toList]
  all [value "Minimum".toList 1, many (· ≠ '\n'), value "Maximum".toList 2, many (· ≠ '\n'), value "Average".toList 3]

/-- The loss a text states, in percent. -/
def statedLoss (output : List Char) : Option ℚ := (lossRe.find output).bind fun m => parseDecimal (text m 1)

/-- The number of packets received that a text states. -/
def statedReceived (output : List Char) : Option Nat :=
  (recvRe.find output).bind fun m => (atoi (if text m 1 ≠ [] then text m 1 else text m 2)).map Int.toNat

def readPing (output : List Char) : PingOutput where
  loss := statedLoss output
  received := statedReceived output
  rtt :=
    let ms (m : Groups) (i : Nat) : ℚ := (parseDecimal (text m i)).getD 0
    match rttRe.find output with
    | some m => some (ms m 1, ms m 2, ms m 3)
    | none => (winRe.find output).map fun m => (ms m 1, ms m 3, ms m 2)

/-- parsePingOutput extracts loss and latency from ping command output. -/
def parsePingText (output : List Char) (expectedCount : Int) : IcmpPingResult :=
  parsePingOutput (readPing output) expectedCount

end

attribute [local instance] Arithmetic.exact in
example : statedLoss "5 packets transmitted, 0 received, +1 errors, 12.5% packet loss".toList = some (25 / 2) ∧
    statedReceived "5 packets transmitted, 4 packets received".toList = some 4 ∧
    statedReceived "Packets: Sent = 4, Received = 3, Lost = 1 (25% loss)".toList = some 3 := by decide +kernel

end Diagnostics
end DatrixOps
