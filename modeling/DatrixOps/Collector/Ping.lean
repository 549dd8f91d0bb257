import Mathlib.Data.Rat.Defs
import DatrixOps.Golang.Strings

/-! The agent's probe of the default gateway, from the output of `ping`. How texts are read as numbers is a
parameter. -/

namespace DatrixOps
namespace GatewayPing
open Golang

/-- A float64. -/
inductive Float64 where
  | finite (x : ℚ)
  | infinite (negative : Bool)
  | nan
  deriving DecidableEq

def Float64.below (bound : ℚ) : Float64 → Bool
  | finite x => x < bound
  | infinite negative => negative
  | nan => false

/-- `strings.Index` -/
def index (sub : List Char) : List Char → Option Nat
  | [] => if sub = [] then some 0 else none
  | c :: s => if sub <+: c :: s then some 0 else (index sub s).map (· + 1)

/-- `strings.ReplaceAll` by nothing, after some characters that are left out. -/
def removeFrom (old : List Char) : Nat → List Char → List Char
  | _, [] => []
  | skip + 1, _ :: s => removeFrom old skip s
  | 0, c :: s => if old <+: c :: s then removeFrom old (old.length - 1) s else c :: removeFrom old 0 s

def removeAll (old s : List Char) : List Char := removeFrom old 0 s

section
variable (parseFloat : List Char → Option Float64)

def packetLoss : List Char := "packet loss".toList

def percentLoss : List Char := "% loss".toList

/-- The losses a line states, each of which replaces the one before. -/
def lossFigures (line : List Char) : List Float64 :=
  if contains line packetLoss then
    (split ',' line).filterMap fun part =>
      if contains part packetLoss then
        parseFloat (trimSpace (removeAll ['%'] (trimSpace (removeAll packetLoss part)))) else none
  else
    -- Windows format: Lost = 0 (0% loss)
    match index ['('] line, index percentLoss line with
    | some start, some last =>
      if start < last then (parseFloat (trimSpace ((line.take last).drop (start + 1)))).toList else []
    | _, _ => []

def average : List Char := "Average =".toList

/-- The latency a line states. -/
def latencyFigure (line : List Char) : Option Float64 :=
  if contains line "round-trip".toList || contains line "rtt min/avg/max".toList then do
    let eqIdx ← index ['='] line
    let avg ← (split '/' (trimSpace (line.drop (eqIdx + 1))))[1]?
    parseFloat (trimSpace avg)
  else do
    let idx ← index average line
    parseFloat (trimSpace (removeAll "ms".toList (trimSpace (line.drop (idx + average.length)))))

/-- The average latency and the loss. -/
def parsePingOutput (outStr : List Char) : Float64 × Float64 :=
  (split '\n' outStr).foldl
    (fun (avgLatency, lossPercent) line => ((latencyFigure parseFloat line).getD avgLatency,
      (lossFigures parseFloat line).getLastD lossPercent))
    (.finite 0, .finite 0)

/-- checkGatewayPing, with the output of `ping`, if there is any, and the milliseconds a connection took, if
there is one. -/
def checkGatewayPing (gatewayIP : List Char) (out : Option (List Char)) (connectMs : Option Nat) : Float64 × Float64 :=
  if gatewayIP = [] then (.finite 0, .finite 0)
  else match out with
    | some out => parsePingOutput parseFloat out
    | none =>
      match connectMs with
      | some ms => (.finite ms, .finite 0)
      | none => (.finite 0, .finite 100)

/-- All losses a text states. -/
def statedLosses (outStr : List Char) : List Float64 := (split '\n' outStr).flatMap (lossFigures parseFloat)

/-- The loss is the last that is stated, or none. -/
theorem parsePingOutput_loss (outStr : List Char) :
    (parsePingOutput parseFloat outStr).2 = (statedLosses parseFloat outStr).getLastD (.finite 0) := by
  have loop : ∀ (lines : List (List Char)) (start : Float64 × Float64),
      (lines.foldl (fun (avgLatency, lossPercent) line =>
        ((latencyFigure parseFloat line).getD avgLatency,
          (lossFigures parseFloat line).getLastD lossPercent)) start).2 =
        (lines.flatMap (lossFigures parseFloat)).getLastD start.2 := by
    intro lines
    induction lines with
    | nil => exact fun _ => rfl
    | cons line lines ih =>
      intro start
      rw [List.foldl_cons, ih, List.flatMap_cons]
      simp only [List.getLastD_eq_getLast?, List.getLast?_append, Option.getD_or]
  exact loop _ _

end

end GatewayPing
end DatrixOps
