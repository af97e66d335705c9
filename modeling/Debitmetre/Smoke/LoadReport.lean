import Debitmetre.Foundation.Failure
import Debitmetre.Summary.Read
import Debitmetre.Wire.Json.Written
import Mathlib.Algebra.GroupWithZero.Nat
import Mathlib.Data.List.DropRight
import Mathlib.Data.Rat.Defs

/-!
# The report of the load generator

What the smoke test makes of the report of a load: how many requests were
completed, how many failed, and whether that is accepted for the number of
requests that was asked for.  Counts are added modulo `2 ^ 64`, and what is not
an unsigned integer counts as zero.  Floating-point arithmetic is a parameter.
-/

namespace Debitmetre.Smoke

open Wire Wire.Json

/-- What is used of `f64`. -/
structure F64 (F : Type) where
  ofLit : NumLit → Option F
  ofInt : Int → F
  parse : List Char → Option F
  mul : F → F → F
  sub : F → F → F
  div : F → F → F
  abs : F → F
  lt : F → F → Bool
  /-- `1e-9`. -/
  billionth : F

variable {F : Type}

/-- The reference metrics parsed from the report. -/
structure OhaResult (F : Type) where
  completed : UInt64
  errors : UInt64
  rps : F
  p50Ms : F
  p95Ms : F
  p99Ms : F
  all2xx : Bool

/-- What follows the sign of a number. -/
def unsigned : List Char → List Char
  | '+' :: digits => digits
  | digits => digits

/-- `str::parse` of an unsigned integer below a bound. -/
def parseUnsigned {α : Type} (bound : Nat) (make : Nat → α) (text : String) : Option α :=
  let digits := unsigned text.toList
  let code := digits.foldl (fun n c => 10 * n + (c.toNat - 0x30)) 0
  if digits ≠ [] ∧ digits.all Char.isDigit ∧ code < bound then some (make code) else none

/-- `str::parse::<u16>`. -/
def parseU16 (text : String) : Option Nat := parseUnsigned 0x10000 id text

/-- A key of the status distribution stands for a success. -/
def isSuccessKey (key : String) : Bool :=
  let code := (parseU16 key).getD 0
  200 ≤ code && code < 300

/-- The sums with one entry of the status distribution. -/
def addStatus (sums : UInt64 × UInt64) (entry : String × Value F) : UInt64 × UInt64 :=
  let count := entry.2.asU64.getD 0
  if isSuccessKey entry.1 then (sums.1 + count, sums.2) else (sums.1, sums.2 + count)

/-- The failures with one entry of the error distribution. -/
def addError (errors : UInt64) (entry : String × Value F) : UInt64 :=
  errors + entry.2.asU64.getD 0

def statusCodeDistribution (root : Value F) : List (String × Value F) :=
  ((root.get "statusCodeDistribution").bind Value.asObject).getD []

def errorDistribution (root : Value F) : List (String × Value F) :=
  ((root.get "errorDistribution").bind Value.asObject).getD []

/-- Completed requests and failures. -/
def accounting (root : Value F) : UInt64 × UInt64 :=
  let sums := (statusCodeDistribution root).foldl addStatus (0, 0)
  (sums.1, (errorDistribution root).foldl addError sums.2)

section Reports

variable (floats : F64 F)

def asF64 : Value F → Option F
  | .number (.posInt n) => some (floats.ofInt n.toNat)
  | .number (.negInt n) => some (floats.ofInt n)
  | .number (.float x) => some x
  | _ => none

def getF64 (value : Value F) (key : String) : Option F := (value.get key).bind (asF64 floats)

/-- A latency, which is given in seconds, in milliseconds. -/
def getMs (value : Value F) (key : String) : F :=
  match value.get key with
  | some value => floats.mul ((asF64 floats value).getD (floats.ofInt 0)) (floats.ofInt 1000)
  | none => floats.ofInt 0

/-- The rate of success one value gives, as a fraction or in percent. -/
def rateOf (candidate : Value F) : Option F :=
  (candidate.get "successRate").bind fun value =>
    match asF64 floats value with
    | some fraction => some fraction
    | none =>
        (value.asStr.bind fun text => floats.parse (text.toList.rdropWhile (· == '%'))).map
          fun percent => floats.div percent (floats.ofInt 100)

/-- The rate of success, at the top level or in the summary. -/
def successRate (root : Value F) : Option F :=
  [root, (root.get "summary").getD .null].findSome? (rateOf floats)

/-- `parse_oha` of a document. -/
def ohaResult (root : Value F) : OhaResult F :=
  let summary := (root.get "summary").getD root
  let latency := (root.get "latencyPercentiles").getD .null
  let sums := accounting root
  { completed := sums.1
    errors := sums.2
    rps := (getF64 floats summary "requestsPerSec").getD (floats.ofInt 0)
    p50Ms := getMs floats latency "p50"
    p95Ms := getMs floats latency "p95"
    p99Ms := getMs floats latency "p99"
    all2xx :=
      sums.2 == 0 &&
        ((successRate floats root).map fun fraction =>
          floats.lt (floats.abs (floats.sub fraction (floats.ofInt 1))) floats.billionth).getD
            false }

/-- `parse_oha`.  How a text that is no document is described is left to the reader of
documents. -/
def parseOha (describe : String → String) (text : String) : Except String (OhaResult F) :=
  match Json.fromSlice floats.ofLit (utf8 text) with
  | none => .error ("cannot parse oha JSON output: " ++ describe text)
  | some root => .ok (ohaResult floats root)

/-- What `run_oha_and_sample` checks of a result. -/
def checkOha (count : UInt64) (result : OhaResult F) : Except String (OhaResult F) :=
  if 0 < result.errors then
    .error ("oha reported " ++ toString result.errors ++ " error(s); load failed")
  else if result.all2xx = false then .error "oha reported non-2xx responses; load failed"
  else if saturatingAdd result.completed result.errors ≠ count then
    .error ("oha accounting mismatch: completed=" ++ toString result.completed ++ " errors=" ++
      toString result.errors ++ " != requested count=" ++ toString count)
  else .ok result

/-- The result that is reported for a load of some requests. -/
def loadReport (describe : String → String) (count : UInt64) (text : String) :
    Except String (OhaResult F) :=
  (parseOha floats describe text).bind (checkOha count)

/-- A report is accepted if it has no failures and as many completed requests as were asked
for. -/
theorem accounting_of_loadReport {describe : String → String} {count : UInt64} {text : String}
    {result : OhaResult F} (accepted : loadReport floats describe count text = .ok result) :
    ∃ root, Json.fromSlice floats.ofLit (utf8 text) = some root ∧ accounting root = (count, 0) := by
  unfold loadReport parseOha at accepted
  cases read : Json.fromSlice floats.ofLit (utf8 text) with
  | none =>
      rw [read] at accepted
      cases accepted
  | some root =>
      rw [read] at accepted
      refine ⟨root, rfl, ?_⟩
      change checkOha count (ohaResult floats root) = .ok result at accepted
      unfold checkOha at accepted
      split at accepted
      case isTrue => cases accepted
      case isFalse noErrors =>
        have errors : (accounting root).2 = 0 :=
          UInt64.toNat_inj.mp (Nat.eq_zero_of_not_pos fun some => noErrors some)
        split at accepted
        case isTrue => cases accepted
        case isFalse =>
          split at accepted
          case isTrue => cases accepted
          case isFalse same =>
            have total : saturatingAdd (accounting root).1 (accounting root).2 = count :=
              not_not.mp same
            have small : (accounting root).1.toNat + (0 : UInt64).toNat < UInt64.size :=
              (accounting root).1.toNat_lt
            rw [errors, saturatingAdd, if_pos small, UInt64.add_zero] at total
            exact Prod.ext total errors

end Reports

/-- Arithmetic without rounding. -/
def rationals : F64 Rat where
  ofLit _ := none
  ofInt n := n
  parse _ := none
  mul x y := x * y
  sub x y := x - y
  div x y := x / y
  abs x := if x < 0 then -x else x
  lt x y := x < y
  billionth := 1 / 1000000000

end Debitmetre.Smoke
