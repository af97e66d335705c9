import Debitmetre.Wire.Json.Text

/-!
# Socket addresses

The texts of addresses with a port, as the standard library of the source reads
them: four octets without leading zeros, or eight groups of which a run of zeros
may be left out and the last two may be written as four octets.
-/

namespace Wire

open Ascii Json

/-- `Ipv4Addr::new`. -/
structure Ipv4Addr where
  a : UInt8
  b : UInt8
  c : UInt8
  d : UInt8
  deriving DecidableEq, Repr

/-- An address of eight segments. -/
structure Ipv6Addr where
  segments : Vector UInt16 8
  deriving DecidableEq, Repr

/-- An address and a port. -/
inductive SocketAddr
  | v4 (ip : Ipv4Addr) (port : UInt16)
  | v6 (ip : Ipv6Addr) (port : UInt16) (scopeId : UInt32)
  deriving DecidableEq, Repr

namespace SocketAddr

/-- A reader of the first part of a text, which goes on with the rest. -/
abbrev Parser (α : Type) := Bytes → Option (α × Bytes)

def readGivenChar (c : UInt8) : Parser Unit
  | b :: text => if b = c then some ((), text) else none
  | [] => none

/-- A separator is read before all but the first of several items. -/
def readSeparator {α : Type} (separator : UInt8) (first : Bool) (inner : Parser α) : Parser α :=
  fun text =>
    if first then inner text
    else (readGivenChar separator text).bind fun ((), text) => inner text

/-- `char::to_digit` finds a digit. -/
def isDigitOf (radix : Nat) (b : UInt8) : Bool := isHex b && hexValue b < radix

/-- A number below some size. -/
def readNumber (radix : Nat) (maxDigits : Option Nat) (allowZeroPrefix : Bool) (size : Nat) :
    Parser Nat := fun text =>
  let digits := text.takeWhile (isDigitOf radix)
  let number := digits.foldl (fun number b => number * radix + hexValue b) 0
  if digits = [] ∨ maxDigits.any (· < digits.length) = true ∨ size ≤ number then none
  else if allowZeroPrefix = false ∧ digits.head? = some zero ∧ 1 < digits.length then none
  else some (number, text.dropWhile (isDigitOf radix))

/-- An octet is not octal. -/
def readOctet : Parser UInt8 := fun text =>
  (readNumber 10 (some 3) false UInt8.size text).map fun (n, text) => (UInt8.ofNat n, text)

/-- Four numbers with dots between them. -/
def readIpv4Addr : Parser Ipv4Addr := fun text => do
  let (a, text) ← readSeparator dot true readOctet text
  let (b, text) ← readSeparator dot false readOctet text
  let (c, text) ← readSeparator dot false readOctet text
  let (d, text) ← readSeparator dot false readOctet text
  return (⟨a, b, c, d⟩, text)

/-- `u16::from_be_bytes`. -/
def fromBeBytes (high low : UInt8) : UInt16 := UInt16.ofNat (high.toNat * 256 + low.toNat)

/-- Groups of an address, at most so many, and whether they end with four octets. -/
def readGroups (first : Bool) : Nat → Bytes → List UInt16 × Bool × Bytes
  | 0, text => ([], false, text)
  | left + 1, text =>
      -- Four octets stand for two groups.
      let ipv4 := if left = 0 then none else readSeparator colon first readIpv4Addr text
      match ipv4 with
      | some (address, text) =>
          ([fromBeBytes address.a address.b, fromBeBytes address.c address.d], true, text)
      | none =>
          match readSeparator colon first (readNumber 16 (some 4) true UInt16.size) text with
          | some (group, text) =>
              let (groups, ipv4, text) := readGroups false left text
              (UInt16.ofNat group :: groups, ipv4, text)
          | none => ([], false, text)

/-- The address of eight groups. -/
def ofGroups (groups : List UInt16) : Ipv6Addr := ⟨Vector.ofFn fun i => groups.getD i 0⟩

/-- Segments with colons between them, of which one run may be left out. -/
def readIpv6Addr : Parser Ipv6Addr := fun text =>
  let (head, headIpv4, text) := readGroups true 8 text
  if head.length = 8 then some (ofGroups head, text)
  else if headIpv4 then none
  else do
    let ((), text) ← readGivenChar colon text
    let ((), text) ← readGivenChar colon text
    let (tail, _, text) := readGroups true (8 - (head.length + 1)) text
    let zeros := List.replicate (8 - tail.length - head.length) 0
    return (ofGroups (head ++ zeros ++ tail), text)

/-- A colon and a number. -/
def readPort : Parser UInt16 := fun text => do
  let ((), text) ← readGivenChar colon text
  let (port, text) ← readNumber 10 none true UInt16.size text
  return (UInt16.ofNat port, text)

/-- A percent sign and a number. -/
def readScopeId : Parser UInt32 := fun text => do
  let ((), text) ← readGivenChar 0x25 text
  let (scopeId, text) ← readNumber 10 none true UInt32.size text
  return (UInt32.ofNat scopeId, text)

def readSocketAddrV4 : Parser SocketAddr := fun text => do
  let (ip, text) ← readIpv4Addr text
  let (port, text) ← readPort text
  return (.v4 ip port, text)

def readSocketAddrV6 : Parser SocketAddr := fun text => do
  let ((), text) ← readGivenChar lbracket text
  let (ip, text) ← readIpv6Addr text
  let (scopeId, text) := (readScopeId text).getD (0, text)
  let ((), text) ← readGivenChar rbracket text
  let (port, text) ← readPort text
  return (.v6 ip port scopeId, text)

/-- `str::parse::<SocketAddr>`. -/
def parse (text : Bytes) : Option SocketAddr :=
  match readSocketAddrV4 text <|> readSocketAddrV6 text with
  | some (address, []) => some address
  | some (_, _ :: _) | none => none

/-- The last groups of an address can be four octets. -/
example : parse (utf8 "[::ffff:1.2.3.4%7]:80") =
    some (.v6 ⟨#v[0, 0, 0, 0, 0, 0xffff, 0x102, 0x304]⟩ 80 7) := rfl

end SocketAddr

end Wire
