import Mathlib.Data.List.DropRight
import Phantom.Lib.KeyOrder

namespace Phantom.Net

open Phantom.Lib

inductive IpAddr where
  | v4 (bits : BitVec 32)
  | v6 (bits : BitVec 128)
deriving DecidableEq

namespace IpAddr

def toCanonical : IpAddr → IpAddr
  | v4 bits => v4 bits
  | v6 bits => if bits >>> 32 = 0xFFFF then v4 (bits.setWidth 32) else v6 bits

def isLoopback : IpAddr → Bool
  | v4 bits => bits >>> 24 = 127
  | v6 bits => bits = 1

end IpAddr

/-- A subnet of the `ipnet` crate, by its `contains`. -/
structure IpNet where
  contains : IpAddr → Bool

def ascii (text : String) : Bytes := text.toList.map fun char => UInt8.ofNat char.toNat

def octet (digits : Bytes) : Option ℕ :=
  let number := digits.foldl (fun number digit => number * 10 + (digit.toNat - 48)) 0
  if digits ≠ [] ∧ digits.length ≤ 3 ∧ digits.all (fun digit => 48 ≤ digit && digit ≤ 57) ∧
      (digits.head? = some 48 → digits.length = 1) ∧ number < 256 then some number
  else none

def parseV4 (text : Bytes) : Option IpAddr :=
  match (text.splitOn 46).mapM octet with
  | some [a, b, c, d] => some (.v4 (BitVec.ofNat 32 (((a * 256 + b) * 256 + c) * 256 + d)))
  | _ => none

/-- `str::parse::<IpAddr>`, given how IPv6 addresses are read. -/
def parseIp (parseV6 : Bytes → Option (BitVec 128)) (text : Bytes) : Option IpAddr :=
  (parseV4 text).or ((parseV6 text).map .v6)

def splitOnce (separator : UInt8) (text : Bytes) : Option (Bytes × Bytes) :=
  if separator ∈ text then some (text.takeWhile (· ≠ separator), (text.dropWhile (· ≠ separator)).drop 1) else none

def rsplitOnce (separator : UInt8) (text : Bytes) : Option (Bytes × Bytes) :=
  (splitOnce separator text.reverse).map fun (last, first) => (first.reverse, last.reverse)

def stripPrefix (byte : UInt8) (text : Bytes) : Option Bytes := if text.head? = some byte then some text.tail else none

def trimMatches (dropped : UInt8 → Bool) (text : Bytes) : Bytes := (text.dropWhile dropped).rdropWhile dropped

/-- `str::trim` on visible ASCII, where a space and a tab are the white space. -/
def trim : Bytes → Bytes := trimMatches fun byte => byte = 32 || byte = 9

end Phantom.Net
