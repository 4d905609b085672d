import Mathlib.Data.List.Basic
import PaymentsProcessor.Python.Basic
import PaymentsProcessor.Python.Uuid

namespace Python

-- `s.partition(sep)` for one character: before, whether it was found, after.
def partition (sep : Char) (s : List Char) : List Char × Bool × List Char :=
  let before := s.takeWhile (· ≠ sep)
  match s.drop before.length with
  | [] => (before, false, [])
  | _ :: after => (before, true, after)

-- `s.rpartition(sep)[2]`
def afterLast (sep : Char) (s : List Char) : List Char :=
  (s.reverse.takeWhile (· ≠ sep)).reverse

-- An `IPv4Address` or `IPv6Address`. No modelled function reads a scope id.
inductive IPAddress where
  | v4 (a : BitVec 32)
  | v6 (a : BitVec 128)
deriving DecidableEq, Repr

namespace IPAddress

def isDecDigit (c : Char) : Bool := '0' ≤ c ∧ c ≤ '9'

def isHexDigit (c : Char) : Bool := (Hex.value c).isSome

def parseOctet (cs : List Char) : Option ℕ :=
  if cs = [] ∨ 3 < cs.length ∨ ¬cs.all isDecDigit ∨ (cs.head? = some '0' ∧ 1 < cs.length) then none
  else
    let n := cs.foldl (fun n c => 10 * n + (c.toNat - 48)) 0
    if n ≤ 255 then some n else none

def parseV4 (cs : List Char) : Option (BitVec 32) :=
  match (cs.splitOn '.').map parseOctet with
  | [some a, some b, some c, some d] => some (BitVec.ofNat 32 (((a * 256 + b) * 256 + c) * 256 + d))
  | _ => none

def parseHextet (cs : List Char) : Option ℕ :=
  if cs = [] ∨ 4 < cs.length ∨ ¬cs.all isHexDigit then none else Hex.decode cs

def parseHextets (parts : List (List Char)) : Option (List ℕ) := parts.mapM parseHextet

def fromHextets (hs : List ℕ) : BitVec 128 :=
  BitVec.ofNat 128 (hs.foldl (fun n h => n * 65536 + h) 0)

-- A trailing dotted quad stands for the last two hextets.
def expandV4Suffix (parts : List (List Char)) : Option (List (List Char)) :=
  match parts.getLast? with
  | some last =>
      if '.' ∈ last then
        (parseV4 last).map fun a =>
          parts.dropLast ++ [Hex.encode 4 (a.toNat / 65536), Hex.encode 4 (a.toNat % 65536)]
      else some parts
  | none => none

-- The positions of the empty parts that are neither first nor last.
def innerGaps (parts : List (List Char)) : List ℕ :=
  (List.range parts.length).filter fun i =>
    0 < i ∧ i + 1 < parts.length ∧ parts[i]? = some []

-- `IPv6Address._ip_int_from_string`
def parseV6Parts (parts : List (List Char)) : Option (BitVec 128) :=
  if 9 < parts.length then none
  else match innerGaps parts with
    | [] =>
        if parts.length = 8 then (parseHextets parts).map fromHextets else none
    | [gap] =>
        let leading := parts.take gap
        let trailing := parts.drop (gap + 1)
        if (leading.head? = some [] ∧ leading.length ≠ 1) ∨
            (trailing.getLast? = some [] ∧ trailing.length ≠ 1) then none
        else
          let hi := if leading = [[]] then [] else leading
          let lo := if trailing = [[]] then [] else trailing
          if 8 ≤ hi.length + lo.length then none
          else do
            let hs ← parseHextets hi
            let ls ← parseHextets lo
            some (fromHextets (hs ++ List.replicate (8 - (hi.length + lo.length)) 0 ++ ls))
    | _ => none

def parseV6 (s : List Char) : Option (BitVec 128) :=
  let (addr, found, scope_id) := partition '%' s
  if '/' ∈ s ∨ (found ∧ (scope_id = [] ∨ '%' ∈ scope_id)) ∨ 45 < addr.length then none
  else
    let parts := addr.splitOn ':'
    if parts.length < 3 then none else (expandV4Suffix parts).bind parseV6Parts

-- `ipaddress.ip_address(s)`
def ip_address (s : List Char) : Except PyError IPAddress :=
  match parseV4 s with
  | some a => .ok (.v4 a)
  | none => match parseV6 s with
    | some a => .ok (.v6 a)
    | none => .error .ValueError

def ipv4_mapped : IPAddress → Option IPAddress
  | .v4 _ => none
  | .v6 a => if a.toNat / 2 ^ 32 = 0xffff then some (.v4 (BitVec.ofNat 32 a.toNat)) else none

-- A network by its first address and prefix length.
abbrev Network := ℕ × ℕ

def net4 (a b c d len : ℕ) : Network := (((a * 256 + b) * 256 + c) * 256 + d, len)

def net6 (leading : List ℕ) (len : ℕ) : Network :=
  (leading.foldl (fun n h => n * 65536 + h) 0 * 65536 ^ (8 - leading.length), len)

def inNetwork (width a : ℕ) (net : Network) : Bool :=
  a / 2 ^ (width - net.2) = net.1 / 2 ^ (width - net.2)

def private4 : List Network :=
  [net4 0 0 0 0 8, net4 10 0 0 0 8, net4 127 0 0 0 8, net4 169 254 0 0 16, net4 172 16 0 0 12,
   net4 192 0 0 0 24, net4 192 0 0 170 31, net4 192 0 2 0 24, net4 192 168 0 0 16,
   net4 198 18 0 0 15, net4 198 51 100 0 24, net4 203 0 113 0 24, net4 240 0 0 0 4,
   net4 255 255 255 255 32]

def privateExceptions4 : List Network := [net4 192 0 0 9 32, net4 192 0 0 10 32]

def private6 : List Network :=
  [net6 [0, 0, 0, 0, 0, 0, 0, 1] 128, net6 [] 128, net6 [0, 0, 0, 0, 0, 0xffff] 96,
   net6 [0x64, 0xff9b, 1] 48, net6 [0x100] 64, net6 [0x2001] 23, net6 [0x2001, 0xdb8] 32,
   net6 [0x2002] 16, net6 [0x3fff] 20, net6 [0xfc00] 7, net6 [0xfe80] 10]

def privateExceptions6 : List Network :=
  [net6 [0x2001, 1, 0, 0, 0, 0, 0, 1] 128, net6 [0x2001, 1, 0, 0, 0, 0, 0, 2] 128,
   net6 [0x2001, 3] 32, net6 [0x2001, 4, 0x112] 48, net6 [0x2001, 0x20] 28, net6 [0x2001, 0x30] 28]

def reserved6 : List Network :=
  [net6 [] 8, net6 [0x100] 8, net6 [0x200] 7, net6 [0x400] 6, net6 [0x800] 5, net6 [0x1000] 4,
   net6 [0x4000] 3, net6 [0x6000] 3, net6 [0x8000] 3, net6 [0xa000] 3, net6 [0xc000] 3,
   net6 [0xe000] 4, net6 [0xf000] 5, net6 [0xf800] 6, net6 [0xfe00] 9]

-- The predicates look at an IPv4-mapped address as the IPv4 address. Here they
-- are only asked of addresses that have been unwrapped.
def is_private : IPAddress → Bool
  | .v4 a => private4.any (inNetwork 32 a.toNat) && !privateExceptions4.any (inNetwork 32 a.toNat)
  | .v6 a => private6.any (inNetwork 128 a.toNat) && !privateExceptions6.any (inNetwork 128 a.toNat)

def is_loopback : IPAddress → Bool
  | .v4 a => inNetwork 32 a.toNat (net4 127 0 0 0 8)
  | .v6 a => a.toNat = 1

def is_link_local : IPAddress → Bool
  | .v4 a => inNetwork 32 a.toNat (net4 169 254 0 0 16)
  | .v6 a => inNetwork 128 a.toNat (net6 [0xfe80] 10)

def is_multicast : IPAddress → Bool
  | .v4 a => inNetwork 32 a.toNat (net4 224 0 0 0 4)
  | .v6 a => inNetwork 128 a.toNat (net6 [0xff00] 8)

def is_reserved : IPAddress → Bool
  | .v4 a => inNetwork 32 a.toNat (net4 240 0 0 0 4)
  | .v6 a => reserved6.any (inNetwork 128 a.toNat)

def is_unspecified : IPAddress → Bool
  | .v4 a => a.toNat = 0
  | .v6 a => a.toNat = 0

-- 100.64.0.0/10 is shared address space: neither private nor global.
def is_shared : IPAddress → Bool
  | .v4 a => inNetwork 32 a.toNat (net4 100 64 0 0 10)
  | .v6 _ => false

def is_global (ip : IPAddress) : Bool := !ip.is_shared && !ip.is_private

def is_site_local : IPAddress → Bool
  | .v4 _ => false
  | .v6 a => inNetwork 128 a.toNat (net6 [0xfec0] 10)

def hextets (a : ℕ) : List ℕ :=
  (List.range 8).map fun i => a / 65536 ^ (7 - i) % 65536

-- The start and length of the first longest run of zeros.
def longestZeros : List ℕ → ℕ → ℕ → ℕ × ℕ → ℕ × ℕ
  | [], _, _, best => best
  | h :: hs, index, run, best =>
      if h = 0 then
        longestZeros hs (index + 1) (run + 1)
          (if best.2 < run + 1 then (index - run, run + 1) else best)
      else longestZeros hs (index + 1) 0 best

def hexStr (n : ℕ) : List Char := Nat.toDigits 16 n

-- `str(ip)`
def str : IPAddress → String
  | .v4 a =>
      let n := a.toNat
      ".".intercalate ([n / 16777216, n / 65536 % 256, n / 256 % 256, n % 256].map toString)
  | .v6 a =>
      let hs := hextets a.toNat
      let (start, len) := longestZeros hs 0 0 (0, 0)
      let text := fun l : List ℕ => List.intercalate [':'] (l.map hexStr)
      String.ofList (if 1 < len then text (hs.take start) ++ [':', ':'] ++ text (hs.drop (start + len))
        else text hs)

end IPAddress

end Python
