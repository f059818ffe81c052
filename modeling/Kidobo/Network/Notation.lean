import Kidobo.Foundation.Text
import Kidobo.Network.Types

/-!
# Textual notation of addresses and networks

Addresses are read and printed as the standard library documents it: dotted
decimal without superfluous zeros for IPv4, and for IPv6 up to eight groups of
hexadecimal digits with one `::` and an optional dotted tail. A network is an
address with an optional prefix length.

## Main definitions

* `parseIpAddr`, `displayIpv4`, `displayIpv6`
* `parseIpCidrToken`, `parseIpCidrStrict`, `parseIpCidrNonStrict`
* `CanonicalCidr.display`
-/

namespace Kidobo

open Foundation

/-! ### Reading addresses -/

/-- A reader consumes a prefix of the text. -/
abbrev Reader (α : Type) := List Char → Option (α × List Char)

/-- The value of a digit in this radix. -/
def toDigit (radix : ℕ) (char : Char) : Option ℕ :=
  let digit :=
    if '0' ≤ char ∧ char ≤ '9' then some (char.toNat - '0'.toNat)
    else if 'a' ≤ char ∧ char ≤ 'z' then some (char.toNat - 'a'.toNat + 10)
    else if 'A' ≤ char ∧ char ≤ 'Z' then some (char.toNat - 'A'.toNat + 10)
    else none
  digit.filter fun value => value < radix

/-- The leading digits of a text and the text behind them. -/
def takeDigits (radix : ℕ) : List Char → List ℕ × List Char
  | [] => ([], [])
  | char :: rest =>
    match toDigit radix char with
    | none => ([], char :: rest)
    | some digit => (digit :: (takeDigits radix rest).1, (takeDigits radix rest).2)

/-- The number with these digits. -/
def ofDigits (radix : ℕ) (digits : List ℕ) : ℕ :=
  digits.foldl (fun value digit => value * radix + digit) 0

/-- `read_number`: between one and `maxDigits` digits, below `bound`. -/
def readNumber (radix maxDigits : ℕ) (allowZeroPrefix : Bool) (bound : ℕ) : Reader ℕ :=
  fun text =>
    let (digits, rest) := takeDigits radix text
    if digits.isEmpty || maxDigits < digits.length then none
    else if !allowZeroPrefix && digits.head? == some 0 && 1 < digits.length then none
    else if ofDigits radix digits < bound then some (ofDigits radix digits, rest) else none

/-- `read_given_char`. -/
def readGivenChar (expected : Char) (text : List Char) : Option (List Char) :=
  match text with
  | char :: rest => if char = expected then some rest else none
  | [] => none

/-- `read_separator`: every item but the first follows a separator. -/
def readSeparator {α : Type} (separator : Char) (index : ℕ) (inner : Reader α) : Reader α :=
  fun text => if index = 0 then inner text else (readGivenChar separator text).bind inner

/-- The remaining `count` octets of a dotted address. -/
def readOctets (index : ℕ) : ℕ → ℕ → Reader ℕ
  | 0, value => fun text => some (value, text)
  | count + 1, value => fun text =>
    match readSeparator '.' index (readNumber 10 3 false 256) text with
    | none => none
    | some (octet, rest) => readOctets (index + 1) count (value * 256 + octet) rest

/-- `read_ipv4_addr`. -/
def readIpv4Addr : Reader ℕ := readOctets 0 4 0

/-- `read_groups`: at most `limit` groups, whether a dotted tail was read, and
the text behind them. -/
def readGroups (limit index : ℕ) : ℕ → List Char → List ℕ × Bool × List Char
  | 0, text => ([], false, text)
  | remaining + 1, text =>
    let embedded :=
      if index + 1 < limit then readSeparator ':' index readIpv4Addr text else none
    match embedded with
    | some (address, rest) => ([address / 65536, address % 65536], true, rest)
    | none =>
      match readSeparator ':' index (readNumber 16 4 true 65536) text with
      | none => ([], false, text)
      | some (group, rest) =>
        let (groups, dotted, behind) := readGroups limit (index + 1) remaining rest
        (group :: groups, dotted, behind)

/-- `read_ipv6_addr`. -/
def readIpv6Addr : Reader ℕ := fun text =>
  let (front, dotted, rest) := readGroups 8 0 8 text
  if front.length = 8 then some (ofDigits 65536 front, rest)
  else if dotted then none
  else
    match (readGivenChar ':' rest).bind (readGivenChar ':') with
    | none => none
    | some rest =>
      let limit := 8 - (front.length + 1)
      let (back, _, rest) := readGroups limit 0 limit rest
      let zeros := List.replicate (8 - front.length - back.length) 0
      some (ofDigits 65536 (front ++ zeros ++ back), rest)

/-- An address of one of the families. -/
inductive IpAddr where
  | v4 (address : BitVec 32)
  | v6 (address : BitVec 128)
  deriving DecidableEq

/-- `IpAddr::from_str`: the IPv4 reading has precedence, and nothing may follow
the address. -/
def parseIpAddr (text : List Char) : Option IpAddr :=
  match readIpv4Addr text with
  | some (address, rest) => if rest.isEmpty then some (.v4 (BitVec.ofNat 32 address)) else none
  | none =>
    match readIpv6Addr text with
    | some (address, rest) => if rest.isEmpty then some (.v6 (BitVec.ofNat 128 address)) else none
    | none => none

/-- `u8::from_str`: decimal digits behind an optional plus sign. -/
def parseU8 (text : List Char) : Option ℕ :=
  let unsigned := if text.head? = some '+' then text.tail else text
  let (digits, rest) := takeDigits 10 unsigned
  if digits.isEmpty || !rest.isEmpty then none
  else if ofDigits 10 digits < 256 then some (ofDigits 10 digits) else none

/-- `usize::from_str` on a 64-bit target: decimal digits behind an optional plus sign. -/
def parseUsize (text : List Char) : Option ℕ :=
  let unsigned := if text.head? = some '+' then text.tail else text
  let (digits, rest) := takeDigits 10 unsigned
  if digits.isEmpty || !rest.isEmpty then none
  else if ofDigits 10 digits < 2 ^ 64 then some (ofDigits 10 digits) else none

/-! ### Reading networks -/

/-- The network of an address and a prefix length. -/
def cidrOfIpAddr : IpAddr → ℕ → Option CanonicalCidr
  | .v4 address, prefixLen => (Cidr.new address prefixLen).map .v4
  | .v6 address, prefixLen => (Cidr.new address prefixLen).map .v6

/-- `str::split_once`. -/
def splitOnce (separator : Char) (text : List Char) : Option (List Char × List Char) :=
  match text.dropWhile (· ≠ separator) with
  | [] => none
  | _ :: behind => some (text.takeWhile (· ≠ separator), behind)

/-- `parse_ip_cidr_token`. -/
def parseIpCidrToken (token : List Char) : Option CanonicalCidr :=
  match parseIpAddr token with
  | some (.v4 address) => cidrOfIpAddr (.v4 address) 32
  | some (.v6 address) => cidrOfIpAddr (.v6 address) 128
  | none => do
    let (addrPart, prefixPart) ← splitOnce '/' token
    let prefixLen ← parseU8 prefixPart
    let ip ← parseIpAddr addrPart
    cidrOfIpAddr ip prefixLen

/-- `parse_ip_cidr_strict`. -/
def parseIpCidrStrict (input : List Char) : Option CanonicalCidr :=
  let normalized := trim input
  if normalized.isEmpty then none
  else if (splitWhitespace normalized).length ≠ 1 then none
  else parseIpCidrToken normalized

/-- `parse_ip_cidr_non_strict`: the first word. -/
def parseIpCidrNonStrict (input : List Char) : Option CanonicalCidr :=
  match splitWhitespace input with
  | [] => none
  | word :: _ => if (trim word).isEmpty then none else parseIpCidrToken (trim word)

/-! ### Printing -/

/-- An IPv4 address in dotted decimal notation. -/
def displayIpv4 (address : BitVec 32) : String :=
  ".".intercalate ([24, 16, 8, 0].map fun shift => toString (address.toNat / 2 ^ shift % 256))

/-- The hexadecimal groups of an IPv6 address. -/
def ipv6Groups (address : BitVec 128) : List ℕ :=
  [112, 96, 80, 64, 48, 32, 16, 0].map fun shift => address.toNat / 2 ^ shift % 65536

/-- Start and length of the first longest run of zero groups: the longest run
so far and the run that reaches the current group. -/
def longestZeroRun : ℕ → ℕ × ℕ → ℕ × ℕ → List ℕ → ℕ × ℕ
  | _, longest, _, [] => longest
  | index, longest, current, group :: rest =>
    if group = 0 then
      let current := if current.2 = 0 then (index, 1) else (current.1, current.2 + 1)
      longestZeroRun (index + 1) (if longest.2 < current.2 then current else longest) current rest
    else longestZeroRun (index + 1) longest (0, 0) rest

/-- Groups separated by colons. -/
def displayGroups (groups : List ℕ) : String :=
  ":".intercalate (groups.map fun group => String.ofList (Nat.toDigits 16 group))

/-- An IPv6 address with its longest run of zero groups compressed. -/
def displayIpv6 (address : BitVec 128) : String :=
  let groups := ipv6Groups address
  if groups.take 6 = [0, 0, 0, 0, 0, 65535] then
    "::ffff:" ++ displayIpv4 (address.setWidth 32)
  else
    let (start, length) := longestZeroRun 0 (0, 0) (0, 0) groups
    if 1 < length then
      displayGroups (groups.take start) ++ "::" ++ displayGroups (groups.drop (start + length))
    else displayGroups groups

/-- A network as its address and prefix length. -/
def CanonicalCidr.display : CanonicalCidr → String
  | v4 cidr => displayIpv4 cidr.network ++ "/" ++ toString cidr.prefixLen
  | v6 cidr => displayIpv6 cidr.network ++ "/" ++ toString cidr.prefixLen

example : (parseIpCidrStrict " 203.0.113.7/24 ".toList).map CanonicalCidr.display =
    some "203.0.113.0/24" := by decide +kernel

example : (parseIpCidrStrict "2001:DB8:0:0::1".toList).map CanonicalCidr.display =
    some "2001:db8::1/128" := by decide +kernel

end Kidobo
