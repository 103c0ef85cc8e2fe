import ContactCard.Text.Split

/-!
# Hosts in URLs

The authority of a URL is a host, before which a user may stand and after which a port. A host
between brackets is an IPv6 address, or an address of a future format: `v`, hexadecimal digits, a
point and at least one more character. Once an authority holds a pair of brackets anywhere, its host
must be such an address, with brackets or without. No character of an authority may be compatible
with a delimiter of URLs, since a later normalisation would turn it into one.
-/

namespace ContactCard.Url

open Text

/-- A decimal digit of ASCII. -/
def isDecimal (c : Char) : Bool := '0' ≤ c && c ≤ '9'

/-- A hexadecimal digit of ASCII. -/
def isHexadecimal (c : Char) : Bool :=
  isDecimal c || ('a' ≤ c && c ≤ 'f') || ('A' ≤ c && c ≤ 'F')

/-- The value of decimal digits. -/
def decimalValue (cs : List Char) : Nat :=
  cs.foldl (fun n c ↦ 10 * n + (c.toNat - '0'.toNat)) 0

/-- A number from 0 to 255 without leading zeros. -/
def isOctet (cs : List Char) : Bool :=
  !cs.isEmpty && cs.all isDecimal && cs.length ≤ 3 && (cs == ['0'] || cs.head? != some '0') &&
    decimalValue cs ≤ 255

/-- Four octets between points. -/
def isIpv4 (cs : List Char) : Bool :=
  let octets := split '.' cs
  octets.length == 4 && octets.all isOctet

/-- One to four hexadecimal digits. -/
def isGroup (cs : List Char) : Bool :=
  !cs.isEmpty && cs.all isHexadecimal && cs.length ≤ 4

/-- The groups between the colons of an IPv6 address; an IPv4 address at its end counts as two. -/
def ipv6Groups? (cs : List Char) : Option (List (List Char)) :=
  let parts := split ':' cs
  let last := parts.getLastD []
  if last.contains '.' then
    if isIpv4 last then some (parts.dropLast ++ [['0'], ['0']]) else none
  else some parts

/-- The groups on one side of a gap. A gap at an end of the address leaves an empty group there. -/
def besideGap (groups : List (List Char)) : List (List Char) :=
  if groups == [[]] then [] else groups

/-- Eight groups, or at most seven around a gap, which is an empty group that is neither the first
nor the last. -/
def areIpv6Groups : List (List Char) → Bool
  | [] => false
  | first :: rest =>
    match rest.dropLast.findIdx? List.isEmpty with
    | none => rest.length == 7 && (first :: rest).all isGroup
    | some i =>
      let groups := besideGap (first :: rest.take i) ++ besideGap (rest.drop (i + 1))
      groups.all isGroup && groups.length ≤ 7

/-- An IPv6 address, which a percent sign and a zone may follow. -/
def isIpv6 (cs : List Char) : Bool :=
  let (address, zone) := cut '%' cs
  !cs.contains '/' && zone.elim true (fun z ↦ !z.isEmpty && !z.contains '%') &&
    (ipv6Groups? address).elim false areIpv6Groups

/-- An address of a future format. -/
def isFutureAddress : List Char → Bool
  | 'v' :: rest =>
    match rest.dropWhile isHexadecimal with
    | '.' :: c :: more =>
      (rest.head?.elim false isHexadecimal) && !(c :: more).contains '\n'
    | _ => false
  | _ => false

/-- What may stand between brackets. -/
def isAddress (cs : List Char) : Bool :=
  if cs.head? = some 'v' then isFutureAddress cs else isIpv6 cs

/-- The part of an authority after its last at sign. -/
def hostAndPort (cs : List Char) : List Char := (cs.reverse.takeWhile (· != '@')).reverse

/-- Whether the host is an address. Nothing stands before the bracket that opens it, and nothing but
a port after the one that closes it. -/
def hasAddress (cs : List Char) : Bool :=
  match cut '[' (hostAndPort cs) with
  | (before, some rest) =>
    let (address, port) := cut ']' rest
    before.isEmpty && (port.getD []).head?.elim true (· == ':') && isAddress address
  | (unbracketed, none) => isAddress (cut ':' unbracketed).1

/-- Whether the compatibility form of the character holds a delimiter: a slash, a question mark, a
number sign, an at sign or a colon. -/
def hidesDelimiter (c : Char) : Bool :=
  [0x2047, 0x2048, 0x2049, 0x2100, 0x2101, 0x2105, 0x2106, 0x2A74, 0xFE13, 0xFE16, 0xFE55, 0xFE56,
    0xFE5F, 0xFE6B, 0xFF03, 0xFF0F, 0xFF1A, 0xFF1F, 0xFF20].contains c.toNat

/-- Whether an authority with brackets has both kinds of them and an address for its host, and none
of its characters hides a delimiter. -/
def isAuthority (cs : List Char) : Bool :=
  let hostFits :=
    match cs.contains '[', cs.contains ']' with
    | true, true => hasAddress cs
    | false, false => true
    | _, _ => false
  hostFits && !cs.any hidesDelimiter

end ContactCard.Url
