import ContactCard.Fault
import ContactCard.Url.Host

/-!
# URLs

A URL as its parts: scheme, authority, path, parameters of the last path segment, query, fragment.
A part that is empty counts as missing. Reading is lenient: control characters and spaces before the
URL are dropped, tabs and line ends everywhere; only a malformed authority is refused.
-/

namespace ContactCard

open Text

/-- The parts of a URL. -/
structure Url where
  scheme : List Char
  authority : List Char
  path : List Char
  params : List Char
  query : List Char
  fragment : List Char
  deriving DecidableEq

namespace Url

/-! ### What schemes have -/

/-- The schemes whose URLs may be relative. -/
def relativeSchemes : List String :=
  ["", "ftp", "http", "gopher", "nntp", "imap", "wais", "file", "https", "shttp", "mms",
   "prospero", "rtsp", "rtspu", "sftp", "svn", "svn+ssh", "ws", "wss"]

/-- The schemes whose URLs have an authority. -/
def authoritySchemes : List String :=
  ["", "ftp", "http", "gopher", "nntp", "telnet", "imap", "wais", "file", "mms", "https", "shttp",
   "snews", "prospero", "rtsp", "rtspu", "rsync", "svn", "svn+ssh", "sftp", "nfs", "git",
   "git+ssh", "ws", "wss"]

/-- The schemes whose last path segment may have parameters. -/
def paramsSchemes : List String :=
  ["", "ftp", "hdl", "prospero", "http", "imap", "https", "shttp", "rtsp", "rtspu", "sip",
   "sips", "mms", "sftp", "tel"]

/-- Whether the scheme is one of the list. -/
def isAmong (scheme : List Char) (schemes : List String) : Bool :=
  schemes.any fun s ↦ s.toList == scheme

/-- A character of a scheme. -/
def isSchemeChar (c : Char) : Bool := c.isAlphanum || c == '+' || c == '-' || c == '.'

/-! ### Reading -/

/-- The characters that count. -/
def cleaned (cs : List Char) : List Char :=
  (cs.dropWhile fun c ↦ c.toNat ≤ 0x20).filter fun c ↦ c != '\t' && c != '\r' && c != '\n'

/-- The scheme and what follows its colon. -/
def scheme? (cs : List Char) : Option (List Char × List Char) :=
  match cut ':' cs with
  | (c :: scheme, some rest) =>
    if c.isAlpha && scheme.all isSchemeChar then some ((c :: scheme).map Char.toLower, rest)
    else none
  | _ => none

/-- A character at which an authority ends. -/
def endsAuthority (c : Char) : Bool := c == '/' || c == '?' || c == '#'

/-- The authority after two slashes, and the rest. -/
def splitAuthority : List Char → List Char × List Char
  | '/' :: '/' :: rest =>
    (rest.takeWhile fun c ↦ !endsAuthority c, rest.dropWhile fun c ↦ !endsAuthority c)
  | cs => ([], cs)

/-- The characters up to the last slash, and those after it. -/
def splitAtLastSlash (path : List Char) : List Char × List Char :=
  let segment := (path.reverse.takeWhile (· != '/')).reverse
  (path.take (path.length - segment.length), segment)

/-- The path without the parameters of its last segment, and these. -/
def splitParams (path : List Char) : List Char × List Char :=
  let (directory, segment) := splitAtLastSlash path
  let (before, after) := cut ';' segment
  (directory ++ before, after.getD [])

/-- Reads a URL. `fallback` is the scheme of one that has none. -/
def ofChars (cs fallback : List Char) : Except Fault Url :=
  let cs := cleaned cs
  let (scheme, rest) := (scheme? cs).getD (fallback, cs)
  let (authority, rest) := splitAuthority rest
  let (rest, fragment) := cut '#' rest
  let (path, query) := cut '?' rest
  let (path, params) := if isAmong scheme paramsSchemes then splitParams path else (path, [])
  if isAuthority authority then
    .ok ⟨scheme, authority, path, params, query.getD [], fragment.getD []⟩
  else .error .badAuthority

/-! ### Writing -/

/-- A part with its delimiter, if there is one. -/
def delimited (c : Char) (part : List Char) : List Char := if part.isEmpty then [] else c :: part

/-- Whether a URL is written with an authority, be it an empty one. A path that begins with two
slashes takes the place of an empty one. -/
def hasAuthority (u : Url) (path : List Char) : Bool :=
  !u.authority.isEmpty ||
    (!u.scheme.isEmpty && isAmong u.scheme authoritySchemes && !(['/', '/'].isPrefixOf path))

/-- Writes a URL. -/
def toChars (u : Url) : List Char :=
  let path := u.path ++ delimited ';' u.params
  let path :=
    if hasAuthority u path then
      '/' :: '/' :: u.authority ++
        (if path.isEmpty || path.head? = some '/' then path else '/' :: path)
    else path
  (if u.scheme.isEmpty then [] else u.scheme ++ [':']) ++ path ++ delimited '?' u.query ++
    delimited '#' u.fragment

/-! ### Relative URLs -/

/-- The segments with the empty ones between the first and the last left out. -/
def dropInnerEmpty : List (List Char) → List (List Char)
  | [] => []
  | [s] => [s]
  | first :: rest =>
    first :: (rest.dropLast.filter fun s ↦ !s.isEmpty) ++ rest.getLast?.toList

/-- The segments with the dots resolved: one dot stands for nothing, two take back the segment
before them, if there is one. -/
def resolveDots (segments : List (List Char)) : List (List Char) :=
  segments.foldl (fun done s ↦
    if s = ['.', '.'] then done.dropLast else if s = ['.'] then done else done ++ [s]) []

/-- The path that a path means relative to that of `base`. -/
def joinPaths (base path : List Char) : List Char :=
  let baseParts := split '/' base
  let directory := if baseParts.getLast? = some [] then baseParts else baseParts.dropLast
  let segments :=
    if path.head? = some '/' then split '/' path
    else dropInnerEmpty (directory ++ split '/' path)
  let resolved := resolveDots segments
  let endsInDots := segments.getLast? = some ['.'] ∨ segments.getLast? = some ['.', '.']
  let joined := Text.join '/' (if endsInDots then resolved ++ [[]] else resolved)
  if joined.isEmpty then ['/'] else joined

/-- The URL that `u` means relative to `base`, both of the same scheme. -/
def resolve (base u : Url) : Url :=
  let hasAuthorities := isAmong u.scheme authoritySchemes
  if hasAuthorities ∧ !u.authority.isEmpty then u
  else
    let authority := if hasAuthorities then base.authority else u.authority
    if u.path.isEmpty ∧ u.params.isEmpty then
      { u with
        authority := authority, path := base.path, params := base.params,
        query := if u.query.isEmpty then base.query else u.query }
    else { u with authority := authority, path := joinPaths base.path u.path }

/-- The URL that a text means relative to a base. A text of another scheme than the base, or of one
that knows no relative URLs, is left as it is. -/
def join (base text : String) : Except Fault String :=
  if base.isEmpty then .ok text
  else if text.isEmpty then .ok base
  else do
    let b ← ofChars base.toList []
    let u ← ofChars text.toList b.scheme
    if u.scheme ≠ b.scheme ∨ !isAmong u.scheme relativeSchemes then return text
    return String.ofList (b.resolve u).toChars

end Url

end ContactCard
