/-
  DesignMarkup/Api/Url.lean
  =========================
  **Addresses.**  A text is read as an absolute address: a scheme, for the schemes of
  the web an authority, a path, and perhaps a query and a fragment.  Reading brings
  the address into its normal form: scheme and host in lower case, no default port,
  no user, dots in the path resolved, and what may not stand in its part
  percent-encoded.
-/
import DesignMarkup.Text.Percent

namespace DesignMarkup

structure Url where
  scheme : String
  /-- The host and, unless it is the default one, the port. -/
  authority : Option String
  path : String
  query : Option String
  fragment : Option String
deriving DecidableEq, Repr

namespace Url

/-- The path and the query, which is what a server is asked for. -/
def target (u : Url) : String :=
  u.path ++ (match u.query with
    | some query => "?" ++ query
    | none => "")

def text (u : Url) : String :=
  u.scheme ++ ":" ++ (match u.authority with
    | some authority => "//" ++ authority
    | none => "") ++ u.target ++ (match u.fragment with
    | some fragment => "#" ++ fragment
    | none => "")

/-- Whether requests can be sent to the address. -/
def isHttp (u : Url) : Bool := u.scheme == "http" || u.scheme == "https"

/-! ### Encoding the parts -/

/-- Percent-encode the bytes of a character unless it may stand as it is. -/
def encodeChar (allowed : Char → Bool) (c : Char) : List Char :=
  if allowed c && 0x20 ≤ c.toNat && c.toNat < 0x7F then [c]
  else c.toString.toUTF8.toList.flatMap Text.Percent.escapeByte

def encodePart (allowed : Char → Bool) (part : List Char) : List Char :=
  part.flatMap (encodeChar allowed)

def inPath (c : Char) : Bool := !" \"#<>?`\x7b\x7d".toList.contains c

def inQuery (c : Char) : Bool := !" \"#<>'".toList.contains c

def inFragment (c : Char) : Bool := !" \"<>`".toList.contains c

/-! ### The path -/

def isSlash (c : Char) : Bool := c == '/' || c == '\\'

/-- A dot, perhaps written as an escape, at the front of a segment. -/
def dropDot : List Char → Option (List Char)
  | '.' :: rest => some rest
  | '%' :: '2' :: 'e' :: rest => some rest
  | '%' :: '2' :: 'E' :: rest => some rest
  | _ => none

def isSingleDot (segment : List Char) : Bool := dropDot segment == some []

def isDoubleDot (segment : List Char) : Bool := (dropDot segment).any isSingleDot

def segments : List Char → List (List Char)
  | [] => [[]]
  | c :: rest =>
    if isSlash c then [] :: segments rest
    else
      match segments rest with
      | [] => [[c]]
      | first :: more => (c :: first) :: more

/-- Resolve dots in segments, the ones already done in reverse.  A dot at the end
    leaves an empty segment. -/
def resolveDots : List (List Char) → List (List Char) → List (List Char)
  | done, [] => done.reverse
  | done, segment :: rest =>
    if isDoubleDot segment then
      resolveDots (if rest.isEmpty then [] :: done.tail else done.tail) rest
    else if isSingleDot segment then
      resolveDots (if rest.isEmpty then [] :: done else done) rest
    else resolveDots (encodePart inPath segment :: done) rest

/-- The path in normal form.  It starts with a slash. -/
def normalPath (path : List Char) : String :=
  let relative :=
    match path with
    | c :: rest => if isSlash c then rest else path
    | [] => []
  String.ofList ((resolveDots [] (segments relative)).flatMap fun segment => '/' :: segment)

/-! ### The authority -/

/-- The port that a scheme uses when none is given. -/
def defaultPort? : String → Option Nat
  | "http" | "ws" => some 80
  | "https" | "wss" => some 443
  | "ftp" => some 21
  | _ => none

/-- Characters that no host has. -/
def isForbiddenInHost (c : Char) : Bool :=
  c.toNat ≤ 0x20 || 0x7F ≤ c.toNat || "#/<>?@[\\]^|%:".toList.contains c

/-- Split off what follows the last character with the property `p`. -/
def afterLast (p : Char → Bool) (text : List Char) : List Char :=
  (text.reverse.takeWhile fun c => !p c).reverse

/-- The host and the port, which follows a colon. -/
def splitPort (text : List Char) : List Char × Option (List Char) :=
  match text with
  | '[' :: _ =>
    let host := text.takeWhile (· ≠ ']') ++ [']']
    match text.drop host.length with
    | ':' :: port => (host, some port)
    | _ => (host, none)
  | _ =>
    match text.dropWhile (· ≠ ':') with
    | ':' :: port => (text.takeWhile (· ≠ ':'), some port)
    | _ => (text, none)

def normalHost? (host : List Char) : Option String :=
  match host with
  | [] => none
  | '[' :: inner =>
    if inner.dropLast.all fun c => (Text.Percent.hexValue? (UInt8.ofNat c.toNat)).isSome || c == ':' then
      some (String.ofList (host.map Char.toLower))
    else none
  | _ => if host.any isForbiddenInHost then none else some (String.ofList (host.map Char.toLower))

/-- The number of a port; `some none` when there is nothing to write. -/
def normalPort? (scheme : String) (port : Option (List Char)) : Option (Option Nat) :=
  match port with
  | none | some [] => some none
  | some digits =>
    if digits.all Char.isDigit then
      let n := digits.foldl (fun n c => n * 10 + (c.toNat - 48)) 0
      if n < Nat.pow 2 16 then some (if defaultPort? scheme = some n then none else some n) else none
    else none

/-- The authority in normal form, without a user. -/
def normalAuthority? (scheme : String) (text : List Char) : Option String := do
  let (host, port) := splitPort (afterLast (· == '@') text)
  let host ← normalHost? host
  match ← normalPort? scheme port with
  | some n => return host ++ ":" ++ toString n
  | none => return host

/-! ### The whole -/

/-- The scheme in lower case and what follows its colon. -/
def splitScheme? (text : List Char) : Option (String × List Char) :=
  let isSchemeChar (c : Char) : Bool := c.isAlphanum || c == '+' || c == '-' || c == '.'
  match text with
  | first :: _ =>
    if first.isAlpha then
      match text.dropWhile isSchemeChar with
      | ':' :: rest => some (String.ofList ((text.takeWhile isSchemeChar).map Char.toLower), rest)
      | _ => none
    else none
  | [] => none

/-- What stands before the first character with the property `p`, and from it on. -/
def splitAt (p : Char → Bool) (text : List Char) : List Char × List Char :=
  (text.takeWhile fun c => !p c, text.dropWhile fun c => !p c)

/-- Control characters and spaces at the ends do not belong to an address, line breaks
    and tabs nowhere. -/
def clean (text : String) : List Char :=
  let isOuter (c : Char) : Bool := c.toNat ≤ 0x20
  let trimmed := ((text.toList.dropWhile isOuter).reverse.dropWhile isOuter).reverse
  trimmed.filter fun c => !(c == '\n' || c == '\r' || c == '\t')

def parse? (text : String) : Option Url := do
  let (scheme, rest) ← splitScheme? (clean text)
  let (beforeFragment, fragment) := splitAt (· == '#') rest
  let (hierarchy, query) := splitAt (· == '?') beforeFragment
  let query :=
    match query with
    | _ :: query => some (String.ofList (encodePart inQuery query))
    | [] => none
  let fragment :=
    match fragment with
    | _ :: fragment => some (String.ofList (encodePart inFragment fragment))
    | [] => none
  if (defaultPort? scheme).isSome then
    let (authority, path) := splitAt isSlash (hierarchy.dropWhile isSlash)
    let authority ← normalAuthority? scheme authority
    return ⟨scheme, some authority, normalPath path, query, fragment⟩
  else
    return ⟨scheme, none, String.ofList (encodePart (fun _ => true) hierarchy), query, fragment⟩

end Url

end DesignMarkup
