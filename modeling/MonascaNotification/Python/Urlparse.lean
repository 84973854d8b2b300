import MonascaNotification.Infra.Segments
import MonascaNotification.Python.Quote

/-!
# `urllib.parse`, for any text

`urlsplit`, `urlparse`, `urljoin` and `parse_qs` as CPython has them, on lists of characters. The
two checks of a netloc that need the tables of `unicodedata` and the module `ipaddress` are a
parameter (`NetlocChecks`).
-/

namespace MonascaNotification

open Infra

namespace Urlparse

/-! ## Schemes -/

def usesRelative : List String :=
  ["", "ftp", "http", "gopher", "nntp", "imap", "wais", "file", "https", "shttp", "mms",
   "prospero", "rtsp", "rtspu", "sftp", "svn", "svn+ssh", "ws", "wss"]

def usesNetloc : List String :=
  ["", "ftp", "http", "gopher", "nntp", "telnet", "imap", "wais", "file", "mms", "https", "shttp",
   "snews", "prospero", "rtsp", "rtspu", "rsync", "svn", "svn+ssh", "sftp", "nfs", "git",
   "git+ssh", "ws", "wss"]

def usesParams : List String :=
  ["", "ftp", "hdl", "prospero", "http", "https", "shttp", "rtsp", "rtspu", "sip", "sips", "mms",
   "sftp", "tel"]

/-- `c in scheme_chars` -/
def isSchemeChar (c : Char) : Bool := c.isAlphanum || c == '+' || c == '-' || c == '.'

/-! ## `urlsplit` -/

structure SplitResult where
  scheme : List Char
  netloc : List Char
  path : List Char
  query : List Char
  fragment : List Char
  deriving DecidableEq

/-- `_check_bracketed_host` and `_checknetloc`, of which neither looks at an empty netloc. -/
structure NetlocChecks where
  check : List Char → Except PyExn Unit
  check_nil : check [] = .ok ()

/-- For netlocs of ASCII characters without brackets: there is nothing to check. -/
def asciiChecks : NetlocChecks where
  check := fun _ => .ok ()
  check_nil := rfl

/-- What comes before the first `sep`, and what comes after it. -/
def partition (sep : Char) (s : List Char) : List Char × List Char :=
  (s.takeWhile (· != sep), (s.dropWhile (· != sep)).drop 1)

/-- The beginning of `urlsplit`: no leading control characters, and no tabs or line breaks. -/
def strip (url : List Char) : List Char :=
  (url.dropWhile fun c => decide (c.toNat ≤ 32)).filter fun c => c != '\t' && c != '\r' && c != '\n'

/-- The scheme of `url`, and the rest. Without one, it is the default. -/
def splitScheme (url scheme : List Char) : List Char × List Char :=
  match url.takeWhile (· != ':'), url.dropWhile (· != ':') with
  | c :: name, _ :: rest =>
    if c.isAlpha && (c :: name).all isSchemeChar then ((c :: name).map Char.toLower, rest)
    else (scheme, url)
  | _, _ => (scheme, url)

def isDelimiter (c : Char) : Bool := c == '/' || c == '?' || c == '#'

/-- The netloc after `//`, and the rest (`_splitnetloc`). -/
def splitNetloc : List Char → List Char × List Char
  | '/' :: '/' :: url => (url.takeWhile (!isDelimiter ·), url.dropWhile (!isDelimiter ·))
  | url => ([], url)

variable (C : NetlocChecks)

def checkNetloc (netloc : List Char) : Except PyExn Unit :=
  if decide ('[' ∈ netloc) != decide (']' ∈ netloc) then .error .valueError else C.check netloc

/-- `urlsplit(url, scheme)`. The default is empty or the scheme of another result. -/
def urlsplit (url scheme : List Char) : Except PyExn SplitResult := do
  let (scheme, url) := splitScheme (strip url) scheme
  let (netloc, url) := splitNetloc url
  checkNetloc C netloc
  let (url, fragment) := partition '#' url
  let (path, query) := partition '?' url
  return { scheme, netloc, path, query, fragment }

/-! ## Host and port -/

/-- `_hostinfo`: the host, and the text of the port. -/
def hostInfo (netloc : List Char) : List Char × List Char :=
  let hostinfo := (netloc.reverse.takeWhile (· != '@')).reverse
  if '[' ∈ hostinfo then
    let (host, rest) := partition ']' (partition '[' hostinfo).2
    (host, (partition ':' rest).2)
  else partition ':' hostinfo

/-- `.hostname`. A zone keeps its case. -/
def hostname (P : Platform) (netloc : List Char) : Option String :=
  let host := (hostInfo netloc).1
  if host = [] then none
  else some (P.lower (String.ofList (host.takeWhile (· != '%'))) ++
    String.ofList (host.dropWhile (· != '%')))

/-- `.port` -/
def port (netloc : List Char) : Except PyExn (Option Nat) :=
  let text := (hostInfo netloc).2
  if text = [] then .ok none
  else if text.all Char.isDigit then
    let number := text.foldl (fun n c => 10 * n + (c.toNat - '0'.toNat)) 0
    if number ≤ 65535 then .ok (some number) else .error .valueError
  else .error .valueError

/-! ## `urlparse` and its inverse -/

structure ParseResult extends SplitResult where
  params : List Char
  deriving DecidableEq

/-- The part up to the last `/`, and the part after it. -/
def splitLast (path : List Char) : List Char × List Char :=
  ((path.reverse.dropWhile (· != '/')).reverse, (path.reverse.takeWhile (· != '/')).reverse)

/-- `_splitparams`. -/
def splitParams (path : List Char) : List Char × List Char :=
  let (directory, last) := splitLast path
  let (name, params) := partition ';' last
  (directory ++ name, params)

def urlparse (url scheme : List Char) : Except PyExn ParseResult := do
  let result ← urlsplit C url scheme
  if String.ofList result.scheme ∈ usesParams ∧ ';' ∈ result.path then
    let (path, params) := splitParams result.path
    return { result with path, params }
  return { result with params := [] }

/-- `urlunsplit`. -/
def urlunsplit (s : SplitResult) : List Char :=
  let url :=
    if s.netloc ≠ [] ∨
        (s.scheme ≠ [] ∧ String.ofList s.scheme ∈ usesNetloc ∧ s.path.take 2 ≠ ['/', '/']) then
      '/' :: '/' :: s.netloc ++
        (if s.path ≠ [] ∧ s.path.head? ≠ some '/' then '/' :: s.path else s.path)
    else s.path
  let url := if s.scheme ≠ [] then s.scheme ++ ':' :: url else url
  let url := if s.query ≠ [] then url ++ '?' :: s.query else url
  if s.fragment ≠ [] then url ++ '#' :: s.fragment else url

/-- `urlunparse`. -/
def urlunparse (p : ParseResult) : List Char :=
  urlunsplit
    { p.toSplitResult with path := if p.params ≠ [] then p.path ++ ';' :: p.params else p.path }

/-! ## `urljoin` -/

def dots : Dots (List Char) where
  here := ['.']
  up := ['.', '.']
  empty := []
  here_ne_empty := List.cons_ne_nil _ _
  up_ne_empty := List.cons_ne_nil _ _

/-- `filter(None, segments[1:-1])`, with the first and the last segment as they are. -/
def dropInnerEmpty : List (List Char) → List (List Char)
  | [] => []
  | first :: rest => first :: (rest.dropLast.filter (· ≠ []) ++ rest.getLast?.toList)

/-- The segments that are resolved: those of `path`, after the directory of the base. -/
def joinSegments (basePath path : List Char) : List (List Char) :=
  if path.head? = some '/' then path.splitOn '/'
  else
    let baseParts := basePath.splitOn '/'
    let baseParts := if baseParts.getLast? = some [] then baseParts else baseParts.dropLast
    dropInnerEmpty (baseParts ++ path.splitOn '/')

/-- `'/'.join(resolved_path) or '/'` -/
def joinPath (basePath path : List Char) : List Char :=
  let joined := ['/'].intercalate (dots.resolve [] (joinSegments basePath path))
  if joined = [] then ['/'] else joined

/-- `urljoin`. -/
def urljoin (base url : List Char) : Except PyExn (List Char) := do
  if base = [] then
    return url
  if url = [] then
    return base
  let b ← urlparse C base []
  let u ← urlparse C url b.scheme
  if u.scheme ≠ b.scheme ∨ String.ofList u.scheme ∉ usesRelative then
    return url
  if String.ofList u.scheme ∈ usesNetloc ∧ u.netloc ≠ [] then
    return urlunparse u
  let netloc := if String.ofList u.scheme ∈ usesNetloc then b.netloc else u.netloc
  if u.path = [] ∧ u.params = [] then
    let query := if u.query = [] then b.query else u.query
    return urlunparse { u with netloc, query, path := b.path, params := b.params }
  return urlunparse { u with netloc, path := joinPath b.path u.path }

/-! ## `parse_qs` -/

/-- `unquote(s.replace('+', ' '))` -/
def unquotePlus (s : List Char) : String :=
  String.ofList (unquote (s.map fun c => if c = '+' then ' ' else c))

/-- One item of a query. Without `=`, and with an empty value, it is left out. -/
def parseItem (item : List Char) : Option (String × String) :=
  let (name, value) := partition '=' item
  if value = [] then none else some (unquotePlus name, unquotePlus value)

/-- `parse_qsl`. -/
def parseQsl (query : List Char) : List (String × String) := (query.splitOn '&').filterMap parseItem

/-- `parse_qs`. -/
def parseQs (query : List Char) : QueryParams := (parseQsl query).foldl addParam []

/-- The functions that the plugins call. -/
def urllib : Urllib where
  query := fun address => (urlsplit C address.toList []).map fun s => String.ofList s.query
  parseQs := fun query => parseQs query.toList
  withoutQuery := fun address => do
    let parsed ← urlparse C address.toList []
    let url ← urljoin C address.toList parsed.path
    return String.ofList url

end Urlparse

/-- For addresses of ASCII characters without brackets. -/
def cpythonUrls : Urllib := Urlparse.urllib Urlparse.asciiChecks

example : (cpythonUrls.query "https://slack.com/api/chat.postMessage?token=t&channel=%23ops").map
    cpythonUrls.parseQs = .ok [("token", ["t"]), ("channel", ["#ops"])] := by decide +kernel

end MonascaNotification
