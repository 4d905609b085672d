import PaymentsProcessor.Python.IpAddress

namespace Python

-- The Unicode tables that `str.lower` and `unicodedata.normalize` consult.
structure Unicode where
  lower : String → String
  nfkc : String → String

-- The parts of an `urlparse` result the program reads.
structure ParsedUrl where
  scheme : List Char
  netloc : List Char

namespace UrlParse

def isAscii (c : Char) : Bool := c.toNat < 128

def isAsciiAlpha (c : Char) : Bool := ('a' ≤ c ∧ c ≤ 'z') ∨ ('A' ≤ c ∧ c ≤ 'Z')

def lowerAscii (c : Char) : Char := if 'A' ≤ c ∧ c ≤ 'Z' then Char.ofNat (c.toNat + 32) else c

def isSchemeChar (c : Char) : Bool :=
  isAsciiAlpha c ∨ ('0' ≤ c ∧ c ≤ '9') ∨ c = '+' ∨ c = '-' ∨ c = '.'

-- Leading control characters and spaces are dropped, tabs and line breaks everywhere.
def sanitize (url : List Char) : List Char :=
  (url.dropWhile fun c => c.toNat ≤ 0x20).filter fun c => c ≠ '\t' ∧ c ≠ '\r' ∧ c ≠ '\n'

def splitScheme (url : List Char) : List Char × List Char :=
  let (before, found, after) := partition ':' url
  if found ∧ (before.head?.map isAsciiAlpha).getD false ∧ before.all isSchemeChar then
    (before.map lowerAscii, after)
  else ([], url)

def splitNetloc : List Char → List Char
  | '/' :: '/' :: rest => rest.takeWhile fun c => c ≠ '/' ∧ c ≠ '?' ∧ c ≠ '#'
  | _ => []

-- `v` hex digits, a dot and at least one more character other than a line break
def isIPvFuture (host : List Char) : Bool :=
  let version := (host.drop 1).takeWhile IPAddress.isHexDigit
  let rest := (host.drop 1).drop version.length
  version ≠ [] ∧ rest.head? = some '.' ∧ 1 < rest.length ∧ '\n' ∉ rest

def checkBracketedHost (host : List Char) : Except PyError Unit :=
  if host.head? = some 'v' then
    if isIPvFuture host then .ok () else .error .ValueError
  else match IPAddress.ip_address host with
    | .ok (.v6 _) => .ok ()
    | _ => .error .ValueError

def checkBracketedNetloc (netloc : List Char) : Except PyError Unit :=
  let hostinfo := afterLast '@' netloc
  let (before, bracket, bracketed) := partition '[' hostinfo
  if bracket then
    let (host, _, port) := partition ']' bracketed
    if before ≠ [] ∨ (port ≠ [] ∧ port.head? ≠ some ':') then .error .ValueError
    else checkBracketedHost host
  else checkBracketedHost (partition ':' hostinfo).1

-- No character may turn into a delimiter when the host is normalized.
def checkNetloc (u : Unicode) (netloc : List Char) : Except PyError Unit :=
  if netloc.all isAscii then .ok ()
  else
    let n := netloc.filter fun c => c ≠ '@' ∧ c ≠ ':' ∧ c ≠ '#' ∧ c ≠ '?'
    let normal := (u.nfkc (String.ofList n)).toList
    if normal ≠ n ∧ normal.any fun c => c = '/' ∨ c = '?' ∨ c = '#' ∨ c = '@' ∨ c = ':' then
      .error .ValueError
    else .ok ()

-- `urllib.parse.urlparse(url)`
def urlparse (u : Unicode) (url : String) : Except PyError ParsedUrl := do
  let (scheme, rest) := splitScheme (sanitize url.toList)
  let netloc := splitNetloc rest
  if ('[' ∈ netloc) ≠ (']' ∈ netloc) then throw .ValueError
  if '[' ∈ netloc then checkBracketedNetloc netloc
  checkNetloc u netloc
  return ⟨scheme, netloc⟩

end UrlParse

namespace ParsedUrl

-- `_hostinfo`: the host, and the text of the port
def hostinfo (p : ParsedUrl) : List Char × List Char :=
  let hostinfo := afterLast '@' p.netloc
  let (_, bracket, bracketed) := partition '[' hostinfo
  if bracket then
    let (host, _, port) := partition ']' bracketed
    (host, (partition ':' port).2.2)
  else
    let (host, _, port) := partition ':' hostinfo
    (host, port)

def hostname (u : Unicode) (p : ParsedUrl) : Option String :=
  let host := p.hostinfo.1
  if host = [] then none
  else
    let (name, percent, zone) := partition '%' host
    some (u.lower (String.ofList name) ++ String.ofList (if percent then '%' :: zone else []))

def port (p : ParsedUrl) : Except PyError (Option ℕ) :=
  let text := p.hostinfo.2
  if text = [] then .ok none
  else if ¬text.all IPAddress.isDecDigit ∨ maxStrDigits < text.length then .error .ValueError
  else
    let n := text.foldl (fun n c => 10 * n + (c.toNat - 48)) 0
    if n ≤ 65535 then .ok (some n) else .error .ValueError

end ParsedUrl

end Python
