import ShapeQuery.Iri.Address
import ShapeQuery.Text.Quoted

/-!
Resolving an IRI reference against a base. A reference is cut into scheme, authority, path,
parameters, query and fragment; what it lacks comes from the base, and dot segments are removed from
the joined path. Only some schemes take part in this: see `joinsPaths`, `hasAuthority` and
`hasParameters`.
-/
namespace ShapeQuery.Iri

/-- Why a reference or a base cannot be cut into parts: its authority is
malformed. -/
inductive Fault where
  | unbalancedBrackets
  | badFutureAddress
  | badAddress (host : String)
  | version4InBrackets
  /-- A character of the authority stands for one that divides the parts of an IRI. -/
  | ambiguousAuthority (authority : String)
deriving DecidableEq, Repr

def Fault.message : Fault → String
  | .unbalancedBrackets => "Invalid IPv6 URL"
  | .badFutureAddress => "IPvFuture address is invalid"
  | .badAddress host => Text.quoted host ++ " does not appear to be an IPv4 or IPv6 address"
  | .version4InBrackets => "An IPv4 address cannot be in brackets"
  | .ambiguousAuthority authority =>
    "netloc '" ++ authority ++ "' contains invalid characters under NFKC normalization"

structure Parts where
  scheme : List Char
  authority : List Char
  path : List Char
  parameters : List Char
  query : List Char
  fragment : List Char

/-- Schemes whose references are resolved against a base. A reference with any
other scheme stands for itself. -/
def relativeSchemes : List String :=
  ["", "ftp", "http", "gopher", "nntp", "imap", "wais", "file", "https", "shttp", "mms", "prospero",
    "rtsp", "rtsps", "rtspu", "sftp", "svn", "svn+ssh", "ws", "wss"]

/-- Schemes with an authority. -/
def authoritySchemes : List String :=
  ["", "ftp", "http", "gopher", "nntp", "telnet", "imap", "wais", "file", "mms", "https", "shttp",
    "snews", "prospero", "rtsp", "rtsps", "rtspu", "rsync", "svn", "svn+ssh", "sftp", "nfs", "git",
    "git+ssh", "ws", "wss"]

/-- Schemes whose paths end in parameters after a semicolon. For other schemes
a semicolon belongs to the path. -/
def parameterSchemes : List String :=
  ["", "ftp", "hdl", "prospero", "http", "imap", "https", "shttp", "rtsp", "rtsps", "rtspu", "sip",
    "sips", "mms", "sftp", "tel"]

def joinsPaths (scheme : List Char) : Bool := relativeSchemes.contains (String.ofList scheme)

def hasAuthority (scheme : List Char) : Bool := authoritySchemes.contains (String.ofList scheme)

def hasParameters (scheme : List Char) : Bool := parameterSchemes.contains (String.ofList scheme)

/-- Characters that compatibility normalisation turns into one of `/ ? # @ :`,
alone or among others. -/
def ambiguousCharacters : List Nat :=
  [0x2047, 0x2048, 0x2049, 0x2100, 0x2101, 0x2105, 0x2106, 0x2A74, 0xFE13, 0xFE16, 0xFE55, 0xFE56,
    0xFE5F, 0xFE6B, 0xFF03, 0xFF0F, 0xFF1A, 0xFF1F, 0xFF20]

/-- Refuses a host in brackets that is no address of version 6 or later. -/
def checkBracketedHost (host : List Char) : Except Fault Unit :=
  if host.head? = some 'v' then
    if isFutureAddress host then .ok () else .error .badFutureAddress
  else if isVersion4 host then .error .version4InBrackets
  else if isVersion6 host then .ok ()
  else .error (.badAddress (String.ofList host))

/-- Refuses brackets in an authority that do not hold an address. -/
def checkBrackets (authority : List Char) : Except Fault Unit :=
  match authority.contains '[', authority.contains ']' with
  | false, false => .ok ()
  | true, true =>
    let afterOpening := ((Text.cutFirst '[' authority).2).getD []
    checkBracketedHost (Text.cutFirst ']' afterOpening).1
  | _, _ => .error .unbalancedBrackets

/-- Refuses characters that would divide the authority once normalised, for the
host would then be another one. -/
def checkCharacters (authority : List Char) : Except Fault Unit :=
  if authority.any fun c => ambiguousCharacters.contains c.toNat then
    .error (.ambiguousAuthority (String.ofList authority))
  else .ok ()

def isSchemeChar (c : Char) : Bool :=
  c.isAlphanum || c == '+' || c == '-' || c == '.'

/-- The scheme of a reference, in lower case, and what follows its colon. -/
def cutScheme? (text : List Char) : Option (List Char × List Char) :=
  match Text.cutFirst ':' text with
  | (first :: more, some rest) =>
    if first.isAlpha && (first :: more).all isSchemeChar then
      some ((first :: more).map Char.toLower, rest)
    else none
  | _ => none

/-- The parameters at the end of a path: what follows the first semicolon of
its last segment. -/
def cutParameters (path : List Char) : List Char × List Char :=
  let last := (path.reverse.takeWhile (· != '/')).reverse
  let directory := path.take (path.length - last.length)
  match Text.cutFirst ';' last with
  | (name, some parameters) => (directory ++ name, parameters)
  | (_, none) => (path, [])

/-- The reference without leading control characters and blanks, and without
tabs and line ends. -/
def clean (text : List Char) : List Char :=
  (text.dropWhile (·.toNat ≤ 0x20)).filter fun c => c != '\t' && c != '\r' && c != '\n'

def cutAuthority (text : List Char) : List Char × List Char :=
  match text with
  | '/' :: '/' :: rest =>
    let authority := rest.takeWhile fun c => c != '/' && c != '?' && c != '#'
    (authority, rest.drop authority.length)
  | _ => ([], text)

/-- Cuts a reference into its parts; `scheme` is taken if it has none. -/
def split (scheme text : List Char) : Except Fault Parts := do
  let text := clean text
  let (scheme, text) := (cutScheme? text).getD (scheme, text)
  let (authority, text) := cutAuthority text
  checkBrackets authority
  let (text, fragment) := Text.cutFirst '#' text
  let (path, query) := Text.cutFirst '?' text
  checkCharacters authority
  let (path, parameters) := if hasParameters scheme then cutParameters path else (path, [])
  return ⟨scheme, authority, path, parameters, query.getD [], fragment.getD []⟩

/-- Puts the parts together again. Without slashes in front, a path that starts
with two of them would be taken for an authority. -/
def Parts.join (parts : Parts) : List Char :=
  let path :=
    if parts.parameters.isEmpty then parts.path else parts.path ++ ';' :: parts.parameters
  let needsSlashes := !parts.authority.isEmpty ||
    (!parts.scheme.isEmpty && hasAuthority parts.scheme) || ['/', '/'].isPrefixOf path
  let path :=
    if needsSlashes then
      let rooted := if path.isEmpty || path.head? = some '/' then path else '/' :: path
      '/' :: '/' :: parts.authority ++ rooted
    else path
  let path := if parts.scheme.isEmpty then path else parts.scheme ++ ':' :: path
  let path := if parts.query.isEmpty then path else path ++ '?' :: parts.query
  if parts.fragment.isEmpty then path else path ++ '#' :: parts.fragment

/-- Removes dot segments; `done` holds the segments so far in reverse. Two dots
at the start of the path have nothing to remove. -/
def removeDots (done : List (List Char)) : List (List Char) → List (List Char)
  | [] => done.reverse
  | segment :: rest =>
    if segment = ['.', '.'] then removeDots (done.drop 1) rest
    else if segment = ['.'] then removeDots done rest
    else removeDots (segment :: done) rest

/-- Drops the empty segments, except at the first and the last place. -/
def dropInnerEmpty (segments : List (List Char)) : List (List Char) :=
  match segments with
  | [] => []
  | first :: rest =>
    match rest.getLast? with
    | none => [first]
    | some last => first :: rest.dropLast.filter (!·.isEmpty) ++ [last]

/-- The path of a reference, resolved against the path of its base. -/
def joinPaths (base path : List Char) : List Char :=
  let baseSegments := Text.splitAt '/' base
  let directory :=
    if baseSegments.getLast? = some [] then baseSegments else baseSegments.dropLast
  let segments :=
    if path.head? = some '/' then Text.splitAt '/' path
    else dropInnerEmpty (directory ++ Text.splitAt '/' path)
  let resolved := removeDots [] segments
  let resolved :=
    match segments.getLast? with
    | some last => if last = ['.'] ∨ last = ['.', '.'] then resolved ++ [[]] else resolved
    | none => resolved
  let joined := Text.joinWith '/' resolved
  if joined.isEmpty then ['/'] else joined

/-- Resolves a reference against a base. An empty base leaves the reference as
it is, and an empty reference stands for the base. -/
def resolve (base reference : List Char) : Except Fault (List Char) :=
  if base.isEmpty then .ok reference
  else if reference.isEmpty then .ok base
  else do
    let b ← split [] base
    let r ← split b.scheme reference
    if r.scheme != b.scheme || !joinsPaths r.scheme then
      return reference
    else if hasAuthority r.scheme && !r.authority.isEmpty then
      return r.join
    else
      let r := if hasAuthority r.scheme then { r with authority := b.authority } else r
      if r.path.isEmpty && r.parameters.isEmpty then
        let query := if r.query.isEmpty then b.query else r.query
        return { r with path := b.path, parameters := b.parameters, query }.join
      else
        return { r with path := joinPaths b.path r.path }.join

end ShapeQuery.Iri
